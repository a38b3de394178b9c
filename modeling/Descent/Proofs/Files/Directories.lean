import Descent.Proofs.Files.Places

/-!
# Making directories

To make the directories of a path puts directories at places on the way of the path that
held nothing, also when it fails on the way. When it succeeds, every place on the way is a
directory, and to make the directories once more changes nothing.
-/

namespace Descent.Files.FileTree

variable {t t₁ t₂ : FileTree} {path : String} {places : Place → Prop}

/-- The second tree is the first one with new directories, all of them at the given places. -/
def Grows (t₁ t₂ : FileTree) (places : Place → Prop) : Prop :=
  ∀ q, t₂.at? q = t₁.at? q ∨ places q ∧ t₁.at? q = none ∧ t₂.at? q = some .directory

namespace Grows

private theorem refl (t : FileTree) (places : Place → Prop) : t.Grows t places := fun _ => .inl rfl

/-- What grows twice at some places has grown at these places. -/
theorem trans {t₃ : FileTree} (h₁ : t₁.Grows t₂ places) (h₂ : t₂.Grows t₃ places) :
    t₁.Grows t₃ places := by
  intro q
  rcases h₁ q with hsame₁ | ⟨hq, hnone, hdir⟩ <;> rcases h₂ q with hsame₂ | ⟨hq', hnone', hdir'⟩
  · exact .inl (hsame₂.trans hsame₁)
  · exact .inr ⟨hq', hsame₁ ▸ hnone', hdir'⟩
  · exact .inr ⟨hq, hnone, hsame₂.trans hdir⟩
  · exact absurd (hnone'.symm.trans hdir) (by simp)

/-- What grows keeps its directories. -/
theorem keepsDirectories (h : t₁.Grows t₂ places) : t₁.KeepsDirectories t₂ := by
  intro q hq
  rcases h q with hsame | ⟨-, -, hdir⟩
  · exact hsame.trans hq
  · exact hdir

/-- What grows at some places does not change elsewhere. -/
theorem eq_of_not (h : t₁.Grows t₂ places) {q : Place} (hq : ¬places q) : t₂.at? q = t₁.at? q :=
  (h q).resolve_right fun hnew => hq hnew.1

end Grows

/-! ### One directory -/

/-- A directory that is made is put at a place that held nothing. -/
theorem makeDirectory_ok (h : t₁.makeDirectory path = .ok t₂) :
    ∃ target, t₁.target path = .ok target ∧ t₁.at? target.place = none ∧
      t₂ = t₁.put target.place .directory := by
  rw [makeDirectory] at h
  split at h
  · cases h
  next target htarget =>
    split at h
    · cases h
    next hnone =>
      split at h
      · cases h; exact ⟨target, htarget, hnone, rfl⟩
      · cases h
      · cases h

/-- A path is one of a directory exactly if it leads to a place with a directory. -/
theorem isDirectory_iff :
    t.isDirectory path ↔
      ∃ target, t.target path = .ok target ∧ t.at? target.place = some .directory := by
  rw [isDirectory]
  split <;> simp_all

/-- All the places on the way to a directory are directories. -/
theorem directory_of_onTheWay (h : t.isDirectory path) {q : Place} (hq : OnTheWay path q) :
    t.at? q = some .directory := by
  obtain ⟨target, htarget, hdir⟩ := isDirectory_iff.mp h
  obtain ⟨hplace, hway⟩ := target_ok htarget
  rcases hway q hq with rfl | hq
  · exact hplace ▸ hdir
  · exact hq

private theorem KeepsDirectories.isDirectory (hkeeps : t₁.KeepsDirectories t₂)
    (h : t₁.isDirectory path) : t₂.isDirectory path := by
  obtain ⟨target, htarget, hdir⟩ := isDirectory_iff.mp h
  exact isDirectory_iff.mpr ⟨target, hkeeps.target_eq htarget, hkeeps _ hdir⟩

/-- To make one directory puts a directory at its place only. -/
theorem grows_makeDirectory (h : t₁.makeDirectory path = .ok t₂) (hpath : places (placeOf path)) :
    t₁.Grows t₂ places := by
  obtain ⟨target, htarget, hnone, rfl⟩ := makeDirectory_ok h
  have hplace : target.place ≠ [] := ne_nil_of_at?_ne (t := t₁) (by simp [hnone])
  intro q
  rw [at?_put hplace]
  split
  next heq =>
    subst heq
    rw [(target_ok htarget).1] at hnone ⊢
    exact .inr ⟨hpath, hnone, rfl⟩
  next => exact .inl rfl

/-- A directory that was made is there. -/
theorem isDirectory_of_makeDirectory (h : t₁.makeDirectory path = .ok t₂) :
    t₂.isDirectory path := by
  have hgrows : t₁.Grows t₂ fun _ => True := grows_makeDirectory h trivial
  obtain ⟨target, htarget, hnone, rfl⟩ := makeDirectory_ok h
  have hplace : target.place ≠ [] := ne_nil_of_at?_ne (t := t₁) (by simp [hnone])
  exact isDirectory_iff.mpr ⟨target, hgrows.keepsDirectories.target_eq htarget,
    by rw [at?_put hplace, if_pos rfl]⟩

/-- To make sure of a directory changes at most its place. -/
theorem grows_ensureDirectory (t : FileTree) (hpath : places (placeOf path)) :
    t.Grows (t.ensureDirectory path).1 places := by
  rw [ensureDirectory]
  split
  next hmade => exact grows_makeDirectory hmade hpath
  next => split <;> exact .refl t places

/-- A directory that was made sure of is there. -/
theorem isDirectory_of_ensureDirectory (h : t₁.ensureDirectory path = (t₂, .ok ())) :
    t₂.isDirectory path := by
  rw [ensureDirectory] at h
  split at h
  next hmade => cases h; exact isDirectory_of_makeDirectory hmade
  next =>
    split at h
    next hdir => cases h; exact hdir
    next => cases h

/-- Where there is a directory none is made. -/
theorem makeDirectory_of_isDirectory (h : t.isDirectory path) :
    t.makeDirectory path = .error .alreadyExists := by
  obtain ⟨target, htarget, hdir⟩ := isDirectory_iff.mp h
  rw [makeDirectory, htarget]
  dsimp only
  rw [hdir]

/-! ### A directory and those above it -/

/-- To make directories puts directories at the places of their paths only. -/
theorem grows_makeDirectories (t : FileTree) {paths : List String}
    (hpaths : ∀ p ∈ paths, places (placeOf p)) : t.Grows (t.makeDirectories paths).1 places := by
  induction paths with
  | nil => exact .refl t places
  | cons path above ih =>
    have hpath : places (placeOf path) := hpaths path List.mem_cons_self
    have habove := ih fun p hp => hpaths p (List.mem_cons_of_mem _ hp)
    rw [makeDirectories]
    split
    next =>
      split
      next hfailed =>
        rw [hfailed] at habove
        exact habove
      next hmade =>
        rw [hmade] at habove
        exact habove.trans (grows_ensureDirectory _ hpath)
    next => exact grows_ensureDirectory t hpath

/-- The innermost of the directories that were made is there. -/
theorem isDirectory_of_makeDirectories {above : List String}
    (h : t₁.makeDirectories (path :: above) = (t₂, .ok ())) : t₂.isDirectory path := by
  rw [makeDirectories] at h
  split at h
  next =>
    split at h
    next => cases h
    next => exact isDirectory_of_ensureDirectory h
  next => exact isDirectory_of_ensureDirectory h

/-- To make directories that are there already changes nothing. -/
theorem makeDirectories_of_isDirectory {above : List String} (h : t.isDirectory path) :
    t.makeDirectories (path :: above) = (t, .ok ()) := by
  rw [makeDirectories, makeDirectory_of_isDirectory h]
  dsimp only
  rw [ensureDirectory, makeDirectory_of_isDirectory h]
  dsimp only
  rw [if_pos h]

/-! ### The paths above a path -/

private theorem not_slash_mem_of_mem_namesOf {text name : List Char} (h : name ∈ namesOf text) :
    '/' ∉ name := by
  induction text generalizing name with
  | nil => simp_all [namesOf]
  | cons c rest ih =>
    rw [namesOf] at h
    split at h
    next =>
      rcases List.mem_cons.mp h with rfl | h
      · exact List.not_mem_nil
      · exact ih h
    next hc =>
      have hc' : '/' ≠ c := fun heq => hc (beq_iff_eq.mpr heq.symm)
      split at h
      next => simp_all
      next first others hrest =>
        rcases List.mem_cons.mp h with rfl | h
        · simpa [hc'] using ih (hrest ▸ List.mem_cons_self)
        · exact ih (hrest ▸ List.mem_cons_of_mem _ h)

private theorem namesOf_intercalate {list : List (List Char)} (hne : list ≠ [])
    (hslash : ∀ name ∈ list, '/' ∉ name) : namesOf (['/'].intercalate list) = list := by
  induction list with
  | nil => exact absurd rfl hne
  | cons name rest ih =>
    have hname := namesOf_eq_singleton (hslash name List.mem_cons_self)
    cases rest with
    | nil => rw [List.intercalate_singleton, hname]
    | cons next rest =>
      have hrest := ih (List.cons_ne_nil _ _) fun n hn => hslash n (List.mem_cons_of_mem _ hn)
      rw [List.intercalate_cons_cons, List.append_assoc, List.singleton_append,
        namesOf_append_slash, hname, hrest, List.singleton_append]

/-- The path of some names has these names. -/
theorem names_joined {list : List (List Char)} (hne : list ≠ [])
    (hslash : ∀ name ∈ list, '/' ∉ name) : names (joined list) = list.map String.ofList := by
  rw [names, joined, String.toList_ofList, namesOf_intercalate hne hslash]

private theorem exists_of_mem_pathsAbove {p : String} {list : List (List Char)}
    (h : p ∈ pathsAbove list) :
    ∃ above, above ≠ [] ∧ above <:+ list ∧ p = joined above.reverse := by
  induction list with
  | nil => cases h
  | cons name rest ih =>
    have hstep : rest ≠ [] → p ∈ joined rest.reverse :: pathsAbove rest →
        ∃ above, above ≠ [] ∧ above <:+ name :: rest ∧ p = joined above.reverse := by
      intro hne hmem
      rcases List.mem_cons.mp hmem with rfl | hmem
      · exact ⟨rest, hne, List.suffix_cons _ _, rfl⟩
      · obtain ⟨above, habove, hsuffix, hp⟩ := ih hmem
        exact ⟨above, habove, hsuffix.trans (List.suffix_cons _ _), hp⟩
    match rest, h with
    | [] :: [], h => cases h
    | (c :: cs) :: [], h => exact hstep (List.cons_ne_nil _ _) h
    | next :: other :: rest, h => exact hstep (List.cons_ne_nil _ _) (by simpa [pathsAbove] using h)

/-- Names that do not count lead nowhere else. -/
theorem foldl_stepTo_filter (place : Place) (list : List (List Char)) :
    ((list.filter fun name => name != [] && name != ['.']).map String.ofList).foldl stepTo place =
      (list.map String.ofList).foldl stepTo place := by
  induction list generalizing place with
  | nil => rfl
  | cons name rest ih =>
    rw [List.filter_cons]
    split
    next => rw [List.map_cons, List.map_cons, List.foldl_cons, List.foldl_cons, ih]
    next hstay =>
      have hname : stepTo place (String.ofList name) = place := by
        rcases eq_or_ne name [] with rfl | hne
        · rfl
        · have hdot : name = ['.'] := by simpa [hne] using hstay
          rw [hdot]; rfl
      rw [List.map_cons, List.foldl_cons, hname, ih]

/-- The paths above a path lead to places on its way. -/
theorem onTheWay_of_mem_ancestors {p : String} (h : p ∈ ancestors path) :
    OnTheWay path (placeOf p) := by
  rw [ancestors] at h
  split at h
  next => cases h
  split at h
  next => cases h
  next first rest hnames =>
    rcases List.mem_cons.mp h with rfl | h
    · exact onTheWay_placeOf _
    obtain ⟨above, hne, hsuffix, rfl⟩ := exists_of_mem_pathsAbove h
    obtain ⟨last, habove⟩ := hsuffix
    have hprefix : above.reverse ++ last.reverse =
        first :: rest.filter fun name => name != [] && name != ['.'] := by
      rw [← List.reverse_append, habove, List.reverse_reverse]
    cases hrev : above.reverse with
    | nil => exact absurd (List.reverse_eq_nil_iff.mp hrev) hne
    | cons first' kept =>
      rw [hrev, List.cons_append, List.cons.injEq] at hprefix
      obtain ⟨rfl, hkept⟩ := hprefix
      obtain ⟨before, behind, rfl, rfl, -⟩ := List.filter_eq_append_iff.mp hkept.symm
      have hslash : ∀ name ∈ first' :: before.filter (fun name => name != [] && name != ['.']),
          '/' ∉ name := by
        intro name hname
        suffices hmem : name ∈ namesOf path.toList from not_slash_mem_of_mem_namesOf hmem
        rw [hnames]
        rcases List.mem_cons.mp hname with rfl | hname
        · exact List.mem_cons_self
        · exact List.mem_cons_of_mem _ (List.mem_append_left _ (List.mem_filter.mp hname).1)
      refine ⟨(first' :: before).map String.ofList, ?_, ?_⟩
      · rw [names, hnames]
        exact List.IsPrefix.map _ (List.cons_prefix_cons.mpr ⟨rfl, List.prefix_append _ _⟩)
      · rw [placeOf, names_joined (List.cons_ne_nil _ _) hslash, List.map_cons, List.map_cons,
          List.foldl_cons, List.foldl_cons, foldl_stepTo_filter]

/-! ### The directories of a path -/

/-- Only places on the way of the path become directories. -/
theorem grows_ancestors (t : FileTree) (path : String) :
    t.Grows (t.makeDirectories (ancestors path)).1 (OnTheWay path) :=
  grows_makeDirectories t fun _ hp => onTheWay_of_mem_ancestors hp

private theorem ancestors_eq (h : path ≠ "") : ∃ above, ancestors path = path :: above := by
  rw [ancestors, if_neg (by simpa using h)]
  split
  next hnil => exact absurd hnil (namesOf_ne_nil _)
  next first rest _ => exact ⟨_, rfl⟩

/-- With the directories of a path every place on its way is a directory. -/
theorem directory_of_makeDirectories (h : t₁.makeDirectories (ancestors path) = (t₂, .ok ()))
    {q : Place} (hq : OnTheWay path q) : t₂.at? q = some .directory := by
  rcases eq_or_ne path "" with rfl | hne
  · obtain ⟨above, habove, rfl⟩ := hq
    have hshort : above = [] ∨ ∃ rest, above = "" :: rest ∧ rest <+: [] :=
      List.prefix_cons_iff.mp habove
    rcases hshort with rfl | ⟨rest, rfl, hrest⟩
    · rfl
    · rw [List.prefix_nil.mp hrest]; rfl
  · obtain ⟨above, habove⟩ := ancestors_eq hne
    exact directory_of_onTheWay (isDirectory_of_makeDirectories (habove ▸ h)) hq

/-- The directories of a path are not made again in a tree that kept them. -/
theorem makeDirectories_again {t₃ : FileTree}
    (h : t₁.makeDirectories (ancestors path) = (t₂, .ok ())) (hkeeps : t₂.KeepsDirectories t₃) :
    t₃.makeDirectories (ancestors path) = (t₃, .ok ()) := by
  rcases eq_or_ne path "" with rfl | hne
  · rfl
  · obtain ⟨above, habove⟩ := ancestors_eq hne
    rw [habove] at h ⊢
    exact makeDirectories_of_isDirectory (hkeeps.isDirectory (isDirectory_of_makeDirectories h))

end Descent.Files.FileTree
