import Descent.Files.Tree
import Mathlib.Logic.Basic

/-!
# Places of paths

Where a path leads does not depend on the tree: names are followed one by one, and the
tree only has to have a directory at every place on the way. What is put at a place is
found there, and elsewhere nothing changes.
-/

namespace Descent.Files.FileTree

variable {t t' : FileTree} {place q : Place} {entry : Entry} {path : String}

/-! ### Entries of a tree -/

@[simp] theorem at?_nil : t.at? [] = some .directory := rfl

/-- A place that holds no directory is not the root. -/
theorem ne_nil_of_at?_ne (h : t.at? q ≠ some .directory) : q ≠ [] := by
  rintro rfl
  exact h at?_nil

private theorem at?_of_ne_nil (h : q ≠ []) :
    t.at? q = (t.entries.find? fun e => e.1 == q).map (·.2) := by
  rw [at?, if_neg (by simpa using h)]

private theorem find?_eq_none_of_put (h : place ≠ []) (hgone : ¬(t.at? place).isSome) :
    t.entries.find? (fun e => e.1 == place) = none := by
  rw [at?_of_ne_nil h, Option.isSome_map] at hgone
  exact Option.not_isSome_iff_eq_none.mp hgone

private theorem fst_of_find? {found : Place × Entry}
    (h : t.entries.find? (fun e => e.1 == q) = some found) : found.1 = q := by
  simpa using List.find?_some h

/-- After an entry is put at a place it is there, and every other place is as it was. -/
theorem at?_put (h : place ≠ []) :
    (t.put place entry).at? q = if q = place then some entry else t.at? q := by
  rcases eq_or_ne q [] with rfl | hq
  · simp [Ne.symm h]
  rw [at?_of_ne_nil hq, at?_of_ne_nil hq, put]
  split
  next hthere =>
    -- replacing keeps the places, so the same entry is found and then replaced
    have hsame : ((fun e : Place × Entry => e.1 == q) ∘ fun e =>
        if e.1 == place then (place, entry) else e) = fun e => e.1 == q := by
      funext e
      simp only [Function.comp_apply]
      split <;> simp_all
    rw [List.find?_map, hsame]
    rw [at?_of_ne_nil h, Option.isSome_map] at hthere
    split
    next heq =>
      subst heq
      obtain ⟨found, hfound⟩ := Option.isSome_iff_exists.mp hthere
      simp [hfound, fst_of_find? hfound]
    next hne =>
      cases hfound : t.entries.find? fun e => e.1 == q with
      | none => rfl
      | some found =>
        simp [fst_of_find? hfound, hne]
  next hgone =>
    have hnone := find?_eq_none_of_put h hgone
    rw [List.find?_append]
    split
    next heq => subst heq; simp [hnone]
    next hne => simp [Ne.symm hne]

/-- Every entry that stands for the place is this one. -/
def HoldsOnly (t : FileTree) (place : Place) (entry : Entry) : Prop :=
  ∀ x ∈ t.entries, x.1 = place → x.2 = entry

/-- What is put at a place is the only entry there. -/
theorem holdsOnly_put (h : place ≠ []) : (t.put place entry).HoldsOnly place entry := by
  intro x hx hplace
  rw [put] at hx
  split at hx
  next =>
    obtain ⟨y, -, rfl⟩ := List.mem_map.mp hx
    split at hplace <;> simp_all
  next hgone =>
    rcases List.mem_append.mp hx with hmem | hmem
    · have hnone := List.find?_eq_none.mp (find?_eq_none_of_put h hgone) x hmem
      exact absurd hplace (by simpa using hnone)
    · rw [List.mem_singleton.mp hmem]

/-- To put an entry at another place leaves the only entry of a place. -/
theorem HoldsOnly.put_of_ne {other : Place} {new : Entry} (h : t.HoldsOnly place entry)
    (hne : other ≠ place) : (t.put other new).HoldsOnly place entry := by
  intro x hx hplace
  rw [put] at hx
  split at hx
  next =>
    obtain ⟨y, hy, rfl⟩ := List.mem_map.mp hx
    split at hplace
    · exact absurd hplace hne
    next hkept => rw [if_neg hkept]; exact h y hy hplace
  next =>
    rcases List.mem_append.mp hx with hmem | hmem
    · exact h x hmem hplace
    · rw [List.mem_singleton.mp hmem] at hplace
      exact absurd hplace hne

/-- Putting what a place holds there once more changes nothing. -/
theorem HoldsOnly.put_self (h : t.HoldsOnly place entry) (hthere : t.at? place = some entry) :
    t.put place entry = t := by
  have hsame : ∀ x ∈ t.entries, (if x.1 == place then (place, entry) else x) = id x := by
    intro x hx
    split
    next hplace =>
      rw [← h x hx (beq_iff_eq.mp hplace), ← beq_iff_eq.mp hplace]
      rfl
    next => rfl
  rw [put, if_pos (by simp [hthere]), List.map_congr_left hsame, List.map_id]

/-- Every directory of the first tree is one of the second tree. -/
def KeepsDirectories (t t' : FileTree) : Prop :=
  ∀ q, t.at? q = some .directory → t'.at? q = some .directory

/-! ### Names of a path -/

/-- One name further: empty names and single dots stay, two dots go up. -/
def stepTo (place : Place) (name : String) : Place :=
  if name == "" || name == "." then place
  else if name == ".." then place.dropLast
  else place ++ [name]

/-- The names of a path between its slashes. -/
def names (path : String) : List String := (namesOf path.toList).map String.ofList

/-- The place a path leads to. -/
def placeOf (path : String) : Place := (names path).foldl stepTo []

/-- The first few names of a path, from none to all of them, lead to the place. -/
def OnTheWay (path : String) (q : Place) : Prop :=
  ∃ above, above <+: names path ∧ above.foldl stepTo [] = q

/-- The place of a path is on its way. -/
theorem onTheWay_placeOf (path : String) : OnTheWay path (placeOf path) :=
  ⟨names path, List.prefix_refl _, rfl⟩

@[simp] theorem stepTo_empty : stepTo place "" = place := rfl

private theorem foldl_stepTo_of_empty {blanks : List String} (h : ∀ name ∈ blanks, name = "") :
    blanks.foldl stepTo place = place := by
  induction blanks with
  | nil => rfl
  | cons name rest ih =>
    rw [List.foldl_cons, h name List.mem_cons_self, stepTo_empty,
      ih fun n hn => h n (List.mem_cons_of_mem _ hn)]

/-- The pieces between slashes are at least one. -/
theorem namesOf_ne_nil (text : List Char) : namesOf text ≠ [] := by
  cases text with
  | nil => simp [namesOf]
  | cons c rest =>
    rw [namesOf]
    split
    · simp
    · split <;> simp

/-- The names of two texts with a slash between them. -/
theorem namesOf_append_slash (a b : List Char) :
    namesOf (a ++ '/' :: b) = namesOf a ++ namesOf b := by
  induction a with
  | nil => rfl
  | cons c rest ih =>
    rw [List.cons_append, namesOf, namesOf, ih]
    split
    · rfl
    · cases h : namesOf rest with
      | nil => exact absurd h (namesOf_ne_nil rest)
      | cons name names => rfl

/-- A text without slashes is one piece. -/
theorem namesOf_eq_singleton {text : List Char} (h : '/' ∉ text) : namesOf text = [text] := by
  induction text with
  | nil => rfl
  | cons c rest ih =>
    rw [List.mem_cons, not_or] at h
    rw [namesOf, if_neg (by simpa using Ne.symm h.1), ih h.2]

/-- The name is one of a file or directory, and no way to move. -/
structure IsPlain (name : String) : Prop where
  noSlash : '/' ∉ name.toList
  not_empty : name ≠ ""
  not_here : name ≠ "."
  not_above : name ≠ ".."

private theorem IsPlain.stepTo_eq {name : String} (h : IsPlain name) :
    stepTo place name = place ++ [name] := by
  simp [stepTo, h.not_empty, h.not_here, h.not_above]

private theorem IsPlain.names_eq {name : String} (h : IsPlain name) : names name = [name] := by
  simp [names, namesOf_eq_singleton h.noSlash]

/-- The path to a name inside a directory leads to that name behind the place of the directory. -/
theorem placeOf_join {directory name : String} (h : IsPlain name) :
    placeOf (join directory name) = placeOf directory ++ [name] := by
  rw [join]
  split
  next hempty =>
    rw [String.isEmpty_iff.mp hempty, placeOf, h.names_eq, List.foldl_cons, List.foldl_nil,
      h.stepTo_eq]
    rfl
  split
  next hslash =>
    obtain ⟨above, habove⟩ : ∃ above, directory.toList = above ++ ['/'] :=
      List.getLast?_eq_some_iff.mp (beq_iff_eq.mp hslash)
    have hdir : names directory = (namesOf above).map String.ofList ++ [""] := by
      rw [names, habove, namesOf_append_slash, List.map_append]
      rfl
    have hjoin : names (directory ++ name) = (namesOf above).map String.ofList ++ [name] := by
      rw [names, String.toList_append, habove, List.append_assoc, List.singleton_append,
        namesOf_append_slash, List.map_append, ← names, h.names_eq]
    rw [placeOf, placeOf, hdir, hjoin, List.foldl_append, List.foldl_append]
    simp only [List.foldl_cons, List.foldl_nil, h.stepTo_eq, stepTo_empty]
  next =>
    have hjoin : names (directory ++ "/" ++ name) = names directory ++ [name] := by
      rw [names, String.toList_append, String.toList_append, List.append_assoc]
      change (namesOf (directory.toList ++ '/' :: name.toList)).map _ = _
      rw [namesOf_append_slash, List.map_append, ← names, ← names, h.names_eq]
    rw [placeOf, hjoin, List.foldl_append, List.foldl_cons, List.foldl_nil, h.stepTo_eq, ← placeOf]

/-! ### Following a path -/

variable {name : String} {list rest : List String} {target : Target}

/-- Following a first name starts in a directory and leads one name further. -/
theorem follow_cons (h : t.follow place (name :: rest) = .ok target) :
    t.at? place = some .directory ∧
      ∃ next, t.follow (stepTo place name) rest = .ok next ∧ next.place = target.place := by
  -- an end of the names in this place differs from following none of them in the demand only
  have hend : ∀ p : Place, (if rest.isEmpty then Except.ok ⟨p, true⟩ else t.follow p rest) =
      .ok target → ∃ next, t.follow p rest = .ok next ∧ next.place = target.place := by
    intro p hp
    cases rest with
    | nil => exact ⟨⟨p, false⟩, rfl, by cases hp; rfl⟩
    | cons n ns => exact ⟨target, hp, rfl⟩
  rw [follow] at h
  rw [stepTo]
  split at h
  next => cases h
  next hdir =>
    refine ⟨hdir, ?_⟩
    split at h
    next hstay => rw [if_pos hstay]; exact hend place h
    next hmove =>
      rw [if_neg hmove]
      split at h
      next hup => rw [if_pos hup]; exact hend _ h
      next hdown =>
        rw [if_neg hdown]
        split at h
        · cases h
        · exact ⟨target, h, rfl⟩
  next => cases h

/-- Names that are followed lead to their place, and before it there are directories. -/
theorem follow_ok (h : t.follow place list = .ok target) :
    target.place = list.foldl stepTo place ∧
      ∀ above, above <+: list → above ≠ list →
        t.at? (above.foldl stepTo place) = some .directory := by
  induction list generalizing place target with
  | nil =>
    cases h
    exact ⟨rfl, fun above habove hne => absurd (List.prefix_nil.mp habove) hne⟩
  | cons name rest ih =>
    obtain ⟨hdir, next, hnext, hplace⟩ := follow_cons h
    obtain ⟨hnextPlace, hway⟩ := ih hnext
    refine ⟨hplace ▸ hnextPlace, fun above habove hne => ?_⟩
    cases above with
    | nil => exact hdir
    | cons first above =>
      obtain ⟨rfl, hrest⟩ := List.cons_prefix_cons.mp habove
      exact hway above hrest (by simpa using hne)

/-- Names are followed in the same way where every directory is kept. -/
theorem KeepsDirectories.follow_eq (hkeeps : t.KeepsDirectories t')
    (h : t.follow place list = .ok target) : t'.follow place list = .ok target := by
  induction list generalizing place with
  | nil => exact h
  | cons name rest ih =>
    obtain ⟨hdir, -⟩ := follow_cons h
    rw [follow, hdir] at h
    rw [follow, hkeeps place hdir]
    have hend : ∀ p : Place, (if rest.isEmpty then Except.ok ⟨p, true⟩ else t.follow p rest) =
        .ok target →
          (if rest.isEmpty then Except.ok ⟨p, true⟩ else t'.follow p rest) = .ok target := by
      intro p hp
      split at hp
      next hempty => rw [if_pos hempty]; exact hp
      next hmore => rw [if_neg hmore]; exact ih hp
    dsimp only at h ⊢
    split at h
    next hstay => rw [if_pos hstay]; exact hend place h
    next hmove =>
      rw [if_neg hmove]
      split at h
      next hup => rw [if_pos hup]; exact hend _ h
      next hdown =>
        rw [if_neg hdown]
        split at h
        · cases h
        next hsize => rw [if_neg hsize]; exact ih h

/-- The names of a path without the empty ones at its end. -/
private def trimmed (path : String) : List String :=
  ((names path).reverse.dropWhile (· == "")).reverse

private theorem exists_names_eq (path : String) :
    ∃ blanks, names path = trimmed path ++ blanks ∧ ∀ name ∈ blanks, name = "" := by
  refine ⟨((names path).reverse.takeWhile (· == "")).reverse, ?_, fun name hname => ?_⟩
  · rw [trimmed, ← List.reverse_append, List.takeWhile_append_dropWhile, List.reverse_reverse]
  · exact beq_iff_eq.mp (List.all_eq_true.mp List.all_takeWhile name (List.mem_reverse.mp hname))

private theorem follow_of_target (h : t.target path = .ok target) :
    ∃ found, t.follow [] (trimmed path) = .ok found ∧ found.place = target.place := by
  rw [FileTree.target] at h
  split at h
  · cases h
  split at h
  · cases h
  split at h
  · cases h
  dsimp only at h
  split at h
  · cases h
  next found hfound => cases h; exact ⟨found, hfound, rfl⟩

/-- A path that leads somewhere leads to its place, and the places before it are directories. -/
theorem target_ok (h : t.target path = .ok target) :
    target.place = placeOf path ∧
      ∀ q, OnTheWay path q → q = placeOf path ∨ t.at? q = some .directory := by
  obtain ⟨found, hfound, hplace⟩ := follow_of_target h
  obtain ⟨hend, hway⟩ := follow_ok hfound
  obtain ⟨blanks, hnames, hblanks⟩ := exists_names_eq path
  have hplaceOf : placeOf path = (trimmed path).foldl stepTo [] := by
    rw [placeOf, hnames, List.foldl_append, foldl_stepTo_of_empty hblanks]
  refine ⟨by rw [← hplace, hend, hplaceOf], ?_⟩
  rintro q ⟨above, habove, rfl⟩
  rcases List.prefix_or_prefix_of_prefix habove (hnames ▸ List.prefix_append _ _)
    with hbefore | hbehind
  · by_cases hall : above = trimmed path
    · exact .inl (hall ▸ hplaceOf.symm)
    · exact .inr (hway above hbefore hall)
  · obtain ⟨some, rfl⟩ := hbehind
    rw [hnames, List.prefix_append_right_inj] at habove
    left
    rw [hplaceOf, List.foldl_append,
      foldl_stepTo_of_empty fun name hname => hblanks name (habove.subset hname)]

/-- A path leads to the same place where every directory is kept. -/
theorem KeepsDirectories.target_eq (hkeeps : t.KeepsDirectories t')
    (h : t.target path = .ok target) : t'.target path = .ok target := by
  obtain ⟨found, hfound, -⟩ := follow_of_target h
  have hfound' := hkeeps.follow_eq hfound
  rw [FileTree.target] at h ⊢
  rw [trimmed, names] at hfound hfound'
  simpa only [hfound, hfound'] using h

end Descent.Files.FileTree
