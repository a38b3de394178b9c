import Descent.Proofs.Languages.Tree
import Descent.Proofs.Tokens.Splitting
import Descent.Proofs.Tokens.Whole

/-!
# Trees and their texts

The tokens of a tree are its leaves and parentheses, each a character of its own, so that
spaces never matter: a text is read as a tree if and only if it is the written form of the
tree when all spaces are deleted on both sides. So no two trees are written alike.
-/

namespace Descent.Languages.Tree

open Descent.Parser Descent.Text Descent.Pattern

/-! ### Words -/

/-- The character of a kind. The end has none. -/
def Kind.letters : Kind → List Char
  | a => ['a']
  | b => ['b']
  | lparen => ['(']
  | rparen => [')']
  | finish => []

/-- The kinds of the tokens that write a tree. -/
def word : Tree → List Kind
  | a => [.a]
  | b => [.b]
  | pair left right => .lparen :: left.word ++ right.word ++ [.rparen]

/-- The text without its ASCII spaces. -/
def spaceless (text : String) : List Char := text.toList.filter (· ≠ ' ')

/-- Without spaces a tree is written by the characters of its tokens. -/
theorem spaceless_display (t : Tree) : spaceless t.display = t.word.flatMap Kind.letters := by
  induction t with
  | a | b => rfl
  | pair left right ihl ihr =>
      simp only [spaceless, ne_eq, decide_not] at ihl ihr ⊢
      simp [display, word, Kind.letters, ihl, ihr]

private theorem finish_not_mem_word (t : Tree) : Kind.finish ∉ t.word := by
  induction t with
  | a | b => simp [word]
  | pair left right ihl ihr => simp [word, ihl, ihr]

/-! ### Tokens of a text -/

/-- The rule of a token that is one character. -/
def letterRule (kind : Kind) (c : Char) : LexemeRule Kind :=
  ⟨kind, kind.name, .letter (.singleton c)⟩

/-- The lexicon with its patterns compiled: spaces are skipped, and every token is one character. -/
def lexicon : Lexicon Kind :=
  ⟨[.run (.singleton ' ')],
    [letterRule .a 'a', letterRule .b 'b', letterRule .lparen '(', letterRule .rparen ')'], .finish⟩

private theorem lexicon?_eq : lexicon? = some lexicon := by
  have hspace : compileAnchored? " +" = some (.run (.singleton ' ')) :=
    compileAnchored?_run (by decide +kernel) (by decide +kernel)
  have ha : compileAnchored? "a" = some (.letter (.singleton 'a')) :=
    compileAnchored?_letter (by decide +kernel) (by decide +kernel)
  have hb : compileAnchored? "b" = some (.letter (.singleton 'b')) :=
    compileAnchored?_letter (by decide +kernel) (by decide +kernel)
  have hl : compileAnchored? "\\(" = some (.letter (.singleton '(')) :=
    compileAnchored?_letter (by decide +kernel) (by decide +kernel)
  have hr : compileAnchored? "\\)" = some (.letter (.singleton ')')) :=
    compileAnchored?_letter (by decide +kernel) (by decide +kernel)
  simp [lexicon?, Lexicon.ofPatterns?, skipPatterns, tokenPatterns, hspace, ha, hb, hl, hr, lexicon,
    letterRule]

private theorem skips_eq : lexicon.skips = [.run (.singleton ' ')] := rfl

private theorem exists_of_mem_rules {r : LexemeRule Kind} (h : r ∈ lexicon.rules) :
    ∃ kind c, r = letterRule kind c ∧ kind.letters = [c] := by
  simp only [lexicon, List.mem_cons, List.not_mem_nil, or_false] at h
  rcases h with rfl | rfl | rfl | rfl <;> exact ⟨_, _, rfl, rfl⟩

/-- A token is the first character of the text. -/
theorem letters_of_firstRule? {r : LexemeRule Kind} {text : List Char} {n : Nat}
    (h : lexicon.firstRule? text = some (r, n)) :
    ∃ c rest, text = c :: rest ∧ n = 1 ∧ r.kind.letters = [c] := by
  obtain ⟨hr, i, -, hfind, -⟩ := Lexicon.firstRule?_eq_some h
  obtain ⟨kind, c, rfl, hletters⟩ := exists_of_mem_rules hr
  cases text with
  | nil => rw [letterRule, Compiled.find_letter_nil] at hfind; cases hfind
  | cons d rest =>
      rw [letterRule, Compiled.find_letter_cons] at hfind
      split at hfind
      · next hd =>
          obtain ⟨-, rfl⟩ := Prod.mk.inj (Option.some.inj hfind)
          obtain rfl := CharSet.contains_singleton.mp hd
          exact ⟨d, rest, rfl, rfl, hletters⟩
      · cases hfind

/-- The character of a kind is a token of that kind. -/
theorem firstRule?_of_letters {kind : Kind} {c : Char} (h : kind.letters = [c])
    (rest : List Char) : lexicon.firstRule? (c :: rest) = some (letterRule kind c, 1) := by
  cases kind <;> obtain ⟨⟩ := h <;>
    simp +decide [Lexicon.firstRule?, lexicon, letterRule, Compiled.find_letter_cons]

private theorem ne_space_of_letters {kind : Kind} {c : Char} (h : kind.letters = [c]) :
    c ≠ ' ' := by
  cases kind <;> obtain ⟨⟩ := h <;> decide

private theorem filter_cons {c : Char} (hc : c ≠ ' ') (rest : List Char) :
    (c :: rest).filter (· ≠ ' ') = c :: rest.filter (· ≠ ' ') :=
  List.filter_cons_of_pos (decide_eq_true hc)

/-- The spaces in front of a text are deleted with the others. -/
theorem filter_skipText (text : List Char) :
    (lexicon.skipText text).filter (· ≠ ' ') = text.filter (· ≠ ' ') := by
  obtain ⟨run, hrun⟩ := Lexicon.exists_skipped skips_eq text
  have hspaces : run.filter (· ≠ ' ') = [] := by
    refine List.filter_eq_nil_iff.mpr fun c hc => ?_
    simp [CharSet.contains_singleton.mp (hrun.inside c hc)]
  conv_rhs => rw [hrun.split, List.filter_append, hspaces, List.nil_append]

/-- Behind the spaces in front of a text stands no space. -/
theorem skipText_cases (text : List Char) : lexicon.skipText text = [] ∨
    ∃ c rest, lexicon.skipText text = c :: rest ∧ c ≠ ' ' := by
  obtain ⟨run, hrun⟩ := Lexicon.exists_skipped skips_eq text
  cases hskip : lexicon.skipText text with
  | nil => exact Or.inl rfl
  | cons c rest =>
      refine Or.inr ⟨c, rest, rfl, ?_⟩
      rintro rfl
      have hstops := hrun.stops ' ' (by rw [hskip]; rfl)
      exact Bool.false_ne_true (hstops.symm.trans (CharSet.contains_singleton.mpr rfl))

/-- The tokens of a text are its characters without the spaces. -/
theorem filter_of_splits {text : List Char} {ts : List (Kind × String)}
    (h : lexicon.Splits text ts) :
    text.filter (· ≠ ' ') = (ts.map Prod.fst).flatMap Kind.letters := by
  induction h with
  | finish hskip =>
      rw [← filter_skipText, hskip]
      rfl
  | token hfirst _ ih =>
      obtain ⟨c, rest, htext, rfl, hletters⟩ := letters_of_firstRule? hfirst
      rw [htext] at ih
      rw [← filter_skipText, htext, filter_cons (ne_space_of_letters hletters), List.map_cons,
        List.flatMap_cons, hletters]
      exact congrArg (c :: ·) ih

/-- Characters of tokens, with spaces anywhere between them, are split into the tokens. -/
theorem splits_of_filter {text : List Char} {w : List Kind} (hw : Kind.finish ∉ w)
    (h : text.filter (· ≠ ' ') = w.flatMap Kind.letters) :
    ∃ ts, lexicon.Splits text ts ∧ ts.map Prod.fst = w := by
  induction w generalizing text with
  | nil =>
      refine ⟨[], .finish ?_, rfl⟩
      rw [← filter_skipText] at h
      rcases skipText_cases text with hnil | ⟨c, rest, hcons, hc⟩
      · exact hnil
      · rw [hcons, filter_cons hc] at h
        cases h
  | cons kind w ih =>
      obtain ⟨c, hletters⟩ : ∃ c, kind.letters = [c] := by
        cases kind with
        | finish => exact absurd List.mem_cons_self hw
        | a | b | lparen | rparen => exact ⟨_, rfl⟩
      rw [← filter_skipText, List.flatMap_cons, hletters] at h
      rcases skipText_cases text with hnil | ⟨d, rest, hcons, hd⟩
      · rw [hnil] at h
        cases h
      · rw [hcons, filter_cons hd] at h
        obtain ⟨rfl, hrest⟩ := List.cons.inj h
        obtain ⟨ts, hts, rfl⟩ := ih (fun hmem => hw (List.mem_cons_of_mem _ hmem)) hrest
        have hfirst := firstRule?_of_letters hletters rest
        rw [← hcons] at hfirst
        refine ⟨_, .token hfirst ?_, rfl⟩
        rw [hcons]
        exact hts

/-! ### Tokens of a tree -/

private theorem takes_of_mark {kind : Kind} (hkind : kind ≠ .finish) {s s' : Standing Kind}
    (h : (mark kind).Gives s (.ok ()) s') : ∃ t, s.Takes .finish [(kind, t)] s' := by
  obtain ⟨t, -, htakes⟩ := takes_of_terminal hkind h
  exact ⟨t, htakes⟩

/-- A leaf takes the one token that writes it. -/
theorem takes_of_leaf {kind : Kind} {leaf t : Tree} {s s' : Standing Kind} (hkind : kind ≠ .finish)
    (hword : leaf.word = [kind]) (h : (do mark kind; return leaf).Gives s (.ok t) s') :
    ∃ ts, s.Takes .finish ts s' ∧ ts.map Prod.fst = t.word := by
  obtain ⟨⟨⟩, u, hmark, hrest⟩ := gives_bind_ok.mp h
  obtain ⟨ht, rfl⟩ := gives_pure.mp hrest
  obtain rfl := Except.ok.inj ht
  obtain ⟨x, htakes⟩ := takes_of_mark hkind hmark
  exact ⟨_, htakes, hword.symm⟩

/-- Where a tree is found, its tokens have been taken. -/
theorem takes_of_tree {fuel : Nat} {s s' : Standing Kind} {t : Tree}
    (h : (tree fuel).Gives s (.ok t) s') :
    ∃ ts, s.Takes .finish ts s' ∧ ts.map Prod.fst = t.word := by
  induction fuel generalizing s s' t with
  | zero => cases (gives_unexpected.mp h).1
  | succ fuel ih =>
      rw [tree, gives_kind_bind] at h
      cases hkind : s.kind with
      | a | b =>
          rw [hkind] at h
          exact takes_of_leaf (by decide) rfl h
      | lparen =>
          rw [hkind] at h
          obtain ⟨⟨⟩, s₁, hopen, h⟩ := gives_bind_ok.mp h
          obtain ⟨left, s₂, hleft, h⟩ := gives_bind_ok.mp h
          obtain ⟨right, s₃, hright, h⟩ := gives_bind_ok.mp h
          obtain ⟨⟨⟩, s₄, hclose, h⟩ := gives_bind_ok.mp h
          obtain ⟨ht, rfl⟩ := gives_pure.mp h
          obtain rfl := Except.ok.inj ht
          obtain ⟨x, htakex⟩ := takes_of_mark (by decide) hopen
          obtain ⟨ls, htakel, hls⟩ := ih hleft
          obtain ⟨rs, htaker, hrs⟩ := ih hright
          obtain ⟨y, htakey⟩ := takes_of_mark (by decide) hclose
          refine ⟨_, ((htakex.trans htakel).trans htaker).trans htakey, ?_⟩
          simp [word, hls, hrs]
      | rparen | finish =>
          rw [hkind] at h
          cases (gives_unexpected.mp h).1

private theorem mark_of_holds {kind : Kind} {s : Standing Kind} {t : Token}
    {ts : List (Kind × Token)} (hs : s.Holds .finish ((kind, t) :: ts)) :
    ∃ u, (mark kind).Gives s (.ok ()) u ∧ u.Holds .finish ts :=
  terminal_of_holds hs rfl

/-- In front of the tokens of a tree the tree is found. A pair calls for its parts one call deeper,
and has more tokens than each of them. -/
theorem tree_of_holds {fuel : Nat} {s : Standing Kind} {t : Tree} {ts rest : List (Kind × Token)}
    (hs : s.Holds .finish (ts ++ rest)) (hts : ts.map Prod.fst = t.word)
    (hfuel : t.word.length ≤ fuel) :
    ∃ u, (tree fuel).Gives s (.ok t) u ∧ u.Holds .finish rest := by
  induction t generalizing fuel s ts rest with
  | a | b =>
      obtain ⟨fuel, rfl⟩ : ∃ n, fuel = n + 1 := Nat.exists_eq_add_of_le' hfuel
      obtain ⟨⟨k, x⟩, rfl, rfl⟩ := List.map_eq_singleton_iff.mp hts
      obtain ⟨u, hmark, hu⟩ := mark_of_holds hs
      refine ⟨u, ?_, hu⟩
      rw [tree, gives_kind_bind, hs.kind_eq]
      exact hmark.bind (gives_pure.mpr ⟨rfl, rfl⟩)
  | pair left right ihl ihr =>
      have hword : ts.map Prod.fst = .lparen :: (left.word ++ (right.word ++ [.rparen])) := by
        rw [hts, word, List.append_assoc, List.cons_append]
      obtain ⟨⟨_, x⟩, behind, rfl, rfl, hbehind⟩ := List.map_eq_cons_iff.mp hword
      obtain ⟨ls, behind, rfl, hls, hbehind⟩ := List.map_eq_append_iff.mp hbehind
      obtain ⟨rs, behind, rfl, hrs, hbehind⟩ := List.map_eq_append_iff.mp hbehind
      obtain ⟨⟨_, y⟩, rfl, rfl⟩ := List.map_eq_singleton_iff.mp hbehind
      simp only [List.cons_append, List.append_assoc] at hs
      simp only [word, List.length_append, List.length_cons, List.length_nil] at hfuel
      obtain ⟨fuel, rfl⟩ : ∃ n, fuel = n + 1 := Nat.exists_eq_add_of_le' (by omega)
      obtain ⟨s₁, hopen, h₁⟩ := mark_of_holds hs
      obtain ⟨s₂, hleft, h₂⟩ := ihl h₁ hls (by omega : left.word.length ≤ fuel)
      obtain ⟨s₃, hright, h₃⟩ := ihr h₂ hrs (by omega : right.word.length ≤ fuel)
      obtain ⟨s₄, hclose, h₄⟩ := mark_of_holds h₃
      refine ⟨s₄, ?_, h₄⟩
      rw [tree, gives_kind_bind, hs.kind_eq]
      exact hopen.bind (hleft.bind (hright.bind (hclose.bind (gives_pure.mpr ⟨rfl, rfl⟩))))

/-! ### Reading a text -/

private theorem proper_stream (source : String) : (lexicon.stream source).Proper .finish :=
  Lexicon.proper_stream_of_ofPatterns? lexicon?_eq (by decide) source

private theorem read_of_gives {l : Lexicon Kind} (hl : lexicon? = some l) {source : String}
    {o : Except (ParseError ActionError) Tree} {s' : Standing Kind}
    (h : parse.Gives (.new l source) o s') : read source = o.mapError .parse := by
  simp only [read, hl, h.fst_run]
  cases o <;> rfl

private theorem gives_parse {s s' : Standing Kind} {o : Except (ParseError ActionError) Tree} :
    parse.Gives s o s' ↔ (whole .finish (tree (s.upcoming.length + 2))).Gives s o s' := by
  rw [parse]
  exact gives_get_bind

/-- A tree is read where the characters of its tokens stand, with spaces anywhere. -/
theorem read_eq_ok_iff {source : String} {t : Tree} :
    read source = .ok t ↔ spaceless source = t.word.flatMap Kind.letters := by
  constructor
  · intro h
    obtain ⟨o, s', hrun⟩ := exists_gives parse (.new lexicon source)
    rw [read_of_gives lexicon?_eq hrun] at h
    cases o with
    | error e => cases h
    | ok t' =>
        obtain rfl := Except.ok.inj h
        obtain ⟨u, htree, -, htokens⟩ :=
          tokens?_of_whole (proper_stream source) (gives_parse.mp hrun)
        obtain ⟨ts, htakes, hts⟩ := takes_of_tree htree
        have hsplits := Lexicon.splits_iff.mpr ⟨ts, htokens ts htakes, rfl⟩
        rw [spaceless, filter_of_splits hsplits, Lexicon.map_fst_forms, hts]
  · intro h
    obtain ⟨ws, hsplits, hws⟩ := splits_of_filter (finish_not_mem_word t) h
    obtain ⟨ts, htokens, rfl⟩ := Lexicon.splits_iff.mp hsplits
    have hts : ts.map Prod.fst = t.word := by rw [← hws, Lexicon.map_fst_forms]
    have hlength : t.word.length = (Standing.new lexicon source).upcoming.length := by
      rw [← hts, List.length_map]
      exact Stream.length_of_tokens? htokens
    have hfuel : t.word.length ≤ (Standing.new lexicon source).upcoming.length + 2 := by omega
    obtain ⟨s', hrun⟩ := whole_of_tokens? (s := .new lexicon source) (proper_stream source) htokens
      fun u hu => tree_of_holds (by rwa [List.append_nil]) hts hfuel
    exact read_of_gives lexicon?_eq (gives_parse.mpr hrun)

/-- Reading inverts writing up to spaces: a text is read as a tree if and only if it is the written form
of the tree when the spaces are deleted on both sides. So each tree is read from its written form, no two
trees are written alike, even without spaces, and any other text is refused. -/
theorem read_inverts_display :
    (∀ source t, read source = .ok t ↔ spaceless source = spaceless t.display) ∧
      (∀ t, read t.display = .ok t) ∧
      (Function.Injective fun t : Tree => spaceless t.display) ∧
      ∀ source, (∃ failure, read source = .error failure) ↔
        ∀ t : Tree, spaceless source ≠ spaceless t.display := by
  have hread : ∀ source t, read source = .ok t ↔ spaceless source = spaceless t.display :=
    fun source t => read_eq_ok_iff.trans (by rw [spaceless_display])
  have hdisplay : ∀ t, read t.display = .ok t := fun t => (hread _ t).mpr rfl
  refine ⟨hread, hdisplay, fun t t' h => ?_, fun source => ⟨?_, fun h => ?_⟩⟩
  · have hsame := (hread t.display t').mpr h
    exact Except.ok.inj ((hdisplay t).symm.trans hsame)
  · rintro ⟨failure, hfailure⟩ t ht
    cases hfailure.symm.trans ((hread source t).mpr ht)
  · cases hsource : read source with
    | error failure => exact ⟨failure, rfl⟩
    | ok t => exact absurd ((hread source t).mp hsource) (h t)

example : read " ( a(b b ) ) " = .ok (pair a (pair b b)) := by decide +kernel

end Descent.Languages.Tree
