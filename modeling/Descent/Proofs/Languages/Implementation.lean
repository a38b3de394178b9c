import Descent.Description.Reading
import Descent.Proofs.Driver.CallDepth
import Descent.Proofs.Languages.Imitation
import Descent.Proofs.Tokens.Compiling

/-!
# Parsers that implement a description

A parser implements the description of a grammar if it does what the driver of that
grammar does, on every input: it comes to the same outcome at the same place, unless an
action fails earlier. For that the description has to be read and analysed, and its
tokens have to be those of the parser. What the rules of the parser do is compared with
the driver at one depth of calls, which the ranks of the rules show to be enough.
-/

namespace Descent

open Descent.Parser

variable {κ ν ε β : Type}

/-- A grammar has the lexicon of a parser, with names for kinds, if it has the same patterns. -/
theorem Grammar.lexicon?_eq {g : Grammar} {skips : List String}
    {rules : List (κ × String × String)} {endKind : κ} {name : κ → String}
    (hskips : g.skipRules.map (·.pattern) = skips)
    (hrules : g.lexemes.map (fun t => (t.name, t.name, t.pattern)) =
      rules.map fun r => (name r.1, r.2))
    (hend : name endKind = endName) :
    g.lexicon? = (Lexicon.ofPatterns? skips rules endKind).map fun lexicon => lexicon.mapKind name := by
  rw [lexicon?, hskips, hrules, ← hend, Lexicon.ofPatterns?_mapKind]

/-- The grammar that is read from a description is valid. -/
theorem Description.valid_of_read {source : String} {g : Grammar} (h : read source = .ok g) :
    g.Valid := by
  obtain ⟨items, -, h⟩ := bind_eq_ok.mp h
  obtain ⟨parts, -, h⟩ := bind_eq_ok.mp h
  rw [Parts.toGrammar] at h
  split at h
  · cases h
  · dsimp only at h
    split at h
    · next hvalid =>
        obtain rfl := Except.ok.inj h
        exact Grammar.valid_of_validate hvalid
    · cases h

/-- A text given by its characters describes the grammar to which its words lead. -/
theorem Description.read_ofList {source : List Char} {g : Grammar}
    (h : ((lexemes source).toOption.bind fun words =>
      (Item.readAll (words.map (·.lexeme))).toOption.bind fun items =>
        (Parts.ofItems items >>= Parts.toGrammar).toOption) = some g) :
    read (String.ofList source) = .ok g := by
  rw [read, readItems, String.toList_ofList]
  cases hwords : lexemes source with
  | error offset => simp [hwords, Except.toOption] at h
  | ok words =>
      cases hitems : Item.readAll (words.map (·.lexeme)) with
      | error c => simp [hwords, hitems, Except.toOption] at h
      | ok items =>
          simp only [hwords, hitems, Except.toOption, Option.bind_some] at h ⊢
          split at h
          · next hread =>
              obtain rfl := Option.some.inj h
              exact hread
          · cases h

/-- The parser on the lexicon implements the description, in which the code has the given meaning:
the description is that of a grammar without conflicts, and the tokens of the grammar are those of
the lexicon, with names for kinds. On every input the parser comes to the outcome of the driver with
its actions, and this follows the outcome of the driver without them. -/
def Implements (parse : Parser κ ε β) (lexicon? : Option (Lexicon κ)) (name : κ → String)
    (out : β → ν) [Inhabited ν] (m : Meaning ν ε) (description : String) : Prop :=
  ∃ g a lexicon, Description.read description = .ok g ∧ Analysis.ofGrammar g = .ok a ∧
    lexicon? = some lexicon ∧ g.lexicon? = some (lexicon.mapKind name) ∧
    ∀ source, ∃ o s d u,
      parse.Gives (.new lexicon source) o s ∧
      (∃ depth, (g.enact a m [] depth).Gives (.new (lexicon.mapKind name) source) (lift out o)
        (s.mapKind name)) ∧
      Ends (g.drive a) (.new (lexicon.mapKind name) source) d u ∧
      Follows (lift out o) (s.mapKind name) d u

/-- The start rule of a parser compared with a grammar: it imitates the driver at a depth of calls that
is enough for the number of tokens. -/
structure Compared [Inhabited ν] (start : Nat → Parser κ ε β) (name : κ → String) (out : β → ν)
    (m : Meaning ν ε) (g : Grammar) (a : Analysis) (depth : Nat → Nat) : Prop where
  imitates : ∀ n, Imitates name out (start n) (g.enactRule a m (depth n) g.startRule.name [])
  enough : ∃ rank takes top, g.Ranked rank takes top ∧
    ∀ n, (top + 1) * n + rank g.startRule.name < depth n

/-- A parser whose start rule compares with the grammar of a description implements the description, if
it has the patterns of the grammar. -/
theorem Compared.implements [DecidableEq κ] [Inhabited ν] {start : Nat → Parser κ ε β}
    {name : κ → String} {out : β → ν} {m : Meaning ν ε} {g : Grammar} {a : Analysis}
    {depth : Nat → Nat} (h : Compared start name out m g a depth) {parse : Parser κ ε β}
    {skips : List String} {rules : List (κ × String × String)} {endKind : κ} {description : String}
    (hname : Function.Injective name) (hend : name endKind = endName)
    (hread : Description.read description = .ok g) (ha : Analysis.ofGrammar g = .ok a)
    (hsome : (Lexicon.ofPatterns? skips rules endKind).isSome = true)
    (hskips : g.skipRules.map (·.pattern) = skips)
    (hrules : g.lexemes.map (fun t => (t.name, t.name, t.pattern)) =
      rules.map fun r => (name r.1, r.2))
    (hparse : parse = do whole endKind (start (← get).upcoming.length)) :
    Implements parse (Lexicon.ofPatterns? skips rules endKind) name out m description := by
  obtain ⟨lexicon, hlexicon⟩ := Option.isSome_iff_exists.mp hsome
  have hg : g.lexicon? = some (lexicon.mapKind name) := by
    rw [Grammar.lexicon?_eq hskips hrules hend, hlexicon, Option.map_some]
  obtain rfl := Lexicon.endKind_of_ofPatterns? hlexicon
  obtain ⟨rank, takes, top, hrank, henough⟩ := h.enough
  refine ⟨g, a, lexicon, hread, ha, hlexicon, hg, fun source => ?_⟩
  let s₀ := Standing.new lexicon source
  let n := s₀.upcoming.length
  rw [Lexicon.new_mapKind]
  obtain ⟨d, u, hdrive⟩ := exists_gives (g.drive a (depth n)) (s₀.mapKind name)
  obtain ⟨r, v, henact⟩ := exists_gives (g.enact a m [] (depth n)) (s₀.mapKind name)
  have hclosed : (s₀.mapKind name).upcoming.Closed endName := by
    have hstream := (lexicon.mapKind name).closed_stream source
    have hkind : (lexicon.mapKind name).endKind = endName := hend
    rwa [Lexicon.stream_mapKind, hkind] at hstream
  have hbelow : d ≠ .error (.action .reached) := by
    refine ((Description.valid_of_read hread).analysed ha).drive_belowLimit hrank hclosed ?_ hdrive
    have hlength : (s₀.mapKind name).upcoming.length = n := Stream.length_mapKind name _
    rw [hlength]
    exact henough n
  have hfollows := Grammar.enact_shadows g a m [] (depth n) henact hdrive
  have himitates : Imitates name out (whole lexicon.endKind (start n)) (g.enact a m [] (depth n)) := by
    rw [Grammar.enact, ← hend]
    exact (h.imitates n).whole hname
  obtain ⟨o, s, hrun, rfl, rfl⟩ := himitates henact (hfollows.ne_limit hbelow)
  subst hparse
  exact ⟨o, s, d, u, hrun, ⟨depth n, henact⟩, ⟨hbelow, depth n, hdrive⟩, hfollows⟩

end Descent
