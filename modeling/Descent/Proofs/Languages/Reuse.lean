import Descent.Proofs.Languages.Calculator
import Descent.Proofs.Languages.Rules
import Descent.Proofs.Languages.Sum
import Descent.Proofs.Languages.Tree
import Descent.Proofs.Tokens.Listing
import Descent.Proofs.Tokens.Reuse

/-!
# Calling the parsers again

The parsers of sums, of expressions and of trees can be called again and again: their rules
move by fetching tokens, and their start rules refuse the end.
-/

namespace Descent

open Descent.Parser

variable {κ ε β : Type}

/-- The parser can be called again and again for an input. The names that it reports at the end are those
that the start rule of the described grammar expects. -/
def CanBeReused (parse : Parser κ ε β) (lexicon? : Option (Lexicon κ)) (description : String) :
    Prop :=
  ∃ g a lexicon, Description.read description = .ok g ∧ Analysis.ofGrammar g = .ok a ∧
    lexicon? = some lexicon ∧
    ∀ input, parse.Reusable lexicon (a.tokenNames (a.expected g.start)) input

/-- A parser can be reused if its start rule refuses the end with the names of the analysis. -/
theorem canBeReused_of_starts [DecidableEq κ] {start : Nat → Parser κ ε β} {endKind : κ}
    {names : List String} {parse : Parser κ ε β} {g : Grammar} {a : Analysis}
    {skips : List String} {rules : List (κ × String × String)} {description : String}
    (hparse : parse = do whole endKind (start (← get).upcoming.length))
    (hstart : Starts start endKind names)
    (hread : Description.read description = .ok g) (ha : Analysis.ofGrammar g = .ok a)
    (hnames : a.tokenNames (a.expected g.start) = names)
    (hsome : (Lexicon.ofPatterns? skips rules endKind).isSome = true)
    (hrules : ∀ k ∈ rules.map (·.1), k ≠ endKind) :
    CanBeReused parse (Lexicon.ofPatterns? skips rules endKind) description := by
  obtain ⟨lexicon, hlexicon⟩ := Option.isSome_iff_exists.mp hsome
  refine ⟨g, a, lexicon, hread, ha, hlexicon, fun input => hnames ▸ ?_⟩
  exact reusable_of_starts hparse hstart (Lexicon.endKind_of_ofPatterns? hlexicon)
    (fun _ => Lexicon.kind_ne_of_ofPatterns? hlexicon hrules) input

namespace Languages

namespace Sum

/-- The tail of a sum moves by fetching tokens. -/
theorem fetching_tail (fuel : Nat) (acc : List Int64) : (tail fuel acc).Fetching := by
  induction fuel generalizing acc with
  | zero => exact fetching_unexpected _
  | succ fuel ih =>
      refine fetching_kind.bind fun k => ?_
      cases k with
      | num => exact fetching_unexpected _
      | plus =>
          exact (fetching_terminal _ _ _).bind fun _ => (fetching_terminal _ _ _).bind fun n => ih _
      | finish => exact fetching_pure acc

/-- The rule of sums is a start rule that wants a number. -/
theorem starts : Starts (fun n => expr (n + 2)) Kind.finish [Kind.num.name] where
  fetching n := by
    refine fetching_kind.bind fun k => ?_
    cases k with
    | num => exact (fetching_terminal _ _ _).bind fun n => fetching_tail _ _
    | plus | finish => exact fetching_unexpected _
  refuses n s hs := by
    rw [expr, gives_kind_bind, hs]
    exact gives_unexpected.mpr ⟨rfl, rfl⟩

/-- The parser of sums can be called again. -/
theorem canBeReused : CanBeReused parse lexicon? description :=
  canBeReused_of_starts rfl starts read_description analysed (by decide +kernel) isSome_lexicon?
    (by decide)

end Sum

namespace Tree

/-- The rule of trees moves by fetching tokens. -/
theorem fetching_tree (fuel : Nat) : (tree fuel).Fetching := by
  induction fuel with
  | zero => exact fetching_unexpected _
  | succ fuel ih =>
      refine fetching_kind.bind fun k => ?_
      cases k with
      | a | b => exact (fetching_terminal _ _ _).bind fun _ => fetching_pure _
      | lparen =>
          exact (fetching_terminal _ _ _).bind fun _ => ih.bind fun left => ih.bind fun right =>
            (fetching_terminal _ _ _).bind fun _ => fetching_pure _
      | rparen | finish => exact fetching_unexpected _

/-- The rule of trees is a start rule that wants a leaf or a parenthesis. -/
theorem starts :
    Starts (fun n => tree (n + 2)) Kind.finish ([Kind.a, .b, .lparen].map Kind.name) where
  fetching n := fetching_tree _
  refuses n s hs := by
    rw [tree, gives_kind_bind, hs]
    exact gives_unexpected.mpr ⟨rfl, rfl⟩

/-- The parser of trees can be called again. -/
theorem canBeReused : CanBeReused parse lexicon? description :=
  canBeReused_of_starts rfl starts read_description analysed (by decide +kernel) isSome_lexicon?
    (by decide)

end Tree

namespace Calculator

/-- The rules fetch their tokens at one depth of calls. -/
structure AllFetch (fuel : Nat) : Prop where
  expr : (expr fuel).Fetching
  exprTail : ∀ acc, (exprTail fuel acc).Fetching
  term : (term fuel).Fetching
  termTail : ∀ acc, (termTail fuel acc).Fetching
  factor : (factor fuel).Fetching

/-- The rules fetch their tokens, whatever the depth of calls. -/
theorem allFetch (fuel : Nat) : AllFetch fuel := by
  have h := allRules compositional_fetching fuel
  exact ⟨h.expr, h.exprTail, h.term, h.termTail, h.factor⟩

/-- The rule of expressions is a start rule that wants an operand. -/
theorem starts : Starts (fun n => expr (4 * (n + 2))) Kind.finish operandNames where
  fetching n := (allFetch _).expr
  refuses n s hs := by
    rw [show 4 * (n + 2) = 4 * n + 7 + 1 by omega, expr, gives_kind_bind, hs]
    exact gives_unexpected.mpr ⟨rfl, rfl⟩

/-- The calculator can be called again. -/
theorem canBeReused : CanBeReused parse lexicon? description :=
  canBeReused_of_starts rfl starts read_description analysed (by decide +kernel) isSome_lexicon?
    (by decide)

end Calculator

/-- Each of the three parsers can be called again and again, whatever its input is and however the calls
before have ended. -/
theorem parsers_can_be_reused :
    CanBeReused Sum.parse Sum.lexicon? Sum.description ∧
      CanBeReused Calculator.parse Calculator.lexicon? Calculator.description ∧
      CanBeReused Tree.parse Tree.lexicon? Tree.description :=
  ⟨Sum.canBeReused, Calculator.canBeReused, Tree.canBeReused⟩

/-- The second token is dropped with the failure of the first call, so that the second call succeeds. -/
example : (Tree.lexicon?.map fun lexicon =>
    (List.range 4).map fun calls => (Tree.parse.outcome (.new lexicon "a b a") calls).toOption) =
      some [none, some .a, none, none] := by decide +kernel

end Languages
end Descent
