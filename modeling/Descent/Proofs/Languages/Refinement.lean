import Descent.Proofs.Languages.Calculator
import Descent.Proofs.Languages.Sum
import Descent.Proofs.Languages.Tree

/-!
# The three parsers refine the analysis of their grammars

Sums, trees and the calculator have parsers of their own and descriptions from which a
grammar is read and analysed. On every input the parser of each comes to the outcome of
the driver of its grammar, unless an action fails earlier.
-/

namespace Descent.Languages

/-- Each of the three parsers does what the driver of its description does: it comes to the same
outcome at the same place on every input, and where an action fails it stops there, at a place that the
driver goes through. -/
theorem parsers_implement_descriptions :
    Implements Sum.parse Sum.lexicon? Sum.Kind.name Sum.Value.operands Sum.meaning
      Sum.description ∧
    Implements Calculator.parse Calculator.lexicon? Calculator.Kind.name id Calculator.meaning
      Calculator.description ∧
    Implements Tree.parse Tree.lexicon? Tree.Kind.name id Tree.meaning Tree.description :=
  ⟨Sum.implements_description, Calculator.implements_description, Tree.implements_description⟩

end Descent.Languages
