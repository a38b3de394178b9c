import Descent.Text.CharSet
import Descent.Text.Blank
import Descent.Text.Length
import Descent.Text.Quoted
import Descent.Text.Category
import Descent.Text.Property
import Descent.Text.Script
import Descent.Text.Case
import Descent.Pattern.Reading
import Descent.Pattern.Compiled
import Descent.Tokens.Tokenizer
import Descent.Grammar.Validation
import Descent.Lookahead.Analysis
import Descent.Description.Reading
import Descent.Artifact.TokenKinds
import Descent.Artifact.LexerSource
import Descent.Artifact.ParserSource
import Descent.Languages.Calculator
import Descent.Languages.Sum
import Descent.Languages.Tree
import Descent.Main
import Descent.Proofs.Driver.Termination
import Descent.Proofs.Lookahead.Verdict
import Descent.Proofs.Driver.Failure
import Descent.Proofs.Languages.Refinement
import Descent.Proofs.Description.RoundTrip
import Descent.Proofs.Languages.Evaluation
import Descent.Proofs.Tokens.Conservation
import Descent.Proofs.Tokens.Settling
import Descent.Proofs.Tokens.Anchoring
import Descent.Proofs.Artifact.Generation
import Descent.Proofs.Artifact.Agreement
import Descent.Proofs.Languages.TreeText
import Descent.Proofs.Languages.SumText
import Descent.Proofs.Languages.Reuse
import Descent.Proofs.Tokens.Priority
import Descent.Proofs.Tokens.Extension
import Descent.Proofs.Languages.Layout
import Descent.Proofs.Description.Tiling
import Descent.Proofs.Description.Arguments
import Descent.Proofs.Description.Complaints
import Descent.Proofs.Description.Cutting
import Descent.Proofs.Artifact.RawLiterals
import Descent.Proofs.Artifact.WordBorders
import Descent.Proofs.Grammar.Insertions
import Descent.Proofs.Lookahead.Growth
import Descent.Proofs.Languages.Enumeration
import Descent.Proofs.CommandLine.Inputs
