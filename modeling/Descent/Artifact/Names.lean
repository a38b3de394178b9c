import Descent.Text.Case
import Descent.Text.Quoted

/-!
# Names in artifacts

The types and files that are generated for a grammar have names derived from the
name of the grammar: types in words that begin with capitals, files in lower case
with underscores between words.
-/

namespace Descent.Artifact

open Descent.Text

/-- The text with its first character in upper case. -/
def capitalizeFirst : List Char → List Char
  | [] => []
  | c :: rest => upperOf c ++ rest

/-- The pieces of a text between underscores. -/
def splitUnderscores : List Char → List (List Char)
  | [] => [[]]
  | c :: rest =>
    if c == '_' then [] :: splitUnderscores rest
    else
      match splitUnderscores rest with
      | [] => [[c]]
      | piece :: pieces => (c :: piece) :: pieces

/-- The words between underscores, each with a capital. -/
def pascalCase (text : List Char) : List Char :=
  (splitUnderscores text).flatMap capitalizeFirst

/-- All in lower case, with an underscore before a capital that follows a small letter or a
digit; `afterSmall` tells that one of these stands before. -/
def snakeFrom (afterSmall : Bool) : List Char → List Char
  | [] => []
  | c :: rest =>
    if isUppercase c then
      (if afterSmall then ['_'] else []) ++ lowerOf c ++ snakeFrom false rest
    else c :: snakeFrom (isLowercase c || isAsciiDigit c) rest

/-- The form of a name in the names of files. -/
def snakeCase (text : List Char) : List Char := snakeFrom false text

/-- The names derived from the name of a grammar. -/
structure Names where
  /-- The first part of the names of types. -/
  typeStem : String
  /-- The first part of the names of files. -/
  fileStem : String
deriving DecidableEq, Repr

/-- A grammar name is a letter followed by letters, digits and underscores, all in ASCII. -/
def isGrammarName : List Char → Bool
  | [] => false
  | c :: rest =>
    (isAsciiLower c || isAsciiUpper c) &&
      rest.all fun d => isAsciiLower d || isAsciiUpper d || isAsciiDigit d || d == '_'

/-- The complaint about a text that is no grammar name. -/
def invalidNameMessage (name : String) : String :=
  "invalid grammar name " ++ quoted name ++ ": expected an identifier starting with a letter"

namespace Names

/-- The names for a grammar; `none` if the name is no grammar name. -/
def ofName? (name : String) : Option Names :=
  if isGrammarName name.toList then
    let stem := pascalCase name.toList
    some ⟨String.ofList stem, String.ofList (snakeCase stem)⟩
  else none

/-- The type of the token kinds. -/
def tokensEnum (n : Names) : String := n.typeStem ++ "Tokens"

/-- The type of the tokens. -/
def tokenStruct (n : Names) : String := n.typeStem ++ "Token"

/-- The type of the lexer. -/
def lexerStruct (n : Names) : String := n.typeStem ++ "Lexer"

/-- The type of the parser. -/
def parserStruct (n : Names) : String := n.typeStem ++ "Parser"

/-- The module of the token kinds. -/
def tokensModule (n : Names) : String := n.fileStem ++ "_tokens"

/-- The module of the lexer. -/
def lexerModule (n : Names) : String := n.fileStem ++ "_lexer"

/-- The module of the parser. -/
def parserModule (n : Names) : String := n.fileStem ++ "_parser"

/-- The file of the token kinds. -/
def tokensFile (n : Names) : String := n.tokensModule ++ ".rs"

/-- The file of the lexer. -/
def lexerFile (n : Names) : String := n.lexerModule ++ ".rs"

/-- The file of the parser. -/
def parserFile (n : Names) : String := n.parserModule ++ ".rs"

/-- The path of the enumeration of token kinds, seen from another artifact. -/
def kindsPath (n : Names) : String := "super::" ++ n.tokensModule ++ "::" ++ n.tokensEnum

/-- The path of the token type, seen from another artifact. -/
def tokenPath (n : Names) : String := "super::" ++ n.tokensModule ++ "::" ++ n.tokenStruct

/-- The path of the lexer, seen from another artifact. -/
def lexerPath (n : Names) : String := "super::" ++ n.lexerModule ++ "::" ++ n.lexerStruct

end Names
end Descent.Artifact
