import Descent.Artifact.Source

/-!
# The artifact of token kinds

An enumeration of the token kinds in the order of their declarations, the end of
input last, and the type of tokens.
-/

namespace Descent.Artifact

open Descent.Text (quoted)

/-- The names of the token kinds, in order. -/
def kindNames (g : Grammar) : List String := g.lexemes.map (·.name) ++ [endName]

/-- The enumeration of the kinds. -/
def kindsEnum (kinds : String) (lexemes : List String) : List String :=
  [
    "/// Token kinds in declaration order; \x60" ++ endName ++ "\x60 marks end of input.",
    "#[allow(non_camel_case_types)]",
    "#[derive(Debug, Clone, Copy, PartialEq, Eq, Hash, PartialOrd, Ord)]",
    "pub enum " ++ kinds ++ " \x7b"] ++
    lexemes.map (fun name => "    " ++ name ++ ",") ++
    ["\x7d", ""]

/-- The list of all kinds, and their names. -/
def kindsImplementation (kinds : String) (lexemes : List String) : List String :=
  ["impl " ++ kinds ++ " \x7b",
    "    pub const ALL: [" ++ kinds ++ "; " ++ toString lexemes.length ++ "] = ["] ++
    lexemes.map (fun name => "        " ++ kinds ++ "::" ++ name ++ ",") ++
    [
      "    ];",
      "",
      "    /// Name of the token rule, as written in the grammar.",
      "    pub fn name(self) -> &'static str \x7b",
      "        match self \x7b"] ++
    lexemes.map (fun name =>
      "            " ++ kinds ++ "::" ++ name ++ " => " ++ quoted name ++ ",") ++
    ["        \x7d", "    \x7d", "\x7d", ""]

/-- Printing of a kind or of a token. -/
def displayImplementation (type body : String) : List String :=
  [
    "impl ::std::fmt::Display for " ++ type ++ " \x7b",
    "    fn fmt(&self, f: &mut ::std::fmt::Formatter<'_>) -> ::std::fmt::Result \x7b",
    "        " ++ body,
    "    \x7d",
    "\x7d"]

/-- The type of tokens. -/
def tokenType (kinds token : String) : List String :=
  [
    "/// A token: its kind plus the matched text, rule name and offset.",
    "#[derive(Debug, Clone, PartialEq, Eq)]",
    "pub struct " ++ token ++ " \x7b",
    "    pub kind: " ++ kinds ++ ",",
    "    pub data: ::rdparse::TokenData,",
    "\x7d",
    ""]

/-- The artifact of token kinds. -/
def tokensSource (g : Grammar) (names : Names) : String :=
  let kinds := names.tokensEnum
  let token := names.tokenStruct
  let lexemes := kindNames g
  ofLines <|
    prologue g names "token kinds" ++ kindsEnum kinds lexemes ++
      kindsImplementation kinds lexemes ++
      displayImplementation kinds "f.write_str(self.name())" ++ [""] ++
      tokenType kinds token ++
      displayImplementation token "::std::fmt::Display::fmt(&self.data, f)"

end Descent.Artifact
