import Descent.Artifact.Source

/-!
# The artifact of the parser

One function for each parser rule. A function branches on the kind of the current
token: each alternative has an arm that is labelled with its markers, and all other
kinds fail with the union of the markers. An alternative that nothing selects has no
arm.
-/

namespace Descent.Artifact

open Descent.Text (quoted)

/-- The label of an arm. -/
def armLabel (a : Analysis) (kinds : String) (markers : TokenSet) : String :=
  " | ".intercalate ((a.tokenNames markers).map fun name => kinds ++ "::" ++ name)

/-- A list of names that were expected. -/
def expectedList (names : List String) : String :=
  "&[" ++ ", ".intercalate (names.map quoted) ++ "]"

/-- The line of a piece of code, if there is one, at the depth of an arm. -/
def codeLine (code : Option String) : List String :=
  (code.map fun text => "                " ++ text).toList

/-- The type that a rule returns. -/
def ruleType (g : Grammar) (name : String) : String :=
  ((g.rule? name).map (·.returns.type)).getD "()"

/-- The lines of an atom: a check, a binding and an advance for a token, a call for a rule. -/
def atomLines (g : Grammar) (kinds : String) (a : Atom) : List String :=
  match a.reference with
  | .terminal =>
    [
      "                if self.current.kind != " ++ kinds ++ "::" ++ a.name ++ " \x7b",
      "                    return ::std::result::Result::Err(self.unexpected(" ++
        expectedList [a.name] ++ "));",
      "                \x7d",
      "                let " ++ a.binding ++
        ": ::rdparse::TokenData = self.current.data.clone();"] ++
      codeLine a.action ++ ["                self.advance()?;"]
  | .nonterminal arguments =>
    ["                let " ++ a.binding ++ ": " ++ ruleType g a.name ++ " = self.parse_" ++
      a.name ++ "(" ++ ", ".intercalate arguments ++ ")?;"] ++ codeLine a.action

/-- The lines inside an arm. -/
def alternativeLines (g : Grammar) (kinds : String) (alt : Alternative) : List String :=
  codeLine alt.init ++
    match alt with
    | .epsilon _ code => codeLine code
    | .sequence _ atoms => atoms.flatMap (atomLines g kinds)

/-- The arm of an alternative; none if nothing selects it. -/
def armLines (g : Grammar) (a : Analysis) (kinds : String) (markers : TokenSet)
    (alt : Alternative) : List String :=
  if markers.isEmpty then []
  else
    ["            " ++ armLabel a kinds markers ++ " => \x7b"] ++ alternativeLines g kinds alt ++
      ["            \x7d"]

/-- The parameters behind the first one. -/
def parameters (bindings : List Binding) : String :=
  String.join (bindings.map fun b => ", " ++ b.name ++ ": " ++ b.type)

/-- The function of the rule with a number. -/
def ruleLines (g : Grammar) (a : Analysis) (kinds : String) (index : Nat) (r : ParserRule) :
    List String :=
  [
    "    fn parse_" ++ r.name ++ "(&mut self" ++ parameters r.arguments ++
      ") -> ::std::result::Result<" ++ r.returns.type ++ ", ::rdparse::ParseError> \x7b",
    "        ::rdparse::log::trace!(\"enter " ++ r.name ++ ": \x7b\x7d\", self.current);",
    "        let mut " ++ r.returns.name ++ ": " ++ r.returns.type ++ ";",
    "        match self.current.kind \x7b"] ++
    r.alternatives.zipIdx.flatMap (fun (alt, i) => armLines g a kinds (a.markersOf index i) alt) ++
    [
      "            _ => return ::std::result::Result::Err(self.unexpected(" ++
        expectedList (a.tokenNames (a.expected index)) ++ ")),",
      "        \x7d",
      "        ::std::result::Result::Ok(" ++ r.returns.name ++ ")",
      "    \x7d"]

/-- The type of the parser. -/
def parserType (names : Names) (start : ParserRule) : List String :=
  [
    "/// Recursive-descent parser; the start rule is \x60" ++ start.name ++ "\x60.",
    "#[derive(Debug)]",
    "pub struct " ++ names.parserStruct ++ " \x7b",
    "    lexer: " ++ names.lexerPath ++ ",",
    "    current: " ++ names.tokenPath ++ ",",
    "\x7d",
    ""]

/-- The constructor of the parser. -/
def constructorLines (names : Names) : List String :=
  [
    "    pub fn new(lexer: " ++ names.lexerPath ++ ") -> Self \x7b",
    "        Self \x7b",
    "            lexer,",
    "            current: " ++ names.tokenPath ++ " \x7b",
    "                kind: " ++ names.kindsPath ++ "::" ++ endName ++ ",",
    "                data: ::rdparse::TokenData::end(0),",
    "            \x7d,",
    "        \x7d",
    "    \x7d",
    ""]

/-- The entry function: it fetches the first token, calls the start rule and requires the end. -/
def entryLines (kinds : String) (start : ParserRule) : List String :=
  [
    "    /// Parses the whole input as \x60" ++ start.name ++ "\x60 and returns its value.",
    "    pub fn parse(&mut self" ++ parameters start.arguments ++
      ") -> ::std::result::Result<" ++ start.returns.type ++ ", ::rdparse::ParseError> \x7b",
    "        self.advance()?;",
    "        let value = self.parse_" ++ start.name ++ "(" ++
      ", ".intercalate (start.arguments.map (·.name)) ++ ")?;",
    "        if self.current.kind != " ++ kinds ++ "::" ++ endName ++ " \x7b",
    "            return ::std::result::Result::Err(::rdparse::SyntaxError::TrailingInput " ++
      "\x7b found: self.current.data.clone() \x7d.into());",
    "        \x7d",
    "        ::std::result::Result::Ok(value)",
    "    \x7d",
    ""]

/-- The functions that fetch the next token and that report one which does not fit. -/
def supportLines : List String :=
  [
    "    fn advance(&mut self) -> ::std::result::Result<(), ::rdparse::ParseError> \x7b",
    "        self.current = self.lexer.next_token()?;",
    "        ::std::result::Result::Ok(())",
    "    \x7d",
    "",
    "    fn unexpected(&self, expected: &[&str]) -> ::rdparse::ParseError \x7b",
    "        ::rdparse::SyntaxError::UnexpectedToken \x7b",
    "            expected: expected.iter().map(|name| " ++
      "::std::string::ToString::to_string(name)).collect(),",
    "            found: self.current.data.clone(),",
    "        \x7d",
    "        .into()",
    "    \x7d"]

/-- The attribute that silences warnings about generated code. -/
def allowances : String :=
  "#[allow(non_snake_case, unused_variables, unused_mut, unused_assignments, " ++
    "unreachable_patterns, unreachable_code, dead_code, clippy::all)]"

/-- The lookahead sets as a comment. -/
def debugTable (a : Analysis) : String := "/*\n" ++ a.table "" ++ "*/\n\n"

/-- The artifact of the parser, with the lookahead sets if `debug` is set. -/
def parserSource (g : Grammar) (a : Analysis) (names : Names) (debug : Bool) : String :=
  let kinds := names.kindsPath
  let start := g.startRule
  ofLines (prologue g names "parser") ++ (if debug then debugTable a else "") ++
    ofLines
      (parserType names start ++ [allowances, "impl " ++ names.parserStruct ++ " \x7b"] ++
        constructorLines names ++ entryLines kinds start ++ supportLines ++
        g.parserRules.zipIdx.flatMap (fun (r, i) => "" :: ruleLines g a kinds i r) ++ ["\x7d"])

end Descent.Artifact
