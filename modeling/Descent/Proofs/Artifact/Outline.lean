import Descent.Artifact.LexerSource
import Descent.Artifact.ParserSource
import Descent.Artifact.TokenKinds
import Mathlib.Data.List.Basic

/-!
# Outlines of the artifacts

An outline tells the lists that an artifact declares, the kinds of tokens that its lines name
and the functions that they define and call. Every artifact is the printed form of its
outline. The code of a grammar is a statement of its own in the outline of a parser, so that
the other statements are those that are generated.
-/

namespace Descent.Artifact

open Descent.Text (quoted)

/-! ### The artifact of token kinds -/

/-- What the artifact of token kinds declares. -/
structure TokensOutline where
  /-- The variants of the enumeration. -/
  variants : List String
  /-- The length that is stated for the list of all kinds. -/
  count : Nat
  /-- The members of the list of all kinds. -/
  all : List String
  /-- The arms of the function that names kinds, with their names. -/
  names : List (String × String)

/-- The artifact of the token kinds with this outline. -/
def TokensOutline.print (o : TokensOutline) (g : Grammar) (names : Names) : String :=
  let kinds := names.tokensEnum
  let token := names.tokenStruct
  ofLines <|
    prologue g names "token kinds" ++ kindsEnum kinds o.variants ++
      (["impl " ++ kinds ++ " \x7b",
        "    pub const ALL: [" ++ kinds ++ "; " ++ toString o.count ++ "] = ["] ++
        o.all.map (fun kind => "        " ++ kinds ++ "::" ++ kind ++ ",") ++
        [
          "    ];",
          "",
          "    /// Name of the token rule, as written in the grammar.",
          "    pub fn name(self) -> &'static str \x7b",
          "        match self \x7b"] ++
        o.names.map (fun (kind, name) =>
          "            " ++ kinds ++ "::" ++ kind ++ " => " ++ quoted name ++ ",") ++
        ["        \x7d", "    \x7d", "\x7d", ""]) ++
      displayImplementation kinds "f.write_str(self.name())" ++ [""] ++
      tokenType kinds token ++
      displayImplementation token "::std::fmt::Display::fmt(&self.data, f)"

/-- The outline of the token kinds of a grammar. -/
def tokensOutline (g : Grammar) : TokensOutline where
  variants := kindNames g
  count := (kindNames g).length
  all := kindNames g
  names := (kindNames g).map fun name => (name, name)

/-- What the artifact of the lexer declares. -/
structure LexerOutline where
  /-- The length that is stated for the skip patterns. -/
  skipCount : Nat
  /-- The skip patterns, with the names that stand behind them. -/
  skips : List TokenRule
  /-- The length that is stated for the token rules. -/
  ruleCount : Nat
  /-- The token rules: kind, name and pattern. -/
  rules : List (String × String × String)

/-- The artifact of the lexer with this outline. -/
def LexerOutline.print (o : LexerOutline) (g : Grammar) (names : Names) : String :=
  let kinds := names.kindsPath
  ofLines <|
    prologue g names "lexer" ++
      ["/// Splits input text into \x60" ++ names.tokenStruct ++ "\x60 values.", "#[derive(Debug)]",
        "pub struct " ++ names.lexerStruct ++ " \x7b",
        "    tokenizer: ::rdparse::Tokenizer<" ++ kinds ++ ">,", "\x7d", "",
        "impl " ++ names.lexerStruct ++ " \x7b"] ++
      (["    /// Skip patterns in skip-list order.",
        "    pub const SKIPS: [&'static str; " ++ toString o.skipCount ++ "] = ["] ++
        o.skips.map skipLine ++
        ["    ];", "", "    /// Token rules in declaration order.",
          "    pub const RULES: [(" ++ kinds ++ ", &'static str, &'static str); " ++
            toString o.ruleCount ++ "] = ["] ++
        o.rules.map (fun (kind, name, pattern) =>
          "        (" ++ kinds ++ "::" ++ kind ++ ", " ++ quoted name ++ ", " ++
            rawLiteral pattern ++ "),") ++
        ["    ];", ""]) ++
      lexerMethods kinds names.tokenPath ++ ["\x7d"]

/-- The outline of the lexer of a grammar. -/
def lexerOutline (g : Grammar) : LexerOutline where
  skipCount := g.skipRules.length
  skips := g.skipRules
  ruleCount := g.lexemes.length
  rules := g.lexemes.map fun t => (t.name, t.name, t.pattern)

/-- A statement inside an arm. -/
inductive Statement where
  /-- Code of the grammar. -/
  | code (text : String)
  /-- Fails with the expected names unless the current token is of the kind. -/
  | check (kind : String) (expected : List String)
  /-- Binds the current token. -/
  | bind (name : String)
  | advance
  /-- Binds what the function of a rule returns. -/
  | call (binding type rule : String) (arguments : List String)

/-- The lines of a statement. -/
def Statement.lines (kinds : String) : Statement → List String
  | code text => ["                " ++ text]
  | check kind expected =>
    [
      "                if self.current.kind != " ++ kinds ++ "::" ++ kind ++ " \x7b",
      "                    return ::std::result::Result::Err(self.unexpected(" ++
        expectedList expected ++ "));",
      "                \x7d"]
  | bind name =>
    ["                let " ++ name ++ ": ::rdparse::TokenData = self.current.data.clone();"]
  | advance => ["                self.advance()?;"]
  | call binding type rule arguments =>
    ["                let " ++ binding ++ ": " ++ type ++ " = self.parse_" ++
      rule ++ "(" ++ ", ".intercalate arguments ++ ")?;"]

/-- An arm: the kinds of its label, and its statements. -/
structure Arm where
  labels : List String
  body : List Statement

/-- The lines of an arm: its label and its statements. -/
def Arm.lines (kinds : String) (arm : Arm) : List String :=
  ["            " ++ " | ".intercalate (arm.labels.map fun kind => kinds ++ "::" ++ kind) ++
    " => \x7b"] ++ arm.body.flatMap (Statement.lines kinds) ++ ["            \x7d"]

/-- The function of a rule: its arms, and the names that are expected where no arm is selected. -/
structure RuleFunction where
  name : String
  arguments : List Binding
  returns : Binding
  arms : List Arm
  expected : List String

/-- The lines of the function of a rule. -/
def RuleFunction.lines (kinds : String) (f : RuleFunction) : List String :=
  [
    "    fn parse_" ++ f.name ++ "(&mut self" ++ parameters f.arguments ++
      ") -> ::std::result::Result<" ++ f.returns.type ++ ", ::rdparse::ParseError> \x7b",
    "        ::rdparse::log::trace!(\"enter " ++ f.name ++ ": \x7b\x7d\", self.current);",
    "        let mut " ++ f.returns.name ++ ": " ++ f.returns.type ++ ";",
    "        match self.current.kind \x7b"] ++
    f.arms.flatMap (Arm.lines kinds) ++
    [
      "            _ => return ::std::result::Result::Err(self.unexpected(" ++
        expectedList f.expected ++ ")),",
      "        \x7d",
      "        ::std::result::Result::Ok(" ++ f.returns.name ++ ")",
      "    \x7d"]

/-- The entry function: the rule that it calls, and the kind that it requires then. -/
structure Entry where
  arguments : List Binding
  type : String
  rule : String
  forwarded : List String
  required : String

/-- The lines of the entry function. -/
def Entry.lines (kinds : String) (e : Entry) : List String :=
  [
    "    /// Parses the whole input as \x60" ++ e.rule ++ "\x60 and returns its value.",
    "    pub fn parse(&mut self" ++ parameters e.arguments ++
      ") -> ::std::result::Result<" ++ e.type ++ ", ::rdparse::ParseError> \x7b",
    "        self.advance()?;",
    "        let value = self.parse_" ++ e.rule ++ "(" ++
      ", ".intercalate e.forwarded ++ ")?;",
    "        if self.current.kind != " ++ kinds ++ "::" ++ e.required ++ " \x7b",
    "            return ::std::result::Result::Err(::rdparse::SyntaxError::TrailingInput " ++
      "\x7b found: self.current.data.clone() \x7d.into());",
    "        \x7d",
    "        ::std::result::Result::Ok(value)",
    "    \x7d",
    ""]

/-- What the artifact of the parser defines: the kind with which a new parser begins, the entry function
and the functions of the rules. -/
structure ParserOutline where
  initial : String
  entry : Entry
  functions : List RuleFunction

/-- The artifact of the parser with this outline. -/
def ParserOutline.print (o : ParserOutline) (g : Grammar) (a : Analysis) (names : Names)
    (debug : Bool) : String :=
  let kinds := names.kindsPath
  ofLines (prologue g names "parser") ++ (if debug then debugTable a else "") ++
    ofLines
      (parserType names g.startRule ++ [allowances, "impl " ++ names.parserStruct ++ " \x7b"] ++
        [
          "    pub fn new(lexer: " ++ names.lexerPath ++ ") -> Self \x7b",
          "        Self \x7b",
          "            lexer,",
          "            current: " ++ names.tokenPath ++ " \x7b",
          "                kind: " ++ kinds ++ "::" ++ o.initial ++ ",",
          "                data: ::rdparse::TokenData::end(0),",
          "            \x7d,",
          "        \x7d",
          "    \x7d",
          ""] ++
        o.entry.lines kinds ++ supportLines ++
        o.functions.flatMap (fun f => "" :: f.lines kinds) ++ ["\x7d"])

/-- The statement of a fragment of code, if there is one. -/
def codeStatements (code : Option String) : List Statement := (code.map Statement.code).toList

/-- The statements of an atom, its action among them. -/
def atomStatements (g : Grammar) (x : Atom) : List Statement :=
  match x.reference with
  | .terminal =>
    [.check x.name [x.name], .bind x.binding] ++ codeStatements x.action ++ [.advance]
  | .nonterminal arguments =>
    .call x.binding (ruleType g x.name) x.name arguments :: codeStatements x.action

/-- The statements of an alternative: its first code, and its atoms or the code of the empty text.
-/
def alternativeStatements (g : Grammar) (alt : Alternative) : List Statement :=
  codeStatements alt.init ++
    match alt with
    | .epsilon _ code => codeStatements code
    | .sequence _ atoms => atoms.flatMap (atomStatements g)

/-- The arm of an alternative with the markers; none if nothing selects it. -/
def armOf? (g : Grammar) (a : Analysis) (markers : TokenSet) (alt : Alternative) : Option Arm :=
  if markers.isEmpty then none
  else some ⟨a.tokenNames markers, alternativeStatements g alt⟩

/-- The function of a rule, with an arm for each alternative that can be selected. -/
def ruleFunction (g : Grammar) (a : Analysis) (index : Nat) (r : ParserRule) : RuleFunction where
  name := r.name
  arguments := r.arguments
  returns := r.returns
  arms := r.alternatives.zipIdx.filterMap fun (alt, i) => armOf? g a (a.markersOf index i) alt
  expected := a.tokenNames (a.expected index)

/-- The outline of the parser of a grammar. -/
def parserOutline (g : Grammar) (a : Analysis) : ParserOutline where
  initial := endName
  entry :=
    ⟨g.startRule.arguments, g.startRule.returns.type, g.startRule.name,
      g.startRule.arguments.map (·.name), endName⟩
  functions := g.parserRules.zipIdx.map fun (r, i) => ruleFunction g a i r

section

variable (g : Grammar) (a : Analysis) (kinds : String)

end

end Descent.Artifact
