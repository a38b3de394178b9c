import Descent.Artifact.Source

/-!
# The artifact of the lexer

A lexer hands its skip patterns, in the order of the skip list, and its token rules,
in the order of their declarations, to the shared tokenizer.
-/

namespace Descent.Artifact

open Descent.Text (quoted)

/-- The line of a skip pattern. -/
def skipLine (r : TokenRule) : String :=
  "        " ++ rawLiteral r.pattern ++ ", // " ++ r.name

/-- The line of a token rule. -/
def ruleLine (kinds : String) (r : TokenRule) : String :=
  "        (" ++ kinds ++ "::" ++ r.name ++ ", " ++ quoted r.name ++ ", " ++
    rawLiteral r.pattern ++ "),"

/-- The tables of patterns. -/
def lexerTables (kinds : String) (skips rules : List TokenRule) : List String :=
  ["    /// Skip patterns in skip-list order.",
    "    pub const SKIPS: [&'static str; " ++ toString skips.length ++ "] = ["] ++
    skips.map skipLine ++
    ["    ];", "", "    /// Token rules in declaration order.",
      "    pub const RULES: [(" ++ kinds ++ ", &'static str, &'static str); " ++
        toString rules.length ++ "] = ["] ++
    rules.map (ruleLine kinds) ++ ["    ];", ""]

/-- The operations of a lexer. -/
def lexerMethods (kinds token : String) : List String :=
  [
    "    /// Creates a lexer over \x60input\x60.",
    "    pub fn new(input: impl ::std::convert::Into<::std::string::String>) -> " ++
      "::std::result::Result<Self, ::rdparse::regex::Error> \x7b",
    "        let tokenizer = ::rdparse::Tokenizer::new(input, &Self::SKIPS, &Self::RULES, " ++
      kinds ++ "::" ++ endName ++ ")?;",
    "        ::std::result::Result::Ok(Self \x7b tokenizer \x7d)",
    "    \x7d",
    "",
    "    /// Returns the next token; \x60" ++ endName ++
      "\x60 once the input is exhausted, on every call.",
    "    pub fn next_token(&mut self) -> ::std::result::Result<" ++ token ++
      ", ::rdparse::LexicalError> \x7b",
    "        let (kind, data) = self.tokenizer.next_token()?;",
    "        ::std::result::Result::Ok(" ++ token ++ " \x7b kind, data \x7d)",
    "    \x7d",
    "",
    "    /// Byte offset of the first unconsumed byte.",
    "    pub fn offset(&self) -> usize \x7b",
    "        self.tokenizer.offset()",
    "    \x7d",
    "",
    "    pub fn remainder(&self) -> &str \x7b",
    "        self.tokenizer.remainder()",
    "    \x7d",
    "",
    "    pub fn stats(&self) -> ::rdparse::TokenizerStats \x7b",
    "        self.tokenizer.stats()",
    "    \x7d"]

/-- The artifact of the lexer. -/
def lexerSource (g : Grammar) (names : Names) : String :=
  let kinds := names.kindsPath
  ofLines <|
    prologue g names "lexer" ++
      ["/// Splits input text into \x60" ++ names.tokenStruct ++ "\x60 values.", "#[derive(Debug)]",
        "pub struct " ++ names.lexerStruct ++ " \x7b",
        "    tokenizer: ::rdparse::Tokenizer<" ++ kinds ++ ">,", "\x7d", "",
        "impl " ++ names.lexerStruct ++ " \x7b"] ++
      lexerTables kinds g.skipRules g.lexemes ++ lexerMethods kinds names.tokenPath ++ ["\x7d"]

end Descent.Artifact
