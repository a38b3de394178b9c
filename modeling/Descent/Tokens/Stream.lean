import Descent.Tokens.Tokenizer

/-!
# Streams of tokens and parsers on them

All that a lexer will ever return for an input is a stream: tokens, and then either
the end token for ever or the same failure for ever. A recursive-descent parser holds
a current token and the stream behind it. Its result is a value or a failure; in both
cases it stands somewhere in the stream and can go on from there.
-/

namespace Descent

/-- What a lexer returns, call after call. -/
inductive Stream (κ : Type) where
  | token (kind : κ) (token : Token) (rest : Stream κ)
  /-- The end token, on every call. -/
  | finished (kind : κ) (token : Token)
  /-- The failure, on every call. -/
  | stuck (e : LexicalError)

namespace Stream

variable {κ : Type}

/-- The number of tokens before the end or the failure. -/
def length : Stream κ → Nat
  | token _ _ rest => rest.length + 1
  | finished _ _ => 0
  | stuck _ => 0

end Stream

namespace Lexicon

variable {κ : Type}

/-- The stream from a cursor on, with at most `fuel` tokens. -/
def streamFrom (lexicon : Lexicon κ) : Nat → Cursor → Stream κ
  | 0, cursor => .finished lexicon.endKind (.atEnd cursor.offset)
  | fuel + 1, cursor =>
    match lexicon.next cursor with
    | (.error e, _) => .stuck e
    | (.ok (kind, token), after) =>
      if (lexicon.skipAll cursor).rest.isEmpty then .finished kind token
      else .token kind token (lexicon.streamFrom fuel after)

/-- The stream of an input; every token takes a character at least. -/
def stream (lexicon : Lexicon κ) (input : String) : Stream κ :=
  lexicon.streamFrom (input.toList.length + 1) (.start input.toList)

end Lexicon

/-- Where a parser stands: its current token and the stream behind it. -/
structure Standing (κ : Type) where
  kind : κ
  token : Token
  upcoming : Stream κ

/-- A parser of values of `β`, whose actions fail with values of `α`. -/
abbrev Parser (κ α β : Type) := ExceptT (ParseError α) (StateM (Standing κ)) β

namespace Parser

variable {κ α β : Type}

/-- The kind of the current token. -/
def kind : Parser κ α κ := return (← get).kind

/-- The current token. -/
def current : Parser κ α Token := return (← get).token

/-- Fetches the next token. Where there is none the parser stays where it is. -/
def advance : Parser κ α Unit := do
  let s ← get
  match s.upcoming with
  | .token kind token rest => set (Standing.mk kind token rest)
  | .finished kind token => set { s with kind, token }
  | .stuck e => throw (.lexical e)

/-- Fails because the current token is none of the expected ones. -/
def unexpected (expected : List String) : Parser κ α β := do
  throw (.unfit (.unexpected expected (← current)))

/-- Requires a current token of the given kind, lets `f` make a value of it, and advances. -/
def terminal [DecidableEq κ] (expected : κ) (name : String) (f : Token → Except α β) :
    Parser κ α β := do
  if (← kind) = expected then
    match f (← current) with
    | .ok b => do
      advance
      return b
    | .error e => throw (.action e)
  else unexpected [name]

/-- Makes a failure of an action one of the parser. -/
def act (r : Except α β) : Parser κ α β :=
  match r with
  | .ok b => return b
  | .error e => throw (.action e)

/-- Fetches the first token, parses with the start rule and requires the end. -/
def whole [DecidableEq κ] (endKind : κ) (start : Parser κ α β) : Parser κ α β := do
  advance
  let value ← start
  if (← kind) = endKind then return value
  else throw (.unfit (.trailing (← current)))

end Parser

/-- Where a new parser stands: before the first token, with an end token in its place. -/
def Standing.new {κ : Type} (lexicon : Lexicon κ) (input : String) : Standing κ :=
  ⟨lexicon.endKind, .atEnd 0, lexicon.stream input⟩

end Descent
