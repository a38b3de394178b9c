import Descent.Grammar.Basic
import Descent.Proofs.Tokens.Movement

/-!
# Kinds and their names

A tokenizer looks at patterns and never at the kinds of its rules. So a lexicon whose
kinds are renamed finds the same tokens under new kinds: its streams, and the places in
them, are the old ones renamed.
-/

namespace Descent

variable {κ μ : Type}

/-- The token rule with its kind renamed. -/
def LexemeRule.mapKind (f : κ → μ) (r : LexemeRule κ) : LexemeRule μ := ⟨f r.kind, r.name, r.pattern⟩

/-- The stream with its kinds renamed. -/
def Stream.mapKind (f : κ → μ) : Stream κ → Stream μ
  | .token kind t rest => .token (f kind) t (rest.mapKind f)
  | .finished kind t => .finished (f kind) t
  | .stuck e => .stuck e

/-- The place with the kinds there and behind it renamed. -/
def Standing.mapKind (f : κ → μ) (s : Standing κ) : Standing μ :=
  ⟨f s.kind, s.token, s.upcoming.mapKind f⟩

/-- The lexicon with its kinds renamed. -/
def Lexicon.mapKind (f : κ → μ) (lexicon : Lexicon κ) : Lexicon μ :=
  ⟨lexicon.skips, lexicon.rules.map fun r => r.mapKind f, f lexicon.endKind⟩

variable (f : κ → μ)

@[simp] theorem Standing.token_mapKind (s : Standing κ) : (s.mapKind f).token = s.token := rfl

@[simp] theorem Stream.length_mapKind (stream : Stream κ) :
    (stream.mapKind f).length = stream.length := by
  induction stream with
  | token kind token rest ih => simp [mapKind, length, ih]
  | finished kind token => rfl
  | stuck e => rfl

/-- Fetching a token leads to the renamed place. -/
theorem Standing.next_mapKind (s : Standing κ) :
    (s.mapKind f).next = s.next.map fun u => u.mapKind f := by
  obtain ⟨kind, token, upcoming⟩ := s
  cases upcoming <;> rfl

namespace Lexicon

variable (lexicon : Lexicon κ)

private theorem skipFrom_mapKind (fuel : Nat) (cursor : Cursor) :
    (lexicon.mapKind f).skipFrom fuel cursor = lexicon.skipFrom fuel cursor := by
  induction fuel generalizing cursor with
  | zero => rfl
  | succ fuel ih =>
      have hskip : (lexicon.mapKind f).skipLength? cursor.rest = lexicon.skipLength? cursor.rest :=
        rfl
      rw [skipFrom, skipFrom, hskip]
      cases lexicon.skipLength? cursor.rest with
      | none => rfl
      | some n => exact ih _

/-- A lexicon with renamed kinds skips the same text. -/
theorem skipAll_mapKind (cursor : Cursor) :
    (lexicon.mapKind f).skipAll cursor = lexicon.skipAll cursor :=
  skipFrom_mapKind f lexicon _ cursor

/-- A lexicon with renamed kinds finds the same rule under its new kind. -/
theorem firstRule?_mapKind (rest : List Char) : (lexicon.mapKind f).firstRule? rest =
    (lexicon.firstRule? rest).map fun found => (found.1.mapKind f, found.2) := by
  rw [firstRule?, firstRule?, mapKind, List.findSome?_map, List.map_findSome?]
  refine congrArg (List.findSome? · lexicon.rules) (funext fun r => ?_)
  simp only [Function.comp_apply, LexemeRule.mapKind]
  cases r.pattern.find rest with
  | none => rfl
  | some m => by_cases hlt : m.1 < m.2 <;> simp [hlt]

/-- The next token is the old one with its kind renamed. -/
theorem next_mapKind (cursor : Cursor) : (lexicon.mapKind f).next cursor =
    ((lexicon.next cursor).1.map fun found => (f found.1, found.2), (lexicon.next cursor).2) := by
  simp only [next, skipAll_mapKind, firstRule?_mapKind]
  split
  · rfl
  · cases lexicon.firstRule? (lexicon.skipAll cursor).rest <;> rfl

private theorem streamFrom_mapKind (fuel : Nat) (cursor : Cursor) :
    (lexicon.mapKind f).streamFrom fuel cursor = (lexicon.streamFrom fuel cursor).mapKind f := by
  induction fuel generalizing cursor with
  | zero => rfl
  | succ fuel ih =>
      rw [streamFrom, streamFrom, next_mapKind, skipAll_mapKind]
      obtain ⟨found, after⟩ := lexicon.next cursor
      cases found with
      | error e => rfl
      | ok found =>
          simp only [Except.map]
          split
          · rfl
          · rw [ih, Stream.mapKind]

/-- The stream of a lexicon with renamed kinds is the stream with its kinds renamed. -/
theorem stream_mapKind (input : String) :
    (lexicon.mapKind f).stream input = (lexicon.stream input).mapKind f :=
  streamFrom_mapKind f lexicon _ _

/-- A new parser on the tokens of the renamed lexicon stands at the renamed place. -/
theorem new_mapKind (input : String) :
    Standing.new (lexicon.mapKind f) input = (Standing.new lexicon input).mapKind f := by
  rw [Standing.new, Standing.new, stream_mapKind]
  rfl

/-- Patterns are compiled alike whatever the kinds are. -/
theorem ofPatterns?_mapKind (skips : List String) (rules : List (κ × String × String))
    (endKind : κ) :
    ofPatterns? skips (rules.map fun r => (f r.1, r.2)) (f endKind) =
      (ofPatterns? skips rules endKind).map fun lexicon => lexicon.mapKind f := by
  have hrules : ∀ compile : String → Option Pattern.Compiled,
      ((rules.map fun r => (f r.1, r.2)).mapM fun r =>
          (compile r.2.2).map fun p => LexemeRule.mk r.1 r.2.1 p) =
        (rules.mapM fun r => (compile r.2.2).map fun p => LexemeRule.mk r.1 r.2.1 p).map
          fun compiled => compiled.map fun r => r.mapKind f := by
    intro compile
    induction rules with
    | nil => rfl
    | cons r rest ih =>
        rw [List.map_cons, List.mapM_cons, List.mapM_cons, ih]
        cases compile r.2.2 <;>
          cases rest.mapM fun r => (compile r.2.2).map fun p => LexemeRule.mk r.1 r.2.1 p <;> rfl
  simp only [ofPatterns?, hrules]
  cases skips.mapM Pattern.compileAnchored? with
  | none => rfl
  | some compiled =>
      cases rules.mapM fun r =>
        (Pattern.compileAnchored? r.2.2).map fun p => LexemeRule.mk r.1 r.2.1 p <;> rfl

end Lexicon

/-- The lexicon of a grammar: what it skips, and the rules of its tokens with their names for
kinds. -/
def Grammar.lexicon? (g : Grammar) : Option (Lexicon String) :=
  Lexicon.ofPatterns? (g.skipRules.map (·.pattern))
    (g.lexemes.map fun t => (t.name, t.name, t.pattern)) endName

end Descent
