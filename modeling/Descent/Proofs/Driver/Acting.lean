import Descent.Description.Item
import Descent.Proofs.Driver.Basic

/-!
# The driver with its actions

What the artifact of the parser does when it runs, actions included. The language of
the fragments of code is a parameter: a meaning says how a fragment changes the
variables of the function it stands in, or why it fails, and which value an argument
has. A function begins with its arguments as variables, and what its atoms are bound
to comes in front of them.
-/

namespace Descent

/-- What a variable holds: a token, or the value of a rule. -/
inductive Held (ν : Type) where
  | token (t : Token)
  | value (v : ν)

/-- The variables of a function; of two with one name the first is visible. -/
abbrev Scope (ν : Type) := List (String × Held ν)

namespace Scope

variable {ν : Type}

/-- Binds a name. What is bound to the name of no variable is dropped. -/
def bind (scope : Scope ν) (name : String) (held : Held ν) : Scope ν :=
  if name = Description.unbound then scope else (name, held) :: scope

/-- The token that a variable holds. -/
def token (scope : Scope ν) (name : String) : Token :=
  match scope.lookup name with
  | some (.token t) => t
  | _ => .atEnd 0

/-- The value that a variable holds. -/
def value [Inhabited ν] (scope : Scope ν) (name : String) : ν :=
  match scope.lookup name with
  | some (.value v) => v
  | _ => default

variable {scope : Scope ν} {name x : String}

/-- Nothing is bound to the name of no variable. -/
theorem bind_unbound (held : Held ν) : scope.bind Description.unbound held = scope := if_pos rfl

/-- A variable that is bound is found under its name; the others are found as before. -/
theorem lookup_bind (h : name ≠ Description.unbound) (held : Held ν) :
    (scope.bind name held).lookup x = if x = name then some held else scope.lookup x := by
  rw [bind, if_neg h, List.lookup_cons]
  by_cases hx : x = name
  · rw [if_pos hx, beq_iff_eq.mpr hx]
  · rw [if_neg hx, beq_false_of_ne hx]

/-- A variable that is bound to a token holds this token; the others hold theirs. -/
theorem token_bind (h : name ≠ Description.unbound) (t : Token) :
    (scope.bind name (.token t)).token x = if x = name then t else scope.token x := by
  rw [token, lookup_bind h]
  by_cases hx : x = name
  · rw [if_pos hx, if_pos hx]
  · rw [if_neg hx, if_neg hx, token]

end Scope

/-- The meaning of fragments of code: what a fragment makes of the variables, and the value of an
argument. Code fails with reasons of `ε`. -/
structure Meaning (ν ε : Type) where
  run : String → Scope ν → Except ε (Scope ν)
  argument : String → Scope ν → ν

variable {ν ε : Type}

/-- A run is cut short by the limit of calls or by the failure of an action. -/
abbrev Halt (ε : Type) := CallLimit ⊕ ε

namespace Meaning

open Descent.Parser

/-- Runs a fragment where there is one. -/
def perform (m : Meaning ν ε) (code : Option String) (scope : Scope ν) : Except ε (Scope ν) :=
  match code with
  | none => .ok scope
  | some text => m.run text scope

/-- Makes what code comes to a step of the parser. -/
def attempt (r : Except ε (Scope ν)) : Parser String (Halt ε) (Scope ν) := act (r.mapError .inr)

@[simp] theorem perform_none (m : Meaning ν ε) (scope : Scope ν) :
    m.perform none scope = .ok scope := rfl

@[simp] theorem perform_some (m : Meaning ν ε) (text : String) (scope : Scope ν) :
    m.perform (some text) scope = m.run text scope := rfl

@[simp] theorem attempt_ok (scope : Scope ν) :
    attempt (.ok scope : Except ε (Scope ν)) = pure scope := rfl

/-- Runs an atom: a terminal is checked and bound, its action runs, and the token is taken; a rule
is called and bound, and then its action runs. -/
def enactAtom (m : Meaning ν ε) (call : String → List ν → Parser String (Halt ε) ν)
    (scope : Scope ν) (x : Atom) : Parser String (Halt ε) (Scope ν) :=
  match x.reference with
  | .terminal =>
    terminal x.name x.name fun t =>
      (m.perform x.action (scope.bind x.binding (.token t))).mapError .inr
  | .nonterminal arguments => do
    let v ← call x.name (arguments.map fun e => m.argument e scope)
    attempt (m.perform x.action (scope.bind x.binding (.value v)))

/-- Runs the atoms of an alternative one after the other. -/
def enactAtoms (m : Meaning ν ε) (call : String → List ν → Parser String (Halt ε) ν)
    (scope : Scope ν) : List Atom → Parser String (Halt ε) (Scope ν)
  | [] => return scope
  | x :: rest => do
    let scope ← m.enactAtom call scope x
    m.enactAtoms call scope rest

@[simp] theorem enactAtoms_nil (m : Meaning ν ε)
    (call : String → List ν → Parser String (Halt ε) ν) (scope : Scope ν) :
    m.enactAtoms call scope [] = pure scope := rfl

/-- Runs an alternative, with the code at its beginning first. -/
def enactAlternative (m : Meaning ν ε) (call : String → List ν → Parser String (Halt ε) ν)
    (scope : Scope ν) (alt : Alternative) : Parser String (Halt ε) (Scope ν) := do
  let scope ← attempt (m.perform alt.init scope)
  match alt with
  | .epsilon _ code => attempt (m.perform code scope)
  | .sequence _ atoms => m.enactAtoms call scope atoms

variable (m : Meaning ν ε) (call : String → List ν → Parser String (Halt ε) ν) (scope : Scope ν)

@[simp] theorem enactAlternative_epsilon (code : Option String) :
    m.enactAlternative call scope (.epsilon none code) = attempt (m.perform code scope) := rfl

@[simp] theorem enactAlternative_sequence (atoms : List Atom) :
    m.enactAlternative call scope (.sequence none atoms) = m.enactAtoms call scope atoms := rfl

/-- The run of a terminal binds its token, performs its action and goes on with the atoms behind
it. -/
theorem enactAtoms_terminal (binding name : String) (action : Option String) (rest : List Atom) :
    m.enactAtoms call scope (⟨binding, name, .terminal, action⟩ :: rest) =
      (terminal name name fun t =>
        (m.perform action (scope.bind binding (.token t))).mapError .inr) >>=
          fun scope => m.enactAtoms call scope rest := rfl

/-- The run of a rule name binds the value of the call, performs its action and goes on with the
atoms behind it. -/
theorem enactAtoms_nonterminal (binding name : String) (arguments : List String)
    (action : Option String) (rest : List Atom) :
    m.enactAtoms call scope (⟨binding, name, .nonterminal arguments, action⟩ :: rest) =
      call name (arguments.map fun e => m.argument e scope) >>= fun v =>
        attempt (m.perform action (scope.bind binding (.value v))) >>=
          fun scope => m.enactAtoms call scope rest := by
  rw [enactAtoms, enactAtom, bind_assoc]

end Meaning

namespace Grammar

open Descent.Parser

variable [Inhabited ν]

/-- The variables with which the function of a rule begins. -/
def opening (g : Grammar) (name : String) (values : List ν) : Scope ν :=
  (((g.rule? name).map (·.arguments)).getD []).map (·.name) |>.zip (values.map .value)

/-- The variable that the function of a rule returns. -/
def resultName (g : Grammar) (name : String) : String :=
  ((g.rule? name).map (·.returns.name)).getD ""

/-- Runs a rule with its actions: the kind of the current token selects the arm. -/
def enactRule (g : Grammar) (a : Analysis) (m : Meaning ν ε) :
    Nat → String → List ν → Parser String (Halt ε) ν
  | 0, _, _ => act (.error (.inl .reached))
  | depth + 1, name, values => do
    match g.arm? a name (← kind) with
    | some (alt, _) =>
      let scope ← m.enactAlternative (g.enactRule a m depth) (g.opening name values) alt
      return scope.value (g.resultName name)
    | none => unexpected (a.tokenNames (a.expected (g.ruleId name)))

/-- Runs the start rule, called with the values, on the whole input. -/
def enact (g : Grammar) (a : Analysis) (m : Meaning ν ε) (values : List ν) (depth : Nat) :
    Parser String (Halt ε) ν :=
  whole endName (g.enactRule a m depth g.startRule.name values)

end Grammar
end Descent
