import Descent.Pattern.NamedClass

/-!
# Bracketed classes

A class in brackets is a union of characters, ranges and classes, possibly negated,
or the value of set operations on such unions. It is evaluated while it is read, so a
tree holds plain sets; the height that the class has as a tree is counted beside it.
-/

namespace Descent.Pattern

open Descent.Text

/-- The operations on sets inside brackets; they group to the left. -/
inductive SetOp where
  | intersection
  | difference
  | symmetricDifference
deriving DecidableEq, Repr

/-- The class that comes of two classes. -/
def SetOp.apply : SetOp → CharSet → CharSet → CharSet
  | .intersection => CharSet.inter
  | .difference => CharSet.diff
  | .symmetricDifference => CharSet.symmDiff

/-- The items read so far of one operand: their union, their number, and the height of the
highest. -/
structure ItemUnion where
  set : CharSet := CharSet.empty
  count : Nat := 0
  height : Nat := 0

/-- The union with one more class. -/
def ItemUnion.add (u : ItemUnion) (set : CharSet) (height : Nat) : ItemUnion :=
  ⟨u.set.union set, u.count + 1, u.height.max height⟩

/-- The height of the union as a node: several items lie one level deeper. -/
def ItemUnion.nodeHeight (u : ItemUnion) : Nat := if u.count < 2 then u.height else u.height + 1

/-- A bracket that is still open: whether it is negated, the operand and the operation before
the current operand, and the items of the bracket around it. -/
structure OpenBracket where
  negated : Bool
  pending : Option (SetOp × CharSet × Nat)
  outer : ItemUnion

/-- The value of an open bracket once its last operand is known. -/
def OpenBracket.combine (f : Flags) (b : OpenBracket) (u : ItemUnion) : CharSet × Nat :=
  match b.pending with
  | none => (u.set, u.nodeHeight)
  | some (op, left, height) =>
    (op.apply (f.fold left) (f.fold u.set), (height.max u.nodeHeight) + 1)

/-- Takes the hyphens at the front as characters. -/
def leadingHyphens (verbose : Bool) : Nat → ItemUnion → List Char → ItemUnion × List Char
  | fuel + 1, u, '-' :: r =>
    leadingHyphens verbose fuel (u.add (.singleton '-') 0) (skipLayout verbose r)
  | _, u, r => (u, r)

/-- Reads the opening of a bracket, after the bracket itself: a negation, and the hyphens and
the closing bracket that count as characters there. -/
def bracketOpening? (verbose : Bool) (rest : List Char) : Option (Bool × ItemUnion × List Char) :=
  let start := skipLayout verbose rest
  let (negated, start) := match start with
    | '^' :: r => (true, skipLayout verbose r)
    | r => (false, r)
  let (u, start) := leadingHyphens verbose start.length {} start
  let (u, start) := match u.count, start with
    | 0, ']' :: r => (u.add (.singleton ']') 0, skipLayout verbose r)
    | _, r => (u, r)
  if start.isEmpty then none else some (negated, u, start)

/-- Reads a class such as the one of letters with its colons, after the opening bracket;
anything else is left to be read as a bracket. -/
def asciiItem? (f : Flags) (rest : List Char) : Option (Option CharSet × List Char) :=
  match rest with
  | ':' :: r =>
    let (negated, r) := match r with
      | '^' :: r => (true, r)
      | r => (false, r)
    let name := r.takeWhile (· != ':')
    match r.drop name.length with
    | ':' :: ']' :: r =>
      (asciiClass? (String.ofList name)).map fun s => (f.finish? negated s, r)
    | _ => none
  | _ => none

/-- One end of a range, or an item of its own. -/
inductive SetItem where
  | char (c : Char) (byteForm : Bool)
  | set (s : CharSet)

/-- Reads a character or an escape inside brackets. -/
def setItem? (f : Flags) : List Char → Option (SetItem × List Char)
  | [] => none
  | '\\' :: rest => do
    let (e, rest) ← escape? f.verbose rest
    match e with
    | .char c byteForm => some (.char c byteForm, rest)
    | .letterClass kind negated => (f.letterClass? kind negated).map (.set ·, rest)
    | .property name negated => (f.property? name negated).map (.set ·, rest)
    | .look _ => none
  | c :: rest => some (.char c false, rest)

/-- The character that comes after the current one when layout is looked through; of comments
only the sign that begins them is looked through. -/
def peekPastLayout (verbose : Bool) (rest : List Char) : Option Char :=
  if verbose then
    match rest.dropWhile isBlank with
    | '#' :: r => ((r.dropWhile isBlank).head?) <|> rest.head?
    | r => r.head? <|> rest.head?
  else rest.head?

/-- Reads an item that is a character, a range or an escape. -/
def setRange? (f : Flags) (rest : List Char) : Option (CharSet × List Char) := do
  let (item, rest) ← setItem? f rest
  match skipLayout f.verbose rest with
  | [] => none
  | c :: after =>
    let next := peekPastLayout f.verbose after
    if c != '-' || next == some ']' || next == some '-' then
      match item with
      | .char a _ => (f.setChar? a).map (CharSet.singleton ·, c :: after)
      | .set s => some (s, c :: after)
    else
      let after := skipLayout f.verbose after
      let (last, rest) ← setItem? f after
      match item, last with
      | .char a _, .char b _ =>
        if a ≤ b then do
          let a ← f.setChar? a
          let b ← f.setChar? b
          some (CharSet.ofRange a b, rest)
        else none
      | _, _ => none

/-- The bracket behind an operation: what was read so far is its left operand. -/
def OpenBracket.operate (f : Flags) (b : OpenBracket) (op : SetOp) (u : ItemUnion) : OpenBracket :=
  let (set, height) := b.combine f u
  { b with pending := some (op, set, height) }

/-- Reads a bracketed class up to its end, with the open brackets as a stack, the innermost
first. The result is the set, the height of its tree, and the rest of the text. -/
def bracketLoop (f : Flags) : Nat → List OpenBracket → ItemUnion → List Char →
    Option (CharSet × Nat × List Char)
  | 0, _, _, _ => none
  | fuel + 1, stack, u, rest =>
    match skipLayout f.verbose rest, stack with
    | '[' :: r, top =>
      let ascii := if top.isEmpty then none else asciiItem? f r
      match ascii with
      | some (some s, r) => bracketLoop f fuel top (u.add s 0) r
      | some (none, _) => none
      | none => do
        let (negated, inner, r) ← bracketOpening? f.verbose r
        bracketLoop f fuel (⟨negated, none, u⟩ :: top) inner r
    | ']' :: r, b :: below => do
      let (set, height) := b.combine f u
      let set ← f.finish? b.negated set
      if below.isEmpty then some (set, height + 1, r)
      else bracketLoop f fuel below (b.outer.add set (height + 1)) r
    | '&' :: '&' :: r, b :: below =>
      bracketLoop f fuel (b.operate f .intersection u :: below) {} r
    | '-' :: '-' :: r, b :: below =>
      bracketLoop f fuel (b.operate f .difference u :: below) {} r
    | '~' :: '~' :: r, b :: below =>
      bracketLoop f fuel (b.operate f .symmetricDifference u :: below) {} r
    | r, stack => do
      let (set, r) ← setRange? f r
      bracketLoop f fuel stack (u.add set 0) r

end Descent.Pattern
