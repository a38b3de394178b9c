import Descent.Pattern.Regex

/-!
# Running a regular expression

A regular expression runs as a list of threads, the most preferred first. A thread
is the stack of the nodes that it still has to match. At one position a node is
entered once: a later thread that reaches it can find nothing that the earlier one
does not find, and an empty round of a loop comes to an end there. `Node.matchEnd`
is the end of the preferred match at a position, and `Node.find` the first position
with a match.
-/

namespace Descent.Pattern

open Descent.Text

/-- The nodes of a running expression; each carries a label of its own. -/
inductive Node where
  | empty (label : Nat)
  | chars (label : Nat) (set : CharSet)
  | look (label : Nat) (condition : Look)
  | cat (label : Nat) (first second : Node)
  | alt (label : Nat) (preferred other : Node)
  /-- Any number of rounds of the body. -/
  | star (label : Nat) (greedy : Bool) (body : Node)
deriving Repr, Inhabited

/-- The label of a node. -/
def Node.label : Node → Nat
  | .empty l => l
  | .chars l _ => l
  | .look l _ => l
  | .cat l _ _ => l
  | .alt l _ _ => l
  | .star l _ _ => l

/-! ### Building nodes -/

/-- A builder of nodes: takes the next free label and gives the one after the last it used. -/
abbrev Build := Nat → Node × Nat

namespace Build

/-- The build that matches the empty text. -/
def empty : Build := fun n => (.empty n, n + 1)

/-- `a` and then `b`. -/
def cat (a b : Build) : Build := fun n =>
  let (x, n) := a n
  let (y, n) := b n
  (.cat n x y, n + 1)

/-- `a`, else `b`. -/
def alt (a b : Build) : Build := fun n =>
  let (x, n) := a n
  let (y, n) := b n
  (.alt n x y, n + 1)

/-- Exactly `count` rounds. -/
def exactly (a : Build) : Nat → Build
  | 0 => empty
  | 1 => a
  | count + 1 => cat a (exactly a count)

/-- An optional `a`, wanted or not. -/
def optional (greedy : Bool) (a : Build) : Build :=
  if greedy then alt a empty else alt empty a

/-- At most `count` rounds. -/
def upTo (greedy : Bool) (a : Build) : Nat → Build
  | 0 => empty
  | count + 1 => optional greedy (match count with
    | 0 => a
    | _ => cat a (upTo greedy a count))

/-- At least one round. The first round and the later ones share their nodes. -/
def plus (greedy : Bool) (a : Build) : Build := fun n =>
  let (x, n) := a n
  (.cat (n + 1) x (.star n greedy x), n + 2)

/-- Any number of rounds of a body that consumes something. -/
def star (greedy : Bool) (a : Build) : Build := fun n =>
  let (x, n) := a n
  (.star n greedy x, n + 1)

end Build

/-- The nodes of a regular expression. A body that may match the empty text is repeated as an
optional series of at least one round. -/
def Regex.build : Regex → Build
  | .empty => .empty
  | .chars s => fun n => (.chars n s, n + 1)
  | .look l => fun n => (.look n l, n + 1)
  | .cat r s => .cat r.build s.build
  | .alt r s => .alt r.build s.build
  | .group r => r.build
  | .rep r min none greedy =>
    match min with
    | 0 => if r.consumes then .star greedy r.build else .optional greedy (.plus greedy r.build)
    | 1 => .plus greedy r.build
    | min + 1 => .cat (.exactly r.build min) (.plus greedy r.build)
  | .rep r min (some max) greedy =>
    if max ≤ min then .exactly r.build min
    else if min == 0 then .upTo greedy r.build max
    else .cat (.exactly r.build min) (.upTo greedy r.build (max - min))

/-! ### Threads -/

/-- What a thread waits for: the nodes still to be matched, from the next one on. -/
abbrev Thread := List Node

/-- A thread that cannot go on without a character, or that has matched everything. -/
inductive Waiting where
  | done
  | char (set : CharSet) (rest : Thread)

/-- Follows a thread at a position to all the places where it waits, in order of preference.
`seen` is the set of the labels entered at this position, as the bits of a number; `fuel`
bounds the number of labels that a single path enters. -/
def explore (spot : Spot) : Nat → Thread → Nat → List Waiting × Nat
  | _, [], seen => ([.done], seen)
  | 0, _ :: _, seen => ([], seen)
  | fuel + 1, node :: rest, seen =>
    if seen.testBit node.label then ([], seen)
    else
      let seen := seen ||| 1 <<< node.label
      match node with
      | .empty _ => explore spot fuel rest seen
      | .chars _ set => ([.char set rest], seen)
      | .look _ l => if l.holds spot then explore spot fuel rest seen else ([], seen)
      | .cat _ a b => explore spot fuel (a :: b :: rest) seen
      | .alt _ a b =>
        let (xs, seen) := explore spot fuel (a :: rest) seen
        let (ys, seen) := explore spot fuel (b :: rest) seen
        (xs ++ ys, seen)
      | .star l greedy a =>
        let again := a :: .star l greedy a :: rest
        if greedy then
          let (xs, seen) := explore spot fuel again seen
          let (ys, seen) := explore spot fuel rest seen
          (xs ++ ys, seen)
        else
          let (xs, seen) := explore spot fuel rest seen
          let (ys, seen) := explore spot fuel again seen
          (xs ++ ys, seen)

/-- The threads that are preferred to the first finished one, and whether there is one. -/
def cutAtDone : List Waiting → List (CharSet × Thread) × Bool
  | [] => ([], false)
  | .done :: _ => ([], true)
  | .char set rest :: others =>
    let (ts, done) := cutAtDone others
    ((set, rest) :: ts, done)

/-- The places where the threads wait that accept the character, at the position behind it. -/
def advance (fuel : Nat) (c : Char) (spot : Spot) :
    List (CharSet × Thread) → Nat → List Waiting
  | [], _ => []
  | (set, rest) :: others, seen =>
    if set.contains c then
      let (xs, seen) := explore spot fuel rest seen
      xs ++ advance fuel c spot others seen
    else advance fuel c spot others seen

/-- Runs threads over a text. `count` characters have been taken, and `best` is the end of the
match that the threads so far cut off. -/
def runThreads (fuel : Nat) (waiting : List Waiting) (count : Nat) (best : Option Nat) :
    List Char → Option Nat
  | [] => if (cutAtDone waiting).2 then some count else best
  | c :: rest =>
    let (threads, done) := cutAtDone waiting
    let best := if done then some count else best
    if threads.isEmpty then best
    else runThreads fuel (advance fuel c ⟨some c, rest⟩ threads 0) (count + 1) best rest

/-- The number of characters in the preferred match at a position, if there is a match. Labels
below `fuel` are the only ones in the node. -/
def Node.matchEnd (node : Node) (fuel : Nat) (spot : Spot) : Option Nat :=
  runThreads fuel (explore spot fuel [node] 0).1 0 none spot.after

/-- The first match at this position or a later one: where it starts and where it ends, counted
in characters from the beginning of the search. -/
def Node.findFrom (node : Node) (fuel : Nat) (before : Option Char) (start : Nat) :
    List Char → Option (Nat × Nat)
  | [] => (node.matchEnd fuel ⟨before, []⟩).map fun n => (start, start + n)
  | c :: rest =>
    match node.matchEnd fuel ⟨before, c :: rest⟩ with
    | some n => some (start, start + n)
    | none => node.findFrom fuel (some c) (start + 1) rest

end Descent.Pattern
