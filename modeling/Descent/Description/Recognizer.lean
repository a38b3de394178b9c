import Descent.Description.Lexeme

/-!
# Recognizers that remember a complaint

A recognizer reads words from a cursor and either succeeds, with a value and the
cursor behind what it read, or fails. Besides, it passes on the most advanced
complaint so far: what was expected where reading had to stop, also on the way to a
success. Complaints at the same place are merged; of complaints at different places
the later one is kept.
-/

namespace Descent.Description

/-- Why a word is not accepted. -/
inductive Reason where
  /-- One of the labels was expected and another word, or the end, was found. -/
  | expected (labels : List String) (found : Option Lexeme)
  /-- A text of its own. -/
  | custom (text : String)
deriving DecidableEq, Repr

/-- A reason with the range of words that it is about. -/
structure Complaint where
  first : Nat
  last : Nat
  reason : Reason
deriving DecidableEq, Repr

namespace Complaint

/-- Joins the labels with a comma and the last one with `or`. -/
def listed : List String → String
  | [] => "something else"
  | [label] => label
  | [label, last] => label ++ ", or " ++ last
  | label :: rest => label ++ ", " ++ listed rest

/-- The message of a complaint. -/
def message (c : Complaint) : String :=
  match c.reason with
  | .custom text => text
  | .expected labels found =>
    "found " ++ (found.elim "end of input" fun l => "'" ++ l.display ++ "'") ++
      " expected " ++ listed labels

/-- A list of labels with those of a second list that are new behind it. -/
def joined (labels more : List String) : List String :=
  more.foldl (fun ls l => if ls.contains l then ls else ls ++ [l]) labels

/-- Two complaints at one place: the labels of the second that are new join those of the first; a
text of its own prevails over labels, and the first text over the second. -/
def merge (a b : Complaint) : Complaint :=
  match a.reason, b.reason with
  | .custom _, _ => a
  | .expected _ _, .custom _ => { a with reason := b.reason }
  | .expected xs found, .expected ys _ => { a with reason := .expected (joined xs ys) found }

/-- The complaint with a label in place of all that it expects. -/
def relabel (label : String) (c : Complaint) : Complaint :=
  match c.reason with
  | .custom _ => c
  | .expected _ found => { c with reason := .expected [label] found }

end Complaint

/-- The complaint that is remembered, with its place. -/
abbrev Memory := Option (Nat × Complaint)

/-- Remembers a complaint at a place unless one further on is remembered already. -/
def Memory.add (memory : Memory) (place : Nat) (c : Complaint) : Memory :=
  match memory with
  | none => some (place, c)
  | some (p, old) =>
    if p < place then some (place, c)
    else if p = place then some (p, old.merge c)
    else some (p, old)

/-- The words that are still to be read, and the number of those before them. -/
structure Reading where
  place : Nat
  rest : List Lexeme
deriving DecidableEq, Repr

/-- A recognizer of values. -/
def Recognizer (α : Type) := Reading → Memory → Option (α × Reading) × Memory

namespace Recognizer

variable {α β : Type}

/-- Reads one word that `accept` accepts. -/
def word (labels : List String) (accept : Lexeme → Option α) : Recognizer α := fun r memory =>
  match r.rest with
  | [] => (none, memory.add r.place ⟨r.place, r.place, .expected labels none⟩)
  | l :: rest =>
    match accept l with
    | some a => (some (a, ⟨r.place + 1, rest⟩), memory)
    | none => (none, memory.add r.place ⟨r.place, r.place + 1, .expected labels (some l)⟩)

/-- Reads a given word. -/
def just (l : Lexeme) : Recognizer Unit :=
  word ["'" ++ l.display ++ "'"] fun m => if m = l then some () else none

/-- Reads what the recognizer reads and changes its value. -/
def map (f : α → β) (p : Recognizer α) : Recognizer β := fun r memory =>
  match p r memory with
  | (some (a, r), memory) => (some (f a, r), memory)
  | (none, memory) => (none, memory)

/-- One after the other. -/
def both (p : Recognizer α) (q : Recognizer β) : Recognizer (α × β) := fun r memory =>
  match p r memory with
  | (none, memory) => (none, memory)
  | (some (a, r), memory) =>
    match q r memory with
    | (none, memory) => (none, memory)
    | (some (b, r), memory) => (some ((a, b), r), memory)

/-- The first, with the second behind it. -/
def before (p : Recognizer α) (q : Recognizer β) : Recognizer α := (p.both q).map (·.1)

/-- The second, behind the first. -/
def after (p : Recognizer α) (q : Recognizer β) : Recognizer β := (p.both q).map (·.2)

/-- The first, or from the same place the second. -/
def orElse (p q : Recognizer α) : Recognizer α := fun r memory =>
  match p r memory with
  | (some result, memory) => (some result, memory)
  | (none, memory) => q r memory

/-- The value if there is one; nothing is read otherwise. -/
def optional (p : Recognizer α) : Recognizer (Option α) := fun r memory =>
  match p r memory with
  | (some (a, r), memory) => (some (some a, r), memory)
  | (none, memory) => (some (none, r), memory)

/-- As many values as there are, at most `fuel`. -/
def manyFrom (p : Recognizer α) : Nat → Reading → Memory → (List α × Reading) × Memory
  | 0, r, memory => (([], r), memory)
  | fuel + 1, r, memory =>
    match p r memory with
    | (none, memory) => (([], r), memory)
    | (some (a, r), memory) =>
      match manyFrom p fuel r memory with
      | ((as, r), memory) => ((a :: as, r), memory)

/-- As many values as there are. Each is a word at least, and the attempt that ends the series is one
more. -/
def many (p : Recognizer α) : Recognizer (List α) := fun r memory =>
  match manyFrom p (r.rest.length + 1) r memory with
  | (result, memory) => (some result, memory)

/-- At least one value. -/
def some1 (p : Recognizer α) : Recognizer (List α) :=
  (p.both p.many).map fun (a, as) => a :: as

/-- At least one value, with a separator before each but the first. A separator without a value
behind it is not read. -/
def separated (p : Recognizer α) (separator : Recognizer β) : Recognizer (List α) :=
  (p.both (separator.after p).many).map fun (a, as) => a :: as

/-- A complaint at the place where the recognizer began speaks of the label instead. -/
def labelled (label : String) (p : Recognizer α) : Recognizer α := fun r memory =>
  match p r none with
  | (result, none) => (result, memory)
  | (result, some (place, c)) =>
    (result, memory.add place (if place = r.place then c.relabel label else c))

/-- Checks a value, with a custom complaint about all that was read. What was remembered before is
lost if nothing could be read, and what was remembered while reading counts at the beginning. -/
def checked (f : α → Except String β) (p : Recognizer α) : Recognizer β := fun r memory =>
  match p r none with
  | (none, inner) => (none, inner)
  | (some (a, after), inner) =>
    match f a with
    | .ok b =>
      (some (b, after), match inner with
        | none => memory
        | some (_, c) => memory.add r.place c)
    | .error text => (none, memory.add r.place ⟨r.place, after.place, .custom text⟩)

/-- The end of the words. -/
def finish : Recognizer Unit := fun r memory =>
  match r.rest with
  | [] => (some ((), r), memory)
  | l :: _ =>
    (none, memory.add r.place ⟨r.place, r.place + 1, .expected ["end of input"] (some l)⟩)

/-- Reads all words, or complains. -/
def readAll (p : Recognizer α) (words : List Lexeme) : Except Complaint α :=
  match (p.before finish) ⟨0, words⟩ none with
  | (some (a, _), _) => .ok a
  | (none, some (_, c)) => .error c
  | (none, none) => .error ⟨0, 0, .expected [] words.head?⟩

end Recognizer
end Descent.Description
