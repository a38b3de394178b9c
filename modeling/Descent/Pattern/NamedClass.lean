import Descent.Pattern.Escape
import Descent.Text.Script

/-!
# Named classes

The sets that names stand for: properties of the Unicode standard, classes named by a
letter, and the ASCII classes that are written between colons. Flags decide whether
a set is closed under case and whether it may leave ASCII.
-/

namespace Descent.Pattern

open Descent.Text

/-- A name in the form in which tables list it: ASCII in lower case, without blanks, underscores,
hyphens and a leading `is`. -/
def plainName (name : List Char) : String :=
  let lower := name.map fun c => if isAsciiUpper c then Char.ofNat (c.toNat + 32) else c
  let keep (cs : List Char) := cs.filter fun c =>
    c.toNat < 128 && c != ' ' && c != '_' && c != '-'
  match lower with
  | 'i' :: 's' :: rest =>
    if keep rest == ['c'] then "isc" else String.ofList (keep rest)
  | _ => String.ofList (keep lower)

/-- The set of a property given by name alone: a binary property, a category or a script. -/
def classNamed? (name : String) : Option CharSet :=
  (if name == "sc" || name == "lc" then none else property? name) <|>
    category? name <|> script? name

/-- The set of the characters for which a property has a value. The age of a character and the kinds
of breaks around it are not among the properties that are known. -/
def classValued? (property value : String) : Option CharSet :=
  match property with
  | "gc" | "generalcategory" => category? value
  | "sc" | "script" => script? value
  | "scx" | "scriptextensions" => scriptExtension? value
  | _ => none

/-- The text before and after the first occurrence of a separator. -/
def splitAt? (separator : List Char) : List Char → Option (List Char × List Char)
  | [] => none
  | c :: rest =>
    if separator.isPrefixOf (c :: rest) then some ([], (c :: rest).drop separator.length)
    else (splitAt? separator rest).map fun (a, b) => (c :: a, b)

/-- The set that the written name of a property stands for, and whether the writing itself
negates it. -/
def propertyClass? (name : List Char) : Option (CharSet × Bool) :=
  match splitAt? ['!', '='] name with
  | some (p, v) => (classValued? (plainName p) (plainName v)).map (·, true)
  | none =>
    match (splitAt? [':'] name) <|> (splitAt? ['='] name) with
    | some (p, v) => (classValued? (plainName p) (plainName v)).map (·, false)
    | none => (classNamed? (plainName name)).map (·, false)

/-- The ASCII classes with a name between colons. -/
def asciiClass? (name : String) : Option CharSet :=
  match name with
  | "alnum" => some ⟨[(48, 57), (65, 90), (97, 122)]⟩
  | "alpha" => some ⟨[(65, 90), (97, 122)]⟩
  | "ascii" => some ⟨[(0, 127)]⟩
  | "blank" => some ⟨[(9, 9), (32, 32)]⟩
  | "cntrl" => some ⟨[(0, 31), (127, 127)]⟩
  | "digit" => some ⟨[(48, 57)]⟩
  | "graph" => some ⟨[(33, 126)]⟩
  | "lower" => some ⟨[(97, 122)]⟩
  | "print" => some ⟨[(32, 126)]⟩
  | "punct" => some ⟨[(33, 47), (58, 64), (91, 96), (123, 126)]⟩
  | "space" => some ⟨[(9, 13), (32, 32)]⟩
  | "upper" => some ⟨[(65, 90)]⟩
  | "word" => some ⟨[(48, 57), (65, 90), (95, 95), (97, 122)]⟩
  | "xdigit" => some ⟨[(48, 57), (65, 70), (97, 102)]⟩
  | _ => none

namespace Flags

/-- Closes a set under case if case is ignored. -/
def fold (f : Flags) (s : CharSet) : CharSet :=
  if f.ignoreCase then if f.unicode then s.foldCase else s.foldAsciiCase else s

/-- Case first, then negation. Without the whole of Unicode a negated set would hold bytes that
are no characters, so there is none. -/
def finish? (f : Flags) (negated : Bool) (s : CharSet) : Option CharSet :=
  if negated then if f.unicode then some (f.fold s).complement else none else some (f.fold s)

/-- The set of a letter class. It is closed under case already. -/
def letterClass? (f : Flags) (kind : LetterClass) (negated : Bool) : Option CharSet :=
  let s := match kind with
    | .digit => if f.unicode then decimalDigits else ⟨[(48, 57)]⟩
    | .space => if f.unicode then whiteSpace else ⟨[(9, 13), (32, 32)]⟩
    | .word => if f.unicode then wordCharacters else ⟨[(48, 57), (65, 90), (95, 95), (97, 122)]⟩
  if negated then if f.unicode then some s.complement else none else some s

/-- The set of a property; properties are there only with the whole of Unicode. -/
def property? (f : Flags) (name : List Char) (negated : Bool) : Option CharSet :=
  if f.unicode then
    (propertyClass? name).bind fun (s, inner) => f.finish? (negated != inner) s
  else none

/-- A character that may stand in a set: without the whole of Unicode an ASCII one. -/
def setChar? (f : Flags) (c : Char) : Option Char :=
  if f.unicode || c.toNat < 128 then some c else none

end Flags

end Descent.Pattern
