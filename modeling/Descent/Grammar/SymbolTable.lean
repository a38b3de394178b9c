/-!
# Symbol tables

A symbol table numbers names in the order in which they are first inserted. It keeps
the names in the order of their numbers, and beside them the number of each name, so
that names are found by their numbers and numbers by their names. Every table carries
the proof that the two say the same.
-/

namespace Descent

/-- Names in the order of their numbers, and the number of each name. -/
structure SymbolTable where
  names : List String
  ids : List (String × Nat)
  /-- A name has a number exactly if the number has the name. -/
  agree : ∀ name id, ids.lookup name = some id ↔ names[id]? = some name
deriving DecidableEq, Repr

namespace SymbolTable

/-- The table without names. -/
def empty : SymbolTable := ⟨[], [], fun _ _ => by simp⟩

instance : Inhabited SymbolTable := ⟨empty⟩

/-- The number of a name. -/
def id? (t : SymbolTable) (name : String) : Option Nat := t.ids.lookup name

/-- The name with a number. -/
def name? (t : SymbolTable) (id : Nat) : Option String := t.names[id]?

/-- Whether the table has the name. -/
def contains (t : SymbolTable) (name : String) : Bool := (t.ids.lookup name).isSome

/-- The number of names. -/
def size (t : SymbolTable) : Nat := t.names.length

/-- A name put behind others has the number that is their length. -/
theorem getElem?_concat_iff {names : List String} {new name : String} {id : Nat} :
    (names ++ [new])[id]? = some name ↔
      names[id]? = some name ∨ id = names.length ∧ name = new := by
  rcases Nat.lt_trichotomy id names.length with hlt | rfl | hgt
  · rw [List.getElem?_append_left hlt]
    exact (or_iff_left fun h => absurd h.1 (Nat.ne_of_lt hlt)).symm
  · simp [eq_comm]
  · rw [List.getElem?_eq_none (by simp; omega), List.getElem?_eq_none (by omega)]
    simp [Nat.ne_of_gt hgt]

/-- Numbers and names still say the same when a name that is new gets the next number. -/
theorem agree_push {names : List String} {ids : List (String × Nat)} {new : String}
    (h : ∀ name id, ids.lookup name = some id ↔ names[id]? = some name)
    (hnew : ids.lookup new = none) (name : String) (id : Nat) :
    ((new, names.length) :: ids).lookup name = some id ↔ (names ++ [new])[id]? = some name := by
  rw [getElem?_concat_iff, ← h]
  by_cases hname : name = new
  · subst hname
    rw [List.lookup_cons_self, hnew]
    simp [eq_comm]
  · have hother : (name == new) = false := beq_eq_false_iff_ne.mpr hname
    rw [List.lookup_cons, hother]
    simp [hname]

/-- Puts a name that is not there behind the others. -/
def push (t : SymbolTable) (name : String) (h : t.id? name = none) : SymbolTable :=
  ⟨t.names ++ [name], (name, t.names.length) :: t.ids, agree_push t.agree h⟩

@[simp] theorem names_push (t : SymbolTable) (name : String) (h : t.id? name = none) :
    (t.push name h).names = t.names ++ [name] := rfl

/-- What inserting a name comes to: a new number, or the number that the name had already. -/
inductive Insertion where
  | new (id : Nat)
  | old (id : Nat)
deriving DecidableEq, Repr

/-- Inserts a name; a name that is there already keeps its number. -/
def insert (t : SymbolTable) (name : String) : Insertion × SymbolTable :=
  match h : t.id? name with
  | some id => (.old id, t)
  | none => (.new t.size, t.push name h)

/-- The table of the given names, repetitions dropped. -/
def ofList (names : List String) : SymbolTable :=
  names.foldl (fun t name => (t.insert name).2) empty

/-- Adds names that must all be new; fails with the first that is not. -/
def insertAll (t : SymbolTable) : List String → Except String SymbolTable
  | [] => .ok t
  | name :: rest =>
    match t.insert name with
    | (.new _, t) => t.insertAll rest
    | (.old _, _) => .error name

/-- The table of the given names, which must be distinct; fails with the first that repeats an
earlier one. -/
def unique (names : List String) : Except String SymbolTable := empty.insertAll names

end SymbolTable
end Descent
