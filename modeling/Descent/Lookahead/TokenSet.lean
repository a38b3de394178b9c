/-!
# Sets of terminals

Terminals are numbers. A set of terminals lists its members in increasing order,
and carries the proof that it does, so two sets with the same members are equal.
-/

namespace Descent

/-- A finite set of terminals. -/
structure TokenSet where
  /-- The members in increasing order. -/
  ids : List Nat
  increasing : ids.Pairwise (· < ·)
deriving DecidableEq

namespace TokenSet

/-- Puts a number into an increasing list, unless it is there. -/
def insertId (t : Nat) : List Nat → List Nat
  | [] => [t]
  | a :: rest => if t < a then t :: a :: rest else if t = a then a :: rest else a :: insertId t rest

/-- A number that is inserted becomes a member, beside those that were there. -/
theorem mem_insertId {t x : Nat} {l : List Nat} : x ∈ insertId t l ↔ x = t ∨ x ∈ l := by
  induction l with
  | nil => simp [insertId]
  | cons a rest ih =>
    unfold insertId
    split
    · simp
    · split
      · next h => subst h; simp
      · simp only [List.mem_cons, ih]
        exact or_left_comm

/-- Insertion keeps the order. -/
theorem increasing_insertId {t : Nat} {l : List Nat} (h : l.Pairwise (· < ·)) :
    (insertId t l).Pairwise (· < ·) := by
  induction l with
  | nil => simp [insertId]
  | cons a rest ih =>
    have hr := List.pairwise_cons.mp h
    unfold insertId
    split
    · next hlt =>
      refine List.pairwise_cons.mpr ⟨fun x hx => ?_, h⟩
      rcases List.mem_cons.mp hx with rfl | hx
      · exact hlt
      · exact Nat.lt_trans hlt (hr.1 x hx)
    · split
      · exact h
      · next h1 h2 =>
        refine List.pairwise_cons.mpr ⟨fun x hx => ?_, ih hr.2⟩
        rcases mem_insertId.mp hx with rfl | hx
        · omega
        · exact hr.1 x hx

/-- The set without members. -/
def empty : TokenSet := ⟨[], .nil⟩

instance : EmptyCollection TokenSet := ⟨empty⟩

instance : Inhabited TokenSet := ⟨empty⟩

instance : Membership Nat TokenSet := ⟨fun s t => t ∈ s.ids⟩

instance (t : Nat) (s : TokenSet) : Decidable (t ∈ s) :=
  inferInstanceAs (Decidable (t ∈ s.ids))

/-- The set with one more number. -/
def insert (t : Nat) (s : TokenSet) : TokenSet :=
  ⟨insertId t s.ids, increasing_insertId s.increasing⟩

/-- The numbers of both sets. -/
def union (s t : TokenSet) : TokenSet := s.ids.foldr insert t

instance : Union TokenSet := ⟨union⟩

/-- The members of both sets. -/
def inter (s t : TokenSet) : TokenSet :=
  ⟨s.ids.filter fun x => decide (x ∈ t), s.increasing.filter _⟩

instance : Inter TokenSet := ⟨inter⟩

/-- Whether the set has no numbers. -/
def isEmpty (s : TokenSet) : Bool := s.ids.isEmpty

/-- The union of a list of sets. -/
def unionAll (sets : List TokenSet) : TokenSet := sets.foldr union ∅

/-- The set of the given numbers. -/
def ofList (ids : List Nat) : TokenSet := ids.foldr insert ∅

/-- The number of members. -/
def size (s : TokenSet) : Nat := s.ids.length

@[simp] theorem not_mem_empty (t : Nat) : t ∉ (∅ : TokenSet) := List.not_mem_nil

@[simp] theorem mem_insert {t x : Nat} {s : TokenSet} : x ∈ s.insert t ↔ x = t ∨ x ∈ s :=
  mem_insertId

@[simp] theorem mem_union {x : Nat} {s t : TokenSet} : x ∈ s ∪ t ↔ x ∈ s ∨ x ∈ t := by
  have aux : ∀ l : List Nat, x ∈ l.foldr insert t ↔ x ∈ l ∨ x ∈ t := by
    intro l
    induction l with
    | nil => simp
    | cons a rest ih => simp only [List.foldr_cons, mem_insert, ih, List.mem_cons, or_assoc]
  exact aux s.ids

@[simp] theorem mem_inter {x : Nat} {s t : TokenSet} : x ∈ s ∩ t ↔ x ∈ s ∧ x ∈ t := by
  have h : x ∈ s ∩ t ↔ x ∈ s.ids.filter fun y => decide (y ∈ t) := Iff.rfl
  rw [h, List.mem_filter]
  simp only [decide_eq_true_eq]
  exact Iff.rfl

end TokenSet
end Descent
