/-!
# Length in bytes

Offsets in a text count the bytes of its UTF-8 encoding. A text is a list of
characters, and its length in bytes is the sum over them, so the lengths of parts
add up.
-/

namespace Descent.Text

/-- The number of bytes that encode a text. -/
def byteLength : List Char → Nat
  | [] => 0
  | c :: cs => c.utf8Size + byteLength cs

@[simp] theorem byteLength_nil : byteLength [] = 0 := rfl

@[simp] theorem byteLength_cons (c : Char) (cs : List Char) :
    byteLength (c :: cs) = c.utf8Size + byteLength cs := rfl

@[simp] theorem byteLength_append (as bs : List Char) :
    byteLength (as ++ bs) = byteLength as + byteLength bs := by
  induction as with
  | nil => simp
  | cons c cs ih => simp [ih, Nat.add_assoc]

/-- Every character takes a byte at least. -/
theorem length_le_byteLength (cs : List Char) : cs.length ≤ byteLength cs := by
  induction cs with
  | nil => exact Nat.le_refl 0
  | cons c cs ih =>
    have hc := c.utf8Size_pos
    rw [List.length_cons, byteLength_cons]
    omega

/-- A text without bytes is empty. -/
theorem eq_nil_of_byteLength {text : List Char} (h : byteLength text = 0) : text = [] :=
  List.length_eq_zero_iff.mp (Nat.le_zero.mp (h ▸ length_le_byteLength text))

/-- Of two ways to split a text the one that splits it farther behind leaves a text in between. -/
theorem exists_between {front back before after : List Char}
    (h : front ++ back = before ++ after) (hle : byteLength front ≤ byteLength before) :
    ∃ between, before = front ++ between ∧ back = between ++ after := by
  rcases List.append_eq_append_iff.mp h with hbehind | ⟨overlap, rfl, rfl⟩
  · exact hbehind
  · rw [byteLength_append] at hle
    obtain rfl := eq_nil_of_byteLength (show byteLength overlap = 0 by omega)
    exact ⟨[], by simp, rfl⟩

end Descent.Text
