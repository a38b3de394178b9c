import Descent.Languages.Tree
import Mathlib.Algebra.Ring.Nat
import Mathlib.Data.List.Nodup
import Mathlib.Data.List.ProdSigma

/-!
# All trees up to a depth

The trees of less depth are combined to pairs in all ways and put behind the leaves. A
pair has one left and one right part, so none of the trees comes twice, and a tree of any
shape comes as soon as the depth allows its deeper part.
-/

namespace Descent.Languages.Tree

/-- The depth of a tree: none for a leaf, and for a pair one more than that of its deeper part. -/
def depth : Tree → Nat
  | a => 0
  | b => 0
  | pair left right => max left.depth right.depth + 1

/-- The trees that are joined to pairs are all pairs of trees of less depth. -/
theorem enumerate_succ (d : Nat) : enumerate (d + 1) =
    [a, b] ++ (enumerate d ×ˢ enumerate d).map fun p => pair p.1 p.2 := by
  have hpairs : (enumerate d ×ˢ enumerate d).map (fun p => pair p.1 p.2) =
      (enumerate d).flatMap fun left => (enumerate d).map fun right => pair left right := by
    simp [SProd.sprod, List.product, List.map_flatMap, Function.comp_def]
  rw [enumerate, hpairs]

/-- A pair is enumerated exactly if both of its parts are, at one depth less. -/
theorem pair_mem_enumerate_succ {d : Nat} {left right : Tree} :
    pair left right ∈ enumerate (d + 1) ↔ left ∈ enumerate d ∧ right ∈ enumerate d := by
  rw [enumerate_succ, ← List.mem_product]
  simp

/-- The trees up to a depth are those of at most that depth. -/
theorem mem_enumerate {d : Nat} {t : Tree} : t ∈ enumerate d ↔ t.depth ≤ d := by
  induction d generalizing t with
  | zero => cases t <;> simp [enumerate, depth]
  | succ d ih =>
      cases t with
      | a | b => simp [enumerate, depth]
      | pair left right => rw [pair_mem_enumerate_succ, ih, ih, depth]; omega

/-- No tree is listed twice: a pair tells its parts. -/
theorem nodup_enumerate (d : Nat) : (enumerate d).Nodup := by
  induction d with
  | zero => simp [enumerate]
  | succ d ih =>
      have hpair : Function.Injective fun p : Tree × Tree => pair p.1 p.2 := by
        rintro ⟨left, right⟩ ⟨left', right'⟩ h
        obtain ⟨rfl, rfl⟩ := pair.inj h
        rfl
      have hleaves : ∀ t ∈ [a, b], t ∉ (enumerate d ×ˢ enumerate d).map fun p => pair p.1 p.2 := by
        simp
      rw [enumerate_succ]
      exact List.nodup_append'.mpr ⟨by simp, (ih.product ih).map hpair, hleaves⟩

/-- The enumerated trees are the two leaves and the pairs of trees of less depth. -/
theorem length_enumerate_succ (d : Nat) :
    (enumerate (d + 1)).length = 2 + (enumerate d).length ^ 2 := by
  rw [enumerate_succ, List.length_append, List.length_map, List.length_product, sq]
  rfl

/-- Each tree is listed once if its depth allows it, and not at all otherwise. So there are two trees
at depth zero, and at the next depth the two leaves and a pair for any two trees; and the test that each
listed tree is read back from its written form is one of all trees up to that depth. -/
theorem enumerate_exact :
    (∀ d t, (enumerate d).count t = if t.depth ≤ d then 1 else 0) ∧
    (enumerate 0).length = 2 ∧
    (∀ d, (enumerate (d + 1)).length = 2 + (enumerate d).length ^ 2) ∧
    ∀ d, ((enumerate d).all fun t => decide (read t.display = .ok t)) = true ↔
      ∀ t : Tree, t.depth ≤ d → read t.display = .ok t := by
  refine ⟨fun d t => ?_, rfl, length_enumerate_succ, fun d => ?_⟩
  · split
    · next h => exact List.count_eq_one_of_mem (nodup_enumerate d) (mem_enumerate.mpr h)
    · next h => exact List.count_eq_zero_of_not_mem fun hmem => h (mem_enumerate.mp hmem)
  · simp only [List.all_eq_true, decide_eq_true_eq, mem_enumerate]

example : (enumerate 2).length = 38 := by decide

end Descent.Languages.Tree
