import Mathlib.Tactic

/-!
# Block layout

Blocks of given sizes laid end to end: block `i` starts at `offsetOf sizes i`.
The facts here are the ones an assembler needs of its addresses: they are the
prefix sums, they grow with the index and with the sizes, and the `j`-th item of
block `i` sits at `offsetOf sizes i + j` of the concatenation.
-/

namespace Seccompy.Lib

/-- Start of block `i`, the sum of the sizes before it. -/
def offsetOf (sizes : List Nat) (i : Nat) : Nat := (sizes.take i).sum

@[simp] theorem offsetOf_zero (sizes : List Nat) : offsetOf sizes 0 = 0 := by
  simp [offsetOf]

@[simp] theorem offsetOf_length (sizes : List Nat) : offsetOf sizes sizes.length = sizes.sum := by
  simp [offsetOf]

@[simp] theorem offsetOf_cons_succ (s : Nat) (sizes : List Nat) (i : Nat) :
    offsetOf (s :: sizes) (i + 1) = s + offsetOf sizes i := by
  simp [offsetOf]

theorem offsetOf_succ {sizes : List Nat} {i s : Nat} (at_i : sizes[i]? = some s) :
    offsetOf sizes (i + 1) = offsetOf sizes i + s := by
  obtain ⟨bound, rfl⟩ := List.getElem?_eq_some_iff.mp at_i
  rw [offsetOf, List.take_succ_eq_append_getElem bound, List.sum_append]
  simp [offsetOf]

theorem offsetOf_mono {sizes : List Nat} {i j : Nat} (le : i ≤ j) :
    offsetOf sizes i ≤ offsetOf sizes j := by
  induction sizes generalizing i j with
  | nil => simp [offsetOf]
  | cons s sizes ih =>
    cases i with
    | zero => simp
    | succ i =>
      cases j with
      | zero => omega
      | succ j =>
        have := ih (i := i) (j := j) (by omega)
        simp only [offsetOf_cons_succ]
        omega

theorem offsetOf_le_sum (sizes : List Nat) (i : Nat) : offsetOf sizes i ≤ sizes.sum := by
  rcases Nat.le_total i sizes.length with le | ge
  · rw [← offsetOf_length]
    exact offsetOf_mono le
  · rw [offsetOf, List.take_of_length_le ge]

/-- A later block starts past the end of an earlier one. -/
theorem offsetOf_add_le {sizes : List Nat} {i j s : Nat} (at_i : sizes[i]? = some s)
    (lt : i < j) : offsetOf sizes i + s ≤ offsetOf sizes j := by
  rw [← offsetOf_succ at_i]
  exact offsetOf_mono lt

/-- Growing the blocks never brings two starts closer together. -/
theorem offsetOf_gap_mono {small large : List Nat}
    (le : List.Forall₂ (· ≤ ·) small large) {i j : Nat} (ij : i ≤ j) :
    offsetOf small j + offsetOf large i ≤ offsetOf large j + offsetOf small i := by
  induction le generalizing i j with
  | nil => simp [offsetOf]
  | @cons s l small large head _ ih =>
    cases j with
    | zero =>
      have : i = 0 := by omega
      subst this
      simp
    | succ j =>
      cases i with
      | zero =>
        have := ih (i := 0) (j := j) (by omega)
        simp only [offsetOf_cons_succ, offsetOf_zero] at this ⊢
        omega
      | succ i =>
        have := ih (i := i) (j := j) (by omega)
        simp only [offsetOf_cons_succ]
        omega

theorem sum_le_of_forall₂ {small large : List Nat} (le : List.Forall₂ (· ≤ ·) small large) :
    small.sum ≤ large.sum := by
  induction le with
  | nil => simp
  | cons head _ ih =>
    simp only [List.sum_cons]
    omega

theorem length_le_sum {sizes : List Nat} (positive : ∀ s ∈ sizes, 1 ≤ s) :
    sizes.length ≤ sizes.sum := by
  induction sizes with
  | nil => simp
  | cons s sizes ih =>
    have head := positive s List.mem_cons_self
    have rest := ih fun t mem => positive t (List.mem_cons_of_mem _ mem)
    simp only [List.length_cons, List.sum_cons]
    omega

theorem sum_le_mul_length {sizes : List Nat} {c : Nat} (bounded : ∀ s ∈ sizes, s ≤ c) :
    sizes.sum ≤ c * sizes.length := by
  induction sizes with
  | nil => simp
  | cons s sizes ih =>
    have head := bounded s List.mem_cons_self
    have rest := ih fun t mem => bounded t (List.mem_cons_of_mem _ mem)
    simp only [List.length_cons, List.sum_cons, Nat.mul_succ]
    omega

/-! ## Blocks in their concatenation -/

variable {α : Type*}

/-- Item `j` of block `i` stands at `offsetOf _ i + j` of the concatenation. -/
theorem getElem?_flatten_offsetOf {blocks : List (List α)} {block : List α} {x : α} {i j : Nat}
    (at_i : blocks[i]? = some block) (at_j : block[j]? = some x) :
    blocks.flatten[offsetOf (blocks.map List.length) i + j]? = some x := by
  induction blocks generalizing i with
  | nil => simp at at_i
  | cons b blocks ih =>
    cases i with
    | zero =>
      obtain rfl : b = block := by simpa using at_i
      obtain ⟨bound, _⟩ := List.getElem?_eq_some_iff.mp at_j
      simp only [List.map_cons, offsetOf_zero, List.flatten_cons, Nat.zero_add]
      rw [List.getElem?_append_left bound]
      exact at_j
    | succ i =>
      simp only [List.getElem?_cons_succ] at at_i
      simp only [List.map_cons, offsetOf_cons_succ, List.flatten_cons, Nat.add_assoc]
      rw [List.getElem?_append_right (by omega), Nat.add_sub_cancel_left]
      exact ih at_i

/-- Conversely every item of the concatenation belongs to a block. -/
theorem exists_block_of_getElem?_flatten {blocks : List (List α)} {x : α} {p : Nat}
    (at_p : blocks.flatten[p]? = some x) :
    ∃ i j block, blocks[i]? = some block ∧ block[j]? = some x ∧
      p = offsetOf (blocks.map List.length) i + j := by
  induction blocks generalizing p with
  | nil => simp at at_p
  | cons b blocks ih =>
    rw [List.flatten_cons] at at_p
    rcases Nat.lt_or_ge p b.length with lt | ge
    · rw [List.getElem?_append_left lt] at at_p
      exact ⟨0, p, b, by simp, at_p, by simp⟩
    · rw [List.getElem?_append_right ge] at at_p
      obtain ⟨i, j, block, at_i, at_j, place⟩ := ih at_p
      refine ⟨i + 1, j, block, by simpa using at_i, at_j, ?_⟩
      simp only [List.map_cons, offsetOf_cons_succ]
      omega

end Seccompy.Lib
