import Mathlib.Tactic
import Mathlib.Data.List.Sort

/-!
# Stable sorting by a key

Sorting by a key keeps the order of the elements with one key (`filter_sortOn`).  So two
lists that agree on each key, in order, sort to the same list (`sortOn_eq`), however the
keys are interleaved.
-/

namespace Seccompy.Lib

variable {α κ : Type*} [LinearOrder κ] (key : α → κ)

theorem filter_sortOn (l : List α) (i : κ) :
    (l.insertionSort fun a b => key a ≤ key b).filter (key · = i) = l.filter (key · = i) := by
  have level : (l.filter (key · = i)).Pairwise fun a b => key a ≤ key b := by
    apply List.pairwise_of_forall_mem_list
    intro a memA b memB
    have isA := of_decide_eq_true (List.mem_filter.mp memA).2
    have isB := of_decide_eq_true (List.mem_filter.mp memB).2
    exact (isA.trans isB.symm).le
  have inside := (List.sublist_insertionSort level List.filter_sublist).filter (key · = i)
  rw [List.filter_filter] at inside
  simp only [Bool.and_self] at inside
  have counts := ((List.perm_insertionSort (fun a b => key a ≤ key b) l).filter
    (key · = i)).length_eq
  exact (inside.eq_of_length counts.symm).symm

variable {key} {l l' : List α}

theorem eq_of_filters (sorted : l.Pairwise fun a b => key a ≤ key b)
    (sorted' : l'.Pairwise fun a b => key a ≤ key b)
    (same : ∀ i, l.filter (key · = i) = l'.filter (key · = i)) : l = l' := by
  induction l generalizing l' with
  | nil =>
    cases l' with
    | nil => rfl
    | cons b t' => simpa using same (key b)
  | cons a t ih =>
    cases l' with
    | nil => simpa using same (key a)
    | cons b t' =>
      rw [List.pairwise_cons] at sorted sorted'
      -- each head occurs in the other list, so the keys bound each other
      have memA : a ∈ b :: t' := by
        have mem : a ∈ (a :: t).filter (key · = key a) := by simp
        rw [same] at mem
        exact List.mem_of_mem_filter mem
      have memB : b ∈ a :: t := by
        have mem : b ∈ (b :: t').filter (key · = key b) := by simp
        rw [← same] at mem
        exact List.mem_of_mem_filter mem
      have above : key b ≤ key a := by
        rcases List.mem_cons.mp memA with is | mem
        · rw [is]
        · exact sorted'.1 a mem
      have below : key a ≤ key b := by
        rcases List.mem_cons.mp memB with is | mem
        · rw [is]
        · exact sorted.1 b mem
      have keys : key a = key b := le_antisymm below above
      have heads := same (key a)
      rw [List.filter_cons_of_pos (by simp), List.filter_cons_of_pos (by simp [keys])] at heads
      obtain ⟨rfl, -⟩ := List.cons.inj heads
      rw [ih sorted.2 sorted'.2]
      intro i
      have tails := same i
      by_cases is : key a = i
      · rw [List.filter_cons_of_pos (by simp [is]), List.filter_cons_of_pos (by simp [is])] at tails
        exact (List.cons.inj tails).2
      · rw [List.filter_cons_of_neg (by simp [is]), List.filter_cons_of_neg (by simp [is])] at tails
        exact tails

theorem sortOn_eq (same : ∀ i, l.filter (key · = i) = l'.filter (key · = i)) :
    (l.insertionSort fun a b => key a ≤ key b) = l'.insertionSort fun a b => key a ≤ key b := by
  have total : Std.Total fun a b : α => key a ≤ key b := ⟨fun a b => le_total (key a) (key b)⟩
  have trans : IsTrans α fun a b => key a ≤ key b := ⟨fun _ _ _ => le_trans⟩
  apply eq_of_filters (List.pairwise_insertionSort _ l) (List.pairwise_insertionSort _ l')
  intro i
  rw [filter_sortOn, filter_sortOn]
  exact same i

end Seccompy.Lib
