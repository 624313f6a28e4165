import Mathlib.Tactic

/-!
# Tables of names and numbers

A table is read in both directions: `List.lookup` finds the number of a name, `nameOf` the
first name of a number.  That a long list is without repetitions is checked in one pass,
with a bit for each number seen (`nodup_of_distinct`).
-/

namespace Seccompy.Lib

/-! ## Distinct numbers -/

/-- No number of the list has its bit in the mask, or occurs twice. -/
def distinctFrom (seen : Nat) : List Nat → Bool
  | [] => true
  | n :: ns => !seen.testBit n && distinctFrom (seen ||| 1 <<< n) ns

theorem distinctFrom_spec {seen : Nat} {ns : List Nat} (distinct : distinctFrom seen ns = true) :
    ns.Nodup ∧ ∀ n ∈ ns, seen.testBit n = false := by
  induction ns generalizing seen with
  | nil => simp
  | cons n ns ih =>
    rw [distinctFrom, Bool.and_eq_true, Bool.not_eq_true'] at distinct
    obtain ⟨nodup, unseen⟩ := ih distinct.2
    have later : ∀ m ∈ ns, seen.testBit m = false ∧ m ≠ n := by
      intro m mem
      have clear := unseen m mem
      rw [Nat.testBit_or, Bool.or_eq_false_iff] at clear
      refine ⟨clear.1, ?_⟩
      rintro rfl
      simp at clear
    rw [List.nodup_cons, List.forall_mem_cons]
    exact ⟨⟨fun mem => (later n mem).2 rfl, nodup⟩, distinct.1, fun m mem => (later m mem).1⟩

theorem nodup_of_distinct {α : Type*} {l : List α} (code : α → Nat)
    (distinct : distinctFrom 0 (l.map code) = true) : l.Nodup :=
  List.Nodup.of_map code (distinctFrom_spec distinct).1

/-! ## Both directions -/

variable {κ ν : Type*} {table : List (κ × ν)} {k k' : κ} {v : ν}

/-- Two names are the same if their numbers are, where the numbers are distinct. -/
theorem eq_of_numbers (distinct : (table.map Prod.snd).Nodup) (mem : (k, v) ∈ table)
    (mem' : (k', v) ∈ table) : k = k' :=
  congrArg Prod.fst (List.inj_on_of_nodup_map distinct mem mem' rfl)

theorem lookup_of_mem [DecidableEq κ] (distinct : (table.map Prod.fst).Nodup) (mem : (k, v) ∈ table) :
    table.lookup k = some v := by
  obtain ⟨before, behind, rfl⟩ := List.append_of_mem mem
  refine List.lookup_eq_some_iff.mpr ⟨before, behind, rfl, ?_⟩
  intro e earlier
  rw [List.map_append, List.nodup_append] at distinct
  have apart := distinct.2.2 e.1 (List.mem_map_of_mem earlier) k (by simp)
  simpa using apart.symm

section NameOf

variable [DecidableEq ν]

/-- The first name with the number. -/
def nameOf (table : List (κ × ν)) (v : ν) : Option κ := (table.find? (·.2 = v)).map Prod.fst

theorem mem_of_nameOf (found : nameOf table v = some k) : (k, v) ∈ table := by
  obtain ⟨e, first, rfl⟩ := Option.map_eq_some_iff.mp found
  have same : e.2 = v := by simpa using List.find?_some first
  rw [← same]
  exact List.mem_of_find?_eq_some first

theorem exists_nameOf (mem : (k, v) ∈ table) : ∃ first, nameOf table v = some first := by
  have present : (table.find? (·.2 = v)).isSome := List.find?_isSome.mpr ⟨(k, v), mem, by simp⟩
  obtain ⟨e, found⟩ := Option.isSome_iff_exists.mp present
  exact ⟨e.1, Option.map_eq_some_iff.mpr ⟨e, found, rfl⟩⟩

end NameOf

end Seccompy.Lib
