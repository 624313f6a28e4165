import Mathlib.Tactic

/-!
# Insertion-ordered dictionaries

`Dict κ α` is a list of entries with distinct keys, in the order in which the
keys were first inserted.  `set` replaces the value of a present key in place and
appends an absent key at the end; `appendTo` is the bucket update
`d.setdefault(k, []).append(x)`.
-/

namespace Seccompy.Lib

/-- A dictionary in insertion order; keys are distinct by construction. -/
structure Dict (κ α : Type*) where
  entries : List (κ × α)
  nodup : (entries.map Prod.fst).Nodup

namespace Dict

variable {κ α : Type*}

def empty : Dict κ α := ⟨[], List.nodup_nil⟩

def keys (d : Dict κ α) : List κ := d.entries.map Prod.fst

variable [DecidableEq κ]

def get? (d : Dict κ α) (k : κ) : Option α :=
  (d.entries.find? fun e => e.1 = k).map Prod.snd

/-- Entries after `d[k] = v`. -/
def setEntries (k : κ) (v : α) (entries : List (κ × α)) : List (κ × α) :=
  if k ∈ entries.map Prod.fst then
    entries.map fun e => if e.1 = k then (k, v) else e
  else entries ++ [(k, v)]

theorem map_fst_replace (k : κ) (v : α) (entries : List (κ × α)) :
    (entries.map fun e => if e.1 = k then (k, v) else e).map Prod.fst =
      entries.map Prod.fst := by
  rw [List.map_map]
  apply List.map_congr_left
  intro e _
  by_cases same : e.1 = k
  · simp [same]
  · simp [same]

theorem nodup_setEntries (k : κ) (v : α) {entries : List (κ × α)}
    (nodup : (entries.map Prod.fst).Nodup) :
    ((setEntries k v entries).map Prod.fst).Nodup := by
  unfold setEntries
  split
  · rw [map_fst_replace]
    exact nodup
  · next absent =>
    rw [List.map_append, List.nodup_append]
    refine ⟨nodup, List.nodup_singleton _, fun a mem b single => ?_⟩
    rw [List.mem_singleton.mp single]
    rintro rfl
    exact absent mem

/-- `d[k] = v`. -/
def set (d : Dict κ α) (k : κ) (v : α) : Dict κ α :=
  ⟨setEntries k v d.entries, nodup_setEntries k v d.nodup⟩

theorem get?_eq_none_iff {d : Dict κ α} {k : κ} : d.get? k = none ↔ k ∉ d.keys := by
  simp only [get?, keys, Option.map_eq_none_iff, List.find?_eq_none, decide_eq_true_eq,
    List.mem_map, not_exists, not_and]

theorem get?_eq_some_iff {d : Dict κ α} {k : κ} {v : α} :
    d.get? k = some v ↔ (k, v) ∈ d.entries := by
  obtain ⟨entries, nodup⟩ := d
  induction entries with
  | nil => simp [get?]
  | cons e entries ih =>
    obtain ⟨k', v'⟩ := e
    simp only [List.map_cons, List.nodup_cons] at nodup
    have rest := ih nodup.2
    simp only [get?] at rest ⊢
    by_cases same : k' = k
    · subst same
      have absent : ∀ w, (k', w) ∉ entries := fun w mem =>
        nodup.1 (List.mem_map.mpr ⟨(k', w), mem, rfl⟩)
      simp [absent, eq_comm]
    · have other : ¬ k = k' := fun h => same h.symm
      simp [same, other, rest]

theorem mem_keys_iff {d : Dict κ α} {k : κ} : k ∈ d.keys ↔ ∃ v, d.get? k = some v := by
  have missing := get?_eq_none_iff (d := d) (k := k)
  cases found : d.get? k with
  | none => simp [missing.mp found]
  | some v =>
    refine ⟨fun _ => ⟨v, rfl⟩, fun _ => ?_⟩
    by_contra absent
    rw [missing.mpr absent] at found
    cases found

theorem get?_set_self (d : Dict κ α) (k : κ) (v : α) : (d.set k v).get? k = some v := by
  rw [get?_eq_some_iff]
  simp only [set, setEntries]
  split
  · next mem =>
    obtain ⟨e, member, rfl⟩ := List.mem_map.mp mem
    exact List.mem_map.mpr ⟨e, member, by simp⟩
  · simp

theorem get?_set_ne (d : Dict κ α) {k l : κ} (v : α) (ne : l ≠ k) :
    (d.set k v).get? l = d.get? l := by
  apply Option.ext
  intro w
  rw [get?_eq_some_iff, get?_eq_some_iff]
  simp only [set, setEntries]
  split
  · rw [List.mem_map]
    constructor
    · intro given
      rcases given with ⟨e, member, eq⟩
      split at eq
      · cases eq
        exact absurd rfl ne
      · exact eq ▸ member
    · exact fun member => ⟨(l, w), member, by simp [ne]⟩
  · simp [ne]

theorem get?_set (d : Dict κ α) (k l : κ) (v : α) :
    (d.set k v).get? l = if l = k then some v else d.get? l := by
  by_cases same : l = k
  · rw [if_pos same, same, get?_set_self]
  · rw [if_neg same, get?_set_ne d v same]

theorem keys_set_of_mem {d : Dict κ α} {k : κ} (v : α) (present : k ∈ d.keys) :
    (d.set k v).keys = d.keys := by
  have mem : k ∈ d.entries.map Prod.fst := present
  simp only [keys, set, setEntries, if_pos mem, map_fst_replace]

theorem keys_set_of_not_mem {d : Dict κ α} {k : κ} (v : α) (absent : k ∉ d.keys) :
    (d.set k v).keys = d.keys ++ [k] := by
  have missing : k ∉ d.entries.map Prod.fst := absent
  simp only [keys, set, setEntries, if_neg missing, List.map_append, List.map_cons,
    List.map_nil]

/-! ## Buckets -/

/-- The list stored under `k`, empty when the key is absent. -/
def bucket (d : Dict κ (List α)) (k : κ) : List α := (d.get? k).getD []

/-- `d.setdefault(k, []).append(x)`. -/
def appendTo (d : Dict κ (List α)) (k : κ) (x : α) : Dict κ (List α) :=
  d.set k (d.bucket k ++ [x])

theorem bucket_appendTo (d : Dict κ (List α)) (k l : κ) (x : α) :
    (d.appendTo k x).bucket l = if l = k then d.bucket k ++ [x] else d.bucket l := by
  unfold bucket appendTo
  rw [get?_set]
  split <;> rfl

theorem bucket_eq_of_mem {d : Dict κ (List α)} {k : κ} {xs : List α}
    (mem : (k, xs) ∈ d.entries) : d.bucket k = xs := by
  rw [bucket, get?_eq_some_iff.mpr mem, Option.getD_some]

end Dict

end Seccompy.Lib
