import Seccompy.Lib.Settle
import Seccompy.Lib.Dict

/-!
# Computations and dictionaries that correspond

`Alike x y` says that two fallible computations fail together and return the same; it
passes through binds, loops and `settle`, whatever the errors are.  `Dict.Matched R` says
that two dictionaries have corresponding keys, in order, and the same values; where the
correspondence is one to one, look-ups and updates under corresponding keys keep it.
-/

namespace Seccompy.Lib

/-! ## Computations -/

section Alike

variable {ε α β γ : Type*}

/-- Both fail, or both return the same. -/
def Alike (x y : Except ε α) : Prop := x.toOption = y.toOption

theorem Alike.refl (x : Except ε α) : Alike x x := Eq.refl x.toOption

theorem Alike.error (e e' : ε) : Alike (.error e : Except ε α) (.error e') := rfl

theorem Alike.ok_iff {x y : Except ε α} (alike : Alike x y) {a : α} : x = .ok a ↔ y = .ok a := by
  unfold Alike at alike
  cases x with
  | error e =>
    cases y with
    | error e' => simp
    | ok b => cases alike
  | ok b =>
    cases y with
    | error e' => cases alike
    | ok b' =>
      cases alike
      exact Iff.rfl

theorem Alike.bind {α β ε : Type _} {x y : Except ε α} {f g : α → Except ε β} (alike : Alike x y)
    (rest : ∀ a, Alike (f a) (g a)) : Alike (x >>= f) (y >>= g) := by
  unfold Alike at alike
  cases x with
  | error e =>
    cases y with
    | error e' => rfl
    | ok b => cases alike
  | ok b =>
    cases y with
    | error e' => cases alike
    | ok b' =>
      cases alike
      exact rest b

theorem Alike.ite {c : Prop} [Decidable c] {x y x' y' : Except ε α} (yes : Alike x x')
    (no : Alike y y') : Alike (if c then x else y) (if c then x' else y') := by
  by_cases holds : c
  · rw [if_pos holds, if_pos holds]
    exact yes
  · rw [if_neg holds, if_neg holds]
    exact no

theorem Alike.forM {R : β → γ → Prop} {xs : List β} {ys : List γ} {f : β → Except ε PUnit}
    {g : γ → Except ε PUnit} (each : List.Forall₂ R xs ys)
    (step : ∀ {x y}, R x y → Alike (f x) (g y)) : Alike (xs.forM f) (ys.forM g) := by
  induction each with
  | nil => exact .refl _
  | cons related _ ih => exact (step related).bind fun _ => ih

theorem Alike.settle {pass pass' : α → Except ε (α × Bool)} {exhausted exhausted' : ε}
    (step : ∀ x, Alike (pass x) (pass' x)) (fuel : Nat) (x : α) :
    Alike (settle pass exhausted fuel x) (settle pass' exhausted' fuel x) := by
  induction fuel generalizing x with
  | zero => exact .error _ _
  | succ fuel ih =>
    refine (step x).bind fun y => ?_
    exact .ite (ih y.1) (.refl _)

end Alike

/-! ## Dictionaries -/

namespace Dict

variable {κ κ' α : Type*} {R : κ → κ' → Prop}

/-- One to one in both directions. -/
structure BiUnique (R : κ → κ' → Prop) : Prop where
  right : ∀ {k l l'}, R k l → R k l' → l = l'
  left : ∀ {k k' l}, R k l → R k' l → k = k'

/-- Corresponding keys with the same values, in the same order. -/
def Matched (R : κ → κ' → Prop) (d : Dict κ α) (d' : Dict κ' α) : Prop :=
  List.Forall₂ (fun e e' => R e.1 e'.1 ∧ e.2 = e'.2) d.entries d'.entries

theorem Matched.empty : Matched R (empty : Dict κ α) (empty : Dict κ' α) := .nil

theorem Matched.keys {d : Dict κ α} {d' : Dict κ' α} (matched : Matched R d d') :
    List.Forall₂ R d.keys d'.keys := by
  unfold Dict.keys
  rw [List.forall₂_map_left_iff, List.forall₂_map_right_iff]
  exact matched.imp fun _ _ both => both.1

variable [DecidableEq κ] [DecidableEq κ']

theorem Matched.get? {d : Dict κ α} {d' : Dict κ' α} (matched : Matched R d d')
    (unique : BiUnique R) {k : κ} {k' : κ'} (related : R k k') : d.get? k = d'.get? k' := by
  obtain ⟨entries, nodup⟩ := d
  obtain ⟨entries', nodup'⟩ := d'
  have each : List.Forall₂ (fun e e' => R e.1 e'.1 ∧ e.2 = e'.2) entries entries' := matched
  show (entries.find? _).map _ = (entries'.find? _).map _
  clear matched nodup nodup'
  induction each with
  | nil => rfl
  | @cons e e' _ _ both _ ih =>
    have same : e.1 = k ↔ e'.1 = k' := by
      constructor
      · rintro rfl
        exact unique.right both.1 related
      · rintro rfl
        exact unique.left both.1 related
    by_cases here : e.1 = k
    · simp [here, same.mp here, both.2]
    · have there : e'.1 ≠ k' := fun eq => here (same.mpr eq)
      rw [List.find?_cons_of_neg (by simpa using here), List.find?_cons_of_neg (by simpa using there)]
      exact ih

theorem Matched.set {d : Dict κ α} {d' : Dict κ' α} (matched : Matched R d d')
    (unique : BiUnique R) {k : κ} {k' : κ'} (related : R k k') (v : α) :
    Matched R (d.set k v) (d'.set k' v) := by
  have present : k ∈ d.keys ↔ k' ∈ d'.keys := by
    rw [mem_keys_iff, mem_keys_iff, matched.get? unique related]
  show List.Forall₂ _ (setEntries k v d.entries) (setEntries k' v d'.entries)
  unfold setEntries
  by_cases here : k ∈ d.keys
  · have there : k' ∈ d'.entries.map Prod.fst := present.mp here
    rw [if_pos (show k ∈ d.entries.map Prod.fst from here), if_pos there,
      List.forall₂_map_left_iff, List.forall₂_map_right_iff]
    refine matched.imp fun e e' both => ?_
    by_cases same : e.1 = k
    · have same' : e'.1 = k' := unique.right both.1 (same ▸ related)
      rw [if_pos same, if_pos same']
      exact ⟨related, rfl⟩
    · have other : e'.1 ≠ k' := fun eq => same (unique.left both.1 (eq ▸ related))
      rw [if_neg same, if_neg other]
      exact both
  · have there : k' ∉ d'.entries.map Prod.fst := fun mem => here (present.mpr mem)
    rw [if_neg (show k ∉ d.entries.map Prod.fst from here), if_neg there]
    exact List.rel_append matched (.cons ⟨related, rfl⟩ .nil)

theorem Matched.appendTo {d : Dict κ (List α)} {d' : Dict κ' (List α)} (matched : Matched R d d')
    (unique : BiUnique R) {k : κ} {k' : κ'} (related : R k k') (x : α) :
    Matched R (d.appendTo k x) (d'.appendTo k' x) := by
  unfold Dict.appendTo Dict.bucket
  rw [matched.get? unique related]
  exact matched.set unique related _

end Dict

end Seccompy.Lib
