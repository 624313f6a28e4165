import Mathlib.Tactic

/-!
# Deterministic machines

A machine maps a state to its successor or to a final outcome.  `runFuel` runs
it for a bounded number of steps and can be evaluated; `Reaches` and `Halts` are
the unbounded forms.  The rules below are the ones used to compare two machines:
`Halts.det` (one outcome), `exists_halts_of_measure` (termination), and
`Halts.simulate` (a forward simulation carries the outcome over).
-/

namespace Seccompy.Lib

/-- A deterministic machine over states `σ` with outcomes `ρ`. -/
def Machine (σ ρ : Type*) : Type _ := σ → σ ⊕ ρ

namespace Machine

variable {σ τ ρ ρ' : Type*}

/-- Run for at most `fuel` steps; `none` when the machine has not halted by then. -/
def runFuel (m : Machine σ ρ) : Nat → σ → Option ρ
  | 0, _ => none
  | fuel + 1, s =>
    match m s with
    | .inl t => runFuel m fuel t
    | .inr o => some o

/-- Zero or more steps. -/
def Reaches (m : Machine σ ρ) : σ → σ → Prop :=
  Relation.ReflTransGen fun s t => m s = .inl t

/-- Zero or more steps, each taken from a state of `P`. -/
def ReachesIn (m : Machine σ ρ) (P : σ → Prop) : σ → σ → Prop :=
  Relation.ReflTransGen fun s t => P s ∧ m s = .inl t

/-- The machine terminates from `s` with outcome `o`. -/
def Halts (m : Machine σ ρ) (s : σ) (o : ρ) : Prop :=
  ∃ fuel, m.runFuel fuel s = some o

variable {m : Machine σ ρ} {n : Machine τ ρ'}

theorem Reaches.refl (s : σ) : m.Reaches s s :=
  Relation.ReflTransGen.refl

theorem Reaches.of_step {s t : σ} (step : m s = .inl t) : m.Reaches s t :=
  Relation.ReflTransGen.single step

theorem Reaches.head {s t u : σ} (step : m s = .inl t) (rest : m.Reaches t u) :
    m.Reaches s u :=
  Relation.ReflTransGen.head step rest

theorem Reaches.trans {s t u : σ} (left : m.Reaches s t) (right : m.Reaches t u) :
    m.Reaches s u :=
  Relation.ReflTransGen.trans left right

theorem ReachesIn.head {P : σ → Prop} {s t u : σ} (inside : P s) (step : m s = .inl t)
    (rest : m.ReachesIn P t u) : m.ReachesIn P s u :=
  Relation.ReflTransGen.head ⟨inside, step⟩ rest

/-- Forget where the run stayed. -/
theorem ReachesIn.reaches {P : σ → Prop} {s t : σ} (run : m.ReachesIn P s t) : m.Reaches s t := by
  refine Relation.ReflTransGen.mono ?_ s t run
  intro s t taken
  exact taken.2

theorem Halts.of_final {s : σ} {o : ρ} (final : m s = .inr o) : m.Halts s o :=
  ⟨1, by simp only [runFuel, final]⟩

theorem Halts.of_step {s t : σ} {o : ρ} (step : m s = .inl t) (rest : m.Halts t o) :
    m.Halts s o := by
  obtain ⟨fuel, run⟩ := rest
  exact ⟨fuel + 1, by simp only [runFuel, step, run]⟩

/-- What a later state halts with, an earlier one halts with. -/
theorem Reaches.halts {s t : σ} {o : ρ} (reach : m.Reaches s t) (rest : m.Halts t o) :
    m.Halts s o := by
  induction reach using Relation.ReflTransGen.head_induction_on with
  | refl => exact rest
  | head step _ ih => exact Halts.of_step step ih

/-- A halting run either stops at once or halts from its successor. -/
theorem Halts.inv {s : σ} {o : ρ} (run : m.Halts s o) :
    m s = .inr o ∨ ∃ t, m s = .inl t ∧ m.Halts t o := by
  obtain ⟨fuel, run⟩ := run
  cases fuel with
  | zero => cases run
  | succ fuel =>
    simp only [runFuel] at run
    split at run
    · next t step => exact Or.inr ⟨t, step, fuel, run⟩
    · next o' final =>
      cases run
      exact Or.inl final

theorem Halts.induction {P : σ → ρ → Prop}
    (final : ∀ s o, m s = .inr o → P s o)
    (step : ∀ s t o, m s = .inl t → m.Halts t o → P t o → P s o)
    {s : σ} {o : ρ} (run : m.Halts s o) : P s o := by
  obtain ⟨fuel, run⟩ := run
  induction fuel generalizing s with
  | zero => cases run
  | succ fuel ih =>
    simp only [runFuel] at run
    split at run
    · next t stepped => exact step s t o stepped ⟨fuel, run⟩ (ih run)
    · next o' stopped =>
      cases run
      exact final s o stopped

/-- The outcome is a function of the state. -/
theorem Halts.det {s : σ} {o o' : ρ} (left : m.Halts s o) (right : m.Halts s o') : o = o' := by
  refine Halts.induction (P := fun s o => ∀ o', m.Halts s o' → o = o') ?_ ?_ left o' right
  · intro s o final o' other
    rcases other.inv with final' | ⟨t, step, _⟩
    · exact Sum.inr.inj (final.symm.trans final')
    · cases final.symm.trans step
  · intro s t o step _ ih o' other
    rcases other.inv with final | ⟨t', step', rest⟩
    · cases step.symm.trans final
    · cases Sum.inl.inj (step.symm.trans step')
      exact ih o' rest

/-- A machine whose steps keep an invariant and decrease a measure terminates. -/
theorem exists_halts_of_measure {I : σ → Prop} (μ : σ → Nat)
    (decreases : ∀ s t, I s → m s = .inl t → I t ∧ μ t < μ s) {s : σ} (start : I s) :
    ∃ o, m.Halts s o := by
  induction hμ : μ s using Nat.strongRecOn generalizing s with
  | ind k ih =>
    cases stepped : m s with
    | inr o => exact ⟨o, Halts.of_final stepped⟩
    | inl t =>
      obtain ⟨kept, less⟩ := decreases s t start stepped
      obtain ⟨o, rest⟩ := ih (μ t) (hμ ▸ less) kept rfl
      exact ⟨o, Halts.of_step stepped rest⟩

/-- Forward simulation: related states stay related along each step of `m`, and
related outcomes are produced, so a halting run of `m` is matched by one of `n`. -/
theorem Halts.simulate {R : σ → τ → Prop} {Q : ρ → ρ' → Prop}
    (step : ∀ s t s', R s t → m s = .inl s' → ∃ t', n.Reaches t t' ∧ R s' t')
    (final : ∀ s t o, R s t → m s = .inr o → ∃ o', n.Halts t o' ∧ Q o o')
    {s : σ} {t : τ} {o : ρ} (run : m.Halts s o) (related : R s t) :
    ∃ o', n.Halts t o' ∧ Q o o' := by
  refine Halts.induction (P := fun s o => ∀ t, R s t → ∃ o', n.Halts t o' ∧ Q o o')
    ?_ ?_ run t related
  · intro s o stopped t related
    exact final s t o related stopped
  · intro s s' o stepped _ ih t related
    obtain ⟨t', reach, related'⟩ := step s t s' related stepped
    obtain ⟨o', rest, outcome⟩ := ih t' related'
    exact ⟨o', reach.halts rest, outcome⟩

/-- Lockstep: a machine that sees each step of another through `f`, and its outcomes
through `g`, sees its halting runs so. -/
theorem Halts.map {f : σ → τ} {g : ρ → ρ'} (lockstep : ∀ s, n (f s) = (m s).map f g) {s : σ}
    {o : ρ} (run : m.Halts s o) : n.Halts (f s) (g o) := by
  refine Halts.induction (P := fun s o => n.Halts (f s) (g o)) ?_ ?_ run
  · intro s o final
    refine Halts.of_final ?_
    rw [lockstep, final, Sum.map_inr]
  · intro s t o step _ ih
    refine Halts.of_step ?_ ih
    rw [lockstep, step, Sum.map_inl]

end Machine

end Seccompy.Lib
