import Mathlib.Tactic

/-!
# Sequences of operations

A system takes operations one at a time; each returns a result and leaves a new
state, also when the result is a failure.  `after` is the state a sequence leaves,
and `after_keeps` the invariant rule.
-/

namespace Seccompy.Lib

variable {ω σ ρ : Type*} {step : ω → σ → ρ × σ}

/-- The state after a sequence of operations. -/
def after (step : ω → σ → ρ × σ) (ops : List ω) (s : σ) : σ :=
  ops.foldl (fun s op => (step op s).2) s

theorem after_append (ops more : List ω) (s : σ) :
    after step (ops ++ more) s = after step more (after step ops s) := by
  unfold after
  rw [List.foldl_append]

/-- Every operation of the sequence meets `P` in the state it starts from. -/
def Throughout (step : ω → σ → ρ × σ) (P : σ → ω → Prop) (ops : List ω) (s : σ) : Prop :=
  ∀ before op behind, ops = before ++ op :: behind → P (after step before s) op

variable {P : σ → ω → Prop} {ops : List ω} {op : ω} {s : σ}

theorem Throughout.of_mem {Q : ω → Prop} (each : ∀ op ∈ ops, Q op) :
    Throughout step (fun _ => Q) ops s := by
  intro before op behind split
  apply each
  rw [split]
  exact List.mem_append_right _ List.mem_cons_self

theorem Throughout.mono {Q : σ → ω → Prop} (weaker : ∀ s op, P s op → Q s op)
    (each : Throughout step P ops s) : Throughout step Q ops s :=
  fun before op behind split => weaker _ op (each before op behind split)

theorem Throughout.tail (each : Throughout step P (op :: ops) s) :
    Throughout step P ops (step op s).2 := by
  intro before op' behind split
  apply each (op :: before) op' behind
  rw [split, List.cons_append]

/-- What every operation keeps that meets `P`, a sequence keeps that meets it throughout. -/
theorem after_keeps {I : σ → Prop} (keeps : ∀ op s, P s op → I s → I (step op s).2)
    (each : Throughout step P ops s) (start : I s) : I (after step ops s) := by
  induction ops generalizing s with
  | nil => exact start
  | cons op ops ih =>
    exact ih each.tail (keeps op s (each [] op ops rfl) start)

end Seccompy.Lib
