import Mathlib.Tactic

/-!
# Repeating a fallible pass until nothing changes

`settle pass exhausted fuel x` applies `pass`, which may fail and reports whether
it changed its argument, until a pass changes nothing; `exhausted` is the error
of a loop that used up its `fuel` passes.  What settles is fixed
(`settle_fixed`) and keeps every property that passes keep (`settle_keeps`).  When
each changing pass raises a bounded rank the fuel suffices, so the only errors
left are those of a pass itself (`settle_error`).
-/

namespace Seccompy.Lib

variable {α ε : Type*} {pass : α → Except ε (α × Bool)} {exhausted : ε}

/-- Apply `pass` until it reports no change, at most `fuel` times. -/
def settle (pass : α → Except ε (α × Bool)) (exhausted : ε) : Nat → α → Except ε α
  | 0, _ => .error exhausted
  | fuel + 1, x => do
    let (y, changed) ← pass x
    if changed then settle pass exhausted fuel y else return y

/-- The three ways one round of the loop goes. -/
theorem settle_succ (fuel : Nat) (x : α) :
    settle pass exhausted (fuel + 1) x =
      match pass x with
      | .error e => .error e
      | .ok (y, true) => settle pass exhausted fuel y
      | .ok (y, false) => .ok y := by
  rw [settle]
  rcases pass x with e | ⟨y, changed⟩
  · rfl
  · cases changed <;> rfl

theorem settle_keeps {I : α → Prop} (keeps : ∀ x y c, I x → pass x = .ok (y, c) → I y)
    {fuel : Nat} {x y : α} (start : I x) (settled : settle pass exhausted fuel x = .ok y) :
    I y := by
  induction fuel generalizing x with
  | zero => cases settled
  | succ fuel ih =>
    rw [settle_succ] at settled
    split at settled
    · cases settled
    · next z stepped => exact ih (keeps x z true start stepped) settled
    · next z stepped =>
      cases settled
      exact keeps x y false start stepped

/-- The settled value is a fixed point, given that a quiet pass returns its argument. -/
theorem settle_fixed {I : α → Prop} (keeps : ∀ x y c, I x → pass x = .ok (y, c) → I y)
    (quiet : ∀ x y, I x → pass x = .ok (y, false) → y = x) {fuel : Nat} {x y : α} (start : I x)
    (settled : settle pass exhausted fuel x = .ok y) : pass y = .ok (y, false) := by
  induction fuel generalizing x with
  | zero => cases settled
  | succ fuel ih =>
    rw [settle_succ] at settled
    split at settled
    · cases settled
    · next z stepped => exact ih (keeps x z true start stepped) settled
    · next z stepped =>
      cases settled
      have same := quiet x y start stepped
      rw [← same] at stepped
      exact stepped

/-- With a rank that each changing pass raises and that never exceeds `bound`, more
than `bound - rank x` rounds of fuel leave only the errors of a pass. -/
theorem settle_error {I : α → Prop} (keeps : ∀ x y c, I x → pass x = .ok (y, c) → I y)
    (rank : α → Nat) (bound : Nat)
    (rises : ∀ x y, I x → pass x = .ok (y, true) → rank x < rank y)
    (bounded : ∀ x, I x → rank x ≤ bound) {fuel : Nat} {x : α} {e : ε} (start : I x)
    (enough : bound < fuel + rank x) (failed : settle pass exhausted fuel x = .error e) :
    ∃ z, I z ∧ pass z = .error e := by
  induction fuel generalizing x with
  | zero =>
    have := bounded x start
    omega
  | succ fuel ih =>
    rw [settle_succ] at failed
    split at failed
    · next e' stepped =>
      cases failed
      exact ⟨x, start, stepped⟩
    · next y stepped =>
      have rise := rises x y start stepped
      exact ih (keeps x y true start stepped) (by omega) failed
    · cases failed

end Seccompy.Lib
