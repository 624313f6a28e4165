import Mathlib.Logic.Basic

/-!
# Programs that make calls

A program is a tree: it is done, it ends by itself, or it makes a call and goes on as the
reply tells it.  Its environment is a relation that says what can become of a call.  Whoever
knows the runs of two programs knows those of one behind the other (`Script.runs_bind`).
-/

namespace Seccompy.Lib

/-- What becomes of a call: it comes back with a reply, or its caller ends. -/
inductive Fate (R E : Type)
  | back (r : R)
  | ends (e : E)
  deriving DecidableEq, Repr

/-- A program with calls `C`, replies `R` and endings `E`. -/
inductive Script (C R E α : Type)
  | done (a : α)
  | ends (e : E)
  | call (c : C) (next : R → Script C R E α)

namespace Script

variable {C R E α β : Type}

def bind (script : Script C R E α) (next : α → Script C R E β) : Script C R E β :=
  match script with
  | .done a => next a
  | .ends e => .ends e
  | .call c go => .call c fun r => (go r).bind next

inductive Runs (env : C → Fate R E → Prop) : Script C R E α → Fate α E → Prop
  | done {a : α} : Runs env (.done a) (.back a)
  | ends {e : E} : Runs env (.ends e) (.ends e)
  | back {c : C} {next : R → Script C R E α} {r : R} {out : Fate α E} (came : env c (.back r))
    (rest : Runs env (next r) out) : Runs env (.call c next) out
  | gone {c : C} {next : R → Script C R E α} {e : E} (went : env c (.ends e)) :
    Runs env (.call c next) (.ends e)

variable {env : C → Fate R E → Prop}

theorem runs_bind (script : Script C R E α) (next : α → Script C R E β) (out : Fate β E) :
    (script.bind next).Runs env out ↔ (∃ e, script.Runs env (.ends e) ∧ out = .ends e) ∨
      ∃ a, script.Runs env (.back a) ∧ (next a).Runs env out := by
  induction script with
  | done a =>
    constructor
    · exact fun runs => .inr ⟨a, .done, runs⟩
    · intro given
      rcases given with ⟨e, runs, -⟩ | ⟨a', runs, rest⟩
      · cases runs
      · cases runs
        exact rest
  | ends e =>
    constructor
    · intro runs
      cases runs
      exact .inl ⟨e, .ends, rfl⟩
    · intro given
      rcases given with ⟨e', runs, rfl⟩ | ⟨a, runs, -⟩
      · cases runs
        exact .ends
      · cases runs
  | call c go ih =>
    constructor
    · intro runs
      cases runs with
      | back came rest =>
        rcases (ih _).mp rest with ⟨e, runs, is⟩ | ⟨a, runs, rest⟩
        · exact .inl ⟨e, .back came runs, is⟩
        · exact .inr ⟨a, .back came runs, rest⟩
      | gone went => exact .inl ⟨_, .gone went, rfl⟩
    · intro given
      rcases given with ⟨e, runs, rfl⟩ | ⟨a, runs, rest⟩
      · cases runs with
        | back came runs => exact .back came ((ih _).mpr (.inl ⟨e, runs, rfl⟩))
        | gone went => exact .gone went
      · cases runs with
        | back came runs => exact .back came ((ih _).mpr (.inr ⟨a, runs, rest⟩))

end Script

end Seccompy.Lib
