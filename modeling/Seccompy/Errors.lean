import Seccompy.Lib.Dict

/-!
# Exceptions and container access

The Python exceptions the library raises or lets through, with the texts it gives
them, and the two container reads that raise on their own: `xs[i]` on a list and
`d[k]` on a dict.
-/

namespace Seccompy

open Lib

/-- What an object does where an integer is expected; an exception is given by the name of
its class. -/
structure PyObject where
  /-- `0 < code <= 255`. -/
  within : Except String Bool
  /-- `operator.index(code)`. -/
  index : Except String Int
  deriving DecidableEq, Repr

/-- The `errno` attribute of an `OSError`, which is whatever object it was built with. -/
inductive ErrnoAttr
  | none
  | int (n : Int)
  | other (object : PyObject)
  deriving DecidableEq, Repr

/-- `seccompError` and `unsupportedError` carry the kernel's errno; the text beside
it is `os.strerror`'s.  `unsupported` is an `UnsupportedError` built from a text
alone.  `other` stands for any exception class not named here. -/
inductive PyExc
  | valueError (msg : String)
  | typeError (msg : String)
  | runtimeError (msg : String)
  | keyError
  | indexError
  | structError
  | osError (errno : ErrnoAttr)
  | seccompError (errno : Int)
  | unsupportedError (errno : Int)
  | unsupported (msg : String)
  | keyboardInterrupt
  | other (name : String)
  deriving DecidableEq, Repr

/-! ## Sequencing fallible steps -/

section Sequencing

variable {ε α β : Type}

@[simp] theorem ok_bind (a : α) (f : α → Except ε β) : (Except.ok a >>= f) = f a := rfl

@[simp] theorem error_bind (e : ε) (f : α → Except ε β) :
    (Except.error e >>= f) = .error e := rfl

@[simp] theorem pure_eq_ok (a : α) : (pure a : Except ε α) = .ok a := rfl

@[simp] theorem throw_eq_error (e : ε) : (throw e : Except ε α) = .error e := rfl

theorem bind_eq_ok {x : Except ε α} {f : α → Except ε β} {b : β} :
    (x >>= f) = .ok b ↔ ∃ a, x = .ok a ∧ f a = .ok b := by
  cases x <;> simp

theorem bind_eq_error {x : Except ε α} {f : α → Except ε β} {e : ε} :
    (x >>= f) = .error e ↔ x = .error e ∨ ∃ a, x = .ok a ∧ f a = .error e := by
  cases x <;> simp

theorem forM_eq_ok {xs : List α} {f : α → Except ε Unit} :
    xs.forM f = .ok () ↔ ∀ x ∈ xs, f x = .ok () := by
  induction xs with
  | nil => simp [List.forM]
  | cons x xs ih =>
    rw [List.forM, bind_eq_ok, List.forall_mem_cons, ih]
    exact ⟨fun ⟨_, head, tail⟩ => ⟨head, tail⟩, fun ⟨head, tail⟩ => ⟨(), head, tail⟩⟩

theorem forM_eq_error {xs : List α} {f : α → Except ε Unit} {e : ε}
    (failed : xs.forM f = .error e) : ∃ x ∈ xs, f x = .error e := by
  induction xs with
  | nil => cases failed
  | cons x xs ih =>
    rw [List.forM, bind_eq_error] at failed
    rcases failed with head | ⟨-, -, tail⟩
    · exact ⟨x, List.mem_cons_self, head⟩
    · obtain ⟨y, mem, failed⟩ := ih tail
      exact ⟨y, List.mem_cons_of_mem _ mem, failed⟩

theorem mapM_ok_map {γ : Type} {xs : List α} {ys : List β} {f : α → Except ε β} {g : α → γ}
    {h : β → γ} (each : ∀ x y, f x = .ok y → h y = g x) (ok : xs.mapM f = .ok ys) :
    ys.map h = xs.map g := by
  induction xs generalizing ys with
  | nil =>
    cases ok
    rfl
  | cons x xs ih =>
    rw [List.mapM_cons] at ok
    obtain ⟨y, head, ok⟩ := bind_eq_ok.mp ok
    obtain ⟨rest, tail, ok⟩ := bind_eq_ok.mp ok
    cases ok
    rw [List.map_cons, List.map_cons, each x y head, ih tail]

theorem exists_mapM_ok {xs : List α} {f : α → Except ε β} (each : ∀ x ∈ xs, ∃ y, f x = .ok y) :
    ∃ ys, xs.mapM f = .ok ys := by
  induction xs with
  | nil => exact ⟨[], rfl⟩
  | cons x xs ih =>
    obtain ⟨y, head⟩ := each x List.mem_cons_self
    obtain ⟨ys, tail⟩ := ih fun x mem => each x (List.mem_cons_of_mem _ mem)
    exact ⟨y :: ys, by rw [List.mapM_cons, head, ok_bind, tail]; rfl⟩

end Sequencing

/-! ## Container reads -/

/-- `xs[i]`; a negative index counts from the end. -/
def pyGet {α : Type} (xs : List α) (i : Int) : Except PyExc α :=
  let j := if i < 0 then i + xs.length else i
  if 0 ≤ j then
    match xs[j.toNat]? with
    | some x => .ok x
    | none => .error .indexError
  else .error .indexError

/-- `d[k]`. -/
def dictGet {κ α : Type} [DecidableEq κ] (d : Dict κ α) (k : κ) : Except PyExc α :=
  match d.get? k with
  | some v => .ok v
  | none => .error .keyError

theorem pyGet_natCast_iff {α : Type} {xs : List α} {i : Nat} {x : α} :
    pyGet xs (i : Int) = .ok x ↔ xs[i]? = some x := by
  have nonneg : ¬ (i : Int) < 0 := by omega
  simp only [pyGet, if_neg nonneg]
  rw [if_pos (by omega), Int.toNat_natCast]
  cases xs[i]? <;> simp

theorem pyGet_natCast {α : Type} {xs : List α} {i : Nat} {x : α} (at_i : xs[i]? = some x) :
    pyGet xs (i : Int) = .ok x :=
  pyGet_natCast_iff.mpr at_i

theorem dictGet_of_get? {κ α : Type} [DecidableEq κ] {d : Dict κ α} {k : κ} {v : α}
    (found : d.get? k = some v) : dictGet d k = .ok v := by
  simp only [dictGet, found]

end Seccompy
