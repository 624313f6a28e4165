import Seccompy.Filter.Load

/-!
# Running under a filter in a child

`testing.py`: `probe` loads a filter and calls a function in a forked child, which
reports through its exit status.  The status has 8 bits, so the handler of `OSError`
clamps the errno; the clamp itself runs in the child, outside every handler.  The report
is sound exactly when the clamp can be computed (`probe_sound_iff`).
-/

namespace Seccompy

open Lib Bpf

/-! ## Exit statuses -/

/-- A signal number of Linux. -/
structure Signal where
  number : Nat
  least : 0 < number
  most : number ≤ 64

/-- How a process ends: with the argument of `os._exit`, or by a signal, with or without
a core dump. -/
inductive Ending
  | exited (status : Int)
  | signaled (signal : Signal) (core : Bool)

/-- The status `os.waitpid` returns. -/
def Ending.waitStatus : Ending → Nat
  | .exited status => (status % 256).toNat * 256
  | .signaled signal core => signal.number + if core then 128 else 0

def wtermsig (status : Nat) : Nat := status % 128

/-- `127` in the place of a signal marks a stopped process. -/
def wifsignaled (status : Nat) : Bool := 0 < wtermsig status ∧ wtermsig status < 127

def wexitstatus (status : Nat) : Nat := status / 256 % 256

/-! ## The probe -/

structure ProbeResult where
  ok : Bool
  errno : Nat
  signal : Nat
  deriving DecidableEq, Repr

/-- What the parent makes of a status. -/
def ProbeResult.ofStatus (status : Nat) : ProbeResult :=
  if wifsignaled status then ⟨false, 0, wtermsig status⟩
  else
    let code := wexitstatus status
    if code = 0 then ⟨true, 0, 0⟩ else ⟨false, code, 0⟩

/-- `exc.errno`, for an `OSError`. -/
def PyExc.errno? : PyExc → Option ErrnoAttr
  | .osError errno => some errno
  | .seccompError errno | .unsupportedError errno => some (.int errno)
  | .unsupported _ => some .none
  | _ => none

/-- `0 < code <= 255`. -/
def ErrnoAttr.within : ErrnoAttr → Except PyExc Bool
  | .none => .error (.typeError "'<' not supported between instances of 'int' and 'NoneType'")
  | .int n => .ok (0 < n ∧ n ≤ 255)
  | .other object => object.within.mapError .other

/-- `operator.index(code)`. -/
def ErrnoAttr.index : ErrnoAttr → Except PyExc Int
  | .none => .error (.typeError "'NoneType' object cannot be interpreted as an integer")
  | .int n => .ok n
  | .other object => object.index.mapError .other

/-- `os._exit(code)`, whose argument is a C `int`. -/
def osExit (code : ErrnoAttr) : Except PyExc Ending := do
  let status ← code.index
  if -2 ^ 31 ≤ status ∧ status < 2 ^ 31 then return .exited status
  else throw (.other "OverflowError")

/-- `os._exit(code if 0 < code <= 255 else 255)`. -/
def exitClamped (code : ErrnoAttr) : Except PyExc Ending := do
  osExit (if ← code.within then code else .int 255)

/-- The two `except` clauses of the child.  An exception of their own is not caught. -/
def handleRaised (e : PyExc) : Except PyExc Ending :=
  match e.errno? with
  | some errno => exitClamped (if errno = .none then .int 1 else errno)
  | none => osExit (.int 255)

/-- What a child meets: a signal that kills it, or the kernel's answers to the load and
what the function does after it. -/
inductive ChildRun
  | killed (signal : Signal) (core : Bool)
  | runs (answers : LoadAnswers) (fn : Except PyExc Unit)

/-- `filt.load(); fn()`. -/
def attempt (p : Platform) (answers : LoadAnswers) (fn : Except PyExc Unit) : Py Session Unit := do
  let _ ← Filter.load p answers
  Py.lift fn

/-- The child's part of `probe`; an exception propagates out of it. -/
def ChildRun.ending (p : Platform) (filt : Filter) : ChildRun → Except PyExc Ending
  | .killed signal core => .ok (.signaled signal core)
  | .runs answers fn =>
    match ((attempt p answers fn).call ⟨filt, []⟩).1 with
    | .ok () => osExit (.int 0)
    | .error e => handleRaised e

/-- `probe`, in the parent.  A child that lets an exception propagate goes on with the
caller's code, and ends in its own time. -/
def probe (p : Platform) (filt : Filter) (run : ChildRun) (later : Ending) :
    Except PyExc ProbeResult :=
  if filt.loaded = true then .error (.runtimeError "filter is already loaded")
  else
    let ending := match run.ending p filt with
      | .ok ending => ending
      | .error _ => later
    .ok (ProbeResult.ofStatus ending.waitStatus)

/-! ## What the child does -/

/-- The load and the function both return. -/
def ChildRun.Returned (p : Platform) (filt : Filter) : ChildRun → Prop
  | .killed _ _ => False
  | .runs answers fn =>
    ∃ handed, ((Filter.load p answers).call ⟨filt, []⟩).1 = .ok handed ∧ fn = .ok ()

/-- The load or, after it, the function raises. -/
def ChildRun.Raised (p : Platform) (filt : Filter) (e : PyExc) : ChildRun → Prop
  | .killed _ _ => False
  | .runs answers fn =>
    ((Filter.load p answers).call ⟨filt, []⟩).1 = .error e ∨
      ∃ handed, ((Filter.load p answers).call ⟨filt, []⟩).1 = .ok handed ∧ fn = .error e

section Attempt

variable {p : Platform} {filt : Filter} {answers : LoadAnswers} {fn : Except PyExc Unit}

theorem call_attempt : ((attempt p answers fn).call ⟨filt, []⟩).1 =
    ((Filter.load p answers).call ⟨filt, []⟩).1 >>= fun _ => fn := by
  unfold attempt
  rw [Py.call_bind]
  rcases (Filter.load p answers).call ⟨filt, []⟩ with ⟨e | handed, after⟩
  · rfl
  · rfl

theorem attempt_returned : ((attempt p answers fn).call ⟨filt, []⟩).1 = .ok () ↔
    (ChildRun.runs answers fn).Returned p filt := by
  rw [call_attempt]
  exact bind_eq_ok

theorem attempt_raised {e : PyExc} : ((attempt p answers fn).call ⟨filt, []⟩).1 = .error e ↔
    (ChildRun.runs answers fn).Raised p filt e := by
  rw [call_attempt]
  exact bind_eq_error

end Attempt

/-! ## What the handlers make of an exception -/

/-- The clamp of the handler gives a status that is no success: the errno is `None` or an
integer, or an object that compares with integers and, if it passes for one in range, is
one. -/
def ErrnoAttr.Clamps : ErrnoAttr → Prop
  | .none | .int _ => True
  | .other object => object.within = .ok false ∨
      object.within = .ok true ∧ ∃ n, object.index = .ok n ∧ 1 ≤ n ∧ n ≤ 255

theorem osExit_int {n : Int} (least : 0 ≤ n) (most : n ≤ 255) :
    osExit (.int n) = .ok (.exited n) := by
  simp only [osExit, ErrnoAttr.index, ok_bind]
  rw [if_pos (by omega)]
  rfl

theorem exitClamped_int (n : Int) :
    exitClamped (.int n) = .ok (.exited (if 0 < n ∧ n ≤ 255 then n else 255)) := by
  simp only [exitClamped, ErrnoAttr.within, ok_bind, decide_eq_true_eq]
  by_cases inside : 0 < n ∧ n ≤ 255
  · rw [if_pos inside, if_pos inside]
    exact osExit_int (by omega) inside.2
  · rw [if_neg inside, if_neg inside]
    exact osExit_int (by omega) (by omega)

example : exitClamped (.int 512) = .ok (.exited 255) := rfl

theorem osExit_other_iff {object : PyObject} {n : Int} (least : 1 ≤ n) (most : n ≤ 255) :
    osExit (.other object) = .ok (.exited n) ↔ object.index = .ok n := by
  obtain ⟨within, index⟩ := object
  cases index with
  | error name => simp [osExit, ErrnoAttr.index, Except.mapError]
  | ok status =>
    simp only [osExit, ErrnoAttr.index, Except.mapError, ok_bind]
    constructor
    · intro exited
      split at exited
      · cases exited
        rfl
      · cases exited
    · intro same
      cases same
      rw [if_pos (by omega)]
      rfl

theorem exitClamped_other_iff (object : PyObject) :
    (∃ status, exitClamped (.other object) = .ok (.exited status) ∧ 1 ≤ status ∧ status ≤ 255) ↔
      (ErrnoAttr.other object).Clamps := by
  obtain ⟨within, index⟩ := object
  cases within with
  | error name => simp [exitClamped, ErrnoAttr.within, ErrnoAttr.Clamps, Except.mapError]
  | ok inside =>
    simp only [exitClamped, ErrnoAttr.within, ErrnoAttr.Clamps, Except.mapError, ok_bind]
    cases inside with
    | false =>
      refine iff_of_true ⟨255, ?_, by omega, by omega⟩ (.inl rfl)
      exact osExit_int (by omega) (by omega)
    | true =>
      simp only [if_true, Except.ok.injEq, Bool.true_eq_false, false_or, true_and]
      apply exists_congr
      intro n
      constructor
      · intro exited
        exact ⟨(osExit_other_iff exited.2.1 exited.2.2).mp exited.1, exited.2⟩
      · intro index
        exact ⟨(osExit_other_iff index.2.1 index.2.2).mpr index.1, index.2⟩

theorem handleRaised_int {e : PyExc} {n : Int} (errno : e.errno? = some (.int n)) (least : 1 ≤ n)
    (most : n ≤ 255) : handleRaised e = .ok (.exited n) := by
  simp only [handleRaised, errno, reduceCtorEq, if_false]
  rw [exitClamped_int, if_pos ⟨by omega, most⟩]

/-- The handlers end the child with a nonzero status of 8 bits exactly when they can clamp
the errno. -/
theorem handleRaised_iff (e : PyExc) :
    (∃ status, handleRaised e = .ok (.exited status) ∧ 1 ≤ status ∧ status ≤ 255) ↔
      ∀ errno, e.errno? = some errno → errno.Clamps := by
  unfold handleRaised
  cases raised : e.errno? with
  | none =>
    simp only [reduceCtorEq, false_implies, implies_true, iff_true]
    exact ⟨255, osExit_int (by omega) (by omega), by omega, by omega⟩
  | some errno =>
    simp only [Option.some.injEq, forall_eq']
    cases errno with
    | none =>
      refine iff_of_true ⟨1, ?_, by omega, by omega⟩ trivial
      rw [if_pos rfl, exitClamped_int]
      rfl
    | int n =>
      refine iff_of_true ⟨if 0 < n ∧ n ≤ 255 then n else 255, ?_, ?_⟩ trivial
      · rw [if_neg (by simp), exitClamped_int]
      · split <;> omega
    | other object =>
      rw [if_neg (by simp)]
      exact exitClamped_other_iff object

/-! ## What the parent reads -/

theorem ofStatus_signaled (signal : Signal) (core : Bool) :
    ProbeResult.ofStatus (Ending.signaled signal core).waitStatus = ⟨false, 0, signal.number⟩ := by
  have least := signal.least
  have most := signal.most
  have number : wtermsig (Ending.signaled signal core).waitStatus = signal.number := by
    simp only [wtermsig, Ending.waitStatus]
    split <;> omega
  have signaled : wifsignaled (Ending.signaled signal core).waitStatus = true := by
    rw [wifsignaled, number]
    exact decide_eq_true ⟨least, by omega⟩
  rw [ProbeResult.ofStatus, if_pos signaled, number]

theorem ofStatus_exited {status : Int} (least : 0 ≤ status) (most : status ≤ 255) :
    ProbeResult.ofStatus (Ending.exited status).waitStatus =
      ⟨decide (status = 0), status.toNat, 0⟩ := by
  have unsignaled : wtermsig (Ending.exited status).waitStatus = 0 := by
    simp only [wtermsig, Ending.waitStatus]
    omega
  have code : wexitstatus (Ending.exited status).waitStatus = status.toNat := by
    simp only [wexitstatus, Ending.waitStatus]
    omega
  simp only [ProbeResult.ofStatus, wifsignaled, unsignaled, code]
  by_cases zero : status = 0
  · subst zero
    rfl
  · have nonzero : status.toNat ≠ 0 := by omega
    simp [zero, nonzero]

/-! ## Soundness of the report -/

/-- The child ends in `os._exit` with a status of 8 bits, or by its signal. -/
def ChildRun.Contained (p : Platform) (filt : Filter) (run : ChildRun) : Prop :=
  (∃ signal core, run = .killed signal core ∧ run.ending p filt = .ok (.signaled signal core)) ∨
    ∃ status, run.ending p filt = .ok (.exited status) ∧ 0 ≤ status ∧ status ≤ 255

/-- The report says what became of the child. -/
structure ProbeResult.Tells (p : Platform) (filt : Filter) (run : ChildRun) (result : ProbeResult) :
    Prop where
  ok_iff : result.ok = true ↔ run.Returned p filt
  errno_eq : ∀ e n, run.Raised p filt e → e.errno? = some (.int n) → 1 ≤ n → n ≤ 255 →
    (result.errno : Int) = n
  errno_ne : ∀ e, run.Raised p filt e → result.errno ≠ 0
  signal_iff : ∀ s, 0 < s →
    (result.signal = s ↔ ∃ signal core, run = .killed signal core ∧ signal.number = s)

/-- Nothing escapes the child, and the parent gets a report that tells what happened. -/
structure ProbeSound (p : Platform) (filt : Filter) (run : ChildRun) (later : Ending) : Prop where
  contained : run.Contained p filt
  reported : ∃ result, probe p filt run later = .ok result ∧ result.Tells p filt run

section Report

variable {p : Platform} {filt : Filter} {later : Ending}

theorem probe_ended {run : ChildRun} {ending : Ending} (unloaded : filt.loaded = false)
    (ends : run.ending p filt = .ok ending) :
    probe p filt run later = .ok (ProbeResult.ofStatus ending.waitStatus) := by
  simp only [probe, unloaded, Bool.false_eq_true, if_false, ends]

theorem tells_signaled (signal : Signal) (core : Bool) :
    (ProbeResult.mk false 0 signal.number).Tells p filt (.killed signal core) where
  ok_iff := iff_of_false Bool.false_ne_true id
  errno_eq e n raised := raised.elim
  errno_ne e raised := raised.elim
  signal_iff s positive := by
    constructor
    · intro same
      exact ⟨signal, core, rfl, same⟩
    · intro killed
      obtain ⟨signal', core', is, same⟩ := killed
      cases is
      exact same

theorem runs_signal_iff {answers : LoadAnswers} {fn : Except PyExc Unit} {s : Nat}
    (positive : 0 < s) :
    0 = s ↔ ∃ signal core, ChildRun.runs answers fn = .killed signal core ∧ signal.number = s := by
  apply iff_of_false (Nat.ne_of_lt positive)
  intro killed
  obtain ⟨signal, core, is, -⟩ := killed
  cases is

theorem tells_returned {answers : LoadAnswers} {fn : Except PyExc Unit}
    (returned : ((attempt p answers fn).call ⟨filt, []⟩).1 = .ok ()) :
    (ProbeResult.mk true 0 0).Tells p filt (.runs answers fn) where
  ok_iff := iff_of_true rfl (attempt_returned.mp returned)
  errno_eq e n raised := by cases (attempt_raised.mpr raised).symm.trans returned
  errno_ne e raised := by cases (attempt_raised.mpr raised).symm.trans returned
  signal_iff s positive := runs_signal_iff positive

theorem tells_raised {answers : LoadAnswers} {fn : Except PyExc Unit} {e : PyExc} {status : Int}
    (raised : ((attempt p answers fn).call ⟨filt, []⟩).1 = .error e)
    (ends : handleRaised e = .ok (.exited status)) (least : 1 ≤ status) (most : status ≤ 255) :
    (ProbeResult.mk false status.toNat 0).Tells p filt (.runs answers fn) where
  ok_iff := by
    apply iff_of_false Bool.false_ne_true
    intro returned
    cases (attempt_returned.mpr returned).symm.trans raised
  errno_eq e' n raised' errno atLeast atMost := by
    cases (attempt_raised.mpr raised').symm.trans raised
    cases (handleRaised_int errno atLeast atMost).symm.trans ends
    exact Int.toNat_of_nonneg (by omega)
  errno_ne e' raised' := by
    show status.toNat ≠ 0
    omega
  signal_iff s positive := runs_signal_iff positive

theorem sound_killed (signal : Signal) (core : Bool) (unloaded : filt.loaded = false) :
    ProbeSound p filt (.killed signal core) later := by
  refine ⟨.inl ⟨signal, core, rfl, rfl⟩, _, probe_ended unloaded rfl, ?_⟩
  rw [ofStatus_signaled]
  exact tells_signaled signal core

theorem sound_returned {answers : LoadAnswers} {fn : Except PyExc Unit}
    (unloaded : filt.loaded = false)
    (returned : ((attempt p answers fn).call ⟨filt, []⟩).1 = .ok ()) :
    ProbeSound p filt (.runs answers fn) later := by
  have ends : (ChildRun.runs answers fn).ending p filt = .ok (.exited 0) := by
    simp only [ChildRun.ending, returned]
    exact osExit_int (by omega) (by omega)
  refine ⟨.inr ⟨0, ends, by omega, by omega⟩, _, probe_ended unloaded ends, ?_⟩
  rw [ofStatus_exited (by omega) (by omega)]
  exact tells_returned returned

/-- Of the statuses, those from 1 on report an exception. -/
theorem sound_raised_iff {answers : LoadAnswers} {fn : Except PyExc Unit} {e : PyExc}
    (unloaded : filt.loaded = false)
    (raised : ((attempt p answers fn).call ⟨filt, []⟩).1 = .error e) :
    ProbeSound p filt (.runs answers fn) later ↔
      ∃ status, handleRaised e = .ok (.exited status) ∧ 1 ≤ status ∧ status ≤ 255 := by
  have ends : (ChildRun.runs answers fn).ending p filt = handleRaised e := by
    simp only [ChildRun.ending, raised]
  constructor
  · intro sound
    rcases sound.contained with ⟨signal, core, is, -⟩ | ⟨status, exited, least, most⟩
    · cases is
    · obtain ⟨result, reported, tells⟩ := sound.reported
      cases (probe_ended unloaded exited).symm.trans reported
      have nonzero := tells.errno_ne e (attempt_raised.mp raised)
      rw [ofStatus_exited least most] at nonzero
      have positive : status.toNat ≠ 0 := nonzero
      exact ⟨status, ends.symm.trans exited, by omega, most⟩
  · intro handled
    obtain ⟨status, exited, least, most⟩ := handled
    have exits := ends.trans exited
    refine ⟨.inr ⟨status, exits, by omega, most⟩, _, probe_ended unloaded exits, ?_⟩
    rw [ofStatus_exited (by omega) most, decide_eq_false (by omega)]
    exact tells_raised raised exited least most

/-- A probe is sound exactly when the handler can clamp the errno of what was raised. -/
theorem probe_sound_iff (run : ChildRun) (unloaded : filt.loaded = false) :
    ProbeSound p filt run later ↔
      ∀ e errno, run.Raised p filt e → e.errno? = some errno → errno.Clamps := by
  cases run with
  | killed signal core =>
    exact iff_of_true (sound_killed signal core unloaded) fun e errno raised => raised.elim
  | runs answers fn =>
    cases done : ((attempt p answers fn).call ⟨filt, []⟩).1 with
    | ok _ =>
      apply iff_of_true (sound_returned unloaded done)
      intro e errno raised
      cases (attempt_raised.mpr raised).symm.trans done
    | error e =>
      rw [sound_raised_iff unloaded done, handleRaised_iff]
      constructor
      · intro clamps e' errno raised
        cases (attempt_raised.mpr raised).symm.trans done
        exact clamps errno
      · intro clamps errno
        exact clamps e errno (attempt_raised.mp done)

end Report

/-- Answers that let a load return. -/
def loadReturns : LoadAnswers := ⟨[⟨0, 0⟩], [.installed 0], ⟨.ok expectedSizes, none, none⟩⟩

/-- `Filter()` loads, and the function raises `PermissionError(13, …)`. -/
theorem probe_sound_iff_eacces :
    ∃ f, Filter.init 0x7FFF0000 0 = .ok f ∧
      (ChildRun.runs loadReturns (.error (.osError (.int 13)))).Raised ⟨"x86_64", true⟩ f
        (.osError (.int 13)) ∧
      ProbeSound ⟨"x86_64", true⟩ f (.runs loadReturns (.error (.osError (.int 13))))
        (.exited 0) := by
  refine ⟨⟨0x7FFF0000, 0, Dict.empty, none, false⟩, rfl, ?_, ?_⟩
  · exact attempt_raised.mp (by decide +kernel)
  · apply (probe_sound_iff _ rfl).mpr
    intro e errno raised is
    have only : ((attempt ⟨"x86_64", true⟩ loadReturns (.error (.osError (.int 13)))).call
        ⟨⟨0x7FFF0000, 0, Dict.empty, none, false⟩, []⟩).1 = .error (.osError (.int 13)) := by
      decide +kernel
    cases only.symm.trans (attempt_raised.mpr raised)
    cases is
    trivial

/-- A text, which compares with no integer. -/
def PyObject.text : PyObject := ⟨.error "TypeError", .error "TypeError"⟩

/-- The function raises `OSError("a", "b")`.  The comparison of the handler raises in turn,
out of `probe`; a caller that goes on from there and ends well makes the parent report
success. -/
theorem probe_lets_child_escape :
    ∃ f, Filter.init 0x7FFF0000 0 = .ok f ∧
      (ChildRun.runs loadReturns (.error (.osError (.other .text)))).ending ⟨"x86_64", true⟩ f =
        .error (.other "TypeError") ∧
      probe ⟨"x86_64", true⟩ f (.runs loadReturns (.error (.osError (.other .text))))
        (.exited 0) = .ok ⟨true, 0, 0⟩ ∧
      ¬ ProbeSound ⟨"x86_64", true⟩ f (.runs loadReturns (.error (.osError (.other .text))))
        (.exited 0) := by
  have raised : ((attempt ⟨"x86_64", true⟩ loadReturns (.error (.osError (.other .text)))).call
      ⟨⟨0x7FFF0000, 0, Dict.empty, none, false⟩, []⟩).1 = .error (.osError (.other .text)) := by
    decide +kernel
  have escapes : (ChildRun.runs loadReturns (.error (.osError (.other .text)))).ending
      ⟨"x86_64", true⟩ ⟨0x7FFF0000, 0, Dict.empty, none, false⟩ = .error (.other "TypeError") := by
    rw [ChildRun.ending, raised]
    rfl
  refine ⟨⟨0x7FFF0000, 0, Dict.empty, none, false⟩, rfl, escapes, ?_, ?_⟩
  · rw [probe, escapes]
    rfl
  · intro sound
    rcases sound.contained with ⟨signal, core, is, -⟩ | ⟨status, exited, -, -⟩
    · cases is
    · cases escapes.symm.trans exited

end Seccompy
