import Seccompy.Filter.Correct
import Seccompy.Notify
import Seccompy.Lib.Operations

/-!
# Loading a filter

`Filter.load`, on a filter together with the log of what went to the kernel.  What
the kernel answers to the calls of one load is a parameter.  `Loads` says everything
a load can do, and `load_loads` that it does nothing else.
-/

namespace Seccompy

open Lib Bpf

/-- A filter and what its loads did so far. -/
structure Session where
  filter : Filter
  log : Log

def Session.onFilter {α : Type} (body : Py Filter α) : Py Session α :=
  Py.onPart Session.filter (fun f s => { s with filter := f }) body

def Session.onLog {α : Type} (body : Py Log α) : Py Session α :=
  Py.onPart Session.log (fun log s => { s with log := log }) body

theorem Session.onFilter_eq {α : Type} {body : Py Filter α} {s : Session} {r : Except PyExc α}
    {f : Filter} (ran : body.call s.filter = (r, f)) :
    (Session.onFilter body).call s = (r, ⟨f, s.log⟩) := by
  rw [Session.onFilter, Py.call_onPart, ran]

theorem Session.onLog_eq {α : Type} {body : Py Log α} {s : Session} {r : Except PyExc α}
    {log : Log} (ran : body.call s.log = (r, log)) :
    (Session.onLog body).call s = (r, ⟨s.filter, log⟩) := by
  rw [Session.onLog, Py.call_onPart, ran]

/-- The answers one load meets: to the attempts of `prctl` and of `seccomp`, and to what
the listener's constructor calls. -/
structure LoadAnswers where
  prctl : List Reply
  seccomp : List Install
  listener : InitEnv

/-- `Listener(fd)`. -/
def Listener.make (env : InitEnv) (fd : Int) : Except PyExc Listener :=
  match (Listener.init env fd).call (Listener.new fd) with
  | (.ok (), self) => .ok self
  | (.error e, _) => .error e

open Session in
def Filter.load (p : Platform) (a : LoadAnswers) : Py Session (Option Listener) := do
  Py.raiseIf ((← Py.read).filter.loaded = true) (.runtimeError "filter is already loaded")
  onLog (setNoNewPrivs p a.prctl)
  let program ← onFilter (Filter.program p.machine)
  let ret ← onLog (setModeFilter p program (← Py.read).filter.flags a.seccomp)
  onFilter (Py.update fun self => { self with loaded := true })
  if hasFlag (← Py.read).filter.flags flagNewListener then
    return some (← Py.lift (Listener.make a.listener ret))
  else return none

/-! ## The calls of a load -/

theorem prctlLoop_ok_iff (replies : List Reply) :
    prctlLoop replies = .ok () ↔ ∃ r, decisiveReply replies = some r ∧ r.ret ≠ -1 := by
  induction replies with
  | nil => simp [prctlLoop, decisiveReply]
  | cons r rest ih =>
    simp only [prctlLoop, decisiveReply, List.find?_cons] at ih ⊢
    by_cases failed : r.ret = -1
    · by_cases interrupted : r.errno = eintr
      · simpa [failed, interrupted] using ih
      · simp [failed, interrupted]
    · simp [failed]

/-- Whether `set_no_new_privs` returns. -/
def privileges (p : Platform) (replies : List Reply) : Except PyExc Unit := do
  getLibc p
  prctlLoop replies

theorem call_setNoNewPrivs (p : Platform) (replies : List Reply) (log : Log) :
    (setNoNewPrivs p replies).call log =
      match privileges p replies with
      | .error e => (.error e, log)
      | .ok () => (.ok (), log ++ [.noNewPrivs]) := by
  unfold setNoNewPrivs privileges record
  simp only [Py.call_bind, Py.call_lift, Py.call_update]
  cases getLibc p with
  | error e => rfl
  | ok _ =>
    rw [ok_bind]
    cases prctlLoop replies with
    | error e => rfl
    | ok _ => rfl

/-- The answer that ends the loop of `seccomp`. -/
def decisive (answers : List Install) : Option Install :=
  answers.find? fun a => a ≠ .refused eintr

/-- The answer `set_mode_filter` returns with, or what it raises. -/
def accepted (p : Platform) (program : Bytes) (answers : List Install) : Except PyExc Install := do
  let _ ← sockFprog program
  let _ ← seccompNr p
  getLibc p
  match decisive answers with
  | none => throw .keyboardInterrupt
  | some (.refused errno) => throw (raiseErrno errno)
  | some a => return a

/-- What an answer leaves in the log. -/
def Install.events (program : Bytes) (flags : U32) : Install → List Event
  | .installed _ => [.installed program flags]
  | _ => []

theorem callLoop_attempts (program : Bytes) (flags : U32) (answers : List Install) (log : Log) :
    (callLoop (answers.map (Install.attempt program flags))).call log =
      match decisive answers with
      | none => (.error .keyboardInterrupt, log)
      | some (.refused errno) => (.error (raiseErrno errno), log)
      | some a => (.ok a.reply.ret, log ++ a.events program flags) := by
  induction answers with
  | nil => rfl
  | cons a rest ih =>
    rw [List.map_cons, callLoop, decisive, List.find?_cons]
    cases a with
    | installed ret =>
      have attempted : (Install.attempt program flags (.installed ret)).call log =
          (.ok ⟨ret, 0⟩, log ++ [.installed program flags]) := rfl
      rw [Py.call_bind_ok attempted]
      simp [Install.reply, Install.events, show (ret : Int) ≠ -1 by omega]
    | refused errno =>
      have attempted : (Install.attempt program flags (.refused errno)).call log =
          (.ok ⟨-1, errno⟩, log) := rfl
      rw [Py.call_bind_ok attempted]
      by_cases interrupted : errno = eintr
      · simpa [interrupted, decisive] using ih
      · simp [interrupted]
    | notSynced tid =>
      have attempted : (Install.attempt program flags (.notSynced tid)).call log =
          (.ok ⟨tid, 0⟩, log) := rfl
      rw [Py.call_bind_ok attempted]
      simp [Install.reply, Install.events, show (tid : Int) ≠ -1 by omega]

theorem call_setModeFilter (p : Platform) (program : Bytes) (flags : U32) (answers : List Install)
    (log : Log) :
    (setModeFilter p program flags answers).call log =
      match accepted p program answers with
      | .error e => (.error e, log ++ [.setModeFilter program flags])
      | .ok a => (.ok a.reply.ret, log ++ .setModeFilter program flags ::
          (a.events program flags ++ [.modeFilterSet a.reply.ret])) := by
  unfold setModeFilter accepted seccomp call record
  simp only [Py.call_bind, Py.call_lift, Py.call_update, Py.call_pure]
  cases checked : sockFprog program with
  | error e => rfl
  | ok fprog =>
    simp only [(sockFprog_program checked).1, ok_bind]
    cases seccompNr p with
    | error e => rfl
    | ok nr =>
      rw [ok_bind]
      cases getLibc p with
      | error e => rfl
      | ok _ =>
        simp only [callLoop_attempts]
        cases decisive answers with
        | none => rfl
        | some a =>
          cases a with
          | refused errno => rfl
          | installed ret => simp [Install.events]
          | notSynced tid => simp [Install.events]

/-! ## Everything a load can do -/

/-- The load gets as far as `set_mode_filter`, with this program. -/
structure Ready (p : Platform) (a : LoadAnswers) (f : Filter) (program : Bytes) : Prop where
  unloaded : f.loaded = false
  privileged : privileges p a.prctl = .ok ()
  current : f.current p.machine = .ok program

/-- What a load hands back once `set_mode_filter` has returned. -/
def handed (env : InitEnv) (flags : U32) (ret : Int) : Except PyExc (Option Listener) :=
  if hasFlag flags flagNewListener then some <$> Listener.make env ret else .ok none

inductive Loads (p : Platform) (a : LoadAnswers) (s : Session) :
    Except PyExc (Option Listener) → Session → Prop
  | already (loaded : s.filter.loaded = true) :
    Loads p a s (.error (.runtimeError "filter is already loaded")) s
  | unprivileged {e : PyExc} (unloaded : s.filter.loaded = false)
    (raised : privileges p a.prctl = .error e) : Loads p a s (.error e) s
  | uncompiled {e : PyExc} (unloaded : s.filter.loaded = false)
    (raised : s.filter.current p.machine = .error e) :
    Loads p a s (.error e) ⟨s.filter, s.log ++ [.noNewPrivs]⟩
  | refused {program : Bytes} {e : PyExc} (ready : Ready p a s.filter program)
    (raised : accepted p program a.seccomp = .error e) :
    Loads p a s (.error e) ⟨{ s.filter with cached := some program },
      s.log ++ [.noNewPrivs, .setModeFilter program s.filter.flags]⟩
  | returned {program : Bytes} {answer : Install} (ready : Ready p a s.filter program)
    (ok : accepted p program a.seccomp = .ok answer) :
    Loads p a s (handed a.listener s.filter.flags answer.reply.ret)
      ⟨{ s.filter with cached := some program, loaded := true },
      s.log ++ .noNewPrivs :: .setModeFilter program s.filter.flags ::
        (answer.events program s.filter.flags ++ [.modeFilterSet answer.reply.ret])⟩

theorem load_loads (p : Platform) (a : LoadAnswers) (s : Session) :
    Loads p a s ((Filter.load p a).call s).1 ((Filter.load p a).call s).2 := by
  obtain ⟨f, log⟩ := s
  unfold Filter.load
  rw [Py.call_bind_ok (Py.call_read _)]
  cases loaded : f.loaded with
  | true => exact .already loaded
  | false =>
    rw [Py.call_bind_ok (Py.call_raiseIf_neg Bool.false_ne_true _ _)]
    cases privileged : privileges p a.prctl with
    | error e =>
      rw [Py.call_bind_error (Session.onLog_eq (by rw [call_setNoNewPrivs, privileged]))]
      exact .unprivileged loaded privileged
    | ok _ =>
      rw [Py.call_bind_ok (Session.onLog_eq (by rw [call_setNoNewPrivs, privileged]))]
      cases current : f.current p.machine with
      | error e =>
        rw [Py.call_bind_error (Session.onFilter_eq (by rw [Filter.call_program, current]))]
        exact .uncompiled loaded current
      | ok program =>
        rw [Py.call_bind_ok (Session.onFilter_eq (by rw [Filter.call_program, current])),
          Py.call_bind_ok (Py.call_read _)]
        have ready : Ready p a f program := ⟨loaded, privileged, current⟩
        cases ok : accepted p program a.seccomp with
        | error e =>
          rw [Py.call_bind_error (Session.onLog_eq (by rw [call_setModeFilter, ok])),
            List.append_assoc]
          exact .refused ready ok
        | ok answer =>
          rw [Py.call_bind_ok (Session.onLog_eq (by rw [call_setModeFilter, ok])),
            Py.call_bind_ok (Session.onFilter_eq (Py.call_update _ _)),
            Py.call_bind_ok (Py.call_read _), List.append_assoc]
          have done := Loads.returned (s := ⟨f, log⟩) ready ok
          unfold handed at done
          cases flag : hasFlag f.flags flagNewListener with
          | false =>
            simp only [flag] at done ⊢
            exact done
          | true =>
            simp only [flag] at done ⊢
            cases made : Listener.make a.listener answer.reply.ret with
            | error e =>
              rw [made] at done
              exact done
            | ok listener =>
              rw [made] at done
              exact done

/-- A load that gets through. -/
theorem load_returned {p : Platform} {a : LoadAnswers} {s : Session} {program : Bytes}
    {answer : Install} (ready : Ready p a s.filter program)
    (ok : accepted p program a.seccomp = .ok answer) :
    (Filter.load p a).call s = (handed a.listener s.filter.flags answer.reply.ret,
      ⟨{ s.filter with cached := some program, loaded := true },
        s.log ++ .noNewPrivs :: .setModeFilter program s.filter.flags ::
          (answer.events program s.filter.flags ++ [.modeFilterSet answer.reply.ret])⟩) := by
  obtain ⟨unloaded, privileged, current⟩ := ready
  have loads := load_loads p a s
  rcases ran : (Filter.load p a).call s with ⟨result, s'⟩
  rw [ran] at loads
  cases loads with
  | already loaded =>
    rw [loaded] at unloaded
    cases unloaded
  | unprivileged _ raised =>
    rw [raised] at privileged
    cases privileged
  | uncompiled _ raised =>
    rw [raised] at current
    cases current
  | refused ready' raised =>
    cases current.symm.trans ready'.current
    rw [raised] at ok
    cases ok
  | returned ready' ok' =>
    cases current.symm.trans ready'.current
    cases ok.symm.trans ok'
    rfl

/-! ## The listener of a load -/

/-- `__init__` returns exactly when the sizes match and the descriptor can be made
non-inheritable. -/
theorem Listener.make_ok_iff {env : InitEnv} {fd : Int} {listener : Listener} :
    Listener.make env fd = .ok listener ↔
      env.sizes = .ok expectedSizes ∧ env.setInheritable = none ∧ listener = ⟨fd, false, []⟩ := by
  obtain ⟨sizes, close, setInheritable⟩ := env
  unfold Listener.make Listener.init osClose
  cases sizes with
  | error e =>
    cases caught : e.isException <;> cases close <;>
      simp [Py.call_bind, Py.call_rescue, caught, Listener.new]
  | ok kernel =>
    by_cases same : kernel = expectedSizes
    · cases setInheritable with
      | some raised => simp [Py.call_bind, Py.call_rescue, same, Listener.new]
      | none =>
        simp only [Py.call_bind, Py.call_rescue, Py.call_lift, Py.call_update, same, Listener.new]
        simp
        exact eq_comm
    · cases close <;> simp [Py.call_bind, Py.call_rescue, same, Listener.new]

/-! ## When `set_mode_filter` returns -/

/-- Every machine with an audit architecture has a number for `seccomp`. -/
theorem seccompNr_known {p : Platform} {audit : U32} (known : auditArch p.machine = .ok audit) :
    ∃ nr, seccompNr p = .ok nr := by
  obtain ⟨row, found, -⟩ := bind_eq_ok.mp known
  unfold native at found
  unfold seccompNr archNr
  simp only [arches, sysSeccomp, List.lookup_cons, List.lookup_nil] at found ⊢
  revert found
  cases p.machine.toLower == "x86_64" with
  | true => exact fun _ => ⟨317, rfl⟩
  | false =>
    cases p.machine.toLower == "amd64" with
    | true => exact fun _ => ⟨317, rfl⟩
    | false =>
      cases p.machine.toLower == "aarch64" with
      | true => exact fun _ => ⟨277, rfl⟩
      | false =>
        cases p.machine.toLower == "arm64" with
        | true => exact fun _ => ⟨277, rfl⟩
        | false =>
          intro found
          cases found

/-- For the program of a filter: on Linux, within 4096 records, if the first answer that
is not an interruption is not a refusal. -/
theorem accepted_iff {p : Platform} {f : Filter} {program : Bytes} {answers : List Install}
    {answer : Install} (compiled : f.compile p.machine = .ok program) :
    accepted p program answers = .ok answer ↔
      p.linux = true ∧ (∃ audit, auditArch p.machine = .ok audit ∧ f.recordCount audit ≤ 4096) ∧
        decisive answers = some answer ∧ ∀ errno, answer ≠ .refused errno := by
  obtain ⟨audit, known, -⟩ := bind_eq_ok.mp compiled
  obtain ⟨nr, numbered⟩ := seccompNr_known known
  have small : f.recordCount audit ≤ 2 ^ 32 + 3 := by
    by_contra large
    obtain ⟨msg, raised⟩ := f.compile_error audit known (not_le.mp large)
    rw [raised] at compiled
    cases compiled
  obtain ⟨bytes, same, length, admissible⟩ := f.compile_ok audit known small
  cases same.symm.trans compiled
  constructor
  · intro ok
    obtain ⟨fprog, checked, ok⟩ := bind_eq_ok.mp ok
    obtain ⟨-, -, ok⟩ := bind_eq_ok.mp ok
    obtain ⟨_, libc, ok⟩ := bind_eq_ok.mp ok
    have linux : p.linux = true := by
      unfold getLibc at libc
      split at libc
      · assumption
      · cases libc
    have few := sockFprog_le checked
    refine ⟨linux, ⟨audit, known, by omega⟩, ?_⟩
    split at ok
    · cases ok
    · cases ok
    · next unrefused first =>
      cases ok
      exact ⟨first, unrefused⟩
  · intro given
    rcases given with ⟨linux, ⟨audit', known', few⟩, first, unrefused⟩
    cases known.symm.trans known'
    have passed := sockFprog_ok admissible.whole admissible.some_record (by omega)
    simp only [accepted, passed, numbered, getLibc, linux, first, ok_bind, if_true]
    cases answer with
    | refused errno => exact absurd rfl (unrefused errno)
    | installed ret => rfl
    | notSynced tid => rfl

end Seccompy
