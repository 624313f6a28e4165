import Seccompy.Testing
import Seccompy.Lib.Script
import Seccompy.Notify.Notified

/-!
# What a probe says about a policy

`probe` runs a function in a child under a filter, so that a policy can be tried out.  The
function is taken as the system calls it makes, each depending on what became of those
before it, and so is the exit of the child.  Every call goes through the program that the
load has installed.  What the kernel makes of a verdict, and what `os._exit` does, are
parameters.  The parent reports what the policy decides for the calls (`probe_shows_policy`).
-/

namespace Seccompy

open Lib Bpf

/-! ## System calls under a filter -/

/-- A part of the child: each system call comes back with a return value, or the process is
over. -/
abbrev SysScript := Script SeccompData Int Ending

/-- What the kernel makes of a verdict on a call. -/
abbrev VerdictFate := SeccompData → U32 → Fate Int Ending → Prop

/-- What becomes of a call under a program. -/
def enforced (program : Bytes) (fate : VerdictFate) (data : SeccompData) (out : Fate Int Ending) :
    Prop :=
  ∃ v, (packed program data.load).Halts ⟨0, 0⟩ (.ret v) ∧ fate data v out

/-- What becomes of it where a policy decides. -/
def decided (policy : SeccompData → U32) (fate : VerdictFate) (data : SeccompData)
    (out : Fate Int Ending) : Prop :=
  fate data (policy data) out

/-- Where the program returns what the policy decides, the same becomes of every call. -/
theorem enforced_decided {program : Bytes} {policy : SeccompData → U32}
    (halts : ∀ data, (packed program data.load).Halts ⟨0, 0⟩ (.ret (policy data)))
    (fate : VerdictFate) : enforced program fate = decided policy fate := by
  funext data out
  apply propext
  constructor
  · intro became
    obtain ⟨v, ran, given⟩ := became
    cases ran.det (halts data)
    exact given
  · exact fun given => ⟨_, halts data, given⟩

/-! ## The child and the parent -/

/-- The child from the return of its load on.  `exit` is what `os._exit` does with a status,
`escape` what a child does out of which an exception propagates. -/
def child (p : Platform) (filt : Filter) (answers : LoadAnswers) (exit : Int → SysScript Empty)
    (escape : PyExc → SysScript Empty) (fn : SysScript (Except PyExc Unit)) : SysScript Empty :=
  fn.bind fun result =>
    match (ChildRun.runs answers result).ending p filt with
    | .ok (.exited status) => exit status
    | .ok ending => .ends ending
    | .error e => escape e

/-- `probe` in the parent, for a child that ends so. -/
def awaited (filt : Filter) (ending : Ending) : Except PyExc ProbeResult :=
  if filt.loaded = true then .error (.runtimeError "filter is already loaded")
  else .ok (ProbeResult.ofStatus ending.waitStatus)

theorem probe_awaited (p : Platform) (filt : Filter) (run : ChildRun) (later : Ending) :
    probe p filt run later = awaited filt (match run.ending p filt with
      | .ok ending => ending
      | .error _ => later) := rfl

theorem awaited_unloaded {filt : Filter} (unloaded : filt.loaded = false) (ending : Ending) :
    awaited filt ending = .ok (ProbeResult.ofStatus ending.waitStatus) := by
  simp only [awaited, unloaded, Bool.false_eq_true, if_false]

/-- The status for the errno of an exception, if it has one. -/
def clampedErrno : Option ErrnoAttr → Nat
  | some (.int n) => if 0 < n ∧ n ≤ 255 then n.toNat else 255
  | some .none => 1
  | _ => 255

/-- What the child passes to `os._exit`. -/
def exitStatus : Except PyExc Unit → Int
  | .ok _ => 0
  | .error e => clampedErrno e.errno?

theorem clampedErrno_fits (errno : Option ErrnoAttr) : clampedErrno errno ≤ 255 := by
  unfold clampedErrno
  split
  · split <;> omega
  · omega
  · omega

theorem handleRaised_clamped {e : PyExc} (plain : ∀ object, e.errno? ≠ some (.other object)) :
    handleRaised e = .ok (.exited (clampedErrno e.errno?)) ∧ 1 ≤ clampedErrno e.errno? := by
  unfold handleRaised
  cases errno : e.errno? with
  | none => exact ⟨osExit_int (by omega) (by omega), by decide⟩
  | some errno' =>
    cases errno' with
    | none =>
      refine ⟨?_, by decide⟩
      show exitClamped (if ErrnoAttr.none = .none then .int 1 else .none) = _
      rw [if_pos rfl, exitClamped_int]
      rfl
    | int n =>
      simp only [clampedErrno]
      refine ⟨?_, ?_⟩
      · rw [if_neg (by simp), exitClamped_int]
        congr 2
        split
        · omega
        · rfl
      · split <;> omega
    | other object => exact absurd errno (plain object)

theorem ofStatus_clamped {e : PyExc} (plain : ∀ object, e.errno? ≠ some (.other object)) :
    ProbeResult.ofStatus (Ending.exited (clampedErrno e.errno?)).waitStatus =
      ⟨false, clampedErrno e.errno?, 0⟩ := by
  obtain ⟨-, least⟩ := handleRaised_clamped plain
  have most := clampedErrno_fits e.errno?
  rw [ofStatus_exited (by omega) (by omega), decide_eq_false (by omega), Int.toNat_natCast]

theorem exitStatus_fits (result : Except PyExc Unit) :
    0 ≤ exitStatus result ∧ exitStatus result ≤ 255 := by
  cases result with
  | ok _ =>
    simp only [exitStatus]
    omega
  | error e =>
    have most := clampedErrno_fits e.errno?
    simp only [exitStatus]
    omega

/-- Behind a load that returned, every result has its status. -/
theorem ending_runs {p : Platform} {f : Filter} {answers : LoadAnswers} {handed : Option Listener}
    (loads : ((Filter.load p answers).call ⟨f, []⟩).1 = .ok handed) {result : Except PyExc Unit}
    (plain : ∀ e object, result = .error e → e.errno? ≠ some (.other object)) :
    (ChildRun.runs answers result).ending p f = .ok (.exited (exitStatus result)) := by
  have attempted : ((attempt p answers result).call ⟨f, []⟩).1 = result := by
    rw [call_attempt, loads]
    rfl
  simp only [ChildRun.ending, attempted]
  cases result with
  | ok _ => exact osExit_int (by omega) (by omega)
  | error e => exact (handleRaised_clamped (plain e · rfl)).1

/-! ## The policy and the report -/

/-- What is to be reported of a function, where `env` says what becomes of its calls: the
signal that killed the child, in the function or at its exit; success, if the function
returned; the status for its exception, if it raised one. -/
inductive Shows (env : SeccompData → Fate Int Ending → Prop) (exit : Int → SysScript Empty)
    (fn : SysScript (Except PyExc Unit)) : ProbeResult → Prop
  | killed {signal : Signal} {core : Bool} (dies : fn.Runs env (.ends (.signaled signal core))) :
    Shows env exit fn ⟨false, 0, signal.number⟩
  | killedExiting {result : Except PyExc Unit} {signal : Signal} {core : Bool}
    (runs : fn.Runs env (.back result))
    (dies : (exit (exitStatus result)).Runs env (.ends (.signaled signal core))) :
    Shows env exit fn ⟨false, 0, signal.number⟩
  | returned (runs : fn.Runs env (.back (.ok ()))) (exits : (exit 0).Runs env (.ends (.exited 0))) :
    Shows env exit fn ⟨true, 0, 0⟩
  | raised {e : PyExc} (runs : fn.Runs env (.back (.error e)))
    (exits : (exit (clampedErrno e.errno?)).Runs env (.ends (.exited (clampedErrno e.errno?)))) :
    Shows env exit fn ⟨false, clampedErrno e.errno?, 0⟩

/-- `os._exit` ends the process with the status it is given, unless the process is killed; the
function does not end it by itself, and the errno of what it raises is no object but an
integer or `None`. -/
structure OrdinaryChild (env : SeccompData → Fate Int Ending → Prop)
    (exit : Int → SysScript Empty) (fn : SysScript (Except PyExc Unit)) : Prop where
  exits : ∀ status, 0 ≤ status → status ≤ 255 → ∀ ending,
    (exit status).Runs env (.ends ending) →
      ending = .exited status ∨ ∃ signal core, ending = .signaled signal core
  stays : ∀ status, ¬ fn.Runs env (.ends (.exited status))
  plain : ∀ e object, fn.Runs env (.back (.error e)) → e.errno? ≠ some (.other object)

section Ordinary

variable {env : SeccompData → Fate Int Ending → Prop} {exit : Int → SysScript Empty}
  {fn : SysScript (Except PyExc Unit)}

/-- The child ends in its function, or in the `os._exit` behind it. -/
theorem child_runs {p : Platform} {f : Filter} {answers : LoadAnswers} {handed : Option Listener}
    (loads : ((Filter.load p answers).call ⟨f, []⟩).1 = .ok handed)
    (escape : PyExc → SysScript Empty) (ordinary : OrdinaryChild env exit fn) (ending : Ending) :
    (child p f answers exit escape fn).Runs env (.ends ending) ↔ fn.Runs env (.ends ending) ∨
      ∃ result, fn.Runs env (.back result) ∧ (exit (exitStatus result)).Runs env (.ends ending) := by
  have behind : ∀ {result}, fn.Runs env (.back result) →
      (ChildRun.runs answers result).ending p f = .ok (.exited (exitStatus result)) := by
    intro result runs
    refine ending_runs loads fun e object is => ?_
    subst is
    exact ordinary.plain e object runs
  rw [child, Script.runs_bind]
  apply or_congr
  · constructor
    · intro given
      obtain ⟨_, runs, same⟩ := given
      cases same
      exact runs
    · exact fun runs => ⟨_, runs, rfl⟩
  · apply exists_congr
    intro result
    apply and_congr_right
    intro runs
    rw [behind runs]

/-- What the parent makes of the child's ending is what is to be reported. -/
theorem shows_iff (ordinary : OrdinaryChild env exit fn) (report : ProbeResult) :
    Shows env exit fn report ↔ ∃ ending, (fn.Runs env (.ends ending) ∨
      ∃ result, fn.Runs env (.back result) ∧ (exit (exitStatus result)).Runs env (.ends ending)) ∧
        ProbeResult.ofStatus ending.waitStatus = report := by
  have success : ProbeResult.ofStatus (Ending.exited 0).waitStatus = ⟨true, 0, 0⟩ :=
    ofStatus_exited (by omega) (by omega)
  constructor
  · intro shows
    cases shows with
    | @killed signal core dies => exact ⟨_, .inl dies, ofStatus_signaled signal core⟩
    | @killedExiting result signal core runs dies =>
      exact ⟨_, .inr ⟨result, runs, dies⟩, ofStatus_signaled signal core⟩
    | returned runs exits => exact ⟨_, .inr ⟨_, runs, exits⟩, success⟩
    | @raised e runs exits =>
      exact ⟨_, .inr ⟨_, runs, exits⟩, ofStatus_clamped (ordinary.plain e · runs)⟩
  · intro given
    obtain ⟨ending, runs, rfl⟩ := given
    rcases runs with runs | ⟨result, runs, rest⟩
    · cases ending with
      | exited status => exact absurd runs (ordinary.stays status)
      | signaled signal core =>
        rw [ofStatus_signaled]
        exact .killed runs
    · obtain ⟨least, most⟩ := exitStatus_fits result
      rcases ordinary.exits _ least most ending rest with rfl | ⟨signal, core, rfl⟩
      · cases result with
        | ok _ =>
          rw [exitStatus, success]
          exact .returned runs rest
        | error e =>
          rw [exitStatus, ofStatus_clamped (ordinary.plain e · runs)]
          exact .raised runs rest
      · rw [ofStatus_signaled]
        exact .killedExiting runs rest

end Ordinary

/-- A filter built by rule calls is probed with a function.  If the child's load returns and
the kernel has installed a program, then the parent can report exactly what the verdicts of
the policy make of the function's calls and of those of the child's exit, whatever the kernel
makes of a verdict. -/
theorem probe_shows_policy {p : Platform} {audit : U32} (supported : auditArch p.machine = .ok audit)
    {d flags : Int} {start f : Filter} (created : Filter.init d flags = .ok start)
    {calls : List RuleCall} (built : (addAll p.machine calls).call start = (.ok (), f))
    {answers : LoadAnswers} {handed : Option Listener} {s : Session}
    (loads : (Filter.load p answers).call ⟨f, []⟩ = (.ok handed, s)) {program : Bytes} {word : U32}
    (installed : .installed program word ∈ s.log) (fate : VerdictFate)
    (exit : Int → SysScript Empty) (escape : PyExc → SysScript Empty)
    (fn : SysScript (Except PyExc Unit)) (ordinary : OrdinaryChild
      (decided (verdict p.machine audit (BitVec.ofInt 32 d) calls) fate) exit fn)
    (report : ProbeResult) :
    (∃ ending, (child p f answers exit escape fn).Runs (enforced program fate) (.ends ending) ∧
      awaited f ending = .ok report) ↔
      Shows (decided (verdict p.machine audit (BitVec.ofInt 32 d) calls) fate) exit fn report := by
  obtain ⟨-, -, -, uncached, unloaded⟩ := Filter.init_ok created
  obtain ⟨-, -, -, sameLoaded⟩ := addAll_frame built uncached
  have read : ((Filter.program p.machine).call f).1 = .ok program := by
    have done := load_loads p answers ⟨f, []⟩
    rw [loads] at done
    rw [Filter.program_read]
    exact (done.installed installed).1
  have returns : ((Filter.load p answers).call ⟨f, []⟩).1 = .ok handed := congrArg Prod.fst loads
  rw [enforced_decided (fun data => built_halts supported created built read data 0),
    shows_iff ordinary]
  simp only [awaited_unloaded (sameLoaded.trans unloaded), child_runs returns escape ordinary,
    Except.ok.injEq]

/-! ## A policy that kills the exit -/

def sigsys : Signal := ⟨31, by decide, by decide⟩

def getpidData : SeccompData := ⟨39, auditArchX86_64, 0, fun _ => 0⟩

def exitGroupData (status : Int) : SeccompData :=
  ⟨231, auditArchX86_64, 0, fun i => if i.val = 0 then BitVec.ofInt 64 status else 0⟩

/-- `exit_group`, and an abort behind it. -/
def exitGroup (status : Int) : SysScript Empty :=
  .call (exitGroupData status) fun _ => .ends (.signaled ⟨11, by decide, by decide⟩ true)

/-- An allowed call is executed, and any other verdict kills. -/
def executedOrKilled : VerdictFate := fun data v out =>
  out = if v = Action.allow.code then
      if data.nr = 231 then .ends (.exited (data.args ⟨0, by decide⟩).toInt) else .back 1000
    else .ends (.signaled sigsys true)

/-- `kill("exit_group")`, by number, and a function that calls `getpid` and returns: the parent
reports SIGSYS. -/
theorem probe_shows_policy_exit_group :
    ∃ start f program s, Filter.init 0x7FFF0000 0 = .ok start ∧
      (addAll "x86_64" [⟨.kill, .nr 231, .none⟩]).call start = (.ok (), f) ∧
      (Filter.load ⟨"x86_64", true⟩ loadReturns).call ⟨f, []⟩ = (.ok none, s) ∧
      .installed program f.flags ∈ s.log ∧
      ∀ escape report, (∃ ending, (child ⟨"x86_64", true⟩ f loadReturns exitGroup escape
          (.call getpidData fun _ => .done (.ok ()))).Runs (enforced program executedOrKilled)
            (.ends ending) ∧ awaited f ending = .ok report) ↔ report = ⟨false, 0, 31⟩ := by
  let start : Filter := ⟨0x7FFF0000, 0, Dict.empty, none, false⟩
  let f := start.withRule 231 ⟨Action.killProcess.code, []⟩
  have created : Filter.init 0x7FFF0000 0 = .ok start := rfl
  have built : (addAll "x86_64" [⟨.kill, .nr 231, .none⟩]).call start = (.ok (), f) := rfl
  have few : f.recordCount auditArchX86_64 ≤ 4096 := by decide
  obtain ⟨program, compiled, -⟩ := f.compile_ok auditArchX86_64 auditArch_x86_64 (by omega)
  have ready : Ready ⟨"x86_64", true⟩ loadReturns f program := ⟨rfl, rfl, compiled⟩
  have ok : accepted ⟨"x86_64", true⟩ program loadReturns.seccomp = .ok (.installed 0) :=
    (accepted_iff compiled).mpr ⟨rfl, ⟨auditArchX86_64, auditArch_x86_64, few⟩, rfl,
      fun errno is => by cases is⟩
  have hands : handed loadReturns.listener f.flags (Install.installed 0).reply.ret = .ok none := by
    have flag : hasFlag f.flags flagNewListener = false := by decide
    rw [handed, flag]
    rfl
  have loads := load_returned (s := ⟨f, []⟩) ready ok
  rw [hands] at loads
  have installed : ∀ events : List Event, .installed program f.flags ∈ [] ++ .noNewPrivs ::
      .setModeFilter program f.flags :: (Install.events program f.flags (.installed 0) ++ events) := by
    simp [Install.events]
  -- what becomes of the two calls
  let env := decided (verdict "x86_64" auditArchX86_64 (BitVec.ofInt 32 0x7FFF0000)
    [⟨.kill, .nr 231, .none⟩]) executedOrKilled
  have getpid : ∀ {out}, env getpidData out ↔ out = .back 1000 := Iff.rfl
  have exits : ∀ {status out}, env (exitGroupData status) out ↔
    out = .ends (.signaled sigsys true) := Iff.rfl
  have ran : ∀ {out}, (Script.call getpidData fun _ => .done (.ok ()) :
      SysScript (Except PyExc Unit)).Runs env out → out = .back (.ok ()) := by
    intro out runs
    cases runs with
    | back came rest =>
      cases rest
      rfl
    | gone went => cases getpid.mp went
  have died : ∀ {status out}, (exitGroup status).Runs env out →
      out = .ends (.signaled sigsys true) := by
    intro status out runs
    cases runs with
    | back came rest => cases exits.mp came
    | gone went => exact congrArg _ (Fate.ends.inj (exits.mp went))
  refine ⟨start, f, program, _, created, built, loads, installed _, fun escape report => ?_⟩
  refine (probe_shows_policy (p := ⟨"x86_64", true⟩) auditArch_x86_64 created built loads
    (installed _) executedOrKilled exitGroup escape _ ⟨?_, ?_, ?_⟩ report).trans ?_
  · intro status _ _ ending runs
    exact .inr ⟨sigsys, true, Fate.ends.inj (died runs)⟩
  · intro status runs
    cases ran runs
  · intro e object runs
    cases ran runs
  · constructor
    · intro shows
      cases shows with
      | killed dies => cases ran dies
      | killedExiting _ dies =>
        cases Fate.ends.inj (died dies)
        rfl
      | returned _ exited => cases died exited
      | raised runs _ => cases ran runs
    · rintro rfl
      have returns : (Script.call getpidData fun _ => .done (.ok ()) :
          SysScript (Except PyExc Unit)).Runs env (.back (.ok ())) := .back (getpid.mpr rfl) .done
      have dies : (exitGroup (exitStatus (.ok ()))).Runs env (.ends (.signaled sigsys true)) :=
        .gone (exits.mpr rfl)
      have shows := Shows.killedExiting returns dies
      exact shows

end Seccompy
