import Seccompy.Filter.Load
import Seccompy.Notify.Ownership
import Seccompy.Notify.Pidfd
import Seccompy.Notify.Wire

/-!
# The errors that are reported

Every call of the library that goes to the kernel raises what the kernel answered: an
errno it gave, never EINTR, as an `UnsupportedError` for ENOSYS and EOPNOTSUPP and as a
plain `SeccompError` for every other.  `set_no_new_privs` alone does not make that
distinction (`errors_classified`).
-/

namespace Seccompy

open Lib Bpf

/-! ## What an exception reports -/

/-- If the exception carries an errno of the kernel, it is one of these, no interruption,
and the class is the one for it. -/
def PyExc.Reports (errnos : List Int) (e : PyExc) : Prop :=
  ∀ n, e = .seccompError n ∨ e = .unsupportedError n → n ∈ errnos ∧ n ≠ eintr ∧ e = raiseErrno n

/-- Not an exception of this library. -/
def PyExc.Foreign (e : PyExc) : Prop := ∀ n, e ≠ .seccompError n ∧ e ≠ .unsupportedError n

theorem PyExc.Foreign.reports {e : PyExc} (foreign : e.Foreign) (errnos : List Int) :
    e.Reports errnos := by
  intro n carries
  rcases carries with is | is
  · exact absurd is (foreign n).1
  · exact absurd is (foreign n).2

theorem PyExc.Reports.mono {errnos more : List Int} {e : PyExc} (reports : e.Reports errnos)
    (sub : errnos ⊆ more) : e.Reports more := by
  intro n carries
  obtain ⟨mem, kept, is⟩ := reports n carries
  exact ⟨sub mem, kept, is⟩

theorem raiseErrno_reports {errnos : List Int} {n : Int} (mem : n ∈ errnos) (kept : n ≠ eintr) :
    (raiseErrno n).Reports errnos := by
  intro m carries
  have same : m = n := by
    unfold raiseErrno at carries
    split at carries
    · rcases carries with is | is <;> cases is
      rfl
    · rcases carries with is | is <;> cases is
      rfl
  subst same
  exact ⟨mem, kept, rfl⟩

theorem reports_valueError (errnos : List Int) (msg : String) :
    (PyExc.valueError msg).Reports errnos := by
  rintro n (is | is) <;> cases is

theorem reports_runtimeError (errnos : List Int) (msg : String) :
    (PyExc.runtimeError msg).Reports errnos := by
  rintro n (is | is) <;> cases is

theorem reports_unsupported (errnos : List Int) (msg : String) :
    (PyExc.unsupported msg).Reports errnos := by
  rintro n (is | is) <;> cases is

theorem reports_interrupt (errnos : List Int) : PyExc.keyboardInterrupt.Reports errnos := by
  rintro n (is | is) <;> cases is

theorem reports_other (errnos : List Int) (name : String) : (PyExc.other name).Reports errnos := by
  rintro n (is | is) <;> cases is

/-! ## The loop of a call -/

section Loop

variable {σ : Type} {p : Platform} {errnos : List Int}

/-- An attempt raises only foreign exceptions, and replies with one of the errnos if it fails. -/
structure Attempts (errnos : List Int) (attempt : Py σ Reply) : Prop where
  raises : attempt.Raises (PyExc.Reports errnos)
  errno : ∀ s r, (attempt.call s).1 = .ok r → r.ret = -1 → r.errno ∈ errnos

theorem callLoop_raises {attempts : List (Py σ Reply)}
    (each : ∀ attempt ∈ attempts, Attempts errnos attempt) :
    (callLoop attempts).Raises (PyExc.Reports errnos) := by
  induction attempts with
  | nil => exact .throw (reports_interrupt errnos)
  | cons attempt rest ih =>
    rw [List.forall_mem_cons] at each
    intro s e raised
    rw [callLoop] at raised
    rcases ran : attempt.call s with ⟨e' | r, s'⟩
    · rw [Py.call_bind_error ran] at raised
      cases raised
      exact each.1.raises s e (by rw [ran])
    · rw [Py.call_bind_ok ran, Py.call_ite, Py.call_ite] at raised
      split at raised
      · cases raised
      · next failed =>
        split at raised
        · exact ih each.2 s' e raised
        · next kept =>
          cases raised
          exact raiseErrno_reports (each.1.errno s r (by rw [ran]) (not_not.mp failed)) kept

theorem call_raises {attempts : List (Py σ Reply)}
    (each : ∀ attempt ∈ attempts, Attempts errnos attempt) :
    (call p attempts).Raises (PyExc.Reports errnos) := by
  refine .bind (.lift ?_) fun _ => callLoop_raises each
  intro e raised
  unfold getLibc at raised
  split at raised
  · cases raised
  · cases raised
    exact reports_unsupported errnos _

theorem seccomp_raises {attempts : List (Py σ Reply)}
    (each : ∀ attempt ∈ attempts, Attempts errnos attempt) :
    (seccomp p attempts).Raises (PyExc.Reports errnos) := by
  refine .bind (.lift ?_) fun _ => call_raises each
  intro e raised
  simp only [seccompNr, archNr] at raised
  split at raised
  · cases raised
  · cases raised
    exact reports_unsupported errnos _

end Loop

/-! ## Listeners -/

/-- The errnos among replies that may also raise. -/
def errnosOf (replies : IoctlReplies) : List Int :=
  replies.filterMap fun reply => reply.toOption.map Reply.errno

theorem ioctl_raises {p : Platform} {request : IoctlRequest} {replies : IoctlReplies}
    (foreign : ∀ e, .error e ∈ replies → e.Foreign) :
    (ioctl p request replies).Raises (PyExc.Reports (errnosOf replies)) := by
  apply call_raises
  intro attempt mem
  obtain ⟨reply, inside, rfl⟩ := List.mem_map.mp mem
  refine ⟨.bind (.update _) fun _ => .lift ?_, ?_⟩
  · rintro e rfl
    exact (foreign e inside).reports _
  · intro s r replied _
    obtain rfl : reply = .ok r := replied
    exact List.mem_filterMap.mpr ⟨.ok r, inside, rfl⟩

theorem Listener.ioctl_raises {p : Platform} {request : IoctlRequest} {replies : IoctlReplies}
    (foreign : ∀ e, .error e ∈ replies → e.Foreign) :
    (Listener.ioctl p request replies).Raises (PyExc.Reports (errnosOf replies)) :=
  .bind .read fun _ => .raiseIf_bind (reports_runtimeError _ _) (Seccompy.ioctl_raises foreign)

def ListenerOp.replies : ListenerOp → IoctlReplies
  | .recv replies _ | .respond _ _ _ _ replies | .addfd _ _ _ _ _ replies | .valid _ replies
  | .setFlags _ replies => replies
  | _ => []

/-- What `os.close` raises. -/
def ListenerOp.closeRaises : ListenerOp → Option PyExc
  | .exit raised | .close raised | .del raised => raised
  | _ => none

/-- What comes from outside is no exception of this library. -/
def ListenerOp.Foreign (op : ListenerOp) : Prop :=
  (∀ e, .error e ∈ op.replies → e.Foreign) ∧ ∀ e, op.closeRaises = some e → e.Foreign

theorem checkId_raises {errnos : List Int} {notifId : Int} {e : PyExc}
    (raised : Listener.checkId notifId = .error e) : e.Reports errnos := by
  unfold Listener.checkId at raised
  split at raised
  · cases raised
  · cases raised
    exact reports_valueError errnos _

theorem Listener.close_raises {errnos : List Int} {raised : Option PyExc}
    (foreign : ∀ e, raised = some e → e.Foreign) :
    (Listener.close raised).Raises (PyExc.Reports errnos) := by
  refine .bind .read fun self => ?_
  split
  · refine .bind (.bind (.update _) fun _ => ?_) fun _ => .update _
    cases raised with
    | none => exact .pure ()
    | some e => exact .throw ((foreign e rfl).reports errnos)
  · exact .pure _

theorem ListenerOp.raises {p : Platform} {op : ListenerOp} (foreign : op.Foreign) :
    (op.body p).Raises (PyExc.Reports (errnosOf op.replies)) := by
  have value := reports_valueError (errnosOf op.replies)
  cases op with
  | fileno =>
    refine .map (.bind .read fun self => .raiseIf_bind (value _) (.pure _))
  | recv replies notif => exact .map (.map (Listener.ioctl_raises foreign.1))
  | respond notifId error val flags replies =>
    refine .bind (.lift fun e => checkId_raises) fun _ => ?_
    refine .raiseIf_bind (value _) (.raiseIf_bind (value _) (.raiseIf_bind (value _) ?_))
    exact .raiseIf_bind (value _) (.map (Listener.ioctl_raises foreign.1))
  | addfd notifId localFd flags newfd newfdFlags replies =>
    refine .map (.bind (.lift fun e => checkId_raises) fun _ => ?_)
    refine .raiseIf_bind (value _) (.raiseIf_bind (value _) (.raiseIf_bind (value _) ?_))
    exact .raiseIf_bind (value _) (.raiseIf_bind (value _) (Listener.ioctl_raises foreign.1))
  | valid notifId replies =>
    refine .map (.bind (.lift fun e => checkId_raises) fun _ => ?_)
    exact .rescue (.map (Listener.ioctl_raises foreign.1)) fun e reports =>
      .ite (.pure _) (.throw reports)
  | setFlags flags replies =>
    exact .raiseIf_bind (value _) (.map (Listener.ioctl_raises foreign.1))
  | enter => exact .bind .read fun self => .raiseIf (reports_runtimeError _ _)
  | exit raised => exact Listener.close_raises foreign.2
  | close raised => exact Listener.close_raises foreign.2
  | del raised =>
    have closes := @Listener.close_raises [] raised foreign.2
    exact .rescue closes fun e reports => .ite (.pure _) (.throw reports)

/-! ## Probes and queries -/

theorem sending_attempts {word : U32} {replies : List Reply} {attempt : Py Received Reply}
    (mem : attempt ∈ sending word replies) : Attempts (replies.map Reply.errno) attempt := by
  obtain ⟨reply, inside, rfl⟩ := List.mem_map.mp mem
  refine ⟨.bind (.update _) fun _ => .pure _, ?_⟩
  intro s r replied _
  obtain rfl : reply = r := Except.ok.inj replied
  exact List.mem_map_of_mem inside

theorem seccomp_sending_raises (p : Platform) (word : U32) (replies : List Reply) :
    (seccomp p (sending word replies)).Raises (PyExc.Reports (replies.map Reply.errno)) :=
  seccomp_raises fun _ mem => sending_attempts mem

theorem actionAvail_raises (p : Platform) (k : ProbeReplies) (action : Int) :
    (actionAvail p k action).Raises
      (PyExc.Reports ((k.getActionAvail (BitVec.ofInt 32 action)).map Reply.errno)) :=
  seccomp_sending_raises p _ _

theorem cInt_error {n : Int} {e : PyExc} (raised : cInt n = .error e) :
    e = .other "ArgumentError" := by
  unfold cInt at raised
  split at raised
  · cases raised
  · cases raised
    rfl

theorem probeFlag_raises (p : Platform) (k : ProbeReplies) (flag : Int) :
    (probeFlag p k flag).Raises
      (PyExc.Reports ((k.setModeFilter (BitVec.ofInt 32 flag)).map Reply.errno)) := by
  refine .rescue (Q := PyExc.Reports ((k.setModeFilter (BitVec.ofInt 32 flag)).map Reply.errno))
    (.map ?_) fun e reports => ?_
  · cases converted : cInt flag with
    | ok word =>
      rw [← cInt_ok converted]
      exact seccomp_sending_raises p _ _
    | error e =>
      rw [cInt_error converted]
      refine seccomp_raises fun attempt mem => ?_
      rw [List.mem_singleton.mp mem]
      exact ⟨.throw (reports_other _ _), fun s r replied => by cases replied⟩
  · split
    · exact .ite (.pure _) (.ite (.pure _) (.throw reports))
    · exact .throw reports

theorem flagSupported_raises (p : Platform) (k : ProbeReplies) (flag : Int) :
    (flagSupported p k flag).Raises
      (PyExc.Reports ((k.setModeFilter (BitVec.ofInt 32 flag)).map Reply.errno)) :=
  .rescue (probeFlag_raises p k flag) fun _ reports => .ite (.pure _) (.throw reports)

theorem actionSupported_raises (p : Platform) (k : ProbeReplies) (action : Int) :
    (actionSupported p k action).Raises
      (PyExc.Reports ((k.getActionAvail (BitVec.ofInt 32 action)).map Reply.errno)) :=
  .rescue (.map (actionAvail_raises p k action)) fun _ reports =>
    .ite (.pure _) (.ite (.pure _) (.throw reports))

theorem supported_raises (p : Platform) (k : ProbeReplies) :
    (supported p k).Raises (PyExc.Reports ((k.getActionAvail Action.allow.code).map Reply.errno ++
      (k.setModeFilter 0).map Reply.errno)) := by
  refine .rescue (.map (actionAvail_raises p k _)) fun e reports => .ite ?_ ?_
  · exact .rescue (probeFlag_raises p k 0) fun e reports =>
      .ite (.pure _) (.throw (reports.mono (List.subset_append_right _ _)))
  · exact .ite (.pure _) (.throw (reports.mono (List.subset_append_left _ _)))

theorem sizes_raises (p : Platform) (replies : List Reply) (filled : Bytes) :
    (sizes p replies filled).Raises (PyExc.Reports (replies.map Reply.errno)) :=
  .map (.map (seccomp_sending_raises p 0 replies))

/-! ## Loads -/

def installErrnos (answers : List Install) : List Int := answers.map fun a => a.reply.errno

theorem setModeFilter_raises (p : Platform) (program : Bytes) (flags : U32)
    (answers : List Install) :
    (setModeFilter p program flags answers).Raises (PyExc.Reports (installErrnos answers)) := by
  refine .bind (.update _) fun _ => .bind (.lift ?_) fun fprog => ?_
  · intro e raised
    unfold sockFprog at raised
    split at raised
    · cases raised
      exact reports_valueError _ _
    · dsimp only at raised
      split at raised
      · cases raised
        exact reports_valueError _ _
      · cases raised
  · refine .bind (seccomp_raises fun attempt mem => ?_) fun ret => .bind (.update _) fun _ => .pure _
    obtain ⟨answer, inside, rfl⟩ := List.mem_map.mp mem
    cases answer with
    | installed ret =>
      refine ⟨.bind (.update _) fun _ => .pure _, fun s r replied failed => ?_⟩
      obtain rfl : (Install.installed ret).reply = r := Except.ok.inj replied
      exact List.mem_map_of_mem inside
    | refused errno =>
      refine ⟨.pure _, fun s r replied failed => ?_⟩
      obtain rfl : (Install.refused errno).reply = r := Except.ok.inj replied
      exact List.mem_map_of_mem inside
    | notSynced tid =>
      refine ⟨.pure _, fun s r replied failed => ?_⟩
      obtain rfl : (Install.notSynced tid).reply = r := Except.ok.inj replied
      exact List.mem_map_of_mem inside

theorem Filter.compile_raises {errnos : List Int} {machine : String} {f : Filter} {e : PyExc}
    (raised : f.compile machine = .error e) : e.Reports errnos := by
  cases known : auditArch machine with
  | error e' =>
    rw [Filter.compile, known] at raised
    cases raised
    rcases bind_eq_error.mp known with unknown | ⟨row, -, done⟩
    · simp only [native] at unknown
      split at unknown
      · cases unknown
      · cases unknown
        exact reports_unsupported errnos _
    · cases done
  | ok audit =>
    by_cases small : f.recordCount audit ≤ 2 ^ 32 + 3
    · obtain ⟨bytes, compiled, -⟩ := f.compile_ok audit known small
      cases compiled.symm.trans raised
    · obtain ⟨msg, refused⟩ := f.compile_error audit known (not_le.mp small)
      cases refused.symm.trans raised
      exact reports_valueError errnos msg

theorem Filter.program_raises (errnos : List Int) (machine : String) :
    (Filter.program machine).Raises (PyExc.Reports errnos) := by
  refine .bind .read fun f => ?_
  split
  · exact .pure _
  · refine .bind .read fun f => .bind (.lift fun e => Filter.compile_raises) fun bytes => ?_
    exact .bind (.update _) fun _ => .pure _

/-- The errno of `prctl`, in whatever class. -/
def PrctlRaises (replies : List Reply) (e : PyExc) : Prop :=
  ∃ n ∈ replies.map Reply.errno, n ≠ eintr ∧ e = .seccompError n

theorem prctlLoop_raises {errnos : List Int} {replies : List Reply} {e : PyExc}
    (raised : prctlLoop replies = .error e) : e.Reports errnos ∨ PrctlRaises replies e := by
  induction replies with
  | nil =>
    cases raised
    exact .inl (reports_interrupt errnos)
  | cons first rest ih =>
    rw [prctlLoop] at raised
    split at raised
    · cases raised
    · split at raised
      · rcases ih raised with reports | ⟨n, mem, kept, is⟩
        · exact .inl reports
        · exact .inr ⟨n, List.mem_cons_of_mem _ mem, kept, is⟩
      · next kept =>
        cases raised
        exact .inr ⟨first.errno, List.mem_cons_self, kept, rfl⟩

theorem Listener.make_raises {errnos : List Int} {env : InitEnv} {fd : Int} {e : PyExc}
    (sizes : ∀ e, env.sizes = .error e → e.Reports errnos)
    (close : ∀ e, env.close = some e → e.Foreign)
    (inheritable : ∀ e, env.setInheritable = some e → e.Foreign)
    (raised : Listener.make env fd = .error e) : e.Reports errnos := by
  have closes : (osClose env.close).Raises (PyExc.Reports errnos) := by
    refine .bind (.update _) fun _ => ?_
    cases raises : env.close with
    | none => exact .pure ()
    | some e => exact .throw ((close e raises).reports errnos)
  have body : (Listener.init env fd).Raises (PyExc.Reports errnos) := by
    refine .bind (.update _) fun _ => .bind (.update _) fun _ => .bind ?_ fun kernel => ?_
    · refine .rescue (.lift sizes) fun e reports => ?_
      split
      · exact closes.bind fun _ => .throw reports
      · exact .throw reports
    · have mismatch : (abiMismatch kernel).Reports errnos := reports_unsupported errnos _
      cases raises : env.setInheritable with
      | none =>
        exact .ite (closes.bind fun _ => .bind (.throw mismatch) fun _ => .update _) (.update _)
      | some e =>
        have thrown := (inheritable e raises).reports errnos
        exact .ite (closes.bind fun _ => .bind (.throw mismatch) fun _ => .throw thrown)
          (.throw thrown)
  unfold Listener.make at raised
  split at raised
  · cases raised
  · next e' self ran =>
    cases raised
    exact body (Listener.new fd) e (by rw [ran])

theorem Filter.load_raises {errnos : List Int} {p : Platform} {a : LoadAnswers}
    (install : installErrnos a.seccomp ⊆ errnos)
    (sizes : ∀ e, a.listener.sizes = .error e → e.Reports errnos)
    (close : ∀ e, a.listener.close = some e → e.Foreign)
    (inheritable : ∀ e, a.listener.setInheritable = some e → e.Foreign) :
    (Filter.load p a).Raises fun e => e.Reports errnos ∨ PrctlRaises a.prctl e := by
  refine .bind .read fun s => .raiseIf_bind (.inl (reports_runtimeError errnos _)) ?_
  refine .bind (.onPart (.bind (.lift ?_) fun _ => .bind (.lift ?_) fun _ => .update _)) fun _ => ?_
  · intro e raised
    unfold getLibc at raised
    split at raised
    · cases raised
    · cases raised
      exact .inl (reports_unsupported errnos _)
  · intro e raised
    exact prctlLoop_raises raised
  · refine .bind (.onPart ((Filter.program_raises errnos _).imp fun e => .inl)) fun program => ?_
    refine .bind .read fun s => .bind (.onPart ?_) fun ret => ?_
    · exact (setModeFilter_raises p _ _ _).imp fun e reports => .inl (reports.mono install)
    · refine .bind (.onPart (.update _)) fun _ => .bind .read fun s => ?_
      split
      · refine .map (.lift fun e raised => .inl ?_)
        exact Listener.make_raises sizes close inheritable raised
      · exact .pure _

/-! ## Descriptors of processes -/

def PidfdOp.replies : PidfdOp → List Reply
  | .pidfdOpen _ _ replies _ => replies
  | .pidfdGetfd _ _ _ replies _ => replies

theorem mapM_cInt_error {args : List Int} {e : PyExc} (raised : args.mapM cInt = .error e) :
    e = .other "ArgumentError" := by
  induction args with
  | nil => cases raised
  | cons n args ih =>
    rw [List.mapM_cons] at raised
    rcases bind_eq_error.mp raised with first | ⟨word, -, rest⟩
    · exact cInt_error first
    · rcases bind_eq_error.mp rest with later | ⟨words, -, done⟩
      · exact ih later
      · cases done

theorem opening_raises {p : Platform} {nr : Nat} {args : List Int} {replies : List Reply} :
    (call p (opening nr args replies)).Raises (PyExc.Reports (replies.map Reply.errno)) := by
  refine call_raises fun attempt mem => ?_
  unfold opening at mem
  split at mem
  · obtain ⟨reply, inside, rfl⟩ := List.mem_map.mp mem
    refine ⟨.bind (.update _) fun _ => ?_, fun s r replied failed => ?_⟩
    · exact .ite (.bind (.update _) fun _ => .pure _) (.pure _)
    · obtain rfl : reply = r := by
        unfold openAttempt at replied
        split at replied <;> exact Except.ok.inj replied
      exact List.mem_map_of_mem inside
  · next e refused =>
    rw [List.mem_singleton.mp mem, mapM_cInt_error refused]
    exact ⟨.throw (reports_other _ _), fun s r replied => by cases replied⟩

theorem PidfdOp.raises {p : Platform} {op : PidfdOp} (foreign : ∀ e, op.raised = some e → e.Foreign) :
    (op.body p).Raises (PyExc.Reports (op.replies.map Reply.errno)) := by
  have keeps : ∀ {errnos : List Int} {raised : Option PyExc} (fd : Int),
      (∀ e, raised = some e → e.Foreign) → (osKeep raised fd).Raises (PyExc.Reports errnos) := by
    intro errnos raised fd foreign
    cases raised with
    | none => exact .update _
    | some e => exact .throw ((foreign e rfl).reports errnos)
  have numbers : ∀ {errnos : List Int} {e : PyExc}, pidfdNr p = .error e → e.Reports errnos := by
    intro errnos e raised
    simp only [pidfdNr] at raised
    split at raised
    · cases raised
    · cases raised
      exact reports_unsupported errnos _
  cases op with
  | pidfdOpen pid flags replies raised =>
    refine .bind (.raiseIf_bind (reports_valueError _ _) ?_) fun fd => .map (keeps fd foreign)
    exact .bind (.lift fun e => numbers) fun nrs => opening_raises
  | pidfdGetfd pidfd fd flags replies raised =>
    refine .bind (.bind (.lift fun e => numbers) fun nrs => opening_raises) fun dup => ?_
    exact .map (keeps dup foreign)

/-! ## Every call -/

/-- Whatever the kernel answers to a method of a listener, to `pidfd_open` and
`pidfd_getfd`, to a probe or to a load: an errno that is raised is one the kernel gave,
never EINTR, and it comes as an `UnsupportedError` if and only if it is ENOSYS or
EOPNOTSUPP.  A load may also raise an errno of `prctl`, which is never EINTR either, but
always comes as a plain `SeccompError`. -/
theorem errors_classified (p : Platform) :
    (∀ op : ListenerOp, op.Foreign →
      (op.body p).Raises (PyExc.Reports (errnosOf op.replies))) ∧
    (∀ op : PidfdOp, (∀ e, op.raised = some e → e.Foreign) →
      (op.body p).Raises (PyExc.Reports (op.replies.map Reply.errno))) ∧
    (∀ k : ProbeReplies,
      (supported p k).Raises (PyExc.Reports ((k.getActionAvail Action.allow.code).map Reply.errno ++
        (k.setModeFilter 0).map Reply.errno)) ∧
      (∀ action, (actionSupported p k action).Raises
        (PyExc.Reports ((k.getActionAvail (BitVec.ofInt 32 action)).map Reply.errno))) ∧
      ∀ flag, (flagSupported p k flag).Raises
        (PyExc.Reports ((k.setModeFilter (BitVec.ofInt 32 flag)).map Reply.errno))) ∧
    ∀ prctl answers replies filled close inheritable,
      (∀ e, close = some e → e.Foreign) → (∀ e, inheritable = some e → e.Foreign) →
      (Filter.load p ⟨prctl, answers,
        ⟨((sizes p replies filled).call []).1, close, inheritable⟩⟩).Raises fun e =>
          e.Reports (installErrnos answers ++ replies.map Reply.errno) ∨ PrctlRaises prctl e := by
  refine ⟨fun op => ListenerOp.raises, fun op => PidfdOp.raises, fun k => ?_, ?_⟩
  · exact ⟨supported_raises p k, actionSupported_raises p k, flagSupported_raises p k⟩
  · intro prctl answers replies filled close inheritable closes keeps
    refine Filter.load_raises (List.subset_append_left _ _) ?_ closes keeps
    intro e raised
    exact (sizes_raises p replies filled [] e raised).mono (List.subset_append_right _ _)

/-- `prctl` is missing: the load raises ENOSYS, which is not an `UnsupportedError`. -/
theorem errors_classified_prctl :
    ∃ e, ((Filter.load ⟨"x86_64", true⟩ ⟨[⟨-1, enosys⟩], [], ⟨((sizes ⟨"x86_64", true⟩ []
        []).call []).1, none, none⟩⟩).call ⟨⟨0x7FFF0000, 0, Dict.empty, none, false⟩, []⟩).1 =
          .error e ∧ e.isUnsupported = false ∧ PrctlRaises [⟨-1, enosys⟩] e := by
  have raised : ((Filter.load ⟨"x86_64", true⟩ ⟨[⟨-1, enosys⟩], [], ⟨((sizes ⟨"x86_64", true⟩ []
      []).call []).1, none, none⟩⟩).call ⟨⟨0x7FFF0000, 0, Dict.empty, none, false⟩, []⟩).1 =
        .error (.seccompError enosys) := rfl
  refine ⟨_, raised, rfl, ?_⟩
  have reported := (errors_classified ⟨"x86_64", true⟩).2.2.2 [⟨-1, enosys⟩] [] [] [] none none
    (fun e is => by cases is) (fun e is => by cases is) _ _ raised
  rcases reported with kernel | prctl
  · have given := (kernel enosys (.inl rfl)).1
    cases given
  · exact prctl

end Seccompy
