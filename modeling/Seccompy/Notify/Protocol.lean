import Seccompy.Notify.Requests
import Seccompy.Capability
import Seccompy.Lib.Lifecycle
import Mathlib.Logic.Relation

/-!
# Calls of a supervisor

A supervisor calls the methods of a `Listener`.  Between its calls, and between the attempts
of one ioctl, the kernel and the targets go on by themselves.  The kernel is not a part of
the program and stands here as a parameter, `NotifKernel`, of which nothing is assumed.
However often a call was interrupted, its last attempt decides it (`Settles`), so that the
calls that return are, one for one, the attempts to which the kernel replied with success
(`requests_delivered_once`).
-/

namespace Seccompy

open Lib Bpf

/-! ## The values of calls -/

/-- What `recv` makes of the structure the kernel filled in. -/
def SeccompNotif.notification (notif : SeccompNotif) : Notification where
  id := notif.id.toNat
  pid := notif.pid.toNat
  flags := notif.flags.toNat
  nr := notif.data.nr.toInt
  arch := notif.data.arch.toNat
  instructionPointer := notif.data.instructionPointer.toNat
  args := (List.finRange 6).map fun i => (notif.data.args i).toNat

theorem Listener.call_recv (p : Platform) (replies : IoctlReplies) (notif : SeccompNotif)
    (s : Listener) : (Listener.recv p replies notif).call s =
      (((Listener.ioctl p .recv replies).call s).1.map fun _ => notif.notification,
        ((Listener.ioctl p .recv replies).call s).2) :=
  Py.call_map _ _ s

/-- What a call of the listener returns. -/
inductive CallValue
  | none
  | fd (n : Int)
  | truth (b : Bool)
  | notification (n : Notification)
  deriving DecidableEq, Repr

/-- A call with its value. -/
def RequestCall.perform (p : Platform) (replies : IoctlReplies) : RequestCall → Py Listener CallValue
  | .respond notifId error val flags => do
    Listener.respond p notifId error val flags replies
    return .none
  | .addfd notifId localFd flags newfd newfdFlags => do
    return .fd (← Listener.addfd p notifId localFd flags newfd newfdFlags replies)
  | .valid notifId => do return .truth (← Listener.valid p notifId replies)
  | .setFlags flags => do
    Listener.setFlags p flags replies
    return .none

/-- What a call makes of the result of its ioctl. -/
def RequestCall.value : RequestCall → Except PyExc Int → Except PyExc CallValue
  | .addfd .., result => result.map .fd
  | .valid _, .ok _ => .ok (.truth true)
  | .valid _, .error e => if e = .seccompError enoent then .ok (.truth false) else .error e
  | _, result => result.map fun _ => .none

/-- The call and its ioctl, where every check passes. -/
def RequestCall.issue (c : RequestCall) (p : Platform) (replies : IoctlReplies) (s : Listener) :
    Except PyExc CallValue × Listener :=
  (c.value ((Listener.ioctl p c.request replies).call s).1,
    ((Listener.ioctl p c.request replies).call s).2)

/-- Whether the checks pass depends on the arguments only. -/
def RequestCall.Decided (c : RequestCall)
    (run : Platform → IoctlReplies → Listener → Except PyExc CallValue × Listener) : Prop :=
  (∃ msg, ∀ p replies s, run p replies s = (.error (.valueError msg), s)) ∨
    ∀ p replies s, run p replies s = c.issue p replies s

theorem RequestCall.Decided.check {c : RequestCall} {fails : Prop} [Decidable fails] {msg : String}
    {rest : Platform → IoctlReplies → Listener → Except PyExc CallValue × Listener}
    (decided : c.Decided rest) :
    c.Decided fun p replies s => if fails then (.error (.valueError msg), s) else rest p replies s := by
  by_cases failed : fails
  · refine .inl ⟨msg, fun p replies s => ?_⟩
    exact if_pos failed
  · simp only [if_neg failed]
    exact decided

theorem RequestCall.perform_decided (c : RequestCall) :
    c.Decided fun p replies s => (c.perform p replies).call s := by
  cases c with
  | respond notifId error val flags =>
    simp only [RequestCall.perform, Listener.respond, bind_assoc, call_checkId_bind,
      Py.call_raiseIf_bind]
    apply RequestCall.Decided.check
    apply RequestCall.Decided.check
    apply RequestCall.Decided.check
    apply RequestCall.Decided.check
    apply RequestCall.Decided.check
    refine .inr fun p replies s => ?_
    simp only [pure_bind]
    exact Py.call_map _ _ s
  | addfd notifId localFd flags newfd newfdFlags =>
    simp only [RequestCall.perform, Listener.addfd, bind_assoc, call_checkId_bind,
      Py.call_raiseIf_bind]
    apply RequestCall.Decided.check
    apply RequestCall.Decided.check
    apply RequestCall.Decided.check
    apply RequestCall.Decided.check
    apply RequestCall.Decided.check
    apply RequestCall.Decided.check
    refine .inr fun p replies s => ?_
    exact Py.call_map _ _ s
  | valid notifId =>
    simp only [RequestCall.perform, Listener.valid, bind_assoc, call_checkId_bind]
    apply RequestCall.Decided.check
    refine .inr fun p replies s => ?_
    beta_reduce
    rw [Py.call_map, Py.call_rescue, Py.call_map]
    simp only [RequestCall.issue, RequestCall.request]
    rcases (Listener.ioctl p (.idValid (BitVec.ofInt 64 notifId)) replies).call s with ⟨e | n, s'⟩
    · by_cases gone : e = .seccompError enoent
      · simp only [Except.map, RequestCall.value, if_pos gone]
        rfl
      · simp only [Except.map, RequestCall.value, if_neg gone]
        rfl
    · rfl
  | setFlags flags =>
    simp only [RequestCall.perform, Listener.setFlags, bind_assoc, Py.call_raiseIf_bind]
    apply RequestCall.Decided.check
    refine .inr fun p replies s => ?_
    simp only [pure_bind]
    exact Py.call_map _ _ s

/-- The value of a call beside the call without it. -/
theorem RequestCall.call_perform (c : RequestCall) (p : Platform) (replies : IoctlReplies)
    (s : Listener) : ((c.op replies).body p).call s =
      (((c.perform p replies).call s).1.map fun _ => (), ((c.perform p replies).call s).2) := by
  rw [← Py.call_map]
  cases c with
  | respond notifId error val flags =>
    simp only [RequestCall.perform, bind_assoc, pure_bind, bind_pure_unit]
    rfl
  | addfd notifId localFd flags newfd newfdFlags =>
    simp only [RequestCall.perform, bind_assoc, pure_bind]
    rfl
  | valid notifId =>
    simp only [RequestCall.perform, bind_assoc, pure_bind]
    rfl
  | setFlags flags =>
    simp only [RequestCall.perform, bind_assoc, pure_bind, bind_pure_unit]
    rfl

/-- A call out of range does nothing, and every other call goes on to its ioctl. -/
theorem RequestCall.perform_cases (c : RequestCall) (p : Platform) (replies : IoctlReplies)
    (s : Listener) :
    (¬ c.Within maxFd ∧ ∃ msg, (c.perform p replies).call s = (.error (.valueError msg), s)) ∨
      (c.Within maxFd ∧ (c.perform p replies).call s = c.issue p replies s) := by
  -- one run on an open listener shows what the checks decide
  have probe := c.checked ⟨"x86_64", true⟩ [.ok ⟨0, 0⟩] ⟨3, false, []⟩
  rw [c.call_perform] at probe
  have issued : (c.issue ⟨"x86_64", true⟩ [.ok ⟨0, 0⟩] ⟨3, false, []⟩).2.log =
      [.ioctl c.request] := rfl
  rcases c.perform_decided with ⟨msg, refused⟩ | passed
  · refine .inl ⟨?_, msg, refused p replies s⟩
    simp only [refused] at probe
    rcases probe with ⟨outside, -⟩ | ⟨-, state, -⟩
    · exact outside
    · cases (congrArg Listener.log state).trans issued
  · refine .inr ⟨?_, passed p replies s⟩
    simp only [passed] at probe
    rcases probe with ⟨-, msg, state⟩ | ⟨within, -⟩
    · cases issued.symm.trans (congrArg (·.2.log) state)
    · exact within

/-- A call of a method that makes an ioctl. -/
inductive SupervisorCall
  | recv
  | ask (c : RequestCall)

/-- The call, with the replies to its attempts; `filled` is the structure that RECV fills in. -/
def SupervisorCall.perform (p : Platform) (replies : IoctlReplies) (filled : SeccompNotif) :
    SupervisorCall → Py Listener CallValue
  | .recv => do return .notification (← Listener.recv p replies filled)
  | .ask c => c.perform p replies

def SupervisorCall.Within : SupervisorCall → Prop
  | .recv => True
  | .ask c => c.Within maxFd

def SupervisorCall.request : SupervisorCall → IoctlRequest
  | .recv => .recv
  | .ask c => c.request

def SupervisorCall.value (filled : SeccompNotif) :
    SupervisorCall → Except PyExc Int → Except PyExc CallValue
  | .recv, result => result.map fun _ => .notification filled.notification
  | .ask c, result => c.value result

theorem SupervisorCall.perform_cases (c : SupervisorCall) (p : Platform) (replies : IoctlReplies)
    (filled : SeccompNotif) (s : Listener) :
    (¬ c.Within ∧ ∃ msg, (c.perform p replies filled).call s = (.error (.valueError msg), s)) ∨
      (c.Within ∧ (c.perform p replies filled).call s =
        (c.value filled ((Listener.ioctl p c.request replies).call s).1,
          ((Listener.ioctl p c.request replies).call s).2)) := by
  cases c with
  | recv =>
    refine .inr ⟨trivial, ?_⟩
    rw [SupervisorCall.perform, Py.call_map, Listener.call_recv]
    simp only [SupervisorCall.value, SupervisorCall.request]
    rcases (Listener.ioctl p .recv replies).call s with ⟨e | n, s'⟩
    · rfl
    · rfl
  | ask c => exact c.perform_cases p replies s

/-! ## The attempts of a call -/

/-- An attempt of an ioctl and the kernel's reply to it. -/
abbrev Attempt := IoctlRequest × Reply

/-- The replies alone, as the model's methods take them. -/
def Attempt.replies (attempts : List Attempt) : IoctlReplies := attempts.map fun a => .ok a.2

/-- What the attempts leave in the log. -/
def Attempt.issued (attempts : List Attempt) : List FdEvent := attempts.map fun a => .ioctl a.1

/-- The reply of an attempt that a signal interrupted. -/
def Reply.interrupted : Reply := ⟨-1, eintr⟩

/-- Every attempt but the last was interrupted; the last decides the result, unless it was
interrupted as well, or there was none. -/
inductive Settles (request : IoctlRequest) : List Attempt → Except PyExc Int → Prop
  | unserved {n : Nat} {e : PyExc} (other : e ≠ .seccompError enoent) :
    Settles request (List.replicate n (request, .interrupted)) (.error e)
  | served {n : Nat} {r : Reply} (decisive : r ≠ .interrupted) :
    Settles request (List.replicate n (request, .interrupted) ++ [(request, r)]) r.outcome

section Attempts

variable {p : Platform} {request : IoctlRequest} {attempts : List Attempt}
  {result : Except PyExc Int} {s s' : Listener}

theorem Settles.interrupted (settles : Settles request attempts result) :
    Settles request ((request, .interrupted) :: attempts) result := by
  cases settles with
  | @unserved n e other => exact .unserved (n := n + 1) other
  | @served n r decisive => exact .served (n := n + 1) decisive

theorem callLoop_onlyIoctls (request : IoctlRequest) (replies : IoctlReplies) :
    (callLoop (replies.map (ioctlAttempt request))).Within OnlyIoctls := by
  apply callLoop_within onlyIoctls_steady
  intro attempt mem
  obtain ⟨reply, -, rfl⟩ := List.mem_map.mp mem
  refine onlyIoctls_steady.bind (fun s => ?_) fun _ => onlyIoctls_steady.lift _
  exact ⟨rfl, rfl, [request], rfl⟩

/-- The log behind the first attempt. -/
theorem issued_cons {log rest : List FdEvent} {a : Attempt}
    (issued : (log ++ [.ioctl request]) ++ rest = log ++ Attempt.issued (a :: attempts)) :
    a.1 = request ∧ rest = Attempt.issued attempts := by
  rw [List.append_assoc, List.append_cancel_left_eq] at issued
  obtain ⟨first, rest⟩ := List.cons.inj issued
  exact ⟨(FdEvent.ioctl.inj first).symm, rest⟩

theorem callLoop_settles
    (ran : (callLoop ((Attempt.replies attempts).map (ioctlAttempt request))).call s = (result, s'))
    (issued : s'.log = s.log ++ Attempt.issued attempts) : Settles request attempts result := by
  induction attempts generalizing s with
  | nil =>
    cases ran
    exact .unserved (n := 0) (by simp)
  | cons a rest ih =>
    obtain ⟨asked, reply⟩ := a
    have attempt : (ioctlAttempt request (.ok reply)).call s =
        (.ok reply, { s with log := s.log ++ [.ioctl request] }) := rfl
    rw [Attempt.replies, List.map_cons, List.map_cons, callLoop, Py.call_bind_ok attempt] at ran
    by_cases done : reply.ret ≠ -1
    · rw [if_pos done] at ran
      cases ran
      obtain ⟨rfl, none⟩ := issued_cons ((List.append_nil _).trans issued)
      obtain rfl := List.map_eq_nil_iff.mp none.symm
      have decided : Settles asked [(asked, reply)] reply.outcome :=
        .served (n := 0) fun is => done (by rw [is]; rfl)
      rw [Reply.outcome, if_pos done] at decided
      exact decided
    · rw [if_neg done] at ran
      by_cases signal : reply.errno = eintr
      · rw [if_pos signal] at ran
        obtain ⟨-, -, later, log⟩ := callLoop_onlyIoctls request (Attempt.replies rest)
          { s with log := s.log ++ [.ioctl request] }
        rw [Attempt.replies, ran] at log
        obtain ⟨rfl, same⟩ := issued_cons (log.symm.trans issued)
        obtain rfl : reply = .interrupted := by
          obtain ⟨ret, errno⟩ := reply
          cases not_not.mp done
          cases signal
          rfl
        refine (ih ran ?_).interrupted
        rw [log, same]
      · rw [if_neg signal] at ran
        cases ran
        obtain ⟨rfl, none⟩ := issued_cons ((List.append_nil _).trans issued)
        obtain rfl := List.map_eq_nil_iff.mp none.symm
        have decided : Settles asked [(asked, reply)] reply.outcome :=
          .served (n := 0) fun is => signal (by rw [is]; rfl)
        rw [Reply.outcome, if_neg done] at decided
        exact decided

theorem Listener.ioctl_settles
    (ran : (Listener.ioctl p request (Attempt.replies attempts)).call s = (result, s'))
    (issued : s'.log = s.log ++ Attempt.issued attempts) : Settles request attempts result := by
  have silent : ∀ e, (.error e, s) = (result, s') → e ≠ .seccompError enoent →
      Settles request attempts result := by
    intro e is other
    cases is
    obtain rfl := List.map_eq_nil_iff.mp (List.self_eq_append_right.mp issued)
    exact .unserved (n := 0) other
  unfold Listener.ioctl Seccompy.ioctl call at ran
  rw [Py.call_bind_ok (Py.call_read s), Py.call_raiseIf_bind] at ran
  by_cases closed : s.closed = true
  · rw [if_pos closed] at ran
    exact silent _ ran (by simp)
  · rw [if_neg closed] at ran
    cases libc : getLibc p with
    | error e =>
      rw [libc, Py.call_bind_error (Py.call_lift _ s)] at ran
      refine silent e ran ?_
      unfold getLibc at libc
      split at libc
      · cases libc
      · cases libc
        simp
    | ok _ =>
      rw [libc, Py.call_bind_ok (Py.call_lift _ s)] at ran
      exact callLoop_settles ran issued

/-- A call is refused before any attempt, or goes on to its ioctl. -/
theorem SupervisorCall.call_settles {c : SupervisorCall} {filled : SeccompNotif}
    {result : Except PyExc CallValue}
    (ran : (c.perform p (Attempt.replies attempts) filled).call s = (result, s'))
    (issued : s'.log = s.log ++ Attempt.issued attempts) :
    (¬ c.Within ∧ attempts = [] ∧ ∃ msg, result = .error (.valueError msg)) ∨
      (c.Within ∧ ∃ answer, Settles c.request attempts answer ∧ result = c.value filled answer) := by
  rcases c.perform_cases p (Attempt.replies attempts) filled s with ⟨outside, msg, refused⟩ |
    ⟨within, passed⟩
  · rw [refused] at ran
    cases ran
    exact .inl ⟨outside, List.map_eq_nil_iff.mp (List.self_eq_append_right.mp issued), msg, rfl⟩
  · rcases ioctl : (Listener.ioctl p c.request (Attempt.replies attempts)).call s with ⟨answer, after⟩
    rw [passed, ioctl] at ran
    cases ran
    exact .inr ⟨within, answer, Listener.ioctl_settles ioctl issued, rfl⟩

end Attempts

/-! ## The system -/

/-- What a supervisor deals with, over any states `σ`. -/
structure NotifKernel (σ : Type) where
  /-- What happens without an ioctl of the supervisor: calls of the targets, signals, exits,
  other descriptors that share the notifications. -/
  move : σ → σ → Prop
  /-- An attempt of an ioctl, with the structure a RECV fills in, and the reply to it. -/
  serve : σ → IoctlRequest → SeccompNotif → Reply → σ → Prop

/-- A call of the supervisor, with the structure that was there to be filled in. -/
structure Exchange where
  call : SupervisorCall
  filled : SeccompNotif
  attempts : List Attempt
  result : Except PyExc CallValue

variable {σ : Type}

/-- The kernel, the listener, and the calls made so far, oldest first. -/
structure Supervision (σ : Type) where
  kernel : σ
  listener : Listener
  exchanges : List Exchange

/-- Attempts one after another, with anything the kernel does by itself before each. -/
inductive NotifKernel.Serves (K : NotifKernel σ) (filled : SeccompNotif) :
    σ → List Attempt → σ → Prop
  | nil {k : σ} : K.Serves filled k [] k
  | cons {k k₁ k₂ k₃ : σ} {request : IoctlRequest} {reply : Reply} {attempts : List Attempt}
    (moved : Relation.ReflTransGen K.move k k₁) (serve : K.serve k₁ request filled reply k₂)
    (rest : K.Serves filled k₂ attempts k₃) : K.Serves filled k ((request, reply) :: attempts) k₃

/-- Everything that can happen next: the kernel moves, the supervisor makes a call, or it
closes the listener. -/
inductive Supervision.Step (K : NotifKernel σ) (p : Platform) (w : Supervision σ) :
    Supervision σ → Prop
  | move {k : σ} (moved : K.move w.kernel k) : Step K p w { w with kernel := k }
  | call {e : Exchange} {s : Listener} {k : σ}
    (ran : (e.call.perform p (Attempt.replies e.attempts) e.filled).call w.listener = (e.result, s))
    (issued : s.log = w.listener.log ++ Attempt.issued e.attempts)
    (serves : K.Serves e.filled w.kernel e.attempts k) :
    Step K p w ⟨k, s, w.exchanges ++ [e]⟩
  | close {op : ListenerOp} {result : Except PyExc Unit} {s : Listener}
    (closes : op.isClose = true) (ran : (op.body p).call w.listener = (result, s)) :
    Step K p w { w with listener := s }

/-- After the construction of a listener on a descriptor. -/
def Supervision.start (k : σ) (fd : Int) : Supervision σ := ⟨k, ⟨fd, false, []⟩, []⟩

def Supervision.Reachable (K : NotifKernel σ) (p : Platform) (k : σ) (fd : Int)
    (w : Supervision σ) : Prop :=
  Relation.ReflTransGen (Supervision.Step K p) (.start k fd) w

/-- The notification a request refers back to. -/
def IoctlRequest.cookie? : IoctlRequest → Option U64
  | .send resp => some resp.id
  | .idValid cookie => some cookie
  | .addfd req => some req.id
  | _ => none

/-- The request completes the notification. -/
def IoctlRequest.completes : IoctlRequest → Bool
  | .send _ => true
  | .addfd req => req.flags.getLsbD 1
  | _ => false

/-! ## One for one -/

/-- The kernel replied with success. -/
def Attempt.Done (a : Attempt) : Prop := a.2.ret ≠ -1

instance : DecidablePred Attempt.Done := fun _ => inferInstanceAs (Decidable (_ ≠ _))

/-- The request of a call that returned; a `valid` that returned False has asked in vain. -/
def Exchange.delivered? (e : Exchange) : Option IoctlRequest :=
  match e.result with
  | .error _ | .ok (.truth false) => none
  | .ok _ => some e.call.request

/-- The structure that the kernel has filled in. -/
def Exchange.written? (e : Exchange) : Option SeccompNotif :=
  if ∃ a ∈ e.attempts, a.Done ∧ a.1 = .recv then some e.filled else none

def Exchange.notification? (e : Exchange) : Option Notification :=
  match e.result with
  | .ok (.notification n) => some n
  | _ => none

/-- What one call makes of its attempts. -/
structure Exchange.Exact (e : Exchange) : Prop where
  delivered : (e.attempts.filter Attempt.Done).map Prod.fst = e.delivered?.toList
  received : e.notification? = e.written?.map (·.notification)
  own : ∀ a ∈ e.attempts, a.1 = e.call.request ∧ e.call.Within

theorem SupervisorCall.value_ok (c : SupervisorCall) (filled : SeccompNotif) (n : Int) :
    ∃ v, c.value filled (.ok n) = .ok v ∧ v ≠ .truth false ∧
      ((c.request = .recv ∧ v = .notification filled.notification) ∨
        (c.request ≠ .recv ∧ ∀ m, v ≠ .notification m)) := by
  cases c with
  | recv => exact ⟨_, rfl, nofun, .inl ⟨rfl, rfl⟩⟩
  | ask c =>
    cases c with
    | valid notifId => exact ⟨.truth true, rfl, by decide, .inr ⟨nofun, nofun⟩⟩
    | respond notifId error val flags => exact ⟨.none, rfl, by decide, .inr ⟨nofun, nofun⟩⟩
    | addfd notifId localFd flags newfd newfdFlags =>
      exact ⟨.fd n, rfl, nofun, .inr ⟨nofun, nofun⟩⟩
    | setFlags flags => exact ⟨.none, rfl, by decide, .inr ⟨nofun, nofun⟩⟩

theorem SupervisorCall.value_error (c : SupervisorCall) (filled : SeccompNotif) (e : PyExc) :
    c.value filled (.error e) = .error e ∨
      e = .seccompError enoent ∧ c.value filled (.error e) = .ok (.truth false) := by
  cases c with
  | recv => exact .inl rfl
  | ask c =>
    cases c with
    | valid notifId =>
      by_cases gone : e = .seccompError enoent
      · exact .inr ⟨gone, if_pos gone⟩
      · exact .inl (if_neg gone)
    | respond notifId error val flags => exact .inl rfl
    | addfd notifId localFd flags newfd newfdFlags => exact .inl rfl
    | setFlags flags => exact .inl rfl

section Exact

variable {e : Exchange}

theorem interrupted_undone (request : IoctlRequest) (n : Nat) :
    ∀ a ∈ List.replicate n (request, Reply.interrupted), ¬ Attempt.Done a := by
  intro a mem done
  rw [List.eq_of_mem_replicate mem] at done
  exact done rfl

/-- A call with nothing done raises, or returns that a notification is gone. -/
theorem Exchange.exact_undone (exc : PyExc) (undone : ∀ a ∈ e.attempts, ¬ Attempt.Done a)
    (own : ∀ a ∈ e.attempts, a.1 = e.call.request ∧ e.call.Within)
    (silent : e.result = .error exc ∨ e.result = .ok (.truth false)) : e.Exact := by
  have none : e.attempts.filter Attempt.Done = [] := by
    rw [List.filter_eq_nil_iff]
    intro a mem
    simpa using undone a mem
  have unwritten : e.written? = .none :=
    if_neg fun given => by
      obtain ⟨a, mem, done, -⟩ := given
      exact undone a mem done
  refine ⟨?_, ?_, own⟩
  · rcases silent with is | is <;> simp [none, Exchange.delivered?, is]
  · rcases silent with is | is <;> simp [unwritten, Exchange.notification?, is]

/-- A call with one attempt done returns. -/
theorem Exchange.exact_done {r : Reply} {n : Int}
    (one : e.attempts.filter Attempt.Done = [(e.call.request, r)])
    (own : ∀ a ∈ e.attempts, a.1 = e.call.request ∧ e.call.Within)
    (value : e.result = e.call.value e.filled (.ok n)) : e.Exact := by
  obtain ⟨v, is, present, shown⟩ := e.call.value_ok e.filled n
  rw [is] at value
  have written : e.written? = if e.call.request = .recv then some e.filled else none := by
    have done := List.mem_filter.mp (one.symm ▸ List.mem_singleton_self _)
    unfold Exchange.written?
    congr 1
    apply propext
    constructor
    · intro given
      obtain ⟨a, mem, -, recv⟩ := given
      exact (own a mem).1.symm.trans recv
    · intro recv
      exact ⟨_, done.1, of_decide_eq_true done.2, recv⟩
  refine ⟨?_, ?_, own⟩
  · have returned : e.delivered? = some e.call.request := by
      rw [Exchange.delivered?, value]
      split
      · next absurd => cases absurd
      · next absurd => exact (present (Except.ok.inj absurd)).elim
      · rfl
    rw [one, returned]
    rfl
  · rw [written, Exchange.notification?, value]
    rcases shown with ⟨recv, rfl⟩ | ⟨other, hidden⟩
    · rw [if_pos recv]
      rfl
    · rw [if_neg other]
      split
      · next m is => exact (hidden m (Except.ok.inj is)).elim
      · rfl

theorem Settles.own {request : IoctlRequest} {attempts : List Attempt} {answer : Except PyExc Int}
    (settles : Settles request attempts answer) : ∀ a ∈ attempts, a.1 = request := by
  intro a mem
  cases settles with
  | unserved _ => rw [List.eq_of_mem_replicate mem]
  | served _ =>
    rcases List.mem_append.mp mem with mem | mem
    · rw [List.eq_of_mem_replicate mem]
    · rw [List.mem_singleton.mp mem]

theorem Exchange.exact_of_ran {p : Platform} {s s' : Listener}
    (ran : (e.call.perform p (Attempt.replies e.attempts) e.filled).call s = (e.result, s'))
    (issued : s'.log = s.log ++ Attempt.issued e.attempts) : e.Exact := by
  rcases SupervisorCall.call_settles ran issued with ⟨-, none, msg, refused⟩ |
    ⟨within, answer, settles, value⟩
  · refine Exchange.exact_undone _ ?_ ?_ (.inl refused)
    · simp [none]
    · simp [none]
  · have own : ∀ a ∈ e.attempts, a.1 = e.call.request ∧ e.call.Within :=
      fun a mem => ⟨settles.own a mem, within⟩
    generalize shape : e.attempts = attempts at settles
    cases settles with
    | @unserved n exc other =>
      refine Exchange.exact_undone exc ?_ own (.inl ?_)
      · rw [shape]
        exact interrupted_undone _ n
      · rw [value]
        exact (e.call.value_error e.filled exc).resolve_right fun given => other given.1
    | @served n r decisive =>
      by_cases failed : r.ret = -1
      · rw [Reply.outcome, if_neg (not_not.mpr failed)] at value
        refine Exchange.exact_undone (raiseErrno r.errno) ?_ own ?_
        · rw [shape]
          intro a mem
          rcases List.mem_append.mp mem with mem | mem
          · exact interrupted_undone _ n a mem
          · rw [List.mem_singleton.mp mem]
            exact not_not.mpr failed
        · rw [value]
          exact (e.call.value_error e.filled _).imp_right And.right
      · rw [Reply.outcome, if_pos failed] at value
        refine Exchange.exact_done (r := r) ?_ own value
        have done : Attempt.Done (e.call.request, r) := failed
        rw [shape, List.filter_append, List.filter_eq_nil_iff.mpr]
        · simp [done]
        · intro a mem
          simpa using interrupted_undone _ n a mem

end Exact

/-- What holds of a call that ran holds of every exchange. -/
theorem Supervision.each_step {K : NotifKernel σ} {p : Platform} {P : Exchange → Prop}
    (one : ∀ {e : Exchange} {s s' : Listener},
      (e.call.perform p (Attempt.replies e.attempts) e.filled).call s = (e.result, s') →
      s'.log = s.log ++ Attempt.issued e.attempts → P e)
    {w w' : Supervision σ} (each : ∀ e ∈ w.exchanges, P e) (step : w.Step K p w') :
    ∀ e ∈ w'.exchanges, P e := by
  cases step with
  | move moved => exact each
  | close closes ran => exact each
  | call ran issued serves =>
    intro e mem
    rcases List.mem_append.mp mem with mem | mem
    · exact each e mem
    · cases List.mem_singleton.mp mem
      exact one ran issued

theorem Supervision.Reachable.each {K : NotifKernel σ} {p : Platform} {P : Exchange → Prop}
    (one : ∀ {e : Exchange} {s s' : Listener},
      (e.call.perform p (Attempt.replies e.attempts) e.filled).call s = (e.result, s') →
      s'.log = s.log ++ Attempt.issued e.attempts → P e)
    {k : σ} {fd : Int} {w : Supervision σ} (reachable : w.Reachable K p k fd) :
    ∀ e ∈ w.exchanges, P e := by
  induction reachable with
  | refl => exact List.forall_mem_nil _
  | tail _ step ih => exact Supervision.each_step one ih step

/-- Whatever the kernel does, and whatever interrupts the calls: the attempts to which it
replied with success are, one for one and in order, the requests of the calls that returned,
so that no success is lost, doubled or reported as a failure; the notifications that `recv`
returned are, one for one and in order, the structures that the kernel filled in; and every
attempt carries the request of its call, whose arguments are in range. -/
theorem requests_delivered_once (K : NotifKernel σ) (p : Platform) (k : σ) (fd : Int)
    (w : Supervision σ) (reachable : w.Reachable K p k fd) :
    ((w.exchanges.flatMap (·.attempts)).filter Attempt.Done).map Prod.fst =
        w.exchanges.filterMap Exchange.delivered? ∧
      w.exchanges.filterMap Exchange.notification? =
        (w.exchanges.filterMap Exchange.written?).map SeccompNotif.notification ∧
      ∀ e ∈ w.exchanges, ∀ a ∈ e.attempts, a.1 = e.call.request ∧ e.call.Within := by
  have exact := reachable.each Exchange.exact_of_ran
  refine ⟨?_, ?_, fun e mem => (exact e mem).own⟩
  · rw [List.filter_flatMap, List.map_flatMap, List.filterMap_eq_flatMap_toList]
    exact List.flatMap_congr fun e mem => (exact e mem).delivered
  · rw [List.map_filterMap]
    exact List.filterMap_congr fun e mem => (exact e mem).received

/-! ## An example -/

/-- A kernel for examples, which keeps a book of the notifications.  An attempt that fails may
have completed one all the same. -/
def bookKernel : NotifKernel (U64 → Phase) where
  move k k' := ∃ id, k' = Function.update k id .ended
  serve k request filled reply k' :=
    if reply.ret = -1 then
      (k' = k ∨ ∃ id, request.cookie? = some id ∧ k' = Function.update k id .ended) ∧
        (reply.errno = enoent → ∀ id, request.cookie? = some id → k id ≠ .held)
    else match request.cookie? with
      | some id => k id = .held ∧ k' = if request.completes then Function.update k id .ended else k
      | none =>
        if request = .recv then k filled.id = .fresh ∧ k' = Function.update k filled.id .held
        else k' = k

/-- A `mount` of an x86_64 target. -/
def mountNotif : SeccompNotif := ⟨7, 100, 0, ⟨165, 0xC000003E, 0, fun _ => 0⟩⟩

/-- It is received, after an interruption, and refused with EPERM; then it is gone. -/
def mountExchanges : List Exchange :=
  [⟨.recv, mountNotif, [(.recv, .interrupted), (.recv, ⟨0, 0⟩)],
      .ok (.notification mountNotif.notification)⟩,
    ⟨.ask (.respond 7 1 0 0), mountNotif, [(.send ⟨7, 0, -1, 0⟩, ⟨0, 0⟩)], .ok .none⟩,
    ⟨.ask (.valid 7), mountNotif, [(.idValid 7, ⟨-1, enoent⟩)], .ok (.truth false)⟩]

theorem mount_reachable : ∃ w w' : Supervision (U64 → Phase),
    (w.Reachable bookKernel ⟨"x86_64", true⟩ (fun _ => .fresh) 5 ∧
      w.exchanges = mountExchanges.take 1 ∧ w.kernel 7 = .held) ∧
    w'.Reachable bookKernel ⟨"x86_64", true⟩ (fun _ => .fresh) 5 ∧ w'.exchanges = mountExchanges ∧
      w'.listener.closed = true := by
  let fresh : U64 → Phase := fun _ => .fresh
  let held : U64 → Phase := Function.update fresh 7 .held
  let ended : U64 → Phase := Function.update held 7 .ended
  have signal : bookKernel.serve fresh .recv mountNotif .interrupted fresh :=
    ⟨.inl rfl, fun is => by cases is⟩
  have taken : bookKernel.serve fresh .recv mountNotif ⟨0, 0⟩ held := ⟨rfl, rfl⟩
  have start : (Supervision.start fresh 5).Step bookKernel ⟨"x86_64", true⟩
      ⟨held, ⟨5, false, [.ioctl .recv, .ioctl .recv]⟩, mountExchanges.take 1⟩ := by
    exact .call (e := mountExchanges[0]) rfl rfl (.cons .refl signal (.cons .refl taken .nil))
  have answered : Supervision.Step bookKernel ⟨"x86_64", true⟩
      ⟨held, ⟨5, false, [.ioctl .recv, .ioctl .recv]⟩, mountExchanges.take 1⟩
      ⟨ended, ⟨5, false, [.ioctl .recv, .ioctl .recv, .ioctl (.send ⟨7, 0, -1, 0⟩)]⟩,
        mountExchanges.take 2⟩ := by
    refine .call (e := mountExchanges[1]) rfl rfl (.cons .refl ?_ .nil)
    exact ⟨rfl, rfl⟩
  have asked : Supervision.Step bookKernel ⟨"x86_64", true⟩
      ⟨ended, ⟨5, false, [.ioctl .recv, .ioctl .recv, .ioctl (.send ⟨7, 0, -1, 0⟩)]⟩,
        mountExchanges.take 2⟩
      ⟨ended, ⟨5, false, [.ioctl .recv, .ioctl .recv, .ioctl (.send ⟨7, 0, -1, 0⟩),
        .ioctl (.idValid 7)]⟩, mountExchanges⟩ := by
    refine .call (e := mountExchanges[2]) rfl rfl (.cons .refl ⟨.inl rfl, ?_⟩ .nil)
    intro _ id names
    cases names
    exact nofun
  have closes : (ListenerOp.close none).isClose = true := rfl
  exact ⟨_, _, ⟨.single start, rfl, rfl⟩, (((Relation.ReflTransGen.single start).tail
    answered).tail asked).tail (.close closes rfl), rfl, rfl⟩

theorem requests_delivered_once_mount : ∃ w : Supervision (U64 → Phase),
    w.Reachable bookKernel ⟨"x86_64", true⟩ (fun _ => .fresh) 5 ∧ w.exchanges = mountExchanges ∧
      ((w.exchanges.flatMap (·.attempts)).filter Attempt.Done).map Prod.fst =
        [.recv, .send ⟨7, 0, -1, 0⟩] ∧
      w.exchanges.filterMap Exchange.notification? =
        (w.exchanges.filterMap Exchange.written?).map SeccompNotif.notification := by
  obtain ⟨-, w, -, reachable, exchanges, -⟩ := mount_reachable
  obtain ⟨delivered, received, -⟩ := requests_delivered_once bookKernel _ _ _ w reachable
  refine ⟨w, reachable, exchanges, delivered.trans ?_, received⟩
  rw [exchanges]
  rfl

end Seccompy
