import Seccompy.Notify.Ownership

/-!
# Requests on the notification descriptor

`respond`, `addfd`, `valid` and `set_flags` take integers of any size and store them in
the fixed-width fields of a structure, which would wrap silently.  Their checks let
through exactly the arguments that fit and go together (`RequestCall.call_cases`), so a
request that reaches the kernel carries the arguments unaltered (`requests_unaltered`).
-/

namespace Seccompy

open Lib Bpf

/-! ## Calls and what they may ask for -/

/-- A call of one of the four methods. -/
inductive RequestCall
  | respond (notifId error val flags : Int)
  | addfd (notifId localFd flags newfd newfdFlags : Int)
  | valid (notifId : Int)
  | setFlags (flags : Int)

def RequestCall.op (replies : IoctlReplies) : RequestCall → ListenerOp
  | .respond notifId error val flags => .respond notifId error val flags replies
  | .addfd notifId localFd flags newfd newfdFlags =>
    .addfd notifId localFd flags newfd newfdFlags replies
  | .valid notifId => .valid notifId replies
  | .setFlags flags => .setFlags flags replies

/-- The ranges of the arguments, with descriptors up to `fdMax`, and the constraints
between them: CONTINUE goes with no error and no value, a descriptor number with SETFD. -/
def RequestCall.Within (fdMax : Int) : RequestCall → Prop
  | .respond notifId error val flags =>
    (0 ≤ notifId ∧ notifId < 2 ^ 64) ∧ (0 ≤ error ∧ error ≤ 4095) ∧
      (-2 ^ 63 ≤ val ∧ val < 2 ^ 63) ∧ (0 ≤ flags ∧ flags < 2 ^ 32) ∧
      (flags % 2 = 1 → error = 0 ∧ val = 0)
  | .addfd notifId localFd flags newfd newfdFlags =>
    (0 ≤ notifId ∧ notifId < 2 ^ 64) ∧ (0 ≤ localFd ∧ localFd ≤ fdMax) ∧
      (0 ≤ newfd ∧ newfd ≤ fdMax) ∧ (0 ≤ flags ∧ flags < 2 ^ 32) ∧
      (flags % 2 = 0 → newfd = 0) ∧ (newfdFlags = 0 ∨ newfdFlags = Listener.oCloexec)
  | .valid notifId => 0 ≤ notifId ∧ notifId < 2 ^ 64
  | .setFlags flags => 0 ≤ flags ∧ flags < 2 ^ 64

/-- The largest descriptor number. -/
def maxFd : Int := 0x7FFFFFFF

/-- The structure a call fills in. -/
def RequestCall.request : RequestCall → IoctlRequest
  | .respond notifId error val flags => .send ⟨BitVec.ofInt 64 notifId, BitVec.ofInt 64 val,
      BitVec.ofInt 32 (-error), BitVec.ofInt 32 flags⟩
  | .addfd notifId localFd flags newfd newfdFlags => .addfd ⟨BitVec.ofInt 64 notifId,
      BitVec.ofInt 32 flags, BitVec.ofInt 32 localFd, BitVec.ofInt 32 newfd,
      BitVec.ofInt 32 newfdFlags⟩
  | .valid notifId => .idValid (BitVec.ofInt 64 notifId)
  | .setFlags flags => .setFlags (BitVec.ofInt 64 flags)

/-- The structure decodes, field by field, to the arguments of the call. -/
def IoctlRequest.Carries : IoctlRequest → RequestCall → Prop
  | .send resp, .respond notifId error val flags =>
    (resp.id.toNat : Int) = notifId ∧ resp.val.toInt = val ∧ resp.error.toInt = -error ∧
      (resp.flags.toNat : Int) = flags
  | .addfd req, .addfd notifId localFd flags newfd newfdFlags =>
    (req.id.toNat : Int) = notifId ∧ (req.srcfd.toNat : Int) = localFd ∧
      (req.flags.toNat : Int) = flags ∧ (req.newfd.toNat : Int) = newfd ∧
      (req.newfdFlags.toNat : Int) = newfdFlags
  | .idValid cookie, .valid notifId => (cookie.toNat : Int) = notifId
  | .setFlags bits, .setFlags flags => (bits.toNat : Int) = flags
  | _, _ => False

/-- What the kernel is never sent otherwise: a response with CONTINUE is empty, an error
is a negated errno, a descriptor number comes with SETFD, and O_CLOEXEC is the only flag
of a new descriptor. -/
def IoctlRequest.Sound : IoctlRequest → Prop
  | .send resp => (-4095 ≤ resp.error.toInt ∧ resp.error.toInt ≤ 0) ∧
      (resp.flags.getLsbD 0 = true → resp.error = 0 ∧ resp.val = 0)
  | .addfd req => (req.flags.getLsbD 0 = false → req.newfd = 0) ∧
      (req.newfdFlags = 0 ∨ req.newfdFlags = BitVec.ofInt 32 Listener.oCloexec)
  | _ => True

/-! ## What the checks let through -/

theorem RequestCall.carries {c : RequestCall} (within : c.Within maxFd) : c.request.Carries c := by
  cases c with
  | respond notifId error val flags =>
    obtain ⟨id, errno, value, word, -⟩ := within
    refine ⟨toNat_ofInt_fits id.1 id.2, ?_, ?_, toNat_ofInt_fits word.1 word.2⟩
    · exact BitVec.toInt_ofInt_eq_self (by decide) value.1 value.2
    · exact BitVec.toInt_ofInt_eq_self (by decide) (by omega) (by omega)
  | addfd notifId localFd flags newfd newfdFlags =>
    obtain ⟨id, src, dst, word, -, cloexec⟩ := within
    simp only [maxFd] at src dst
    refine ⟨toNat_ofInt_fits id.1 id.2, toNat_ofInt_fits src.1 (by omega),
      toNat_ofInt_fits word.1 word.2, toNat_ofInt_fits dst.1 (by omega), ?_⟩
    rcases cloexec with rfl | rfl
    · rfl
    · rfl
  | valid notifId => exact toNat_ofInt_fits within.1 within.2
  | setFlags flags => exact toNat_ofInt_fits within.1 within.2

theorem getLsbD_zero_ofInt {n : Int} (least : 0 ≤ n) (most : n < 2 ^ 32) :
    (BitVec.ofInt 32 n).getLsbD 0 = decide (n % 2 = 1) := by
  have word := toNat_ofInt_fits least most
  rw [← BitVec.testBit_toNat, Nat.testBit_zero]
  congr 1
  apply propext
  omega

theorem RequestCall.sound {c : RequestCall} (within : c.Within maxFd) : c.request.Sound := by
  cases c with
  | respond notifId error val flags =>
    obtain ⟨-, errno, value, word, empty⟩ := within
    have negated : (BitVec.ofInt 32 (-error)).toInt = -error :=
      BitVec.toInt_ofInt_eq_self (by decide) (by omega) (by omega)
    refine ⟨?_, fun bit => ?_⟩
    · rw [negated]
      omega
    · rw [getLsbD_zero_ofInt word.1 word.2] at bit
      obtain ⟨rfl, rfl⟩ := empty (of_decide_eq_true bit)
      exact ⟨rfl, rfl⟩
  | addfd notifId localFd flags newfd newfdFlags =>
    obtain ⟨-, -, -, word, unset, cloexec⟩ := within
    refine ⟨fun bit => ?_, ?_⟩
    · rw [getLsbD_zero_ofInt word.1 word.2] at bit
      have clear := of_decide_eq_false bit
      rw [unset (by omega)]
      rfl
    · rcases cloexec with rfl | rfl
      · exact .inl rfl
      · exact .inr rfl
  | valid notifId => trivial
  | setFlags flags => trivial

/-! ## The calls -/

section Calls

variable {p : Platform} {replies : IoctlReplies} {s : Listener}

theorem call_checkId_bind {β : Type} (notifId : Int) (f : Unit → Py Listener β) :
    (Py.lift (Listener.checkId notifId) >>= f).call s =
      if ¬ (0 ≤ notifId ∧ notifId ≤ 0xFFFFFFFFFFFFFFFF) then
        (.error (.valueError s!"notification id out of range: {notifId}"), s)
      else (f ()).call s := by
  rw [Py.call_bind, Py.call_lift, Listener.checkId]
  by_cases range : 0 ≤ notifId ∧ notifId ≤ 0xFFFFFFFFFFFFFFFF
  · rw [if_pos range, if_neg (not_not.mpr range)]
  · rw [if_neg range, if_pos range]

/-- The call was refused before anything was done, or got through its checks and went
on to the ioctl. -/
def Checked (p : Platform) (replies : IoctlReplies) (s : Listener) (c : RequestCall)
    (outcome : Except PyExc Unit × Listener) : Prop :=
  (¬ c.Within maxFd ∧ ∃ msg, outcome = (.error (.valueError msg), s)) ∨
    (c.Within maxFd ∧ outcome.2 = ((Listener.ioctl p c.request replies).call s).2 ∧
      ∀ e, ((Listener.ioctl p c.request replies).call s).1 = .error e →
        e ≠ .seccompError enoent → outcome.1 = .error e)

/-- One check of a call. -/
theorem Checked.check {c : RequestCall} {fails : Prop} [Decidable fails] {msg : String}
    {rest : Except PyExc Unit × Listener} (refuses : fails → ¬ c.Within maxFd)
    (passes : ¬ fails → Checked p replies s c rest) :
    Checked p replies s c (if fails then (.error (.valueError msg), s) else rest) := by
  by_cases failed : fails
  · rw [if_pos failed]
    exact .inl ⟨refuses failed, msg, rfl⟩
  · rw [if_neg failed]
    exact passes failed

/-- The ioctl itself, with its result dropped. -/
theorem Checked.issue {c : RequestCall} (within : c.Within maxFd) :
    Checked p replies s c
      (((Listener.ioctl p c.request replies).call s).1.map fun _ => (),
        ((Listener.ioctl p c.request replies).call s).2) := by
  refine .inr ⟨within, rfl, fun e raised _ => ?_⟩
  rw [raised]
  rfl

theorem checked_respond (notifId error val flags : Int) :
    Checked p replies s (.respond notifId error val flags)
      ((Listener.respond p notifId error val flags replies).call s) := by
  unfold Listener.respond
  rw [call_checkId_bind, Py.call_raiseIf_bind, Py.call_raiseIf_bind, Py.call_raiseIf_bind,
    Py.call_raiseIf_bind, Py.call_discard]
  refine .check (fun bad within => bad ⟨within.1.1, by have := within.1.2; omega⟩) fun id => ?_
  refine .check (fun bad within => bad within.2.1) fun errno => ?_
  refine .check (fun bad within => bad ?_) fun value => ?_
  · obtain ⟨-, -, value, -⟩ := within
    omega
  refine .check (fun bad within => bad ?_) fun word => ?_
  · obtain ⟨-, -, -, word, -⟩ := within
    omega
  rw [not_not] at id errno value word
  have bit : flags.land Listener.respContinue = flags % 2 := land_one word.1
  rw [bit]
  refine .check (fun bad within => ?_) fun empty => ?_
  · obtain ⟨-, -, -, -, empty⟩ := within
    have := empty (by omega)
    omega
  · exact .issue ⟨by omega, errno, by omega, by omega, fun set => by omega⟩

theorem checked_addfd (notifId localFd flags newfd newfdFlags : Int) :
    Checked p replies s (.addfd notifId localFd flags newfd newfdFlags)
      ((ListenerOp.body p (.addfd notifId localFd flags newfd newfdFlags replies)).call s) := by
  unfold ListenerOp.body Listener.addfd
  simp only [bind_assoc]
  rw [call_checkId_bind, Py.call_raiseIf_bind, Py.call_raiseIf_bind, Py.call_raiseIf_bind,
    Py.call_raiseIf_bind, Py.call_raiseIf_bind, Py.call_discard]
  refine .check (fun bad within => bad ⟨within.1.1, by have := within.1.2; omega⟩) fun id => ?_
  refine .check (fun bad within => bad within.2.1) fun src => ?_
  refine .check (fun bad within => bad within.2.2.1) fun dst => ?_
  rw [not_not] at id src dst
  refine .check (fun bad within => ?_) fun set => ?_
  · obtain ⟨-, -, -, word, unset, -⟩ := within
    have bit : flags.land Listener.addfdSetfd = flags % 2 := land_one word.1
    rw [bit] at bad
    exact bad.1 (unset bad.2)
  refine .check (fun bad within => bad ?_) fun word => ?_
  · obtain ⟨-, -, -, word, -⟩ := within
    omega
  rw [not_not] at word
  have bit : flags.land Listener.addfdSetfd = flags % 2 := land_one word.1
  rw [bit] at set
  have cloexec := land_lnot_two_pow newfdFlags 19
  refine .check (fun bad within => bad (cloexec.mpr within.2.2.2.2.2)) fun known => ?_
  rw [not_not] at known
  exact .issue ⟨by omega, src, dst, by omega, by omega, cloexec.mp known⟩

theorem checked_valid (notifId : Int) :
    Checked p replies s (.valid notifId)
      ((ListenerOp.body p (.valid notifId replies)).call s) := by
  unfold ListenerOp.body Listener.valid
  simp only [bind_assoc]
  rw [call_checkId_bind, Py.call_discard, Py.call_rescue]
  refine .check (fun bad within => bad ⟨within.1, by have := within.2; omega⟩) fun id => ?_
  rw [not_not] at id
  have within : (RequestCall.valid notifId).Within maxFd := ⟨id.1, by omega⟩
  rcases ran : (Listener.ioctl p (.idValid (BitVec.ofInt 64 notifId)) replies).call s with
    ⟨e | n, s'⟩
  · rw [Py.call_bind_error ran]
    by_cases gone : e = .seccompError enoent
    · simp only [if_pos gone]
      refine .inr ⟨within, (congrArg Prod.snd ran).symm, fun e' raised other => ?_⟩
      cases raised.symm.trans (congrArg Prod.fst ran)
      exact absurd gone other
    · simp only [if_neg gone]
      refine .inr ⟨within, (congrArg Prod.snd ran).symm, fun e' raised _ => ?_⟩
      cases raised.symm.trans (congrArg Prod.fst ran)
      rfl
  · rw [Py.call_bind_ok ran]
    refine .inr ⟨within, (congrArg Prod.snd ran).symm, fun e' raised _ => ?_⟩
    cases raised.symm.trans (congrArg Prod.fst ran)

theorem checked_setFlags (flags : Int) :
    Checked p replies s (.setFlags flags) ((Listener.setFlags p flags replies).call s) := by
  unfold Listener.setFlags
  rw [Py.call_raiseIf_bind, Py.call_discard]
  refine .check (fun bad within => bad ⟨within.1, by have := within.2; omega⟩) fun word => ?_
  rw [not_not] at word
  exact .issue ⟨word.1, by omega⟩

theorem RequestCall.checked (p : Platform) (replies : IoctlReplies) (s : Listener)
    (c : RequestCall) : Checked p replies s c (((c.op replies).body p).call s) := by
  cases c with
  | respond notifId error val flags => exact checked_respond notifId error val flags
  | addfd notifId localFd flags newfd newfdFlags =>
    exact checked_addfd notifId localFd flags newfd newfdFlags
  | valid notifId => exact checked_valid notifId
  | setFlags flags => exact checked_setFlags flags

/-- One attempt of an ioctl. -/
def ioctlAttempt (request : IoctlRequest) (reply : Except PyExc Reply) : Py Listener Reply := do
  Py.update fun self => { self with log := self.log ++ [.ioctl request] }
  Py.lift reply

/-- The loop ends before its first attempt, or has issued the request some times. -/
theorem callLoop_issues (request : IoctlRequest) (replies : IoctlReplies) (s : Listener) :
    (callLoop (replies.map (ioctlAttempt request))).call s = (.error .keyboardInterrupt, s) ∨
    ∃ n, ((callLoop (replies.map (ioctlAttempt request))).call s).2.log =
      s.log ++ List.replicate (n + 1) (.ioctl request) := by
  induction replies generalizing s with
  | nil => exact .inl rfl
  | cons reply rest ih =>
    refine .inr ?_
    have attempt : (ioctlAttempt request reply).call s =
        (reply, { s with log := s.log ++ [.ioctl request] }) := rfl
    rw [List.map_cons, callLoop]
    cases reply with
    | error e =>
      rw [Py.call_bind_error attempt]
      exact ⟨0, rfl⟩
    | ok r =>
      rw [Py.call_bind_ok attempt]
      by_cases done : r.ret ≠ -1
      · rw [if_pos done]
        exact ⟨0, rfl⟩
      · rw [if_neg done]
        by_cases interrupted : r.errno = eintr
        · rw [if_pos interrupted]
          rcases ih { s with log := s.log ++ [.ioctl request] } with none | ⟨n, log⟩
          · rw [none]
            exact ⟨0, rfl⟩
          · refine ⟨n + 1, ?_⟩
            rw [log, List.append_assoc]
            rfl
        · rw [if_neg interrupted]
          exact ⟨0, rfl⟩

/-- An ioctl raises without being issued, or the listener is open and it is issued. -/
theorem Listener.ioctl_cases (p : Platform) (request : IoctlRequest) (replies : IoctlReplies)
    (s : Listener) :
    (∃ e, (Listener.ioctl p request replies).call s = (.error e, s) ∧
      e ≠ .seccompError enoent ∧ ∀ msg, e ≠ .valueError msg) ∨
    (s.closed = false ∧ ∃ n, ((Listener.ioctl p request replies).call s).2.log =
      s.log ++ List.replicate (n + 1) (.ioctl request)) := by
  unfold Listener.ioctl Seccompy.ioctl call
  rw [Py.call_bind_ok (Py.call_read s), Py.call_raiseIf_bind]
  cases closed : s.closed with
  | true =>
    refine .inl ⟨.runtimeError "listener is closed", rfl, ?_, ?_⟩
    · intro is
      cases is
    · intro msg is
      cases is
  | false =>
    rw [if_neg Bool.false_ne_true]
    cases libc : getLibc p with
    | error e =>
      rw [Py.call_bind_error (Py.call_lift _ s)]
      unfold getLibc at libc
      split at libc
      · cases libc
      · cases libc
        refine .inl ⟨_, rfl, ?_, ?_⟩
        · intro is
          cases is
        · intro msg is
          cases is
    | ok _ =>
      rw [Py.call_bind_ok (Py.call_lift _ s)]
      rcases callLoop_issues request replies s with none | issued
      · refine .inl ⟨.keyboardInterrupt, none, ?_, ?_⟩
        · intro is
          cases is
        · intro msg is
          cases is
      · exact .inr ⟨rfl, issued⟩

end Calls

/-! ## Unaltered or not at all -/

/-- A call raises and issues nothing, or the listener is open and the first request it
issues carries its arguments.  Every request it issues does, and is sound; and the calls
refused with a `ValueError` before anything is issued are exactly those whose arguments
are out of range or do not go together. -/
theorem requests_unaltered (p : Platform) (s : Listener) (c : RequestCall)
    (replies : IoctlReplies) (result : Except PyExc Unit) (s' : Listener)
    (ran : ((c.op replies).body p).call s = (result, s')) :
    (((∃ e, result = .error e) ∧ s'.log = s.log) ∨
      (s.closed = false ∧ ∃ request more, s'.log = s.log ++ .ioctl request :: more ∧
        request.Carries c)) ∧
    (∀ events request, s'.log = s.log ++ events → .ioctl request ∈ events →
      request.Carries c ∧ request.Sound) ∧
    ((∃ msg, result = .error (.valueError msg) ∧ s'.log = s.log) ↔ ¬ c.Within maxFd) := by
  have checked := c.checked p replies s
  rw [ran] at checked
  rcases checked with ⟨outside, msg, refused⟩ | ⟨within, state, raises⟩
  · cases refused
    refine ⟨.inl ⟨⟨_, rfl⟩, rfl⟩, fun events request log mem => ?_, ?_⟩
    · rw [List.self_eq_append_right.mp log] at mem
      cases mem
    · exact ⟨fun _ => outside, fun _ => ⟨msg, rfl, rfl⟩⟩
  · rcases Listener.ioctl_cases p c.request replies s with ⟨e, raised, known, other⟩ |
      ⟨opened, n, issued⟩
    · rw [raised] at state raises
      have failed : result = .error e := raises e rfl known
      have same : s' = s := state
      subst failed same
      refine ⟨.inl ⟨⟨e, rfl⟩, rfl⟩, fun events request log mem => ?_, ?_⟩
      · rw [List.self_eq_append_right.mp log] at mem
        cases mem
      · refine ⟨?_, fun outside => absurd within outside⟩
        intro given
        rcases given with ⟨msg, is, -⟩
        exact absurd (Except.error.inj is) (other msg)
    · have log : s'.log = s.log ++ List.replicate (n + 1) (.ioctl c.request) := by
        rw [← issued]
        exact congrArg Listener.log state
      refine ⟨.inr ⟨opened, c.request, List.replicate n (.ioctl c.request), log,
        RequestCall.carries within⟩, fun events request log' mem => ?_, ?_⟩
      · rw [log, List.append_cancel_left_eq] at log'
        rw [← log'] at mem
        cases List.eq_of_mem_replicate mem
        exact ⟨RequestCall.carries within, RequestCall.sound within⟩
      · refine ⟨?_, fun outside => absurd within outside⟩
        intro given
        rcases given with ⟨msg, -, same⟩
        rw [log] at same
        cases List.append_right_eq_self.mp same

/-- A notification is answered with EPERM. -/
theorem requests_unaltered_eperm :
    ∃ result s', (((RequestCall.respond 7 1 0 0).op [.ok ⟨0, 0⟩]).body ⟨"x86_64", true⟩).call
        ⟨5, false, []⟩ = (result, s') ∧
      ∀ events request, s'.log = [] ++ events → FdEvent.ioctl request ∈ events →
        request.Carries (.respond 7 1 0 0) ∧ request.Sound :=
  ⟨_, _, rfl, (requests_unaltered ⟨"x86_64", true⟩ ⟨5, false, []⟩ (.respond 7 1 0 0)
    [.ok ⟨0, 0⟩] _ _ rfl).2.1⟩

/-- A descriptor number of 2 ^ 31 fits its field, and is refused. -/
theorem requests_refuse_large_fd :
    (RequestCall.addfd 7 (2 ^ 31) 0 0 0).Within 0xFFFFFFFF ∧
      ∃ msg, (((RequestCall.addfd 7 (2 ^ 31) 0 0 0).op [.ok ⟨3, 0⟩]).body ⟨"x86_64", true⟩).call
        ⟨5, false, []⟩ = (.error (.valueError msg), ⟨5, false, []⟩) := by
  refine ⟨?_, _, rfl⟩
  unfold RequestCall.Within
  norm_num

end Seccompy
