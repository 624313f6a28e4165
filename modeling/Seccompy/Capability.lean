import Seccompy.Kernel
import Seccompy.Filter.Rules

/-!
# Capability probes

The probes of `__init__.py` and the calls of `_syscall.py` under them.  A probe hands an
integer to the kernel through ctypes, which keeps its low 32 bits; `Filter` checks the
range of the same integer.  The two agree on every integer whose low 32 bits the kernel
accepts exactly when it has no others (`probes_agree_iff`).
-/

namespace Seccompy

open Lib Bpf

/-! ## The calls -/

/-- The words the kernel received, one for each attempt. -/
abbrev Received := List U32

/-- The replies of the kernel to a word, for the two calls that probe. -/
structure ProbeReplies where
  /-- `SECCOMP_SET_MODE_FILTER` with no program, by its flags. -/
  setModeFilter : U32 → List Reply
  /-- `SECCOMP_GET_ACTION_AVAIL`, by the action in memory. -/
  getActionAvail : U32 → List Reply

/-- The attempts of a call that passes the word. -/
def sending (word : U32) (replies : List Reply) : List (Py Received Reply) :=
  replies.map fun reply => do
    Py.update (· ++ [word])
    return reply

/-- An integer argument of a variadic foreign function, taken as a C `int`; it has to fit
a machine word. -/
def cInt (n : Int) : Except PyExc U32 :=
  if -2 ^ 63 ≤ n ∧ n < 2 ^ 64 then .ok (BitVec.ofInt 32 n) else .error (.other "ArgumentError")

def actionAvail (p : Platform) (k : ProbeReplies) (action : Int) : Py Received Int :=
  let val : U32 := BitVec.ofInt 32 action
  seccomp p (sending val (k.getActionAvail val))

/-- An `UnsupportedError`. -/
def PyExc.isUnsupported : PyExc → Bool
  | .unsupportedError _ | .unsupported _ => true
  | _ => false

/-- The errno of a `SeccompError` that is no `UnsupportedError`. -/
def PyExc.seccompErrno? : PyExc → Option Int
  | .seccompError errno => some errno
  | _ => none

def probeFlag (p : Platform) (k : ProbeReplies) (flag : Int) : Py Received Bool :=
  Py.rescue
    (do let _ ← seccomp p (match cInt flag with
          | .ok word => sending word (k.setModeFilter word)
          | .error e => [throw e])
        return true)
    fun e => match e.seccompErrno? with
      | some errno =>
        if errno = einval then return false
        else if errno = efault ∨ errno = eacces then return true
        else throw e
      | none => throw e

/-! ## The probes -/

def supported (p : Platform) (k : ProbeReplies) : Py Received Bool :=
  Py.rescue
    (do let _ ← actionAvail p k Action.allow.code.toNat
        return true)
    fun e =>
      if e.isUnsupported then
        Py.rescue (probeFlag p k 0) fun e => if e.isUnsupported then return false else throw e
      else if e.seccompErrno? = some einval then return true
      else throw e

def actionSupported (p : Platform) (k : ProbeReplies) (action : Int) : Py Received Bool :=
  Py.rescue
    (do let _ ← actionAvail p k action
        return true)
    fun e =>
      if e.isUnsupported then return false
      else if e.seccompErrno? = some einval then return false
      else throw e

def flagSupported (p : Platform) (k : ProbeReplies) (flag : Int) : Py Received Bool :=
  Py.rescue (probeFlag p k flag) fun e => if e.isUnsupported then return false else throw e

/-! ## What a call comes to -/

/-- The call gets through to the kernel, which settles it with this reply. -/
structure Decides (p : Platform) (replies : List Reply) (r : Reply) : Prop where
  known : ∃ nr, seccompNr p = .ok nr
  linux : p.linux = true
  last : decisiveReply replies = some r

theorem Decides.exists_iff {p : Platform} {replies : List Reply} {r : Reply} {Q : Reply → Prop}
    (decides : Decides p replies r) : (∃ r', Decides p replies r' ∧ Q r') ↔ Q r := by
  constructor
  · intro given
    obtain ⟨r', decides', holds⟩ := given
    cases decides.last.symm.trans decides'.last
    exact holds
  · intro holds
    exact ⟨r, decides, holds⟩

/-- What a reply makes of a call. -/
def Reply.outcome (r : Reply) : Except PyExc Int :=
  if r.ret ≠ -1 then .ok r.ret else .error (raiseErrno r.errno)

/-- The exceptions of a call the kernel does not settle. -/
def PyExc.Unsettled (e : PyExc) : Prop := e = .keyboardInterrupt ∨ ∃ msg, e = .unsupported msg

/-- The word is passed again until a reply settles the call. -/
theorem callLoop_sending (word : U32) (replies : List Reply) (log : Received) :
    (∃ r n, decisiveReply replies = some r ∧ (callLoop (sending word replies)).call log =
      (r.outcome, log ++ List.replicate (n + 1) word)) ∨
    (decisiveReply replies = none ∧ ∃ received, (callLoop (sending word replies)).call log =
      (.error .keyboardInterrupt, received)) := by
  induction replies generalizing log with
  | nil => exact .inr ⟨rfl, log, rfl⟩
  | cons first rest ih =>
    have attempt : Py.call (do Py.update (· ++ [word]); return first) log =
        (.ok first, log ++ [word]) := rfl
    have unfolded : sending word (first :: rest) =
        (do Py.update (· ++ [word]); return first) :: sending word rest := rfl
    rw [unfolded, callLoop, Py.call_bind_ok attempt, Py.call_ite, Py.call_ite]
    by_cases interrupted : first.ret = -1 ∧ first.errno = eintr
    · have again : decisiveReply (first :: rest) = decisiveReply rest :=
        List.find?_cons_of_neg (by simp [interrupted])
      rw [again, if_neg (not_not.mpr interrupted.1), if_pos interrupted.2]
      rcases ih (log ++ [word]) with ⟨r, n, last, ran⟩ | unsettled
      · refine .inl ⟨r, n + 1, last, ?_⟩
        rw [ran, List.append_assoc]
        rfl
      · exact .inr unsettled
    · have done : decisiveReply (first :: rest) = some first :=
        List.find?_cons_of_pos (decide_eq_true interrupted)
      refine .inl ⟨first, 0, done, ?_⟩
      unfold Reply.outcome
      by_cases failed : first.ret = -1
      · rw [if_neg (not_not.mpr failed), if_neg fun retry => interrupted ⟨failed, retry⟩,
          if_neg (not_not.mpr failed)]
        rfl
      · rw [if_pos failed, if_pos failed]
        rfl

/-- A call either is settled by the kernel, which received the word, or raises one of the
exceptions of its own. -/
theorem call_seccomp_sending (p : Platform) (word : U32) (replies : List Reply) :
    (∃ r n, Decides p replies r ∧
      (seccomp p (sending word replies)).call [] = (r.outcome, List.replicate (n + 1) word)) ∨
    ((∀ r, ¬ Decides p replies r) ∧ ∃ e received, e.Unsettled ∧
      (seccomp p (sending word replies)).call [] = (.error e, received)) := by
  unfold seccomp call
  cases numbered : seccompNr p with
  | error e =>
    refine .inr ⟨?_, e, [], .inr ?_, Py.call_bind_error (Py.call_lift _ _)⟩
    · intro r decides
      obtain ⟨nr, known⟩ := decides.known
      cases numbered.symm.trans known
    · simp only [seccompNr, archNr] at numbered
      split at numbered
      · cases numbered
      · cases numbered
        exact ⟨_, rfl⟩
  | ok nr =>
    rw [Py.call_bind_ok (Py.call_lift _ _)]
    unfold getLibc
    by_cases linux : p.linux = true
    · rw [if_pos linux, Py.call_bind_ok (Py.call_lift _ _)]
      rcases callLoop_sending word replies [] with ⟨r, n, last, ran⟩ | ⟨none, received, ran⟩
      · exact .inl ⟨r, n, ⟨⟨nr, numbered⟩, linux, last⟩, ran⟩
      · refine .inr ⟨?_, .keyboardInterrupt, received, .inl rfl, ran⟩
        intro r decides
        cases none.symm.trans decides.last
    · rw [if_neg linux, Py.call_bind_error (Py.call_lift _ _)]
      exact .inr ⟨fun r decides => linux decides.linux, _, [], .inr ⟨_, rfl⟩, rfl⟩

/-! ## When a probe says yes -/

/-- The kernel lets the action through `SECCOMP_GET_ACTION_AVAIL`. -/
def ActionAccepted (p : Platform) (k : ProbeReplies) (action : Int) : Prop :=
  ∃ r, Decides p (k.getActionAvail (BitVec.ofInt 32 action)) r ∧ r.ret ≠ -1

/-- The flags pass the validation of `SECCOMP_SET_MODE_FILTER`. -/
def FlagAccepted (p : Platform) (k : ProbeReplies) (flag : Int) : Prop :=
  ∃ r, Decides p (k.setModeFilter (BitVec.ofInt 32 flag)) r ∧
    (r.ret ≠ -1 ∨ r.errno = efault ∨ r.errno = eacces)

/-- The probe says yes exactly under the condition, and then the kernel received the word. -/
def SaysYes (probe : Py Received Bool) (word : U32) (accepted : Prop) : Prop :=
  (accepted ∧ ∃ n, probe.call [] = (.ok true, List.replicate (n + 1) word)) ∨
    (¬ accepted ∧ ∀ received, probe.call [] ≠ (.ok true, received))

theorem actionSupported_saysYes (p : Platform) (k : ProbeReplies) (action : Int) :
    SaysYes (actionSupported p k action) (BitVec.ofInt 32 action) (ActionAccepted p k action) := by
  have refused : ∀ (e : PyExc) (received after : Received),
      Py.call (if e.isUnsupported then return false
        else if e.seccompErrno? = some einval then return false else throw e) received ≠
        (.ok true, after) := by
    intro e received after
    simp only [Py.call_ite, Py.call_pure, Py.call_throw]
    split
    · simp
    · split <;> simp
  unfold SaysYes ActionAccepted actionSupported actionAvail
  rw [Py.call_rescue]
  rcases call_seccomp_sending p (BitVec.ofInt 32 action) (k.getActionAvail (BitVec.ofInt 32 action))
    with ⟨r, n, decides, ran⟩ | ⟨undecided, e, received, -, ran⟩
  · rw [decides.exists_iff]
    by_cases failed : r.ret = -1
    · rw [Reply.outcome, if_neg (not_not.mpr failed)] at ran
      rw [Py.call_bind_error ran]
      exact .inr ⟨not_not.mpr failed, fun received => refused _ _ received⟩
    · rw [Reply.outcome, if_pos failed] at ran
      rw [Py.call_bind_ok ran]
      exact .inl ⟨failed, n, rfl⟩
  · rw [Py.call_bind_error ran]
    refine .inr ⟨?_, fun after => refused _ _ after⟩
    intro accepted
    obtain ⟨r, decides, -⟩ := accepted
    exact undecided r decides

/-- What `probe_flag` makes of the call. -/
def flagAnswer : Except PyExc Int → Except PyExc Bool
  | .ok _ => .ok true
  | .error (.seccompError errno) =>
    if errno = einval then .ok false
    else if errno = efault ∨ errno = eacces then .ok true
    else .error (.seccompError errno)
  | .error e => .error e

theorem cInt_fits {n : Int} (least : 0 ≤ n) (most : n < 2 ^ 64) :
    cInt n = .ok (BitVec.ofInt 32 n) := by
  unfold cInt
  rw [if_pos ⟨by omega, most⟩]

theorem call_probeFlag {p : Platform} {k : ProbeReplies} {flag : Int} {word : U32}
    {result : Except PyExc Int} {received : Received} (fits : cInt flag = .ok word)
    (ran : (seccomp p (sending word (k.setModeFilter word))).call [] = (result, received)) :
    (probeFlag p k flag).call [] = (flagAnswer result, received) := by
  unfold probeFlag
  rw [Py.call_rescue, fits]
  cases result with
  | ok ret =>
    rw [Py.call_bind_ok ran]
    rfl
  | error e =>
    rw [Py.call_bind_error ran]
    cases e with
    | seccompError errno =>
      simp only [PyExc.seccompErrno?, flagAnswer, Py.call_ite, Py.call_pure, Py.call_throw]
      split
      · rfl
      · split <;> rfl
    | _ => rfl

/-- Of the errnos, EFAULT and EACCES are those that let a flag pass. -/
theorem call_flagSupported_errno {p : Platform} {k : ProbeReplies} {flag errno : Int} {word : U32}
    {received : Received} (fits : cInt flag = .ok word)
    (ran : (seccomp p (sending word (k.setModeFilter word))).call [] =
      (.error (raiseErrno errno), received)) :
    if errno = efault ∨ errno = eacces then
      (flagSupported p k flag).call [] = (.ok true, received)
    else ∀ after, (flagSupported p k flag).call [] ≠ (.ok true, after) := by
  unfold flagSupported
  rw [Py.call_rescue, call_probeFlag fits ran]
  by_cases unsupported : errno = enosys ∨ errno = eopnotsupp
  · rw [if_neg (by unfold enosys eopnotsupp at unsupported; unfold efault eacces; omega)]
    intro after
    simp [raiseErrno, unsupported, flagAnswer, PyExc.isUnsupported]
  · simp only [raiseErrno, if_neg unsupported, flagAnswer]
    by_cases passed : errno = efault ∨ errno = eacces
    · have valid : errno ≠ einval := by unfold efault eacces at passed; unfold einval; omega
      rw [if_pos passed, if_neg valid, if_pos passed]
    · rw [if_neg passed, if_neg passed]
      intro after
      by_cases invalid : errno = einval
      · simp [invalid]
      · simp [invalid, PyExc.isUnsupported]

theorem flagSupported_saysYes (p : Platform) (k : ProbeReplies) {flag : Int} (least : 0 ≤ flag)
    (most : flag < 2 ^ 64) :
    SaysYes (flagSupported p k flag) (BitVec.ofInt 32 flag) (FlagAccepted p k flag) := by
  have fits := cInt_fits least most
  unfold SaysYes FlagAccepted
  rcases call_seccomp_sending p (BitVec.ofInt 32 flag) (k.setModeFilter (BitVec.ofInt 32 flag))
    with ⟨r, n, decides, ran⟩ | ⟨undecided, e, received, unsettled, ran⟩
  · rw [decides.exists_iff]
    by_cases failed : r.ret = -1
    · rw [Reply.outcome, if_neg (not_not.mpr failed)] at ran
      have answer := call_flagSupported_errno fits ran
      by_cases passed : r.errno = efault ∨ r.errno = eacces
      · rw [if_pos passed] at answer
        exact .inl ⟨.inr passed, n, answer⟩
      · rw [if_neg passed] at answer
        exact .inr ⟨not_or.mpr ⟨not_not.mpr failed, passed⟩, answer⟩
    · rw [Reply.outcome, if_pos failed] at ran
      refine .inl ⟨.inl failed, n, ?_⟩
      rw [flagSupported, Py.call_rescue, call_probeFlag fits ran]
      rfl
  · refine .inr ⟨?_, ?_⟩
    · intro accepted
      obtain ⟨r, decides, -⟩ := accepted
      exact undecided r decides
    · intro after
      rw [flagSupported, Py.call_rescue, call_probeFlag fits ran]
      rcases unsettled with rfl | ⟨msg, rfl⟩
      · simp [flagAnswer, PyExc.isUnsupported]
      · simp [flagAnswer, PyExc.isUnsupported]

/-! ## Probes against the constructor -/

/-- When the probe says yes, a filter can be built with the integer, and the integer is
what the kernel received, at every attempt. -/
def Agrees (probe : Py Received Bool) (made : Except PyExc Filter) (n : Int) : Prop :=
  ∀ received, probe.call [] = (.ok true, received) →
    (∃ f, made = .ok f) ∧ received ≠ [] ∧ ∀ word ∈ received, (word.toNat : Int) = n

/-- `flag_supported(flag)` and `Filter(flags=flag)`. -/
def FlagAgrees (p : Platform) (k : ProbeReplies) (flag : Int) : Prop :=
  Agrees (flagSupported p k flag) (Filter.init Action.allow.code.toNat flag) flag

/-- `action_supported(action)` and `Filter(default=action)`. -/
def ActionAgrees (p : Platform) (k : ProbeReplies) (action : Int) : Prop :=
  Agrees (actionSupported p k action) (Filter.init action 0) action

theorem Filter.init_ok_iff (default flags : Int) :
    (∃ f, Filter.init default flags = .ok f) ↔
      (0 ≤ default ∧ default < 2 ^ 32) ∧ (0 ≤ flags ∧ flags < 2 ^ 32) := by
  unfold Filter.init
  constructor
  · intro made
    obtain ⟨f, made⟩ := made
    split at made
    · split at made
      · omega
      · cases made
    · cases made
  · intro fits
    rw [if_pos (by omega), if_pos (by omega)]
    exact ⟨_, rfl⟩

theorem agrees_iff {probe : Py Received Bool} {made : Except PyExc Filter} {n : Int}
    {accepted : Prop} (yes : SaysYes probe (BitVec.ofInt 32 n) accepted)
    (checked : (∃ f, made = .ok f) ↔ 0 ≤ n ∧ n < 2 ^ 32) :
    Agrees probe made n ↔ (0 ≤ n ∧ n < 2 ^ 32) ∨ ¬ accepted := by
  rcases yes with ⟨accepts, count, ran⟩ | ⟨rejects, no⟩
  · constructor
    · intro agrees
      exact .inl (checked.mp (agrees _ ran).1)
    · intro given received answered
      have fits := given.resolve_right (not_not.mpr accepts)
      cases ran.symm.trans answered
      refine ⟨checked.mpr fits, List.cons_ne_nil _ _, ?_⟩
      intro word mem
      rw [List.eq_of_mem_replicate mem]
      exact toNat_ofInt_fits fits.1 fits.2
  · constructor
    · intro _
      exact .inr rejects
    · intro _ received answered
      exact absurd answered (no received)

/-- A probe agrees with the constructor on exactly the integers that fit 32 bits, and on
those whose low 32 bits the kernel does not accept. -/
theorem probes_agree_iff (p : Platform) (k : ProbeReplies) :
    (∀ flag, 0 ≤ flag → flag < 2 ^ 64 →
      (FlagAgrees p k flag ↔ flag < 2 ^ 32 ∨ ¬ FlagAccepted p k flag)) ∧
    (∀ action, ActionAgrees p k action ↔
      (0 ≤ action ∧ action < 2 ^ 32) ∨ ¬ ActionAccepted p k action) := by
  constructor
  · intro flag least most
    have checked := Filter.init_ok_iff Action.allow.code.toNat flag
    have agrees := agrees_iff (flagSupported_saysYes p k least most)
      (checked.trans (and_iff_right (by decide)))
    exact agrees.trans (or_congr_left (and_iff_right least))
  · intro action
    have checked := Filter.init_ok_iff action 0
    exact agrees_iff (actionSupported_saysYes p k action)
      (checked.trans (and_iff_left (by decide)))

/-- A Linux kernel that knows the flags of `FilterFlag` and the actions of `Action`. -/
def linuxReplies : ProbeReplies where
  setModeFilter flags := if flags < 64 then [⟨-1, efault⟩] else [⟨-1, einval⟩]
  getActionAvail action :=
    if action ∈ [Action.killProcess, .killThread, .trap, .errno, .userNotif, .trace, .log,
      .allow].map Action.code then [⟨0, 0⟩] else [⟨-1, eopnotsupp⟩]

theorem probes_agree_iff_tsync :
    (flagSupported ⟨"x86_64", true⟩ linuxReplies 1).call [] = (.ok true, [1]) ∧
      FlagAgrees ⟨"x86_64", true⟩ linuxReplies 1 :=
  ⟨by decide +kernel, ((probes_agree_iff ⟨"x86_64", true⟩ linuxReplies).1 1 (by decide)
    (by decide)).mpr (.inl (by decide))⟩

/-- With a bit above the low 32 the probes answer for another integer: for no flags at
all, and for ALLOW. -/
theorem probes_answer_for_low_bits :
    ((flagSupported ⟨"x86_64", true⟩ linuxReplies (2 ^ 32)).call [] = (.ok true, [0]) ∧
      ¬ FlagAgrees ⟨"x86_64", true⟩ linuxReplies (2 ^ 32)) ∧
    (actionSupported ⟨"x86_64", true⟩ linuxReplies (2 ^ 32 + 0x7FFF0000)).call [] =
        (.ok true, [Action.allow.code]) ∧
      ¬ ActionAgrees ⟨"x86_64", true⟩ linuxReplies (2 ^ 32 + 0x7FFF0000) := by
  have flag : (flagSupported ⟨"x86_64", true⟩ linuxReplies (2 ^ 32)).call [] = (.ok true, [0]) := by
    decide +kernel
  have action : (actionSupported ⟨"x86_64", true⟩ linuxReplies (2 ^ 32 + 0x7FFF0000)).call [] =
      (.ok true, [Action.allow.code]) := by
    decide +kernel
  refine ⟨⟨flag, ?_⟩, action, ?_⟩
  · intro agrees
    obtain ⟨f, made⟩ := (agrees [0] flag).1
    cases made
  · intro agrees
    obtain ⟨f, made⟩ := (agrees [Action.allow.code] action).1
    cases made

end Seccompy
