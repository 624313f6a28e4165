import Seccompy.Capability
import Seccompy.Lib.Operations

/-!
# Descriptors of processes

`pidfd_open` and `pidfd_getfd`, of `_syscall.py` and of `notify.py`, in the process that
calls them: the system calls it makes with the words that reach the kernel, the descriptors
it is given and those it made non-inheritable.  In every sequence of calls the descriptors
returned are those made non-inheritable, in order, and a descriptor is lost exactly where
`os.set_inheritable` raises (`pidfd_descriptors`).
-/

namespace Seccompy

open Lib Bpf

/-! ## The calls -/

def sysPidfd : List (String × Nat × Nat) :=
  [("x86_64", 434, 438), ("amd64", 434, 438), ("aarch64", 434, 438), ("arm64", 434, 438)]

def pidfdNr (p : Platform) : Except PyExc (Nat × Nat) :=
  let machine := p.machine.toLower
  match sysPidfd.lookup machine with
  | some nrs => .ok nrs
  | none => .error (.unsupported s!"no pidfd syscall numbers for {machine}")

/-- What the process did: the system calls with their words, the descriptors the kernel
gave it, and those it made non-inheritable. -/
structure Process where
  calls : List (Nat × List U32)
  opened : List Int
  kept : List Int

/-- One attempt of a call that opens a descriptor. -/
def openAttempt (nr : Nat) (words : List U32) (reply : Reply) : Py Process Reply := do
  Py.update fun self => { self with calls := self.calls ++ [(nr, words)] }
  if reply.ret ≠ -1 then
    Py.update fun self => { self with opened := self.opened ++ [reply.ret] }
  return reply

/-- The attempts of a call with these arguments; each is converted as the call is made. -/
def opening (nr : Nat) (args : List Int) (replies : List Reply) : List (Py Process Reply) :=
  match args.mapM cInt with
  | .ok words => replies.map (openAttempt nr words)
  | .error e => [throw e]

/-- `_syscall.pidfd_open`. -/
def sysPidfdOpen (p : Platform) (pid flags : Int) (replies : List Reply) : Py Process Int := do
  Py.raiseIf (¬ (0 ≤ pid ∧ pid ≤ 0x7FFFFFFF)) (.valueError s!"pid out of range: {pid}")
  let nrs ← Py.lift (pidfdNr p)
  call p (opening nrs.1 [pid, flags] replies)

/-- `_syscall.pidfd_getfd`, which checks nothing. -/
def sysPidfdGetfd (p : Platform) (pidfd fd flags : Int) (replies : List Reply) :
    Py Process Int := do
  let nrs ← Py.lift (pidfdNr p)
  call p (opening nrs.2 [pidfd, fd, flags] replies)

/-- `os.set_inheritable(fd, False)`. -/
def osKeep (raised : Option PyExc) (fd : Int) : Py Process Unit :=
  match raised with
  | some e => throw e
  | none => Py.update fun self => { self with kept := self.kept ++ [fd] }

/-- A call of `notify.pidfd_open` or `notify.pidfd_getfd`, with what the outside answers. -/
inductive PidfdOp
  | pidfdOpen (pid flags : Int) (replies : List Reply) (raised : Option PyExc)
  | pidfdGetfd (pidfd fd flags : Int) (replies : List Reply) (raised : Option PyExc)

def PidfdOp.body (p : Platform) : PidfdOp → Py Process Int
  | .pidfdOpen pid flags replies raised => do
    let fd ← sysPidfdOpen p pid flags replies
    osKeep raised fd
    return fd
  | .pidfdGetfd pidfd fd flags replies raised => do
    let dup ← sysPidfdGetfd p pidfd fd flags replies
    osKeep raised dup
    return dup

/-! ## One call -/

/-- The number and the words of the call, if it can be made. -/
def PidfdOp.Sends (op : PidfdOp) (nr : Nat) (words : List U32) : Prop :=
  match op with
  | .pidfdOpen pid flags _ _ => (0 ≤ pid ∧ pid ≤ 0x7FFFFFFF) ∧ nr = 434 ∧
      words = [BitVec.ofInt 32 pid, BitVec.ofInt 32 flags]
  | .pidfdGetfd pidfd fd flags _ _ => nr = 438 ∧
      words = [BitVec.ofInt 32 pidfd, BitVec.ofInt 32 fd, BitVec.ofInt 32 flags]

def PidfdOp.raised : PidfdOp → Option PyExc
  | .pidfdOpen _ _ _ raised => raised
  | .pidfdGetfd _ _ _ _ raised => raised

/-- A call makes only such calls, and is given the descriptor it returns. -/
structure Opens (sends : Nat → List U32 → Prop) (s : Process) (result : Except PyExc Int)
    (s' : Process) : Prop where
  calls : ∃ made, s'.calls = s.calls ++ made ∧ ∀ c ∈ made, sends c.1 c.2
  opened : s'.opened = s.opened ++ result.toOption.toList
  kept : s'.kept = s.kept

theorem Opens.none (sends : Nat → List U32 → Prop) (s : Process) (e : PyExc) :
    Opens sends s (.error e) s :=
  ⟨⟨[], by simp, by simp⟩, by simp [Except.toOption], rfl⟩

theorem callLoop_opens {sends : Nat → List U32 → Prop} {nr : Nat} {words : List U32}
    (sent : sends nr words) (replies : List Reply) (s : Process) :
    Opens sends s ((callLoop (replies.map (openAttempt nr words))).call s).1
      ((callLoop (replies.map (openAttempt nr words))).call s).2 := by
  induction replies generalizing s with
  | nil => exact .none sends s _
  | cons first rest ih =>
    let next : Process := { s with calls := s.calls ++ [(nr, words)] }
    have attempted : (openAttempt nr words first).call s = (.ok first,
        if first.ret ≠ -1 then { next with opened := s.opened ++ [first.ret] } else next) := by
      unfold openAttempt
      split <;> rfl
    have once : ∃ made, s.calls ++ [(nr, words)] = s.calls ++ made ∧ ∀ c ∈ made, sends c.1 c.2 :=
      ⟨[(nr, words)], rfl, by simpa using sent⟩
    rw [List.map_cons, callLoop, Py.call_bind_ok attempted, Py.call_ite, Py.call_ite]
    by_cases failed : first.ret = -1
    · rw [if_neg (not_not.mpr failed), if_neg (not_not.mpr failed)]
      by_cases again : first.errno = eintr
      · rw [if_pos again]
        obtain ⟨⟨made, calls, each⟩, opened, kept⟩ := ih next
        refine ⟨⟨(nr, words) :: made, ?_, ?_⟩, opened, kept⟩
        · rw [calls, List.append_assoc]
          rfl
        · exact List.forall_mem_cons.mpr ⟨sent, each⟩
      · rw [if_neg again]
        exact ⟨once, by simp [Except.toOption, next], rfl⟩
    · rw [if_pos failed, if_pos failed]
      exact ⟨once, rfl, rfl⟩

theorem pidfdNr_ok {p : Platform} {nrs : Nat × Nat} (ok : pidfdNr p = .ok nrs) :
    nrs = (434, 438) := by
  simp only [pidfdNr] at ok
  split at ok
  · next found =>
    cases ok
    obtain ⟨before, behind, table, -⟩ := List.lookup_eq_some_iff.mp found
    have mem : (p.machine.toLower, nrs) ∈ sysPidfd := by
      rw [table]
      simp
    simp only [sysPidfd, List.mem_cons, Prod.mk.injEq, List.not_mem_nil, or_false] at mem
    rcases mem with ⟨-, same⟩ | ⟨-, same⟩ | ⟨-, same⟩ | ⟨-, same⟩ <;> exact same
  · cases ok

theorem cInt_ok {n : Int} {word : U32} (ok : cInt n = .ok word) : word = BitVec.ofInt 32 n := by
  unfold cInt at ok
  split at ok
  · cases ok
    rfl
  · cases ok

theorem mapM_cInt {args : List Int} {words : List U32} (ok : args.mapM cInt = .ok words) :
    words = args.map (BitVec.ofInt 32) := by
  have each := mapM_ok_map (g := BitVec.ofInt 32) (h := id) (fun _ _ => cInt_ok) ok
  rwa [List.map_id] at each

theorem call_opens {sends : Nat → List U32 → Prop} {p : Platform} {nr : Nat} {args : List Int}
    (sent : sends nr (args.map (BitVec.ofInt 32))) (replies : List Reply) (s : Process) :
    Opens sends s ((call p (opening nr args replies)).call s).1
      ((call p (opening nr args replies)).call s).2 := by
  unfold call
  cases libc : getLibc p with
  | error e =>
    rw [Py.call_bind_error (Py.call_lift _ _)]
    exact .none sends s e
  | ok _ =>
    rw [Py.call_bind_ok (Py.call_lift _ _)]
    unfold opening
    cases converted : args.mapM cInt with
    | error e => exact .none sends s e
    | ok words =>
      rw [mapM_cInt converted]
      exact callLoop_opens sent replies s

/-- What a call of `notify` does: the descriptor it returns is the one it made
non-inheritable, and it gets no other unless `os.set_inheritable` raises. -/
structure PidfdOp.Did (op : PidfdOp) (s : Process) (result : Except PyExc Int) (s' : Process) :
    Prop where
  calls : ∃ made, s'.calls = s.calls ++ made ∧ ∀ c ∈ made, op.Sends c.1 c.2
  kept : s'.kept = s.kept ++ result.toOption.toList
  opened : ∃ got, s'.opened = s.opened ++ got ∧ result.toOption.toList.Sublist got ∧
    got.length ≤ result.toOption.toList.length + if op.raised.isSome then 1 else 0

theorem PidfdOp.did_keep {op : PidfdOp} (body : Py Process Int) {s : Process}
    (opens : Opens op.Sends s (body.call s).1 (body.call s).2)
    {whole : Py Process Int}
    (is : whole = (do let fd ← body; osKeep op.raised fd; return fd)) :
    op.Did s (whole.call s).1 (whole.call s).2 := by
  subst is
  rcases ran : body.call s with ⟨e | fd, s'⟩
  · rw [ran] at opens
    rw [Py.call_bind_error ran]
    refine ⟨opens.calls, ?_, [], ?_, List.Sublist.refl _, ?_⟩
    · simpa [Except.toOption] using opens.kept
    · simpa [Except.toOption] using opens.opened
    · exact Nat.zero_le _
  · rw [ran] at opens
    rw [Py.call_bind_ok ran]
    unfold osKeep
    cases raised : op.raised with
    | some e =>
      refine ⟨opens.calls, ?_, [fd], opens.opened, List.nil_sublist _, ?_⟩
      · simpa [Except.toOption] using opens.kept
      · simp [Except.toOption, raised]
    | none =>
      refine ⟨opens.calls, ?_, [fd], opens.opened, List.Sublist.refl _, Nat.le_add_right _ _⟩
      show s'.kept ++ [fd] = s.kept ++ [fd]
      rw [opens.kept]

theorem PidfdOp.did (p : Platform) (op : PidfdOp) (s : Process) :
    op.Did s ((op.body p).call s).1 ((op.body p).call s).2 := by
  cases op with
  | pidfdOpen pid flags replies raised =>
    refine PidfdOp.did_keep (sysPidfdOpen p pid flags replies) ?_ rfl
    unfold sysPidfdOpen
    rw [Py.call_raiseIf_bind]
    split
    · exact .none _ s _
    · next inside =>
      cases numbered : pidfdNr p with
      | error e =>
        rw [Py.call_bind_error (Py.call_lift _ _)]
        exact .none _ s e
      | ok nrs =>
        rw [Py.call_bind_ok (Py.call_lift _ _)]
        refine call_opens ⟨not_not.mp inside, ?_, rfl⟩ replies s
        rw [pidfdNr_ok numbered]
  | pidfdGetfd pidfd fd flags replies raised =>
    refine PidfdOp.did_keep (sysPidfdGetfd p pidfd fd flags replies) ?_ rfl
    unfold sysPidfdGetfd
    cases numbered : pidfdNr p with
    | error e =>
      rw [Py.call_bind_error (Py.call_lift _ _)]
      exact .none _ s e
    | ok nrs =>
      rw [Py.call_bind_ok (Py.call_lift _ _)]
      refine call_opens ⟨?_, rfl⟩ replies s
      rw [pidfdNr_ok numbered]

/-! ## Every sequence of calls -/

/-- The process after a sequence of calls, each of which may raise. -/
def processAfter (p : Platform) (ops : List PidfdOp) (s : Process) : Process :=
  after (fun op => (op.body p).call) ops s

/-- The descriptors that were returned. -/
def pidfdReturns (p : Platform) : List PidfdOp → Process → List Int
  | [], _ => []
  | op :: ops, s => ((op.body p).call s).1.toOption.toList ++
      pidfdReturns p ops ((op.body p).call s).2

theorem processAfter_did (p : Platform) (ops : List PidfdOp) (s : Process) :
    (∃ made, (processAfter p ops s).calls = s.calls ++ made ∧
      ∀ c ∈ made, ∃ op ∈ ops, op.Sends c.1 c.2) ∧
    (processAfter p ops s).kept = s.kept ++ pidfdReturns p ops s ∧
    ∃ got, (processAfter p ops s).opened = s.opened ++ got ∧ (pidfdReturns p ops s).Sublist got ∧
      got.length ≤ (pidfdReturns p ops s).length + (ops.filter (·.raised.isSome)).length := by
  induction ops generalizing s with
  | nil => exact ⟨⟨[], by simp [processAfter, after]⟩, by simp [processAfter, after, pidfdReturns],
      [], by simp [processAfter, after, pidfdReturns]⟩
  | cons op ops ih =>
    obtain ⟨⟨made, calls, each⟩, kept, got, opened, sub, few⟩ := op.did p s
    obtain ⟨⟨made', calls', each'⟩, kept', got', opened', sub', few'⟩ :=
      ih ((op.body p).call s).2
    refine ⟨⟨made ++ made', ?_, ?_⟩, ?_, got ++ got', ?_, sub.append sub', ?_⟩
    · rw [← List.append_assoc, ← calls]
      exact calls'
    · intro c mem
      rcases List.mem_append.mp mem with here | later
      · exact ⟨op, List.mem_cons_self, each c here⟩
      · obtain ⟨op', inside, sends⟩ := each' c later
        exact ⟨op', List.mem_cons_of_mem _ inside, sends⟩
    · rw [pidfdReturns, ← List.append_assoc, ← kept]
      exact kept'
    · rw [← List.append_assoc, ← opened]
      exact opened'
    · have lost : ((op :: ops).filter (·.raised.isSome)).length =
          (if op.raised.isSome then 1 else 0) + (ops.filter (·.raised.isSome)).length := by
        rw [List.filter_cons]
        split
        · rw [List.length_cons, Nat.add_comm]
        · rw [Nat.zero_add]
      rw [pidfdReturns, List.length_append, List.length_append, lost]
      omega

/-- In every sequence of calls, the descriptors that are returned are those that were made
non-inheritable; they are among those the kernel gave, of which at most one is lost for each
call in which `os.set_inheritable` raises.  What reaches the kernel are the low 32 bits of
the arguments, and of `pidfd_open` only a pid that is all there. -/
theorem pidfd_descriptors (p : Platform) (ops : List PidfdOp) :
    (processAfter p ops ⟨[], [], []⟩).kept = pidfdReturns p ops ⟨[], [], []⟩ ∧
    (pidfdReturns p ops ⟨[], [], []⟩).Sublist (processAfter p ops ⟨[], [], []⟩).opened ∧
    (processAfter p ops ⟨[], [], []⟩).opened.length ≤
      (pidfdReturns p ops ⟨[], [], []⟩).length + (ops.filter (·.raised.isSome)).length ∧
    ∀ c ∈ (processAfter p ops ⟨[], [], []⟩).calls, ∃ op ∈ ops, op.Sends c.1 c.2 := by
  obtain ⟨⟨made, calls, each⟩, kept, got, opened, sub, few⟩ :=
    processAfter_did p ops ⟨[], [], []⟩
  rw [List.nil_append] at calls kept opened
  rw [calls, opened]
  exact ⟨kept, sub, few, each⟩

end Seccompy
