import Seccompy.Notify
import Seccompy.Lib.Operations

/-!
# The listener owns its descriptor

A life of a listener is its construction followed by any sequence of operations,
each of which may raise.  The descriptor is to be closed exactly once, and not used
afterwards.  That holds for every life in which neither `os.set_inheritable` in the
constructor nor `os.close` in `close` raises (`listener_owns_fd`); each of the two
breaks it (`listener_leaks_or_closes_twice`).
-/

namespace Seccompy

open Lib Bpf

/-! ## Operations -/

/-- A call of a method, with what the outside world answers. -/
inductive ListenerOp
  | fileno
  | recv (replies : IoctlReplies) (notif : SeccompNotif)
  | respond (notifId error val flags : Int) (replies : IoctlReplies)
  | addfd (notifId localFd flags newfd newfdFlags : Int) (replies : IoctlReplies)
  | valid (notifId : Int) (replies : IoctlReplies)
  | setFlags (flags : Int) (replies : IoctlReplies)
  | enter
  | exit (raised : Option PyExc)
  | close (raised : Option PyExc)
  | del (raised : Option PyExc)

def ListenerOp.body (p : Platform) : ListenerOp → Py Listener Unit
  | .fileno => do let _ ← Listener.fileno
  | .recv replies notif => do let _ ← Listener.recv p replies notif
  | .respond notifId error val flags replies => Listener.respond p notifId error val flags replies
  | .addfd notifId localFd flags newfd newfdFlags replies => do
    let _ ← Listener.addfd p notifId localFd flags newfd newfdFlags replies
  | .valid notifId replies => do let _ ← Listener.valid p notifId replies
  | .setFlags flags replies => Listener.setFlags p flags replies
  | .enter => Listener.enter
  | .exit raised => Listener.exit raised
  | .close raised => Listener.close raised
  | .del raised => Listener.del raised

/-- The operations that give the descriptor up. -/
def ListenerOp.isClose : ListenerOp → Bool
  | .exit _ | .close _ | .del _ => true
  | _ => false

/-- `os.close` does not raise in this operation. -/
def ListenerOp.closesCleanly : ListenerOp → Bool
  | .exit raised | .close raised | .del raised => raised.isNone
  | _ => true

/-- A listener after its construction and a sequence of operations. -/
def lifetime (p : Platform) (env : InitEnv) (fd : Int) (ops : List ListenerOp) : Listener :=
  after (fun op => (ListenerOp.body p op).call) ops
    ((Listener.init env fd).call (Listener.new fd)).2

/-! ## Methods that use the descriptor -/

/-- The object is as before, and only ioctls were made, none on a closed listener. -/
structure Uses (s s' : Listener) : Prop where
  fd : s'.fd = s.fd
  closed : s'.closed = s.closed
  log : ∃ requests, s'.log = s.log ++ requests.map FdEvent.ioctl ∧
    (s.closed = true → requests = [])

theorem uses_steady : Py.Steady Uses where
  refl s := ⟨rfl, rfl, [], by simp, fun _ => rfl⟩
  trans := by
    rintro s t u ⟨fd, closed, before, log, none⟩ ⟨fd', closed', behind, log', none'⟩
    refine ⟨fd'.trans fd, closed'.trans closed, before ++ behind, ?_, fun is => ?_⟩
    · rw [log', log, List.map_append, List.append_assoc]
    · rw [none is, none' (closed.trans is), List.append_nil]

theorem callLoop_within {σ : Type} {R : σ → σ → Prop} (steady : Py.Steady R)
    {attempts : List (Py σ Reply)} (each : ∀ attempt ∈ attempts, attempt.Within R) :
    (callLoop attempts).Within R := by
  induction attempts with
  | nil => exact steady.throw _
  | cons attempt rest ih =>
    apply steady.bind (each attempt List.mem_cons_self)
    intro r
    split
    · exact steady.pure _
    · split
      · exact ih fun attempt mem => each attempt (List.mem_cons_of_mem _ mem)
      · exact steady.throw _

/-- Only ioctls were made. -/
def OnlyIoctls (s s' : Listener) : Prop :=
  s'.fd = s.fd ∧ s'.closed = s.closed ∧
    ∃ requests : List IoctlRequest, s'.log = s.log ++ requests.map FdEvent.ioctl

theorem onlyIoctls_steady : Py.Steady OnlyIoctls where
  refl s := ⟨rfl, rfl, [], by simp⟩
  trans := by
    rintro s t u ⟨fd, closed, before, log⟩ ⟨fd', closed', behind, log'⟩
    refine ⟨fd'.trans fd, closed'.trans closed, before ++ behind, ?_⟩
    rw [log', log, List.map_append, List.append_assoc]

theorem ioctl_within (p : Platform) (request : IoctlRequest) (replies : IoctlReplies) :
    (ioctl p request replies).Within OnlyIoctls := by
  apply onlyIoctls_steady.lift_bind
  intro _
  apply callLoop_within onlyIoctls_steady
  intro attempt mem
  obtain ⟨reply, -, rfl⟩ := List.mem_map.mp mem
  refine onlyIoctls_steady.bind (fun s => ?_) fun _ => onlyIoctls_steady.lift _
  exact ⟨rfl, rfl, [request], rfl⟩

theorem Listener.ioctl_within (p : Platform) (request : IoctlRequest) (replies : IoctlReplies) :
    (Listener.ioctl p request replies).Within Uses := by
  intro s
  unfold Listener.ioctl
  rw [Py.call_bind_ok (Py.call_read s)]
  cases opened : s.closed with
  | true => exact uses_steady.refl s
  | false =>
    obtain ⟨fd, closed, requests, log⟩ := Seccompy.ioctl_within p request replies s
    refine ⟨fd, closed, requests, log, fun is => ?_⟩
    rw [opened] at is
    cases is

/-- Every operation but the closing ones only uses the descriptor. -/
theorem ListenerOp.within_uses (p : Platform) {op : ListenerOp} (uses : op.isClose = false) :
    (op.body p).Within Uses := by
  have steady := uses_steady
  have ioctls := Listener.ioctl_within p
  cases op with
  | fileno =>
    apply steady.map
    apply steady.bind steady.read
    intro self
    apply steady.raiseIf_bind
    exact steady.pure _
  | recv replies notif =>
    apply steady.map
    exact steady.map (ioctls .recv replies)
  | respond notifId error val flags replies =>
    apply steady.lift_bind
    intro _
    apply steady.raiseIf_bind
    apply steady.raiseIf_bind
    apply steady.raiseIf_bind
    apply steady.raiseIf_bind
    exact steady.map (ioctls _ replies)
  | addfd notifId localFd flags newfd newfdFlags replies =>
    apply steady.map
    apply steady.lift_bind
    intro _
    apply steady.raiseIf_bind
    apply steady.raiseIf_bind
    apply steady.raiseIf_bind
    apply steady.raiseIf_bind
    apply steady.raiseIf_bind
    exact ioctls _ replies
  | valid notifId replies =>
    apply steady.map
    apply steady.lift_bind
    intro _
    apply steady.rescue (steady.map (ioctls _ replies))
    intro e
    split
    · exact steady.pure _
    · exact steady.throw _
  | setFlags flags replies =>
    apply steady.raiseIf_bind
    exact steady.map (ioctls _ replies)
  | enter => exact steady.bind steady.read fun self => steady.raiseIf _ _
  | exit raised => cases uses
  | close raised => cases uses
  | del raised => cases uses

/-! ## Closing -/

theorem Listener.call_close (raised : Option PyExc) (s : Listener) :
    ((Listener.close raised).call s).2 =
      if s.closed then s
      else if raised.isNone then { s with closed := true, log := s.log ++ [.close] }
      else { s with log := s.log ++ [.close] } := by
  unfold Listener.close osClose
  rw [Py.call_bind_ok (Py.call_read s)]
  obtain ⟨fd, closed, log⟩ := s
  cases closed with
  | true => rfl
  | false =>
    cases raised with
    | none => rfl
    | some e => rfl

/-- `__del__` leaves what `close` leaves. -/
theorem Listener.call_del (raised : Option PyExc) (s : Listener) :
    ((Listener.del raised).call s).2 = ((Listener.close raised).call s).2 := by
  unfold Listener.del
  rw [Py.call_rescue]
  rcases (Listener.close raised).call s with ⟨e | a, after⟩
  · simp only
    split
    · rfl
    · rfl
  · rfl

/-- Every closing operation leaves what `close` leaves. -/
theorem ListenerOp.call_isClose (p : Platform) {op : ListenerOp} (closing : op.isClose = true)
    (s : Listener) : ∃ raised : Option PyExc, op.closesCleanly = raised.isNone ∧
      ((op.body p).call s).2 = ((Listener.close raised).call s).2 := by
  cases op with
  | exit raised => exact ⟨raised, rfl, rfl⟩
  | close raised => exact ⟨raised, rfl, rfl⟩
  | del raised => exact ⟨raised, rfl, Listener.call_del raised s⟩
  | _ => cases closing

variable {p : Platform} {s : Listener} {op : ListenerOp}

theorem ListenerOp.call_closed (closing : op.isClose = true) (closed : s.closed = true) :
    ((op.body p).call s).2 = s := by
  obtain ⟨raised, -, same⟩ := ListenerOp.call_isClose p closing s
  rw [same, Listener.call_close, if_pos closed]

theorem ListenerOp.call_open (closing : op.isClose = true) (clean : op.closesCleanly = true)
    (opened : s.closed = false) :
    ((op.body p).call s).2 = { s with closed := true, log := s.log ++ [.close] } := by
  obtain ⟨raised, none, same⟩ := ListenerOp.call_isClose p closing s
  rw [same, Listener.call_close, if_neg (by simp [opened]), if_pos (none.symm.trans clean)]

/-! ## Construction -/

/-- The outcomes of a construction: the sizes query failed or did not match, and the
descriptor was closed; or `os.set_inheritable` raised; or the listener is open. -/
theorem Listener.init_cases (env : InitEnv) (fd : Int)
    (ordinary : ∀ e, env.sizes = .error e → e.isException = true) :
    (∃ e, (Listener.init env fd).call (Listener.new fd) = (.error e, ⟨fd, true, [.close]⟩)) ∨
    (∃ e, env.sizes = .ok expectedSizes ∧ env.setInheritable = some e ∧
      (Listener.init env fd).call (Listener.new fd) = (.error e, ⟨fd, true, []⟩)) ∨
    (Listener.init env fd).call (Listener.new fd) = (.ok (), ⟨fd, false, []⟩) := by
  obtain ⟨sizes, close, setInheritable⟩ := env
  unfold Listener.init osClose
  cases sizes with
  | error e =>
    have caught : e.isException = true := ordinary e rfl
    refine .inl ?_
    cases close with
    | none => exact ⟨e, by simp [Py.call_bind, Py.call_rescue, caught, Listener.new]⟩
    | some raised => exact ⟨raised, by simp [Py.call_bind, Py.call_rescue, caught, Listener.new]⟩
  | ok kernel =>
    by_cases same : kernel = expectedSizes
    · cases setInheritable with
      | some raised =>
        refine .inr (.inl ⟨raised, by rw [same], rfl, ?_⟩)
        simp [Py.call_bind, Py.call_rescue, same, Listener.new]
      | none =>
        refine .inr (.inr ?_)
        simp [Py.call_bind, Py.call_rescue, same, Listener.new]
    · refine .inl ?_
      cases close with
      | none =>
        exact ⟨abiMismatch kernel, by simp [Py.call_bind, Py.call_rescue, same, Listener.new]⟩
      | some raised =>
        exact ⟨raised, by simp [Py.call_bind, Py.call_rescue, same, Listener.new]⟩

/-! ## The invariant of a life -/

/-- Some ioctls were made, and then, if the listener is closed, the descriptor was. -/
def Owned (s : Listener) : Prop :=
  ∃ requests : List IoctlRequest,
    s.log = requests.map FdEvent.ioctl ++ if s.closed then [.close] else []

theorem Owned.uses {s s' : Listener} (owned : Owned s) (uses : Uses s s') : Owned s' := by
  obtain ⟨made, log⟩ := owned
  obtain ⟨-, closed, more, log', none⟩ := uses
  refine ⟨made ++ more, ?_⟩
  rw [log', log, closed]
  cases opened : s.closed with
  | true => simp [none opened]
  | false => simp

theorem Owned.step {p : Platform} {s : Listener} {op : ListenerOp} (owned : Owned s)
    (clean : s.closed = false → op.closesCleanly = true) : Owned ((op.body p).call s).2 := by
  cases closing : op.isClose with
  | false => exact owned.uses (ListenerOp.within_uses p closing s)
  | true =>
    cases opened : s.closed with
    | true =>
      rw [ListenerOp.call_closed closing opened]
      exact owned
    | false =>
      obtain ⟨made, log⟩ := owned
      rw [ListenerOp.call_open closing (clean opened) opened]
      exact ⟨made, by simp [log, opened]⟩

theorem Owned.count {s : Listener} (owned : Owned s) :
    s.log.count .close = if s.closed then 1 else 0 := by
  obtain ⟨made, log⟩ := owned
  have none : (made.map FdEvent.ioctl).count .close = 0 := by
    apply List.count_eq_zero.mpr
    intro mem
    obtain ⟨request, -, eq⟩ := List.mem_map.mp mem
    cases eq
  rw [log, List.count_append, none]
  cases s.closed with
  | true => rfl
  | false => rfl

/-- An ioctl stands before the closing. -/
theorem Owned.ioctl_first {s : Listener} (owned : Owned s) {before behind : List FdEvent}
    {request : IoctlRequest} (log : s.log = before ++ .ioctl request :: behind) :
    FdEvent.close ∉ before := by
  obtain ⟨made, log'⟩ := owned
  have order : s.log.Pairwise fun first _ => first ≠ .close := by
    rw [log', List.pairwise_append]
    refine ⟨?_, ?_, ?_⟩
    · rw [List.pairwise_map]
      exact List.pairwise_of_forall fun _ _ => nofun
    · cases s.closed with
      | true => exact List.pairwise_singleton _ _
      | false => exact List.Pairwise.nil
    · intro event mem _ _
      obtain ⟨request, -, rfl⟩ := List.mem_map.mp mem
      exact nofun
  rw [log, List.pairwise_append] at order
  intro mem
  exact order.2.2 .close mem (.ioctl request) List.mem_cons_self rfl

/-! ## Every life -/

/-- What owning a descriptor asks of a life. -/
structure OwnsOnce (p : Platform) (env : InitEnv) (fd : Int) (ops : List ListenerOp) : Prop where
  atMostOnce : (lifetime p env fd ops).log.count .close ≤ 1
  afterRaise : (∃ e, ((Listener.init env fd).call (Listener.new fd)).1 = .error e) →
    (lifetime p env fd ops).log.count .close = 1
  afterClose : ((Listener.init env fd).call (Listener.new fd)).1 = .ok () →
    (∃ op ∈ ops, op.isClose = true) → (lifetime p env fd ops).log.count .close = 1
  notAfterwards : ∀ before request behind,
    (lifetime p env fd ops).log = before ++ .ioctl request :: behind → FdEvent.close ∉ before

/-- An open listener is closed without `os.close` raising. -/
def ClosesCleanly (s : Listener) (op : ListenerOp) : Prop :=
  s.closed = false → op.closesCleanly = true

/-- A closed listener stays closed. -/
theorem ListenerOp.stays_closed (closed : s.closed = true) :
    ((op.body p).call s).2.closed = true := by
  cases closing : op.isClose with
  | false =>
    have uses := ListenerOp.within_uses p closing s
    exact uses.closed.trans closed
  | true =>
    rw [ListenerOp.call_closed closing closed]
    exact closed

/-- A closing operation leaves the listener closed. -/
theorem ListenerOp.call_closes (closing : op.isClose = true) (clean : ClosesCleanly s op) :
    ((op.body p).call s).2.closed = true := by
  cases opened : s.closed with
  | true => exact ListenerOp.stays_closed opened
  | false => rw [ListenerOp.call_open closing (clean opened) opened]

theorem after_stays_closed (ops : List ListenerOp) (closed : s.closed = true) :
    (after (fun op => (ListenerOp.body p op).call) ops s).closed = true :=
  after_keeps (I := fun s : Listener => s.closed = true) (P := fun _ _ => True)
    (fun _ _ _ closed => ListenerOp.stays_closed closed) (fun _ _ _ _ => trivial) closed

theorem lifetime_append (p : Platform) (env : InitEnv) (fd : Int) (ops more : List ListenerOp) :
    lifetime p env fd (ops ++ more) =
      after (fun op => (ListenerOp.body p op).call) more (lifetime p env fd ops) :=
  after_append ops more _

theorem lifetime_owned {env : InitEnv} {fd : Int} {ops : List ListenerOp}
    (ordinary : ∀ e, env.sizes = .error e → e.isException = true)
    (inheritable : env.sizes = .ok expectedSizes → env.setInheritable = none)
    (clean : Throughout (fun op => (ListenerOp.body p op).call) ClosesCleanly ops
      (lifetime p env fd [])) : Owned (lifetime p env fd ops) := by
  refine after_keeps (fun op s closes owned => owned.step closes) clean ?_
  rcases Listener.init_cases env fd ordinary with ⟨e, ran⟩ | ⟨e, sizes, raised, -⟩ | ran
  · exact ⟨[], by rw [ran]; rfl⟩
  · rw [inheritable sizes] at raised
    cases raised
  · exact ⟨[], by rw [ran]; rfl⟩

/-- A life in which `os.set_inheritable` does not raise when it is reached, and `os.close`
does not raise when it is called on an open listener: the descriptor is closed at most
once, exactly once if the constructor raised or the listener was closed, and no ioctl
comes afterwards. -/
theorem listener_owns_fd (p : Platform) (env : InitEnv) (fd : Int) (ops : List ListenerOp)
    (ordinary : ∀ e, env.sizes = .error e → e.isException = true)
    (inheritable : env.sizes = .ok expectedSizes → env.setInheritable = none)
    (clean : Throughout (fun op => (ListenerOp.body p op).call) ClosesCleanly ops
      (lifetime p env fd [])) : OwnsOnce p env fd ops := by
  have owned := lifetime_owned ordinary inheritable clean
  have once : (lifetime p env fd ops).closed = true →
      (lifetime p env fd ops).log.count .close = 1 := by
    intro closed
    rw [owned.count, if_pos closed]
  refine ⟨?_, ?_, ?_, fun before request behind log => owned.ioctl_first log⟩
  · rw [owned.count]
    split
    · exact le_rfl
    · exact Nat.zero_le 1
  · intro given
    rcases given with ⟨e, raised⟩
    apply once
    apply after_stays_closed ops
    rcases Listener.init_cases env fd ordinary with ⟨e, ran⟩ | ⟨e, -, -, ran⟩ | ran
    · exact congrArg (·.2.closed) ran
    · exact congrArg (·.2.closed) ran
    · rw [ran] at raised
      cases raised
  · rintro - ⟨op, mem, closing⟩
    apply once
    obtain ⟨before, behind, rfl⟩ := List.append_of_mem mem
    rw [lifetime_append]
    apply after_stays_closed behind
    exact ListenerOp.call_closes closing (clean before op behind rfl)

/-- A notification is answered, the listener is closed, and closed again when collected. -/
theorem listener_owns_fd_served :
    OwnsOnce ⟨"x86_64", true⟩ ⟨.ok expectedSizes, none, none⟩ 5
      [.valid 1 [.ok ⟨0, 0⟩], .respond 1 0 0 1 [.ok ⟨-1, eintr⟩, .ok ⟨0, 0⟩], .close none,
        .del none] := by
  apply listener_owns_fd
  · intro e raised
    cases raised
  · intro _
    rfl
  · refine Throughout.mono (fun _ op clean _ => clean) (.of_mem fun op mem => ?_)
    simp only [List.mem_cons, List.not_mem_nil, or_false] at mem
    rcases mem with rfl | rfl | rfl | rfl <;> rfl

/-- `os.set_inheritable` raises and the descriptor is never closed; or `os.close` raises
and is called again on the number it has released. -/
theorem listener_leaks_or_closes_twice :
    ¬ OwnsOnce ⟨"x86_64", true⟩ ⟨.ok expectedSizes, none, some (.osError (.int 9))⟩ 5
      [.del none] ∧
    ¬ OwnsOnce ⟨"x86_64", true⟩ ⟨.ok expectedSizes, none, none⟩ 5
      [.close (some (.osError (.int 5))), .del none] := by
  constructor
  · intro owns
    have once := owns.afterRaise ⟨.osError (.int 9), rfl⟩
    revert once
    decide
  · intro owns
    have once := owns.atMostOnce
    revert once
    decide

end Seccompy
