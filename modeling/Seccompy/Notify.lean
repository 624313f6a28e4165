import Seccompy.Kernel
import Mathlib.Data.Int.Bitwise

/-!
# The notification listener

`notify.py`: the `Listener` that owns a notification descriptor.  Every system call
on the descriptor leaves an entry in a log.  `os.close` always releases the
descriptor, also when it raises.  What the outside world answers is a parameter of
each method: the outcome of the sizes query, of `os.set_inheritable` and of
`os.close`, and the replies to the attempts of an ioctl.
-/

namespace Seccompy

open Lib Bpf

/-- Caught by `except Exception`. -/
def PyExc.isException : PyExc → Bool
  | .keyboardInterrupt => false
  | _ => true

/-! ## Structures and requests -/

structure NotifSizes where
  seccompNotif : Nat
  seccompNotifResp : Nat
  seccompData : Nat
  deriving DecidableEq, Repr

def NotifSizes.text (s : NotifSizes) : String :=
  let notif := s.seccompNotif
  let resp := s.seccompNotifResp
  let data := s.seccompData
  s!"NotifSizes(seccomp_notif={notif}, seccomp_notif_resp={resp}, seccomp_data={data})"

/-- `_EXPECTED_SIZES`, from `ctypes.sizeof`. -/
def expectedSizes : NotifSizes := ⟨80, 24, 64⟩

/-- `struct seccomp_notif`, as the kernel fills it in. -/
structure SeccompNotif where
  id : U64
  pid : U32
  flags : U32
  data : SeccompData

/-- `struct seccomp_notif_resp`. -/
structure SeccompNotifResp where
  id : U64
  val : BitVec 64
  error : BitVec 32
  flags : U32
  deriving DecidableEq

/-- `struct seccomp_notif_addfd`. -/
structure SeccompNotifAddfd where
  id : U64
  flags : U32
  srcfd : U32
  newfd : U32
  newfdFlags : U32
  deriving DecidableEq

/-- An ioctl with the structure it passes. -/
inductive IoctlRequest
  | recv
  | send (resp : SeccompNotifResp)
  | idValid (cookie : U64)
  | addfd (req : SeccompNotifAddfd)
  | setFlags (bits : U64)
  deriving DecidableEq

structure Notification where
  id : Nat
  pid : Nat
  flags : Nat
  nr : Int
  arch : Nat
  instructionPointer : Nat
  args : List Nat
  deriving DecidableEq, Repr

/-! ## The object and the calls on its descriptor -/

/-- A system call on the descriptor. -/
inductive FdEvent
  | close
  | ioctl (request : IoctlRequest)
  deriving DecidableEq

/-- A `Listener` and the calls made on its descriptor so far. -/
structure Listener where
  fd : Int
  closed : Bool
  log : List FdEvent

/-- `os.close(fd)`: the descriptor is released, whatever is raised. -/
def osClose (raised : Option PyExc) : Py Listener Unit := do
  Py.update fun self => { self with log := self.log ++ [.close] }
  match raised with
  | some e => throw e
  | none => return ()

/-- The replies to the attempts of an ioctl; the call itself may raise. -/
abbrev IoctlReplies := List (Except PyExc Reply)

/-- `_syscall.ioctl`, which has the loop of `_call`. -/
def ioctl (p : Platform) (request : IoctlRequest) (replies : IoctlReplies) : Py Listener Int :=
  call p (replies.map fun reply => do
    Py.update fun self => { self with log := self.log ++ [.ioctl request] }
    Py.lift reply)

/-- What a construction meets. -/
structure InitEnv where
  sizes : Except PyExc NotifSizes
  close : Option PyExc
  setInheritable : Option PyExc

namespace Listener

/-- The object before `__init__` ran. -/
def new (fd : Int) : Listener := ⟨fd, true, []⟩

def abiMismatch (kernel : NotifSizes) : PyExc :=
  let got := kernel.text
  let wanted := expectedSizes.text
  .unsupported s!"kernel notification ABI mismatch: {got} != {wanted}"

/-- `__init__`; `_closed` is set first and cleared last. -/
def init (env : InitEnv) (fd : Int) : Py Listener Unit := do
  Py.update fun self => { self with fd := fd }
  Py.update fun self => { self with closed := true }
  let kernel ← Py.rescue (Py.lift env.sizes) fun e => do
    if e.isException then osClose env.close
    throw e
  if kernel ≠ expectedSizes then
    osClose env.close
    throw (abiMismatch kernel)
  match env.setInheritable with
  | some e => throw e
  | none => Py.update fun self => { self with closed := false }

def fileno : Py Listener Int := do
  let self ← Py.read
  Py.raiseIf (self.closed = true) (.valueError "listener is closed")
  return self.fd

/-- `_ioctl`. -/
def ioctl (p : Platform) (request : IoctlRequest) (replies : IoctlReplies) : Py Listener Int := do
  Py.raiseIf ((← Py.read).closed = true) (.runtimeError "listener is closed")
  Seccompy.ioctl p request replies

def recv (p : Platform) (replies : IoctlReplies) (notif : SeccompNotif) :
    Py Listener Notification := do
  let _ ← ioctl p .recv replies
  return {
    id := notif.id.toNat
    pid := notif.pid.toNat
    flags := notif.flags.toNat
    nr := notif.data.nr.toInt
    arch := notif.data.arch.toNat
    instructionPointer := notif.data.instructionPointer.toNat
    args := (List.finRange 6).map fun i => (notif.data.args i).toNat }

def maxErrno : Int := 4095

def checkId (notifId : Int) : Except PyExc Unit :=
  if 0 ≤ notifId ∧ notifId ≤ 0xFFFFFFFFFFFFFFFF then .ok ()
  else .error (.valueError s!"notification id out of range: {notifId}")

/-- `RespFlag.CONTINUE`. -/
def respContinue : Int := 1

/-- `AddFdFlag.SETFD`. -/
def addfdSetfd : Int := 1

/-- `os.O_CLOEXEC`. -/
def oCloexec : Int := 0x80000

def respond (p : Platform) (notifId error val flags : Int) (replies : IoctlReplies) :
    Py Listener Unit := do
  Py.lift (checkId notifId)
  Py.raiseIf (¬ (0 ≤ error ∧ error ≤ maxErrno)) (.valueError s!"errno out of range: {error}")
  Py.raiseIf (¬ (-(2 ^ 63) ≤ val ∧ val ≤ 2 ^ 63 - 1))
    (.valueError s!"return value out of range: {val}")
  Py.raiseIf (¬ (0 ≤ flags ∧ flags ≤ 0xFFFFFFFF))
    (.valueError s!"response flags out of range: {flags}")
  Py.raiseIf (flags.land respContinue ≠ 0 ∧ (error ≠ 0 ∨ val ≠ 0))
    (.valueError "RespFlag.CONTINUE requires error and val to be 0")
  let _ ← ioctl p (.send ⟨BitVec.ofInt 64 notifId, BitVec.ofInt 64 val, BitVec.ofInt 32 (-error),
    BitVec.ofInt 32 flags⟩) replies

/-- The flags are used before their range is checked. -/
def addfd (p : Platform) (notifId localFd flags newfd newfdFlags : Int)
    (replies : IoctlReplies) : Py Listener Int := do
  Py.lift (checkId notifId)
  Py.raiseIf (¬ (0 ≤ localFd ∧ localFd ≤ 0x7FFFFFFF)) (.valueError s!"fd out of range: {localFd}")
  Py.raiseIf (¬ (0 ≤ newfd ∧ newfd ≤ 0x7FFFFFFF)) (.valueError s!"fd out of range: {newfd}")
  Py.raiseIf (newfd ≠ 0 ∧ flags.land addfdSetfd = 0)
    (.valueError "newfd requires AddFdFlag.SETFD")
  Py.raiseIf (¬ (0 ≤ flags ∧ flags ≤ 0xFFFFFFFF))
    (.valueError s!"addfd flags out of range: {flags}")
  Py.raiseIf (newfdFlags.land oCloexec.lnot ≠ 0)
    (.valueError "newfd_flags accepts only O_CLOEXEC")
  ioctl p (.addfd ⟨BitVec.ofInt 64 notifId, BitVec.ofInt 32 flags, BitVec.ofInt 32 localFd,
    BitVec.ofInt 32 newfd, BitVec.ofInt 32 newfdFlags⟩) replies

def valid (p : Platform) (notifId : Int) (replies : IoctlReplies) : Py Listener Bool := do
  Py.lift (checkId notifId)
  Py.rescue
    (do let _ ← ioctl p (.idValid (BitVec.ofInt 64 notifId)) replies
        return true)
    fun e => if e = .seccompError enoent then return false else throw e

def setFlags (p : Platform) (flags : Int) (replies : IoctlReplies) : Py Listener Unit := do
  Py.raiseIf (¬ (0 ≤ flags ∧ flags ≤ 0xFFFFFFFFFFFFFFFF))
    (.valueError s!"fd flags out of range: {flags}")
  let _ ← ioctl p (.setFlags (BitVec.ofInt 64 flags)) replies

/-- `_closed` is set after `os.close` has returned. -/
def close (raised : Option PyExc) : Py Listener Unit := do
  if ¬ (← Py.read).closed then
    osClose raised
    Py.update fun self => { self with closed := true }

def enter : Py Listener Unit := do
  Py.raiseIf ((← Py.read).closed = true) (.runtimeError "listener is closed")

def exit (raised : Option PyExc) : Py Listener Unit := close raised

/-- `__del__` lets no `Exception` out. -/
def del (raised : Option PyExc) : Py Listener Unit :=
  Py.rescue (close raised) fun e => if e.isException then return () else throw e

end Listener

end Seccompy
