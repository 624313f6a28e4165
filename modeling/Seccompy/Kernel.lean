import Seccompy.Bpf.Assembler
import Seccompy.Method

/-!
# Calling the kernel

`_syscall.py`: the retry loop around a system call and the two calls that install a
filter.  Each attempt of a call is an action that leaves its trace and answers with
a return value and an errno.  The attempts of one call are a finite list; where it
ends, a signal handler raises instead of letting the loop retry.
-/

namespace Seccompy

open Lib Bpf

/-- `struct seccomp_data`; the number is read as a signed integer in a notification. -/
structure SeccompData where
  nr : U32
  arch : U32
  instructionPointer : U64
  args : Fin 6 → U64

/-! ## Errno values -/

def enoent : Int := 2
def eintr : Int := 4
def eacces : Int := 13
def efault : Int := 14
def einval : Int := 22
def enosys : Int := 38
def eopnotsupp : Int := 95

/-- `platform.machine()`, and whether `sys.platform` is `linux`. -/
structure Platform where
  machine : String
  linux : Bool

def getLibc (p : Platform) : Except PyExc Unit :=
  if p.linux then .ok () else .error (.unsupported "seccomp is only available on Linux")

def sysSeccomp : List (String × Nat) :=
  [("x86_64", 317), ("amd64", 317), ("aarch64", 277), ("arm64", 277)]

def archNr (p : Platform) (table : List (String × Nat)) (name : String) : Except PyExc Nat :=
  let machine := p.machine.toLower
  match table.lookup machine with
  | some nr => .ok nr
  | none => .error (.unsupported s!"no {name} syscall number for {machine}")

def seccompNr (p : Platform) : Except PyExc Nat := archNr p sysSeccomp "seccomp"

/-! ## The retry loop -/

/-- What one attempt leaves: the return value, and errno, read when that is -1. -/
structure Reply where
  ret : Int
  errno : Int
  deriving DecidableEq, Repr

/-- The reply that ends a retry loop. -/
def decisiveReply (replies : List Reply) : Option Reply :=
  replies.find? fun r => ¬ (r.ret = -1 ∧ r.errno = eintr)

/-- The exception for an errno. -/
def raiseErrno (err : Int) : PyExc :=
  if err = enosys ∨ err = eopnotsupp then .unsupportedError err else .seccompError err

/-- The loop of `_call`. -/
def callLoop {σ : Type} : List (Py σ Reply) → Py σ Int
  | [] => throw .keyboardInterrupt
  | attempt :: rest => do
    let r ← attempt
    if r.ret ≠ -1 then return r.ret
    else if r.errno = eintr then callLoop rest
    else throw (raiseErrno r.errno)

/-- `_call`. -/
def call {σ : Type} (p : Platform) (attempts : List (Py σ Reply)) : Py σ Int := do
  Py.lift (getLibc p)
  callLoop attempts

/-- `_seccomp`; the arguments of the call are part of what an attempt does. -/
def seccomp {σ : Type} (p : Platform) (attempts : List (Py σ Reply)) : Py σ Int := do
  let _ ← Py.lift (seccompNr p)
  call p attempts

/-! ## Installing a filter -/

/-- What happened on the way to the kernel, oldest first. -/
inductive Event
  /-- `set_no_new_privs` returned. -/
  | noNewPrivs
  /-- `set_mode_filter` was called. -/
  | setModeFilter (program : Bytes) (flags : U32)
  /-- The kernel installed a program. -/
  | installed (program : Bytes) (flags : U32)
  /-- `set_mode_filter` returned. -/
  | modeFilterSet (ret : Int)
  deriving DecidableEq

abbrev Log := List Event

def record (e : Event) : Py Log Unit := Py.update (· ++ [e])

/-- The loop of `set_no_new_privs` over the replies of `prctl`. -/
def prctlLoop : List Reply → Except PyExc Unit
  | [] => .error .keyboardInterrupt
  | r :: rest =>
    if r.ret ≠ -1 then .ok ()
    else if r.errno = eintr then prctlLoop rest
    else .error (.seccompError r.errno)

def setNoNewPrivs (p : Platform) (replies : List Reply) : Py Log Unit := do
  Py.lift (getLibc p)
  Py.lift (prctlLoop replies)
  record .noNewPrivs

/-- How one `SECCOMP_SET_MODE_FILTER` call ends in the kernel: the filter is installed
and the call returns 0 or the listener's descriptor, it is refused with an errno, or
a thread could not be synchronised and the call returns that thread's id. -/
inductive Install
  | installed (ret : Nat)
  | refused (errno : Int)
  | notSynced (tid : Nat)
  deriving DecidableEq, Repr

def Install.reply : Install → Reply
  | .installed ret => ⟨ret, 0⟩
  | .refused errno => ⟨-1, errno⟩
  | .notSynced tid => ⟨tid, 0⟩

def flagTsync : U32 := 1
def flagNewListener : U32 := 8
def flagTsyncEsrch : U32 := 16

/-- `flags & flag`. -/
def hasFlag (flags flag : U32) : Bool := flags &&& flag ≠ 0

/-- What seccomp(2) allows under the given flags. -/
def Install.Allowed (flags : U32) : Install → Prop
  | .installed ret => hasFlag flags flagNewListener = false → ret = 0
  | .refused _ => True
  | .notSynced tid => 0 < tid ∧ hasFlag flags flagTsync = true ∧
      hasFlag flags flagTsyncEsrch = false

/-- One attempt to install. -/
def Install.attempt (program : Bytes) (flags : U32) (a : Install) : Py Log Reply := do
  match a with
  | .installed _ => record (.installed program flags)
  | _ => pure ()
  return a.reply

/-- `struct sock_fprog`; the instruction count is a `c_ushort`. -/
structure SockFprog where
  len : BitVec 16
  filter : Bytes
  deriving DecidableEq

/-- The program the kernel reads through the struct. -/
def SockFprog.program (fprog : SockFprog) : Bytes := fprog.filter.take (8 * fprog.len.toNat)

/-- The checks of `set_mode_filter`, and the struct it passes to the kernel. -/
def sockFprog (program : Bytes) : Except PyExc SockFprog :=
  if program.length % 8 ≠ 0 ∨ program = [] then
    .error (.valueError "program must be a non-empty multiple of 8 bytes")
  else
    let insns := program.length / 8
    if insns > 4096 then
      .error (.valueError "program exceeds the kernel limit of 4096 instructions")
    else .ok ⟨BitVec.ofNat 16 insns, program⟩

def setModeFilter (p : Platform) (program : Bytes) (flags : U32) (answers : List Install) :
    Py Log Int := do
  record (.setModeFilter program flags)
  let fprog ← Py.lift (sockFprog program)
  let ret ← seccomp p (answers.map (Install.attempt fprog.program flags))
  record (.modeFilterSet ret)
  return ret

/-! ## What the checks let through -/

theorem sockFprog_ok {program : Bytes} (whole : program.length % 8 = 0) (some_insn : program ≠ [])
    (small : program.length / 8 ≤ 4096) :
    sockFprog program = .ok ⟨BitVec.ofNat 16 (program.length / 8), program⟩ := by
  simp only [sockFprog]
  rw [if_neg (by simp [whole, some_insn]), if_neg (by omega)]

theorem sockFprog_program {program : Bytes} {fprog : SockFprog}
    (ok : sockFprog program = .ok fprog) :
    fprog.program = program ∧ fprog.len.toNat = program.length / 8 := by
  simp only [sockFprog] at ok
  split at ok
  · cases ok
  · next passed =>
    split at ok
    · cases ok
    · next small =>
      cases ok
      rw [not_or, not_not] at passed
      have count : (BitVec.ofNat 16 (program.length / 8)).toNat = program.length / 8 := by
        rw [BitVec.toNat_ofNat, Nat.mod_eq_of_lt (by omega)]
      refine ⟨?_, count⟩
      simp only [SockFprog.program, count]
      exact List.take_of_length_le (by omega)

theorem sockFprog_le {program : Bytes} {fprog : SockFprog} (ok : sockFprog program = .ok fprog) :
    program.length / 8 ≤ 4096 := by
  by_contra large
  simp only [sockFprog, if_pos (not_le.mp large)] at ok
  split at ok <;> cases ok

end Seccompy
