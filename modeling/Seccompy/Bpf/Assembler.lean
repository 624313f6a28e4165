import Seccompy.Errors
import Seccompy.Lib.Settle
import Seccompy.Lib.Word

/-!
# The classic BPF assembler

`bpf.py`: instructions with symbolic jump labels and `assemble`, which resolves
them into packed `struct sock_filter` records.  Operands are 32-bit words by
construction; a caller goes through the checks of `InsnCall.make`, which let exactly
these words pass (`InsnCall.make_ok_iff`).  Every partial operation of the source
(`labels[t]`, `pos[i]`, `struct.pack`) raises here as it does there.
-/

namespace Seccompy.Bpf

open Lib

abbrev U32 := BitVec 32
abbrev U64 := BitVec 64
abbrev Bytes := List Byte

/-- A symbol table, `dict[str, int]`; the indices are unchecked integers. -/
abbrev Labels := Dict String Int

/-! ## Opcodes -/

def bpfLdAbsW : Nat := 0x20
def bpfAluAndK : Nat := 0x54
def bpfRetK : Nat := 0x06
def bpfJa : Nat := 0x05
def bpfJeq : Nat := 0x15
def bpfJgt : Nat := 0x25
def bpfJgeq : Nat := 0x35
def bpfJset : Nat := 0x45

def maxCondJump : Int := 255

def u32Max : Int := 0xFFFFFFFF

/-- The members of `_JUMP_OPS`. -/
inductive JumpOp
  | jeq
  | jgt
  | jgeq
  | jset
  deriving DecidableEq, Repr

def JumpOp.code : JumpOp → Nat
  | .jeq => bpfJeq
  | .jgt => bpfJgt
  | .jgeq => bpfJgeq
  | .jset => bpfJset

/-! ## Instructions -/

inductive Insn
  | load (k : U32)
  | and (k : U32)
  | jump (op : JumpOp) (k : U32) (jt jf : Option String)
  | ja (target : String)
  | ret (k : U32)
  deriving DecidableEq, Repr

def Insn.isJump : Insn → Bool
  | .jump .. => true
  | _ => false

/-! ## Construction -/

/-- `f"{n:#x}"`. -/
def hexText (n : Int) : String :=
  (if n < 0 then "-0x" else "0x") ++ String.ofList (Nat.toDigits 16 n.natAbs)

/-- `_check_u32`, returning the checked word. -/
def checkU32 (name : String) (value : Int) : Except PyExc U32 :=
  if 0 ≤ value ∧ value ≤ u32Max then .ok (BitVec.ofInt 32 value)
  else .error (.valueError s!"{name} does not fit in a u32: {value}")

/-- `op not in _JUMP_OPS`. -/
def JumpOp.ofInt (op : Int) : Except PyExc JumpOp :=
  if op = bpfJeq then .ok .jeq
  else if op = bpfJgt then .ok .jgt
  else if op = bpfJgeq then .ok .jgeq
  else if op = bpfJset then .ok .jset
  else .error (.valueError s!"not a conditional jump opcode: {hexText op}")

/-- The call of a constructor, with integers of any size. -/
inductive InsnCall
  | load (k : Int)
  | and (k : Int)
  | jump (op k : Int) (jt jf : Option String)
  | ja (target : String)
  | ret (k : Int)
  deriving DecidableEq, Repr

/-- The instruction, once `__post_init__` has returned. -/
def InsnCall.make : InsnCall → Except PyExc Insn
  | .load k => return .load (← checkU32 "offset" k)
  | .and k => return .and (← checkU32 "operand" k)
  | .jump op k jt jf => do
    let op ← JumpOp.ofInt op
    return .jump op (← checkU32 "operand" k) jt jf
  | .ja target => return .ja target
  | .ret k => return .ret (← checkU32 "result" k)

/-- The fields of an instruction. -/
def Insn.fields : Insn → InsnCall
  | .load k => .load k.toNat
  | .and k => .and k.toNat
  | .jump op k jt jf => .jump op.code k.toNat jt jf
  | .ja target => .ja target
  | .ret k => .ret k.toNat

theorem checkU32_ok_iff {name : String} {value : Int} {k : U32} :
    checkU32 name value = .ok k ↔ value = k.toNat := by
  have word := k.isLt
  unfold checkU32 u32Max
  constructor
  · intro ok
    split at ok
    · next fits =>
      cases ok
      exact (toNat_ofInt_fits fits.1 (by omega)).symm
    · cases ok
  · rintro rfl
    rw [if_pos (by omega)]
    simp

theorem JumpOp.ofInt_ok_iff {n : Int} {op : JumpOp} : JumpOp.ofInt n = .ok op ↔ n = op.code := by
  unfold JumpOp.ofInt
  constructor
  · intro ok
    split_ifs at ok with jeq jgt jgeq jset
    · cases ok
      exact jeq
    · cases ok
      exact jgt
    · cases ok
      exact jgeq
    · cases ok
      exact jset
  · rintro rfl
    cases op <;> rfl

/-- The constructors let pass exactly the words and the four opcodes of the model, so that an
instruction holds what it was built with, and every instruction can be built. -/
theorem InsnCall.make_ok_iff {c : InsnCall} {insn : Insn} : c.make = .ok insn ↔ c = insn.fields := by
  cases c with
  | load k =>
    simp only [InsnCall.make, bind_eq_ok, checkU32_ok_iff, pure_eq_ok, Except.ok.injEq]
    cases insn <;> simp [Insn.fields, eq_comm]
  | and k =>
    simp only [InsnCall.make, bind_eq_ok, checkU32_ok_iff, pure_eq_ok, Except.ok.injEq]
    cases insn <;> simp [Insn.fields, eq_comm]
  | jump op k jt jf =>
    simp only [InsnCall.make, bind_eq_ok, checkU32_ok_iff, JumpOp.ofInt_ok_iff, pure_eq_ok,
      Except.ok.injEq]
    cases insn <;> simp [Insn.fields, eq_comm]
  | ja target =>
    simp only [InsnCall.make, pure_eq_ok, Except.ok.injEq]
    cases insn <;> simp [Insn.fields]
  | ret k =>
    simp only [InsnCall.make, bind_eq_ok, checkU32_ok_iff, pure_eq_ok, Except.ok.injEq]
    cases insn <;> simp [Insn.fields, eq_comm]

example : (InsnCall.jump 0x1D 0 none none).make =
    .error (.valueError "not a conditional jump opcode: 0x1d") := by decide

/-! ## Layout -/

/-- Running sum from `start`, the position past the end included. -/
def positionsFrom (start : Nat) : List Nat → List Nat
  | [] => [start]
  | size :: sizes => start :: positionsFrom (start + size) sizes

def positions (sizes : List Nat) : List Nat := positionsFrom 0 sizes

/-- `_expanded_size`: a hop and one JA, or two when both labels are set. -/
def expandedSize (jt jf : Option String) : Nat :=
  match jt with
  | none => 2
  | some _ => if jf.isSome then 3 else 2

def targets : Insn → List String
  | .jump _ _ jt jf => [jt, jf].filterMap id
  | .ja target => [target]
  | _ => []

def offset (target : Option String) (labels : Labels) (pos : List Nat) (i : Nat) :
    Except PyExc (Option Int) :=
  match target with
  | none => .ok none
  | some target => do
    let stop ← pyGet pos (← dictGet labels target)
    let start ← pyGet pos i
    let off : Int := stop - start - 1
    if off < 0 then throw (.valueError s!"backward jump to label: {target}")
    return some off

/-- The loop of `_needs_expansion`; a far target answers before the next is looked at. -/
def anyFar (labels : Labels) (pos : List Nat) (i : Nat) : List (Option String) → Except PyExc Bool
  | [] => .ok false
  | target :: rest => do
    let off ← offset target labels pos i
    if off.any (maxCondJump < ·) then return true
    anyFar labels pos i rest

def needsExpansion (jt jf : Option String) (labels : Labels) (pos : List Nat) (i : Nat) :
    Except PyExc Bool :=
  anyFar labels pos i [jt, jf]

/-- The body of the sizing loop for one instruction: its size after the pass, and
whether the pass changed it. -/
def resolveInsn (labels : Labels) (pos : List Nat) (i : Nat) (insn : Insn) (size : Nat) :
    Except PyExc (Nat × Bool) :=
  match insn with
  | .jump _ _ jt jf =>
    if size > 1 then .ok (size, false)
    else do
      if ← needsExpansion jt jf labels pos i then return (expandedSize jt jf, true)
      else return (size, false)
  | _ => .ok (size, false)

/-- One pass over the instructions from index `i` on.  `pos` was computed before the
pass; the flag reports whether any size changed. -/
def resolvePass (labels : Labels) (pos : List Nat) :
    Nat → List Insn → List Nat → Except PyExc (List Nat × Bool)
  | i, insn :: insns, size :: sizes => do
    let (size, grown) ← resolveInsn labels pos i insn size
    let (sizes, changed) ← resolvePass labels pos (i + 1) insns sizes
    return (size :: sizes, grown || changed)
  | _, _, _ => .ok ([], false)

/-- `_resolve_sizes`: passes from all ones until a pass changes nothing, `len(insns) + 1`
of them at most. -/
def resolveSizes (insns : List Insn) (labels : Labels) : Except PyExc (List Nat) :=
  settle (fun sizes => resolvePass labels (positions sizes) 0 insns sizes)
    (.valueError "jump resolution did not converge") (insns.length + 1)
    (List.replicate insns.length 1)

/-! ## Emission -/

/-- `struct.pack("<HBBI", code, jt, jf, k)`. -/
def structPack (code jt jf k : Int) : Except PyExc Bytes :=
  if (0 ≤ code ∧ code < 2 ^ 16) ∧ (0 ≤ jt ∧ jt < 2 ^ 8) ∧ (0 ≤ jf ∧ jf < 2 ^ 8) ∧
      (0 ≤ k ∧ k < 2 ^ 32) then
    .ok (toLE 2 code.toNat ++ toLE 1 jt.toNat ++ toLE 1 jf.toNat ++ toLE 4 k.toNat)
  else .error .structError

def jaBytes (target : Option String) (labels : Labels) (pos : List Nat) (pc : Nat) :
    Except PyExc Bytes :=
  match target with
  | none => .error (.valueError "JA without a target")
  | some target => do
    let stop ← pyGet pos (← dictGet labels target)
    let off : Int := stop - pc - 1
    if off < 0 ∨ off > 0xFFFFFFFF then
      throw (.valueError s!"JA target out of range: {target}")
    structPack bpfJa 0 0 off

/-- `_emit_expanded`, a hop over JA trampolines:
`jt` none: `jXX 1 0; JA jf`; `jf` none: `jXX 0 1; JA jt`; both: `jXX 0 1; JA jt; JA jf`. -/
def emitExpanded (op : JumpOp) (k : U32) (jt jf : Option String) (labels : Labels)
    (pos : List Nat) (i : Nat) : Except PyExc Bytes := do
  match jt with
  | none =>
    let hop ← structPack op.code 1 0 k.toNat
    let ja ← jaBytes jf labels pos ((← pyGet pos i) + 1)
    return hop ++ ja
  | some _ =>
    let hop ← structPack op.code 0 1 k.toNat
    let ja ← jaBytes jt labels pos ((← pyGet pos i) + 1)
    match jf with
    | none => return hop ++ ja
    | some _ =>
      let ja' ← jaBytes jf labels pos ((← pyGet pos i) + 2)
      return hop ++ ja ++ ja'

def emit (insn : Insn) (labels : Labels) (pos : List Nat) (i size : Nat) :
    Except PyExc Bytes :=
  match insn with
  | .load k => structPack bpfLdAbsW 0 0 k.toNat
  | .and k => structPack bpfAluAndK 0 0 k.toNat
  | .ja target => do
    match ← offset (some target) labels pos i with
    | none => throw (.valueError s!"JA target out of range: {target}")
    | some off =>
      if off > 0xFFFFFFFF then throw (.valueError s!"JA target out of range: {target}")
      structPack bpfJa 0 0 off
  | .ret k => structPack bpfRetK 0 0 k.toNat
  | .jump op k jt jf => do
    let t ← offset jt labels pos i
    let f ← offset jf labels pos i
    if size = 1 then
      if t.any (maxCondJump < ·) || f.any (maxCondJump < ·) then
        throw (.valueError "conditional jump out of range")
      structPack op.code (t.getD 0) (f.getD 0) k.toNat
    else emitExpanded op k jt jf labels pos i

/-- The emission loop of `assemble` from instruction `i` on. -/
def emitFrom (labels : Labels) (pos sizes : List Nat) : Nat → List Insn → Except PyExc Bytes
  | _, [] => .ok []
  | i, insn :: insns => do
    let bytes ← emit insn labels pos i (← pyGet sizes i)
    let rest ← emitFrom labels pos sizes (i + 1) insns
    return bytes ++ rest

/-- The body of `_validate_labels` for one target. -/
def validateTarget (count : Nat) (labels : Labels) (target : String) : Except PyExc Unit :=
  match labels.get? target with
  | none => .error (.valueError s!"undefined label: {target}")
  | some idx =>
    if 0 ≤ idx ∧ idx ≤ count then .ok ()
    else .error (.valueError s!"label out of range: {target}")

def validateLabels (insns : List Insn) (labels : Labels) : Except PyExc Unit :=
  insns.forM fun insn => (targets insn).forM (validateTarget insns.length labels)

def assemble (insns : List Insn) (labels : Labels) : Except PyExc Bytes := do
  validateLabels insns labels
  let sizes ← resolveSizes insns labels
  emitFrom labels (positions sizes) sizes 0 insns

end Seccompy.Bpf
