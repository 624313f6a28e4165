import Seccompy.Method
import Seccompy.Syscalls
import Mathlib.Data.List.Sort

/-!
# Filters and their rules

`filter.py` up to compilation: actions, argument conditions and the checks that
build them, the `Filter` object and the rule methods.  A rule method runs as a
`Py Filter` body, so an exception leaves the object as the body left it.
-/

namespace Seccompy

open Lib Bpf

/-! ## Actions and flags -/

inductive Action
  | killProcess
  | killThread
  | trap
  | errno
  | userNotif
  | trace
  | log
  | allow
  deriving DecidableEq, Repr

def Action.code : Action → U32
  | .killProcess => 0x80000000
  | .killThread => 0x00000000
  | .trap => 0x00030000
  | .errno => 0x00050000
  | .userNotif => 0x7FC00000
  | .trace => 0x7FF00000
  | .log => 0x7FFC0000
  | .allow => 0x7FFF0000

def seccompRetData : Int := 0x0000FFFF

/-! ## Argument conditions -/

inductive CmpOp
  | eq
  | ne
  | lt
  | le
  | gt
  | ge
  | maskedEq
  deriving DecidableEq, Repr

def CmpOp.toInt : CmpOp → Int
  | .eq => 0
  | .ne => 1
  | .lt => 2
  | .le => 3
  | .gt => 4
  | .ge => 5
  | .maskedEq => 6

/-- `CmpOp(op)`. -/
def CmpOp.ofInt (op : Int) : Except PyExc CmpOp :=
  if op = 0 then .ok .eq
  else if op = 1 then .ok .ne
  else if op = 2 then .ok .lt
  else if op = 3 then .ok .le
  else if op = 4 then .ok .gt
  else if op = 5 then .ok .ge
  else if op = 6 then .ok .maskedEq
  else .error (.valueError s!"{op} is not a valid CmpOp")

def u64Max : Int := 0xFFFFFFFFFFFFFFFF

/-- One condition on a 64-bit argument; what `__post_init__` checks is part of the type. -/
structure ArgCmp where
  index : Fin 6
  op : CmpOp
  value : U64
  mask : U64
  masked : if op = .maskedEq then value &&& ~~~mask = 0 else mask = BitVec.allOnes 64
  deriving DecidableEq

/-- `ArgCmp(index, op, value, mask)`. -/
def ArgCmp.init (index op value mask : Int) : Except PyExc ArgCmp :=
  match CmpOp.ofInt op with
  | .error e => .error e
  | .ok op =>
    if inside : 0 ≤ index ∧ index ≤ 5 then
      if 0 ≤ value ∧ value ≤ u64Max then
        if 0 ≤ mask ∧ mask ≤ u64Max then
          let v : U64 := BitVec.ofInt 64 value
          let m : U64 := BitVec.ofInt 64 mask
          if isMasked : op = .maskedEq then
            if within : v &&& ~~~m = 0 then
              .ok ⟨⟨index.toNat, by omega⟩, op, v, m, by rw [if_pos isMasked]; exact within⟩
            else .error (.valueError "masked-eq value has bits outside the mask")
          else
            if full : m = BitVec.allOnes 64 then
              .ok ⟨⟨index.toNat, by omega⟩, op, v, m, by rw [if_neg isMasked]; exact full⟩
            else .error (.valueError "mask is only meaningful with MASKED_EQ")
        else .error (.valueError s!"argument mask out of range: {mask}")
      else .error (.valueError s!"argument value out of range: {value}")
    else .error (.valueError s!"argument index out of range: {index}")

/-- One element of an `args` iterable. -/
inductive ArgCond
  | cmp (cond : ArgCmp)
  | tuple (items : List Int)

/-- `_coerce_cond`; unpacking a tuple of another length is a `ValueError` as well. -/
def coerceCond : ArgCond → Except PyExc ArgCmp
  | .cmp cond => .ok cond
  | .tuple [index, op, value] => do
    let op ← CmpOp.ofInt op
    ArgCmp.init index op.toInt value u64Max
  | .tuple [index, op, value, mask] => do
    let op ← CmpOp.ofInt op
    ArgCmp.init index op.toInt value mask
  | .tuple items =>
    let count := items.length
    if count < 4 then
      .error (.valueError s!"not enough values to unpack (expected 4, got {count})")
    else .error (.valueError "too many values to unpack (expected 4)")

/-- The `args` of a rule: nothing, an index to value mapping, a list or tuple, or a
one-shot iterator, which may raise after its items. -/
inductive Args
  | none
  | mapping (items : Dict Int Int)
  | sequence (items : List ArgCond)
  | iterator (items : List ArgCond) (raised : Option PyExc)

/-- `sorted(raw, key=lambda cond: cond.index)`, which is stable. -/
def sortConds (conds : List ArgCmp) : List ArgCmp :=
  conds.insertionSort fun a b => a.index ≤ b.index

/-- The conditions of a rule.  Items are coerced one by one as the iterator yields
them, so a bad item raises before the iterator can. -/
def Args.conds : Args → Except PyExc (List ArgCmp)
  | .none => .ok []
  | .mapping items =>
    if items.entries.isEmpty then .ok []
    else do
      let raw ← items.entries.mapM fun item => ArgCmp.init item.1 CmpOp.eq.toInt item.2 u64Max
      return sortConds raw
  | .sequence items =>
    if items.isEmpty then .ok []
    else do
      let raw ← items.mapM coerceCond
      return sortConds raw
  | .iterator items raised => do
    let raw ← items.mapM coerceCond
    match raised with
    | .some e => throw e
    | .none => return sortConds raw

/-! ## The filter object -/

structure Rule where
  action : U32
  args : List ArgCmp
  deriving DecidableEq

structure Filter where
  default : U32
  flags : U32
  rules : Dict U32 (List Rule)
  cached : Option Bytes
  loaded : Bool

/-- `Filter(default, flags=flags)`. -/
def Filter.init (default flags : Int) : Except PyExc Filter :=
  if 0 ≤ default ∧ default ≤ 0xFFFFFFFF then
    if 0 ≤ flags ∧ flags ≤ 0xFFFFFFFF then
      .ok ⟨BitVec.ofInt 32 default, BitVec.ofInt 32 flags, Dict.empty, none, false⟩
    else .error (.valueError s!"filter flags out of range: {flags}")
  else .error (.valueError s!"default action out of range: {default}")

namespace Filter

def checkMutable : Py Filter Unit := do
  if (← Py.read).loaded then throw (.runtimeError "filter is already loaded")

/-- `_add`: check, resolve, validate, then append and drop the cached program. -/
def add (machine : String) (syscall : Syscall) (action : U32) (args : Args) :
    Py Filter Unit := do
  checkMutable
  let nr ← Py.lift (syscallNr machine syscall)
  let conds ← Py.lift args.conds
  Py.update fun self => { self with rules := self.rules.appendTo nr ⟨action, conds⟩ }
  Py.update fun self => { self with cached := none }

def allow (machine : String) (syscall : Syscall) (args : Args) : Py Filter Unit :=
  add machine syscall Action.allow.code args

def kill (machine : String) (syscall : Syscall) (args : Args) : Py Filter Unit :=
  add machine syscall Action.killProcess.code args

def killThread (machine : String) (syscall : Syscall) (args : Args) : Py Filter Unit :=
  add machine syscall Action.killThread.code args

def trap (machine : String) (syscall : Syscall) (args : Args) : Py Filter Unit :=
  add machine syscall Action.trap.code args

def log (machine : String) (syscall : Syscall) (args : Args) : Py Filter Unit :=
  add machine syscall Action.log.code args

def notify (machine : String) (syscall : Syscall) (args : Args) : Py Filter Unit :=
  add machine syscall Action.userNotif.code args

/-- `errno` and `trace`: check the 16-bit payload, then add the action carrying it. -/
def addData (what : String) (action : Action) (machine : String) (syscall : Syscall)
    (data : Int) (args : Args) : Py Filter Unit := do
  if ¬ (0 ≤ data ∧ data ≤ seccompRetData) then
    throw (.valueError s!"{what} out of range: {data}")
  add machine syscall (action.code ||| BitVec.ofInt 32 data) args

def errno (machine : String) (syscall : Syscall) (error : Int) (args : Args) : Py Filter Unit :=
  addData "errno" .errno machine syscall error args

def trace (machine : String) (syscall : Syscall) (msg : Int) (args : Args) : Py Filter Unit :=
  addData "trace message" .trace machine syscall msg args

end Filter

/-- A rule method, with its payload where it takes one. -/
inductive RuleMethod
  | allow
  | kill
  | killThread
  | trap
  | errno (error : Int)
  | trace (msg : Int)
  | log
  | notify
  deriving DecidableEq, Repr

/-- A call of a rule method. -/
structure RuleCall where
  method : RuleMethod
  syscall : Syscall
  args : Args

def RuleCall.body (machine : String) (c : RuleCall) : Py Filter Unit :=
  match c.method with
  | .allow => Filter.allow machine c.syscall c.args
  | .kill => Filter.kill machine c.syscall c.args
  | .killThread => Filter.killThread machine c.syscall c.args
  | .trap => Filter.trap machine c.syscall c.args
  | .errno error => Filter.errno machine c.syscall error c.args
  | .trace msg => Filter.trace machine c.syscall msg c.args
  | .log => Filter.log machine c.syscall c.args
  | .notify => Filter.notify machine c.syscall c.args

end Seccompy
