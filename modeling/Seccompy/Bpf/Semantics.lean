import Seccompy.Bpf.Records
import Seccompy.Lib.Machine

/-!
# Running programs

Two machines over the same state, a program counter and the 32-bit accumulator:
`symbolic` runs the instruction objects with labels read as instruction indices,
`packed` runs the assembled bytes record by record.  Both take the word a load
reads from a function of its offset.  `walk` evaluates straight-line code to the
label it jumps to, or to none when it runs off its end, and `walk_lands` places such
a stretch in a program.
-/

namespace Seccompy.Bpf

open Lib

structure State where
  pc : Nat
  acc : U32
  deriving DecidableEq, Repr

/-- How a run ends: with a `Ret`, past the program, or at something that cannot run
(an undefined or negative label, an unknown opcode). -/
inductive Outcome
  | ret (k : U32)
  | left (pc : Nat)
  | stuck
  deriving DecidableEq, Repr

def JumpOp.test : JumpOp → U32 → U32 → Bool
  | .jeq, acc, k => acc = k
  | .jgt, acc, k => k < acc
  | .jgeq, acc, k => k ≤ acc
  | .jset, acc, k => acc &&& k ≠ 0

/-! ## The symbolic program -/

/-- Continue at a label, or at the next instruction. -/
def goto (labels : Labels) (s : State) : Option String → State ⊕ Outcome
  | none => .inl ⟨s.pc + 1, s.acc⟩
  | some t =>
    match labels.get? t with
    | none => .inr .stuck
    | some idx => if 0 ≤ idx then .inl ⟨idx.toNat, s.acc⟩ else .inr .stuck

def symbolic (insns : List Insn) (labels : Labels) (load : U32 → U32) : Machine State Outcome :=
  fun s =>
    match insns[s.pc]? with
    | none => .inr (.left s.pc)
    | some (.load k) => .inl ⟨s.pc + 1, load k⟩
    | some (.and k) => .inl ⟨s.pc + 1, s.acc &&& k⟩
    | some (.jump op k jt jf) => goto labels s (if op.test s.acc k then jt else jf)
    | some (.ja t) => goto labels s (some t)
    | some (.ret k) => .inr (.ret k)

/-! ## The packed program -/

def JumpOp.ofCode? (code : BitVec 16) : Option JumpOp :=
  if code = BitVec.ofNat 16 bpfJeq then some .jeq
  else if code = BitVec.ofNat 16 bpfJgt then some .jgt
  else if code = BitVec.ofNat 16 bpfJgeq then some .jgeq
  else if code = BitVec.ofNat 16 bpfJset then some .jset
  else none

def Record.step (r : Record) (load : U32 → U32) (s : State) : State ⊕ Outcome :=
  if r.code = BitVec.ofNat 16 bpfLdAbsW then .inl ⟨s.pc + 1, load r.k⟩
  else if r.code = BitVec.ofNat 16 bpfAluAndK then .inl ⟨s.pc + 1, s.acc &&& r.k⟩
  else if r.code = BitVec.ofNat 16 bpfJa then .inl ⟨s.pc + 1 + r.k.toNat, s.acc⟩
  else if r.code = BitVec.ofNat 16 bpfRetK then .inr (.ret r.k)
  else
    match JumpOp.ofCode? r.code with
    | some op =>
      .inl ⟨s.pc + 1 + (if op.test s.acc r.k then r.jt else r.jf).toNat, s.acc⟩
    | none => .inr .stuck

def packed (prog : Bytes) (load : U32 → U32) : Machine State Outcome := fun s =>
  match fetch prog s.pc with
  | none => .inr (.left s.pc)
  | some r => r.step load s

/-! ## What each record does -/

section Step

variable {load : U32 → U32} {s : State}

theorem step_ja (k : U32) :
    (⟨BitVec.ofNat 16 bpfJa, 0, 0, k⟩ : Record).step load s =
      .inl ⟨s.pc + 1 + k.toNat, s.acc⟩ := rfl

theorem step_jump (op : JumpOp) (jt jf : Byte) (k : U32) :
    (⟨BitVec.ofNat 16 op.code, jt, jf, k⟩ : Record).step load s =
      .inl ⟨s.pc + 1 + (if op.test s.acc k then jt else jf).toNat, s.acc⟩ := by
  cases op <;> rfl

end Step

/-! ## Forward programs terminate -/

/-- The label a jump takes is one of its targets. -/
theorem mem_targets_branch (taken : Bool) {op : JumpOp} {k : U32} {jt jf : Option String}
    {t : String} (same : (if taken then jt else jf) = some t) :
    t ∈ targets (.jump op k jt jf) := by
  cases taken with
  | true => exact mem_targets_jump.mpr (by simp [show jt = some t from same])
  | false => exact mem_targets_jump.mpr (by simp [show jf = some t from same])

theorem mem_targets_ja {t t' : String} (same : some t = some t') : t' ∈ targets (.ja t) := by
  cases same
  exact List.mem_singleton_self t

theorem goto_forward {insns : List Insn} {labels : Labels} {s : State} {insn : Insn}
    (resolves : Resolves insns labels) (at_pc : insns[s.pc]? = some insn)
    {target : Option String} (mem : ∀ t, target = some t → t ∈ targets insn) :
    goto labels s target =
        .inl ⟨(target.map (labelIndex labels)).getD (s.pc + 1), s.acc⟩ ∧
      s.pc < (target.map (labelIndex labels)).getD (s.pc + 1) ∧
      (target.map (labelIndex labels)).getD (s.pc + 1) ≤ insns.length := by
  have bound : s.pc < insns.length := (List.getElem?_eq_some_iff.mp at_pc).1
  cases target with
  | none => exact ⟨rfl, Nat.lt_succ_self _, bound⟩
  | some t =>
    obtain ⟨p, found, ahead, inside⟩ := resolves.target at_pc (mem t rfl)
    simp only [goto, found, Option.map_some, Option.getD_some, labelIndex_eq found]
    exact ⟨by simp, ahead, inside⟩

/-- A step of a forward program moves strictly ahead and stays inside. -/
theorem symbolic_advances {insns : List Insn} {labels : Labels} {load : U32 → U32}
    (resolves : Resolves insns labels) {s s' : State}
    (step : symbolic insns labels load s = .inl s') : s.pc < s'.pc ∧ s'.pc ≤ insns.length := by
  unfold symbolic at step
  split at step
  · cases step
  · next k at_pc =>
    cases step
    exact ⟨Nat.lt_succ_self _, (List.getElem?_eq_some_iff.mp at_pc).1⟩
  · next k at_pc =>
    cases step
    exact ⟨Nat.lt_succ_self _, (List.getElem?_eq_some_iff.mp at_pc).1⟩
  · next op k jt jf at_pc =>
    obtain ⟨landed, forward⟩ := goto_forward resolves at_pc fun t => mem_targets_branch _
    rw [landed] at step
    cases step
    exact forward
  · next t at_pc =>
    obtain ⟨landed, forward⟩ := goto_forward resolves at_pc fun t' => mem_targets_ja
    rw [landed] at step
    cases step
    exact forward
  · cases step

/-- A forward program never gets stuck: it returns, or leaves past its last instruction. -/
theorem symbolic_final {insns : List Insn} {labels : Labels} {load : U32 → U32}
    (resolves : Resolves insns labels) {s : State} {o : Outcome} (inside : s.pc ≤ insns.length)
    (final : symbolic insns labels load s = .inr o) :
    (∃ k, insns[s.pc]? = some (.ret k) ∧ o = .ret k) ∨
      (s.pc = insns.length ∧ o = .left insns.length) := by
  unfold symbolic at final
  split at final
  · next beyond =>
    have := List.getElem?_eq_none_iff.mp beyond
    have same : s.pc = insns.length := by omega
    cases final
    exact Or.inr ⟨same, by rw [same]⟩
  · cases final
  · cases final
  · next op k jt jf at_pc =>
    rw [(goto_forward resolves at_pc fun t => mem_targets_branch _).1] at final
    cases final
  · next t at_pc =>
    rw [(goto_forward resolves at_pc fun t' => mem_targets_ja).1] at final
    cases final
  · next k at_pc =>
    cases final
    exact Or.inl ⟨k, at_pc, rfl⟩

theorem symbolic_halts {insns : List Insn} {labels : Labels} (load : U32 → U32)
    (resolves : Resolves insns labels) {s : State} (inside : s.pc ≤ insns.length) :
    ∃ o, (symbolic insns labels load).Halts s o := by
  refine Machine.exists_halts_of_measure (I := fun s => s.pc ≤ insns.length)
    (fun s => insns.length - s.pc) (fun s t _ step => ?_) inside
  obtain ⟨ahead, within⟩ := symbolic_advances resolves step
  exact ⟨within, by omega⟩

/-! ## Straight-line code -/

/-- Where straight-line code goes: to a label, or past its last instruction. -/
def walk (load : U32 → U32) : List Insn → U32 → Option String
  | [], _ => none
  | .load k :: rest, _ => walk load rest (load k)
  | .and k :: rest, acc => walk load rest (acc &&& k)
  | .jump op k jt jf :: rest, acc =>
    match if op.test acc k then jt else jf with
    | none => walk load rest acc
    | some t => some t
  | .ja t :: _, _ => some t
  | .ret _ :: _, _ => none

def Insn.isRet : Insn → Bool
  | .ret _ => true
  | _ => false

/-- What one instruction does. -/
def Insn.exec (labels : Labels) (load : U32 → U32) (s : State) : Insn → State ⊕ Outcome
  | .load k => .inl ⟨s.pc + 1, load k⟩
  | .and k => .inl ⟨s.pc + 1, s.acc &&& k⟩
  | .jump op k jt jf => goto labels s (if op.test s.acc k then jt else jf)
  | .ja t => goto labels s (some t)
  | .ret k => .inr (.ret k)

section Walk

variable {insns : List Insn} {labels : Labels} {load : U32 → U32}

theorem symbolic_at {s : State} {insn : Insn} (at_pc : insns[s.pc]? = some insn) :
    symbolic insns labels load s = insn.exec labels load s := by
  simp only [symbolic, at_pc]
  cases insn <;> rfl

theorem goto_label {s : State} {t : String} {p : Nat} (found : labels.get? t = some (p : Int)) :
    goto labels s (some t) = .inl ⟨p, s.acc⟩ := by
  simp [goto, found]

/-- From `s` the program continues at the label, or at `stop` when there is none. -/
def Lands (insns : List Insn) (labels : Labels) (load : U32 → U32) (s : State) (stop : Nat) :
    Option String → Prop
  | none => ∃ acc, (symbolic insns labels load).Reaches s ⟨stop, acc⟩
  | some t => ∀ p : Nat, labels.get? t = some (p : Int) →
      ∃ acc, (symbolic insns labels load).Reaches s ⟨p, acc⟩

/-- The positions from `start` up to `stop`. -/
def Region (start stop : Nat) (s : State) : Prop := start ≤ s.pc ∧ s.pc < stop

/-- `Lands`, without leaving the region from `start` to `stop` before. -/
def LandsIn (insns : List Insn) (labels : Labels) (load : U32 → U32) (start : Nat) (s : State)
    (stop : Nat) : Option String → Prop
  | none => ∃ acc, (symbolic insns labels load).ReachesIn (Region start stop) s ⟨stop, acc⟩
  | some t => ∀ p : Nat, labels.get? t = some (p : Int) →
      ∃ acc, (symbolic insns labels load).ReachesIn (Region start stop) s ⟨p, acc⟩

theorem LandsIn.lands {start stop : Nat} {s : State} {target : Option String}
    (run : LandsIn insns labels load start s stop target) :
    Lands insns labels load s stop target := by
  cases target with
  | none =>
    obtain ⟨acc, run⟩ := run
    exact ⟨acc, run.reaches⟩
  | some t =>
    intro p found
    obtain ⟨acc, run⟩ := run p found
    exact ⟨acc, run.reaches⟩

theorem LandsIn.head {start stop : Nat} {s s' : State} {target : Option String}
    (inside : Region start stop s) (step : symbolic insns labels load s = .inl s')
    (rest : LandsIn insns labels load start s' stop target) :
    LandsIn insns labels load start s stop target := by
  cases target with
  | none =>
    obtain ⟨acc, run⟩ := rest
    exact ⟨acc, Machine.ReachesIn.head inside step run⟩
  | some t =>
    intro p found
    obtain ⟨acc, run⟩ := rest p found
    exact ⟨acc, Machine.ReachesIn.head inside step run⟩

theorem LandsIn.of_goto {start stop : Nat} {s : State} {t : String}
    (inside : Region start stop s)
    (step : symbolic insns labels load s = goto labels s (some t)) :
    LandsIn insns labels load start s stop (some t) := by
  intro p found
  rw [goto_label found] at step
  exact ⟨s.acc, Machine.ReachesIn.head inside step Relation.ReflTransGen.refl⟩

/-- A stretch of code without `Ret`, standing at `pos`: the program continues where
`walk` says, and stays in the stretch until then. -/
theorem walk_inside {code : List Insn} {start pos : Nat} (after : start ≤ pos)
    (plain : ∀ insn ∈ code, insn.isRet = false)
    (placed : ∀ j < code.length, insns[pos + j]? = code[j]?) (acc : U32) :
    LandsIn insns labels load start ⟨pos, acc⟩ (pos + code.length) (walk load code acc) := by
  induction code generalizing pos acc with
  | nil => exact ⟨acc, Relation.ReflTransGen.refl⟩
  | cons insn code ih =>
    have inside : Region start (pos + (insn :: code).length) ⟨pos, acc⟩ := by
      refine ⟨after, ?_⟩
      simp
    have at_pc : insns[pos]? = some insn := placed 0 (by simp)
    have step : symbolic insns labels load ⟨pos, acc⟩ = insn.exec labels load ⟨pos, acc⟩ :=
      symbolic_at at_pc
    have rest : ∀ acc, LandsIn insns labels load start ⟨pos + 1, acc⟩
        (pos + (insn :: code).length) (walk load code acc) := by
      intro acc
      rw [List.length_cons, Nat.add_comm code.length, ← Nat.add_assoc]
      refine ih (by omega) (fun insn mem => plain insn (List.mem_cons_of_mem _ mem))
        (fun j within => ?_) acc
      rw [Nat.add_assoc, Nat.add_comm 1 j]
      exact placed (j + 1) (by simpa using within)
    cases insn with
    | load k => exact LandsIn.head inside step (rest (load k))
    | and k => exact LandsIn.head inside step (rest (acc &&& k))
    | jump op k jt jf =>
      simp only [walk]
      simp only [Insn.exec] at step
      cases side : (if op.test acc k then jt else jf) with
      | none =>
        rw [side] at step
        exact LandsIn.head inside step (rest acc)
      | some t =>
        rw [side] at step
        exact LandsIn.of_goto inside step
    | ja t => exact LandsIn.of_goto inside step
    | ret k => cases plain (.ret k) List.mem_cons_self

/-- A stretch of code without `Ret`, standing at `start`: the program continues where
`walk` says. -/
theorem walk_lands {code : List Insn} {start : Nat} (plain : ∀ insn ∈ code, insn.isRet = false)
    (placed : ∀ j < code.length, insns[start + j]? = code[j]?) (acc : U32) :
    Lands insns labels load ⟨start, acc⟩ (start + code.length) (walk load code acc) :=
  (walk_inside (Nat.le_refl start) plain placed acc).lands

end Walk

end Seccompy.Bpf
