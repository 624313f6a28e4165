import Seccompy.Bpf.Simulation

/-!
# The reference interpreters

`run_source` and `run_packed` of `tests/test_bpf.py`, the oracle the assembler is tested
against.  They compute on Python integers, read data past its end as zeros, and report a
run that leaves the program as whatever their own indexing raises.  Each goes in lockstep
with the machine of `Semantics.lean` over the same program (`runSource_lockstep`,
`runPacked_lockstep`), so the comparison they make on sampled programs comes out equal on
all of them.
-/

namespace Seccompy.Bpf

open Lib

/-! ## The interpreters -/

/-- `xs.ljust(n, b"\0")`. -/
def ljust (n : Nat) (xs : Bytes) : Bytes := xs ++ List.replicate (n - xs.length) 0

/-- `int.from_bytes(data[k : k + 4].ljust(4, b"\0"), "little")`. -/
def readWord (data : Bytes) (k : Nat) : Nat := ofLE (ljust 4 ((data.drop k).take 4))

/-- `struct.unpack_from("<HBBI", prog, offset)`. -/
def unpackFrom (prog : Bytes) (offset : Nat) : Except PyExc (Nat × Nat × Nat × Nat) :=
  if offset + 8 ≤ prog.length then
    .ok (ofLE ((prog.drop offset).take 2), ofLE ((prog.drop (offset + 2)).take 1),
      ofLE ((prog.drop (offset + 3)).take 1), ofLE ((prog.drop (offset + 4)).take 4))
  else .error .structError

/-- One turn of the loop of `run_packed`, over the accumulator and the program counter. -/
def runPacked (prog data : Bytes) : Machine (Nat × Nat) (Except PyExc Nat) := fun (acc, pc) =>
  match unpackFrom prog (pc * 8) with
  | .error e => .inr (.error e)
  | .ok (code, jt, jf, k) =>
    if code = bpfLdAbsW then .inl (readWord data k, pc + 1)
    else if code = bpfAluAndK then .inl (acc &&& k, pc + 1)
    else if code = bpfJa then .inl (acc, pc + (1 + k))
    else if code = bpfJeq then .inl (acc, pc + (1 + if acc = k then jt else jf))
    else if code = bpfJgt then .inl (acc, pc + (1 + if acc > k then jt else jf))
    else if code = bpfJgeq then .inl (acc, pc + (1 + if acc ≥ k then jt else jf))
    else if code = bpfJset then .inl (acc, pc + (1 + if acc &&& k ≠ 0 then jt else jf))
    else if code = bpfRetK then .inr (.ok k)
    else .inr (.error (.other "AssertionError"))

/-- The entry of `run_source`'s dictionary of conditions. -/
def JumpOp.cond (acc k : Nat) : JumpOp → Bool
  | .jeq => acc = k
  | .jgt => acc > k
  | .jgeq => acc ≥ k
  | .jset => acc &&& k ≠ 0

/-- `labels[target] if target is not None else pc + 1`. -/
def follow (labels : Labels) (acc : Nat) (pc : Int) :
    Option String → (Nat × Int) ⊕ Except PyExc Nat
  | none => .inl (acc, pc + 1)
  | some target =>
    match dictGet labels target with
    | .error e => .inr (.error e)
    | .ok idx => .inl (acc, idx)

/-- One turn of the loop of `run_source`; a negative label counts from the end. -/
def runSource (insns : List Insn) (labels : Labels) (data : Bytes) :
    Machine (Nat × Int) (Except PyExc Nat) := fun (acc, pc) =>
  match pyGet insns pc with
  | .error e => .inr (.error e)
  | .ok (.load k) => .inl (readWord data k.toNat, pc + 1)
  | .ok (.and k) => .inl (acc &&& k.toNat, pc + 1)
  | .ok (.jump op k jt jf) => follow labels acc pc (if op.cond acc k.toNat then jt else jf)
  | .ok (.ja target) => follow labels acc pc (some target)
  | .ok (.ret k) => .inr (.ok k.toNat)

/-! ## Words and records -/

/-- The load function of a buffer that reads as zeros past its end. -/
def wordAt (data : Bytes) (k : U32) : U32 := BitVec.ofNat 32 (readWord data k.toNat)

theorem readWord_eq (data : Bytes) (k : Nat) : readWord data k = ofLE ((data.drop k).take 4) :=
  ofLE_append_zeros _ _

theorem toNat_wordAt (data : Bytes) (k : U32) : (wordAt data k).toNat = readWord data k.toNat := by
  have bound := ofLE_lt ((data.drop k.toNat).take 4)
  have short : ((data.drop k.toNat).take 4).length ≤ 4 := List.length_take_le _ _
  have small : readWord data k.toNat < 2 ^ 32 := by
    rw [readWord_eq]
    calc ofLE ((data.drop k.toNat).take 4)
        < 256 ^ ((data.drop k.toNat).take 4).length := bound
      _ ≤ 256 ^ 4 := Nat.pow_le_pow_right (by decide) short
  rw [wordAt, BitVec.toNat_ofNat, Nat.mod_eq_of_lt small]

/-- The two ways to read a record agree. -/
theorem unpackFrom_fetch (prog : Bytes) (pc : Nat) :
    unpackFrom prog (pc * 8) =
      match fetch prog pc with
      | none => .error .structError
      | some r => .ok (r.code.toNat, r.jt.toNat, r.jf.toNat, r.k.toNat) := by
  have width : ∀ (from' n : Nat), ofLE ((prog.drop from').take n) < 256 ^ n := by
    intro from' n
    calc ofLE ((prog.drop from').take n)
        < 256 ^ ((prog.drop from').take n).length := ofLE_lt _
      _ ≤ 256 ^ n := Nat.pow_le_pow_right (by decide) (List.length_take_le _ _)
  have length : ((prog.drop (8 * pc)).take 8).length = 8 ↔ pc * 8 + 8 ≤ prog.length := by
    rw [List.length_take, List.length_drop]
    omega
  unfold unpackFrom fetch
  by_cases inside : pc * 8 + 8 ≤ prog.length
  · rw [if_pos inside]
    simp only [if_pos (length.mpr inside)]
    have code := width (pc * 8) 2
    have jt := width (pc * 8 + 2) 1
    have jf := width (pc * 8 + 3) 1
    have k := width (pc * 8 + 4) 4
    simp only [List.take_take, List.drop_take, List.drop_drop, Nat.mul_comm 8 pc,
      BitVec.toNat_ofNat]
    norm_num at code jt jf k ⊢
    rw [Nat.mod_eq_of_lt code, Nat.mod_eq_of_lt jt, Nat.mod_eq_of_lt jf, Nat.mod_eq_of_lt k]
    simp
  · rw [if_neg inside]
    simp only [if_neg (mt length.mp inside)]

/-! ## Lockstep -/

theorem JumpOp.cond_test (op : JumpOp) (acc k : U32) :
    op.cond acc.toNat k.toNat = op.test acc k := by
  cases op with
  | jeq => simp [cond, test, BitVec.toNat_inj]
  | jgt => simp [cond, test, BitVec.lt_def]
  | jgeq => simp [cond, test, BitVec.le_def]
  | jset => simp [cond, test, ← BitVec.toNat_and, ← BitVec.toNat_inj]

/-- The state of the packed machine, as `run_packed` keeps it. -/
def packedView (s : State) : Nat × Nat := (s.acc.toNat, s.pc)

/-- How `run_packed` reports the end of a run. -/
def packedReport : Outcome → Except PyExc Nat
  | .ret k => .ok k.toNat
  | .left _ => .error .structError
  | .stuck => .error (.other "AssertionError")

/-- An opcode `run_packed` compares as an integer. -/
theorem toNat_code {code : BitVec 16} {n : Nat} (small : n < 2 ^ 16) :
    code.toNat = n ↔ code = BitVec.ofNat 16 n := by
  rw [← BitVec.toNat_inj, BitVec.toNat_ofNat, Nat.mod_eq_of_lt small]

/-- A conditional record, the offset chosen by a test on integers. -/
theorem step_cond {taken : Prop} [Decidable taken] (load : U32 → U32) (s : State) (op : JumpOp)
    (jt jf : Byte) (k : U32) (same : op.cond s.acc.toNat k.toNat = true ↔ taken) :
    .inl (s.acc.toNat, s.pc + (1 + if taken then jt.toNat else jf.toNat)) =
      ((⟨BitVec.ofNat 16 op.code, jt, jf, k⟩ : Record).step load s).map
        packedView packedReport := by
  rw [JumpOp.cond_test] at same
  rw [step_jump, Sum.map_inl, packedView, ← Nat.add_assoc]
  by_cases holds : taken
  · rw [if_pos holds, if_pos (same.mpr holds)]
  · rw [if_neg holds, if_neg (mt same.mp holds)]

theorem runPacked_lockstep (prog data : Bytes) (s : State) :
    runPacked prog data (packedView s) =
      (packed prog (wordAt data) s).map packedView packedReport := by
  unfold runPacked packed
  simp only [packedView, unpackFrom_fetch]
  cases fetch prog s.pc with
  | none => rfl
  | some r =>
    obtain ⟨code, jt, jf, k⟩ := r
    simp only [toNat_code (show bpfLdAbsW < 2 ^ 16 by decide),
      toNat_code (show bpfAluAndK < 2 ^ 16 by decide),
      toNat_code (show bpfJa < 2 ^ 16 by decide), toNat_code (show bpfJeq < 2 ^ 16 by decide),
      toNat_code (show bpfJgt < 2 ^ 16 by decide), toNat_code (show bpfJgeq < 2 ^ 16 by decide),
      toNat_code (show bpfJset < 2 ^ 16 by decide), toNat_code (show bpfRetK < 2 ^ 16 by decide)]
    split
    · next load =>
      subst load
      rw [← toNat_wordAt]
      rfl
    split
    · next masked =>
      subst masked
      rw [← BitVec.toNat_and]
      rfl
    split
    · next always =>
      subst always
      rw [← Nat.add_assoc]
      rfl
    split
    · next taken =>
      subst taken
      exact step_cond (wordAt data) s .jeq jt jf k decide_eq_true_iff
    split
    · next taken =>
      subst taken
      exact step_cond (wordAt data) s .jgt jt jf k decide_eq_true_iff
    split
    · next taken =>
      subst taken
      exact step_cond (wordAt data) s .jgeq jt jf k decide_eq_true_iff
    split
    · next taken =>
      subst taken
      exact step_cond (wordAt data) s .jset jt jf k decide_eq_true_iff
    split
    · next returns =>
      subst returns
      rfl
    · next noLoad noAnd noJa noJeq noJgt noJgeq noJset noRet =>
      simp only [Record.step, JumpOp.ofCode?, if_neg noLoad, if_neg noAnd, if_neg noJa,
        if_neg noJeq, if_neg noJgt, if_neg noJgeq, if_neg noJset, if_neg noRet]
      rfl

/-! ## The symbolic interpreter -/

/-- The state of the symbolic machine, as `run_source` keeps it. -/
def sourceView (s : State) : Nat × Int := (s.acc.toNat, s.pc)

/-- How `run_source` reports the end of a run; a resolved program is never stuck. -/
def sourceReport : Outcome → Except PyExc Nat
  | .ret k => .ok k.toNat
  | .left _ => .error .indexError
  | .stuck => .error .keyError

theorem pyGet_natCast_none {α : Type} {xs : List α} {i : Nat} (past : xs[i]? = none) :
    pyGet xs (i : Int) = .error .indexError := by
  have nonneg : ¬ (i : Int) < 0 := by omega
  simp only [pyGet, if_neg nonneg]
  rw [if_pos (by omega), Int.toNat_natCast, past]

theorem follow_goto {insns : List Insn} {labels : Labels} {s : State} {insn : Insn}
    (resolves : Resolves insns labels) (at_pc : insns[s.pc]? = some insn)
    {target : Option String} (mem : ∀ t, target = some t → t ∈ targets insn) :
    follow labels s.acc.toNat s.pc target =
      (goto labels s target).map sourceView sourceReport := by
  cases target with
  | none => rfl
  | some t =>
    obtain ⟨p, found, -, -⟩ := resolves.target at_pc (mem t rfl)
    rw [goto_label found]
    simp only [follow, dictGet_of_get? found]
    rfl

theorem runSource_lockstep {insns : List Insn} {labels : Labels}
    (resolves : Resolves insns labels) (data : Bytes) (s : State) :
    runSource insns labels data (sourceView s) =
      (symbolic insns labels (wordAt data) s).map sourceView sourceReport := by
  cases at_pc : insns[s.pc]? with
  | none =>
    simp only [runSource, sourceView, pyGet_natCast_none at_pc, symbolic, at_pc]
    rfl
  | some insn =>
    rw [symbolic_at at_pc]
    simp only [runSource, sourceView, pyGet_natCast at_pc]
    cases insn with
    | load k => simp only [Insn.exec, ← toNat_wordAt, Sum.map_inl, sourceView, Nat.cast_succ]
    | and k => simp only [Insn.exec, ← BitVec.toNat_and, Sum.map_inl, sourceView, Nat.cast_succ]
    | jump op k jt jf =>
      simp only [JumpOp.cond_test]
      exact follow_goto resolves at_pc fun t => mem_targets_branch _
    | ja t => exact follow_goto resolves at_pc fun t' => mem_targets_ja
    | ret k => rfl

/-! ## Agreement -/

/-- What the assembler's property test samples, on every program it accepts and every
buffer: the interpreters return the same integer, the one the kernel's machine returns, or
both run off the end, one with an `IndexError`, the other with a `struct.error`. -/
theorem interpreters_agree {insns : List Insn} {labels : Labels} {bytes : Bytes}
    (accepted : assemble insns labels = .ok bytes) (data : Bytes) :
    bytes.length % 8 = 0 ∧
      ((∃ v : U32, (runSource insns labels data).Halts (0, 0) (.ok v.toNat) ∧
          (runPacked bytes data).Halts (0, 0) (.ok v.toNat) ∧
          (packed bytes (wordAt data)).Halts ⟨0, 0⟩ (.ret v)) ∨
        ((runSource insns labels data).Halts (0, 0) (.error .indexError) ∧
          (runPacked bytes data).Halts (0, 0) (.error .structError) ∧
          (packed bytes (wordAt data)).Halts ⟨0, 0⟩ (.left (bytes.length / 8)))) := by
  obtain ⟨resolves, sizes, ok, fits, rfl⟩ := assemble_ok accepted
  have total : ((layout insns labels sizes).flatMap Record.pack).length = 8 * sizes.sum := by
    rw [length_flatMap_pack, length_layout ok]
  refine ⟨by omega, ?_⟩
  obtain ⟨o, source⟩ := symbolic_halts (wordAt data) resolves (s := ⟨0, 0⟩) (Nat.zero_le _)
  obtain ⟨o', records, same⟩ := packed_halts ok resolves fits (Nat.zero_le _) source
  rw [offsetOf_zero] at records
  have sourceRun := Machine.Halts.map (runSource_lockstep resolves data) source
  have packedRun := Machine.Halts.map
    (runPacked_lockstep ((layout insns labels sizes).flatMap Record.pack) data) records
  rcases same with ⟨v, rfl, rfl⟩ | ⟨rfl, rfl⟩
  · exact .inl ⟨v, sourceRun, packedRun, records⟩
  · refine .inr ⟨sourceRun, packedRun, ?_⟩
    rw [total, Nat.mul_div_cancel_left _ (by decide)]
    exact records

/-- `Load(0); Jump(BPF_JEQ, 7, "yes", None); Ret(1); Ret(2)`. -/
def branching : List Insn := [.load 0, .jump .jeq 7 (some "yes") none, .ret 1, .ret 2]

def branchingBytes : Bytes :=
  [0x20, 0, 0, 0, 0, 0, 0, 0, 0x15, 0, 1, 0, 7, 0, 0, 0,
    6, 0, 0, 0, 1, 0, 0, 0, 6, 0, 0, 0, 2, 0, 0, 0]

/-- Over a buffer of one byte. -/
theorem interpreters_agree_short_buffer :
    ∃ v : U32,
      (runSource branching (Dict.empty.set "yes" 3) [7]).Halts (0, 0) (.ok v.toNat) ∧
      (runPacked branchingBytes [7]).Halts (0, 0) (.ok v.toNat) := by
  obtain ⟨-, ⟨v, source, records, -⟩ | ⟨source, -, -⟩⟩ :=
    @interpreters_agree branching (Dict.empty.set "yes" 3) branchingBytes (by decide) [7]
  · exact ⟨v, source, records⟩
  · have returns : (runSource branching (Dict.empty.set "yes" 3) [7]).Halts (0, 0) (.ok 2) :=
      ⟨3, by decide⟩
    cases source.det returns

end Seccompy.Bpf
