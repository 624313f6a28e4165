import Seccompy.Bpf.Assemble
import Seccompy.Bpf.Semantics

/-!
# The assembled program simulates the symbolic one

Instruction `i` of an accepted program becomes the records from
`offsetOf sizes i` on (`fetch_layout`).  A symbolic step from `i` to `j` is matched
by one or two records that end exactly at `offsetOf sizes j` (`packed_step`): one
for a short jump, two when the jump goes through a trampoline.  Termination and
agreement of whole runs follow by simulation.
-/

namespace Seccompy.Bpf

open Lib

section Settled

variable {insns : List Insn} {labels : Labels} {sizes : List Nat} {load : U32 → U32}

/-- Record `j` of instruction `i` is fetched at `offsetOf sizes i + j`. -/
theorem fetch_layout (ok : resolveSizes insns labels = .ok sizes) {i j size : Nat} {insn : Insn}
    {r : Record} (at_i : insns[i]? = some insn) (at_size : sizes[i]? = some size)
    (at_j : (recordsOf labels sizes i size insn)[j]? = some r) :
    fetch ((layout insns labels sizes).flatMap Record.pack) (offsetOf sizes i + j) = some r := by
  have place := getElem?_flatten_offsetOf (blocks_at labels at_i at_size) at_j
  rw [map_length_blocks ok] at place
  rw [fetch_flatMap_pack]
  exact place

/-- The records end where the instructions do. -/
theorem fetch_layout_end (ok : resolveSizes insns labels = .ok sizes) :
    fetch ((layout insns labels sizes).flatMap Record.pack) (offsetOf sizes insns.length) =
      none := by
  rw [fetch_flatMap_pack, List.getElem?_eq_none_iff, length_layout ok,
    ← (resolveSizes_sized ok).length_eq, offsetOf_length]

theorem packed_at (ok : resolveSizes insns labels = .ok sizes) {i j size : Nat} {insn : Insn}
    {r : Record} {acc : U32} (at_i : insns[i]? = some insn) (at_size : sizes[i]? = some size)
    (at_j : (recordsOf labels sizes i size insn)[j]? = some r) :
    packed ((layout insns labels sizes).flatMap Record.pack) load ⟨offsetOf sizes i + j, acc⟩ =
      r.step load ⟨offsetOf sizes i + j, acc⟩ := by
  simp only [packed, fetch_layout ok at_i at_size at_j]

theorem packed_first (load : U32 → U32) (acc : U32) (ok : resolveSizes insns labels = .ok sizes)
    {i size : Nat} {insn : Insn} {r : Record} (at_i : insns[i]? = some insn)
    (at_size : sizes[i]? = some size)
    (first : (recordsOf labels sizes i size insn)[0]? = some r) :
    packed ((layout insns labels sizes).flatMap Record.pack) load ⟨offsetOf sizes i, acc⟩ =
      r.step load ⟨offsetOf sizes i, acc⟩ :=
  packed_at ok at_i at_size first

/-- A JA record lands on the first record of its target. -/
theorem jaRecord_step {pc : Nat} {t : String} {acc : U32}
    (ahead : pc < offsetOf sizes (labelIndex labels t))
    (fits : offsetOf sizes (labelIndex labels t) - pc - 1 ≤ 0xFFFFFFFF) :
    (jaRecord labels sizes pc t).step load ⟨pc, acc⟩ =
      .inl ⟨offsetOf sizes (labelIndex labels t), acc⟩ := by
  rw [jaRecord, step_ja, BitVec.toNat_ofNat, Nat.mod_eq_of_lt (by omega)]
  congr 2
  show pc + 1 + (offsetOf sizes (labelIndex labels t) - pc - 1) = _
  omega

/-- Where instruction `i` continues: a label's instruction, or the next one. -/
def landing (labels : Labels) (i : Nat) (target : Option String) : Nat :=
  (target.map (labelIndex labels)).getD (i + 1)

/-- Either offset of a short jump, as a byte, spans exactly the records to where the
jump continues. -/
theorem shortOffset_landing (ok : resolveSizes insns labels = .ok sizes)
    (resolves : Resolves insns labels) {i : Nat} {op : JumpOp} {k : U32}
    {jt jf : Option String} (at_i : insns[i]? = some (.jump op k jt jf))
    (at_size : sizes[i]? = some 1) {target : Option String}
    (mem : ∀ t, target = some t → t ∈ targets (.jump op k jt jf)) :
    offsetOf sizes i + 1 + (BitVec.ofNat 8 (shortOffset labels sizes i target)).toNat =
      offsetOf sizes (landing labels i target) := by
  have fitting := resolveSizes_fitting ok
  have forward := resolves.forwardAt at_i
  have short := fitting.short i _ at_i rfl at_size
  have le := shortOffset_le fitting.sized at_i forward short mem
  rw [BitVec.toNat_ofNat, Nat.mod_eq_of_lt (by omega)]
  cases target with
  | none => exact (offsetOf_succ at_size).symm
  | some t =>
    obtain ⟨p, found, ahead, -⟩ := forward t (mem t rfl)
    have past := offsetOf_add_le at_size ahead
    simp only [landing, shortOffset, Option.map_some, Option.getD_some, labelIndex_eq found]
    omega

/-- A short conditional jump lands on the first record of the instruction it selects. -/
theorem jump_short (ok : resolveSizes insns labels = .ok sizes)
    (resolves : Resolves insns labels) {i : Nat} {op : JumpOp} {k acc : U32}
    {jt jf : Option String} (at_i : insns[i]? = some (.jump op k jt jf))
    (at_size : sizes[i]? = some 1) :
    (packed ((layout insns labels sizes).flatMap Record.pack) load).Reaches
      ⟨offsetOf sizes i, acc⟩
      ⟨offsetOf sizes (landing labels i (if op.test acc k then jt else jf)), acc⟩ := by
  have step := packed_first load acc ok at_i at_size rfl
  rw [step_jump] at step
  refine Machine.Reaches.of_step (step.trans ?_)
  cases op.test acc k with
  | true =>
    rw [← shortOffset_landing ok resolves at_i at_size fun t same => mem_targets_branch true same]
    rfl
  | false =>
    rw [← shortOffset_landing ok resolves at_i at_size fun t same => mem_targets_branch false same]
    rfl

/-- An expanded jump hops into a trampoline, or past them to the next instruction. -/
theorem jump_long (ok : resolveSizes insns labels = .ok sizes)
    (resolves : Resolves insns labels) (fits : JaFits insns labels sizes) {i size : Nat}
    {op : JumpOp} {k acc : U32} {jt jf : Option String}
    (at_i : insns[i]? = some (.jump op k jt jf)) (at_size : sizes[i]? = some size)
    (long : size ≠ 1) :
    (packed ((layout insns labels sizes).flatMap Record.pack) load).Reaches
      ⟨offsetOf sizes i, acc⟩
      ⟨offsetOf sizes (landing labels i (if op.test acc k then jt else jf)), acc⟩ := by
  have sized := resolveSizes_sized ok
  have targeted := resolveSizes_targeted ok at_i at_size long
  have forward := resolves.forwardAt at_i
  have fitsAt := fits i _ size at_i at_size
  have grown : size = expandedSize jt jf := by
    obtain ⟨size', at_size', one | ⟨-, expanded⟩⟩ := sized.at at_i
    · exact absurd ((Option.some.inj (at_size.symm.trans at_size')).trans one) long
    · exact (Option.some.inj (at_size.symm.trans at_size')).trans expanded
  have next : offsetOf sizes (i + 1) = offsetOf sizes i + size := offsetOf_succ at_size
  -- From record `j` of the instruction, a trampoline to `t` lands on `t`.
  have trampoline : ∀ {j : Nat} {t : String}, t ∈ targets (.jump op k jt jf) → j < size →
      (recordsOf labels sizes i size (.jump op k jt jf))[j]? =
        some (jaRecord labels sizes (offsetOf sizes i + j) t) →
      offsetOf sizes (labelIndex labels t) - (offsetOf sizes i + j) - 1 ≤ 0xFFFFFFFF →
      packed ((layout insns labels sizes).flatMap Record.pack) load
          ⟨offsetOf sizes i + j, acc⟩ = .inl ⟨offsetOf sizes (labelIndex labels t), acc⟩ := by
    intro j t mem within at_j small
    obtain ⟨p, found, ahead, -⟩ := forward t mem
    have past := offsetOf_add_le at_size ahead
    rw [packed_at ok at_i at_size at_j]
    exact jaRecord_step (by rw [labelIndex_eq found]; omega) small
  cases jt with
  | none =>
    cases jf with
    | none => exact absurd rfl targeted
    | some f =>
      have two : size = 2 := grown
      subst two
      have hop := packed_first load acc ok at_i at_size rfl
      rw [step_jump] at hop
      cases taken : op.test acc k with
      | true =>
        rw [taken] at hop
        rw [show landing labels i (if true = true then none else some f) = i + 1 from rfl, next]
        exact Machine.Reaches.of_step hop
      | false =>
        rw [taken] at hop
        have jump := trampoline (j := 1) (t := f) (by simp [targets]) (by omega) rfl
          (fitsAt (offsetOf sizes i + 1, f) (by simp [jaSites]))
        exact Machine.Reaches.head hop (Machine.Reaches.of_step jump)
  | some t =>
    cases jf with
    | none =>
      have two : size = 2 := grown
      subst two
      have hop := packed_first load acc ok at_i at_size rfl
      rw [step_jump] at hop
      cases taken : op.test acc k with
      | true =>
        rw [taken] at hop
        have jump := trampoline (j := 1) (t := t) (by simp [targets]) (by omega) rfl
          (fitsAt (offsetOf sizes i + 1, t) (by simp [jaSites]))
        exact Machine.Reaches.head hop (Machine.Reaches.of_step jump)
      | false =>
        rw [taken] at hop
        rw [show landing labels i (if false = true then some t else none) = i + 1 from rfl, next]
        exact Machine.Reaches.of_step hop
    | some f =>
      have three : size = 3 := grown
      subst three
      have hop := packed_first load acc ok at_i at_size rfl
      rw [step_jump] at hop
      cases taken : op.test acc k with
      | true =>
        rw [taken] at hop
        have jump := trampoline (j := 1) (t := t) (by simp [targets]) (by omega) rfl
          (fitsAt (offsetOf sizes i + 1, t) (by simp [jaSites]))
        exact Machine.Reaches.head hop (Machine.Reaches.of_step jump)
      | false =>
        rw [taken] at hop
        have jump := trampoline (j := 2) (t := f) (by simp [targets]) (by omega) rfl
          (fitsAt (offsetOf sizes i + 2, f) (by simp [jaSites]))
        exact Machine.Reaches.head hop (Machine.Reaches.of_step jump)

/-- One symbolic step, replayed on the records: from the first record of the
instruction it leaves to the first record of the one it enters. -/
theorem packed_step (ok : resolveSizes insns labels = .ok sizes)
    (resolves : Resolves insns labels) (fits : JaFits insns labels sizes) {s s' : State}
    (step : symbolic insns labels load s = .inl s') :
    (packed ((layout insns labels sizes).flatMap Record.pack) load).Reaches
      ⟨offsetOf sizes s.pc, s.acc⟩ ⟨offsetOf sizes s'.pc, s'.acc⟩ := by
  have sized := resolveSizes_sized ok
  unfold symbolic at step
  split at step
  · cases step
  · next k at_pc =>
    cases step
    obtain ⟨size, at_size, one | ⟨jump, -⟩⟩ := sized.at at_pc
    · subst one
      rw [offsetOf_succ at_size]
      exact Machine.Reaches.of_step (packed_first load _ ok at_pc at_size rfl)
    · cases jump
  · next k at_pc =>
    cases step
    obtain ⟨size, at_size, one | ⟨jump, -⟩⟩ := sized.at at_pc
    · subst one
      rw [offsetOf_succ at_size]
      exact Machine.Reaches.of_step (packed_first load _ ok at_pc at_size rfl)
    · cases jump
  · next op k jt jf at_pc =>
    rw [(goto_forward resolves at_pc fun t => mem_targets_branch _).1] at step
    cases step
    obtain ⟨size, at_size, -⟩ := sized.at at_pc
    by_cases one : size = 1
    · subst one
      exact jump_short ok resolves at_pc at_size
    · exact jump_long ok resolves fits at_pc at_size one
  · next t at_pc =>
    have mem : t ∈ targets (.ja t) := List.mem_singleton_self t
    rw [(goto_forward resolves at_pc fun t' => mem_targets_ja).1] at step
    cases step
    obtain ⟨p, found, ahead, -⟩ := resolves.target at_pc mem
    obtain ⟨size, at_size, one | ⟨jump, -⟩⟩ := sized.at at_pc
    · subst one
      have past := offsetOf_add_le at_size ahead
      have small := fits s.pc _ 1 at_pc at_size (offsetOf sizes s.pc, t) (by simp [jaSites])
      refine Machine.Reaches.of_step ((packed_first load _ ok at_pc at_size rfl).trans ?_)
      exact jaRecord_step (by rw [labelIndex_eq found]; omega) small
    · cases jump
  · cases step

/-- A final symbolic state is final on the records, with the matching outcome. -/
theorem packed_final (ok : resolveSizes insns labels = .ok sizes)
    (resolves : Resolves insns labels) {s : State} {o : Outcome} (inside : s.pc ≤ insns.length)
    (final : symbolic insns labels load s = .inr o) :
    (∃ k, o = .ret k ∧ packed ((layout insns labels sizes).flatMap Record.pack) load
        ⟨offsetOf sizes s.pc, s.acc⟩ = .inr (.ret k)) ∨
      (o = .left insns.length ∧ packed ((layout insns labels sizes).flatMap Record.pack) load
        ⟨offsetOf sizes s.pc, s.acc⟩ = .inr (.left sizes.sum)) := by
  have sized := resolveSizes_sized ok
  rcases symbolic_final resolves inside final with ⟨k, at_pc, rfl⟩ | ⟨same, rfl⟩
  · obtain ⟨size, at_size, one | ⟨jump, -⟩⟩ := sized.at at_pc
    · subst one
      exact Or.inl ⟨k, rfl, packed_first load _ ok at_pc at_size rfl⟩
    · cases jump
  · refine Or.inr ⟨rfl, ?_⟩
    rw [same]
    simp only [packed, fetch_layout_end ok]
    rw [← sized.length_eq, offsetOf_length]

/-- Whole runs: what the symbolic program halts with, the records halt with. -/
theorem packed_halts (ok : resolveSizes insns labels = .ok sizes)
    (resolves : Resolves insns labels) (fits : JaFits insns labels sizes) {s : State}
    {o : Outcome} (inside : s.pc ≤ insns.length)
    (run : (symbolic insns labels load).Halts s o) :
    ∃ o', (packed ((layout insns labels sizes).flatMap Record.pack) load).Halts
        ⟨offsetOf sizes s.pc, s.acc⟩ o' ∧
      ((∃ k, o = .ret k ∧ o' = .ret k) ∨ (o = .left insns.length ∧ o' = .left sizes.sum)) := by
  refine Machine.Halts.simulate
    (R := fun s t : State => s.pc ≤ insns.length ∧ t = ⟨offsetOf sizes s.pc, s.acc⟩)
    (Q := fun o o' : Outcome => (∃ k, o = .ret k ∧ o' = .ret k) ∨
      (o = .left insns.length ∧ o' = .left sizes.sum)) ?_ ?_ run ⟨inside, rfl⟩
  · rintro s t s' ⟨-, rfl⟩ step
    exact ⟨_, packed_step ok resolves fits step, (symbolic_advances resolves step).2, rfl⟩
  · rintro s t o ⟨within, rfl⟩ final
    rcases packed_final ok resolves within final with ⟨k, rfl, stop⟩ | ⟨rfl, stop⟩
    · exact ⟨_, Machine.Halts.of_final stop, Or.inl ⟨k, rfl, rfl⟩⟩
    · exact ⟨_, Machine.Halts.of_final stop, Or.inr ⟨rfl, rfl⟩⟩

end Settled

/-- A returning symbolic run of an accepted program is a returning run of its bytes. -/
theorem packed_ret_of_symbolic {insns : List Insn} {labels : Labels} {bytes : Bytes}
    (accepted : assemble insns labels = .ok bytes) {load : U32 → U32} {acc v : U32}
    (run : (symbolic insns labels load).Halts ⟨0, acc⟩ (.ret v)) :
    (packed bytes load).Halts ⟨0, acc⟩ (.ret v) := by
  obtain ⟨resolves, sizes, ok, fits, rfl⟩ := assemble_ok accepted
  obtain ⟨o, halted, ⟨k, same, rfl⟩ | ⟨differs, -⟩⟩ :=
    packed_halts ok resolves fits (Nat.zero_le _) run
  · cases same
    rw [offsetOf_zero] at halted
    exact halted
  · cases differs

/-- The assembled bytes mean what the symbolic program means.  Both runs terminate
and agree; and there is a placement `start` of the instructions, with the records
that `_emit` produced for instruction `i` at `start i`, such that every step from
one instruction to another is a run between their first records. -/
theorem assemble_simulates (insns : List Insn) (labels : Labels) (bytes : Bytes)
    (accepted : assemble insns labels = .ok bytes) (load : U32 → U32) (acc : U32) :
    ((∃ v, (symbolic insns labels load).Halts ⟨0, acc⟩ (.ret v) ∧
        (packed bytes load).Halts ⟨0, acc⟩ (.ret v)) ∨
      ((symbolic insns labels load).Halts ⟨0, acc⟩ (.left insns.length) ∧
        (packed bytes load).Halts ⟨0, acc⟩ (.left (bytes.length / 8)))) ∧
    ∃ (sizes : List Nat) (start : Nat → Nat), resolveSizes insns labels = .ok sizes ∧
      start 0 = 0 ∧ start insns.length = bytes.length / 8 ∧
      (∀ (i : Nat) insn, insns[i]? = some insn → ∃ size part, sizes[i]? = some size ∧
        emit insn labels (positions sizes) i size = .ok part ∧
        start (i + 1) = start i + part.length / 8 ∧
        ∀ j, j < part.length / 8 → fetch bytes (start i + j) = fetch part j) ∧
      ∀ s s', symbolic insns labels load s = .inl s' →
        (packed bytes load).Reaches ⟨start s.pc, s.acc⟩ ⟨start s'.pc, s'.acc⟩ := by
  obtain ⟨resolves, sizes, ok, fits, rfl⟩ := assemble_ok accepted
  have sized := resolveSizes_sized ok
  have total : ((layout insns labels sizes).flatMap Record.pack).length / 8 = sizes.sum := by
    rw [length_flatMap_pack, length_layout ok]
    omega
  constructor
  · obtain ⟨o, run⟩ := symbolic_halts load resolves
      (s := ⟨0, acc⟩) (Nat.zero_le _)
    obtain ⟨o', run', ⟨k, rfl, rfl⟩ | ⟨rfl, rfl⟩⟩ :=
      packed_halts ok resolves fits (Nat.zero_le _) run
    · rw [offsetOf_zero] at run'
      exact Or.inl ⟨k, run, run'⟩
    · rw [offsetOf_zero] at run'
      rw [total]
      exact Or.inr ⟨run, run'⟩
  · refine ⟨sizes, offsetOf sizes, ok, offsetOf_zero sizes, ?_, fun i insn at_i => ?_,
      fun s s' step => packed_step ok resolves fits step⟩
    · rw [total, ← sized.length_eq, offsetOf_length]
    · obtain ⟨size, at_size, shape⟩ := sized.at at_i
      rcases emit_settled ok at_i at_size (resolves.forwardAt at_i) with
        ⟨-, emitted⟩ | ⟨unfit, -⟩
      · have length := length_recordsOf labels sizes i shape
          (resolveSizes_targeted ok at_i at_size)
        have part : ((recordsOf labels sizes i size insn).flatMap Record.pack).length / 8 =
            size := by
          rw [length_flatMap_pack, length]
          omega
        refine ⟨size, _, at_size, emitted, ?_, fun j within => ?_⟩
        · rw [part, offsetOf_succ at_size]
        · rw [part] at within
          have at_j : (recordsOf labels sizes i size insn)[j]? =
              some ((recordsOf labels sizes i size insn).get ⟨j, by omega⟩) :=
            List.getElem?_eq_getElem _
          rw [fetch_layout ok at_i at_size at_j, fetch_flatMap_pack, at_j]
      · exact absurd (fits i insn size at_i at_size) unfit

/-- A program with an expanded jump and a short one. -/
theorem assemble_simulates_far :
    assemble farAndNear farLabels = .ok farBytes ∧
      resolveSizes farAndNear farLabels = .ok (2 :: List.replicate 259 1) ∧
      ∀ (load : U32 → U32) (acc : U32),
        ((∃ v, (symbolic farAndNear farLabels load).Halts ⟨0, acc⟩ (.ret v) ∧
            (packed farBytes load).Halts ⟨0, acc⟩ (.ret v)) ∨
          ((symbolic farAndNear farLabels load).Halts ⟨0, acc⟩ (.left 260) ∧
            (packed farBytes load).Halts ⟨0, acc⟩ (.left 261))) ∧
        ∃ start : Nat → Nat, start 0 = 0 ∧ start 260 = 261 ∧
          (∀ (i : Nat) insn, farAndNear[i]? = some insn →
            ∃ size part, (2 :: List.replicate 259 1)[i]? = some size ∧
              emit insn farLabels (positions (2 :: List.replicate 259 1)) i size = .ok part ∧
              start (i + 1) = start i + part.length / 8 ∧
              ∀ j, j < part.length / 8 → fetch farBytes (start i + j) = fetch part j) ∧
          ∀ s s', symbolic farAndNear farLabels load s = .inl s' →
            (packed farBytes load).Reaches ⟨start s.pc, s.acc⟩ ⟨start s'.pc, s'.acc⟩ := by
  refine ⟨far_assembled, far_sizes, fun load acc => ?_⟩
  have count : farAndNear.length = 260 := by decide +kernel
  have records : farBytes.length / 8 = 261 := by decide +kernel
  obtain ⟨runs, sizes, start, ok, first, last, parts, steps⟩ :=
    assemble_simulates farAndNear farLabels farBytes far_assembled load acc
  obtain rfl : 2 :: List.replicate 259 1 = sizes := Except.ok.inj (far_sizes.symm.trans ok)
  rw [count, records] at runs last
  exact ⟨runs, start, first, last, parts, steps⟩

end Seccompy.Bpf
