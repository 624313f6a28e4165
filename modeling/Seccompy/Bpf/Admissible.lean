import Seccompy.Bpf.Simulation

/-!
# What the kernel admits

The conditions of the kernel's checkers for classic BPF and for seccomp filters, on
the packed bytes.  `assemble` alone does not guarantee them: it accepts a label at
the very end and a program without a final `Ret`.  `layout_admissible` gives them
for a program whose targets stay strictly inside and whose last instruction is a
`Ret`.
-/

namespace Seccompy.Bpf

open Lib

/-- The opcodes a seccomp filter of this library may hold. -/
def admittedCodes : List Nat :=
  [bpfLdAbsW, bpfAluAndK, bpfJa, bpfJeq, bpfJgt, bpfJgeq, bpfRetK]

/-- What the checkers ask of record `p` of a program of `n` records. -/
structure Record.Admitted (r : Record) (n p : Nat) : Prop where
  opcode : r.code.toNat ∈ admittedCodes
  load : r.code.toNat = bpfLdAbsW → r.k.toNat % 4 = 0 ∧ r.k.toNat < 64
  branch : r.code.toNat ∈ [bpfJeq, bpfJgt, bpfJgeq] →
    p + 1 + r.jt.toNat < n ∧ p + 1 + r.jf.toNat < n
  jump : r.code.toNat = bpfJa → p + 1 + r.k.toNat < n

structure Admissible (prog : Bytes) : Prop where
  some_record : prog ≠ []
  whole : prog.length % 8 = 0
  records : ∀ p r, fetch prog p = some r → r.Admitted (prog.length / 8) p
  last : ∃ r, fetch prog (prog.length / 8 - 1) = some r ∧ r.code.toNat = bpfRetK

/-- The instructions whose records can be admitted. -/
def Insn.Admitted : Insn → Prop
  | .load k => k.toNat % 4 = 0 ∧ k.toNat < 64
  | .and _ => True
  | .jump op _ _ _ => op ≠ .jset
  | .ja _ => True
  | .ret _ => True

/-! ## Records of each kind -/

section Kinds

variable {n p : Nat} {k : U32}

theorem admitted_of_code {r : Record} (c : Nat) (code : r.code.toNat = c)
    (known : c ∈ admittedCodes) (load : c = bpfLdAbsW → r.k.toNat % 4 = 0 ∧ r.k.toNat < 64)
    (branch : c ∈ [bpfJeq, bpfJgt, bpfJgeq] →
      p + 1 + r.jt.toNat < n ∧ p + 1 + r.jf.toNat < n)
    (jump : c = bpfJa → p + 1 + r.k.toNat < n) : r.Admitted n p := by
  subst code
  exact ⟨known, load, branch, jump⟩

theorem admitted_load (word : k.toNat % 4 = 0 ∧ k.toNat < 64) :
    (⟨BitVec.ofNat 16 bpfLdAbsW, 0, 0, k⟩ : Record).Admitted n p :=
  admitted_of_code bpfLdAbsW rfl (by decide) (fun _ => word) (fun same => absurd same (by decide))
    (fun same => absurd same (by decide))

theorem admitted_and : (⟨BitVec.ofNat 16 bpfAluAndK, 0, 0, k⟩ : Record).Admitted n p :=
  admitted_of_code bpfAluAndK rfl (by decide) (fun same => absurd same (by decide))
    (fun same => absurd same (by decide)) (fun same => absurd same (by decide))

theorem admitted_ret : (⟨BitVec.ofNat 16 bpfRetK, 0, 0, k⟩ : Record).Admitted n p :=
  admitted_of_code bpfRetK rfl (by decide) (fun same => absurd same (by decide))
    (fun same => absurd same (by decide)) (fun same => absurd same (by decide))

theorem admitted_ja (inside : p + 1 + k.toNat < n) :
    (⟨BitVec.ofNat 16 bpfJa, 0, 0, k⟩ : Record).Admitted n p :=
  admitted_of_code bpfJa rfl (by decide) (fun same => absurd same (by decide))
    (fun same => absurd same (by decide)) (fun _ => inside)

theorem admitted_jump {op : JumpOp} {jt jf : Byte} (known : op ≠ .jset)
    (inside : p + 1 + jt.toNat < n ∧ p + 1 + jf.toNat < n) :
    (⟨BitVec.ofNat 16 op.code, jt, jf, k⟩ : Record).Admitted n p := by
  have code : (BitVec.ofNat 16 op.code).toNat = op.code := by
    rw [BitVec.toNat_ofNat, Nat.mod_eq_of_lt op.code_lt]
  refine admitted_of_code op.code code ?_ ?_ (fun _ => inside) ?_
  · revert known
    cases op <;> decide
  · cases op <;> exact fun same => absurd same (by decide)
  · cases op <;> exact fun same => absurd same (by decide)

end Kinds

/-! ## Programs that stay inside -/

/-- Every target lies strictly ahead and strictly inside. -/
def StaysInside (insns : List Insn) (labels : Labels) : Prop :=
  ∀ (i : Nat) insn, insns[i]? = some insn → ∀ t ∈ targets insn,
    ∃ p : Nat, labels.get? t = some (p : Int) ∧ i < p ∧ p + 1 ≤ insns.length

theorem StaysInside.resolves {insns : List Insn} {labels : Labels}
    (stays : StaysInside insns labels) : Resolves insns labels := by
  intro i insn at_i t mem
  obtain ⟨p, found, ahead, inside⟩ := stays i insn at_i t mem
  exact ⟨p, found, by omega, by omega⟩

section Inside

variable {insns : List Insn} {labels : Labels} {sizes : List Nat} {v : U32}

/-- The last instruction, a `Ret`, is the last record. -/
theorem offsetOf_last (ok : resolveSizes insns labels = .ok sizes)
    (last : insns.getLast? = some (.ret v)) :
    insns[insns.length - 1]? = some (.ret v) ∧ sizes[insns.length - 1]? = some 1 ∧
      offsetOf sizes (insns.length - 1) + 1 = sizes.sum := by
  have sized := resolveSizes_sized ok
  rw [List.getLast?_eq_getElem?] at last
  have bound := (List.getElem?_eq_some_iff.mp last).1
  obtain ⟨size, at_size, one | ⟨jump, -⟩⟩ := sized.at last
  · subst one
    refine ⟨last, at_size, ?_⟩
    have next := offsetOf_succ at_size
    rw [← offsetOf_length sizes, sized.length_eq, ← next]
    congr 1
    omega
  · cases jump

theorem offsetOf_lt_sum (ok : resolveSizes insns labels = .ok sizes)
    (last : insns.getLast? = some (.ret v)) {q : Nat} (inside : q + 1 ≤ insns.length) :
    offsetOf sizes q < sizes.sum := by
  have below : offsetOf sizes q ≤ offsetOf sizes (insns.length - 1) := offsetOf_mono (by omega)
  have := (offsetOf_last ok last).2.2
  omega

/-- A `Ret` at the end leaves room after every other instruction. -/
theorem next_inside {i : Nat} {insn : Insn} (last : insns.getLast? = some (.ret v))
    (at_i : insns[i]? = some insn) (other : insn ≠ .ret v) : i + 1 + 1 ≤ insns.length := by
  have bound := (List.getElem?_eq_some_iff.mp at_i).1
  rw [List.getLast?_eq_getElem?] at last
  by_contra beyond
  have same : i = insns.length - 1 := by omega
  rw [same, last] at at_i
  exact other (Option.some.inj at_i).symm

theorem landing_inside (stays : StaysInside insns labels) (last : insns.getLast? = some (.ret v))
    {i : Nat} {insn : Insn} (at_i : insns[i]? = some insn) (other : insn ≠ .ret v)
    {target : Option String} (mem : ∀ t, target = some t → t ∈ targets insn) :
    landing labels i target + 1 ≤ insns.length := by
  cases target with
  | none => exact next_inside last at_i other
  | some t =>
    obtain ⟨p, found, -, inside⟩ := stays i insn at_i t (mem t rfl)
    simp only [landing, Option.map_some, Option.getD_some, labelIndex_eq found]
    exact inside

/-- A JA record of the layout stays inside. -/
theorem jaRecord_admitted (ok : resolveSizes insns labels = .ok sizes)
    (stays : StaysInside insns labels) (last : insns.getLast? = some (.ret v)) {i size pc : Nat}
    {insn : Insn} (at_i : insns[i]? = some insn) (at_size : sizes[i]? = some size) {t : String}
    (mem : t ∈ targets insn) (within : pc < offsetOf sizes i + size)
    (fits : offsetOf sizes (labelIndex labels t) - pc - 1 ≤ 0xFFFFFFFF) :
    (jaRecord labels sizes pc t).Admitted sizes.sum pc := by
  obtain ⟨p, found, ahead, inside⟩ := stays i insn at_i t mem
  have past := offsetOf_add_le at_size ahead
  have stop := offsetOf_lt_sum ok last inside
  apply admitted_ja
  rw [labelIndex_eq found] at fits ⊢
  rw [BitVec.toNat_ofNat, Nat.mod_eq_of_lt (by omega)]
  omega

/-- The records of an expanded jump: the hop, which skips at most one record, then
the trampolines. -/
theorem recordsOf_long {i size j : Nat} {op : JumpOp} {k : U32} {jt jf : Option String}
    (long : size ≠ 1) (targeted : targets (.jump op k jt jf) ≠ []) {r : Record}
    (at_j : (recordsOf labels sizes i size (.jump op k jt jf))[j]? = some r) :
    (j = 0 ∧ ∃ a b : Byte, a.toNat ≤ 1 ∧ b.toNat ≤ 1 ∧ r = ⟨BitVec.ofNat 16 op.code, a, b, k⟩) ∨
    ∃ t ∈ targets (.jump op k jt jf), j < expandedSize jt jf ∧
      (offsetOf sizes i + j, t) ∈ jaSites (offsetOf sizes i) size (.jump op k jt jf) ∧
      r = jaRecord labels sizes (offsetOf sizes i + j) t := by
  simp only [recordsOf, jaSites, if_neg long] at at_j ⊢
  cases jt with
  | none =>
    cases jf with
    | none => exact absurd rfl targeted
    | some f =>
      rcases j with _ | _ | j
      · exact Or.inl ⟨rfl, 1, 0, by decide, by decide, (Option.some.inj at_j).symm⟩
      · refine Or.inr ⟨f, by simp [targets], by simp [expandedSize], by simp, ?_⟩
        exact (Option.some.inj at_j).symm
      · simp at at_j
  | some t =>
    cases jf with
    | none =>
      rcases j with _ | _ | j
      · exact Or.inl ⟨rfl, 0, 1, by decide, by decide, (Option.some.inj at_j).symm⟩
      · refine Or.inr ⟨t, by simp [targets], by simp [expandedSize], by simp, ?_⟩
        exact (Option.some.inj at_j).symm
      · simp at at_j
    | some f =>
      rcases j with _ | _ | _ | j
      · exact Or.inl ⟨rfl, 0, 1, by decide, by decide, (Option.some.inj at_j).symm⟩
      · refine Or.inr ⟨t, by simp [targets], by simp [expandedSize], by simp, ?_⟩
        exact (Option.some.inj at_j).symm
      · refine Or.inr ⟨f, by simp [targets], by simp [expandedSize], by simp, ?_⟩
        exact (Option.some.inj at_j).symm
      · simp at at_j

/-- The hop of an expanded jump and its trampolines. -/
theorem recordsOf_long_admitted (ok : resolveSizes insns labels = .ok sizes)
    (stays : StaysInside insns labels) (last : insns.getLast? = some (.ret v)) {i size j : Nat}
    {op : JumpOp} {k : U32} {jt jf : Option String}
    (at_i : insns[i]? = some (.jump op k jt jf)) (at_size : sizes[i]? = some size)
    (known : op ≠ .jset) (long : size ≠ 1)
    (fits : JaFitsAt labels sizes i size (.jump op k jt jf)) {r : Record}
    (at_j : (recordsOf labels sizes i size (.jump op k jt jf))[j]? = some r) :
    r.Admitted sizes.sum (offsetOf sizes i + j) := by
  have sized := resolveSizes_sized ok
  have grown : size = expandedSize jt jf := by
    obtain ⟨size', at_size', one | ⟨-, expanded⟩⟩ := sized.at at_i
    · exact absurd ((Option.some.inj (at_size.symm.trans at_size')).trans one) long
    · exact (Option.some.inj (at_size.symm.trans at_size')).trans expanded
  have next : offsetOf sizes (i + 1) = offsetOf sizes i + size := offsetOf_succ at_size
  have room := offsetOf_lt_sum ok last (next_inside last at_i nofun)
  have two := (sized.bounds (List.mem_of_getElem? at_size)).1
  rcases recordsOf_long long (resolveSizes_targeted ok at_i at_size long) at_j with
    ⟨rfl, a, b, small, small', rfl⟩ | ⟨t, mem, within, site, rfl⟩
  · exact admitted_jump known ⟨by omega, by omega⟩
  · have small := fits (offsetOf sizes i + j, t) site
    rw [← grown] at within
    exact jaRecord_admitted ok stays last at_i at_size mem (by omega) small

/-- Every record of one instruction is admitted where it stands. -/
theorem recordsOf_admitted (ok : resolveSizes insns labels = .ok sizes)
    (stays : StaysInside insns labels) (last : insns.getLast? = some (.ret v))
    {i size j : Nat} {insn : Insn} (at_i : insns[i]? = some insn)
    (at_size : sizes[i]? = some size) (admitted : insn.Admitted)
    (fits : JaFitsAt labels sizes i size insn) {r : Record}
    (at_j : (recordsOf labels sizes i size insn)[j]? = some r) :
    r.Admitted sizes.sum (offsetOf sizes i + j) := by
  -- A one-record instruction has its record at its own position.
  have only : ∀ {r' : Record}, [r'][j]? = some r → r = r' ∧ j = 0 := by
    intro r' at_j
    cases j with
    | zero => exact ⟨(Option.some.inj at_j).symm, rfl⟩
    | succ j => simp at at_j
  cases insn with
  | load k =>
    obtain ⟨rfl, rfl⟩ := only at_j
    exact admitted_load admitted
  | and k =>
    obtain ⟨rfl, rfl⟩ := only at_j
    exact admitted_and
  | ret k =>
    obtain ⟨rfl, rfl⟩ := only at_j
    exact admitted_ret
  | ja t =>
    obtain ⟨rfl, rfl⟩ := only at_j
    have mem : t ∈ targets (.ja t) := List.mem_singleton_self t
    have positive := (resolveSizes_sized ok).bounds (List.mem_of_getElem? at_size)
    exact jaRecord_admitted ok stays last at_i at_size mem (by omega)
      (fits (offsetOf sizes i, t) (by simp [jaSites]))
  | jump op k jt jf =>
    have resolves := stays.resolves
    have memT : ∀ t, jt = some t → t ∈ targets (.jump op k jt jf) := fun t same =>
      mem_targets_jump.mpr (by simp [same])
    have memF : ∀ t, jf = some t → t ∈ targets (.jump op k jt jf) := fun t same =>
      mem_targets_jump.mpr (by simp [same])
    have other : Insn.jump op k jt jf ≠ .ret v := by
      intro is
      cases is
    by_cases one : size = 1
    · subst one
      simp only [recordsOf, if_true] at at_j
      obtain ⟨rfl, rfl⟩ := only at_j
      refine admitted_jump admitted ⟨?_, ?_⟩
      · rw [Nat.add_zero, shortOffset_landing ok resolves at_i at_size memT]
        exact offsetOf_lt_sum ok last (landing_inside stays last at_i other memT)
      · rw [Nat.add_zero, shortOffset_landing ok resolves at_i at_size memF]
        exact offsetOf_lt_sum ok last (landing_inside stays last at_i other memF)
    · exact recordsOf_long_admitted ok stays last at_i at_size admitted one fits at_j

/-- The bytes of a program that stays inside and ends with a `Ret` are admissible. -/
theorem layout_admissible (ok : resolveSizes insns labels = .ok sizes)
    (stays : StaysInside insns labels) (last : insns.getLast? = some (.ret v))
    (admitted : ∀ insn ∈ insns, insn.Admitted) (fits : JaFits insns labels sizes) :
    Admissible ((layout insns labels sizes).flatMap Record.pack) := by
  have count : ((layout insns labels sizes).flatMap Record.pack).length = 8 * sizes.sum := by
    rw [length_flatMap_pack, length_layout ok]
  have records : ((layout insns labels sizes).flatMap Record.pack).length / 8 = sizes.sum := by
    omega
  obtain ⟨at_last, size_last, total⟩ := offsetOf_last ok last
  refine ⟨fun empty => ?_, by omega, fun p r fetched => ?_, ?_⟩
  · rw [empty] at count
    simp only [List.length_nil] at count
    omega
  · rw [fetch_flatMap_pack] at fetched
    obtain ⟨i, j, block, at_i, at_j, rfl⟩ := exists_block_of_getElem?_flatten fetched
    rw [map_length_blocks ok, records]
    have bound : i < insns.length := by
      simpa [blocks] using (List.getElem?_eq_some_iff.mp at_i).1
    have at_insn : insns[i]? = some (insns.get ⟨i, bound⟩) := List.getElem?_eq_getElem bound
    obtain ⟨size, at_size, -⟩ := (resolveSizes_sized ok).at at_insn
    rw [blocks_at labels at_insn at_size] at at_i
    cases at_i
    exact recordsOf_admitted ok stays last at_insn at_size
      (admitted _ (List.mem_of_getElem? at_insn)) (fits i _ size at_insn at_size) at_j
  · refine ⟨⟨BitVec.ofNat 16 bpfRetK, 0, 0, v⟩, ?_, rfl⟩
    rw [records, ← total, Nat.add_sub_cancel]
    exact fetch_layout ok at_last size_last (j := 0) rfl

end Inside

end Seccompy.Bpf
