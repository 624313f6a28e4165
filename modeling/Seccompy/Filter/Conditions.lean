import Seccompy.Bpf.Semantics
import Seccompy.Filter.Compile
import Seccompy.Kernel
import Mathlib.Data.Fintype.Basic
import Mathlib.Tactic.FinCases

/-!
# Conditions as code

`struct seccomp_data` and what a condition says about it, then the code of one
condition.  `condInsns_walk` is the comparison of a 64-bit argument by 32-bit tests, and
`emitCond_exact` what the emitted condition does wherever it stands.
-/

namespace Seccompy

open Lib Bpf

/-! ## The data a filter sees -/

/-- The struct in memory, on a little-endian machine. -/
def SeccompData.bytes (d : SeccompData) : Bytes :=
  toLE 4 d.nr.toNat ++ toLE 4 d.arch.toNat ++ toLE 8 d.instructionPointer.toNat ++
    (List.finRange 6).flatMap fun i => toLE 8 (d.args i).toNat

/-- `LD_ABS`: the 32-bit word at a byte offset. -/
def SeccompData.load (d : SeccompData) (k : U32) : U32 :=
  BitVec.ofNat 32 (ofLE ((d.bytes.drop k.toNat).take 4))

/-- The struct as sixteen words. -/
def SeccompData.words (d : SeccompData) : List U32 :=
  [d.nr, d.arch, loWord d.instructionPointer, hiWord d.instructionPointer] ++
    (List.finRange 6).flatMap fun i => [loWord (d.args i), hiWord (d.args i)]

theorem SeccompData.bytes_eq (d : SeccompData) :
    d.bytes = d.words.flatMap fun w => toLE 4 w.toNat := by
  simp only [SeccompData.bytes, SeccompData.words, toLE_words, List.flatMap_append, List.flatMap_cons,
    List.flatMap_nil, List.append_nil, List.flatMap_assoc, List.append_assoc]

theorem take_drop_flatMap_toLE {words : List U32} {j : Nat} {w : U32}
    (at_j : words[j]? = some w) :
    ((words.flatMap fun w => toLE 4 w.toNat).drop (4 * j)).take 4 = toLE 4 w.toNat := by
  induction words generalizing j with
  | nil => cases at_j
  | cons v words ih =>
    rw [List.flatMap_cons]
    cases j with
    | zero =>
      cases at_j
      rw [Nat.mul_zero, List.drop_zero, List.take_left' (length_toLE 4 _)]
    | succ j =>
      rw [Nat.mul_succ, Nat.add_comm, ← List.drop_drop, List.drop_left' (length_toLE 4 _)]
      exact ih (by simpa using at_j)

theorem SeccompData.load_word (d : SeccompData) {j : Nat} {w : U32} (at_j : d.words[j]? = some w) :
    d.load (BitVec.ofNat 32 (4 * j)) = w := by
  have short : j < 16 := by
    have := (List.getElem?_eq_some_iff.mp at_j).1
    simpa [SeccompData.words] using this
  rw [SeccompData.load, SeccompData.bytes_eq, BitVec.toNat_ofNat, Nat.mod_eq_of_lt (by omega),
    take_drop_flatMap_toLE at_j, ofNat_ofLE_toLE rfl]

/-- A load function that reads the six arguments as word pairs. -/
structure ReadsArgs (load : U32 → U32) (args : Fin 6 → U64) : Prop where
  lo : ∀ i : Fin 6, load (BitVec.ofNat 32 (offArg0 + 8 * i)) = loWord (args i)
  hi : ∀ i : Fin 6, load (BitVec.ofNat 32 (offArg0 + 8 * i + 4)) = hiWord (args i)

theorem SeccompData.load_nr (d : SeccompData) : d.load (BitVec.ofNat 32 offNr) = d.nr :=
  d.load_word (j := 0) rfl

theorem SeccompData.load_arch (d : SeccompData) : d.load (BitVec.ofNat 32 offArch) = d.arch :=
  d.load_word (j := 1) rfl

theorem SeccompData.readsArgs (d : SeccompData) : ReadsArgs d.load d.args := by
  constructor
  · intro i
    have at_j : d.words[4 + 2 * i.val]? = some (loWord (d.args i)) := by
      fin_cases i <;> rfl
    have place := d.load_word at_j
    rw [show 4 * (4 + 2 * i.val) = offArg0 + 8 * i by simp only [offArg0]; omega] at place
    exact place
  · intro i
    have at_j : d.words[5 + 2 * i.val]? = some (hiWord (d.args i)) := by
      fin_cases i <;> rfl
    have place := d.load_word at_j
    rw [show 4 * (5 + 2 * i.val) = offArg0 + 8 * i + 4 by simp only [offArg0]; omega] at place
    exact place

/-! ## What a condition says -/

/-- Unsigned 64-bit comparison of the argument. -/
def ArgCmp.holds (c : ArgCmp) (args : Fin 6 → U64) : Bool :=
  let arg := args c.index
  match c.op with
  | .eq => arg = c.value
  | .ne => arg ≠ c.value
  | .lt => arg < c.value
  | .le => arg ≤ c.value
  | .gt => c.value < arg
  | .ge => c.value ≤ arg
  | .maskedEq => arg &&& c.mask = c.value

/-! ## The code of one condition -/

theorem condInsns_plain (cond : ArgCmp) (fail passed : String) :
    ∀ insn ∈ condInsns cond fail passed, insn.isRet = false := by
  intro insn mem
  cases condInsns_made cond fail passed insn mem with
  | _ => rfl

section CondCode

variable {load : U32 → U32} {args : Fin 6 → U64}

/-- Where the code of a condition goes when the condition holds or not. -/
def CondWalk (passed fail : String) (holds : Bool) (target : Option String) : Prop :=
  if holds then target = none ∨ target = some passed else target = some fail

theorem word_cases (a b : U32) :
    (a < b ∧ a ≠ b ∧ ¬ b < a) ∨ (a = b ∧ ¬ a < a) ∨ (b < a ∧ a ≠ b ∧ ¬ a < b) := by
  simp only [BitVec.lt_def, ne_eq, ← BitVec.toNat_inj]
  omega

theorem and_eq_of_and_not {v m : U64} (none : v &&& ~~~m = 0) : v &&& m = v := by
  have split : (v &&& m) ||| (v &&& ~~~m) = v := by
    rw [← BitVec.and_or_distrib_left, BitVec.or_not_self, BitVec.and_allOnes]
  rw [none] at split
  simpa using split

/-- One masked word: skipped when its mask is zero, where it holds anyway. -/
theorem maskedWord_walk (fail : String) {off m v word : U32} (loads : load off = word)
    (kept : v &&& m = v) (rest : List Insn) (acc : U32) :
    ∃ acc', walk load (maskedWord fail off m v ++ rest) acc =
      if word &&& m = v then walk load rest acc' else some fail := by
  unfold maskedWord
  by_cases zero : m = 0
  · subst zero
    have : v = 0 := by simpa using kept.symm
    exact ⟨acc, by simp [this]⟩
  · refine ⟨word &&& m, ?_⟩
    rw [if_neg zero]
    by_cases same : word &&& m = v
    · simp [walk, JumpOp.test, loads, same]
    · simp [walk, JumpOp.test, loads, same]

theorem condInsns_walk (reads : ReadsArgs load args) (cond : ArgCmp) (fail passed : String)
    (acc : U32) :
    CondWalk passed fail (cond.holds args) (walk load (condInsns cond fail passed) acc) := by
  obtain ⟨index, op, value, mask, masked⟩ := cond
  have eq := eq_iff_words (args index) value
  have lt := lt_iff_words (args index) value
  have le := le_iff_words (args index) value
  have gt := lt_iff_words value (args index)
  have ge := le_iff_words value (args index)
  cases op with
  | eq =>
    simp only [condInsns, walk, reads.lo, reads.hi, JumpOp.test, ArgCmp.holds, CondWalk, eq]
    by_cases low : loWord (args index) = loWord value
    · by_cases high : hiWord (args index) = hiWord value
      · simp [low, high]
      · simp [low, high]
    · simp [low]
  | ne =>
    simp only [condInsns, walk, reads.lo, reads.hi, JumpOp.test, ArgCmp.holds, CondWalk, ne_eq, eq]
    by_cases low : loWord (args index) = loWord value
    · by_cases high : hiWord (args index) = hiWord value
      · simp [low, high]
      · simp [low, high]
    · simp [low]
  | lt =>
    simp only [condInsns, walk, reads.lo, reads.hi, JumpOp.test, ArgCmp.holds, CondWalk, lt]
    rcases word_cases (hiWord (args index)) (hiWord value) with
      ⟨less, ne, not_greater⟩ | ⟨same, irrefl⟩ | ⟨greater, ne, not_less⟩
    · simp [less, ne, not_greater]
    · by_cases low : loWord (args index) < loWord value
      · simp [same, low, BitVec.not_le.mpr low]
      · simp [same, low, BitVec.not_lt.mp low]
    · simp [greater, ne, not_less]
  | le =>
    simp only [condInsns, walk, reads.lo, reads.hi, JumpOp.test, ArgCmp.holds, CondWalk, le]
    rcases word_cases (hiWord (args index)) (hiWord value) with
      ⟨less, ne, not_greater⟩ | ⟨same, irrefl⟩ | ⟨greater, ne, not_less⟩
    · simp [less, ne, not_greater]
    · by_cases low : loWord (args index) ≤ loWord value
      · simp [same, low, BitVec.not_lt.mpr low]
      · simp [same, low, BitVec.not_le.mp low]
    · simp [greater, ne, not_less]
  | gt =>
    simp only [condInsns, walk, reads.lo, reads.hi, JumpOp.test, ArgCmp.holds, CondWalk, gt]
    rcases word_cases (hiWord (args index)) (hiWord value) with
      ⟨less, ne, not_greater⟩ | ⟨same, irrefl⟩ | ⟨greater, ne, not_less⟩
    · simp [ne, ne.symm, not_greater]
    · by_cases low : loWord value < loWord (args index)
      · simp [same, low]
      · simp [same, low]
    · simp [greater]
  | ge =>
    simp only [condInsns, walk, reads.lo, reads.hi, JumpOp.test, ArgCmp.holds, CondWalk, ge]
    rcases word_cases (hiWord (args index)) (hiWord value) with
      ⟨less, ne, not_greater⟩ | ⟨same, irrefl⟩ | ⟨greater, ne, not_less⟩
    · simp [ne, ne.symm, not_greater]
    · by_cases low : loWord value ≤ loWord (args index)
      · simp [same, low]
      · simp [same, low]
    · simp [greater]
  | maskedEq =>
    -- A zero half of the mask is skipped: the value has no bits there either.
    have kept : value &&& mask = value := and_eq_of_and_not masked
    have low := congrArg loWord kept
    have high := congrArg hiWord kept
    rw [loWord_and] at low
    rw [hiWord_and] at high
    have masked_eq := eq_iff_words (args index &&& mask) value
    rw [loWord_and, hiWord_and] at masked_eq
    obtain ⟨acc', lowWalk⟩ := maskedWord_walk fail (reads.lo index) low
      (maskedWord fail (BitVec.ofNat 32 (offArg0 + 8 * index + 4)) (hiWord mask) (hiWord value)) acc
    obtain ⟨acc'', highWalk⟩ := maskedWord_walk fail (reads.hi index) high [] acc'
    rw [List.append_nil] at highWalk
    simp only [condInsns, ArgCmp.holds, CondWalk, masked_eq, lowWalk, highWalk]
    by_cases lowSame : loWord (args index) &&& loWord mask = loWord value
    · by_cases highSame : hiWord (args index) &&& hiWord mask = hiWord value
      · simp [lowSame, highSame, walk]
      · simp [lowSame, highSame]
    · simp [lowSame]

/-- The code of a condition, wherever it stands in a program: control stays inside it
until it ends right after it when the condition holds, at the fail label otherwise. -/
theorem emitCond_inside {insns : List Insn} {labels : Labels} (reads : ReadsArgs load args)
    {c : Code} {cond : ArgCmp} {fail passed : String} {stop : Nat}
    (placed : (emitCond c cond fail passed).insns <+: insns)
    (marked : labels.get? passed = some ((emitCond c cond fail passed).insns.length : Int))
    (failed : labels.get? fail = some (stop : Int)) (acc : U32) :
    ∃ acc', (symbolic insns labels load).ReachesIn
      (Region c.insns.length (emitCond c cond fail passed).insns.length) ⟨c.insns.length, acc⟩
      ⟨if cond.holds args then (emitCond c cond fail passed).insns.length else stop, acc'⟩ := by
  have length : (emitCond c cond fail passed).insns.length =
      c.insns.length + (condInsns cond fail passed).length := by
    simp [emitCond, Code.emit, Code.mark]
  have lands : LandsIn insns labels load c.insns.length ⟨c.insns.length, acc⟩
      (c.insns.length + (condInsns cond fail passed).length) _ :=
    walk_inside (Nat.le_refl _) (condInsns_plain cond fail passed) (fun j within => ?_) acc
  · have walked := condInsns_walk reads cond fail passed acc
    rw [← length] at lands
    unfold CondWalk at walked
    cases holds : cond.holds args with
    | true =>
      rw [holds, if_pos rfl] at walked
      rw [if_pos rfl]
      rcases walked with fell | jumped
      · rw [fell] at lands
        exact lands
      · rw [jumped] at lands
        exact lands _ marked
    | false =>
      rw [holds, if_neg Bool.false_ne_true] at walked
      rw [if_neg Bool.false_ne_true]
      rw [walked] at lands
      exact lands _ failed
  · obtain ⟨rest, rfl⟩ := placed
    simp only [emitCond, Code.emit, Code.mark, List.append_assoc]
    rw [List.getElem?_append_right (Nat.le_add_right _ _), Nat.add_sub_cancel_left,
      List.getElem?_append_left within]

theorem emitCond_reaches {insns : List Insn} {labels : Labels} (reads : ReadsArgs load args)
    {c : Code} {cond : ArgCmp} {fail passed : String} {stop : Nat}
    (placed : (emitCond c cond fail passed).insns <+: insns)
    (marked : labels.get? passed = some ((emitCond c cond fail passed).insns.length : Int))
    (failed : labels.get? fail = some (stop : Int)) (acc : U32) :
    ∃ acc', (symbolic insns labels load).Reaches ⟨c.insns.length, acc⟩
      ⟨if cond.holds args then (emitCond c cond fail passed).insns.length else stop, acc'⟩ := by
  obtain ⟨acc', run⟩ := emitCond_inside reads placed marked failed acc
  exact ⟨acc', run.reaches⟩

end CondCode

/-- The code of one condition is exact in any context: whatever was emitted before and
whatever follows, with the fail label at or past the end of the code.  It leaves the
instructions and the other labels alone, and a run from its first position stays inside
until it leaves at the end when the condition holds, at the fail label otherwise. -/
theorem emitCond_exact (c : Code) (cond : ArgCmp) (fail passed : String)
    (insns : List Insn) (labels : Labels) (stop : Nat)
    (placed : (emitCond c cond fail passed).insns <+: insns)
    (marked : labels.get? passed = (emitCond c cond fail passed).labels.get? passed)
    (failed : labels.get? fail = some (stop : Int))
    (ahead : (emitCond c cond fail passed).insns.length ≤ stop) :
    c.insns <+: (emitCond c cond fail passed).insns ∧
      (∀ l, l ≠ passed → (emitCond c cond fail passed).labels.get? l = c.labels.get? l) ∧
      labels.get? passed = some ((emitCond c cond fail passed).insns.length : Int) ∧
      ∀ (d : SeccompData) (acc : U32), ∃ last : State,
        (symbolic insns labels d.load).ReachesIn
          (Region c.insns.length (emitCond c cond fail passed).insns.length)
          ⟨c.insns.length, acc⟩ last ∧
        ¬ Region c.insns.length (emitCond c cond fail passed).insns.length last ∧
        last.pc = if cond.holds d.args then (emitCond c cond fail passed).insns.length
          else stop := by
  have kept : (emitCond c cond fail passed).labels =
      c.labels.set passed ((emitCond c cond fail passed).insns.length : Int) := rfl
  rw [kept, Dict.get?_set_self] at marked
  refine ⟨⟨condInsns cond fail passed, rfl⟩, fun l other => ?_, marked, fun d acc => ?_⟩
  · rw [kept, Dict.get?_set_ne _ _ other]
  · obtain ⟨acc', run⟩ := emitCond_inside d.readsArgs placed marked failed acc
    refine ⟨_, run, fun inside => ?_, rfl⟩
    have before : (if cond.holds d.args then (emitCond c cond fail passed).insns.length else stop) <
        (emitCond c cond fail passed).insns.length := inside.2
    split at before
    · omega
    · omega

/-- `arg[0] > 7` after a load, with the fail label right after its code. -/
theorem emitCond_exact_gt :
    ∃ code labels, code = emitCond ⟨[.load 4], Dict.empty⟩
        ⟨0, .gt, 7, BitVec.allOnes 64, rfl⟩ "next" "hit" ∧
      labels = code.labels.set "next" 6 ∧
      ∀ (d : SeccompData) (acc : U32), ∃ last : State,
        (symbolic code.insns labels d.load).ReachesIn (Region 1 6) ⟨1, acc⟩ last ∧
          ¬ Region 1 6 last := by
  let c : Code := ⟨[.load 4], Dict.empty⟩
  let cond : ArgCmp := ⟨0, .gt, 7, BitVec.allOnes 64, rfl⟩
  refine ⟨_, _, rfl, rfl, fun d acc => ?_⟩
  obtain ⟨last, run, outside, -⟩ := (emitCond_exact c cond "next" "hit"
    (emitCond c cond "next" "hit").insns ((emitCond c cond "next" "hit").labels.set "next" 6) 6
    (List.prefix_refl _) rfl rfl (Nat.le_refl 6)).2.2.2 d acc
  exact ⟨last, run, outside⟩

end Seccompy
