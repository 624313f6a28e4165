import Seccompy.Bpf.Assembler
import Seccompy.Lib.Layout
import Mathlib.Data.List.Count

/-!
# Jump sizing

What `_resolve_sizes` computes.  `Passed` is one successful pass, instruction by
instruction.  From it: a pass keeps the vector `Sized` and below every vector whose
short jumps all fit (`Passed.le`), a changing pass expands an instruction that was
short (`Passed.rank_lt`), a quiet one changes nothing (`Passed.eq`).  So the loop
settles within its `len(insns) + 1` passes on the least fitting vector, and the only
error it can raise is `backward jump`.
-/

namespace Seccompy.Bpf

open Lib

/-! ## Positions and offsets -/

theorem getElem?_positionsFrom (start : Nat) {sizes : List Nat} {i : Nat}
    (le : i ≤ sizes.length) :
    (positionsFrom start sizes)[i]? = some (start + offsetOf sizes i) := by
  induction sizes generalizing start i with
  | nil =>
    have : i = 0 := by simpa using le
    subst this
    simp [positionsFrom]
  | cons size sizes ih =>
    cases i with
    | zero => simp [positionsFrom]
    | succ i =>
      have rest := ih (start + size) (i := i) (by simpa using le)
      rw [positionsFrom, List.getElem?_cons_succ, rest, offsetOf_cons_succ, Nat.add_assoc]

theorem pyGet_positions {sizes : List Nat} {i : Nat} (le : i ≤ sizes.length) :
    pyGet (positions sizes) (i : Int) = .ok (offsetOf sizes i) := by
  apply pyGet_natCast
  rw [positions, getElem?_positionsFrom 0 le, Nat.zero_add]

/-- Records skipped by a jump from instruction `i` to instruction `p`. -/
def gap (sizes : List Nat) (i p : Nat) : Int := offsetOf sizes p - offsetOf sizes i - 1

/-- The error of `_offset`. -/
def backward (target : String) : PyExc := .valueError s!"backward jump to label: {target}"

/-- `_offset` on a label inside the program. -/
theorem offset_eq {labels : Labels} {sizes : List Nat} {target : String} {p i : Nat}
    (found : labels.get? target = some (p : Int)) (inside : p ≤ sizes.length)
    (here : i ≤ sizes.length) :
    offset (some target) labels (positions sizes) i =
      if gap sizes i p < 0 then .error (backward target) else .ok (some (gap sizes i p)) := by
  simp only [offset, dictGet_of_get? found, ok_bind, pyGet_positions inside,
    pyGet_positions here]
  rfl

/-- `_offset` of a label is never `None`. -/
theorem offset_some_ok {labels : Labels} {pos : List Nat} {target : String} {i : Nat}
    {off : Option Int} (ok : offset (some target) labels pos i = .ok off) :
    ∃ d, off = some d := by
  simp only [offset, bind_eq_ok] at ok
  obtain ⟨idx, -, stop, -, start, -, ok⟩ := ok
  split at ok
  · simp at ok
  · simp only [pure_eq_ok, Except.ok.injEq] at ok
    exact ⟨_, ok.symm⟩

/-- Every target is defined, inside the program and strictly ahead. -/
def Resolves (insns : List Insn) (labels : Labels) : Prop :=
  ∀ (i : Nat) insn, insns[i]? = some insn → ∀ t ∈ targets insn,
    ∃ idx : Int, labels.get? t = some idx ∧ (i : Int) < idx ∧ idx ≤ insns.length

/-- Every target is defined and inside the program: what `_validate_labels` checks. -/
def InRange (insns : List Insn) (labels : Labels) : Prop :=
  ∀ insn ∈ insns, ∀ t ∈ targets insn,
    ∃ p : Nat, labels.get? t = some (p : Int) ∧ p ≤ insns.length

theorem Resolves.target {insns : List Insn} {labels : Labels} (resolves : Resolves insns labels)
    {i : Nat} {insn : Insn} (at_i : insns[i]? = some insn) {t : String} (mem : t ∈ targets insn) :
    ∃ p : Nat, labels.get? t = some (p : Int) ∧ i < p ∧ p ≤ insns.length := by
  obtain ⟨idx, found, ahead, inside⟩ := resolves i insn at_i t mem
  obtain ⟨p, rfl⟩ := Int.eq_ofNat_of_zero_le (show 0 ≤ idx by omega)
  exact ⟨p, found, by omega, by omega⟩

theorem Resolves.inRange {insns : List Insn} {labels : Labels} (resolves : Resolves insns labels) :
    InRange insns labels := by
  intro insn mem t target
  obtain ⟨i, at_i⟩ := List.mem_iff_getElem?.mp mem
  obtain ⟨p, found, -, inside⟩ := resolves.target at_i target
  exact ⟨p, found, inside⟩

/-! ## The answers of `_needs_expansion` -/

section AnyFar

variable {labels : Labels} {pos : List Nat} {i : Nat} {ts : List (Option String)}

theorem anyFar_error {e : PyExc} (failed : anyFar labels pos i ts = .error e) :
    ∃ t, some t ∈ ts ∧ offset (some t) labels pos i = .error e := by
  induction ts with
  | nil => cases failed
  | cons target ts ih =>
    rw [anyFar, bind_eq_error] at failed
    rcases failed with failed | ⟨off, -, failed⟩
    · cases target with
      | none => cases failed
      | some t => exact ⟨t, List.mem_cons_self, failed⟩
    · split at failed
      · cases failed
      · obtain ⟨t, mem, failed⟩ := ih failed
        exact ⟨t, List.mem_cons_of_mem _ mem, failed⟩

theorem anyFar_true (far : anyFar labels pos i ts = .ok true) :
    ∃ t, some t ∈ ts ∧ ∃ off, offset (some t) labels pos i = .ok (some off) ∧
      maxCondJump < off := by
  induction ts with
  | nil => cases far
  | cons target ts ih =>
    rw [anyFar, bind_eq_ok] at far
    obtain ⟨off, found, far⟩ := far
    split at far
    · next beyond =>
      obtain ⟨d, rfl, beyond⟩ := Option.any_eq_true _ _ |>.mp beyond
      cases target with
      | none => cases found
      | some t => exact ⟨t, List.mem_cons_self, d, found, by simpa using beyond⟩
    · obtain ⟨t, mem, rest⟩ := ih far
      exact ⟨t, List.mem_cons_of_mem _ mem, rest⟩

theorem anyFar_false (near : anyFar labels pos i ts = .ok false) {t : String}
    (mem : some t ∈ ts) :
    ∃ off, offset (some t) labels pos i = .ok (some off) ∧ off ≤ maxCondJump := by
  induction ts with
  | nil => cases mem
  | cons target ts ih =>
    rw [anyFar, bind_eq_ok] at near
    obtain ⟨off, found, near⟩ := near
    split at near
    · cases near
    · next within =>
      rcases List.mem_cons.mp mem with rfl | mem
      · obtain ⟨d, rfl⟩ := offset_some_ok found
        exact ⟨d, found, by simpa using within⟩
      · exact ih near mem

end AnyFar

theorem mem_targets_jump {op : JumpOp} {k : U32} {jt jf : Option String} {t : String} :
    t ∈ targets (.jump op k jt jf) ↔ some t ∈ [jt, jf] := by
  simp [targets]

/-! ## One pass -/

/-- The size of an instruction once expanded; only jumps grow. -/
def Insn.expanded : Insn → Nat
  | .jump _ _ jt jf => expandedSize jt jf
  | _ => 1

theorem expandedSize_bounds (jt jf : Option String) :
    2 ≤ expandedSize jt jf ∧ expandedSize jt jf ≤ 3 := by
  cases jt <;> cases jf <;> simp [expandedSize]

theorem Insn.one_lt_expanded {insn : Insn} (jump : insn.isJump = true) : 1 < insn.expanded := by
  cases insn with
  | jump op k jt jf => exact (expandedSize_bounds jt jf).1
  | _ => cases jump

theorem Insn.expanded_le_three (insn : Insn) : insn.expanded ≤ 3 := by
  cases insn with
  | jump op k jt jf => exact (expandedSize_bounds jt jf).2
  | _ => simp [Insn.expanded]

/-- Every target of the instruction at `i` is at most 255 records away. -/
def ShortAt (labels : Labels) (pos : List Nat) (i : Nat) (insn : Insn) : Prop :=
  ∀ t ∈ targets insn, ∃ off, offset (some t) labels pos i = .ok (some off) ∧ off ≤ maxCondJump

/-- Some target of the instruction at `i` is farther than 255 records. -/
def FarAt (labels : Labels) (pos : List Nat) (i : Nat) (insn : Insn) : Prop :=
  ∃ t ∈ targets insn, ∃ off, offset (some t) labels pos i = .ok (some off) ∧ maxCondJump < off

/-- What the loop body does to one instruction: leave it, or expand a far short jump. -/
theorem resolveInsn_ok {labels : Labels} {pos : List Nat} {i : Nat} {insn : Insn}
    {size size' : Nat} {grown : Bool}
    (ok : resolveInsn labels pos i insn size = .ok (size', grown)) :
    (grown = false ∧ size' = size ∧
      (insn.isJump = true → size ≤ 1 → ShortAt labels pos i insn)) ∨
    (grown = true ∧ insn.isJump = true ∧ size ≤ 1 ∧ size' = insn.expanded ∧
      FarAt labels pos i insn) := by
  cases insn with
  | jump op k jt jf =>
    simp only [resolveInsn] at ok
    split at ok
    · next large =>
      cases ok
      exact Or.inl ⟨rfl, rfl, fun _ small => absurd small (by omega)⟩
    · next small =>
      rw [bind_eq_ok] at ok
      obtain ⟨far, answer, ok⟩ := ok
      cases far with
      | true =>
        cases ok
        obtain ⟨t, mem, off, found, beyond⟩ := anyFar_true answer
        exact Or.inr ⟨rfl, rfl, by omega, rfl, t, mem_targets_jump.mpr mem, off, found, beyond⟩
      | false =>
        cases ok
        exact Or.inl ⟨rfl, rfl, fun _ _ t mem =>
          anyFar_false answer (mem_targets_jump.mp mem)⟩
  | load k => cases ok; exact Or.inl ⟨rfl, rfl, fun jump => by cases jump⟩
  | and k => cases ok; exact Or.inl ⟨rfl, rfl, fun jump => by cases jump⟩
  | ja target => cases ok; exact Or.inl ⟨rfl, rfl, fun jump => by cases jump⟩
  | ret k => cases ok; exact Or.inl ⟨rfl, rfl, fun jump => by cases jump⟩

theorem resolveInsn_error {labels : Labels} {pos : List Nat} {i : Nat} {insn : Insn}
    {size : Nat} {e : PyExc} (failed : resolveInsn labels pos i insn size = .error e) :
    ∃ t ∈ targets insn, offset (some t) labels pos i = .error e := by
  cases insn with
  | jump op k jt jf =>
    simp only [resolveInsn] at failed
    split at failed
    · cases failed
    · rw [bind_eq_error] at failed
      rcases failed with failed | ⟨far, -, failed⟩
      · obtain ⟨t, mem, failed⟩ := anyFar_error failed
        exact ⟨t, mem_targets_jump.mpr mem, failed⟩
      · cases far <;> cases failed
  | load k => cases failed
  | and k => cases failed
  | ja target => cases failed
  | ret k => cases failed

/-- A successful pass, instruction by instruction. -/
inductive Passed (labels : Labels) (pos : List Nat) :
    Nat → List Insn → List Nat → List Nat → Bool → Prop
  | nil {i : Nat} : Passed labels pos i [] [] [] false
  | cons {i : Nat} {insn : Insn} {insns : List Insn} {size size' : Nat} {sizes sizes' : List Nat}
      {grown changed : Bool} :
      resolveInsn labels pos i insn size = .ok (size', grown) →
      Passed labels pos (i + 1) insns sizes sizes' changed →
      Passed labels pos i (insn :: insns) (size :: sizes) (size' :: sizes') (grown || changed)

theorem passed_of_resolvePass {labels : Labels} {pos : List Nat} {i : Nat} {insns : List Insn}
    {sizes sizes' : List Nat} {changed : Bool} (length : sizes.length = insns.length)
    (ok : resolvePass labels pos i insns sizes = .ok (sizes', changed)) :
    Passed labels pos i insns sizes sizes' changed := by
  induction insns generalizing i sizes sizes' changed with
  | nil =>
    obtain rfl := List.eq_nil_of_length_eq_zero length
    cases ok
    exact .nil
  | cons insn insns ih =>
    obtain ⟨size, sizes, rfl⟩ := List.exists_cons_of_length_eq_add_one length
    rw [resolvePass, bind_eq_ok] at ok
    obtain ⟨⟨size', grown⟩, head, ok⟩ := ok
    rw [bind_eq_ok] at ok
    obtain ⟨⟨sizes', changed⟩, tail, ok⟩ := ok
    cases ok
    exact .cons head (ih (by simpa using length) tail)

theorem resolvePass_error {labels : Labels} {pos : List Nat} {i : Nat} {insns : List Insn}
    {sizes : List Nat} {e : PyExc} (failed : resolvePass labels pos i insns sizes = .error e) :
    ∃ j insn, insns[j]? = some insn ∧
      ∃ t ∈ targets insn, offset (some t) labels pos (i + j) = .error e := by
  induction insns generalizing i sizes with
  | nil => cases failed
  | cons insn insns ih =>
    cases sizes with
    | nil => cases failed
    | cons size sizes =>
      rw [resolvePass, bind_eq_error] at failed
      rcases failed with failed | ⟨⟨size', grown⟩, -, failed⟩
      · exact ⟨0, insn, rfl, resolveInsn_error failed⟩
      · rw [bind_eq_error] at failed
        rcases failed with failed | ⟨⟨sizes', changed⟩, -, failed⟩
        · obtain ⟨j, insn', at_j, t, mem, failed⟩ := ih failed
          refine ⟨j + 1, insn', by simpa using at_j, t, mem, ?_⟩
          rw [Nat.add_comm j, ← Nat.add_assoc]
          exact failed
        · cases failed

/-! ## What passes keep -/

/-- Each size is 1, or the expanded size of a jump. -/
def Sized (insns : List Insn) (sizes : List Nat) : Prop :=
  List.Forall₂ (fun insn size => size = 1 ∨ insn.isJump = true ∧ size = insn.expanded) insns sizes

/-- The number of expanded instructions. -/
def rank (sizes : List Nat) : Nat := sizes.countP (1 < ·)

theorem Sized.length_eq {insns : List Insn} {sizes : List Nat} (sized : Sized insns sizes) :
    sizes.length = insns.length :=
  (List.Forall₂.length_eq sized).symm

theorem Sized.at {insns : List Insn} {sizes : List Nat} (sized : Sized insns sizes) {i : Nat}
    {insn : Insn} (at_i : insns[i]? = some insn) :
    ∃ size, sizes[i]? = some size ∧ (size = 1 ∨ insn.isJump = true ∧ size = insn.expanded) := by
  induction sized generalizing i with
  | nil => simp at at_i
  | cons head _ ih =>
    cases i with
    | zero =>
      cases at_i
      exact ⟨_, rfl, head⟩
    | succ i => exact ih at_i

theorem Sized.bounds {insns : List Insn} {sizes : List Nat} (sized : Sized insns sizes)
    {size : Nat} (mem : size ∈ sizes) : 1 ≤ size ∧ size ≤ 3 := by
  induction sized with
  | nil => cases mem
  | @cons insn s _ _ head _ ih =>
    rcases List.mem_cons.mp mem with rfl | mem
    · rcases head with rfl | ⟨jump, rfl⟩
      · omega
      · exact ⟨(Insn.one_lt_expanded jump).le, insn.expanded_le_three⟩
    · exact ih mem

theorem Sized.rank_le {insns : List Insn} {sizes : List Nat} (sized : Sized insns sizes) :
    rank sizes ≤ insns.length := by
  rw [← sized.length_eq]
  exact List.countP_le_length

theorem sized_ones (insns : List Insn) : Sized insns (List.replicate insns.length 1) := by
  induction insns with
  | nil => exact .nil
  | cons insn insns ih => exact .cons (Or.inl rfl) ih

section Pass

variable {labels : Labels} {pos : List Nat} {i : Nat} {insns : List Insn}
  {sizes sizes' : List Nat} {changed : Bool}

theorem Passed.sized (pass : Passed labels pos i insns sizes sizes' changed)
    (sized : Sized insns sizes) : Sized insns sizes' := by
  induction pass with
  | nil => exact .nil
  | cons head _ ih =>
    cases sized with
    | cons fits rest =>
      refine .cons ?_ (ih rest)
      rcases resolveInsn_ok head with ⟨-, rfl, -⟩ | ⟨-, jump, -, rfl, -⟩
      · exact fits
      · exact Or.inr ⟨jump, rfl⟩

/-- Only an instruction with a target is ever expanded. -/
theorem Passed.targeted (pass : Passed labels pos i insns sizes sizes' changed)
    (targeted : List.Forall₂ (fun insn size => size = 1 ∨ targets insn ≠ []) insns sizes) :
    List.Forall₂ (fun insn size => size = 1 ∨ targets insn ≠ []) insns sizes' := by
  induction pass with
  | nil => exact .nil
  | cons head _ ih =>
    cases targeted with
    | cons fits rest =>
      refine .cons ?_ (ih rest)
      rcases resolveInsn_ok head with ⟨-, rfl, -⟩ | ⟨-, -, -, -, t, mem, -⟩
      · exact fits
      · exact Or.inr (List.ne_nil_of_mem mem)

/-- A pass that reports no change made none. -/
theorem Passed.eq (pass : Passed labels pos i insns sizes sizes' changed)
    (quiet : changed = false) : sizes' = sizes := by
  induction pass with
  | nil => rfl
  | cons head _ ih =>
    obtain ⟨still, quiet⟩ := Bool.or_eq_false_iff.mp quiet
    rcases resolveInsn_ok head with ⟨-, rfl, -⟩ | ⟨grew, -⟩
    · rw [ih quiet]
    · cases still.symm.trans grew

theorem Passed.rank_le (pass : Passed labels pos i insns sizes sizes' changed) :
    rank sizes ≤ rank sizes' := by
  induction pass with
  | nil => exact Nat.le_refl _
  | @cons i insn insns size size' sizes sizes' grown changed head _ ih =>
    unfold rank at ih ⊢
    rw [List.countP_cons, List.countP_cons]
    rcases resolveInsn_ok head with ⟨-, rfl, -⟩ | ⟨-, -, small, rfl, -⟩
    · omega
    · have short : ¬ decide (1 < size) = true := by simpa using small
      rw [if_neg short]
      omega

/-- A changing pass expands an instruction that was short. -/
theorem Passed.rank_lt (pass : Passed labels pos i insns sizes sizes' changed)
    (moved : changed = true) : rank sizes < rank sizes' := by
  induction pass with
  | nil => cases moved
  | @cons i insn insns size size' sizes sizes' grown changed head tail ih =>
    have mono := tail.rank_le
    unfold rank at ih mono ⊢
    rw [List.countP_cons, List.countP_cons]
    rcases resolveInsn_ok head with ⟨rfl, rfl, -⟩ | ⟨-, jump, small, rfl, -⟩
    · have := ih (by simpa using moved)
      omega
    · have short : ¬ decide (1 < size) = true := by simpa using small
      have long : decide (1 < insn.expanded) = true := by
        simpa using Insn.one_lt_expanded jump
      rw [if_neg short, if_pos long]
      omega

/-- After a quiet pass every jump still short has all its targets within reach. -/
theorem Passed.shortAt (pass : Passed labels pos i insns sizes sizes' changed)
    (quiet : changed = false) {j : Nat} {insn : Insn} (at_j : insns[j]? = some insn)
    (jump : insn.isJump = true) (short : sizes[j]? = some 1) :
    ShortAt labels pos (i + j) insn := by
  induction pass generalizing j with
  | nil => simp at at_j
  | @cons i insn' insns size size' sizes sizes' grown changed head _ ih =>
    obtain ⟨still, quiet⟩ := Bool.or_eq_false_iff.mp quiet
    cases j with
    | zero =>
      cases at_j
      cases short
      rcases resolveInsn_ok head with ⟨-, -, within⟩ | ⟨grew, -⟩
      · exact within jump (Nat.le_refl 1)
      · cases still.symm.trans grew
    | succ j =>
      have rest := ih quiet at_j short
      rw [Nat.add_assoc, Nat.add_comm 1 j] at rest
      exact rest

/-- A pass stays below any vector in which the far jumps of the pass are expanded. -/
theorem Passed.le (pass : Passed labels pos i insns sizes sizes' changed) {s : List Nat}
    (below : List.Forall₂ (· ≤ ·) sizes s) (sized : Sized insns s)
    (near : ∀ (j : Nat) insn, insns[j]? = some insn → insn.isJump = true → s[j]? = some 1 →
      ¬ FarAt labels pos (i + j) insn) :
    List.Forall₂ (· ≤ ·) sizes' s := by
  induction pass generalizing s with
  | nil => exact below
  | @cons i insn insns size size' sizes sizes' grown changed head _ ih =>
    cases below with
    | cons le below =>
      cases sized with
      | cons fits sized =>
        refine .cons ?_ (ih below sized fun j insn at_j jump short far => ?_)
        · rcases resolveInsn_ok head with ⟨-, rfl, -⟩ | ⟨-, jump, -, rfl, far⟩
          · exact le
          · rcases fits with rfl | ⟨-, rfl⟩
            · exact absurd far (near 0 insn rfl jump rfl)
            · exact Nat.le_refl _
        · apply near (j + 1) insn at_j jump short
          rw [Nat.add_comm j, ← Nat.add_assoc]
          exact far

end Pass

/-! ## The settled vector -/

/-- A size vector this trampoline scheme can encode: jumps are short or expanded,
everything else is one record, and every short jump reaches its targets in the
layout of the vector itself. -/
structure Fitting (insns : List Insn) (labels : Labels) (sizes : List Nat) : Prop where
  sized : Sized insns sizes
  short : ∀ (i : Nat) insn, insns[i]? = some insn → insn.isJump = true → sizes[i]? = some 1 →
    ShortAt labels (positions sizes) i insn

theorem resolveSizes_sized {insns : List Insn} {labels : Labels} {sizes : List Nat}
    (ok : resolveSizes insns labels = .ok sizes) : Sized insns sizes := by
  refine settle_keeps (fun x y c sized pass => ?_) (sized_ones insns) ok
  exact (passed_of_resolvePass sized.length_eq pass).sized sized

theorem resolveSizes_targeted {insns : List Insn} {labels : Labels} {sizes : List Nat}
    (ok : resolveSizes insns labels = .ok sizes) {i size : Nat} {insn : Insn}
    (at_i : insns[i]? = some insn) (at_size : sizes[i]? = some size) (long : size ≠ 1) :
    targets insn ≠ [] := by
  have ones : List.Forall₂ (fun insn size => size = 1 ∨ targets insn ≠ []) insns
      (List.replicate insns.length 1) :=
    List.Forall₂.imp (fun insn size same => Or.inl same)
      (List.forall₂_iff_get.mpr ⟨by simp, fun i h h' => by simp⟩)
  have all := (settle_keeps (I := fun x => Sized insns x ∧
      List.Forall₂ (fun insn size => size = 1 ∨ targets insn ≠ []) insns x)
    (fun x y c inv pass => by
      have passed := passed_of_resolvePass inv.1.length_eq pass
      exact ⟨passed.sized inv.1, passed.targeted inv.2⟩) ⟨sized_ones insns, ones⟩ ok).2
  obtain ⟨bound, rfl⟩ := List.getElem?_eq_some_iff.mp at_i
  obtain ⟨bound', rfl⟩ := List.getElem?_eq_some_iff.mp at_size
  rcases (List.forall₂_iff_get.mp all).2 i bound bound' with one | targeted
  · exact absurd one long
  · exact targeted

/-- The last pass ran on the vector it returned and changed nothing. -/
theorem resolveSizes_fixed {insns : List Insn} {labels : Labels} {sizes : List Nat}
    (ok : resolveSizes insns labels = .ok sizes) :
    resolvePass labels (positions sizes) 0 insns sizes = .ok (sizes, false) := by
  unfold resolveSizes at ok
  have fixed := settle_fixed (I := Sized insns)
    (fun x y c sized pass => (passed_of_resolvePass sized.length_eq pass).sized sized)
    (fun x y sized pass => (passed_of_resolvePass sized.length_eq pass).eq rfl)
    (sized_ones insns) ok
  exact fixed

theorem resolveSizes_fitting {insns : List Insn} {labels : Labels} {sizes : List Nat}
    (ok : resolveSizes insns labels = .ok sizes) : Fitting insns labels sizes := by
  have sized := resolveSizes_sized ok
  have pass := passed_of_resolvePass sized.length_eq (resolveSizes_fixed ok)
  refine ⟨sized, fun i insn at_i jump short => ?_⟩
  have within := pass.shortAt rfl at_i jump short
  rw [Nat.zero_add] at within
  exact within

/-- The loop never runs out of passes: its errors are those of `_offset`. -/
theorem resolveSizes_error {insns : List Insn} {labels : Labels} {e : PyExc}
    (failed : resolveSizes insns labels = .error e) :
    ∃ sizes, Sized insns sizes ∧ ∃ j insn, insns[j]? = some insn ∧
      ∃ t ∈ targets insn, offset (some t) labels (positions sizes) j = .error e := by
  obtain ⟨sizes, sized, failed⟩ := settle_error (I := Sized insns)
    (fun x y c sized pass => (passed_of_resolvePass sized.length_eq pass).sized sized)
    rank insns.length
    (fun x y sized pass => (passed_of_resolvePass sized.length_eq pass).rank_lt rfl)
    (fun x sized => sized.rank_le) (sized_ones insns) (by omega) failed
  obtain ⟨j, insn, at_j, t, mem, failed⟩ := resolvePass_error failed
  rw [Nat.zero_add] at failed
  exact ⟨sizes, sized, j, insn, at_j, t, mem, failed⟩

/-! ## Forward programs -/

/-- In a forward program the offset of a target is a natural number. -/
theorem offset_forward {insns : List Insn} {labels : Labels} {sizes : List Nat}
    (sized : Sized insns sizes) {i : Nat} {insn : Insn} (at_i : insns[i]? = some insn)
    {t : String} {p : Nat} (found : labels.get? t = some (p : Int)) (ahead : i < p)
    (inside : p ≤ insns.length) :
    0 ≤ gap sizes i p ∧
      offset (some t) labels (positions sizes) i = .ok (some (gap sizes i p)) := by
  have length := sized.length_eq
  have bound : i < insns.length := (List.getElem?_eq_some_iff.mp at_i).1
  obtain ⟨size, at_size, -⟩ := sized.at at_i
  have positive := (sized.bounds (List.mem_of_getElem? at_size)).1
  have past := offsetOf_add_le at_size ahead
  have nonneg : 0 ≤ gap sizes i p := by
    unfold gap
    omega
  refine ⟨nonneg, ?_⟩
  rw [offset_eq found (by omega) (by omega), if_neg (by omega)]

/-- Widening a layout moves no target closer, so what fits in the wider layout is
not far in the narrower one. -/
theorem not_farAt_of_shortAt {insns : List Insn} {labels : Labels} {base s : List Nat}
    (resolves : Resolves insns labels) (sizedBase : Sized insns base) (sized : Sized insns s)
    (below : List.Forall₂ (· ≤ ·) base s) {i : Nat} {insn : Insn}
    (at_i : insns[i]? = some insn) (short : ShortAt labels (positions s) i insn) :
    ¬ FarAt labels (positions base) i insn := by
  intro given
  rcases given with ⟨t, mem, off, found, beyond⟩
  obtain ⟨off', found', within⟩ := short t mem
  obtain ⟨p, label, ahead, inside⟩ := resolves.target at_i mem
  rw [(offset_forward sizedBase at_i label ahead inside).2] at found
  rw [(offset_forward sized at_i label ahead inside).2] at found'
  cases found
  cases found'
  have wider := offsetOf_gap_mono below ahead.le
  unfold gap at beyond within
  omega

theorem resolveSizes_total {insns : List Insn} {labels : Labels}
    (resolves : Resolves insns labels) : ∃ sizes, resolveSizes insns labels = .ok sizes := by
  cases result : resolveSizes insns labels with
  | ok sizes => exact ⟨sizes, rfl⟩
  | error e =>
    obtain ⟨sizes, sized, j, insn, at_j, t, mem, failed⟩ := resolveSizes_error result
    obtain ⟨p, found, ahead, inside⟩ := resolves.target at_j mem
    rw [(offset_forward sized at_j found ahead inside).2] at failed
    cases failed

/-- Passes never leave the region below a fitting vector, so the settled vector is
below every one of them. -/
theorem resolveSizes_le {insns : List Insn} {labels : Labels} {sizes s : List Nat}
    (resolves : Resolves insns labels) (ok : resolveSizes insns labels = .ok sizes)
    (fitting : Fitting insns labels s) : List.Forall₂ (· ≤ ·) sizes s := by
  have ones : List.Forall₂ (· ≤ ·) (List.replicate insns.length 1) s := by
    refine List.forall₂_iff_get.mpr ⟨by simp [fitting.sized.length_eq], fun i _ bound => ?_⟩
    simpa using (fitting.sized.bounds (List.get_mem s ⟨i, bound⟩)).1
  refine (settle_keeps (I := fun x => Sized insns x ∧ List.Forall₂ (· ≤ ·) x s)
    (fun x y c inv pass => ?_) ⟨sized_ones insns, ones⟩ ok).2
  have passed := passed_of_resolvePass inv.1.length_eq pass
  refine ⟨passed.sized inv.1, passed.le inv.2 fitting.sized fun j insn at_j jump short far => ?_⟩
  rw [Nat.zero_add] at far
  exact not_farAt_of_shortAt resolves inv.1 fitting.sized inv.2 at_j
    (fitting.short j insn at_j jump short) far

end Seccompy.Bpf
