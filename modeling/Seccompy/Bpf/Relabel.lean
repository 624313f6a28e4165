import Seccompy.Bpf.Assembler
import Seccompy.Lib.Related

/-!
# Labels are names

The assembler reads a label only for the index it stands for.  Programs of the same shape
whose targets stand for the same indices are sized alike, whatever their operands; with the
same operands they assemble to the same bytes (`assemble_alike`).  So labels can be renamed,
merged or moved to another symbol table (`labels_are_names`).
-/

namespace Seccompy.Bpf

open Lib

/-- The same instruction but for operands and targets, which correspond. -/
inductive SameInsn (K : U32 → U32 → Prop) (T : String → String → Prop) : Insn → Insn → Prop
  | load {k k' : U32} (operand : K k k') : SameInsn K T (.load k) (.load k')
  | and {k k' : U32} (operand : K k k') : SameInsn K T (.and k) (.and k')
  | jump {op : JumpOp} {k k' : U32} {jt jf jt' jf' : Option String} (operand : K k k')
    (yes : Option.Rel T jt jt') (no : Option.Rel T jf jf') :
    SameInsn K T (.jump op k jt jf) (.jump op k' jt' jf')
  | ja {t t' : String} (same : T t t') : SameInsn K T (.ja t) (.ja t')
  | ret {k k' : U32} (operand : K k k') : SameInsn K T (.ret k) (.ret k')

/-- The labels stand for the same index. -/
def SameIndex (labels labels' : Labels) (t t' : String) : Prop := labels.get? t = labels'.get? t'

theorem SameInsn.imp {K : U32 → U32 → Prop} {T T' : String → String → Prop} {insn insn' : Insn}
    (same : SameInsn K T insn insn') (more : ∀ {t t'}, T t t' → T' t t') :
    SameInsn K T' insn insn' := by
  have target : ∀ {jt jt'}, Option.Rel T jt jt' → Option.Rel T' jt jt' := by
    intro jt jt' related
    cases related with
    | none => exact .none
    | some related => exact .some (more related)
  cases same with
  | load operand => exact .load operand
  | and operand => exact .and operand
  | jump operand yes no => exact .jump operand (target yes) (target no)
  | ja same => exact .ja (more same)
  | ret operand => exact .ret operand

variable {labels labels' : Labels} {K : U32 → U32 → Prop}

/-! ## Sizes -/

theorem dictGet_alike {t t' : String} (same : SameIndex labels labels' t t') :
    Alike (dictGet labels t) (dictGet labels' t') := by
  unfold dictGet
  rw [same]
  cases labels'.get? t' with
  | none => exact .error _ _
  | some index => exact .refl _

theorem offset_alike {target target' : Option String}
    (same : Option.Rel (SameIndex labels labels') target target') (pos : List Nat) (i : Nat) :
    Alike (offset target labels pos i) (offset target' labels' pos i) := by
  cases same with
  | none => exact .refl _
  | some same =>
    refine (dictGet_alike same).bind fun index => ?_
    refine (Alike.refl _).bind fun stop => ?_
    refine (Alike.refl _).bind fun start => ?_
    exact .ite (.error _ _) (.refl _)

theorem needsExpansion_alike {jt jf jt' jf' : Option String}
    (yes : Option.Rel (SameIndex labels labels') jt jt')
    (no : Option.Rel (SameIndex labels labels') jf jf') (pos : List Nat) (i : Nat) :
    Alike (needsExpansion jt jf labels pos i) (needsExpansion jt' jf' labels' pos i) := by
  refine (offset_alike yes pos i).bind fun off => .ite (.refl _) ?_
  exact (offset_alike no pos i).bind fun off => .ite (.refl _) (.refl _)

theorem expandedSize_same {jt jf jt' jf' : Option String}
    (yes : Option.Rel (SameIndex labels labels') jt jt')
    (no : Option.Rel (SameIndex labels labels') jf jf') :
    expandedSize jt jf = expandedSize jt' jf' := by
  cases yes with
  | none => rfl
  | some => cases no <;> rfl

theorem resolveInsn_alike {insn insn' : Insn}
    (same : SameInsn K (SameIndex labels labels') insn insn') (pos : List Nat) (i size : Nat) :
    Alike (resolveInsn labels pos i insn size) (resolveInsn labels' pos i insn' size) := by
  cases same with
  | jump _ yes no =>
    refine .ite (.refl _) ?_
    rw [expandedSize_same yes no]
    exact (needsExpansion_alike yes no pos i).bind fun far => .refl _
  | _ => exact .refl _

theorem resolvePass_alike {insns insns' : List Insn}
    (same : List.Forall₂ (SameInsn K (SameIndex labels labels')) insns insns') (pos : List Nat)
    (i : Nat) (sizes : List Nat) :
    Alike (resolvePass labels pos i insns sizes) (resolvePass labels' pos i insns' sizes) := by
  induction same generalizing i sizes with
  | nil => exact .refl _
  | cons first _ ih =>
    cases sizes with
    | nil => exact .refl _
    | cons size sizes =>
      refine (resolveInsn_alike first pos i size).bind fun grown => ?_
      exact (ih (i + 1) sizes).bind fun rest => .refl _

/-- The sizes depend on shapes and on what labels stand for. -/
theorem resolveSizes_alike {insns insns' : List Insn}
    (same : List.Forall₂ (SameInsn K (SameIndex labels labels')) insns insns') :
    Alike (resolveSizes insns labels) (resolveSizes insns' labels') := by
  unfold resolveSizes
  rw [same.length_eq]
  exact .settle (fun sizes => resolvePass_alike same (positions sizes) 0 sizes) _ _

/-! ## Bytes -/

theorem jaBytes_alike {target target' : Option String}
    (same : Option.Rel (SameIndex labels labels') target target') (pos : List Nat) (pc : Nat) :
    Alike (jaBytes target labels pos pc) (jaBytes target' labels' pos pc) := by
  cases same with
  | none => exact .refl _
  | some same =>
    refine (dictGet_alike same).bind fun index => ?_
    refine (Alike.refl _).bind fun stop => ?_
    exact .ite (.error _ _) (.refl _)

theorem emitExpanded_alike {jt jf jt' jf' : Option String} (op : JumpOp) (k : U32)
    (yes : Option.Rel (SameIndex labels labels') jt jt')
    (no : Option.Rel (SameIndex labels labels') jf jf') (pos : List Nat) (i : Nat) :
    Alike (emitExpanded op k jt jf labels pos i) (emitExpanded op k jt' jf' labels' pos i) := by
  have first := @jaBytes_alike labels labels' _ _ yes pos
  have second := @jaBytes_alike labels labels' _ _ no pos
  cases yes with
  | none =>
    refine (Alike.refl _).bind fun hop => (Alike.refl _).bind fun start => ?_
    exact (second _).bind fun ja => .refl _
  | some =>
    refine (Alike.refl _).bind fun hop => (Alike.refl _).bind fun start => ?_
    refine (first _).bind fun ja => ?_
    cases no with
    | none => exact .refl _
    | some => exact (Alike.refl _).bind fun start => (second _).bind fun ja => .refl _

theorem emit_alike {insn insn' : Insn} (same : SameInsn Eq (SameIndex labels labels') insn insn')
    (pos : List Nat) (i size : Nat) :
    Alike (emit insn labels pos i size) (emit insn' labels' pos i size) := by
  cases same with
  | load operand =>
    subst operand
    exact .refl _
  | and operand =>
    subst operand
    exact .refl _
  | ret operand =>
    subst operand
    exact .refl _
  | ja same =>
    refine (offset_alike (.some same) pos i).bind fun off => ?_
    cases off with
    | none => exact .error _ _
    | some off => exact .ite (.error _ _) (.refl _)
  | jump operand yes no =>
    subst operand
    refine (offset_alike yes pos i).bind fun t => (offset_alike no pos i).bind fun f => ?_
    exact .ite (.refl _) (emitExpanded_alike _ _ yes no pos i)

theorem emitFrom_alike {insns insns' : List Insn}
    (same : List.Forall₂ (SameInsn Eq (SameIndex labels labels')) insns insns')
    (pos sizes : List Nat) (i : Nat) :
    Alike (emitFrom labels pos sizes i insns) (emitFrom labels' pos sizes i insns') := by
  induction same generalizing i with
  | nil => exact .refl _
  | cons first _ ih =>
    refine (Alike.refl _).bind fun size => ?_
    refine (emit_alike first pos i size).bind fun bytes => ?_
    exact (ih (i + 1)).bind fun rest => .refl _

theorem validateTarget_alike {t t' : String} (same : SameIndex labels labels' t t')
    (count : Nat) : Alike (validateTarget count labels t) (validateTarget count labels' t') := by
  unfold validateTarget
  rw [same]
  cases labels'.get? t' with
  | none => exact .error _ _
  | some index => exact .ite (.refl _) (.error _ _)

theorem targets_same {insn insn' : Insn} (same : SameInsn K (SameIndex labels labels') insn insn') :
    List.Forall₂ (SameIndex labels labels') (targets insn) (targets insn') := by
  cases same with
  | jump _ yes no =>
    cases yes with
    | none =>
      cases no with
      | none => exact .nil
      | some second => exact .cons second .nil
    | some first =>
      cases no with
      | none => exact .cons first .nil
      | some second => exact .cons first (.cons second .nil)
  | ja same => exact .cons same .nil
  | _ => exact .nil

theorem assemble_alike {insns insns' : List Insn}
    (same : List.Forall₂ (SameInsn Eq (SameIndex labels labels')) insns insns') :
    Alike (assemble insns labels) (assemble insns' labels') := by
  have valid : Alike (validateLabels insns labels) (validateLabels insns' labels') := by
    unfold validateLabels
    rw [same.length_eq]
    refine Alike.forM same fun each => ?_
    exact Alike.forM (targets_same each) fun target => validateTarget_alike target _
  refine valid.bind fun _ => (resolveSizes_alike same).bind fun sizes => ?_
  exact emitFrom_alike same _ sizes 0

/-! ## Renaming -/

/-- The instruction with its labels renamed. -/
def Insn.relabel (g : String → String) : Insn → Insn
  | .jump op k jt jf => .jump op k (jt.map g) (jf.map g)
  | .ja target => .ja (g target)
  | insn => insn

theorem sameInsn_relabel {g : String → String} {insn : Insn}
    (same : ∀ t ∈ targets insn, labels'.get? (g t) = labels.get? t) :
    SameInsn Eq (SameIndex labels labels') insn (insn.relabel g) := by
  cases insn with
  | load k => exact .load rfl
  | and k => exact .and rfl
  | ret k => exact .ret rfl
  | ja t => exact .ja (same t List.mem_cons_self).symm
  | jump op k jt jf =>
    have target : ∀ label : Option String, (∀ t, label = some t → t ∈ targets (.jump op k jt jf)) →
        Option.Rel (SameIndex labels labels') label (label.map g) := by
      intro label inside
      cases label with
      | none => exact .none
      | some t => exact .some (same t (inside t rfl)).symm
    refine .jump rfl (target jt ?_) (target jf ?_)
    · rintro t rfl
      simp [targets]
    · rintro t rfl
      simp [targets]

/-- A program whose labels are renamed, not necessarily one to one, is refused if it was,
and else has the same bytes, as long as each target stands for the same index as before. -/
theorem labels_are_names (g : String → String) (insns : List Insn) (labels labels' : Labels)
    (same : ∀ insn ∈ insns, ∀ t ∈ targets insn, labels'.get? (g t) = labels.get? t)
    (bytes : Bytes) : assemble (insns.map (Insn.relabel g)) labels' = .ok bytes ↔
      assemble insns labels = .ok bytes := by
  have each : List.Forall₂ (SameInsn Eq (SameIndex labels labels')) insns
      (insns.map (Insn.relabel g)) := by
    rw [List.forall₂_map_right_iff, List.forall₂_same]
    exact fun insn mem => sameInsn_relabel (same insn mem)
  exact (assemble_alike each).ok_iff.symm

/-- Two labels of one index become one. -/
theorem labels_are_names_merged :
    ∃ bytes, assemble [.jump .jeq 7 (some "a") (some "b"), .ret 0, .ret 1]
        ((Dict.empty.set "a" 2).set "b" 2) = .ok bytes ∧
      assemble [.jump .jeq 7 (some "x") (some "x"), .ret 0, .ret 1] (Dict.empty.set "x" 2) =
        .ok bytes := by
  have ran : assemble [.jump .jeq 7 (some "a") (some "b"), .ret 0, .ret 1]
      ((Dict.empty.set "a" 2).set "b" 2) =
        .ok [0x15, 0, 1, 1, 7, 0, 0, 0, 6, 0, 0, 0, 0, 0, 0, 0, 6, 0, 0, 0, 1, 0, 0, 0] := by
    decide +kernel
  refine ⟨_, ran, ?_⟩
  refine (labels_are_names (fun _ => "x") [.jump .jeq 7 (some "a") (some "b"), .ret 0, .ret 1]
    ((Dict.empty.set "a" 2).set "b" 2) (Dict.empty.set "x" 2) ?_ _).mpr ran
  decide +kernel

end Seccompy.Bpf
