import Seccompy.Bpf.Records

/-!
# What `assemble` accepts and returns

`assemble_ok` describes an accepted program: its targets resolve forward, its
layout is the settled size vector, and its bytes are the records of that layout.
`assemble_of_resolves` is the converse, and `assemble_error` lists the errors.
The two results at the end are about the domain of `assemble` and about the
minimality of the layout.
-/

namespace Seccompy.Bpf

open Lib

/-! ## Validation -/

def undefinedLabel (target : String) : PyExc := .valueError s!"undefined label: {target}"

def labelRange (target : String) : PyExc := .valueError s!"label out of range: {target}"

theorem validateTarget_ok {count : Nat} {labels : Labels} {t : String} :
    validateTarget count labels t = .ok () ↔
      ∃ p : Nat, labels.get? t = some (p : Int) ∧ p ≤ count := by
  unfold validateTarget
  cases found : labels.get? t with
  | none => simp
  | some idx =>
    simp only [Option.some.injEq]
    split
    · next inside =>
      obtain ⟨p, rfl⟩ := Int.eq_ofNat_of_zero_le inside.1
      exact ⟨fun _ => ⟨p, rfl, by omega⟩, fun _ => rfl⟩
    · next outside =>
      constructor
      · intro ok
        cases ok
      · rintro ⟨p, rfl, le⟩
        exact absurd ⟨by omega, by omega⟩ outside

theorem validateTarget_error {count : Nat} {labels : Labels} {t : String} {e : PyExc}
    (failed : validateTarget count labels t = .error e) :
    e = undefinedLabel t ∨ e = labelRange t := by
  unfold validateTarget at failed
  split at failed
  · cases failed
    exact Or.inl rfl
  · split at failed
    · cases failed
    · cases failed
      exact Or.inr rfl

theorem validateLabels_ok {insns : List Insn} {labels : Labels} :
    validateLabels insns labels = .ok () ↔ InRange insns labels := by
  unfold validateLabels InRange
  rw [forM_eq_ok]
  apply forall₂_congr
  intro insn _
  rw [forM_eq_ok]
  exact forall₂_congr fun t _ => validateTarget_ok

theorem validateLabels_error {insns : List Insn} {labels : Labels} {e : PyExc}
    (failed : validateLabels insns labels = .error e) :
    ∃ t ∈ insns.flatMap targets, e = undefinedLabel t ∨ e = labelRange t := by
  obtain ⟨insn, memInsn, failed⟩ := forM_eq_error failed
  obtain ⟨t, memTarget, failed⟩ := forM_eq_error failed
  exact ⟨t, List.mem_flatMap.mpr ⟨insn, memInsn, memTarget⟩, validateTarget_error failed⟩

/-! ## The emission loop -/

section EmitFrom

variable {labels : Labels} {pos sizes : List Nat} {i : Nat} {insns : List Insn}

theorem emitFrom_eq {f : Nat → Insn → List Record}
    (each : ∀ (j : Nat) insn, insns[j]? = some insn → ∃ size, sizes[i + j]? = some size ∧
      emit insn labels pos (i + j) size = .ok ((f j insn).flatMap Record.pack)) :
    emitFrom labels pos sizes i insns =
      .ok ((insns.mapIdx f).flatten.flatMap Record.pack) := by
  induction insns generalizing i f with
  | nil => rfl
  | cons insn insns ih =>
    obtain ⟨size, at_size, head⟩ := each 0 insn rfl
    have tail := ih (i := i + 1) (f := fun j => f (j + 1)) fun j insn' at_j => by
      have shift : i + 1 + j = i + (j + 1) := by omega
      rw [shift]
      exact each (j + 1) insn' (by simpa using at_j)
    rw [Nat.add_zero] at at_size head
    simp only [emitFrom, pyGet_natCast at_size, ok_bind, head, tail, pure_eq_ok,
      List.mapIdx_cons, List.flatten_cons, List.flatMap_append]

theorem emitFrom_error {e : PyExc} (length : i + insns.length ≤ sizes.length)
    (failed : emitFrom labels pos sizes i insns = .error e) :
    ∃ (j : Nat) (insn : Insn) (size : Nat), insns[j]? = some insn ∧ sizes[i + j]? = some size ∧
      emit insn labels pos (i + j) size = .error e := by
  induction insns generalizing i with
  | nil => cases failed
  | cons insn insns ih =>
    simp only [List.length_cons] at length
    have at_size : sizes[i]? = some (sizes.get ⟨i, by omega⟩) := List.getElem?_eq_getElem _
    rw [emitFrom, pyGet_natCast at_size, ok_bind, bind_eq_error] at failed
    rcases failed with head | ⟨bytes, -, failed⟩
    · exact ⟨0, insn, _, rfl, at_size, head⟩
    · rw [bind_eq_error] at failed
      rcases failed with tail | ⟨rest, -, failed⟩
      · obtain ⟨j, insn', size, at_j, at_size', failed⟩ := ih (by omega) tail
        rw [Nat.add_assoc, Nat.add_comm 1 j] at at_size' failed
        exact ⟨j + 1, insn', size, by simpa using at_j, at_size', failed⟩
      · cases failed

theorem emitFrom_ok_at {bytes : Bytes} (ok : emitFrom labels pos sizes i insns = .ok bytes)
    {j : Nat} {insn : Insn} (at_j : insns[j]? = some insn) :
    ∃ size part, sizes[i + j]? = some size ∧ emit insn labels pos (i + j) size = .ok part := by
  induction insns generalizing i j bytes with
  | nil => simp at at_j
  | cons insn' insns ih =>
    rw [emitFrom, bind_eq_ok] at ok
    obtain ⟨size, at_size, ok⟩ := ok
    rw [bind_eq_ok] at ok
    obtain ⟨part, head, ok⟩ := ok
    rw [bind_eq_ok] at ok
    obtain ⟨rest, tail, -⟩ := ok
    cases j with
    | zero =>
      cases at_j
      exact ⟨size, part, pyGet_natCast_iff.mp at_size, head⟩
    | succ j =>
      have shift : i + (j + 1) = i + 1 + j := by omega
      rw [shift]
      exact ih tail (j := j) (by simpa using at_j)

end EmitFrom

/-! ## The layout of a program -/

/-- The records of each instruction. -/
def blocks (insns : List Insn) (labels : Labels) (sizes : List Nat) : List (List Record) :=
  insns.mapIdx fun i insn => recordsOf labels sizes i (sizes.getD i 1) insn

/-- The whole program as records. -/
def layout (insns : List Insn) (labels : Labels) (sizes : List Nat) : List Record :=
  (blocks insns labels sizes).flatten

/-- Every JA offset of the layout fits in 32 bits. -/
def JaFits (insns : List Insn) (labels : Labels) (sizes : List Nat) : Prop :=
  ∀ (i : Nat) insn size, insns[i]? = some insn → sizes[i]? = some size →
    JaFitsAt labels sizes i size insn

theorem blocks_at (labels : Labels) {insns : List Insn} {sizes : List Nat} {i size : Nat}
    {insn : Insn} (at_i : insns[i]? = some insn) (at_size : sizes[i]? = some size) :
    (blocks insns labels sizes)[i]? = some (recordsOf labels sizes i size insn) := by
  simp [blocks, at_i, at_size]

theorem length_recordsOf (labels : Labels) (sizes : List Nat) (i : Nat) {size : Nat} {insn : Insn}
    (fits : size = 1 ∨ insn.isJump = true ∧ size = insn.expanded)
    (targeted : size ≠ 1 → targets insn ≠ []) :
    (recordsOf labels sizes i size insn).length = size := by
  cases insn with
  | jump op k jt jf =>
    by_cases one : size = 1
    · simp [recordsOf, one]
    · have grown : size = expandedSize jt jf := (fits.resolve_left one).2
      have some_target := targeted one
      simp only [recordsOf, if_neg one]
      cases jt <;> cases jf <;> simp_all [expandedSize, targets]
  | load k => simpa [recordsOf, Insn.isJump, eq_comm] using fits
  | and k => simpa [recordsOf, Insn.isJump, eq_comm] using fits
  | ja t => simpa [recordsOf, Insn.isJump, eq_comm] using fits
  | ret k => simpa [recordsOf, Insn.isJump, eq_comm] using fits

/-- Block `i` is `sizes[i]` records long, so it starts at `offsetOf sizes i`. -/
theorem map_length_blocks {insns : List Insn} {labels : Labels} {sizes : List Nat}
    (ok : resolveSizes insns labels = .ok sizes) :
    (blocks insns labels sizes).map List.length = sizes := by
  have sized := resolveSizes_sized ok
  refine List.ext_getElem? fun i => ?_
  rw [List.getElem?_map]
  cases at_i : insns[i]? with
  | none =>
    have beyond := List.getElem?_eq_none_iff.mp at_i
    rw [List.getElem?_eq_none_iff.mpr (by simpa [blocks] using beyond),
      List.getElem?_eq_none_iff.mpr (by rw [sized.length_eq]; exact beyond)]
    rfl
  | some insn =>
    obtain ⟨size, at_size, fits⟩ := sized.at at_i
    rw [blocks_at labels at_i at_size, at_size, Option.map_some,
      length_recordsOf labels sizes i fits (resolveSizes_targeted ok at_i at_size)]

theorem length_layout {insns : List Insn} {labels : Labels} {sizes : List Nat}
    (ok : resolveSizes insns labels = .ok sizes) :
    (layout insns labels sizes).length = sizes.sum := by
  rw [layout, List.length_flatten, map_length_blocks ok]

/-! ## Accepted programs -/

section Emission

variable {insns : List Insn} {labels : Labels} {sizes : List Nat}

/-- One instruction of a settled layout, when its targets lie ahead. -/
theorem emit_settled (ok : resolveSizes insns labels = .ok sizes) {i size : Nat} {insn : Insn}
    (at_i : insns[i]? = some insn) (at_size : sizes[i]? = some size)
    (forward : ForwardAt insns.length labels i insn) :
    (JaFitsAt labels sizes i size insn ∧ emit insn labels (positions sizes) i size =
      .ok ((recordsOf labels sizes i size insn).flatMap Record.pack)) ∨
    (¬ JaFitsAt labels sizes i size insn ∧
      ∃ t ∈ targets insn, emit insn labels (positions sizes) i size = .error (jaRange t)) := by
  have fitting := resolveSizes_fitting ok
  refine emit_forward fitting.sized at_i at_size forward (fun jump one => ?_)
    (resolveSizes_targeted ok at_i at_size)
  subst one
  exact fitting.short i insn at_i jump at_size

theorem emitFrom_settled (ok : resolveSizes insns labels = .ok sizes)
    (resolves : Resolves insns labels) (fits : JaFits insns labels sizes) :
    emitFrom labels (positions sizes) sizes 0 insns =
      .ok ((layout insns labels sizes).flatMap Record.pack) := by
  apply emitFrom_eq
  intro j insn at_j
  obtain ⟨size, at_size, -⟩ := (resolveSizes_sized ok).at at_j
  rw [Nat.zero_add]
  refine ⟨size, at_size, ?_⟩
  have getD : sizes.getD j 1 = size := by simp [at_size]
  rw [getD]
  rcases emit_settled ok at_j at_size (resolves.forwardAt at_j) with ⟨-, emitted⟩ | ⟨unfit, -⟩
  · exact emitted
  · exact absurd (fits j insn size at_j at_size) unfit

/-- A forward program whose JA offsets fit is accepted. -/
theorem assemble_of_resolves (ok : resolveSizes insns labels = .ok sizes)
    (resolves : Resolves insns labels) (fits : JaFits insns labels sizes) :
    assemble insns labels = .ok ((layout insns labels sizes).flatMap Record.pack) := by
  rw [assemble, validateLabels_ok.mpr resolves.inRange, ok_bind, ok, ok_bind]
  exact emitFrom_settled ok resolves fits

/-- In-range labels that do not lie ahead are the ones `_offset` refuses. -/
theorem offset_inRange (inRange : InRange insns labels) (sized : Sized insns sizes) {i : Nat}
    {insn : Insn} (at_i : insns[i]? = some insn) {t : String} (mem : t ∈ targets insn) :
    (∃ p : Nat, labels.get? t = some (p : Int) ∧ i < p ∧ p ≤ insns.length) ∨
      offset (some t) labels (positions sizes) i = .error (backward t) := by
  have length := sized.length_eq
  have bound : i < insns.length := (List.getElem?_eq_some_iff.mp at_i).1
  obtain ⟨p, found, inside⟩ := inRange insn (List.mem_of_getElem? at_i) t mem
  rcases Nat.lt_or_ge i p with ahead | behind
  · exact Or.inl ⟨p, found, ahead, inside⟩
  · right
    have below : offsetOf sizes p ≤ offsetOf sizes i := offsetOf_mono behind
    rw [offset_eq found (by omega) (by omega), if_pos (by unfold gap; omega)]

/-- Emission of a settled, in-range program fails only on a backward jump or a JA
that does not fit. -/
theorem emitFrom_settled_error (ok : resolveSizes insns labels = .ok sizes)
    (inRange : InRange insns labels) {e : PyExc}
    (failed : emitFrom labels (positions sizes) sizes 0 insns = .error e) :
    ∃ t ∈ insns.flatMap targets,
      e = backward t ∨ e = jaRange t ∧ ¬ JaFits insns labels sizes := by
  have sized := resolveSizes_sized ok
  obtain ⟨j, insn, size, at_j, at_size, failed⟩ :=
    emitFrom_error (by rw [sized.length_eq]; omega) failed
  rw [Nat.zero_add] at at_size failed
  have memAll : ∀ t ∈ targets insn, t ∈ insns.flatMap targets := fun t mem =>
    List.mem_flatMap.mpr ⟨insn, List.mem_of_getElem? at_j, mem⟩
  by_cases forward : ForwardAt insns.length labels j insn
  · rcases emit_settled ok at_j at_size forward with ⟨-, emitted⟩ | ⟨unfit, t, mem, refused⟩
    · rw [emitted] at failed
      cases failed
    · rw [refused] at failed
      cases failed
      exact ⟨t, memAll t mem, Or.inr ⟨rfl, fun fits => unfit (fits j insn size at_j at_size)⟩⟩
  · unfold ForwardAt at forward
    push Not at forward
    obtain ⟨t, mem, behind⟩ := forward
    rcases offset_inRange inRange sized at_j mem with ⟨p, found, ahead, inside⟩ | refused
    · exact absurd inside (by have := behind p found ahead; omega)
    · obtain ⟨t', mem', e', refused', emitted⟩ := emit_offset_error size mem refused
      rw [emitted] at failed
      cases failed
      rcases offset_inRange inRange sized at_j mem' with ⟨p, found, ahead, inside⟩ | back
      · rw [(offset_forward sized at_j found ahead inside).2] at refused'
        cases refused'
      · rw [back] at refused'
        cases refused'
        exact ⟨t', memAll t' mem', Or.inl rfl⟩

end Emission

/-- The errors of `assemble`. -/
theorem assemble_error {insns : List Insn} {labels : Labels} {e : PyExc}
    (failed : assemble insns labels = .error e) :
    ∃ t ∈ insns.flatMap targets, e = undefinedLabel t ∨ e = labelRange t ∨ e = backward t ∨
      e = jaRange t ∧ ∃ sizes, resolveSizes insns labels = .ok sizes ∧
        ¬ JaFits insns labels sizes := by
  rw [assemble, bind_eq_error] at failed
  rcases failed with failed | ⟨⟨⟩, validated, failed⟩
  · obtain ⟨t, mem, undefined | outside⟩ := validateLabels_error failed
    · exact ⟨t, mem, Or.inl undefined⟩
    · exact ⟨t, mem, Or.inr (Or.inl outside)⟩
  · have inRange := validateLabels_ok.mp validated
    rw [bind_eq_error] at failed
    rcases failed with failed | ⟨sizes, ok, failed⟩
    · obtain ⟨sizes, sized, j, insn, at_j, t, mem, failed⟩ := resolveSizes_error failed
      have memAll := List.mem_flatMap.mpr ⟨insn, List.mem_of_getElem? at_j, mem⟩
      rcases offset_inRange inRange sized at_j mem with ⟨p, found, ahead, inside⟩ | back
      · rw [(offset_forward sized at_j found ahead inside).2] at failed
        cases failed
      · rw [back] at failed
        cases failed
        exact ⟨t, memAll, Or.inr (Or.inr (Or.inl rfl))⟩
    · obtain ⟨t, mem, back | ⟨range, unfit⟩⟩ := emitFrom_settled_error ok inRange failed
      · exact ⟨t, mem, Or.inr (Or.inr (Or.inl back))⟩
      · exact ⟨t, mem, Or.inr (Or.inr (Or.inr ⟨range, sizes, ok, unfit⟩))⟩

/-- An accepted program: every target lies ahead, and the bytes are its settled layout. -/
theorem assemble_ok {insns : List Insn} {labels : Labels} {bytes : Bytes}
    (ok : assemble insns labels = .ok bytes) :
    Resolves insns labels ∧ ∃ sizes, resolveSizes insns labels = .ok sizes ∧
      JaFits insns labels sizes ∧ bytes = (layout insns labels sizes).flatMap Record.pack := by
  rw [assemble, bind_eq_ok] at ok
  obtain ⟨⟨⟩, validated, ok⟩ := ok
  rw [bind_eq_ok] at ok
  obtain ⟨sizes, settled, ok⟩ := ok
  have inRange := validateLabels_ok.mp validated
  have sized := resolveSizes_sized settled
  have resolves : Resolves insns labels := by
    intro i insn at_i t mem
    obtain ⟨size, part, -, emitted⟩ := emitFrom_ok_at ok at_i
    rw [Nat.zero_add] at emitted
    rcases offset_inRange inRange sized at_i mem with ⟨p, found, ahead, inside⟩ | back
    · exact ⟨p, found, by omega, by omega⟩
    · obtain ⟨t', -, e', -, refused⟩ := emit_offset_error size mem back
      rw [refused] at emitted
      cases emitted
  have fits : JaFits insns labels sizes := by
    intro i insn size at_i at_size
    obtain ⟨size', part, at_size', emitted⟩ := emitFrom_ok_at ok at_i
    rw [Nat.zero_add] at at_size' emitted
    cases at_size.symm.trans at_size'
    rcases emit_settled settled at_i at_size (resolves.forwardAt at_i) with
      ⟨fits, -⟩ | ⟨-, t, -, refused⟩
    · exact fits
    · rw [refused] at emitted
      cases emitted
  refine ⟨resolves, sizes, settled, fits, ?_⟩
  rw [emitFrom_settled settled resolves fits] at ok
  exact (Except.ok.inj ok).symm

/-! ## The domain of `assemble` -/

/-- A program of `n` instructions with `3 n ≤ 2 ^ 32` has no JA that does not fit. -/
theorem jaFits_of_small {insns : List Insn} {labels : Labels} {sizes : List Nat}
    (ok : resolveSizes insns labels = .ok sizes) (small : 3 * insns.length ≤ 2 ^ 32) :
    JaFits insns labels sizes := by
  intro i insn size _ _ site _
  have sized := resolveSizes_sized ok
  have total := sum_le_mul_length (c := 3) fun s mem => (sized.bounds mem).2
  have below := offsetOf_le_sum sizes (labelIndex labels site.2)
  rw [sized.length_eq] at total
  omega

theorem ne_of_head_ne {a b : String} (ne : a.toList.head? ≠ b.toList.head?) : a ≠ b := by
  rintro rfl
  exact ne rfl

theorem head?_append {a : String} (b : String) {c : Char} (head : a.toList.head? = some c) :
    (a ++ b).toList.head? = some c := by
  rw [String.toList_append, List.head?_append, head]
  rfl

theorem head?_undefinedLabel (t : String) :
    (s!"undefined label: {t}").toList.head? = some 'u' :=
  head?_append t (by decide)

theorem head?_labelRange (t : String) :
    (s!"label out of range: {t}").toList.head? = some 'l' :=
  head?_append t (by decide)

theorem head?_backward (t : String) :
    (s!"backward jump to label: {t}").toList.head? = some 'b' :=
  head?_append t (by decide)

/-- The three refusals are told apart from every other text by their first letter. -/
theorem refusal_ne {e : PyExc} {t text : String} {c : Char}
    (refusal : e = undefinedLabel t ∨ e = labelRange t ∨ e = backward t)
    (head : text.toList.head? = some c) (letter : c ≠ 'u' ∧ c ≠ 'l' ∧ c ≠ 'b') :
    e ≠ .valueError text := by
  rcases refusal with rfl | rfl | rfl
  · intro same
    refine ne_of_head_ne ?_ (PyExc.valueError.inj same)
    rw [head?_undefinedLabel, head]
    exact fun eq => letter.1 (Option.some.inj eq).symm
  · intro same
    refine ne_of_head_ne ?_ (PyExc.valueError.inj same)
    rw [head?_labelRange, head]
    exact fun eq => letter.2.1 (Option.some.inj eq).symm
  · intro same
    refine ne_of_head_ne ?_ (PyExc.valueError.inj same)
    rw [head?_backward, head]
    exact fun eq => letter.2.2 (Option.some.inj eq).symm

/-- `assemble` returns exactly on programs whose targets are all defined, ahead and
inside, and otherwise refuses a label.  The sizing loop reaches its fixed point
within its passes, and no other error can occur. -/
theorem assemble_domain (insns : List Insn) (labels : Labels)
    (small : 3 * insns.length ≤ 2 ^ 32) :
    ((∃ bytes, assemble insns labels = .ok bytes) ↔ Resolves insns labels) ∧
    (¬ Resolves insns labels → ∃ msg, assemble insns labels = .error (.valueError msg)) ∧
    (∀ e, assemble insns labels = .error e →
      (∃ t ∈ insns.flatMap targets, e = undefinedLabel t ∨ e = labelRange t ∨ e = backward t) ∧
      e ≠ .valueError "jump resolution did not converge" ∧
      e ≠ .valueError "conditional jump out of range" ∧
      (∀ t, e ≠ jaRange t) ∧ e ≠ .structError ∧ e ≠ .indexError ∧ e ≠ .keyError) ∧
    (∀ e, InRange insns labels → resolveSizes insns labels = .error e → ∃ t, e = backward t) ∧
    (Resolves insns labels → ∃ sizes, resolveSizes insns labels = .ok sizes ∧
      resolvePass labels (positions sizes) 0 insns sizes = .ok (sizes, false)) := by
  have refusals : ∀ e, assemble insns labels = .error e →
      ∃ t ∈ insns.flatMap targets, e = undefinedLabel t ∨ e = labelRange t ∨ e = backward t := by
    intro e failed
    obtain ⟨t, mem, undefined | outside | back | ⟨-, sizes, ok, unfit⟩⟩ := assemble_error failed
    · exact ⟨t, mem, Or.inl undefined⟩
    · exact ⟨t, mem, Or.inr (Or.inl outside)⟩
    · exact ⟨t, mem, Or.inr (Or.inr back)⟩
    · exact absurd (jaFits_of_small ok small) unfit
  have accepts : Resolves insns labels → ∃ bytes, assemble insns labels = .ok bytes := by
    intro resolves
    obtain ⟨sizes, ok⟩ := resolveSizes_total resolves
    exact ⟨_, assemble_of_resolves ok resolves (jaFits_of_small ok small)⟩
  refine ⟨⟨fun ⟨bytes, ok⟩ => (assemble_ok ok).1, accepts⟩, ?_, ?_, ?_, ?_⟩
  · intro unresolved
    cases result : assemble insns labels with
    | ok bytes => exact absurd (assemble_ok result).1 unresolved
    | error e =>
      obtain ⟨t, -, rfl | rfl | rfl⟩ := refusals e result
      · exact ⟨_, rfl⟩
      · exact ⟨_, rfl⟩
      · exact ⟨_, rfl⟩
  · intro e failed
    obtain ⟨t, mem, refusal⟩ := refusals e failed
    refine ⟨⟨t, mem, refusal⟩, refusal_ne refusal (c := 'j') (by decide) (by decide),
      refusal_ne refusal (c := 'c') (by decide) (by decide), fun t' =>
        refusal_ne refusal (c := 'J') (head?_append t' (by decide)) (by decide), ?_⟩
    rcases refusal with rfl | rfl | rfl
    · exact ⟨nofun, nofun, nofun⟩
    · exact ⟨nofun, nofun, nofun⟩
    · exact ⟨nofun, nofun, nofun⟩
  · intro e inRange failed
    obtain ⟨sizes, sized, j, insn, at_j, t, mem, failed⟩ := resolveSizes_error failed
    rcases offset_inRange inRange sized at_j mem with ⟨p, found, ahead, inside⟩ | back
    · rw [(offset_forward sized at_j found ahead inside).2] at failed
      cases failed
    · exact ⟨t, (Except.error.inj (back.symm.trans failed)).symm⟩
  · intro resolves
    obtain ⟨sizes, ok⟩ := resolveSizes_total resolves
    exact ⟨sizes, ok, resolveSizes_fixed ok⟩

/-- A label that names its own instruction is a backward jump. -/
theorem assemble_domain_self_jump :
    3 * [Insn.ja "x"].length ≤ 2 ^ 32 ∧
      ¬ ∃ bytes, assemble [.ja "x"] (Dict.empty.set "x" 0) = .ok bytes := by
  refine ⟨by decide, fun accepted => ?_⟩
  have resolves := (assemble_domain [.ja "x"] (Dict.empty.set "x" 0) (by decide)).1.mp accepted
  obtain ⟨p, found, ahead, -⟩ := resolves.target (i := 0) rfl (List.mem_singleton_self "x")
  rw [Dict.get?_set_self] at found
  have zero := Option.some.inj found
  omega

/-! ## The layout is minimal -/

/-- The settled vector is the least one the trampoline scheme can encode, so the
program is the shortest the scheme allows. -/
theorem resolveSizes_least (insns : List Insn) (labels : Labels) (bytes : Bytes)
    (accepted : assemble insns labels = .ok bytes) :
    ∃ sizes, resolveSizes insns labels = .ok sizes ∧ Fitting insns labels sizes ∧
      (∀ s, Fitting insns labels s → List.Forall₂ (· ≤ ·) sizes s) ∧
      bytes.length = 8 * sizes.sum ∧
      (∀ s, Fitting insns labels s → bytes.length ≤ 8 * s.sum) ∧
      (4096 < bytes.length / 8 → ∀ s, Fitting insns labels s → 4096 < s.sum) := by
  obtain ⟨resolves, sizes, ok, -, rfl⟩ := assemble_ok accepted
  have least := fun s => resolveSizes_le (s := s) resolves ok
  have length : ((layout insns labels sizes).flatMap Record.pack).length = 8 * sizes.sum := by
    rw [length_flatMap_pack, length_layout ok]
  have shortest : ∀ s, Fitting insns labels s → sizes.sum ≤ s.sum := fun s fitting =>
    sum_le_of_forall₂ (least s fitting)
  refine ⟨sizes, ok, resolveSizes_fitting ok, least, length, fun s fitting => ?_,
    fun large s fitting => ?_⟩
  · have := shortest s fitting
    omega
  · have := shortest s fitting
    omega

/-- A jump over 258 instructions, which has to be expanded, and one over a single one, which
has not. -/
def farAndNear : List Insn :=
  [.jump .jgt 100 (some "end") none, .jump .jeq 7 (some "next") none, .load 0] ++
    List.replicate 256 (.load 4) ++ [.ret 1]

def farLabels : Labels := (Dict.empty.set "next" 3).set "end" 259

/-- A hop over a JA of 258, and the rest one record each. -/
def farBytes : Bytes :=
  [0x25, 0, 0, 1, 100, 0, 0, 0, 5, 0, 0, 0, 2, 1, 0, 0, 0x15, 0, 1, 0, 7, 0, 0, 0] ++
    [0x20, 0, 0, 0, 0, 0, 0, 0] ++ (List.replicate 256 [0x20, 0, 0, 0, 4, 0, 0, 0]).flatten ++
    [6, 0, 0, 0, 1, 0, 0, 0]

theorem far_assembled : assemble farAndNear farLabels = .ok farBytes := by decide +kernel

theorem far_sizes : resolveSizes farAndNear farLabels = .ok (2 :: List.replicate 259 1) := by
  decide +kernel

theorem resolveSizes_least_far :
    assemble farAndNear farLabels = .ok farBytes ∧
    resolveSizes farAndNear farLabels = .ok (2 :: List.replicate 259 1) ∧
      Fitting farAndNear farLabels (2 :: List.replicate 259 1) ∧
      (∀ s, Fitting farAndNear farLabels s →
        List.Forall₂ (· ≤ ·) (2 :: List.replicate 259 1) s) ∧
      ∀ s, Fitting farAndNear farLabels s → farBytes.length ≤ 8 * s.sum := by
  obtain ⟨sizes, ok, fitting, least, -, shortest, -⟩ :=
    resolveSizes_least farAndNear farLabels farBytes far_assembled
  obtain rfl : 2 :: List.replicate 259 1 = sizes := Except.ok.inj (far_sizes.symm.trans ok)
  exact ⟨far_assembled, ok, fitting, least, shortest⟩

end Seccompy.Bpf
