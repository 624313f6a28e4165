import Seccompy.Bpf.Resolve

/-!
# Emitted records

The packed program seen as a list of `struct sock_filter` records.  `recordsOf` is
what one instruction becomes in a given layout: one record, or the hop and
trampolines of an expanded jump.  `emit_forward` says that `_emit` packs exactly
those records for a forward instruction whose JA offsets fit 32 bits, and
`fetch_flatMap_pack` reads the records back from the bytes.
-/

namespace Seccompy.Bpf

open Lib

/-- `struct sock_filter`. -/
structure Record where
  code : BitVec 16
  jt : Byte
  jf : Byte
  k : U32
  deriving DecidableEq, Repr

def Record.pack (r : Record) : Bytes :=
  toLE 2 r.code.toNat ++ toLE 1 r.jt.toNat ++ toLE 1 r.jf.toNat ++ toLE 4 r.k.toNat

/-- `struct.unpack_from("<HBBI", prog, 8 * pc)`; `none` past the end. -/
def fetch (prog : Bytes) (pc : Nat) : Option Record :=
  let raw := (prog.drop (8 * pc)).take 8
  if raw.length = 8 then
    some ⟨BitVec.ofNat 16 (ofLE (raw.take 2)), BitVec.ofNat 8 (ofLE ((raw.drop 2).take 1)),
      BitVec.ofNat 8 (ofLE ((raw.drop 3).take 1)), BitVec.ofNat 32 (ofLE (raw.drop 4))⟩
  else none

/-! ## Packing and fetching -/

@[simp] theorem Record.length_pack (r : Record) : r.pack.length = 8 := by
  simp [Record.pack]

theorem length_flatMap_pack (records : List Record) :
    (records.flatMap Record.pack).length = 8 * records.length := by
  induction records with
  | nil => rfl
  | cons r records ih =>
    rw [List.flatMap_cons, List.length_append, ih, Record.length_pack, List.length_cons]
    omega

theorem ofNat_ofLE_toLE {w n : Nat} (width : 256 ^ n = 2 ^ w) (v : BitVec w) :
    BitVec.ofNat w (ofLE (toLE n v.toNat)) = v := by
  rw [ofLE_toLE_of_lt (by rw [width]; exact v.isLt)]
  simp

theorem fetch_pack_append (r : Record) (rest : Bytes) : fetch (r.pack ++ rest) 0 = some r := by
  have take8 : (r.pack ++ rest).take 8 = r.pack := by
    rw [← r.length_pack, List.take_left]
  have code : r.pack.take 2 = toLE 2 r.code.toNat := by simp [Record.pack]
  have jt : (r.pack.drop 2).take 1 = toLE 1 r.jt.toNat := by simp [Record.pack]
  have jf : (r.pack.drop 3).take 1 = toLE 1 r.jf.toNat := by
    have : r.pack = (toLE 2 r.code.toNat ++ toLE 1 r.jt.toNat) ++
        (toLE 1 r.jf.toNat ++ toLE 4 r.k.toNat) := by simp [Record.pack]
    rw [this, List.drop_left' (by simp), List.take_left' (by simp)]
  have k : r.pack.drop 4 = toLE 4 r.k.toNat := by
    rw [Record.pack, List.drop_left' (by simp)]
  simp only [fetch, Nat.mul_zero, List.drop_zero, take8, r.length_pack, if_true, code, jt, jf, k]
  rw [ofNat_ofLE_toLE rfl, ofNat_ofLE_toLE rfl, ofNat_ofLE_toLE rfl, ofNat_ofLE_toLE rfl]

/-- Fetching record `p` of a packed program gives the record packed there. -/
theorem fetch_flatMap_pack (records : List Record) (p : Nat) :
    fetch (records.flatMap Record.pack) p = records[p]? := by
  induction records generalizing p with
  | nil => simp [fetch]
  | cons r records ih =>
    cases p with
    | zero => exact fetch_pack_append r _
    | succ p =>
      rw [List.getElem?_cons_succ, ← ih p]
      have skip : ((r :: records).flatMap Record.pack).drop (8 * (p + 1)) =
          (records.flatMap Record.pack).drop (8 * p) := by
        rw [List.flatMap_cons, Nat.mul_succ, Nat.add_comm, ← List.drop_drop,
          List.drop_left' r.length_pack]
      simp only [fetch, skip]

theorem structPack_ok {code jt jf k : Nat} (hcode : code < 2 ^ 16) (hjt : jt < 2 ^ 8)
    (hjf : jf < 2 ^ 8) (hk : k < 2 ^ 32) :
    structPack code jt jf k =
      .ok (Record.pack ⟨BitVec.ofNat 16 code, BitVec.ofNat 8 jt, BitVec.ofNat 8 jf,
        BitVec.ofNat 32 k⟩) := by
  rw [structPack, if_pos (by omega)]
  simp only [Record.pack, BitVec.toNat_ofNat, Nat.mod_eq_of_lt hcode, Nat.mod_eq_of_lt hjt,
    Nat.mod_eq_of_lt hjf, Nat.mod_eq_of_lt hk, Int.toNat_natCast]

/-! ## The records of one instruction -/

/-- The instruction index a label stands for. -/
def labelIndex (labels : Labels) (target : String) : Nat := ((labels.get? target).getD 0).toNat

theorem labelIndex_eq {labels : Labels} {t : String} {p : Nat}
    (found : labels.get? t = some (p : Int)) : labelIndex labels t = p := by
  simp [labelIndex, found]

/-- A JA from record `pc` to the first record of a label's instruction. -/
def jaRecord (labels : Labels) (sizes : List Nat) (pc : Nat) (target : String) : Record :=
  ⟨BitVec.ofNat 16 bpfJa, 0, 0,
    BitVec.ofNat 32 (offsetOf sizes (labelIndex labels target) - pc - 1)⟩

/-- The short offset of an optional label; falling through is offset 0. -/
def shortOffset (labels : Labels) (sizes : List Nat) (i : Nat) : Option String → Nat
  | none => 0
  | some t => offsetOf sizes (labelIndex labels t) - offsetOf sizes i - 1

def recordsOf (labels : Labels) (sizes : List Nat) (i : Nat) (size : Nat) : Insn → List Record
  | .load k => [⟨BitVec.ofNat 16 bpfLdAbsW, 0, 0, k⟩]
  | .and k => [⟨BitVec.ofNat 16 bpfAluAndK, 0, 0, k⟩]
  | .ret k => [⟨BitVec.ofNat 16 bpfRetK, 0, 0, k⟩]
  | .ja t => [jaRecord labels sizes (offsetOf sizes i) t]
  | .jump op k jt jf =>
    let start := offsetOf sizes i
    let code := BitVec.ofNat 16 op.code
    if size = 1 then
      [⟨code, BitVec.ofNat 8 (shortOffset labels sizes i jt),
        BitVec.ofNat 8 (shortOffset labels sizes i jf), k⟩]
    else
      match jt, jf with
      | none, none => [⟨code, 1, 0, k⟩]
      | none, some f => [⟨code, 1, 0, k⟩, jaRecord labels sizes (start + 1) f]
      | some t, none => [⟨code, 0, 1, k⟩, jaRecord labels sizes (start + 1) t]
      | some t, some f => [⟨code, 0, 1, k⟩, jaRecord labels sizes (start + 1) t,
          jaRecord labels sizes (start + 2) f]

/-- The JA records of an instruction: their position and target. -/
def jaSites (start size : Nat) : Insn → List (Nat × String)
  | .ja t => [(start, t)]
  | .jump _ _ jt jf =>
    if size = 1 then []
    else
      match jt, jf with
      | none, none => []
      | none, some f => [(start + 1, f)]
      | some t, none => [(start + 1, t)]
      | some t, some f => [(start + 1, t), (start + 2, f)]
  | _ => []

/-- The JA offsets of the instruction at `i` fit in 32 bits. -/
def JaFitsAt (labels : Labels) (sizes : List Nat) (i size : Nat) (insn : Insn) : Prop :=
  ∀ site ∈ jaSites (offsetOf sizes i) size insn,
    offsetOf sizes (labelIndex labels site.2) - site.1 - 1 ≤ 0xFFFFFFFF

instance (labels : Labels) (sizes : List Nat) (i size : Nat) (insn : Insn) :
    Decidable (JaFitsAt labels sizes i size insn) :=
  inferInstanceAs (Decidable (∀ site ∈ _, _))

/-- All targets of the instruction at `i` lie strictly ahead, inside the program. -/
def ForwardAt (count : Nat) (labels : Labels) (i : Nat) (insn : Insn) : Prop :=
  ∀ t ∈ targets insn, ∃ p : Nat, labels.get? t = some (p : Int) ∧ i < p ∧ p ≤ count

theorem Resolves.forwardAt {insns : List Insn} {labels : Labels}
    (resolves : Resolves insns labels) {i : Nat} {insn : Insn}
    (at_i : insns[i]? = some insn) : ForwardAt insns.length labels i insn :=
  fun _ mem => resolves.target at_i mem

/-- The error of a JA whose offset needs more than 32 bits. -/
def jaRange (target : String) : PyExc := .valueError s!"JA target out of range: {target}"

section Emit

variable {labels : Labels} {insns : List Insn} {sizes : List Nat} {i size : Nat} {insn : Insn}

theorem offset_of_forward (target : Option String) (sized : Sized insns sizes)
    (at_i : insns[i]? = some insn)
    (forward : ∀ t, target = some t →
      ∃ p : Nat, labels.get? t = some (p : Int) ∧ i < p ∧ p ≤ insns.length) :
    offset target labels (positions sizes) i =
      .ok (target.map fun _ => (shortOffset labels sizes i target : Int)) := by
  cases target with
  | none => rfl
  | some t =>
    obtain ⟨p, found, ahead, inside⟩ := forward t rfl
    obtain ⟨nonneg, value⟩ := offset_forward sized at_i found ahead inside
    have same : gap sizes i p = (shortOffset labels sizes i (some t) : Int) := by
      simp only [shortOffset, labelIndex_eq found]
      unfold gap at nonneg ⊢
      omega
    rw [value, same]
    rfl

/-- A trampoline JA, placed inside the expanded instruction before its target. -/
theorem jaBytes_eq {t : String} {p : Nat} (pc : Nat) (found : labels.get? t = some (p : Int))
    (inside : p ≤ sizes.length) (ahead : pc < offsetOf sizes p) :
    jaBytes (some t) labels (positions sizes) pc =
      if offsetOf sizes (labelIndex labels t) - pc - 1 ≤ 0xFFFFFFFF then
        .ok (jaRecord labels sizes pc t).pack
      else .error (jaRange t) := by
  simp only [jaBytes, dictGet_of_get? found, ok_bind, pyGet_positions inside]
  rw [labelIndex_eq found]
  split
  · next beyond =>
    rw [if_neg (by omega)]
    rfl
  · next within =>
    have exact_off : ((offsetOf sizes p : Nat) : Int) - (pc : Int) - 1 =
        ((offsetOf sizes p - pc - 1 : Nat) : Int) := by omega
    rw [if_pos (by omega), exact_off]
    simp only [jaRecord, labelIndex_eq found]
    exact structPack_ok (by decide) (by decide) (by decide) (by omega)

theorem JumpOp.code_lt (op : JumpOp) : op.code < 2 ^ 16 := by
  cases op <;> decide

theorem structPack_word {code : Nat} (jt jf : Nat) (k : U32) (hcode : code < 2 ^ 16) (hjt : jt < 2 ^ 8)
    (hjf : jf < 2 ^ 8) :
    structPack code jt jf k.toNat =
      .ok (Record.pack ⟨BitVec.ofNat 16 code, BitVec.ofNat 8 jt, BitVec.ofNat 8 jf, k⟩) := by
  rw [structPack_ok hcode hjt hjf k.isLt]
  simp only [BitVec.ofNat_toNat, BitVec.setWidth_eq]

theorem shortOffset_le (sized : Sized insns sizes) (at_i : insns[i]? = some insn)
    (forward : ForwardAt insns.length labels i insn)
    (short : ShortAt labels (positions sizes) i insn) {target : Option String}
    (mem : ∀ t, target = some t → t ∈ targets insn) :
    shortOffset labels sizes i target ≤ 255 := by
  cases target with
  | none => exact Nat.zero_le _
  | some t =>
    obtain ⟨off, found, within⟩ := short t (mem t rfl)
    rw [offset_of_forward _ sized at_i fun t' same => forward t' (mem t' same)] at found
    cases found
    simp only [maxCondJump] at within
    omega

theorem any_far_eq_false {target : Option String} {d : Nat} (within : d ≤ 255) :
    (target.map fun _ => (d : Int)).any (maxCondJump < ·) = false := by
  have : ¬ (255 : Int) < (d : Int) := by omega
  cases target <;> simp [maxCondJump, this]

theorem getD_shortOffset (target : Option String) :
    (target.map fun _ => (shortOffset labels sizes i target : Int)).getD 0 =
      (shortOffset labels sizes i target : Int) := by
  cases target <;> rfl

/-- The expanded form.  The trampolines stand inside the instruction, before any
target, so each JA offset is a natural number; the first too large is refused. -/
theorem emitExpanded_forward {op : JumpOp} {k : U32} {jt jf : Option String}
    (sized : Sized insns sizes) (at_i : insns[i]? = some (.jump op k jt jf))
    (at_size : sizes[i]? = some size) (long : size ≠ 1)
    (targeted : targets (.jump op k jt jf) ≠ [])
    (forward : ForwardAt insns.length labels i (.jump op k jt jf)) :
    (JaFitsAt labels sizes i size (.jump op k jt jf) ∧
      emitExpanded op k jt jf labels (positions sizes) i =
        .ok ((recordsOf labels sizes i size (.jump op k jt jf)).flatMap Record.pack)) ∨
    (¬ JaFitsAt labels sizes i size (.jump op k jt jf) ∧
      ∃ t ∈ targets (.jump op k jt jf),
        emitExpanded op k jt jf labels (positions sizes) i = .error (jaRange t)) := by
  have length := sized.length_eq
  have bound : i < insns.length := (List.getElem?_eq_some_iff.mp at_i).1
  have here : pyGet (positions sizes) (i : Int) = .ok (offsetOf sizes i) :=
    pyGet_positions (by omega)
  have grown : size = expandedSize jt jf := by
    obtain ⟨size', at_size', one | ⟨-, expanded⟩⟩ := sized.at at_i
    · rw [at_size] at at_size'
      cases at_size'
      exact absurd one long
    · rw [at_size] at at_size'
      cases at_size'
      exact expanded
  have past : ∀ t, t ∈ targets (.jump op k jt jf) → ∃ p : Nat,
      labels.get? t = some (p : Int) ∧ p ≤ sizes.length ∧
        offsetOf sizes i + size ≤ offsetOf sizes p := by
    intro t mem
    obtain ⟨p, found, ahead, inside⟩ := forward t mem
    exact ⟨p, found, by omega, offsetOf_add_le at_size ahead⟩
  have code := op.code_lt
  cases jt with
  | none =>
    cases jf with
    | none => exact absurd rfl targeted
    | some f =>
      obtain ⟨p, found, inside, ahead⟩ := past f (by simp [targets])
      have two : size = 2 := grown
      have hop : structPack op.code 1 0 k.toNat =
          .ok (Record.pack ⟨BitVec.ofNat 16 op.code, 1, 0, k⟩) :=
        structPack_word 1 0 k code (by decide) (by decide)
      simp only [emitExpanded, here, ok_bind, recordsOf, if_neg long, hop,
        jaBytes_eq (offsetOf sizes i + 1) found inside (by omega), JaFitsAt, jaSites,
        List.forall_mem_singleton]
      split
      · next fits => exact Or.inl ⟨fits, by simp⟩
      · next unfit => exact Or.inr ⟨unfit, f, by simp [targets], by simp⟩
  | some t =>
    obtain ⟨p, found, inside, ahead⟩ := past t (by simp [targets])
    have hop : structPack op.code 0 1 k.toNat =
        .ok (Record.pack ⟨BitVec.ofNat 16 op.code, 0, 1, k⟩) :=
      structPack_word 0 1 k code (by decide) (by decide)
    cases jf with
    | none =>
      have two : size = 2 := grown
      simp only [emitExpanded, here, ok_bind, recordsOf, if_neg long, hop,
        jaBytes_eq (offsetOf sizes i + 1) found inside (by omega), JaFitsAt, jaSites,
        List.forall_mem_singleton]
      split
      · next fits => exact Or.inl ⟨fits, by simp⟩
      · next unfit => exact Or.inr ⟨unfit, t, by simp [targets], by simp⟩
    | some f =>
      obtain ⟨q, found', inside', ahead'⟩ := past f (by simp [targets])
      have three : size = 3 := grown
      simp only [emitExpanded, here, ok_bind, recordsOf, if_neg long, hop,
        jaBytes_eq (offsetOf sizes i + 1) found inside (by omega),
        jaBytes_eq (offsetOf sizes i + 2) found' inside' (by omega), JaFitsAt, jaSites,
        List.forall_mem_cons, List.not_mem_nil, false_imp_iff, implies_true, and_true]
      split
      · next fits =>
        rw [ok_bind]
        split
        · next fits' => exact Or.inl ⟨⟨fits, fits'⟩, by simp⟩
        · next unfit => exact Or.inr ⟨fun both => unfit both.2, f, by simp [targets], by simp⟩
      · next unfit => exact Or.inr ⟨fun both => unfit both.1, t, by simp [targets], by simp⟩

/-- `_emit` on a forward instruction packs its records, or refuses a JA that does not fit. -/
theorem emit_forward (sized : Sized insns sizes) (at_i : insns[i]? = some insn)
    (at_size : sizes[i]? = some size) (forward : ForwardAt insns.length labels i insn)
    (short : insn.isJump = true → size = 1 → ShortAt labels (positions sizes) i insn)
    (targeted : size ≠ 1 → targets insn ≠ []) :
    (JaFitsAt labels sizes i size insn ∧ emit insn labels (positions sizes) i size =
      .ok ((recordsOf labels sizes i size insn).flatMap Record.pack)) ∨
    (¬ JaFitsAt labels sizes i size insn ∧
      ∃ t ∈ targets insn, emit insn labels (positions sizes) i size = .error (jaRange t)) := by
  cases insn with
  | load k =>
    refine Or.inl ⟨fun _ mem => absurd mem List.not_mem_nil, ?_⟩
    simp only [emit, recordsOf, List.flatMap_singleton]
    exact structPack_word 0 0 k (by decide) (by decide) (by decide)
  | and k =>
    refine Or.inl ⟨fun _ mem => absurd mem List.not_mem_nil, ?_⟩
    simp only [emit, recordsOf, List.flatMap_singleton]
    exact structPack_word 0 0 k (by decide) (by decide) (by decide)
  | ret k =>
    refine Or.inl ⟨fun _ mem => absurd mem List.not_mem_nil, ?_⟩
    simp only [emit, recordsOf, List.flatMap_singleton]
    exact structPack_word 0 0 k (by decide) (by decide) (by decide)
  | ja t =>
    have off := offset_of_forward (some t) sized at_i fun t' same => by
      cases same
      exact forward t (List.mem_singleton_self t)
    have fits_iff : JaFitsAt labels sizes i size (.ja t) ↔
        shortOffset labels sizes i (some t) ≤ 0xFFFFFFFF := by
      simp only [JaFitsAt, jaSites, List.forall_mem_singleton]
      rfl
    rw [fits_iff]
    simp only [emit, off, Option.map_some, ok_bind, recordsOf, List.flatMap_singleton]
    by_cases fits : shortOffset labels sizes i (some t) ≤ 0xFFFFFFFF
    · rw [if_neg (by omega)]
      exact Or.inl ⟨fits, structPack_ok (by decide) (by decide) (by decide) (by omega)⟩
    · rw [if_pos (by omega)]
      exact Or.inr ⟨fits, t, List.mem_singleton_self t, rfl⟩
  | jump op k jt jf =>
    have memT : ∀ t, jt = some t → t ∈ targets (.jump op k jt jf) := fun t same =>
      mem_targets_jump.mpr (by simp [same])
    have memF : ∀ t, jf = some t → t ∈ targets (.jump op k jt jf) := fun t same =>
      mem_targets_jump.mpr (by simp [same])
    have offT := offset_of_forward _ sized at_i fun t same => forward t (memT t same)
    have offF := offset_of_forward _ sized at_i fun t same => forward t (memF t same)
    simp only [emit, offT, offF, ok_bind]
    by_cases one : size = 1
    · have within := short rfl one
      have leT := shortOffset_le sized at_i forward within memT
      have leF := shortOffset_le sized at_i forward within memF
      rw [if_pos one, any_far_eq_false leT, any_far_eq_false leF, getD_shortOffset,
        getD_shortOffset]
      simp only [Bool.or_self, Bool.false_eq_true, if_false, recordsOf, if_pos one,
        List.flatMap_singleton]
      refine Or.inl ⟨fun site mem => ?_, structPack_word _ _ k op.code_lt (by omega) (by omega)⟩
      simp only [jaSites, if_pos one] at mem
      cases mem
    · rw [if_neg one]
      exact emitExpanded_forward sized at_i at_size one (targeted one) forward

/-- `_emit` reads the offset of every target, so a failing one fails the instruction. -/
theorem emit_offset_error (size : Nat) {pos : List Nat} {t : String} {e : PyExc} (mem : t ∈ targets insn)
    (failed : offset (some t) labels pos i = .error e) :
    ∃ t' ∈ targets insn, ∃ e', offset (some t') labels pos i = .error e' ∧
      emit insn labels pos i size = .error e' := by
  cases insn with
  | load k => cases mem
  | and k => cases mem
  | ret k => cases mem
  | ja t' =>
    cases List.mem_singleton.mp mem
    exact ⟨t, mem, e, failed, by simp only [emit, failed, error_bind]⟩
  | jump op k jt jf =>
    have memT : ∀ t, jt = some t → t ∈ targets (.jump op k jt jf) := fun t same =>
      mem_targets_jump.mpr (by simp [same])
    simp only [emit]
    cases first : offset jt labels pos i with
    | error e' =>
      cases jt with
      | none => cases first
      | some t' => exact ⟨t', memT t' rfl, e', first, rfl⟩
    | ok off =>
      rcases List.mem_cons.mp (mem_targets_jump.mp mem) with same | second
      · rw [← same, failed] at first
        cases first
      · have same := List.mem_singleton.mp second
        exact ⟨t, mem, e, failed, by rw [← same, failed]; rfl⟩

end Emit

end Seccompy.Bpf
