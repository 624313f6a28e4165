import Seccompy.Bpf.Admissible
import Seccompy.Filter.Running

/-!
# The compiled program

What `_compile` hands to the assembler stays inside, ends with a `Ret` and holds
only instructions the kernel knows, so its bytes are admissible.  The longest jump
is the one of the architecture check to the last instruction; its JA has a 32-bit
offset, and that alone bounds the size of a program: `compile_ok` and
`compile_error` split at 2 ^ 32 + 3 records.
-/

namespace Seccompy

open Lib Bpf

/-! ## Every instruction is one the kernel knows -/

/-- The instructions `_compile` emits: no `Ja`, and none the kernel would refuse. -/
def Emitted (insn : Insn) : Prop := insn.Admitted ∧ ∀ t, insn ≠ .ja t

def Code.Emitted (c : Code) : Prop := ∀ insn ∈ c.insns, Seccompy.Emitted insn

theorem emitted_load {k : U32} (aligned : (Insn.load k).Admitted) : Emitted (.load k) :=
  ⟨aligned, fun _ is => by cases is⟩

theorem emitted_and (k : U32) : Emitted (.and k) := ⟨trivial, fun _ is => by cases is⟩

theorem emitted_ret (k : U32) : Emitted (.ret k) := ⟨trivial, fun _ is => by cases is⟩

theorem emitted_jump {op : JumpOp} (compares : op ≠ .jset) (k : U32) (jt jf : Option String) :
    Emitted (.jump op k jt jf) := ⟨compares, fun _ is => by cases is⟩

theorem Code.Emitted.emit {c : Code} (emitted : c.Emitted) {more : List Insn}
    (added : ∀ insn ∈ more, Seccompy.Emitted insn) : (c.emit more).Emitted := by
  intro insn mem
  rcases List.mem_append.mp mem with old | new
  · exact emitted insn old
  · exact added insn new

theorem Code.Emitted.emit_ret {c : Code} (emitted : c.Emitted) (k : U32) :
    (c.emit [.ret k]).Emitted := by
  apply emitted.emit
  intro insn mem
  rw [List.mem_singleton.mp mem]
  exact emitted_ret k

theorem condInsns_emitted (cond : ArgCmp) (fail passed : String) :
    ∀ insn ∈ condInsns cond fail passed, Emitted insn := by
  intro insn mem
  have bound := cond.index.isLt
  cases condInsns_made cond fail passed insn mem with
  | loadLo =>
    apply emitted_load
    simp only [Insn.Admitted, offArg0, BitVec.toNat_ofNat]
    omega
  | loadHi =>
    apply emitted_load
    simp only [Insn.Admitted, offArg0, BitVec.toNat_ofNat]
    omega
  | mask m => exact emitted_and m
  | jump compares first second => exact emitted_jump compares ..

theorem emitConds_emitted {nr : U32} {i : Nat} (j : Nat) (conds : List ArgCmp) {c : Code}
    (emitted : c.Emitted) : (emitConds nr i j conds c).Emitted := by
  induction conds generalizing j c with
  | nil => exact emitted
  | cons cond conds ih => exact ih (j + 1) (emitted.emit (condInsns_emitted cond _ _))

theorem emitRules_emitted {nr : U32} (i : Nat) (rules : List Rule) {c : Code}
    (emitted : c.Emitted) : (emitRules nr i rules c).1.Emitted := by
  induction rules generalizing i c with
  | nil => exact emitted
  | cons rule rules ih =>
    rw [emitRules]
    split
    · exact emitted.emit_ret _
    · exact ih (i + 1) ((emitConds_emitted 0 rule.args emitted).emit_ret _)

theorem emitBlocks_emitted {default : U32} (entries : List (U32 × List Rule)) {c : Code}
    (emitted : c.Emitted) : (emitBlocks default entries c).Emitted := by
  induction entries generalizing c with
  | nil => exact emitted
  | cons entry entries ih =>
    obtain ⟨nr, rules⟩ := entry
    apply ih
    have body : (emitRules nr 0 rules (c.mark (Label.block nr).text)).1.Emitted :=
      emitRules_emitted 0 rules emitted
    simp only [emitBlock]
    split
    · exact body.emit_ret _
    · exact body

theorem header_emitted (audit default : U32) (keys : List U32) :
    (header audit default keys).Emitted := by
  intro insn mem
  simp only [header, List.mem_append, List.mem_cons, List.not_mem_nil, or_false, List.mem_map]
    at mem
  rcases mem with ((rfl | rfl | rfl) | ⟨nr, -, rfl⟩) | rfl
  · exact emitted_load ⟨by decide, by decide⟩
  · exact emitted_jump (by decide) ..
  · exact emitted_load ⟨by decide, by decide⟩
  · exact emitted_jump (by decide) ..
  · exact emitted_ret default

/-- A JA of an expanded jump stands after the hop. -/
theorem lt_jaSites {start size : Nat} {insn : Insn} (other : ∀ t, insn ≠ .ja t)
    {site : Nat × String} (mem : site ∈ jaSites start size insn) :
    start < site.1 ∧ site.2 ∈ targets insn := by
  cases insn with
  | jump op k jt jf =>
    simp only [jaSites] at mem
    split at mem
    · cases mem
    · split at mem
      · cases mem
      · cases List.mem_singleton.mp mem
        exact ⟨Nat.lt_succ_self _, by simp [targets]⟩
      · cases List.mem_singleton.mp mem
        exact ⟨Nat.lt_succ_self _, by simp [targets]⟩
      · rcases List.mem_cons.mp mem with rfl | rest
        · exact ⟨Nat.lt_succ_self _, by simp [targets]⟩
        · cases List.mem_singleton.mp rest
          exact ⟨by simp, by simp [targets]⟩
  | ja t => exact absurd rfl (other t)
  | load k => cases mem
  | and k => cases mem
  | ret k => cases mem

section Whole

variable (f : Filter) (audit : U32)

theorem Filter.code_emitted : (f.code audit).Emitted :=
  Code.Emitted.emit_ret (emitBlocks_emitted _ (header_emitted audit f.default f.rules.keys)) _

theorem Filter.code_stays : StaysInside (f.code audit).insns (f.code audit).labels :=
  fun _ _ at_k _ mem => f.code_forward audit at_k mem

theorem Filter.code_last :
    (f.code audit).insns.getLast? = some (.ret Action.killProcess.code) := by
  simp [Filter.code, Code.emit]

/-- The records the program needs. -/
def Filter.recordCount : Nat :=
  match resolveSizes (f.code audit).insns (f.code audit).labels with
  | .ok sizes => sizes.sum
  | .error _ => 0

theorem Filter.code_sizes :
    ∃ sizes, resolveSizes (f.code audit).insns (f.code audit).labels = .ok sizes ∧
      f.recordCount audit = sizes.sum := by
  obtain ⟨sizes, ok⟩ := resolveSizes_total (f.code_stays audit).resolves
  exact ⟨sizes, ok, by simp only [Filter.recordCount, ok]⟩

/-- The architecture check stands second, in front of everything it may skip. -/
theorem Filter.code_front {sizes : List Nat}
    (ok : resolveSizes (f.code audit).insns (f.code audit).labels = .ok sizes) :
    (f.code audit).insns[0]? = some (.load (BitVec.ofNat 32 offArch)) ∧
      (f.code audit).insns[1]? = some (.jump .jeq audit none (some Label.kill.text)) ∧
      offsetOf sizes 1 = 1 := by
  have first : (f.code audit).insns[0]? = some (.load (BitVec.ofNat 32 offArch)) :=
    f.header_at audit rfl
  refine ⟨first, f.header_at audit rfl, ?_⟩
  obtain ⟨size, at_size, one | ⟨jump, -⟩⟩ := (resolveSizes_sized ok).at first
  · rw [offsetOf_succ at_size, offsetOf_zero, one]
  · cases jump

/-- The kill label is the last instruction, one record before the end. -/
theorem Filter.offsetOf_kill {sizes : List Nat}
    (ok : resolveSizes (f.code audit).insns (f.code audit).labels = .ok sizes) :
    offsetOf sizes (labelIndex (f.code audit).labels Label.kill.text) + 1 = sizes.sum := by
  have total := (offsetOf_last ok (f.code_last audit)).2.2
  have place : (f.code audit).insns.length - 1 = (f.body audit).insns.length := by
    simp [Filter.code, Filter.body, Code.emit, Code.mark]
  rw [labelIndex_eq (f.kill_halts audit id).1, ← place]
  exact total

/-- All JAs fit when the longest does, the one of the architecture check. -/
theorem Filter.jaFits_iff {sizes : List Nat}
    (ok : resolveSizes (f.code audit).insns (f.code audit).labels = .ok sizes) :
    JaFits (f.code audit).insns (f.code audit).labels sizes ↔ sizes.sum ≤ 2 ^ 32 + 3 := by
  have fitting := resolveSizes_fitting ok
  obtain ⟨first, second, one⟩ := f.code_front audit ok
  have last := f.offsetOf_kill audit ok
  constructor
  · intro fits
    obtain ⟨size, at_size, -⟩ := fitting.sized.at second
    by_cases short : size = 1
    · subst short
      have near : shortOffset (f.code audit).labels sizes 1 (some Label.kill.text) ≤ 255 :=
        shortOffset_le fitting.sized second ((f.code_stays audit).resolves.forwardAt second)
          (fitting.short 1 _ second rfl at_size) fun t same => by simp [targets, same]
      simp only [shortOffset] at near
      omega
    · have small : offsetOf sizes (labelIndex (f.code audit).labels Label.kill.text) - 2 - 1 ≤
          0xFFFFFFFF :=
        fits 1 _ size second at_size (2, Label.kill.text) (by simp [jaSites, short, one])
      omega
  · intro small i insn size at_i at_size site mem
    have emitted := f.code_emitted audit insn (List.mem_of_getElem? at_i)
    have after := lt_jaSites emitted.2 mem
    obtain ⟨p, found, ahead, inside⟩ := f.code_stays audit i insn at_i site.2 after.2
    have stop := offsetOf_lt_sum ok (f.code_last audit) inside
    have start : 1 ≤ i := by
      by_contra zero
      have same : i = 0 := by omega
      subst same
      rw [first] at at_i
      cases at_i
      cases mem
    have past : offsetOf sizes 1 ≤ offsetOf sizes i := offsetOf_mono start
    rw [labelIndex_eq found]
    omega

/-- A program of at most 2 ^ 32 + 3 records is returned, and is admissible. -/
theorem Filter.compile_ok {machine : String} (known : auditArch machine = .ok audit)
    (small : f.recordCount audit ≤ 2 ^ 32 + 3) :
    ∃ bytes, f.compile machine = .ok bytes ∧ bytes.length = 8 * f.recordCount audit ∧
      Admissible bytes := by
  obtain ⟨sizes, ok, count⟩ := f.code_sizes audit
  have fits := (f.jaFits_iff audit ok).mpr (count ▸ small)
  refine ⟨_, ?_, ?_, layout_admissible ok (f.code_stays audit) (f.code_last audit)
    (fun insn mem => (f.code_emitted audit insn mem).1) fits⟩
  · rw [Filter.compile, known, ok_bind]
    exact assemble_of_resolves ok (f.code_stays audit).resolves fits
  · rw [length_flatMap_pack, length_layout ok, count]

/-- A longer one is refused: the JA of the architecture check does not fit. -/
theorem Filter.compile_error {machine : String} (known : auditArch machine = .ok audit)
    (large : 2 ^ 32 + 3 < f.recordCount audit) :
    ∃ msg, f.compile machine = .error (.valueError msg) := by
  obtain ⟨sizes, ok, count⟩ := f.code_sizes audit
  rw [Filter.compile, known, ok_bind]
  cases result : assemble (f.code audit).insns (f.code audit).labels with
  | ok bytes =>
    obtain ⟨-, sizes', ok', fits, -⟩ := assemble_ok result
    cases ok.symm.trans ok'
    have := (f.jaFits_iff audit ok).mp fits
    omega
  | error e =>
    obtain ⟨t, -, rfl | rfl | rfl | ⟨rfl, -⟩⟩ := assemble_error result
    · exact ⟨_, rfl⟩
    · exact ⟨_, rfl⟩
    · exact ⟨_, rfl⟩
    · exact ⟨_, rfl⟩

/-- The bytes of a compiled filter decide as its rules do. -/
theorem Filter.compile_halts {machine : String} (known : auditArch machine = .ok audit)
    {bytes : Bytes} (compiled : f.compile machine = .ok bytes) (d : SeccompData) (acc : U32) :
    (packed bytes d.load).Halts ⟨0, acc⟩
      (.ret (if d.arch = audit then decideRules f.default (f.rules.bucket d.nr) d.args
        else Action.killProcess.code)) := by
  rw [Filter.compile, known, ok_bind] at compiled
  exact packed_ret_of_symbolic compiled (f.code_halts audit d acc)

end Whole

/-! ## The `program` property -/

/-- What a read of `program` gives. -/
def Filter.current (machine : String) (f : Filter) : Except PyExc Bytes :=
  match f.cached with
  | some bytes => .ok bytes
  | none => f.compile machine

/-- A read of `program` leaves nothing behind but the cache. -/
theorem Filter.call_program (machine : String) (f : Filter) :
    (Filter.program machine).call f =
      match f.current machine with
      | .error e => (.error e, f)
      | .ok bytes => (.ok bytes, { f with cached := some bytes }) := by
  obtain ⟨default, flags, rules, cached, loaded⟩ := f
  unfold Filter.program Filter.current
  rw [Py.call_bind_ok (Py.call_read _)]
  cases cached with
  | some bytes => rfl
  | none =>
    simp only [Py.call_bind, Py.call_read, Py.call_lift, Py.call_update, Py.call_pure]
    cases Filter.compile machine ⟨default, flags, rules, none, loaded⟩ with
    | error e => rfl
    | ok bytes => rfl

theorem Filter.program_read (machine : String) (f : Filter) :
    ((Filter.program machine).call f).1 = f.current machine := by
  rw [Filter.call_program]
  cases f.current machine with
  | error e => rfl
  | ok bytes => rfl

end Seccompy
