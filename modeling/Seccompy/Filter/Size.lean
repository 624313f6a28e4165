import Seccompy.Filter.Policy

/-!
# How long a program gets

The kernel takes programs of at most 4096 instructions, and a conditional jump may take up
to three.  `Filter.cost` bounds the length of a program before it is compiled, from the
rules alone; a filter within it is never refused for its size (`cheap_filter_fits`).  Rules
by name and without conditions stay within it, however many there are
(`named_policy_fits`).
-/

namespace Seccompy

open Lib Bpf

/-! ## The cost of rules -/

/-- The most records a condition can take. -/
def CmpOp.cost : CmpOp → Nat
  | .eq | .ne => 6
  | .lt | .le | .maskedEq => 8
  | .gt | .ge => 9

/-- The rules of one number, up to an unconditional one; else the default ends them. -/
def rulesCost : List Rule → Nat
  | [] => 1
  | rule :: rules =>
    if rule.args = [] then 1
    else (rule.args.map (·.op.cost)).sum + 1 + rulesCost rules

/-- The architecture check, the dispatch, the blocks and the final kill. -/
def Filter.cost (f : Filter) : Nat :=
  6 + (f.rules.entries.map fun e => 2 + rulesCost e.2).sum

/-- The records the code takes when every jump is expanded. -/
def Code.expanded (c : Code) : Nat := (c.insns.map Insn.expanded).sum

@[simp] theorem Code.expanded_emit (c : Code) (more : List Insn) :
    (c.emit more).expanded = c.expanded + (more.map Insn.expanded).sum := by
  simp [Code.expanded, Code.emit]

@[simp] theorem Code.expanded_mark (c : Code) (label : String) :
    (c.mark label).expanded = c.expanded := rfl

theorem maskedWord_expanded (fail : String) (off m v : U32) :
    ((maskedWord fail off m v).map Insn.expanded).sum ≤ 4 := by
  unfold maskedWord
  split <;> simp [Insn.expanded, expandedSize]

theorem condInsns_expanded (cond : ArgCmp) (fail passed : String) :
    ((condInsns cond fail passed).map Insn.expanded).sum ≤ cond.op.cost := by
  obtain ⟨index, op, value, mask, masked⟩ := cond
  cases op with
  | maskedEq =>
    simp only [condInsns, List.map_append, List.sum_append, CmpOp.cost]
    exact Nat.add_le_add (maskedWord_expanded _ _ _ _) (maskedWord_expanded _ _ _ _)
  | _ => simp [condInsns, Insn.expanded, expandedSize, CmpOp.cost]

theorem emitConds_expanded (nr : U32) (i j : Nat) (conds : List ArgCmp) (c : Code) :
    (emitConds nr i j conds c).expanded ≤ c.expanded + (conds.map (·.op.cost)).sum := by
  induction conds generalizing j c with
  | nil => exact Nat.le_refl _
  | cons cond conds ih =>
    have one := condInsns_expanded cond (Label.next nr i).text (Label.hit nr i j).text
    have rest := ih (j + 1) (emitCond c cond (Label.next nr i).text (Label.hit nr i j).text)
    simp only [emitConds, emitCond, Code.expanded_mark, Code.expanded_emit, List.map_cons,
      List.sum_cons] at rest ⊢
    omega

theorem emitRules_expanded (nr : U32) (i : Nat) (rules : List Rule) (c : Code) :
    (emitRules nr i rules c).1.expanded + (if (emitRules nr i rules c).2 then 1 else 0) ≤
      c.expanded + rulesCost rules := by
  induction rules generalizing i c with
  | nil => exact Nat.le_refl _
  | cons rule rules ih =>
    rw [emitRules, rulesCost]
    by_cases last : rule.args = []
    · rw [if_pos last, if_pos last]
      simp [Insn.expanded]
    · rw [if_neg last, if_neg last]
      have conds := emitConds_expanded nr i 0 rule.args c
      have rest := ih (i + 1)
        (((emitConds nr i 0 rule.args c).emit [.ret rule.action]).mark (Label.next nr i).text)
      simp only [Code.expanded_mark, Code.expanded_emit, List.map_singleton, List.sum_singleton,
        Insn.expanded] at rest
      omega

theorem emitBlock_expanded (default nr : U32) (rules : List Rule) (c : Code) :
    (emitBlock default nr rules c).expanded ≤ c.expanded + rulesCost rules := by
  have rest := emitRules_expanded nr 0 rules (c.mark (Label.block nr).text)
  rw [Code.expanded_mark] at rest
  rcases ran : emitRules nr 0 rules (c.mark (Label.block nr).text) with ⟨after, falls⟩
  rw [ran] at rest
  simp only [emitBlock, ran]
  cases falls with
  | true => simpa [Insn.expanded] using rest
  | false => simpa using rest

theorem emitBlocks_expanded (default : U32) (entries : List (U32 × List Rule)) (c : Code) :
    (emitBlocks default entries c).expanded ≤
      c.expanded + (entries.map fun e => rulesCost e.2).sum := by
  induction entries generalizing c with
  | nil => exact Nat.le_refl _
  | cons entry entries ih =>
    have one := emitBlock_expanded default entry.1 entry.2 c
    have rest := ih (emitBlock default entry.1 entry.2 c)
    simp only [emitBlocks, List.map_cons, List.sum_cons]
    omega

theorem header_expanded (audit default : U32) (keys : List U32) :
    (header audit default keys).expanded = 5 + 2 * keys.length := by
  simp [header, Code.expanded, Insn.expanded, expandedSize, Function.comp_def]
  omega

theorem Filter.code_expanded (f : Filter) (audit : U32) : (f.code audit).expanded ≤ f.cost := by
  have blocks := emitBlocks_expanded f.default f.rules.entries
    (header audit f.default f.rules.keys)
  rw [header_expanded] at blocks
  have dispatch : (f.rules.entries.map fun e => 2 + rulesCost e.2).sum =
      2 * f.rules.keys.length + (f.rules.entries.map fun e => rulesCost e.2).sum := by
    simp [List.sum_map_add, Dict.keys, Nat.mul_comm]
  simp only [Filter.code, Filter.cost, Code.expanded_emit, Code.expanded_mark, dispatch,
    List.map_singleton, List.sum_singleton, Insn.expanded]
  omega

theorem Bpf.Sized.sum_le {insns : List Insn} {sizes : List Nat} (sized : Sized insns sizes) :
    sizes.sum ≤ (insns.map Insn.expanded).sum := by
  apply sum_le_of_forall₂
  rw [List.forall₂_map_right_iff]
  apply List.Forall₂.flip
  apply List.Forall₂.imp _ sized
  intro insn size is
  rcases is with rfl | ⟨-, rfl⟩
  · cases insn with
    | jump op k jt jf => exact (Nat.le_succ 1).trans (expandedSize_bounds jt jf).1
    | _ => exact Nat.le_refl _
  · exact Nat.le_refl _

theorem Filter.recordCount_le (f : Filter) (audit : U32) : f.recordCount audit ≤ f.cost := by
  obtain ⟨sizes, ok, count⟩ := f.code_sizes audit
  rw [count]
  exact (resolveSizes_sized ok).sum_le.trans (f.code_expanded audit)

/-! ## Filters that fit -/

theorem Filter.fits {f : Filter} {machine : String} {audit : U32}
    (supported : auditArch machine = .ok audit) (cheap : f.cost ≤ 4096) :
    ∃ bytes fprog, f.compile machine = .ok bytes ∧ sockFprog bytes = .ok fprog ∧
      fprog.program = bytes ∧ fprog.len.toNat = f.recordCount audit := by
  have few := (f.recordCount_le audit).trans cheap
  obtain ⟨bytes, compiled, length, admissible⟩ := f.compile_ok audit supported (by omega)
  have count : bytes.length / 8 = f.recordCount audit := by omega
  have passed := sockFprog_ok admissible.whole admissible.some_record (by omega)
  refine ⟨bytes, _, compiled, passed, (sockFprog_program passed).1, ?_⟩
  rw [(sockFprog_program passed).2, count]

/-- A filter within its cost compiles, and `set_mode_filter` passes on the whole program with
its exact instruction count. -/
theorem cheap_filter_fits {machine : String} {audit : U32}
    (supported : auditArch machine = .ok audit) (f : Filter) :
    f.recordCount audit ≤ f.cost ∧
      (f.cost ≤ 4096 → ∃ bytes fprog, f.compile machine = .ok bytes ∧
        sockFprog bytes = .ok fprog ∧ fprog.program = bytes ∧
        fprog.len.toNat = f.recordCount audit) :=
  ⟨f.recordCount_le audit, Filter.fits supported⟩

/-- One rule with one condition. -/
theorem cheap_filter_fits_narrow :
    ∃ f, (addAll "x86_64" [narrowCall]).call ⟨0x7FFF0000, 0, Dict.empty, none, false⟩ = (.ok (), f) ∧
      ∃ bytes fprog, f.compile "x86_64" = .ok bytes ∧ sockFprog bytes = .ok fprog ∧
        fprog.program = bytes := by
  let start : Filter := ⟨0x7FFF0000, 0, Dict.empty, none, false⟩
  let f := start.withRule 0 ⟨Action.allow.code, [⟨0, .eq, 0, BitVec.allOnes 64, rfl⟩]⟩
  obtain ⟨bytes, fprog, compiled, passed, whole, -⟩ :=
    (cheap_filter_fits auditArch_x86_64 f).2 (by decide)
  exact ⟨f, rfl, bytes, fprog, compiled, passed, whole⟩

/-- Everything in a filter came from the start or from a call. -/
theorem addAll_origin {machine : String} {calls : List RuleCall} {f f' : Filter}
    (ran : (addAll machine calls).call f = (.ok (), f')) :
    (∀ nr ∈ f'.rules.keys, nr ∈ f.rules.keys ∨ ∃ c ∈ calls, ∃ rule, c.Adds machine nr rule) ∧
    ∀ nr, ∀ rule ∈ f'.rules.bucket nr, rule ∈ f.rules.bucket nr ∨
      ∃ c ∈ calls, c.Adds machine nr rule := by
  induction calls generalizing f with
  | nil =>
    cases ran
    exact ⟨fun nr mem => .inl mem, fun nr rule mem => .inl mem⟩
  | cons c calls ih =>
    obtain ⟨nr', added, -, adds, rest⟩ := addAll_cons_ok ran
    obtain ⟨keys, rules⟩ := ih rest
    constructor
    · intro nr mem
      rcases keys nr mem with old | ⟨other, there, rule, adds'⟩
      · by_cases this : nr = nr'
        · subst this
          exact .inr ⟨c, List.mem_cons_self, added, adds⟩
        · refine .inl ?_
          rw [Dict.mem_keys_iff] at old ⊢
          simpa [Filter.withRule, Dict.appendTo, Dict.get?_set_ne _ _ this] using old
      · exact .inr ⟨other, List.mem_cons_of_mem _ there, rule, adds'⟩
    · intro nr rule mem
      rcases rules nr rule mem with old | ⟨other, there, adds'⟩
      · simp only [Filter.withRule, Dict.bucket_appendTo] at old
        split at old
        · next this =>
          subst this
          rcases List.mem_append.mp old with old | new
          · exact .inl old
          · rw [List.mem_singleton.mp new]
            exact .inr ⟨c, List.mem_cons_self, adds⟩
        · exact .inl old
      · exact .inr ⟨other, List.mem_cons_of_mem _ there, adds'⟩

theorem rulesCost_unconditional {rules : List Rule} (each : ∀ rule ∈ rules, rule.args = []) :
    rulesCost rules = 1 := by
  cases rules with
  | nil => rfl
  | cons rule rules => rw [rulesCost, if_pos (each rule List.mem_cons_self)]

theorem table_length {machine : String} {row : Native} (ok : native machine = .ok row) :
    row.table.length ≤ 400 := by
  rcases native_ok ok with rfl | rfl
  · decide +kernel
  · decide +kernel

/-- Any number of rules by name and without conditions makes a program that the kernel's
limit admits. -/
theorem named_policy_fits {machine : String} {audit : U32}
    (supported : auditArch machine = .ok audit) {d flags : Int} {start : Filter}
    (created : Filter.init d flags = .ok start) {calls : List RuleCall}
    (named : ∀ c ∈ calls, ∃ s, c.syscall = .name s)
    (unconditional : ∀ c ∈ calls, c.args.raws = []) {f : Filter}
    (built : (addAll machine calls).call start = (.ok (), f)) :
    ∃ bytes fprog, ((Filter.program machine).call f).1 = .ok bytes ∧
      sockFprog bytes = .ok fprog ∧ fprog.program = bytes := by
  obtain ⟨-, -, empty, uncached, -⟩ := Filter.init_ok created
  obtain ⟨keys, rules⟩ := addAll_origin built
  rw [empty] at keys rules
  obtain ⟨row, known, -⟩ := bind_eq_ok.mp supported
  have few : f.rules.keys.length ≤ 400 := by
    have inside : f.rules.keys.map BitVec.toNat ⊆ row.table.map Prod.snd := by
      intro n mem
      obtain ⟨nr, present, rfl⟩ := List.mem_map.mp mem
      rcases keys nr present with none | ⟨c, there, rule, adds⟩
      · cases none
      · obtain ⟨s, is⟩ := named c there
        have denotes := (syscallNr_ok adds.syscall).2
        rw [is] at denotes
        obtain ⟨row', known', entry⟩ := denotes
        cases known.symm.trans known'
        exact List.mem_map_of_mem entry
    have distinct : (f.rules.keys.map BitVec.toNat).Nodup :=
      f.rules.nodup.map fun _ _ same => BitVec.eq_of_toNat_eq same
    have counted := (distinct.subperm inside).length_le
    rw [List.length_map, List.length_map] at counted
    exact counted.trans (table_length known)
  have cheap : f.cost ≤ 4096 := by
    have each : ∀ e ∈ f.rules.entries, 2 + rulesCost e.2 ≤ 3 := by
      rintro ⟨nr, rs⟩ mem
      have bucket := Dict.bucket_eq_of_mem mem
      have one : rulesCost rs = 1 := by
        apply rulesCost_unconditional
        intro rule there
        rw [← bucket] at there
        rcases rules nr rule there with none | ⟨c, made, adds⟩
        · cases none
        · exact Args.conds_nil (unconditional c made) adds.conds
      simp only [one]
      omega
    have total := sum_le_mul_length (List.forall_mem_map.mpr each)
    rw [List.length_map] at total
    have count : f.rules.entries.length = f.rules.keys.length := by simp [Dict.keys]
    unfold Filter.cost
    omega
  obtain ⟨bytes, fprog, compiled, passed, whole, -⟩ := Filter.fits supported cheap
  refine ⟨bytes, fprog, ?_, passed, whole⟩
  rw [Filter.program_uncached (addAll_frame built uncached).2.2.1, compiled]

/-- `read` and `write` are allowed. -/
theorem named_policy_fits_read_write :
    ∃ f, (addAll "x86_64" [⟨.allow, .name "read", .none⟩, ⟨.allow, .name "write", .none⟩]).call
        ⟨0x80000000, 0, Dict.empty, none, false⟩ = (.ok (), f) ∧
      ∃ bytes fprog, ((Filter.program "x86_64").call f).1 = .ok bytes ∧
        sockFprog bytes = .ok fprog ∧ fprog.program = bytes := by
  let start : Filter := ⟨0x80000000, 0, Dict.empty, none, false⟩
  have created : Filter.init 0x80000000 0 = .ok start := rfl
  have resolves : ∀ s nr, (s, nr) ∈ [("read", 0), ("write", 1)] →
      syscallNr "x86_64" (.name s) = .ok (BitVec.ofNat 32 nr) := by
    intro s nr mem
    simp only [syscallNr, native_x86_64]
    rcases List.mem_pair.mp mem with is | is
    · cases is
      rfl
    · cases is
      rfl
  have read : RuleCall.Adds "x86_64" ⟨.allow, .name "read", .none⟩ 0 ⟨Action.allow.code, []⟩ :=
    ⟨trivial, resolves _ _ List.mem_cons_self, rfl, rfl⟩
  have write : RuleCall.Adds "x86_64" ⟨.allow, .name "write", .none⟩ 1 ⟨Action.allow.code, []⟩ :=
    ⟨trivial, resolves _ _ (List.mem_cons_of_mem _ List.mem_cons_self), rfl, rfl⟩
  have built : (addAll "x86_64" [⟨.allow, .name "read", .none⟩, ⟨.allow, .name "write", .none⟩]).call
      start = (.ok (), (start.withRule 0 ⟨Action.allow.code, []⟩).withRule 1
        ⟨Action.allow.code, []⟩) := by
    rw [addAll_cons_adds read rfl, addAll_cons_adds write rfl]
    rfl
  refine ⟨_, built, named_policy_fits auditArch_x86_64 created ?_ ?_ built⟩
  · intro c mem
    rcases List.mem_pair.mp mem with rfl | rfl
    · exact ⟨"read", rfl⟩
    · exact ⟨"write", rfl⟩
  · intro c mem
    rcases List.mem_pair.mp mem with rfl | rfl
    · rfl
    · rfl

end Seccompy
