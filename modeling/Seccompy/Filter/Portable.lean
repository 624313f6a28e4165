import Seccompy.Bpf.Relabel
import Seccompy.Filter.Policy
import Seccompy.Syscalls.Names

/-!
# Policies by name on two architectures

A policy whose rules name syscalls that two machines both know is accepted by both or by
neither, its programs have the same number of records, and they decide alike for every
shared name, though the numbers, the labels and the audit architecture in them differ
(`portable_policy`).
-/

namespace Seccompy

open Lib Bpf

/-! ## Corresponding code -/

section Code

variable {N : U32 → U32 → Prop}

/-- The labels of one place, for corresponding numbers. -/
inductive Label.Same (N : U32 → U32 → Prop) : Label → Label → Prop
  | block {nr nr' : U32} (related : N nr nr') : Label.Same N (.block nr) (.block nr')
  | next {nr nr' : U32} (related : N nr nr') (i : Nat) : Label.Same N (.next nr i) (.next nr' i)
  | hit {nr nr' : U32} (related : N nr nr') (i j : Nat) :
    Label.Same N (.hit nr i j) (.hit nr' i j)
  | kill : Label.Same N .kill .kill

def SameText (N : U32 → U32 → Prop) (s s' : String) : Prop :=
  ∃ l l', Label.Same N l l' ∧ l.text = s ∧ l'.text = s'

theorem Label.Same.text {l l' : Label} (same : Label.Same N l l') : SameText N l.text l'.text :=
  ⟨l, l', same, rfl, rfl⟩

theorem sameText_unique (unique : Dict.BiUnique N) : Dict.BiUnique (SameText N) where
  right := by
    rintro _ _ _ ⟨l₁, l₂, same, rfl, rfl⟩ ⟨l₃, l₄, same', eq, rfl⟩
    cases Label.text_injective eq
    congr 1
    cases same with
    | block related =>
      cases same' with
      | block related' => rw [unique.right related related']
    | next related i =>
      cases same' with
      | next related' => rw [unique.right related related']
    | hit related i j =>
      cases same' with
      | hit related' => rw [unique.right related related']
    | kill =>
      cases same'
      rfl
  left := by
    rintro _ _ _ ⟨l₁, l₂, same, rfl, rfl⟩ ⟨l₃, l₄, same', rfl, eq⟩
    cases Label.text_injective eq
    congr 1
    cases same with
    | block related =>
      cases same' with
      | block related' => rw [unique.left related related']
    | next related i =>
      cases same' with
      | next related' => rw [unique.left related related']
    | hit related i j =>
      cases same' with
      | hit related' => rw [unique.left related related']
    | kill =>
      cases same'
      rfl

/-- Instructions of the same shape with corresponding labels. -/
abbrev Similar (N : U32 → U32 → Prop) : Insn → Insn → Prop :=
  SameInsn (fun _ _ => True) (SameText N)

/-- Code that differs in operands and in the numbers of its labels. -/
structure Code.Same (N : U32 → U32 → Prop) (c c' : Code) : Prop where
  insns : List.Forall₂ (Similar N) c.insns c'.insns
  labels : Dict.Matched (SameText N) c.labels c'.labels

theorem Code.Same.emit {c c' : Code} (same : c.Same N c') {more more' : List Insn}
    (similar : List.Forall₂ (Similar N) more more') : (c.emit more).Same N (c'.emit more') :=
  ⟨List.rel_append same.insns similar, same.labels⟩

theorem Code.Same.ret {c c' : Code} (same : c.Same N c') (k k' : U32) :
    (c.emit [.ret k]).Same N (c'.emit [.ret k']) :=
  same.emit (.cons (.ret trivial) .nil)

theorem Code.Same.mark {c c' : Code} (same : c.Same N c') (unique : Dict.BiUnique N) {s s' : String}
    (text : SameText N s s') : (c.mark s).Same N (c'.mark s') := by
  refine ⟨same.insns, ?_⟩
  have length : (c.insns.length : Int) = c'.insns.length := by rw [same.insns.length_eq]
  show Dict.Matched _ (c.labels.set s c.insns.length) (c'.labels.set s' c'.insns.length)
  rw [length]
  exact same.labels.set (sameText_unique unique) text _

theorem maskedWord_similar {fail fail' : String} (text : SameText N fail fail') (off m v : U32) :
    List.Forall₂ (Similar N) (maskedWord fail off m v) (maskedWord fail' off m v) := by
  unfold maskedWord
  split
  · exact .nil
  · exact .cons (.load trivial) (.cons (.and trivial) (.cons (.jump trivial .none (.some text)) .nil))

theorem condInsns_similar (cond : ArgCmp) {fail fail' passed passed' : String}
    (failed : SameText N fail fail') (text : SameText N passed passed') :
    List.Forall₂ (Similar N) (condInsns cond fail passed) (condInsns cond fail' passed') := by
  have load : ∀ off, Similar N (.load off) (.load off) := fun off => .load trivial
  have jump : ∀ op k {jt jf jt' jf'}, Option.Rel (SameText N) jt jt' →
      Option.Rel (SameText N) jf jf' → Similar N (.jump op k jt jf) (.jump op k jt' jf') :=
    fun op k _ _ _ _ yes no => .jump trivial yes no
  unfold condInsns
  cases cond.op with
  | eq =>
    exact .cons (load _) (.cons (jump _ _ .none (.some failed))
      (.cons (load _) (.cons (jump _ _ .none (.some failed)) .nil)))
  | ne =>
    exact .cons (load _) (.cons (jump _ _ .none (.some text))
      (.cons (load _) (.cons (jump _ _ (.some failed) .none) .nil)))
  | lt | le =>
    exact .cons (load _) (.cons (jump _ _ (.some failed) .none)
      (.cons (jump _ _ .none (.some text)) (.cons (load _)
        (.cons (jump _ _ (.some failed) .none) .nil))))
  | gt | ge =>
    exact .cons (load _) (.cons (jump _ _ (.some text) .none)
      (.cons (jump _ _ .none (.some failed)) (.cons (load _)
        (.cons (jump _ _ (.some text) (.some failed)) .nil))))
  | maskedEq =>
    exact List.rel_append (maskedWord_similar failed _ _ _) (maskedWord_similar failed _ _ _)

variable (unique : Dict.BiUnique N) {nr nr' : U32} (related : N nr nr')

include unique related

theorem emitConds_same (i j : Nat) (conds : List ArgCmp) {c c' : Code} (same : c.Same N c') :
    (emitConds nr i j conds c).Same N (emitConds nr' i j conds c') := by
  induction conds generalizing j c c' with
  | nil => exact same
  | cons cond conds ih =>
    have failed := (Label.Same.next related i).text
    have passed := (Label.Same.hit related i j).text
    exact ih (j + 1) ((same.emit (condInsns_similar cond failed passed)).mark unique passed)

theorem emitRules_same (i : Nat) (rules : List Rule) {c c' : Code} (same : c.Same N c') :
    (emitRules nr i rules c).1.Same N (emitRules nr' i rules c').1 ∧
      (emitRules nr i rules c).2 = (emitRules nr' i rules c').2 := by
  induction rules generalizing i c c' with
  | nil => exact ⟨same, rfl⟩
  | cons rule rules ih =>
    rw [emitRules, emitRules]
    by_cases last : rule.args = []
    · rw [if_pos last, if_pos last]
      exact ⟨same.ret _ _, rfl⟩
    · rw [if_neg last, if_neg last]
      have conds := emitConds_same unique related i 0 rule.args same
      exact ih (i + 1) ((conds.ret _ _).mark unique (Label.Same.next related i).text)

theorem emitBlock_same (default : U32) (rules : List Rule) {c c' : Code} (same : c.Same N c') :
    (emitBlock default nr rules c).Same N (emitBlock default nr' rules c') := by
  obtain ⟨code, flag⟩ := emitRules_same unique related 0 rules
    (same.mark unique (Label.Same.block related).text)
  unfold emitBlock
  simp only [flag]
  split
  · exact code.ret _ _
  · exact code

omit related

theorem emitBlocks_same (default : U32) {entries entries' : List (U32 × List Rule)}
    (each : List.Forall₂ (fun e e' => N e.1 e'.1 ∧ e.2 = e'.2) entries entries') {c c' : Code}
    (same : c.Same N c') : (emitBlocks default entries c).Same N (emitBlocks default entries' c') := by
  induction each generalizing c c' with
  | nil => exact same
  | @cons e e' _ _ both _ ih =>
    obtain ⟨nr, rules⟩ := e
    obtain ⟨nr', rules'⟩ := e'
    obtain ⟨related, rfl⟩ := both
    exact ih (emitBlock_same unique related default rules same)

/-- Filters with the same rules for corresponding numbers have programs of one size. -/
theorem recordCount_same {f f' : Filter} (default : f.default = f'.default)
    (rules : Dict.Matched N f.rules f'.rules) (audit audit' : U32) :
    f.recordCount audit = f'.recordCount audit' := by
  have start : (header audit f.default f.rules.keys).Same N
      (header audit' f'.default f'.rules.keys) := by
    refine ⟨List.rel_append (List.rel_append ?_ ?_) (.cons (.ret trivial) .nil), .nil⟩
    · exact .cons (.load trivial) (.cons (.jump trivial .none (.some Label.Same.kill.text))
        (.cons (.load trivial) .nil))
    · rw [List.forall₂_map_left_iff, List.forall₂_map_right_iff]
      exact rules.keys.imp fun _ _ related =>
        .jump trivial (.some (Label.Same.block related).text) .none
  have code : (f.code audit).Same N (f'.code audit') := by
    have blocks := emitBlocks_same unique f.default rules start
    rw [default] at blocks
    unfold Filter.code
    rw [default]
    exact (blocks.mark unique Label.Same.kill.text).ret _ _
  have same : List.Forall₂ (SameInsn (fun _ _ => True)
      (SameIndex (f.code audit).labels (f'.code audit').labels)) (f.code audit).insns
      (f'.code audit').insns :=
    code.insns.imp fun _ _ similar => similar.imp fun text =>
      code.labels.get? (sameText_unique unique) text
  obtain ⟨sizes, ok, count⟩ := f.code_sizes audit
  obtain ⟨sizes', ok', count'⟩ := f'.code_sizes audit'
  have settled := (resolveSizes_alike same).ok_iff.mp ok
  cases settled.symm.trans ok'
  rw [count, count']

end Code

/-! ## Shared names -/

/-- The numbers of one name on the two machines. -/
def SharedNumber (machine machine' : String) (nr nr' : U32) : Prop :=
  ∃ name, syscallNr machine (.name name) = .ok nr ∧ syscallNr machine' (.name name) = .ok nr'

/-- The call names a syscall that both machines know. -/
def RuleCall.Shared (machine machine' : String) (c : RuleCall) : Prop :=
  ∃ name nr nr', c.syscall = .name name ∧ syscallNr machine (.name name) = .ok nr ∧
    syscallNr machine' (.name name) = .ok nr'

section Shared

variable {machine machine' : String}

theorem sharedNumber_unique : Dict.BiUnique (SharedNumber machine machine') where
  right := by
    rintro nr nr₁ nr₂ ⟨a, isA, isA'⟩ ⟨b, isB, isB'⟩
    exact numbers_agree isA isB isA' isB'
  left := by
    rintro nr₁ nr₂ nr ⟨a, isA, isA'⟩ ⟨b, isB, isB'⟩
    exact numbers_agree isA' isB' isA isB

theorem RuleCall.Adds.shared {c : RuleCall} {nr : U32} {rule : Rule}
    (adds : c.Adds machine nr rule) (shared : c.Shared machine machine') :
    ∃ nr', SharedNumber machine machine' nr nr' ∧ c.Adds machine' nr' rule := by
  obtain ⟨name, nr₁, nr', named, here, there⟩ := shared
  have number := adds.syscall
  rw [named, here] at number
  cases number
  refine ⟨nr', ⟨name, here, there⟩, adds.payload, ?_, adds.conds, adds.action⟩
  rw [named]
  exact there

theorem addAll_shared {calls : List RuleCall} (shared : ∀ c ∈ calls, c.Shared machine machine')
    {f f₁ g : Filter} (built : (addAll machine calls).call f = (.ok (), f₁))
    (rules : Dict.Matched (SharedNumber machine machine') f.rules g.rules)
    (unloaded : g.loaded = false) :
    ∃ g₁, (addAll machine' calls).call g = (.ok (), g₁) ∧
      Dict.Matched (SharedNumber machine machine') f₁.rules g₁.rules := by
  induction calls generalizing f g with
  | nil =>
    cases built
    exact ⟨g, rfl, rules⟩
  | cons c calls ih =>
    rw [List.forall_mem_cons] at shared
    obtain ⟨nr, rule, -, adds, rest⟩ := addAll_cons_ok built
    obtain ⟨nr', related, adds'⟩ := adds.shared shared.1
    rw [addAll_cons_adds adds' unloaded]
    exact ih shared.2 rest (rules.appendTo sharedNumber_unique related rule) unloaded

end Shared

/-- What one machine makes of a policy in shared names, the other makes of it too: the calls
are accepted, the program has the same number of records, and for every shared name and all
arguments it returns the same. -/
theorem portable_policy {machine machine' : String} {audit audit' : U32}
    (supported : auditArch machine = .ok audit) (supported' : auditArch machine' = .ok audit')
    {d flags : Int} {start f : Filter} (created : Filter.init d flags = .ok start)
    {calls : List RuleCall} (shared : ∀ c ∈ calls, c.Shared machine machine')
    (built : (addAll machine calls).call start = (.ok (), f)) {bytes : Bytes}
    (read : ((Filter.program machine).call f).1 = .ok bytes) :
    ∃ f' bytes', (addAll machine' calls).call start = (.ok (), f') ∧
      ((Filter.program machine').call f').1 = .ok bytes' ∧ bytes'.length = bytes.length ∧
      ∀ nr nr', SharedNumber machine machine' nr nr' → ∀ args ip ip' acc acc',
        ∃ v, (packed bytes (SeccompData.load ⟨nr, audit, ip, args⟩)).Halts ⟨0, acc⟩ (.ret v) ∧
          (packed bytes' (SeccompData.load ⟨nr', audit', ip', args⟩)).Halts ⟨0, acc'⟩ (.ret v) := by
  obtain ⟨-, -, empty, uncached, unloaded⟩ := Filter.init_ok created
  have blank : Dict.Matched (SharedNumber machine machine') start.rules start.rules := by
    rw [empty]
    exact .empty
  obtain ⟨f', built', rules⟩ := addAll_shared shared built blank unloaded
  obtain ⟨default, -, uncached₁, -⟩ := addAll_frame built uncached
  obtain ⟨default', -, uncached₂, -⟩ := addAll_frame built' uncached
  rw [Filter.program_uncached uncached₁] at read
  have count := recordCount_same sharedNumber_unique (default.trans default'.symm) rules audit audit'
  have small : f.recordCount audit ≤ 2 ^ 32 + 3 := by
    by_contra large
    obtain ⟨msg, refused⟩ := f.compile_error audit supported (not_le.mp large)
    cases refused.symm.trans read
  obtain ⟨same, compiled, length, -⟩ := f.compile_ok audit supported small
  cases compiled.symm.trans read
  obtain ⟨bytes', compiled', length', -⟩ := f'.compile_ok audit' supported' (count ▸ small)
  refine ⟨f', bytes', built', ?_, ?_, ?_⟩
  · rw [Filter.program_uncached uncached₂, compiled']
  · rw [length, length', count]
  · intro nr nr' related args ip ip' acc acc'
    have here := f.compile_halts audit supported compiled ⟨nr, audit, ip, args⟩ acc
    have there := f'.compile_halts audit' supported' compiled' ⟨nr', audit', ip', args⟩ acc'
    have bucket : f.rules.bucket nr = f'.rules.bucket nr' := by
      rw [Dict.bucket, Dict.bucket, rules.get? sharedNumber_unique related]
    rw [if_pos rfl] at here there
    rw [← bucket, default', ← default] at there
    exact ⟨_, here, there⟩

/-- `read` is number 0 on x86_64 and 63 on aarch64; everything else is killed. -/
theorem portable_policy_read :
    ∃ start f f' bytes bytes', Filter.init 0x80000000 0 = .ok start ∧
      (addAll "x86_64" [⟨.allow, .name "read", .none⟩]).call start = (.ok (), f) ∧
      (addAll "aarch64" [⟨.allow, .name "read", .none⟩]).call start = (.ok (), f') ∧
      ((Filter.program "aarch64").call f').1 = .ok bytes' ∧ bytes'.length = bytes.length ∧
      ∀ args ip ip' acc acc', ∃ v,
        (packed bytes (SeccompData.load ⟨0, auditArchX86_64, ip, args⟩)).Halts ⟨0, acc⟩ (.ret v) ∧
        (packed bytes' (SeccompData.load ⟨63, auditArchAarch64, ip', args⟩)).Halts ⟨0, acc'⟩
          (.ret v) := by
  let start : Filter := ⟨0x80000000, 0, Dict.empty, none, false⟩
  let f := start.withRule 0 ⟨Action.allow.code, []⟩
  have created : Filter.init 0x80000000 0 = .ok start := rfl
  have here : syscallNr "x86_64" (.name "read") = .ok 0 :=
    (syscallNr_name_iff native_x86_64).mpr (by decide +kernel)
  have there : syscallNr "aarch64" (.name "read") = .ok 63 :=
    (syscallNr_name_iff native_aarch64).mpr (by decide +kernel)
  have supported' : auditArch "aarch64" = .ok auditArchAarch64 := by
    rw [auditArch, native_aarch64]
    rfl
  have adds : RuleCall.Adds "x86_64" ⟨.allow, .name "read", .none⟩ 0 ⟨Action.allow.code, []⟩ :=
    ⟨trivial, here, rfl, rfl⟩
  have built : (addAll "x86_64" [⟨.allow, .name "read", .none⟩]).call start = (.ok (), f) :=
    addAll_cons_adds adds rfl
  have shared : ∀ c ∈ [(⟨.allow, .name "read", .none⟩ : RuleCall)], c.Shared "x86_64" "aarch64" := by
    simp only [List.mem_singleton, forall_eq]
    exact ⟨"read", 0, 63, rfl, here, there⟩
  obtain ⟨bytes, compiled, -⟩ := f.compile_ok auditArchX86_64 auditArch_x86_64 (by decide)
  have read : ((Filter.program "x86_64").call f).1 = .ok bytes := by
    rw [Filter.program_uncached rfl, compiled]
  obtain ⟨f', bytes', built', read', length, alike⟩ :=
    portable_policy auditArch_x86_64 supported' created shared built read
  exact ⟨start, f, f', bytes, bytes', created, built, built', read', length,
    alike 0 63 ⟨"read", here, there⟩⟩

end Seccompy
