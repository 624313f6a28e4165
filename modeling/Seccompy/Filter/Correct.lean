import Seccompy.Filter.Adding
import Seccompy.Filter.Program

/-!
# Compiler correctness

What a filter is for: `verdict` reads the policy off the rule calls themselves, in
call order, with the conditions compared as integers.  The compiled program returns
that verdict on every call, for every filter whose program the assembler can encode
(`program_correct`), and the kernel's checkers admit it (`compile_admissible`).
-/

namespace Seccompy

open Lib Bpf

/-! ## The policy -/

/-- One comparison, on integers. -/
def RawCond.test (r : RawCond) (arg : Nat) : Bool :=
  if r.op = 0 then (arg : Int) = r.value
  else if r.op = 1 then (arg : Int) ≠ r.value
  else if r.op = 2 then (arg : Int) < r.value
  else if r.op = 3 then (arg : Int) ≤ r.value
  else if r.op = 4 then r.value < arg
  else if r.op = 5 then r.value ≤ arg
  else ((arg &&& r.mask.toNat : Nat) : Int) = r.value

def RawCond.holds (r : RawCond) (args : Fin 6 → U64) : Bool :=
  if inside : r.index.toNat < 6 then r.test (args ⟨r.index.toNat, inside⟩).toNat else false

/-- The call is for this syscall number, and all its conditions hold. -/
def RuleCall.matches (machine : String) (d : SeccompData) (c : RuleCall) : Bool :=
  (syscallNr machine c.syscall).toOption = some d.nr ∧
    c.args.raws.all fun item => item.any (·.holds d.args)

/-- The verdict of a policy: the first call that matches decides, else the default. -/
def verdict (machine : String) (audit default : U32) (calls : List RuleCall)
    (d : SeccompData) : U32 :=
  if d.arch ≠ audit then Action.killProcess.code
  else ((calls.find? (·.matches machine d)).map (·.method.action)).getD default

/-! ## A run of rule calls -/

/-- The calls one after another; an exception ends the run. -/
def addAll (machine : String) (calls : List RuleCall) : Py Filter Unit :=
  calls.forM fun c => c.body machine

theorem addAll_cons (machine : String) (c : RuleCall) (calls : List RuleCall) :
    addAll machine (c :: calls) = (c.body machine >>= fun _ => addAll machine calls) := rfl

theorem addAll_cons_ok {machine : String} {c : RuleCall} {calls : List RuleCall} {f f' : Filter}
    (ran : (addAll machine (c :: calls)).call f = (.ok (), f')) :
    ∃ nr rule, f.loaded = false ∧ c.Adds machine nr rule ∧
      (addAll machine calls).call (f.withRule nr rule) = (.ok (), f') := by
  rw [addAll_cons] at ran
  rcases RuleCall.call_cases machine c f with ⟨nr, rule, unloaded, adds, done⟩ | ⟨⟨e, raised⟩, -⟩
  · rw [Py.call_bind_ok done] at ran
    exact ⟨nr, rule, unloaded, adds, ran⟩
  · rw [Py.call_bind_error raised] at ran
    cases ran

theorem addAll_adds {machine : String} {calls : List RuleCall} {rules : List (U32 × Rule)}
    (adds : List.Forall₂ (fun c e => c.Adds machine e.1 e.2) calls rules) {f : Filter}
    (unloaded : f.loaded = false) : (addAll machine calls).call f =
      (.ok (), rules.foldl (fun f e => f.withRule e.1 e.2) f) := by
  induction adds generalizing f with
  | nil => rfl
  | cons head _ ih =>
    rw [addAll_cons, Py.call_bind_ok (head.call unloaded)]
    exact ih unloaded

/-- A condition of a built rule means what its integers say. -/
theorem ArgCmp.holds_raw (c : ArgCmp) (args : Fin 6 → U64) : c.raw.holds args = c.holds args := by
  obtain ⟨index, op, value, mask, masked⟩ := c
  have inside : ((index.val : Int)).toNat < 6 := index.isLt
  have same : (⟨((index.val : Int)).toNat, inside⟩ : Fin 6) = index := rfl
  simp only [RawCond.holds, ArgCmp.raw, dif_pos inside, same, ArgCmp.holds, RawCond.test]
  cases op with
  | eq => simp [CmpOp.toInt, ← BitVec.toNat_inj]
  | ne => simp [CmpOp.toInt, ← BitVec.toNat_inj]
  | lt => simp [CmpOp.toInt, BitVec.lt_def]
  | le => simp [CmpOp.toInt, BitVec.le_def]
  | gt => simp [CmpOp.toInt, BitVec.lt_def]
  | ge => simp [CmpOp.toInt, BitVec.le_def]
  | maskedEq => simp [CmpOp.toInt, ← BitVec.toNat_inj]

theorem RuleCall.Adds.matches_iff {machine : String} {c : RuleCall} {nr : U32} {rule : Rule}
    (adds : c.Adds machine nr rule) (d : SeccompData) :
    c.matches machine d = (decide (nr = d.nr) && rule.holds d.args) := by
  obtain ⟨-, given, raws, sorted⟩ := Args.conds_ok adds.conds
  have conds : (c.args.raws.all fun item => item.any (·.holds d.args)) = rule.holds d.args := by
    rw [← raws, List.all_map, Rule.holds, sorted, (perm_sortConds given).all_eq]
    exact List.all_congr rfl fun cond => cond.holds_raw d.args
  simp only [RuleCall.matches, conds, adds.syscall, Except.toOption, Option.some.injEq]
  simp

/-- The rules a run of calls leaves for a number, as the policy sees them. -/
theorem addAll_decides {machine : String} {calls : List RuleCall} {f f' : Filter}
    (ran : (addAll machine calls).call f = (.ok (), f')) (d : SeccompData) (default : U32) :
    decideRules default (f'.rules.bucket d.nr) d.args =
      (((f.rules.bucket d.nr).find? (·.holds d.args)).map Rule.action).getD
        (((calls.find? (·.matches machine d)).map (·.method.action)).getD default) := by
  induction calls generalizing f with
  | nil =>
    cases ran
    rfl
  | cons c calls ih =>
    obtain ⟨nr, rule, -, adds, rest⟩ := addAll_cons_ok ran
    rw [ih rest]
    simp only [Filter.withRule, Dict.bucket_appendTo, List.find?_cons, adds.matches_iff d]
    by_cases same : nr = d.nr
    · rw [if_pos same.symm, List.find?_append, same]
      cases (f.rules.bucket d.nr).find? (·.holds d.args) with
      | some earlier => rfl
      | none =>
        cases holds : rule.holds d.args with
        | true => simp [holds, adds.action]
        | false => simp [holds]
    · rw [if_neg fun eq => same eq.symm]
      simp [same]

/-- A run of calls touches only the rules and the cache. -/
theorem addAll_frame {machine : String} {calls : List RuleCall} {f f' : Filter}
    (ran : (addAll machine calls).call f = (.ok (), f')) (empty : f.cached = none) :
    f'.default = f.default ∧ f'.flags = f.flags ∧ f'.cached = none ∧ f'.loaded = f.loaded := by
  induction calls generalizing f with
  | nil =>
    cases ran
    exact ⟨rfl, rfl, empty, rfl⟩
  | cons c calls ih =>
    obtain ⟨nr, rule, -, -, rest⟩ := addAll_cons_ok ran
    have kept := ih rest rfl
    exact kept

theorem Filter.init_ok {default flags : Int} {f : Filter} (ok : Filter.init default flags = .ok f) :
    (f.default.toNat : Int) = default ∧ (f.flags.toNat : Int) = flags ∧ f.rules = Dict.empty ∧
      f.cached = none ∧ f.loaded = false := by
  simp only [Filter.init] at ok
  split at ok
  · next range =>
    split at ok
    · next range' =>
      cases ok
      refine ⟨?_, ?_, rfl, rfl, rfl⟩
      · simp only [BitVec.toNat_ofInt]
        omega
      · simp only [BitVec.toNat_ofInt]
        omega
    · cases ok
  · cases ok

/-- Without a cached program, `program` compiles. -/
theorem Filter.program_uncached {machine : String} {f : Filter} (empty : f.cached = none) :
    ((Filter.program machine).call f).1 = f.compile machine := by
  rw [Filter.program_read, Filter.current, empty]

/-! ## The compiled program -/

/-- Compiler correctness.  The filter is built from `Filter(default=d)` by successful
calls; its program returns the verdict of the policy on every call.  A program of
more than 2 ^ 32 + 3 records cannot be encoded, and reading it raises. -/
theorem program_correct (machine : String) (audit : U32) (supported : auditArch machine = .ok audit)
    (d flags : Int) (start f : Filter) (created : Filter.init d flags = .ok start)
    (calls : List RuleCall) (built : (addAll machine calls).call start = (.ok (), f)) :
    (f.recordCount audit ≤ 2 ^ 32 + 3 →
      ∃ bytes, ((Filter.program machine).call f).1 = .ok bytes ∧
        ∀ (data : SeccompData) (acc : U32), (packed bytes data.load).Halts ⟨0, acc⟩
          (.ret (verdict machine audit (BitVec.ofInt 32 d) calls data))) ∧
    (2 ^ 32 + 3 < f.recordCount audit →
      ∃ msg, ((Filter.program machine).call f).1 = .error (.valueError msg)) := by
  obtain ⟨default, -, empty, uncached, -⟩ := Filter.init_ok created
  obtain ⟨sameDefault, -, uncached', -⟩ := addAll_frame built uncached
  rw [Filter.program_uncached uncached']
  refine ⟨fun small => ?_, fun large => f.compile_error audit supported large⟩
  obtain ⟨bytes, compiled, -, -⟩ := f.compile_ok audit supported small
  refine ⟨bytes, compiled, fun data acc => ?_⟩
  have halts := f.compile_halts audit supported compiled data acc
  have decided := addAll_decides built data f.default
  rw [empty] at decided
  have word : BitVec.ofInt 32 d = f.default := by
    rw [← default, sameDefault]
    simp
  rw [decided] at halts
  unfold verdict
  rw [word]
  by_cases foreign : data.arch = audit
  · rw [if_pos foreign] at halts
    rw [if_neg (not_not.mpr foreign)]
    exact halts
  · rw [if_neg foreign] at halts
    rw [if_pos foreign]
    exact halts

/-- On `read` two conditions of 64 bits, one with an empty mask, a rule for every call and one
behind it; on `write` a masked condition. -/
def mixedCalls : List RuleCall :=
  [⟨.errno 13, .nr 0, .sequence [.tuple [1, 5, 2 ^ 40], .tuple [0, 1, 3]]⟩,
    ⟨.errno 1, .name "write", .sequence [.tuple [0, 6, 0x30, 0xF0]]⟩,
    ⟨.trace 7, .name "read", .sequence [.tuple [2, 6, 0, 0], .tuple [3, 2, 10]]⟩,
    ⟨.allow, .nr 0, .none⟩, ⟨.kill, .nr 0, .mapping (Dict.empty.set 0 3)⟩]

/-- The filter they build on `Filter(default=Action.ERRNO | 38)`. -/
theorem mixed_built : ∃ f, (addAll "x86_64" mixedCalls).call
    ⟨0x50026, 0, Dict.empty, none, false⟩ = (.ok (), f) ∧ f.recordCount auditArchX86_64 ≤ 4096 := by
  let rules : List (U32 × Rule) :=
    [(0, ⟨0x5000D, [⟨0, .ne, 3, BitVec.allOnes 64, rfl⟩,
        ⟨1, .ge, 0x10000000000, BitVec.allOnes 64, rfl⟩]⟩),
      (1, ⟨0x50001, [⟨0, .maskedEq, 0x30, 0xF0, rfl⟩]⟩),
      (0, ⟨0x7FF00007, [⟨2, .maskedEq, 0, 0, rfl⟩, ⟨3, .lt, 10, BitVec.allOnes 64, rfl⟩]⟩),
      (0, ⟨Action.allow.code, []⟩),
      (0, ⟨Action.killProcess.code, [⟨0, .eq, 3, BitVec.allOnes 64, rfl⟩]⟩)]
  have read : syscallNr "x86_64" (.name "read") = .ok 0 := by
    simp only [syscallNr, native_x86_64]
    rfl
  have write : syscallNr "x86_64" (.name "write") = .ok 1 := by
    simp only [syscallNr, native_x86_64]
    rfl
  have adds : List.Forall₂ (fun c e => c.Adds "x86_64" e.1 e.2) mixedCalls rules :=
    .cons ⟨⟨by decide, by decide⟩, rfl, rfl, rfl⟩ <|
      .cons ⟨⟨by decide, by decide⟩, write, rfl, rfl⟩ <|
      .cons ⟨⟨by decide, by decide⟩, read, rfl, rfl⟩ <| .cons ⟨trivial, rfl, rfl, rfl⟩ <|
      .cons ⟨trivial, rfl, rfl, rfl⟩ .nil
  exact ⟨_, addAll_adds adds rfl, by decide⟩

theorem program_correct_mixed :
    ∃ start f bytes, Filter.init 0x50026 0 = .ok start ∧
      (addAll "x86_64" mixedCalls).call start = (.ok (), f) ∧
      ((Filter.program "x86_64").call f).1 = .ok bytes ∧
      ∀ (data : SeccompData) (acc : U32), (packed bytes data.load).Halts ⟨0, acc⟩
        (.ret (verdict "x86_64" auditArchX86_64 0x50026 mixedCalls data)) := by
  obtain ⟨f, built, few⟩ := mixed_built
  obtain ⟨bytes, read, halts⟩ := (program_correct "x86_64" auditArchX86_64 auditArch_x86_64
    0x50026 0 _ f rfl mixedCalls built).1 (by omega)
  exact ⟨_, f, bytes, rfl, built, read, halts⟩

/-! ## Programs too long to encode -/

theorem length_emitRules {nr : U32} {i : Nat} {rules : List Rule} {c : Code}
    (conditional : ∀ rule ∈ rules, rule.args ≠ []) :
    c.insns.length + rules.length ≤ (emitRules nr i rules c).1.insns.length ∧
      (emitRules nr i rules c).2 = true := by
  induction rules generalizing i c with
  | nil => exact ⟨Nat.le_refl _, rfl⟩
  | cons rule rules ih =>
    rw [emitRules, if_neg (conditional rule List.mem_cons_self)]
    obtain ⟨longer, falls⟩ := ih (i := i + 1)
      (c := ((emitConds nr i 0 rule.args c).emit [.ret rule.action]).mark (Label.next nr i).text)
      fun rule mem => conditional rule (List.mem_cons_of_mem _ mem)
    refine ⟨?_, falls⟩
    have grown := (emitConds_grows nr i 0 rule.args c).insns.length_le
    have one : ((((emitConds nr i 0 rule.args c).emit [.ret rule.action]).mark
        (Label.next nr i).text).insns).length = (emitConds nr i 0 rule.args c).insns.length + 1 := by
      simp [Code.emit, Code.mark]
    rw [List.length_cons]
    omega

/-- A list of conditional rules takes at least one record for each of its rules. -/
theorem Filter.lt_recordCount {f : Filter} {nr : U32} {rules : List Rule} (audit : U32)
    (entries : f.rules.entries = [(nr, rules)]) (conditional : ∀ rule ∈ rules, rule.args ≠ []) :
    rules.length + 3 < f.recordCount audit := by
  obtain ⟨sizes, ok, count⟩ := f.code_sizes audit
  have sized := resolveSizes_sized ok
  have records := length_le_sum fun s mem => (sized.bounds mem).1
  have keys : f.rules.keys = [nr] := by rw [Dict.keys, entries]; rfl
  obtain ⟨longer, falls⟩ := @length_emitRules nr 0 rules
    ((header audit f.default [nr]).mark (Label.block nr).text) conditional
  have front : ((header audit f.default [nr]).mark (Label.block nr).text).insns.length = 5 := rfl
  have total : (f.code audit).insns.length =
      (emitRules nr 0 rules ((header audit f.default [nr]).mark (Label.block nr).text)).1.insns.length
        + 2 := by
    simp only [Filter.code, entries, keys, emitBlocks, emitBlock, falls, if_true]
    simp [Code.emit, Code.mark]
  rw [sized.length_eq] at records
  omega

theorem addAll_replicate {machine : String} {c : RuleCall} {nr : U32} {rule : Rule}
    (adds : c.Adds machine nr rule) (n m : Nat) {f : Filter} (unloaded : f.loaded = false)
    (entries : f.rules.entries = [(nr, List.replicate m rule)]) :
    ∃ f', (addAll machine (List.replicate n c)).call f = (.ok (), f') ∧
      f'.rules.entries = [(nr, List.replicate (m + n) rule)] := by
  induction n generalizing m f with
  | zero => exact ⟨f, rfl, entries⟩
  | succ n ih =>
    have bucket : f.rules.bucket nr = List.replicate m rule :=
      Dict.bucket_eq_of_mem (by rw [entries]; exact List.mem_singleton_self _)
    have next : (f.withRule nr rule).rules.entries = [(nr, List.replicate (m + 1) rule)] := by
      simp [Filter.withRule, Dict.appendTo, Dict.set, Dict.setEntries, entries, bucket,
        List.replicate_succ']
    obtain ⟨f', ran, last⟩ := ih (m + 1) (f := f.withRule nr rule) unloaded next
    refine ⟨f', ?_, ?_⟩
    · rw [List.replicate_succ, addAll_cons, Py.call_bind_ok (adds.call unloaded)]
      exact ran
    · rw [last, Nat.add_assoc, Nat.add_comm 1 n]

/-- `allow(0, args=[(0, EQ, 0)])`. -/
def narrowCall : RuleCall := ⟨.allow, .nr 0, .sequence [.tuple [0, 0, 0]]⟩

/-- Enough conditional rules on one number make a program that is refused. -/
theorem long_refused (n : Nat) (large : 2 ^ 32 ≤ n) :
    ∃ start f, Filter.init 0x7FFF0000 0 = .ok start ∧
      (addAll "x86_64" (List.replicate n narrowCall)).call start = (.ok (), f) ∧
      ∃ msg, f.compile "x86_64" = .error (.valueError msg) ∧
        ((Filter.program "x86_64").call f).1 = .error (.valueError msg) := by
  let rule : Rule := ⟨Action.allow.code, [⟨0, .eq, 0, BitVec.allOnes 64, rfl⟩]⟩
  have adds : narrowCall.Adds "x86_64" 0 rule := ⟨trivial, rfl, rfl, rfl⟩
  let start : Filter := ⟨0x7FFF0000, 0, Dict.empty, none, false⟩
  obtain ⟨m, rfl⟩ : ∃ m, n = m + 1 := ⟨n - 1, by omega⟩
  obtain ⟨f, ran, entries⟩ := addAll_replicate adds m 1 (f := start.withRule 0 rule) rfl rfl
  have built : (addAll "x86_64" (List.replicate (m + 1) narrowCall)).call start = (.ok (), f) := by
    rw [List.replicate_succ, addAll_cons, Py.call_bind_ok (adds.call rfl)]
    exact ran
  have long := f.lt_recordCount auditArchX86_64 entries fun rule mem => by
    rw [List.eq_of_mem_replicate mem]
    exact nofun
  rw [List.length_replicate] at long
  obtain ⟨msg, refused⟩ := f.compile_error auditArchX86_64 auditArch_x86_64 (by omega)
  refine ⟨start, f, rfl, built, msg, refused, ?_⟩
  rw [Filter.program_uncached (addAll_frame built rfl).2.2.1, refused]

/-- With 2 ^ 32 conditional rules on one number there is no program to run. -/
theorem program_correct_fails_long :
    ∃ start f, Filter.init 0x7FFF0000 0 = .ok start ∧
      (addAll "x86_64" (List.replicate (2 ^ 32) narrowCall)).call start = (.ok (), f) ∧
      ¬ ∃ bytes, ((Filter.program "x86_64").call f).1 = .ok bytes := by
  obtain ⟨start, f, created, built, msg, -, raised⟩ := long_refused (2 ^ 32) (Nat.le_refl _)
  refine ⟨start, f, created, built, ?_⟩
  intro given
  rcases given with ⟨bytes, read⟩
  rw [raised] at read
  cases read

/-! ## Admissible programs -/

/-- Compiled filters are admissible.  Within 2 ^ 32 + 3 records `_compile` returns,
the program meets the kernel's conditions, and `set_mode_filter` refuses it only for
having more than 4096 instructions; the count it passes on is exact.  Beyond,
`_compile` raises. -/
theorem compile_admissible (machine : String) (audit : U32)
    (supported : auditArch machine = .ok audit) (f : Filter) :
    (f.recordCount audit ≤ 2 ^ 32 + 3 →
      ∃ bytes, f.compile machine = .ok bytes ∧ Admissible bytes ∧
        (bytes.length / 8 ≤ 4096 → ∃ fprog, sockFprog bytes = .ok fprog ∧ fprog.filter = bytes ∧
          fprog.len.toNat = bytes.length / 8) ∧
        (4096 < bytes.length / 8 → sockFprog bytes =
          .error (.valueError "program exceeds the kernel limit of 4096 instructions"))) ∧
    (2 ^ 32 + 3 < f.recordCount audit →
      ∃ msg, f.compile machine = .error (.valueError msg)) := by
  refine ⟨fun small => ?_, fun large => f.compile_error audit supported large⟩
  obtain ⟨bytes, compiled, -, admissible⟩ := f.compile_ok audit supported small
  refine ⟨bytes, compiled, admissible, fun few => ?_, fun many => ?_⟩
  · have passed := sockFprog_ok admissible.whole admissible.some_record few
    exact ⟨_, passed, rfl, (sockFprog_program passed).2⟩
  · simp only [sockFprog]
    rw [if_neg (by simp [admissible.whole, admissible.some_record]), if_pos many]

/-- Several conditional rules, an empty mask and a shadowed rule. -/
theorem compile_admissible_mixed :
    auditArch "x86_64" = .ok auditArchX86_64 ∧
      ∃ f bytes, (addAll "x86_64" mixedCalls).call ⟨0x50026, 0, Dict.empty, none, false⟩ =
          (.ok (), f) ∧
        f.compile "x86_64" = .ok bytes ∧ Admissible bytes ∧
          ∃ fprog, sockFprog bytes = .ok fprog ∧ fprog.filter = bytes ∧
            fprog.len.toNat = bytes.length / 8 := by
  refine ⟨auditArch_x86_64, ?_⟩
  obtain ⟨f, built, count⟩ := mixed_built
  obtain ⟨bytes, compiled, admissible, few, -⟩ := (compile_admissible "x86_64" auditArchX86_64
    auditArch_x86_64 f).1 (by omega)
  obtain ⟨bytes', compiled', length, -⟩ := f.compile_ok auditArchX86_64 auditArch_x86_64 (by omega)
  cases compiled.symm.trans compiled'
  exact ⟨f, bytes, built, compiled, admissible, few (by omega)⟩

/-- With 2 ^ 32 conditional rules on one number `_compile` raises. -/
theorem compile_admissible_fails_long :
    ∃ start f, Filter.init 0x7FFF0000 0 = .ok start ∧
      (addAll "x86_64" (List.replicate (2 ^ 32) narrowCall)).call start = (.ok (), f) ∧
      ∃ msg, f.compile "x86_64" = .error (.valueError msg) := by
  obtain ⟨start, f, created, built, msg, raised, -⟩ := long_refused (2 ^ 32) (Nat.le_refl _)
  exact ⟨start, f, created, built, msg, raised⟩

end Seccompy
