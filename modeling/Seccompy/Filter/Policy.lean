import Seccompy.Filter.Correct
import Seccompy.Lib.StableSort

/-!
# Policies and the filters that spell them

The same policy can be written in many ways: a syscall by name or by number, conditions as
a mapping, as tuples or as `ArgCmp` objects and in any order of the argument indices, rules
of different syscalls in any order.  Respelling a call changes nothing in the filter that
is built (`respelled_same_filter`); reordering the rules of different numbers changes
nothing in what the program decides (`interleaving_irrelevant`); calls after others decide
what those leave open (`extended_policy`); a rule behind an unconditional one of its number
changes not even the program (`shadowed_rule_dead`).
-/

namespace Seccompy

open Lib Bpf

/-! ## Respelling a call -/

/-- The conditions on one argument, in the order given. -/
def Args.onIndex (args : Args) (i : Int) : List (Option RawCond) :=
  args.raws.filter fun item => item.any (·.index = i)

/-- The same conditions, and on each argument in the same order. -/
structure Args.Respells (args args' : Args) : Prop where
  completes : args.Completes ↔ args'.Completes
  same : ∀ item, item ∈ args.raws ↔ item ∈ args'.raws
  order : ∀ i, args.onIndex i = args'.onIndex i

/-- The same rule for the same number. -/
structure RuleCall.Respells (machine : String) (c c' : RuleCall) : Prop where
  method : c.method = c'.method
  syscall : syscallNr machine c.syscall = syscallNr machine c'.syscall
  args : c.args.Respells c'.args

theorem ArgCmp.raw_injective : Function.Injective ArgCmp.raw := by
  rintro ⟨index, op, value, mask, masked⟩ ⟨index', op', value', mask', masked'⟩ same
  simp only [ArgCmp.raw, RawCond.mk.injEq, Nat.cast_inj] at same
  obtain ⟨indices, ops, values, masks⟩ := same
  obtain rfl := Fin.ext indices
  obtain rfl := BitVec.eq_of_toNat_eq values
  obtain rfl := BitVec.eq_of_toNat_eq masks
  have known := CmpOp.ofInt_toInt op
  rw [ops, CmpOp.ofInt_toInt] at known
  cases known
  rfl

/-- What the checked conditions of an index stand for. -/
theorem onIndex_given {args : Args} {given : List ArgCmp}
    (raws : given.map (fun c => some c.raw) = args.raws) (i : Fin 6) :
    args.onIndex i.val = (given.filter (·.index = i)).map fun c => some c.raw := by
  rw [Args.onIndex, ← raws, List.filter_map]
  congr 1
  apply List.filter_congr
  intro c _
  simp [ArgCmp.raw, Fin.ext_iff]

theorem Args.Respells.conds {args args' : Args} (respells : args.Respells args')
    {conds : List ArgCmp} (ok : args.conds = .ok conds) : args'.conds = .ok conds := by
  obtain ⟨completes, given, raws, rfl⟩ := Args.conds_ok ok
  have valid : ∀ item ∈ args'.raws, ∃ r, item = some r ∧ r.Valid := by
    intro item mem
    exact Args.raws_valid raws item ((respells.same item).mpr mem)
  obtain ⟨conds', ok'⟩ := Args.conds_of_valid (respells.completes.mp completes) valid
  obtain ⟨-, given', raws', rfl⟩ := Args.conds_ok ok'
  rw [ok']
  congr 1
  refine (@sortOn_eq _ _ _ ArgCmp.index _ _ fun i => ?_).symm
  have lists := respells.order i.val
  rw [onIndex_given raws, onIndex_given raws'] at lists
  refine List.map_injective_iff.mpr ?_ lists
  intro c c' same
  exact ArgCmp.raw_injective (Option.some.inj same)

theorem Args.Respells.symm {args args' : Args} (respells : args.Respells args') :
    args'.Respells args :=
  ⟨respells.completes.symm, fun item => (respells.same item).symm, fun i => (respells.order i).symm⟩

theorem RuleCall.Respells.symm {machine : String} {c c' : RuleCall}
    (respells : c.Respells machine c') : c'.Respells machine c :=
  ⟨respells.method.symm, respells.syscall.symm, respells.args.symm⟩

theorem RuleCall.Respells.adds {machine : String} {c c' : RuleCall} {nr : U32} {rule : Rule}
    (respells : c.Respells machine c') (adds : c.Adds machine nr rule) :
    c'.Adds machine nr rule := by
  refine ⟨?_, respells.syscall.symm.trans adds.syscall, respells.args.conds adds.conds, ?_⟩
  · rw [← respells.method]
    exact adds.payload
  · rw [← respells.method]
    exact adds.action

theorem addAll_cons_adds {machine : String} {c : RuleCall} {calls : List RuleCall} {f : Filter}
    {nr : U32} {rule : Rule} (adds : c.Adds machine nr rule) (unloaded : f.loaded = false) :
    (addAll machine (c :: calls)).call f = (addAll machine calls).call (f.withRule nr rule) := by
  rw [addAll_cons, Py.call_bind_ok (adds.call unloaded)]

theorem addAll_respelled {machine : String} {calls calls' : List RuleCall}
    (respelled : List.Forall₂ (RuleCall.Respells machine) calls calls') {f f' : Filter}
    (built : (addAll machine calls).call f = (.ok (), f')) :
    (addAll machine calls').call f = (.ok (), f') := by
  induction respelled generalizing f with
  | nil => exact built
  | cons respells _ ih =>
    obtain ⟨nr, rule, unloaded, adds, rest⟩ := addAll_cons_ok built
    rw [addAll_cons_adds (respells.adds adds) unloaded]
    exact ih rest

/-- Calls that are respelled one by one are accepted together and build the same filter,
and so the same program, byte for byte. -/
theorem respelled_same_filter {machine : String} {calls calls' : List RuleCall}
    (respelled : List.Forall₂ (RuleCall.Respells machine) calls calls') (f f' : Filter) :
    (addAll machine calls).call f = (.ok (), f') ↔ (addAll machine calls').call f = (.ok (), f') := by
  refine ⟨addAll_respelled respelled, addAll_respelled ?_⟩
  exact (respelled.imp fun _ _ respells => respells.symm).flip

/-- `allow("read", args={1: 5, 0: 3})`. -/
def readByName : RuleCall := ⟨.allow, .name "read", .mapping ((Dict.empty.set 1 5).set 0 3)⟩

/-- `allow(0, args=[(0, CmpOp.EQ, 3), ArgCmp(1, CmpOp.EQ, 5)])`. -/
def readByNumber : RuleCall :=
  ⟨.allow, .nr 0, .sequence [.tuple [0, 0, 3], .cmp ⟨1, .eq, 5, BitVec.allOnes 64, rfl⟩]⟩

theorem readByName_respells : readByName.Respells "x86_64" readByNumber := by
  have given : readByName.args.raws = [some ⟨1, 0, 5, 2 ^ 64 - 1⟩, some ⟨0, 0, 3, 2 ^ 64 - 1⟩] := rfl
  have given' : readByNumber.args.raws = [some ⟨0, 0, 3, 2 ^ 64 - 1⟩, some ⟨1, 0, 5, 2 ^ 64 - 1⟩] :=
    rfl
  refine ⟨rfl, ?_, Iff.rfl, fun item => ?_, fun i => ?_⟩
  · simp only [readByName, readByNumber, syscallNr, native_x86_64]
    rfl
  · rw [given, given', List.mem_pair, List.mem_pair, or_comm]
  · rw [Args.onIndex, Args.onIndex, given, given']
    by_cases zero : 0 = i
    · subst zero
      rfl
    · by_cases one : 1 = i
      · subst one
        rfl
      · simp [zero, one]

/-- On `Filter(default=KILL_PROCESS)`. -/
theorem respelled_same_filter_read :
    (addAll "x86_64" [readByName]).call ⟨0x80000000, 0, Dict.empty, none, false⟩ =
      (.ok (), ⟨0x80000000, 0, Dict.empty.appendTo 0 ⟨Action.allow.code,
        [⟨0, .eq, 3, BitVec.allOnes 64, rfl⟩, ⟨1, .eq, 5, BitVec.allOnes 64, rfl⟩]⟩, none,
        false⟩) :=
  (respelled_same_filter (.cons readByName_respells .nil) _ _).mpr rfl

/-! ## Interleaving rules of different numbers -/

section Built

variable {machine : String} {audit : U32} {d flags : Int} {start : Filter}

/-- The program of a filter that was built by calls returns the verdict of the calls. -/
theorem built_halts (supported : auditArch machine = .ok audit)
    (created : Filter.init d flags = .ok start) {calls : List RuleCall} {f : Filter}
    (built : (addAll machine calls).call start = (.ok (), f)) {bytes : Bytes}
    (read : ((Filter.program machine).call f).1 = .ok bytes) (data : SeccompData) (acc : U32) :
    (packed bytes data.load).Halts ⟨0, acc⟩
      (.ret (verdict machine audit (BitVec.ofInt 32 d) calls data)) := by
  obtain ⟨default, -, empty, uncached, -⟩ := Filter.init_ok created
  obtain ⟨sameDefault, -, uncached', -⟩ := addAll_frame built uncached
  rw [Filter.program_uncached uncached'] at read
  have halts := f.compile_halts audit supported read data acc
  have word : BitVec.ofInt 32 d = f.default := by
    rw [← default, sameDefault]
    simp
  have decided : decideRules f.default (f.rules.bucket data.nr) data.args =
      ((calls.find? (·.matches machine data)).map (·.method.action)).getD f.default := by
    rw [addAll_decides built data f.default, empty]
    rfl
  unfold verdict
  rw [decided] at halts
  rw [word, ite_not]
  exact halts

/-- The call is for this number. -/
def RuleCall.isFor (machine : String) (nr : U32) (c : RuleCall) : Bool :=
  (syscallNr machine c.syscall).toOption = some nr

theorem find?_matches (calls : List RuleCall) (data : SeccompData) :
    calls.find? (·.matches machine data) =
      (calls.filter (·.isFor machine data.nr)).find? (·.matches machine data) := by
  rw [List.find?_filter]
  congr 1
  funext c
  simp only [RuleCall.matches, RuleCall.isFor]
  grind

/-- Only the order of the rules of one number matters: two sequences of calls with the same
calls for each number, in the same order, have programs that decide alike. -/
theorem interleaving_irrelevant (supported : auditArch machine = .ok audit)
    (created : Filter.init d flags = .ok start) {calls calls' : List RuleCall} {f f' : Filter}
    (built : (addAll machine calls).call start = (.ok (), f))
    (built' : (addAll machine calls').call start = (.ok (), f'))
    (same : ∀ nr, calls.filter (·.isFor machine nr) = calls'.filter (·.isFor machine nr))
    {bytes bytes' : Bytes} (read : ((Filter.program machine).call f).1 = .ok bytes)
    (read' : ((Filter.program machine).call f').1 = .ok bytes') (data : SeccompData) (acc : U32) :
    ∃ v, (packed bytes data.load).Halts ⟨0, acc⟩ (.ret v) ∧
      (packed bytes' data.load).Halts ⟨0, acc⟩ (.ret v) := by
  refine ⟨_, built_halts supported created built read data acc, ?_⟩
  have verdicts : verdict machine audit (BitVec.ofInt 32 d) calls data =
      verdict machine audit (BitVec.ofInt 32 d) calls' data := by
    unfold verdict
    rw [find?_matches calls, find?_matches calls', same]
  rw [verdicts]
  exact built_halts supported created built' read' data acc

/-- `read` allowed and `write` killed, in either order. -/
theorem interleaving_irrelevant_read_write :
    ∃ start f f' bytes bytes', Filter.init 0x80000000 0 = .ok start ∧
      (addAll "x86_64" [⟨.allow, .nr 0, .none⟩, ⟨.kill, .nr 1, .none⟩]).call start = (.ok (), f) ∧
      (addAll "x86_64" [⟨.kill, .nr 1, .none⟩, ⟨.allow, .nr 0, .none⟩]).call start = (.ok (), f') ∧
      f.rules.keys ≠ f'.rules.keys ∧
      ∀ (data : SeccompData) (acc : U32), ∃ v, (packed bytes data.load).Halts ⟨0, acc⟩ (.ret v) ∧
        (packed bytes' data.load).Halts ⟨0, acc⟩ (.ret v) := by
  let start : Filter := ⟨0x80000000, 0, Dict.empty, none, false⟩
  let f := (start.withRule 0 ⟨Action.allow.code, []⟩).withRule 1 ⟨Action.killProcess.code, []⟩
  let f' := (start.withRule 1 ⟨Action.killProcess.code, []⟩).withRule 0 ⟨Action.allow.code, []⟩
  obtain ⟨bytes, compiled, -⟩ := f.compile_ok auditArchX86_64 auditArch_x86_64 (by decide)
  obtain ⟨bytes', compiled', -⟩ := f'.compile_ok auditArchX86_64 auditArch_x86_64 (by decide)
  have created : Filter.init 0x80000000 0 = .ok start := rfl
  have built : (addAll "x86_64" [⟨.allow, .nr 0, .none⟩, ⟨.kill, .nr 1, .none⟩]).call start =
      (.ok (), f) := rfl
  have built' : (addAll "x86_64" [⟨.kill, .nr 1, .none⟩, ⟨.allow, .nr 0, .none⟩]).call start =
      (.ok (), f') := rfl
  have read : ((Filter.program "x86_64").call f).1 = .ok bytes := by
    rw [Filter.program_uncached rfl, compiled]
  have read' : ((Filter.program "x86_64").call f').1 = .ok bytes' := by
    rw [Filter.program_uncached rfl, compiled']
  refine ⟨start, f, f', bytes, bytes', created, built, built', by decide, ?_⟩
  apply interleaving_irrelevant auditArch_x86_64 created built built' _ read read'
  intro nr
  have zero : syscallNr "x86_64" (.nr 0) = .ok 0 := rfl
  have one : syscallNr "x86_64" (.nr 1) = .ok 1 := rfl
  by_cases isZero : 0#32 = nr
  · subst isZero
    rfl
  · simp [RuleCall.isFor, zero, one, List.filter_cons, Except.toOption, isZero]

/-! ## One policy after another -/

theorem verdict_append (calls more : List RuleCall) (default : U32) (data : SeccompData) :
    verdict machine audit default (calls ++ more) data =
      if calls.any (·.matches machine data) then verdict machine audit default calls data
      else verdict machine audit default more data := by
  unfold verdict
  rw [List.find?_append]
  cases first : calls.find? (·.matches machine data) with
  | none =>
    have silent : calls.any (·.matches machine data) = false := by
      simpa [List.find?_eq_none] using first
    simp [silent]
  | some c =>
    have decided : calls.any (·.matches machine data) = true :=
      List.any_eq_true.mpr ⟨c, List.mem_of_find?_eq_some first, List.find?_some first⟩
    simp [decided]

/-- Calls after others decide what those leave open, and nothing else: the program of the
whole returns what the first calls return by themselves where one of them matches, and
what the later calls return by themselves where none does. -/
theorem extended_policy (supported : auditArch machine = .ok audit)
    (created : Filter.init d flags = .ok start) {calls more : List RuleCall} {f g h : Filter}
    (first : (addAll machine calls).call start = (.ok (), f))
    (second : (addAll machine more).call start = (.ok (), g))
    (whole : (addAll machine (calls ++ more)).call start = (.ok (), h)) {bytes₁ bytes₂ bytes : Bytes}
    (read₁ : ((Filter.program machine).call f).1 = .ok bytes₁)
    (read₂ : ((Filter.program machine).call g).1 = .ok bytes₂)
    (read : ((Filter.program machine).call h).1 = .ok bytes) (data : SeccompData) (acc : U32) :
    ∃ v, (packed bytes data.load).Halts ⟨0, acc⟩ (.ret v) ∧
      if calls.any (·.matches machine data) then (packed bytes₁ data.load).Halts ⟨0, acc⟩ (.ret v)
      else (packed bytes₂ data.load).Halts ⟨0, acc⟩ (.ret v) := by
  refine ⟨_, built_halts supported created whole read data acc, ?_⟩
  rw [verdict_append]
  split
  · exact built_halts supported created first read₁ data acc
  · exact built_halts supported created second read₂ data acc

/-- `read` allowed, then `read` and `write` killed. -/
theorem extended_policy_read_write :
    ∃ bytes₁ bytes₂ bytes, ∀ (data : SeccompData) (acc : U32),
      ∃ v, (packed bytes data.load).Halts ⟨0, acc⟩ (.ret v) ∧
        if [(⟨.allow, .nr 0, .none⟩ : RuleCall)].any (·.matches "x86_64" data) then
          (packed bytes₁ data.load).Halts ⟨0, acc⟩ (.ret v)
        else (packed bytes₂ data.load).Halts ⟨0, acc⟩ (.ret v) := by
  let start : Filter := ⟨0x7FFF0000, 0, Dict.empty, none, false⟩
  let allowed : Rule := ⟨Action.allow.code, []⟩
  let killed : Rule := ⟨Action.killProcess.code, []⟩
  let f := start.withRule 0 allowed
  let g := (start.withRule 0 killed).withRule 1 killed
  let h := ((start.withRule 0 allowed).withRule 0 killed).withRule 1 killed
  have created : Filter.init 0x7FFF0000 0 = .ok start := rfl
  have first : (addAll "x86_64" [⟨.allow, .nr 0, .none⟩]).call start = (.ok (), f) := rfl
  have second : (addAll "x86_64" [⟨.kill, .nr 0, .none⟩, ⟨.kill, .nr 1, .none⟩]).call start =
      (.ok (), g) := rfl
  have whole : (addAll "x86_64" ([⟨.allow, .nr 0, .none⟩] ++ [⟨.kill, .nr 0, .none⟩,
      ⟨.kill, .nr 1, .none⟩])).call start = (.ok (), h) := rfl
  obtain ⟨bytes₁, compiled₁, -⟩ := f.compile_ok auditArchX86_64 auditArch_x86_64 (by decide)
  obtain ⟨bytes₂, compiled₂, -⟩ := g.compile_ok auditArchX86_64 auditArch_x86_64 (by decide)
  obtain ⟨bytes, compiled, -⟩ := h.compile_ok auditArchX86_64 auditArch_x86_64 (by decide)
  refine ⟨bytes₁, bytes₂, bytes, ?_⟩
  apply extended_policy auditArch_x86_64 created first second whole
  · rw [Filter.program_uncached rfl, compiled₁]
  · rw [Filter.program_uncached rfl, compiled₂]
  · rw [Filter.program_uncached rfl, compiled]

end Built

/-! ## Rules that are never reached -/

/-- Rules behind an unconditional one leave no code. -/
theorem emitRules_shadowed {nr : U32} {i : Nat} {rules more : List Rule} {c : Code}
    (shadow : ∃ rule ∈ rules, rule.args = []) :
    emitRules nr i (rules ++ more) c = emitRules nr i rules c := by
  induction rules generalizing i c with
  | nil => simp at shadow
  | cons rule rules ih =>
    rw [List.cons_append, emitRules, emitRules]
    by_cases last : rule.args = []
    · rw [if_pos last, if_pos last]
    · rw [if_neg last, if_neg last]
      apply ih
      obtain ⟨other, mem, empty⟩ := shadow
      rcases List.mem_cons.mp mem with rfl | mem
      · exact absurd empty last
      · exact ⟨other, mem, empty⟩

theorem emitBlocks_map {default : U32} {entries : List (U32 × List Rule)}
    {g : U32 × List Rule → U32 × List Rule}
    (same : ∀ e ∈ entries, ∀ c, emitBlock default (g e).1 (g e).2 c = emitBlock default e.1 e.2 c)
    (c : Code) : emitBlocks default (entries.map g) c = emitBlocks default entries c := by
  induction entries generalizing c with
  | nil => rfl
  | cons e entries ih =>
    rw [List.forall_mem_cons] at same
    rw [List.map_cons, emitBlocks, emitBlocks, same.1, ih same.2]

/-- The program does not change with a rule behind an unconditional one. -/
theorem Filter.compile_withRule {f : Filter} {nr : U32} {rule : Rule} (machine : String)
    (shadow : ∃ r ∈ f.rules.bucket nr, r.args = []) :
    (f.withRule nr rule).compile machine = f.compile machine := by
  have present : nr ∈ f.rules.keys := by
    by_contra absent
    rw [Dict.bucket, Dict.get?_eq_none_iff.mpr absent] at shadow
    simp at shadow
  have keys : (f.withRule nr rule).rules.keys = f.rules.keys := Dict.keys_set_of_mem _ present
  have entries : (f.withRule nr rule).rules.entries = f.rules.entries.map fun e =>
      if e.1 = nr then (nr, f.rules.bucket nr ++ [rule]) else e := if_pos present
  have blocks : ∀ c, emitBlocks f.default (f.withRule nr rule).rules.entries c =
      emitBlocks f.default f.rules.entries c := by
    intro c
    rw [entries]
    apply emitBlocks_map
    rintro ⟨key, rules⟩ mem c
    by_cases this : key = nr
    · subst this
      have bucket : f.rules.bucket key = rules := Dict.bucket_eq_of_mem mem
      rw [bucket] at shadow ⊢
      simp only [if_true, emitBlock, emitRules_shadowed shadow]
    · simp only [if_neg this]
  have code : ∀ audit, (f.withRule nr rule).code audit = f.code audit := by
    intro audit
    simp only [Filter.code, keys]
    rw [show (f.withRule nr rule).default = f.default from rfl, blocks]
  simp only [Filter.compile, code]

theorem addAll_append_ok {machine : String} {calls more : List RuleCall} {f f' : Filter}
    (ran : (addAll machine (calls ++ more)).call f = (.ok (), f')) :
    ∃ f₁, (addAll machine calls).call f = (.ok (), f₁) ∧
      (addAll machine more).call f₁ = (.ok (), f') := by
  induction calls generalizing f with
  | nil => exact ⟨f, rfl, ran⟩
  | cons c calls ih =>
    rw [List.cons_append] at ran
    obtain ⟨nr, rule, unloaded, adds, rest⟩ := addAll_cons_ok ran
    obtain ⟨f₁, first, last⟩ := ih rest
    rw [addAll_cons_adds adds unloaded]
    exact ⟨f₁, first, last⟩

/-- The rules of a filter stay when calls are added. -/
theorem addAll_bucket_mono {machine : String} {calls : List RuleCall} {f f' : Filter}
    (ran : (addAll machine calls).call f = (.ok (), f')) (nr : U32) :
    f.rules.bucket nr <+: f'.rules.bucket nr := by
  induction calls generalizing f with
  | nil =>
    cases ran
    exact List.prefix_rfl
  | cons c calls ih =>
    obtain ⟨nr', rule, -, -, rest⟩ := addAll_cons_ok ran
    refine List.IsPrefix.trans ?_ (ih rest)
    simp only [Filter.withRule, Dict.bucket_appendTo]
    split
    · next same =>
      rw [same]
      exact List.prefix_append _ _
    · exact List.prefix_rfl

theorem Args.conds_nil {args : Args} {conds : List ArgCmp} (unconditional : args.raws = [])
    (ok : args.conds = .ok conds) : conds = [] := by
  obtain ⟨-, given, raws, rfl⟩ := Args.conds_ok ok
  rw [unconditional, List.map_eq_nil_iff] at raws
  rw [raws]
  rfl

/-- A further call for a number that has an unconditional rule already is accepted exactly
when its payload and its conditions are valid, and changes nothing in the program, however it
is spelled and whatever it says. -/
theorem shadowed_rule_dead {machine : String} {d flags : Int} {start : Filter}
    (created : Filter.init d flags = .ok start) {calls : List RuleCall} {c₀ c : RuleCall}
    (earlier : c₀ ∈ calls) (unconditional : c₀.args.raws = [])
    (same : syscallNr machine c₀.syscall = syscallNr machine c.syscall) {f : Filter}
    (built : (addAll machine calls).call start = (.ok (), f)) :
    ((∃ f', (c.body machine).call f = (.ok (), f')) ↔
      c.method.PayloadFits ∧ c.args.Completes ∧
        ∀ item ∈ c.args.raws, ∃ r, item = some r ∧ r.Valid) ∧
    ∀ f', (c.body machine).call f = (.ok (), f') →
      ((Filter.program machine).call f').1 = ((Filter.program machine).call f).1 := by
  obtain ⟨-, -, -, uncached, unloaded⟩ := Filter.init_ok created
  obtain ⟨-, -, uncached', sameLoaded⟩ := addAll_frame built uncached
  obtain ⟨before, behind, rfl⟩ := List.append_of_mem earlier
  obtain ⟨f₁, -, rest⟩ := addAll_append_ok built
  obtain ⟨nr, rule₀, -, adds₀, rest⟩ := addAll_cons_ok rest
  refine ⟨⟨?_, ?_⟩, fun f' added => ?_⟩
  · intro given
    rcases given with ⟨f', added⟩
    rcases RuleCall.call_cases machine c f with ⟨nr', rule, -, adds, -⟩ | ⟨⟨e, raised⟩, -⟩
    · exact ((RuleCall.exists_adds_iff machine c).mp ⟨nr', rule, adds⟩).2
    · rw [raised] at added
      cases added
  · rintro ⟨payload, completes, valid⟩
    obtain ⟨conds, checked⟩ := Args.conds_of_valid completes valid
    have adds : c.Adds machine nr ⟨c.method.action, conds⟩ :=
      ⟨payload, same.symm.trans adds₀.syscall, checked, rfl⟩
    exact ⟨_, adds.call (sameLoaded.trans unloaded)⟩
  · rcases RuleCall.call_cases machine c f with ⟨nr', rule, -, adds, done⟩ | ⟨⟨e, raised⟩, -⟩
    · cases added.symm.trans done
      obtain rfl : nr = nr' := by
        cases (adds₀.syscall.symm.trans same).trans adds.syscall
        rfl
      have stays := (addAll_bucket_mono rest nr).subset
      have shadow : ∃ r ∈ f.rules.bucket nr, r.args = [] := by
        refine ⟨rule₀, stays ?_, Args.conds_nil unconditional adds₀.conds⟩
        simp [Filter.withRule, Dict.bucket_appendTo]
      rw [Filter.program_uncached rfl, Filter.program_uncached uncached']
      exact Filter.compile_withRule machine shadow
    · rw [raised] at added
      cases added

/-- `read` is allowed, and then killed for descriptor 3. -/
theorem shadowed_rule_dead_read :
    ∃ start f f', Filter.init 0x80000000 0 = .ok start ∧
      (addAll "x86_64" [⟨.allow, .nr 0, .none⟩]).call start = (.ok (), f) ∧
      ((⟨.kill, .nr 0, .sequence [.tuple [0, 0, 3]]⟩ : RuleCall).body "x86_64").call f =
        (.ok (), f') ∧
      ((Filter.program "x86_64").call f').1 = ((Filter.program "x86_64").call f).1 := by
  let start : Filter := ⟨0x80000000, 0, Dict.empty, none, false⟩
  let f := start.withRule 0 ⟨Action.allow.code, []⟩
  let killed : RuleCall := ⟨.kill, .nr 0, .sequence [.tuple [0, 0, 3]]⟩
  have created : Filter.init 0x80000000 0 = .ok start := rfl
  have built : (addAll "x86_64" [⟨.allow, .nr 0, .none⟩]).call start = (.ok (), f) := rfl
  have same : syscallNr "x86_64" (.nr 0) = syscallNr "x86_64" killed.syscall := rfl
  obtain ⟨accepted, dead⟩ :=
    shadowed_rule_dead (c := killed) created (List.mem_singleton_self _) rfl same built
  have valid : ∀ item ∈ killed.args.raws, ∃ r, item = some r ∧ r.Valid := by
    intro item mem
    obtain rfl := List.mem_singleton.mp mem
    exact ⟨_, rfl, (⟨0, .eq, 3, BitVec.allOnes 64, rfl⟩ : ArgCmp).raw_valid⟩
  obtain ⟨f', added⟩ := accepted.mpr ⟨trivial, trivial, valid⟩
  exact ⟨start, f, f', created, built, added, dead f' added⟩

end Seccompy
