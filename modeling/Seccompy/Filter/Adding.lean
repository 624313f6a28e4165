import Seccompy.Filter.Rules

/-!
# What a rule method accepts, and what it changes

The conditions of a call are read as plain integers (`RawCond`), and `RawCond.Valid`
says in those terms what a condition must satisfy; `ArgCmp.init_ok` matches that
with the checks of the source, which are spread over four functions.  A call that
succeeds appends one rule (`RuleCall.call_ok`); one that raises leaves the object
alone, whatever raised.
-/

namespace Seccompy

open Lib Bpf

/-! ## Conditions as integers -/

/-- `(index, op, value, mask)`. -/
structure RawCond where
  index : Int
  op : Int
  value : Int
  mask : Int
  deriving DecidableEq, Repr

/-- The ranges, the full mask of everything but `MASKED_EQ`, and no value bit
outside the mask. -/
structure RawCond.Valid (r : RawCond) : Prop where
  index : 0 ≤ r.index ∧ r.index ≤ 5
  op : 0 ≤ r.op ∧ r.op ≤ 6
  value : 0 ≤ r.value ∧ r.value ≤ 2 ^ 64 - 1
  mask : 0 ≤ r.mask ∧ r.mask ≤ 2 ^ 64 - 1
  full : r.op ≠ 6 → r.mask = 2 ^ 64 - 1
  bits : ∀ b, r.value.toNat.testBit b = true → r.mask.toNat.testBit b = true

def ArgCmp.raw (c : ArgCmp) : RawCond :=
  ⟨(c.index : Nat), c.op.toInt, c.value.toNat, c.mask.toNat⟩

/-- The condition an item stands for; a tuple of another length stands for none. -/
def ArgCond.raw : ArgCond → Option RawCond
  | .cmp c => some c.raw
  | .tuple [index, op, value] => some ⟨index, op, value, 2 ^ 64 - 1⟩
  | .tuple [index, op, value, mask] => some ⟨index, op, value, mask⟩
  | .tuple _ => none

/-- The conditions of a call, in the order given. -/
def Args.raws : Args → List (Option RawCond)
  | .none => []
  | .mapping items => items.entries.map fun item => some ⟨item.1, 0, item.2, 2 ^ 64 - 1⟩
  | .sequence items => items.map ArgCond.raw
  | .iterator items _ => items.map ArgCond.raw

/-- Iteration over the arguments ends without raising. -/
def Args.Completes : Args → Prop
  | .iterator _ raised => raised = .none
  | _ => True

/-! ## The checks of the source -/

theorem CmpOp.ofInt_toInt (op : CmpOp) : CmpOp.ofInt op.toInt = .ok op := by
  cases op <;> rfl

theorem CmpOp.ofInt_ok {n : Int} {op : CmpOp} (ok : CmpOp.ofInt n = .ok op) : op.toInt = n := by
  unfold CmpOp.ofInt at ok
  split at ok
  · next h => cases ok; exact h.symm
  · split at ok
    · next h => cases ok; exact h.symm
    · split at ok
      · next h => cases ok; exact h.symm
      · split at ok
        · next h => cases ok; exact h.symm
        · split at ok
          · next h => cases ok; exact h.symm
          · split at ok
            · next h => cases ok; exact h.symm
            · split at ok
              · next h => cases ok; exact h.symm
              · cases ok

theorem CmpOp.toInt_range (op : CmpOp) : 0 ≤ op.toInt ∧ op.toInt ≤ 6 := by
  cases op <;> decide

theorem CmpOp.exists_of_range {n : Int} (range : 0 ≤ n ∧ n ≤ 6) : ∃ op : CmpOp, op.toInt = n := by
  obtain ⟨low, high⟩ := range
  have cases : n = 0 ∨ n = 1 ∨ n = 2 ∨ n = 3 ∨ n = 4 ∨ n = 5 ∨ n = 6 := by omega
  rcases cases with rfl | rfl | rfl | rfl | rfl | rfl | rfl
  · exact ⟨.eq, rfl⟩
  · exact ⟨.ne, rfl⟩
  · exact ⟨.lt, rfl⟩
  · exact ⟨.le, rfl⟩
  · exact ⟨.gt, rfl⟩
  · exact ⟨.ge, rfl⟩
  · exact ⟨.maskedEq, rfl⟩

theorem toNat_ofInt_64 {n : Int} (range : 0 ≤ n ∧ n ≤ u64Max) :
    (BitVec.ofInt 64 n).toNat = n.toNat := by
  simp only [u64Max] at range
  rw [BitVec.toNat_ofInt]
  omega

/-- The mask test as a statement about bits. -/
theorem and_not_eq_zero_iff (v m : U64) :
    v &&& ~~~m = 0 ↔ ∀ b, v.toNat.testBit b = true → m.toNat.testBit b = true := by
  constructor
  · intro none b set
    have bound : b < 64 := by
      by_contra large
      have : v.toNat.testBit b = false := by
        simpa [BitVec.testBit_toNat] using BitVec.getLsbD_of_ge v b (by omega)
      rw [this] at set
      cases set
    have bit := congrArg (BitVec.getLsbD · b) none
    simp only [BitVec.testBit_toNat] at set ⊢
    simpa [set, bound] using bit
  · intro sub
    apply BitVec.eq_of_getLsbD_eq
    intro b bound
    have := sub b
    simp only [BitVec.testBit_toNat] at this
    cases set : v.getLsbD b with
    | false => simp [set]
    | true => simp [set, this set]

theorem ofInt_eq_allOnes_iff {n : Int} (range : 0 ≤ n ∧ n ≤ u64Max) :
    BitVec.ofInt 64 n = BitVec.allOnes 64 ↔ n = 2 ^ 64 - 1 := by
  rw [← BitVec.toNat_inj, toNat_ofInt_64 range, BitVec.toNat_allOnes]
  simp only [u64Max] at range
  omega

theorem ArgCmp.raw_valid (c : ArgCmp) : c.raw.Valid := by
  obtain ⟨index, op, value, mask, masked⟩ := c
  have full : op ≠ .maskedEq → mask = BitVec.allOnes 64 := fun other => by
    rwa [if_neg other] at masked
  refine ⟨⟨Int.natCast_nonneg _, ?_⟩, op.toInt_range, ?_, ?_, fun other => ?_, ?_⟩
  · have := index.isLt
    simp only [ArgCmp.raw]
    omega
  · have := value.isLt
    simp only [ArgCmp.raw]
    omega
  · have := mask.isLt
    simp only [ArgCmp.raw]
    omega
  · have ones := full fun same => other (congrArg CmpOp.toInt same)
    simp [ArgCmp.raw, ones]
  · simp only [ArgCmp.raw, Int.toNat_natCast]
    by_cases isMasked : op = .maskedEq
    · rw [if_pos isMasked] at masked
      exact (and_not_eq_zero_iff value mask).mp masked
    · have : value &&& ~~~mask = 0 := by simp [full isMasked]
      exact (and_not_eq_zero_iff value mask).mp this

theorem ArgCmp.init_ok {index op value mask : Int} {c : ArgCmp}
    (ok : ArgCmp.init index op value mask = .ok c) : c.raw = ⟨index, op, value, mask⟩ := by
  unfold ArgCmp.init at ok
  split at ok
  · cases ok
  · next op' known =>
    have same := CmpOp.ofInt_ok known
    split at ok
    · next inside =>
      split at ok
      · next value_range =>
        split at ok
        · next mask_range =>
          have value_eq := toNat_ofInt_64 value_range
          have mask_eq := toNat_ofInt_64 mask_range
          have built : ∀ masked, (⟨⟨index.toNat, by omega⟩, op', BitVec.ofInt 64 value,
              BitVec.ofInt 64 mask, masked⟩ : ArgCmp).raw = ⟨index, op, value, mask⟩ := by
            intro masked
            simp only [ArgCmp.raw, value_eq, mask_eq, same]
            rw [Int.toNat_of_nonneg inside.1, Int.toNat_of_nonneg value_range.1,
              Int.toNat_of_nonneg mask_range.1]
          simp only at ok
          split at ok
          · split at ok
            · cases ok
              exact built _
            · cases ok
          · split at ok
            · cases ok
              exact built _
            · cases ok
        · cases ok
      · cases ok
    · cases ok

theorem ArgCmp.init_of_valid {r : RawCond} (valid : r.Valid) :
    ∃ c, ArgCmp.init r.index r.op r.value r.mask = .ok c := by
  obtain ⟨index, op, value, mask⟩ := r
  obtain ⟨index_range, op_range, value_range, mask_range, full, bits⟩ := valid
  simp only at index_range op_range value_range mask_range full bits
  obtain ⟨op', rfl⟩ := CmpOp.exists_of_range op_range
  have value_range' : 0 ≤ value ∧ value ≤ u64Max := by simp only [u64Max]; omega
  have mask_range' : 0 ≤ mask ∧ mask ≤ u64Max := by simp only [u64Max]; omega
  simp only [ArgCmp.init, CmpOp.ofInt_toInt, dif_pos index_range, if_pos value_range',
    if_pos mask_range']
  by_cases isMasked : op' = .maskedEq
  · have within : BitVec.ofInt 64 value &&& ~~~BitVec.ofInt 64 mask = 0 := by
      rw [and_not_eq_zero_iff, toNat_ofInt_64 value_range', toNat_ofInt_64 mask_range']
      exact bits
    rw [dif_pos isMasked, dif_pos within]
    exact ⟨_, rfl⟩
  · have other : op'.toInt ≠ 6 := by
      intro six
      cases op' <;> simp_all [CmpOp.toInt]
    have ones := (ofInt_eq_allOnes_iff mask_range').mpr (full other)
    rw [dif_neg isMasked, dif_pos ones]
    exact ⟨_, rfl⟩

theorem coerceCond_ok {item : ArgCond} {c : ArgCmp} (ok : coerceCond item = .ok c) :
    item.raw = some c.raw := by
  unfold coerceCond at ok
  split at ok
  · cases ok
    rfl
  · obtain ⟨op', known, ok⟩ := bind_eq_ok.mp ok
    rw [ArgCmp.init_ok ok, CmpOp.ofInt_ok known]
    rfl
  · obtain ⟨op', known, ok⟩ := bind_eq_ok.mp ok
    rw [ArgCmp.init_ok ok, CmpOp.ofInt_ok known]
    rfl
  · simp only at ok
    split at ok <;> cases ok

theorem coerceCond_of_valid {item : ArgCond} {r : RawCond} (same : item.raw = some r)
    (valid : r.Valid) : ∃ c, coerceCond item = .ok c := by
  have built := ArgCmp.init_of_valid valid
  obtain ⟨op, code⟩ := CmpOp.exists_of_range valid.op
  have known : CmpOp.ofInt r.op = .ok op := by rw [← code, CmpOp.ofInt_toInt]
  unfold ArgCond.raw at same
  split at same
  · exact ⟨_, rfl⟩
  · cases same
    simp only [coerceCond, known, ok_bind, code]
    exact built
  · cases same
    simp only [coerceCond, known, ok_bind, code]
    exact built
  · cases same

theorem ArgCond.mapM_coerce {items : List ArgCond} {given : List ArgCmp}
    (all : items.mapM coerceCond = .ok given) :
    given.map (fun c => some c.raw) = items.map ArgCond.raw :=
  mapM_ok_map (fun _ _ ok => (coerceCond_ok ok).symm) all

/-- The conditions of a rule are the ones given, in index order. -/
theorem Args.conds_ok {args : Args} {conds : List ArgCmp} (ok : args.conds = .ok conds) :
    args.Completes ∧ ∃ given : List ArgCmp, given.map (fun c => some c.raw) = args.raws ∧
      conds = sortConds given := by
  cases args with
  | none =>
    cases ok
    exact ⟨trivial, [], rfl, rfl⟩
  | mapping items =>
    refine ⟨trivial, ?_⟩
    simp only [Args.conds] at ok
    split at ok
    · next none =>
      cases ok
      exact ⟨[], by simp [Args.raws, List.isEmpty_iff.mp none], rfl⟩
    · obtain ⟨given, all, same⟩ := bind_eq_ok.mp ok
      cases same
      refine ⟨given, mapM_ok_map (fun item c built => ?_) all, rfl⟩
      rw [ArgCmp.init_ok built]
      rfl
  | sequence items =>
    refine ⟨trivial, ?_⟩
    simp only [Args.conds] at ok
    split at ok
    · next none =>
      cases ok
      exact ⟨[], by simp [Args.raws, List.isEmpty_iff.mp none], rfl⟩
    · obtain ⟨given, all, same⟩ := bind_eq_ok.mp ok
      cases same
      exact ⟨given, ArgCond.mapM_coerce all, rfl⟩
  | iterator items raised =>
    simp only [Args.conds] at ok
    obtain ⟨given, all, ok⟩ := bind_eq_ok.mp ok
    cases raised with
    | some e => cases ok
    | none =>
      cases ok
      exact ⟨rfl, given, ArgCond.mapM_coerce all, rfl⟩

theorem Args.conds_of_valid {args : Args} (completes : args.Completes)
    (valid : ∀ item ∈ args.raws, ∃ r, item = some r ∧ r.Valid) :
    ∃ conds, args.conds = .ok conds := by
  have coerced : ∀ {items : List ArgCond},
      (∀ item ∈ items.map ArgCond.raw, ∃ r, item = some r ∧ r.Valid) →
      ∃ given, items.mapM coerceCond = .ok given := by
    intro items valid
    apply exists_mapM_ok
    intro item mem
    obtain ⟨r, same, valid⟩ := valid _ (List.mem_map_of_mem mem)
    exact coerceCond_of_valid same valid
  cases args with
  | none => exact ⟨[], rfl⟩
  | mapping items =>
    obtain ⟨given, all⟩ : ∃ given, (items.entries.mapM fun item =>
        ArgCmp.init item.1 CmpOp.eq.toInt item.2 u64Max) = .ok given := by
      apply exists_mapM_ok
      intro item mem
      obtain ⟨r, same, valid⟩ := valid _ (List.mem_map_of_mem mem)
      cases same
      exact ArgCmp.init_of_valid valid
    simp only [Args.conds, all, ok_bind]
    split
    · exact ⟨_, rfl⟩
    · exact ⟨_, rfl⟩
  | sequence items =>
    obtain ⟨given, all⟩ := coerced valid
    simp only [Args.conds, all, ok_bind]
    split
    · exact ⟨_, rfl⟩
    · exact ⟨_, rfl⟩
  | iterator items raised =>
    obtain ⟨given, all⟩ := coerced valid
    cases completes
    simp only [Args.conds, all, ok_bind]
    exact ⟨_, rfl⟩

theorem Args.raws_valid {args : Args} {given : List ArgCmp}
    (same : given.map (fun c => some c.raw) = args.raws) :
    ∀ item ∈ args.raws, ∃ r, item = some r ∧ r.Valid := by
  intro item mem
  rw [← same, List.mem_map] at mem
  obtain ⟨c, -, rfl⟩ := mem
  exact ⟨c.raw, rfl, c.raw_valid⟩

/-! ## Syscall arguments -/

/-- A name of the native table, or a 32-bit integer. -/
def Syscall.Known (machine : String) : Syscall → Prop
  | .nr n => 0 ≤ n ∧ n ≤ 2 ^ 32 - 1
  | .name s => ∃ row nr, native machine = .ok row ∧ (s, nr) ∈ row.table

/-- The number a syscall argument stands for. -/
def Syscall.Denotes (machine : String) (nr : U32) : Syscall → Prop
  | .nr n => n = nr.toNat
  | .name s => ∃ row, native machine = .ok row ∧ (s, nr.toNat) ∈ row.table

theorem mem_of_lookup {α β : Type} [DecidableEq α] {entries : List (α × β)} {k : α} {v : β}
    (found : entries.lookup k = some v) : (k, v) ∈ entries := by
  obtain ⟨before, after, split, -⟩ := List.lookup_eq_some_iff.mp found
  rw [split]
  exact List.mem_append_right _ List.mem_cons_self

theorem native_ok {machine : String} {row : Native} (ok : native machine = .ok row) :
    row = x86_64Native ∨ row = aarch64Native := by
  simp only [native] at ok
  split at ok
  · next found =>
    cases ok
    have mem := mem_of_lookup found
    simp only [arches, List.mem_cons, Prod.mk.injEq, List.not_mem_nil, or_false] at mem
    rcases mem with ⟨-, same⟩ | ⟨-, same⟩ | ⟨-, same⟩ | ⟨-, same⟩
    · exact Or.inl same
    · exact Or.inl same
    · exact Or.inr same
    · exact Or.inr same
  · cases ok

/-- Table numbers are small: none has bit 30 set. -/
theorem table_lt {machine : String} {row : Native} (ok : native machine = .ok row)
    {s : String} {nr : Nat} (mem : (s, nr) ∈ row.table) : nr < 2 ^ 30 := by
  have small : ∀ e ∈ row.table, e.2 < 2 ^ 30 := by
    rcases native_ok ok with rfl | rfl
    · decide +kernel
    · decide +kernel
  exact small (s, nr) mem

theorem syscallNr_ok {machine : String} {syscall : Syscall} {nr : U32}
    (ok : syscallNr machine syscall = .ok nr) :
    syscall.Known machine ∧ syscall.Denotes machine nr := by
  cases syscall with
  | nr n =>
    simp only [syscallNr] at ok
    split at ok
    · next range =>
      cases ok
      refine ⟨⟨range.1, by omega⟩, ?_⟩
      simp only [Syscall.Denotes, BitVec.toNat_ofInt]
      omega
    · cases ok
  | name s =>
    simp only [syscallNr] at ok
    obtain ⟨row, known, ok⟩ := bind_eq_ok.mp ok
    split at ok
    · next n found =>
      cases ok
      have mem := mem_of_lookup found
      have small := table_lt known mem
      refine ⟨⟨row, n, known, mem⟩, row, known, ?_⟩
      rw [BitVec.toNat_ofNat, Nat.mod_eq_of_lt (by omega)]
      exact mem
    · cases ok

theorem syscallNr_of_known {machine : String} {syscall : Syscall}
    (known : syscall.Known machine) : ∃ nr, syscallNr machine syscall = .ok nr := by
  cases syscall with
  | nr n =>
    obtain ⟨low, high⟩ := known
    refine ⟨BitVec.ofInt 32 n, ?_⟩
    simp only [syscallNr]
    rw [if_pos (by omega)]
  | name s =>
    obtain ⟨row, nr, known, mem⟩ := known
    simp only [syscallNr, known, ok_bind]
    cases found : row.table.lookup s with
    | some n => exact ⟨_, rfl⟩
    | none =>
      have other := List.lookup_eq_none_iff.mp found (s, nr) mem
      simp at other

/-! ## One call -/

/-- The payload of `errno` and `trace` fits in 16 bits. -/
def RuleMethod.PayloadFits : RuleMethod → Prop
  | .errno data | .trace data => 0 ≤ data ∧ data ≤ 65535
  | _ => True

/-- The action of the rule a method adds. -/
def RuleMethod.action : RuleMethod → U32
  | .allow => Action.allow.code
  | .kill => Action.killProcess.code
  | .killThread => Action.killThread.code
  | .trap => Action.trap.code
  | .errno error => Action.errno.code ||| BitVec.ofInt 32 error
  | .trace msg => Action.trace.code ||| BitVec.ofInt 32 msg
  | .log => Action.log.code
  | .notify => Action.userNotif.code

/-- The filter after a rule was added. -/
def Filter.withRule (f : Filter) (nr : U32) (rule : Rule) : Filter :=
  { f with rules := f.rules.appendTo nr rule, cached := none }

theorem Filter.call_add (machine : String) (syscall : Syscall) (action : U32) (args : Args)
    (f : Filter) :
    (∃ nr conds, f.loaded = false ∧ syscallNr machine syscall = .ok nr ∧
      args.conds = .ok conds ∧
      (Filter.add machine syscall action args).call f =
        (.ok (), f.withRule nr ⟨action, conds⟩)) ∨
    (∃ e, (Filter.add machine syscall action args).call f = (.error e, f)) ∧
      ¬ (f.loaded = false ∧ (∃ nr, syscallNr machine syscall = .ok nr) ∧
        ∃ conds, args.conds = .ok conds) := by
  unfold Filter.add Filter.checkMutable
  simp only [Py.call_bind, Py.call_read, Py.call_ite, Py.call_throw, Py.call_pure, Py.call_lift,
    Py.call_update]
  cases loaded : f.loaded with
  | true => simp
  | false =>
    cases syscallNr machine syscall with
    | error e => simp
    | ok nr =>
      cases args.conds with
      | error e => simp
      | ok conds => simp [Filter.withRule, loaded]

theorem Filter.call_addData (what : String) (action : Action) (machine : String)
    (syscall : Syscall) (data : Int) (args : Args) (f : Filter) :
    (Filter.addData what action machine syscall data args).call f =
      if 0 ≤ data ∧ data ≤ seccompRetData then
        (Filter.add machine syscall (action.code ||| BitVec.ofInt 32 data) args).call f
      else (.error (.valueError s!"{what} out of range: {data}"), f) := by
  unfold Filter.addData
  by_cases fits : 0 ≤ data ∧ data ≤ seccompRetData
  · rw [if_pos fits, if_neg (not_not.mpr fits)]
  · rw [if_neg fits, if_pos fits]
    exact Py.call_bind_error rfl

/-- Every method is `_add` with its action, behind a payload check where it takes one. -/
theorem RuleCall.call_body (machine : String) (c : RuleCall) (f : Filter) :
    (c.method.PayloadFits ∧ (c.body machine).call f =
      (Filter.add machine c.syscall c.method.action c.args).call f) ∨
    (¬ c.method.PayloadFits ∧ ∃ e, (c.body machine).call f = (.error e, f)) := by
  have checked : ∀ what action data, c.body machine =
        Filter.addData what action machine c.syscall data c.args →
      c.method.action = action.code ||| BitVec.ofInt 32 data →
      (c.method.PayloadFits ↔ 0 ≤ data ∧ data ≤ seccompRetData) →
      (c.method.PayloadFits ∧ (c.body machine).call f =
        (Filter.add machine c.syscall c.method.action c.args).call f) ∨
      (¬ c.method.PayloadFits ∧ ∃ e, (c.body machine).call f = (.error e, f)) := by
    intro what action data same act payload
    rw [same, act, payload, Filter.call_addData]
    by_cases fits : 0 ≤ data ∧ data ≤ seccompRetData
    · exact Or.inl ⟨fits, if_pos fits⟩
    · exact Or.inr ⟨fits, _, if_neg fits⟩
  obtain ⟨method, syscall, args⟩ := c
  cases method with
  | errno error => exact checked "errno" .errno error rfl rfl Iff.rfl
  | trace msg => exact checked "trace message" .trace msg rfl rfl Iff.rfl
  | allow => exact Or.inl ⟨trivial, rfl⟩
  | kill => exact Or.inl ⟨trivial, rfl⟩
  | killThread => exact Or.inl ⟨trivial, rfl⟩
  | trap => exact Or.inl ⟨trivial, rfl⟩
  | log => exact Or.inl ⟨trivial, rfl⟩
  | notify => exact Or.inl ⟨trivial, rfl⟩

/-- What a valid call adds: the number it is for, and its rule. -/
structure RuleCall.Adds (machine : String) (c : RuleCall) (nr : U32) (rule : Rule) : Prop where
  payload : c.method.PayloadFits
  syscall : syscallNr machine c.syscall = .ok nr
  conds : c.args.conds = .ok rule.args
  action : rule.action = c.method.action

theorem RuleCall.Adds.unique {machine : String} {c : RuleCall} {nr nr' : U32} {rule rule' : Rule}
    (adds : c.Adds machine nr rule) (adds' : c.Adds machine nr' rule') :
    nr = nr' ∧ rule = rule' := by
  obtain ⟨action, args⟩ := rule
  obtain ⟨action', args'⟩ := rule'
  cases adds.syscall.symm.trans adds'.syscall
  cases adds.conds.symm.trans adds'.conds
  cases adds.action.trans adds'.action.symm
  exact ⟨rfl, rfl⟩

/-- A call either adds its rule, or raises and leaves the filter alone; it raises
exactly on a loaded filter or when it has nothing valid to add. -/
theorem RuleCall.call_cases (machine : String) (c : RuleCall) (f : Filter) :
    (∃ nr rule, f.loaded = false ∧ c.Adds machine nr rule ∧
      (c.body machine).call f = (.ok (), f.withRule nr rule)) ∨
    (∃ e, (c.body machine).call f = (.error e, f)) ∧
      ¬ (f.loaded = false ∧ ∃ nr rule, c.Adds machine nr rule) := by
  rcases RuleCall.call_body machine c f with ⟨payload, same⟩ | ⟨unfit, raised⟩
  · rw [same]
    rcases Filter.call_add machine c.syscall c.method.action c.args f with
      ⟨nr, conds, unloaded, known, checked, done⟩ | ⟨raised, refused⟩
    · exact Or.inl ⟨nr, ⟨c.method.action, conds⟩, unloaded, ⟨payload, known, checked, rfl⟩, done⟩
    · refine Or.inr ⟨raised, fun ⟨unloaded, nr, rule, adds⟩ => refused ?_⟩
      exact ⟨unloaded, ⟨nr, adds.syscall⟩, rule.args, adds.conds⟩
  · exact Or.inr ⟨raised, fun ⟨_, _, _, adds⟩ => unfit adds.payload⟩

theorem RuleCall.Adds.call {machine : String} {c : RuleCall} {nr : U32} {rule : Rule} {f : Filter}
    (adds : c.Adds machine nr rule) (unloaded : f.loaded = false) :
    (c.body machine).call f = (.ok (), f.withRule nr rule) := by
  rcases RuleCall.call_cases machine c f with ⟨nr', rule', -, adds', done⟩ | ⟨-, refused⟩
  · obtain ⟨rfl, rfl⟩ := adds.unique adds'
    exact done
  · exact absurd ⟨unloaded, nr, rule, adds⟩ refused

theorem RuleCall.exists_adds_iff (machine : String) (c : RuleCall) :
    (∃ nr rule, c.Adds machine nr rule) ↔
      c.syscall.Known machine ∧ c.method.PayloadFits ∧ c.args.Completes ∧
        ∀ item ∈ c.args.raws, ∃ r, item = some r ∧ r.Valid := by
  constructor
  · intro given
    rcases given with ⟨nr, rule, adds⟩
    obtain ⟨completes, given, same, -⟩ := Args.conds_ok adds.conds
    exact ⟨(syscallNr_ok adds.syscall).1, adds.payload, completes, Args.raws_valid same⟩
  · intro given
    rcases given with ⟨known, payload, completes, valid⟩
    obtain ⟨nr, resolved⟩ := syscallNr_of_known known
    obtain ⟨conds, checked⟩ := Args.conds_of_valid completes valid
    exact ⟨nr, ⟨c.method.action, conds⟩, payload, resolved, checked, rfl⟩

theorem perm_sortConds (conds : List ArgCmp) : (sortConds conds).Perm conds :=
  List.perm_insertionSort _ conds

/-- Rule methods accept exactly the valid rules and are atomic: a successful call
appends one rule to the list of its syscall number and drops the cached program, a
failing one changes nothing. -/
theorem RuleCall.accepts_exactly (machine : String) (f : Filter) (c : RuleCall) :
    ((∃ f', (c.body machine).call f = (.ok (), f')) ↔
      f.loaded = false ∧ c.syscall.Known machine ∧ c.method.PayloadFits ∧ c.args.Completes ∧
        ∀ item ∈ c.args.raws, ∃ r, item = some r ∧ r.Valid) ∧
    (∀ f', (c.body machine).call f = (.ok (), f') →
      ∃ nr conds, c.syscall.Denotes machine nr ∧
        (conds.map fun cond => some cond.raw).Perm c.args.raws ∧
        f'.rules.bucket nr = f.rules.bucket nr ++ [⟨c.method.action, conds⟩] ∧
        (∀ other, other ≠ nr → f'.rules.get? other = f.rules.get? other) ∧
        f'.rules.keys = (if nr ∈ f.rules.keys then f.rules.keys else f.rules.keys ++ [nr]) ∧
        f'.cached = none ∧ f'.default = f.default ∧ f'.flags = f.flags ∧
        f'.loaded = f.loaded) ∧
    ∀ e f', (c.body machine).call f = (.error e, f') → f' = f := by
  rcases RuleCall.call_cases machine c f with
    ⟨nr, rule, unloaded, adds, done⟩ | ⟨⟨e, raised⟩, refused⟩
  · refine ⟨⟨fun _ => ⟨unloaded, (exists_adds_iff machine c).mp ⟨nr, rule, adds⟩⟩,
      fun _ => ⟨_, done⟩⟩, ?_, ?_⟩
    · intro f' result
      rw [done] at result
      cases result
      obtain ⟨-, given, same, sorted⟩ := Args.conds_ok adds.conds
      refine ⟨nr, rule.args, (syscallNr_ok adds.syscall).2, ?_, ?_, ?_, ?_, rfl, rfl, rfl, rfl⟩
      · rw [← same, sorted]
        exact (perm_sortConds given).map _
      · rw [← adds.action]
        simp [Filter.withRule, Dict.bucket_appendTo]
      · intro other ne
        exact Dict.get?_set_ne _ _ ne
      · simp only [Filter.withRule, Dict.appendTo]
        split
        · next present => exact Dict.keys_set_of_mem _ present
        · next absent => exact Dict.keys_set_of_not_mem _ absent
    · intro e f' result
      rw [done] at result
      cases result
  · refine ⟨⟨?_, ?_⟩, ?_, ?_⟩
    · intro given
      rcases given with ⟨f', result⟩
      rw [raised] at result
      cases result
    · intro given
      rcases given with ⟨unloaded, valid⟩
      exact absurd ⟨unloaded, (exists_adds_iff machine c).mpr valid⟩ refused
    · intro f' result
      rw [raised] at result
      cases result
    · intro e' f' result
      rw [raised] at result
      cases result
      rfl

end Seccompy
