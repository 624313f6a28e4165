import Seccompy.Bpf.Reference
import Seccompy.Filter.Size

/-!
# The oracle of the comparison tests

`data_for` and `run_rule` of `tests/test_cmp.py`: synthetic call data, and a filter with
one rule run over it by `run_packed`.  The bytes `data_for` packs are the kernel's struct
(`dataFor_eq`), so the interpreter gives the verdict of the policy for every filter and
every sample (`oracle_verdict`), and `run_rule` answers by the comparison of the two
integers (`ruleRun_exact`).
-/

namespace Seccompy

open Lib Bpf

/-! ## Synthetic call data -/

/-- `struct.pack_into`: the bytes replace as many at the offset. -/
def packInto (data : Bytes) (offset : Nat) (bytes : Bytes) : Except PyExc Bytes :=
  if offset + bytes.length ≤ data.length then
    .ok (data.take offset ++ bytes ++ data.drop (offset + bytes.length))
  else .error .structError

/-- `struct.pack("<i", v)`. -/
def packSigned (v : Int) : Except PyExc Bytes :=
  if -2 ^ 31 ≤ v ∧ v < 2 ^ 31 then .ok (toLE 4 (BitVec.ofInt 32 v).toNat)
  else .error .structError

/-- `struct.pack("<Q", v)`. -/
def packUnsigned (v : Int) : Except PyExc Bytes :=
  if 0 ≤ v ∧ v < 2 ^ 64 then .ok (toLE 8 v.toNat) else .error .structError

/-- The loop of `data_for`, from argument `i` on. -/
def packArgs (i : Nat) : List Int → Bytes → Except PyExc Bytes
  | [], data => .ok data
  | arg :: args, data => do
    let data ← packInto data (16 + 8 * i) (← packUnsigned arg)
    packArgs (i + 1) args data

def dataFor (machine : String) (nr : Int) (args : List Int) : Except PyExc Bytes := do
  let data ← packInto (List.replicate 64 0) 0 (← packSigned nr)
  let data ← packInto data 4 (toLE 4 (← auditArch machine).toNat)
  packArgs 0 args data

/-- A number of 32 bits, six arguments at most, of 64 bits each. -/
def Sampled (nr : Int) (args : List Int) : Prop :=
  (-2 ^ 31 ≤ nr ∧ nr < 2 ^ 31) ∧ args.length ≤ 6 ∧ ∀ arg ∈ args, 0 ≤ arg ∧ arg < 2 ^ 64

instance (nr : Int) (args : List Int) : Decidable (Sampled nr args) := by
  unfold Sampled
  infer_instance

/-- The call the data stand for; arguments not given are zero. -/
def sample (audit : U32) (nr : Int) (args : List Int) : SeccompData :=
  ⟨BitVec.ofInt 32 nr, audit, 0, fun i => BitVec.ofInt 64 (args[i.val]?.getD 0)⟩

/-- The first `n` arguments in memory. -/
def slots (n : Nat) (args : List Int) : Bytes :=
  (List.finRange n).flatMap fun i => toLE 8 (BitVec.ofInt 64 (args[i.val]?.getD 0)).toNat

theorem slots_cons (n : Nat) (arg : Int) (args : List Int) :
    slots (n + 1) (arg :: args) = toLE 8 (BitVec.ofInt 64 arg).toNat ++ slots n args := by
  rw [slots, List.finRange_succ, List.flatMap_cons, List.flatMap_map]
  rfl

theorem slots_nil (n : Nat) : slots n [] = List.replicate (8 * n) 0 := by
  induction n with
  | zero => rfl
  | succ n ih =>
    have zero : toLE 8 (BitVec.ofInt 64 0).toNat = List.replicate 8 0 := by decide
    rw [slots, List.finRange_succ, List.flatMap_cons, List.flatMap_map, Nat.mul_succ,
      Nat.add_comm (8 * n) 8, List.replicate_add, ← ih, slots]
    simp only [List.getElem?_nil, Option.getD_none, zero]

/-- Writing at the end of what is written. -/
theorem packInto_zeros {written field : Bytes} {offset n : Nat} (at_end : written.length = offset)
    (fits : field.length ≤ n) :
    packInto (written ++ List.replicate n 0) offset field =
      .ok ((written ++ field) ++ List.replicate (n - field.length) 0) := by
  subst at_end
  rw [packInto, if_pos (by simpa using fits), List.take_left, ← List.drop_drop, List.drop_left,
    List.drop_replicate]

/-- The loop fills the free slots in order, and raises at an argument that is no 64-bit
word or has no slot left. -/
theorem packArgs_eq {i n : Nat} {written : Bytes} (at_end : written.length = 16 + 8 * i)
    (args : List Int) :
    packArgs i args (written ++ List.replicate (8 * n) 0) =
      if args.length ≤ n ∧ ∀ arg ∈ args, 0 ≤ arg ∧ arg < 2 ^ 64 then .ok (written ++ slots n args)
      else .error .structError := by
  induction args generalizing i n written with
  | nil =>
    rw [packArgs, slots_nil, if_pos ⟨Nat.zero_le n, by simp⟩]
  | cons arg args ih =>
    rw [packArgs, packUnsigned]
    by_cases word : 0 ≤ arg ∧ arg < 2 ^ 64
    · have bytes : toLE 8 arg.toNat = toLE 8 (BitVec.ofInt 64 arg).toNat := by
        have same := toNat_ofInt_fits word.1 word.2
        rw [← same, Int.toNat_natCast, same]
      rw [if_pos word, ok_bind]
      cases n with
      | zero =>
        rw [if_neg (by simp), packInto, if_neg (by simp [at_end])]
        rfl
      | succ n =>
        rw [packInto_zeros at_end (by simp), ok_bind, length_toLE,
          show 8 * (n + 1) - 8 = 8 * n by omega,
          ih (by rw [List.length_append, at_end, length_toLE]; omega), slots_cons, bytes,
          List.append_assoc]
        simp only [List.length_cons, Nat.add_le_add_iff_right, List.forall_mem_cons, word,
          true_and]
    · rw [if_neg word, if_neg fun fits => word (fits.2 arg List.mem_cons_self)]
      rfl

/-- `data_for` packs the kernel's struct, or raises on what the struct cannot hold. -/
theorem dataFor_eq {machine : String} {audit : U32} (supported : auditArch machine = .ok audit)
    (nr : Int) (args : List Int) :
    dataFor machine nr args =
      if Sampled nr args then .ok (sample audit nr args).bytes else .error .structError := by
  rw [dataFor, packSigned]
  by_cases signed : -2 ^ 31 ≤ nr ∧ nr < 2 ^ 31
  · have first : packInto (List.replicate 64 0) 0 (toLE 4 (BitVec.ofInt 32 nr).toNat) =
        .ok (toLE 4 (BitVec.ofInt 32 nr).toNat ++ List.replicate 60 0) :=
      @packInto_zeros [] _ 0 64 rfl (by simp)
    have second : packInto (toLE 4 (BitVec.ofInt 32 nr).toNat ++ List.replicate 60 0) 4
          (toLE 4 audit.toNat) =
        .ok ((toLE 4 (BitVec.ofInt 32 nr).toNat ++ toLE 4 audit.toNat) ++ List.replicate 56 0) :=
      packInto_zeros (by simp) (by simp)
    -- The instruction pointer stays zero.
    have header : List.replicate 56 (0 : Byte) = toLE 8 0 ++ List.replicate (8 * 6) 0 := by decide
    rw [if_pos signed, ok_bind, first, ok_bind, supported, ok_bind, second, ok_bind, header,
      ← List.append_assoc, packArgs_eq (by simp)]
    simp only [Sampled, signed, true_and]
    rfl
  · rw [if_neg signed, if_neg fun sampled => signed sampled.1]
    rfl

/-! ## The oracle -/

/-- The interpreter reads the struct as the kernel does. -/
theorem wordAt_bytes (d : SeccompData) : wordAt d.bytes = d.load := by
  funext k
  rw [wordAt, readWord_eq, SeccompData.load]

section Built

variable {machine : String} {audit : U32} {d flags : Int} {start f : Filter}
  {calls : List RuleCall} {program : Bytes}

/-- `run_packed` on the program of a filter that was built by calls. -/
theorem built_runs (supported : auditArch machine = .ok audit)
    (created : Filter.init d flags = .ok start)
    (built : (addAll machine calls).call start = (.ok (), f))
    (read : ((Filter.program machine).call f).1 = .ok program) (data : SeccompData) :
    (runPacked program data.bytes).Halts (0, 0)
      (.ok (verdict machine audit (BitVec.ofInt 32 d) calls data).toNat) := by
  have halts := built_halts supported created built read data 0
  rw [← wordAt_bytes] at halts
  exact Machine.Halts.map (runPacked_lockstep program data.bytes) halts

/-- What a test of a filter computes: the program run over sampled data. -/
def Samples (machine : String) (program : Bytes) (nr : Int) (args : List Int)
    (result : Except PyExc Nat) : Prop :=
  match dataFor machine nr args with
  | .error e => result = .error e
  | .ok data => (runPacked program data).Halts (0, 0) result

/-- A sample that is a call is answered with the verdict, and with nothing else. -/
theorem samples_iff (supported : auditArch machine = .ok audit)
    (created : Filter.init d flags = .ok start)
    (built : (addAll machine calls).call start = (.ok (), f))
    (read : ((Filter.program machine).call f).1 = .ok program) (nr : Int) (args : List Int)
    (result : Except PyExc Nat) :
    Samples machine program nr args result ↔
      result = if Sampled nr args then
          .ok (verdict machine audit (BitVec.ofInt 32 d) calls (sample audit nr args)).toNat
        else .error .structError := by
  unfold Samples
  rw [dataFor_eq supported]
  by_cases sampled : Sampled nr args
  · rw [if_pos sampled, if_pos sampled]
    have halts := built_runs supported created built read (sample audit nr args)
    constructor
    · intro ran
      exact ran.det halts
    · intro is
      rw [is]
      exact halts
  · rw [if_neg sampled, if_neg sampled]

/-- The oracle of the tests, on every filter that was built by calls.  `data_for` returns the
struct of the call the sample stands for, or raises if there is none; and `run_packed` on the
program and these data ends with the verdict of the calls, and with nothing else. -/
theorem oracle_verdict (supported : auditArch machine = .ok audit)
    (created : Filter.init d flags = .ok start)
    (built : (addAll machine calls).call start = (.ok (), f))
    (read : ((Filter.program machine).call f).1 = .ok program) (nr : Int) (args : List Int) :
    (Sampled nr args →
      dataFor machine nr args = .ok (sample audit nr args).bytes ∧
      ∀ result, (runPacked program (sample audit nr args).bytes).Halts (0, 0) result ↔
        result = .ok (verdict machine audit (BitVec.ofInt 32 d) calls (sample audit nr args)).toNat) ∧
    (¬ Sampled nr args → dataFor machine nr args = .error .structError) := by
  have packs := dataFor_eq supported nr args
  refine ⟨fun sampled => ?_, fun unsampled => ?_⟩
  · rw [if_pos sampled] at packs
    refine ⟨packs, fun result => ?_⟩
    have answers := samples_iff supported created built read nr args result
    rw [Samples, packs, if_pos sampled] at answers
    exact answers
  · rw [if_neg unsampled] at packs
    exact packs

end Built

/-- `read` allowed for two arguments and everything else killed: a sampled `read`, and one with
seven arguments. -/
theorem oracle_verdict_read :
    ∃ f program, (addAll "x86_64" [readByNumber]).call ⟨0x80000000, 0, Dict.empty, none, false⟩ =
        (.ok (), f) ∧
      ((Filter.program "x86_64").call f).1 = .ok program ∧
      (runPacked program (sample auditArchX86_64 0 [3, 5]).bytes).Halts (0, 0) (.ok 0x7FFF0000) ∧
      dataFor "x86_64" 0 [3, 5, 0, 0, 0, 0, 0] = .error .structError := by
  let start : Filter := ⟨0x80000000, 0, Dict.empty, none, false⟩
  let f := start.withRule 0
    ⟨Action.allow.code, [⟨0, .eq, 3, BitVec.allOnes 64, rfl⟩, ⟨1, .eq, 5, BitVec.allOnes 64, rfl⟩]⟩
  obtain ⟨program, -, compiled, -⟩ := @Filter.fits f _ _ auditArch_x86_64 (by decide)
  have read : ((Filter.program "x86_64").call f).1 = .ok program :=
    (Filter.program_uncached rfl).trans compiled
  have oracle := @oracle_verdict "x86_64" auditArchX86_64 0x80000000 0 start f [readByNumber]
    program auditArch_x86_64 rfl rfl read
  refine ⟨f, program, rfl, read, ?_, (oracle 0 [3, 5, 0, 0, 0, 0, 0]).2 (by decide)⟩
  exact (((oracle 0 [3, 5]).1 (by decide)).2 _).mpr rfl

/-! ## One rule -/

/-- `errno.EIO`. -/
def eio : Int := 5

/-- The program of `run_rule`: everything is allowed, but `write` fails under one condition. -/
def ruleProgram (machine : String) (op : CmpOp) (value mask : Int) : Except PyExc Bytes := do
  let filt ← Filter.init Action.allow.code.toNat 0
  let cond ← ArgCmp.init 0 op.toInt value mask
  let (added, filt) := (Filter.errno machine (.name "write") eio (.sequence [.cmp cond])).call filt
  added
  ((Filter.program machine).call filt).1

/-- `run_rule(op, value, arg, mask)` ends with the result. -/
def RuleRun (machine : String) (op : CmpOp) (value arg mask : Int) (result : Except PyExc Nat) :
    Prop :=
  match do
    let program ← ruleProgram machine op value mask
    let nr ← syscallNr machine (.name "write")
    return (program, nr) with
  | .error e => result = .error e
  | .ok (program, nr) => Samples machine program nr.toNat [arg] result

section Rule

variable {machine : String} {audit : U32}

theorem write_known (supported : auditArch machine = .ok audit) :
    ∃ nr : U32, syscallNr machine (.name "write") = .ok nr ∧ nr.toNat < 2 ^ 30 := by
  obtain ⟨row, known, -⟩ := bind_eq_ok.mp supported
  have listed : ∃ n, row.table.lookup "write" = some n := by
    rcases native_ok known with rfl | rfl
    · exact ⟨1, rfl⟩
    · exact ⟨64, rfl⟩
  obtain ⟨n, found⟩ := listed
  have small := table_lt known (mem_of_lookup found)
  refine ⟨BitVec.ofNat 32 n, ?_, ?_⟩
  · simp only [syscallNr, known, ok_bind, found]
    rfl
  · rw [BitVec.toNat_ofNat, Nat.mod_eq_of_lt (by omega)]
    exact small

/-- The call `run_rule` makes. -/
def ruleCall (cond : ArgCmp) : RuleCall := ⟨.errno eio, .name "write", .sequence [.cmp cond]⟩

def allowing : Filter := ⟨Action.allow.code, 0, Dict.empty, none, false⟩

theorem init_allowing : Filter.init Action.allow.code.toNat 0 = .ok allowing := rfl

/-- The rule is added, and its program is short. -/
theorem ruleCall_built (supported : auditArch machine = .ok audit) (cond : ArgCmp) :
    ∃ f program, ((ruleCall cond).body machine).call allowing = (.ok (), f) ∧
      (addAll machine [ruleCall cond]).call allowing = (.ok (), f) ∧
      ((Filter.program machine).call f).1 = .ok program := by
  obtain ⟨nr, resolved, -⟩ := write_known supported
  have adds : (ruleCall cond).Adds machine nr ⟨(ruleCall cond).method.action, [cond]⟩ :=
    ⟨⟨by decide, by decide⟩, resolved, rfl, rfl⟩
  have added := adds.call (f := allowing) rfl
  have cheap : (allowing.withRule nr ⟨(ruleCall cond).method.action, [cond]⟩).cost ≤ 4096 := by
    have cost : (allowing.withRule nr ⟨(ruleCall cond).method.action, [cond]⟩).cost =
        6 + (2 + (cond.op.cost + 1 + 1)) := rfl
    rw [cost]
    cases cond.op <;> decide
  obtain ⟨program, -, compiled, -⟩ := Filter.fits supported cheap
  refine ⟨_, program, added, ?_, ?_⟩
  · rw [addAll_cons, Py.call_bind_ok added]
    rfl
  · rw [Filter.program_uncached rfl, compiled]

/-- The verdict of the one rule. -/
theorem verdict_ruleCall {nr : U32} (resolved : syscallNr machine (.name "write") = .ok nr)
    (cond : ArgCmp) (d : SeccompData) (same : d.nr = nr) (native : d.arch = audit) :
    verdict machine audit Action.allow.code [ruleCall cond] d =
      if cond.raw.holds d.args then 0x50005 else 0x7FFF0000 := by
  have taken : (ruleCall cond).matches machine d = cond.raw.holds d.args := by
    simp [RuleCall.matches, ruleCall, resolved, same, Except.toOption, Args.raws, ArgCond.raw]
  unfold verdict
  rw [if_neg (not_not.mpr native), List.find?_cons, taken]
  cases cond.raw.holds d.args with
  | true => rfl
  | false => rfl

theorem holds_sample {op value mask : Int} (nr : Int) {arg : Int} (least : 0 ≤ arg)
    (most : arg < 2 ^ 64) :
    RawCond.holds ⟨0, op, value, mask⟩ (sample audit nr [arg]).args =
      RawCond.test ⟨0, op, value, mask⟩ arg.toNat := by
  have same := toNat_ofInt_fits least most
  have first : ((sample audit nr [arg]).args 0).toNat = arg.toNat := by
    show (BitVec.ofInt 64 arg).toNat = arg.toNat
    omega
  rw [← first]
  rfl

/-- `run_rule` gives one answer for any integers: `ERRNO | EIO` when the argument satisfies
the comparison, `ALLOW` when it does not, and an exception exactly when the condition is no
valid `ArgCmp` or the argument no 64-bit word. -/
theorem ruleRun_exact (supported : auditArch machine = .ok audit) (op : CmpOp)
    (value arg mask : Int) :
    ∃ answer, (∀ result, RuleRun machine op value arg mask result ↔ result = answer) ∧
      ((⟨0, op.toInt, value, mask⟩ : RawCond).Valid ∧ 0 ≤ arg ∧ arg < 2 ^ 64 →
        answer = .ok (if RawCond.test ⟨0, op.toInt, value, mask⟩ arg.toNat then 0x50005
          else 0x7FFF0000)) ∧
      (¬ ((⟨0, op.toInt, value, mask⟩ : RawCond).Valid ∧ 0 ≤ arg ∧ arg < 2 ^ 64) →
        ∃ e, answer = .error e) := by
  obtain ⟨nr, resolved, small⟩ := write_known supported
  cases checked : ArgCmp.init 0 op.toInt value mask with
  | error e =>
    have invalid : ¬ (⟨0, op.toInt, value, mask⟩ : RawCond).Valid := by
      intro valid
      obtain ⟨cond, built⟩ := ArgCmp.init_of_valid valid
      cases checked.symm.trans built
    have raised : ruleProgram machine op value mask = .error e := by
      rw [ruleProgram, init_allowing, ok_bind, checked]
      rfl
    refine ⟨.error e, fun result => ?_, fun given => absurd given.1 invalid, fun _ => ⟨e, rfl⟩⟩
    rw [RuleRun, raised]
    rfl
  | ok cond =>
    have raw := ArgCmp.init_ok checked
    have valid : (⟨0, op.toInt, value, mask⟩ : RawCond).Valid := raw ▸ cond.raw_valid
    obtain ⟨f, program, added, built, read⟩ := ruleCall_built supported cond
    have compiled : ruleProgram machine op value mask = .ok program := by
      rw [ruleProgram, init_allowing, ok_bind, checked, ok_bind,
        show (Filter.errno machine (.name "write") eio (.sequence [.cmp cond])).call allowing =
          (.ok (), f) from added]
      exact read
    have answers := samples_iff supported init_allowing built read nr.toNat [arg]
    have runs : ∀ result, RuleRun machine op value arg mask result ↔
        Samples machine program nr.toNat [arg] result := by
      intro result
      rw [RuleRun, compiled, ok_bind, resolved, ok_bind]
      rfl
    refine ⟨_, fun result => (runs result).trans (answers result), fun given => ?_,
      fun refused => ?_⟩
    · obtain ⟨-, word⟩ := given
      have sampled : Sampled nr.toNat [arg] := ⟨by omega, by simp, by simpa using word⟩
      have number : (sample audit nr.toNat [arg]).nr = nr := by simp [sample]
      have native : (sample audit nr.toNat [arg]).arch = audit := rfl
      have default : BitVec.ofInt 32 (Action.allow.code.toNat : Int) = Action.allow.code := rfl
      rw [if_pos sampled, default, verdict_ruleCall resolved cond _ number native, raw,
        holds_sample _ word.1 word.2]
      cases RawCond.test ⟨0, op.toInt, value, mask⟩ arg.toNat with
      | true => rfl
      | false => rfl
    · have unsampled : ¬ Sampled nr.toNat [arg] := by
        intro sampled
        exact refused ⟨valid, sampled.2.2 arg (by simp)⟩
      exact ⟨_, if_neg unsampled⟩

/-- `run_rule(CmpOp.GT, 0xFFFFFFFF, 0x100000000)`: the high word decides. -/
theorem ruleRun_exact_gt :
    RuleRun "x86_64" .gt 0xFFFFFFFF 0x100000000 0xFFFFFFFFFFFFFFFF (.ok 0x50005) := by
  obtain ⟨answer, only, holds, -⟩ := ruleRun_exact auditArch_x86_64 .gt 0xFFFFFFFF 0x100000000
    0xFFFFFFFFFFFFFFFF
  have valid := (⟨0, .gt, 0xFFFFFFFF, BitVec.allOnes 64, rfl⟩ : ArgCmp).raw_valid
  rw [only, holds ⟨valid, by decide⟩]
  rfl

end Rule

end Seccompy
