import Seccompy.Filter.Policy
import Seccompy.Filter.Load

/-!
# From the rules to the supervisor

The calls that reach a supervisor are those whose first matching rule is a `notify`, and
those that match no rule when the default action is USER_NOTIF (`notifies_policy`); this is
so of whatever program a load installs (`installed_notifies`).
-/

namespace Seccompy

open Lib Bpf

/-! ## Verdicts that notify -/

/-- `SECCOMP_RET_ACTION_FULL`. -/
def retActionFull : U32 := 0xFFFF0000

/-- The kernel sends a call to the descriptor when the program's verdict, less its data, is
USER_NOTIF. -/
def Notifies (program : Bytes) (data : SeccompData) : Prop :=
  ∃ v, (packed program data.load).Halts ⟨0, 0⟩ (.ret v) ∧ v &&& retActionFull = Action.userNotif.code

/-- The policy asks for a notification. -/
def PolicyNotifies (machine : String) (audit default : U32) (calls : List RuleCall)
    (data : SeccompData) : Prop :=
  data.arch = audit ∧
    ((∃ c, calls.find? (·.matches machine data) = some c ∧ c.method = .notify) ∨
      (calls.find? (·.matches machine data) = none ∧
        default &&& retActionFull = Action.userNotif.code))

/-- The mask drops the 16 bits of a payload. -/
theorem payload_dropped (action : U32) {data : Int} (fits : 0 ≤ data ∧ data ≤ 65535) :
    (action ||| BitVec.ofInt 32 data) &&& retActionFull = action &&& retActionFull := by
  have word := toNat_ofInt_fits fits.1 (show data < 2 ^ 32 by omega)
  have small : (BitVec.ofInt 32 data).toNat < 2 ^ 16 := by omega
  have mask : ∀ i < 32, retActionFull.getLsbD i = decide (16 ≤ i) := by decide
  apply BitVec.eq_of_getLsbD_eq
  intro i inside
  rw [BitVec.getLsbD_and, BitVec.getLsbD_and, BitVec.getLsbD_or, mask i inside]
  by_cases high : 16 ≤ i
  · have clear : (BitVec.ofInt 32 data).getLsbD i = false := by
      rw [← BitVec.testBit_toNat]
      exact Nat.testBit_lt_two_pow (small.trans_le (Nat.pow_le_pow_right (by omega) high))
    rw [clear, Bool.or_false]
  · simp [high]

/-- Only `notify` makes the action of a notification. -/
theorem RuleMethod.action_notifies {m : RuleMethod} (fits : m.PayloadFits) :
    m.action &&& retActionFull = Action.userNotif.code ↔ m = .notify := by
  cases m with
  | errno error =>
    rw [RuleMethod.action, payload_dropped _ fits]
    simp only [reduceCtorEq, iff_false]
    decide
  | trace msg =>
    rw [RuleMethod.action, payload_dropped _ fits]
    simp only [reduceCtorEq, iff_false]
    decide
  | _ => decide

theorem addAll_payloads {machine : String} {calls : List RuleCall} {f f' : Filter}
    (ran : (addAll machine calls).call f = (.ok (), f')) :
    ∀ c ∈ calls, c.method.PayloadFits := by
  induction calls generalizing f with
  | nil => exact List.forall_mem_nil _
  | cons c calls ih =>
    obtain ⟨nr, rule, -, adds, rest⟩ := addAll_cons_ok ran
    exact List.forall_mem_cons.mpr ⟨adds.payload, ih rest⟩

section Built

variable {machine : String} {audit : U32} {d flags : Int} {start f : Filter}
  {calls : List RuleCall} {program : Bytes}

/-- The compiled program notifies exactly where the policy does. -/
theorem notifies_policy (supported : auditArch machine = .ok audit)
    (created : Filter.init d flags = .ok start)
    (built : (addAll machine calls).call start = (.ok (), f))
    (read : ((Filter.program machine).call f).1 = .ok program) (data : SeccompData) :
    Notifies program data ↔ PolicyNotifies machine audit (BitVec.ofInt 32 d) calls data := by
  have halts := built_halts supported created built read data 0
  have decided : Notifies program data ↔
      verdict machine audit (BitVec.ofInt 32 d) calls data &&& retActionFull =
        Action.userNotif.code := by
    constructor
    · rintro ⟨v, ran, is⟩
      cases halts.det ran
      exact is
    · intro is
      exact ⟨_, halts, is⟩
  rw [decided, verdict, PolicyNotifies]
  by_cases native : data.arch = audit
  · rw [if_neg (not_not.mpr native)]
    cases found : calls.find? (·.matches machine data) with
    | none => simp [native]
    | some c =>
      have fits := addAll_payloads built c (List.mem_of_find?_eq_some found)
      simp [native, RuleMethod.action_notifies fits]
  · rw [if_pos native]
    simp only [native, false_and, iff_false]
    decide

end Built

/-! ## What a load installs -/

/-- Whatever a load installs is the compiled program, under the filter's flags. -/
theorem Loads.installed {p : Platform} {a : LoadAnswers} {f : Filter} {s : Session}
    {result : Except PyExc (Option Listener)} {program : Bytes} {word : U32}
    (loads : Loads p a ⟨f, []⟩ result s) (mem : .installed program word ∈ s.log) :
    f.current p.machine = .ok program ∧ word = f.flags := by
  cases loads with
  | already _ => cases mem
  | unprivileged _ _ => cases mem
  | uncompiled _ _ => simp at mem
  | refused _ _ => simp at mem
  | @returned compiled answer ready _ =>
    cases answer with
    | installed ret =>
      simp only [Install.events, List.nil_append, List.mem_cons, List.mem_append, reduceCtorEq,
        false_or, or_false, Event.installed.injEq, List.not_mem_nil] at mem
      obtain ⟨rfl, rfl⟩ := mem
      exact ⟨ready.current, rfl⟩
    | refused errno => simp [Install.events] at mem
    | notSynced tid => simp [Install.events] at mem

/-- Rules and load together: whatever the kernel answers, a program that a load of the
filter installs notifies exactly where the policy asks for it. -/
theorem installed_notifies {p : Platform} {audit : U32}
    (supported : auditArch p.machine = .ok audit) {d flags : Int} {start f : Filter}
    (created : Filter.init d flags = .ok start) {calls : List RuleCall}
    (built : (addAll p.machine calls).call start = (.ok (), f)) (a : LoadAnswers)
    {program : Bytes} {word : U32}
    (installed : .installed program word ∈ ((Filter.load p a).call ⟨f, []⟩).2.log) :
    word = f.flags ∧ ∀ data, Notifies program data ↔
      PolicyNotifies p.machine audit (BitVec.ofInt 32 d) calls data := by
  obtain ⟨current, rfl⟩ := (load_loads p a ⟨f, []⟩).installed installed
  have read : ((Filter.program p.machine).call f).1 = .ok program := by
    rw [Filter.program_read]
    exact current
  exact ⟨rfl, notifies_policy supported created built read⟩

/-- `notify("mount")`, by number, and a killed call, on an allowing filter with a listener. -/
theorem installed_notifies_mount :
    ∃ f program, (addAll "x86_64" [⟨.kill, .nr 101, .none⟩, ⟨.notify, .nr 165, .none⟩]).call
        ⟨0x7FFF0000, 8, Dict.empty, none, false⟩ = (.ok (), f) ∧
      .installed program 8 ∈ ((Filter.load ⟨"x86_64", true⟩ ⟨[⟨0, 0⟩], [.refused eintr, .installed 5],
        ⟨.ok expectedSizes, none, none⟩⟩).call ⟨f, []⟩).2.log ∧
      ∀ data, Notifies program data ↔ PolicyNotifies "x86_64" auditArchX86_64 0x7FFF0000
        [⟨.kill, .nr 101, .none⟩, ⟨.notify, .nr 165, .none⟩] data := by
  let start : Filter := ⟨0x7FFF0000, 8, Dict.empty, none, false⟩
  let f := (start.withRule 101 ⟨Action.killProcess.code, []⟩).withRule 165 ⟨Action.userNotif.code, []⟩
  let a : LoadAnswers := ⟨[⟨0, 0⟩], [.refused eintr, .installed 5], ⟨.ok expectedSizes, none, none⟩⟩
  have created : Filter.init 0x7FFF0000 8 = .ok start := rfl
  have built : (addAll "x86_64" [⟨.kill, .nr 101, .none⟩, ⟨.notify, .nr 165, .none⟩]).call start =
      (.ok (), f) := rfl
  have few : f.recordCount auditArchX86_64 ≤ 4096 := by decide
  obtain ⟨bytes, compiled, -⟩ := f.compile_ok auditArchX86_64 auditArch_x86_64 (by omega)
  have ready : Ready ⟨"x86_64", true⟩ a f bytes := ⟨rfl, rfl, compiled⟩
  have ok : accepted ⟨"x86_64", true⟩ bytes a.seccomp = .ok (.installed 5) :=
    (accepted_iff compiled).mpr ⟨rfl, ⟨auditArchX86_64, auditArch_x86_64, few⟩, rfl,
      fun errno is => by cases is⟩
  have installed : .installed bytes 8 ∈ ((Filter.load ⟨"x86_64", true⟩ a).call ⟨f, []⟩).2.log := by
    rw [load_returned (s := ⟨f, []⟩) ready ok]
    simp [Install.events, f, start, Filter.withRule]
  exact ⟨f, bytes, built, installed, (installed_notifies (p := ⟨"x86_64", true⟩) auditArch_x86_64
    created built a installed).2⟩

end Seccompy
