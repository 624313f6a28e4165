import Seccompy.Filter.Correct
import Seccompy.Lib.Operations

/-!
# Foreign ABIs

On x86_64 a syscall comes from another ABI when its `arch` differs, or when bit 30
of its number marks an x32 entry, which has the native `arch`.  The program checks
the first only.  A policy that names no x32 number has no rule for one, so an x32
entry gets the default action, whatever was denied.
-/

namespace Seccompy

open Lib Bpf

/-- The x32 bit of a syscall number. -/
def x32Bit : Nat := 30

/-- Entered through an ABI other than the native one; the number -1 belongs to none. -/
def SeccompData.NonNative (d : SeccompData) : Prop :=
  d.arch ≠ auditArchX86_64 ∨
    d.arch = auditArchX86_64 ∧ d.nr.getLsbD x32Bit = true ∧ d.nr ≠ 0xFFFFFFFF

/-- The call names no raw number with the x32 bit. -/
def RuleCall.AvoidsX32 (c : RuleCall) : Prop :=
  ∀ n, c.syscall = .nr n → n.toNat.testBit x32Bit = false

/-- The filter after a sequence of calls, of which some may have raised. -/
def tryAll (machine : String) (calls : List RuleCall) (f : Filter) : Filter :=
  after (fun c : RuleCall => (c.body machine).call) calls f

/-- What adding a rule keeps, a sequence of calls keeps. -/
theorem tryAll_keeps {machine : String} {I : Filter → Prop} {P : RuleCall → Prop}
    (adding : ∀ f c nr rule, P c → c.Adds machine nr rule → I f → I (f.withRule nr rule))
    {calls : List RuleCall} (each : ∀ c ∈ calls, P c) {f : Filter} (start : I f) :
    I (tryAll machine calls f) := by
  refine after_keeps (fun c f holds kept => ?_) (.of_mem each) start
  rcases RuleCall.call_cases machine c f with ⟨nr, rule, -, adds, done⟩ | ⟨⟨e, raised⟩, -⟩
  · rw [done]
    exact adding f c nr rule holds adds kept
  · rw [raised]
    exact kept

/-- A call that avoids x32 numbers adds its rule elsewhere. -/
theorem RuleCall.Adds.avoids {machine : String} {c : RuleCall} {nr : U32} {rule : Rule}
    (adds : c.Adds machine nr rule) (avoids : c.AvoidsX32) : nr.getLsbD x32Bit = false := by
  rw [← BitVec.testBit_toNat]
  have denotes := (syscallNr_ok adds.syscall).2
  cases named : c.syscall with
  | nr n =>
    rw [named] at denotes
    have same : n = nr.toNat := denotes
    have clear := avoids n named
    rw [same] at clear
    simpa using clear
  | name s =>
    rw [named] at denotes
    obtain ⟨row, known, mem⟩ := denotes
    exact Nat.testBit_lt_two_pow (table_lt known mem)

/-- A policy of such calls has no rule for an x32 number. -/
theorem tryAll_avoids {machine : String} {calls : List RuleCall}
    (avoids : ∀ c ∈ calls, c.AvoidsX32) {f : Filter} (start : f.rules = Dict.empty) {nr : U32}
    (x32 : nr.getLsbD x32Bit = true) : (tryAll machine calls f).rules.bucket nr = [] := by
  refine tryAll_keeps (I := fun f => f.rules.bucket nr = []) ?_ avoids (by rw [start]; rfl)
  intro f c nr' rule avoid adds empty
  have clear := adds.avoids avoid
  have other : nr ≠ nr' := by
    rintro rfl
    rw [x32] at clear
    cases clear
  simp only [Filter.withRule, Dict.bucket_appendTo, if_neg other]
  exact empty

theorem tryAll_frame (machine : String) (calls : List RuleCall) {f : Filter}
    (start : f.cached = none) :
    (tryAll machine calls f).default = f.default ∧ (tryAll machine calls f).cached = none := by
  refine tryAll_keeps (P := fun _ => True)
    (I := fun g => g.default = f.default ∧ g.cached = none) ?_ (fun _ _ => trivial) ⟨rfl, start⟩
  intro g c nr rule _ _ kept
  exact ⟨kept.1, rfl⟩

/-- What a foreign syscall gets: killed for its `arch`, else the default action. -/
theorem foreign_halts {machine : String} (native : auditArch machine = .ok auditArchX86_64)
    {d flags : Int} {start : Filter} (created : Filter.init d flags = .ok start)
    {calls : List RuleCall} (avoids : ∀ c ∈ calls, c.AvoidsX32) {bytes : Bytes}
    (read : ((Filter.program machine).call (tryAll machine calls start)).1 = .ok bytes)
    {data : SeccompData} (foreign : data.NonNative) (acc : U32) :
    (packed bytes data.load).Halts ⟨0, acc⟩
      (.ret (if data.arch = auditArchX86_64 then BitVec.ofInt 32 d
        else Action.killProcess.code)) := by
  obtain ⟨default, -, empty, uncached, -⟩ := Filter.init_ok created
  obtain ⟨sameDefault, uncached'⟩ := tryAll_frame machine calls uncached
  rw [Filter.program_uncached uncached'] at read
  have halts := Filter.compile_halts (tryAll machine calls start) auditArchX86_64 native read data acc
  by_cases same : data.arch = auditArchX86_64
  · have x32 : data.nr.getLsbD x32Bit = true := by
      rcases foreign with other | ⟨-, set, -⟩
      · exact absurd same other
      · exact set
    rw [if_pos same, tryAll_avoids avoids empty x32, sameDefault] at halts
    have word : BitVec.ofInt 32 d = start.default := by
      rw [← default]
      simp
    rw [if_pos same, word]
    exact halts
  · rw [if_neg same] at halts ⊢
    exact halts

/-- A foreign syscall is killed exactly when its `arch` gives it away or the default
action kills. -/
theorem foreign_killed_iff (machine : String) (native : auditArch machine = .ok auditArchX86_64)
    (d flags : Int) (start : Filter) (created : Filter.init d flags = .ok start)
    (calls : List RuleCall) (avoids : ∀ c ∈ calls, c.AvoidsX32) (bytes : Bytes)
    (read : ((Filter.program machine).call (tryAll machine calls start)).1 = .ok bytes)
    (data : SeccompData) (foreign : data.NonNative) (acc : U32) :
    (packed bytes data.load).Halts ⟨0, acc⟩ (.ret Action.killProcess.code) ↔
      data.arch ≠ auditArchX86_64 ∨ d = Action.killProcess.code.toNat := by
  have halts := foreign_halts native created avoids read foreign acc
  by_cases same : data.arch = auditArchX86_64
  · rw [if_pos same] at halts
    obtain ⟨default, -⟩ := Filter.init_ok created
    have word : BitVec.ofInt 32 d = start.default := by
      rw [← default]
      simp
    constructor
    · intro killed
      right
      have equal := Outcome.ret.inj (Machine.Halts.det halts killed)
      rw [← default, ← word, equal]
    · intro given
      rcases given with other | kill
      · exact absurd same other
      · rw [kill] at halts
        exact halts
  · rw [if_neg same] at halts
    exact ⟨fun _ => Or.inl same, fun _ => halts⟩

/-- `kill(101)`: no `ptrace`. -/
def denyPtrace : RuleCall := ⟨.kill, .nr 101, .none⟩

def allowByDefault : Filter := ⟨0x7FFF0000, 0, Dict.empty, none, false⟩

theorem denyPtrace_avoids : ∀ c ∈ [denyPtrace], c.AvoidsX32 := by
  intro c mem n named
  rw [List.mem_singleton.mp mem] at named
  cases named
  decide

theorem denyPtrace_program :
    ∃ bytes, ((Filter.program "x86_64").call (tryAll "x86_64" [denyPtrace] allowByDefault)).1 =
      .ok bytes := by
  obtain ⟨bytes, compiled, -⟩ := Filter.compile_ok (tryAll "x86_64" [denyPtrace] allowByDefault)
    auditArchX86_64 auditArch_x86_64 (by decide)
  exact ⟨bytes, (Filter.program_uncached rfl).trans compiled⟩

/-- An entry with another `arch` is killed. -/
theorem foreign_killed_iff_other_arch :
    ∃ bytes, ((Filter.program "x86_64").call (tryAll "x86_64" [denyPtrace] allowByDefault)).1 =
        .ok bytes ∧
      (packed bytes (SeccompData.load ⟨26, 0x40000003, 0, fun _ => 0⟩)).Halts ⟨0, 0⟩
        (.ret Action.killProcess.code) := by
  obtain ⟨bytes, read⟩ := denyPtrace_program
  refine ⟨bytes, read, (foreign_killed_iff "x86_64" auditArch_x86_64 0x7FFF0000 0 allowByDefault rfl
    [denyPtrace] denyPtrace_avoids bytes read ⟨26, 0x40000003, 0, fun _ => 0⟩ ?_ 0).mpr ?_⟩
  · exact Or.inl (by decide)
  · exact Or.inl (by decide)

/-- The x32 form of the denied call is let through. -/
theorem foreign_not_killed_x32 :
    ∃ bytes, ((Filter.program "x86_64").call (tryAll "x86_64" [denyPtrace] allowByDefault)).1 =
        .ok bytes ∧
      SeccompData.NonNative ⟨0x40000065, auditArchX86_64, 0, fun _ => 0⟩ ∧
      (packed bytes (SeccompData.load ⟨0x40000065, auditArchX86_64, 0, fun _ => 0⟩)).Halts ⟨0, 0⟩
        (.ret Action.allow.code) ∧
      ¬ (packed bytes (SeccompData.load ⟨0x40000065, auditArchX86_64, 0, fun _ => 0⟩)).Halts ⟨0, 0⟩
        (.ret Action.killProcess.code) := by
  obtain ⟨bytes, read⟩ := denyPtrace_program
  have foreign : SeccompData.NonNative ⟨0x40000065, auditArchX86_64, 0, fun _ => 0⟩ :=
    Or.inr ⟨rfl, by decide, by decide⟩
  have halts := foreign_halts auditArch_x86_64 (rfl : Filter.init 0x7FFF0000 0 = .ok allowByDefault)
    denyPtrace_avoids read foreign 0
  rw [if_pos rfl] at halts
  refine ⟨bytes, read, foreign, halts, fun killed => ?_⟩
  have equal := Outcome.ret.inj (Machine.Halts.det halts killed)
  revert equal
  decide

end Seccompy
