import Seccompy.Filter.Handover
import Seccompy.Notify.Wire

/-!
# Without seccomp

A platform that is not Linux, or whose machine is in no table.  Every probe answers no
without asking the kernel, no listener can be made, and whatever is done with a filter it is
never loaded; the one trace a load can leave is `no_new_privs`, which is set before the
filter is compiled (`unsupported_platform`).
-/

namespace Seccompy

open Lib Bpf

/-- Not Linux, or a machine that is not known. -/
def Absent (p : Platform) : Prop := p.linux = false ∨ ∀ audit, auditArch p.machine ≠ .ok audit

/-! ## Calls -/

/-- A machine with a number for `seccomp` has an audit architecture. -/
theorem auditArch_known {p : Platform} {nr : Nat} (known : seccompNr p = .ok nr) :
    ∃ audit, auditArch p.machine = .ok audit := by
  unfold seccompNr archNr at known
  unfold auditArch native
  simp only [arches, sysSeccomp, List.lookup_cons, List.lookup_nil] at known ⊢
  revert known
  cases p.machine.toLower == "x86_64" with
  | true => exact fun _ => ⟨_, rfl⟩
  | false =>
    cases p.machine.toLower == "amd64" with
    | true => exact fun _ => ⟨_, rfl⟩
    | false =>
      cases p.machine.toLower == "aarch64" with
      | true => exact fun _ => ⟨_, rfl⟩
      | false =>
        cases p.machine.toLower == "arm64" with
        | true => exact fun _ => ⟨_, rfl⟩
        | false =>
          intro known
          cases known

section Calls

variable {p : Platform} (absent : Absent p)

include absent

theorem seccomp_absent {σ : Type} (attempts : List (Py σ Reply)) (s : σ) :
    ∃ msg, (seccomp p attempts).call s = (.error (.unsupported msg), s) := by
  unfold seccomp
  cases numbered : seccompNr p with
  | error e =>
    rw [Py.call_bind_error (Py.call_lift _ _)]
    simp only [seccompNr, archNr] at numbered
    split at numbered
    · cases numbered
    · cases numbered
      exact ⟨_, rfl⟩
  | ok nr =>
    obtain ⟨audit, known⟩ := auditArch_known numbered
    have linux : p.linux = false := absent.resolve_right fun unknown => unknown audit known
    rw [Py.call_bind_ok (Py.call_lift _ _), call, getLibc, linux]
    exact ⟨_, rfl⟩

theorem actionAvail_absent (k : ProbeReplies) (action : Int) :
    ∃ msg, (actionAvail p k action).call [] = (.error (.unsupported msg), []) :=
  seccomp_absent absent _ []

theorem probeFlag_absent (k : ProbeReplies) (flag : Int) :
    ∃ msg, (probeFlag p k flag).call [] = (.error (.unsupported msg), []) := by
  unfold probeFlag
  rw [Py.call_rescue]
  cases cInt flag with
  | ok word =>
    obtain ⟨msg, raised⟩ := seccomp_absent absent (sending word (k.setModeFilter word)) []
    rw [Py.call_bind_error raised]
    exact ⟨msg, rfl⟩
  | error e =>
    obtain ⟨msg, raised⟩ := seccomp_absent absent [(throw e : Py Received Reply)] []
    rw [Py.call_bind_error raised]
    exact ⟨msg, rfl⟩

/-- The probes say no, and the kernel receives nothing. -/
theorem probes_absent (k : ProbeReplies) :
    (supported p k).call [] = (.ok false, []) ∧
      (∀ action, (actionSupported p k action).call [] = (.ok false, [])) ∧
      ∀ flag, (flagSupported p k flag).call [] = (.ok false, []) := by
  refine ⟨?_, fun action => ?_, fun flag => ?_⟩
  · obtain ⟨msg, raised⟩ := actionAvail_absent absent k Action.allow.code.toNat
    obtain ⟨msg', raised'⟩ := probeFlag_absent absent k 0
    rw [supported, Py.call_rescue, Py.call_bind_error raised]
    show (Py.rescue _ _).call [] = _
    rw [Py.call_rescue, raised']
    rfl
  · obtain ⟨msg, raised⟩ := actionAvail_absent absent k action
    rw [actionSupported, Py.call_rescue, Py.call_bind_error raised]
    rfl
  · obtain ⟨msg, raised⟩ := probeFlag_absent absent k flag
    rw [flagSupported, Py.call_rescue, raised]
    rfl

theorem listener_absent (replies : List Reply) (filled : Bytes) (close inheritable : Option PyExc)
    (fd : Int) (listener : Listener) :
    Listener.make ⟨((sizes p replies filled).call []).1, close, inheritable⟩ fd ≠ .ok listener := by
  intro made
  obtain ⟨returned, -⟩ := Listener.make_ok_iff.mp made
  obtain ⟨msg, raised⟩ := seccomp_absent absent (sending 0 replies) []
  rw [sizes, notifSizes, Py.call_map, Py.call_map, raised] at returned
  cases returned

/-! ## Filters -/

theorem compile_absent {f : Filter} {program : Bytes} (linux : p.linux = true) :
    f.compile p.machine ≠ .ok program := by
  intro compiled
  obtain ⟨audit, known, -⟩ := bind_eq_ok.mp compiled
  have unknown := absent.resolve_left (by simp [linux])
  exact unknown audit known

end Calls

/-- Not loaded, and on Linux with nothing done but `set_no_new_privs`. -/
structure Idle (p : Platform) (s : Session) : Prop where
  coherent : Coherent p.machine s.filter
  unloaded : s.filter.loaded = false
  log : ∀ event ∈ s.log, event = .noNewPrivs ∧ p.linux = true

theorem load_not_linux {p : Platform} {a : LoadAnswers} {s : Session} (linux : p.linux = false)
    (unloaded : s.filter.loaded = false) : ((Filter.load p a).call s).2 = s := by
  have unprivileged : ∃ e, privileges p a.prctl = .error e := by
    rw [privileges, getLibc, linux]
    exact ⟨_, rfl⟩
  obtain ⟨e, raised⟩ := unprivileged
  unfold Filter.load
  rw [Py.call_bind_ok (Py.call_read _), unloaded,
    Py.call_bind_ok (Py.call_raiseIf_neg Bool.false_ne_true _ _),
    Py.call_bind_error (Session.onLog_eq (by rw [call_setNoNewPrivs, raised]))]

theorem Idle.load {p : Platform} {a : LoadAnswers} {s : Session} (absent : Absent p)
    (idle : Idle p s) : Idle p ((Filter.load p a).call s).2 := by
  cases linux : p.linux with
  | false =>
    rw [load_not_linux linux idle.unloaded]
    exact idle
  | true =>
    have uncompiled : ∀ program, s.filter.current p.machine ≠ .ok program := by
      intro program
      rw [idle.coherent]
      exact compile_absent absent linux
    have loads := load_loads p a s
    generalize (Filter.load p a).call s = done at loads ⊢
    obtain ⟨result, s'⟩ := done
    cases loads with
    | already => exact idle
    | unprivileged => exact idle
    | uncompiled =>
      refine ⟨idle.coherent, idle.unloaded, ?_⟩
      intro event mem
      rcases List.mem_append.mp mem with before | now
      · exact idle.log event before
      · exact ⟨List.mem_singleton.mp now, linux⟩
    | refused ready => exact absurd ready.current (uncompiled _)
    | returned ready => exact absurd ready.current (uncompiled _)

theorem Idle.step {p : Platform} {op : FilterOp} {s : Session} (absent : Absent p)
    (idle : Idle p s) : Idle p (op.step p s).2 := by
  have coherent : Coherent p.machine (op.step p s).2.filter := Coherent.step idle.coherent
  cases op with
  | rule c =>
    have does := (FilterOp.rule c).step_does p s
    generalize ((FilterOp.rule c).step p s).2 = s' at does coherent ⊢
    cases does with
    | added => exact ⟨coherent, idle.unloaded, idle.log⟩
    | rejected => exact idle
  | program =>
    have does := FilterOp.program.step_does p s
    generalize (FilterOp.program.step p s).2 = s' at does coherent ⊢
    cases does with
    | read => exact ⟨coherent, idle.unloaded, idle.log⟩
    | unread => exact idle
  | load a =>
    rw [FilterOp.step_load]
    exact idle.load absent

theorem history_idle {p : Platform} {s : Session} (absent : Absent p) (ops : List FilterOp)
    (idle : Idle p s) : Idle p (history p ops s) :=
  after_keeps (P := fun _ _ => True) (fun _ _ _ kept => Idle.step absent kept)
    (fun _ _ _ _ => trivial) idle

/-- On a platform without seccomp the probes answer no to every integer, without a call to
the kernel; no descriptor becomes a listener; and in every history of every filter no load
returns, the filter is never loaded and nothing happens but `set_no_new_privs`, and that
only on Linux. -/
theorem unsupported_platform {p : Platform} (absent : Absent p) :
    (∀ k, (supported p k).call [] = (.ok false, []) ∧
      (∀ action, (actionSupported p k action).call [] = (.ok false, [])) ∧
      ∀ flag, (flagSupported p k flag).call [] = (.ok false, [])) ∧
    (∀ replies filled close inheritable fd listener,
      Listener.make ⟨((sizes p replies filled).call []).1, close, inheritable⟩ fd ≠ .ok listener) ∧
    ∀ default flags f, Filter.init default flags = .ok f → ∀ ops,
      returned p ops ⟨f, []⟩ = [] ∧ (history p ops ⟨f, []⟩).filter.loaded = false ∧
        ∀ event ∈ (history p ops ⟨f, []⟩).log, event = .noNewPrivs ∧ p.linux = true := by
  refine ⟨probes_absent absent, listener_absent absent, ?_⟩
  intro default flags f created ops
  obtain ⟨-, -, -, uncached, unloaded⟩ := Filter.init_ok created
  have start : Idle p ⟨f, []⟩ := by
    refine ⟨?_, unloaded, fun event mem => by cases mem⟩
    rw [Coherent, Filter.current, uncached]
  obtain ⟨-, never, log⟩ := history_idle absent ops start
  refine ⟨?_, never, log⟩
  rcases history_handed (s := ⟨f, []⟩) ops unloaded with ⟨-, nothing⟩ |
    ⟨before, a, behind, ret, -, -, -, -, sets, -⟩
  · exact nothing
  · have set : .modeFilterSet ret ∈ (history p ops ⟨f, []⟩).sets := by
      rw [sets]
      simp
    cases (log _ (List.mem_of_mem_filter set)).1

/-- A machine that is in no table. -/
theorem unsupported_platform_riscv :
    ∃ f, Filter.init 0x7FFF0000 0 = .ok f ∧
      (history ⟨"riscv64", true⟩ [.load ⟨[⟨0, 0⟩], [.installed 0], ⟨.ok expectedSizes, none, none⟩⟩]
        ⟨f, []⟩).log = [.noNewPrivs] ∧
      returned ⟨"riscv64", true⟩
        [.load ⟨[⟨0, 0⟩], [.installed 0], ⟨.ok expectedSizes, none, none⟩⟩] ⟨f, []⟩ = [] := by
  have absent : Absent ⟨"riscv64", true⟩ := by
    refine .inr fun audit known => ?_
    have unknown : (auditArch "riscv64").toOption = none := by decide +kernel
    rw [known] at unknown
    cases unknown
  refine ⟨⟨0x7FFF0000, 0, Dict.empty, none, false⟩, rfl, by decide +kernel, ?_⟩
  exact ((unsupported_platform absent).2.2 0x7FFF0000 0 _ rfl _).1

end Seccompy
