import Seccompy.Filter.History

/-!
# Loaded means enforced

A load that returns, or leaves `loaded` set, is to have installed the program exactly
once, and one that has not installed it is to raise and leave `loaded` clear.  That
holds after every history in which no load was answered with the id of a thread that
could not be synchronised; after such an answer it never holds again
(`load_enforced_iff`).
-/

namespace Seccompy

open Lib Bpf

def Event.isInstalled : Event → Bool
  | .installed .. => true
  | _ => false

/-- What the kernel has installed. -/
def Session.installs (s : Session) : List Event := s.log.filter Event.isInstalled

/-- What is asked of the outcome of a load. -/
structure Enforced (machine : String) (result : Except PyExc (Option Listener)) (s : Session) :
    Prop where
  once : (∃ listener, result = .ok listener) ∨ s.filter.loaded = true →
    ∃ program, ((Filter.program machine).call s.filter).1 = .ok program ∧
      s.installs = [.installed program s.filter.flags]
  otherwise : s.installs = [] → (∃ e, result = .error e) ∧ s.filter.loaded = false

/-- The load gets as far as the call of `seccomp`, and the first answer that is not an
interruption is the id of a thread. -/
structure Unsynced (p : Platform) (a : LoadAnswers) (f : Filter) : Prop where
  unloaded : f.loaded = false
  linux : p.linux = true
  privileged : ∃ r, decisiveReply a.prctl = some r ∧ r.ret ≠ -1
  small : ∃ audit, auditArch p.machine = .ok audit ∧ f.recordCount audit ≤ 4096
  answered : ∃ tid, decisive a.seccomp = some (.notSynced tid)

/-- The operation is not a load that is answered with the id of a thread. -/
def InSync (p : Platform) (s : Session) (op : FilterOp) : Prop :=
  ∀ a, op = .load a → ¬ Unsynced p a s.filter

theorem unsynced_iff {p : Platform} {a : LoadAnswers} {f : Filter}
    (coherent : Coherent p.machine f) :
    Unsynced p a f ↔ ∃ program tid, Ready p a f program ∧
      accepted p program a.seccomp = .ok (.notSynced tid) := by
  constructor
  · intro given
    rcases given with ⟨unloaded, linux, replied, ⟨audit, known, few⟩, tid, answered⟩
    obtain ⟨program, compiled, -⟩ := f.compile_ok audit known (by omega)
    refine ⟨program, tid, ⟨unloaded, ?_, coherent.trans compiled⟩, ?_⟩
    · rw [privileges, getLibc, if_pos linux, ok_bind]
      exact (prctlLoop_ok_iff a.prctl).mpr replied
    · refine (accepted_iff compiled).mpr ⟨linux, ⟨audit, known, few⟩, answered, ?_⟩
      intro errno is
      cases is
  · intro given
    rcases given with ⟨program, tid, ⟨unloaded, privileged, current⟩, ok⟩
    have compiled : f.compile p.machine = .ok program := coherent.symm.trans current
    obtain ⟨linux, small, answered, -⟩ := (accepted_iff compiled).mp ok
    rw [privileges, getLibc, if_pos linux, ok_bind] at privileged
    exact ⟨unloaded, linux, (prctlLoop_ok_iff a.prctl).mp privileged, small, tid, answered⟩

/-- Before a filter is loaded: an operation leaves it so and installs nothing, or loads
and installs it, or is a load that is not in sync and installs nothing. -/
theorem Does.unloaded_cases {p : Platform} {s s' : Session} {op : FilterOp}
    (does : Does p s op s') (coherent : Coherent p.machine s.filter)
    (unloaded : s.filter.loaded = false) :
    (s'.filter.loaded = false ∧ s'.installs = s.installs) ∨
    (∃ program, s'.filter = { s.filter with cached := some program, loaded := true } ∧
      s'.installs = s.installs ++ [.installed program s.filter.flags]) ∨
    (¬ InSync p s op ∧ s'.filter.loaded = true ∧ s'.installs = s.installs) := by
  cases does with
  | added => exact .inl ⟨unloaded, rfl⟩
  | rejected => exact .inl ⟨unloaded, rfl⟩
  | read => exact .inl ⟨unloaded, rfl⟩
  | unread => exact .inl ⟨unloaded, rfl⟩
  | @load a _ _ loads =>
    cases loads with
    | already => exact .inl ⟨unloaded, rfl⟩
    | unprivileged => exact .inl ⟨unloaded, rfl⟩
    | uncompiled => exact .inl ⟨unloaded, by simp [Session.installs, Event.isInstalled]⟩
    | refused => exact .inl ⟨unloaded, by simp [Session.installs, Event.isInstalled]⟩
    | @returned program answer ready ok =>
      cases answer with
      | installed ret =>
        refine .inr (.inl ⟨program, rfl, ?_⟩)
        rw [Session.installs, List.filter_append]
        rfl
      | refused errno =>
        have compiled := coherent.symm.trans ready.current
        exact absurd rfl (((accepted_iff compiled).mp ok).2.2.2 errno)
      | notSynced tid =>
        refine .inr (.inr ⟨fun sync => ?_, rfl, ?_⟩)
        · exact sync a rfl ((unsynced_iff coherent).mpr ⟨program, tid, ready, ok⟩)
        · simp [Session.installs, Event.isInstalled, Install.events]

theorem Frozen.installs {machine : String} {s s' : Session} (frozen : Frozen machine s s') :
    s'.installs = s.installs := by
  rw [Session.installs, Session.installs, frozen.log]

/-- Nothing is installed before the filter is loaded. -/
structure Clear (machine : String) (s : Session) : Prop where
  coherent : Coherent machine s.filter
  unloaded : s.filter.loaded = false → s.installs = []

theorem Clear.step {p : Platform} {s : Session} {op : FilterOp} (clear : Clear p.machine s) :
    Clear p.machine (op.step p s).2 := by
  have does := op.step_does p s
  refine ⟨clear.coherent.step, fun unloaded' => ?_⟩
  cases loaded : s.filter.loaded with
  | true =>
    rw [(does.frozen loaded).loaded, loaded] at unloaded'
    cases unloaded'
  | false =>
    rcases does.unloaded_cases clear.coherent loaded with ⟨-, same⟩ | ⟨program, filter, -⟩ |
      ⟨-, loaded', -⟩
    · exact same.trans (clear.unloaded loaded)
    · rw [filter] at unloaded'
      cases unloaded'
    · rw [loaded'] at unloaded'
      cases unloaded'

theorem Clear.start (machine : String) {default flags : Int} {f : Filter}
    (created : Filter.init default flags = .ok f) : Clear machine ⟨f, []⟩ := by
  obtain ⟨-, -, -, uncached, -⟩ := Filter.init_ok created
  refine ⟨?_, fun _ => rfl⟩
  rw [Coherent, Filter.current, uncached]

theorem history_clear {p : Platform} {s : Session} (ops : List FilterOp)
    (clear : Clear p.machine s) : Clear p.machine (history p ops s) :=
  after_keeps (P := fun _ _ => True) (fun _ _ _ kept => Clear.step kept) (fun _ _ _ _ => trivial)
    clear

/-! ## As long as every load is in sync -/

/-- `loaded` tells what the kernel has installed. -/
structure Honest (machine : String) (s : Session) : Prop extends Clear machine s where
  loaded : s.filter.loaded = true → ∃ program, s.filter.current machine = .ok program ∧
    s.installs = [.installed program s.filter.flags]

theorem Honest.step {p : Platform} {s : Session} {op : FilterOp} (honest : Honest p.machine s)
    (sync : InSync p s op) : Honest p.machine (op.step p s).2 := by
  have does := op.step_does p s
  refine ⟨honest.toClear.step, fun loaded' => ?_⟩
  cases loaded : s.filter.loaded with
  | true =>
    have frozen := does.frozen loaded
    rw [frozen.installs, frozen.flags, frozen.current]
    exact honest.loaded loaded
  | false =>
    rcases does.unloaded_cases honest.coherent loaded with ⟨unloaded', -⟩ |
      ⟨program, filter, installs⟩ | ⟨lost, -⟩
    · rw [unloaded'] at loaded'
      cases loaded'
    · rw [filter, installs, honest.unloaded loaded]
      exact ⟨program, rfl, rfl⟩
    · exact absurd sync lost

/-- A load that returns has set `loaded`. -/
theorem Loads.loaded_of_ok {p : Platform} {a : LoadAnswers} {s s' : Session}
    {result : Except PyExc (Option Listener)} {listener : Option Listener}
    (loads : Loads p a s result s') (ok : result = .ok listener) : s'.filter.loaded = true := by
  cases loads with
  | returned => rfl
  | _ => cases ok

/-- A load that leaves an honest session is enforced. -/
theorem Loads.enforced {p : Platform} {a : LoadAnswers} {s s' : Session}
    {result : Except PyExc (Option Listener)} (loads : Loads p a s result s')
    (honest : Honest p.machine s') : Enforced p.machine result s' := by
  constructor
  · intro done
    have loaded : s'.filter.loaded = true := by
      rcases done with ⟨listener, ok⟩ | loaded
      · exact loads.loaded_of_ok ok
      · exact loaded
    rw [Filter.program_read]
    exact honest.loaded loaded
  · intro none
    have unloaded : s'.filter.loaded = false := by
      by_contra loaded
      obtain ⟨program, -, installs⟩ := honest.loaded (Bool.eq_true_of_not_eq_false loaded)
      rw [none] at installs
      cases installs
    cases result with
    | error e => exact ⟨⟨e, rfl⟩, unloaded⟩
    | ok listener =>
      rw [loads.loaded_of_ok rfl] at unloaded
      cases unloaded

/-! ## After a load that was not -/

/-- Loaded, and nothing installed. -/
def Lost (s : Session) : Prop := s.filter.loaded = true ∧ s.installs = []

theorem history_lost {p : Platform} {s : Session} (ops : List FilterOp) (lost : Lost s) :
    Lost (history p ops s) := by
  have frozen := history_frozen (p := p) ops lost.1
  exact ⟨frozen.loaded.trans lost.1, frozen.installs.trans lost.2⟩

theorem Unsynced.lost {p : Platform} {a : LoadAnswers} {s : Session}
    (unsynced : Unsynced p a s.filter) (clear : Clear p.machine s) :
    Lost ((FilterOp.load a).step p s).2 := by
  obtain ⟨program, tid, ready, ok⟩ := (unsynced_iff clear.coherent).mp unsynced
  rw [FilterOp.step_load, load_returned ready ok]
  refine ⟨rfl, ?_⟩
  have none := clear.unloaded ready.unloaded
  rw [Session.installs] at none ⊢
  rw [List.filter_append, none]
  rfl

/-! ## Every history -/

/-- Loaded means enforced, after a history and a load, exactly when no load so far, this
one included, got as far as the kernel and was answered with the id of a thread. -/
theorem load_enforced_iff (p : Platform) (default flags : Int) (f : Filter)
    (created : Filter.init default flags = .ok f) (ops : List FilterOp) (a : LoadAnswers)
    (s : Session) (reached : history p ops ⟨f, []⟩ = s) :
    Enforced p.machine ((Filter.load p a).call s).1 ((Filter.load p a).call s).2 ↔
      Throughout (FilterOp.step p) (InSync p) (ops ++ [.load a]) ⟨f, []⟩ := by
  subst reached
  have clear := Clear.start p.machine created
  have last : history p (ops ++ [.load a]) ⟨f, []⟩ =
      ((Filter.load p a).call (history p ops ⟨f, []⟩)).2 :=
    (after_append _ _ _).trans (FilterOp.step_load p a _)
  constructor
  · intro enforced before op behind split b is unsynced
    subst is
    have lost : Lost (history p behind
        ((FilterOp.load b).step p (history p before ⟨f, []⟩)).2) :=
      history_lost behind (unsynced.lost (history_clear before clear))
    have whole : history p (ops ++ [.load a]) ⟨f, []⟩ =
        history p behind ((FilterOp.load b).step p (history p before ⟨f, []⟩)).2 := by
      rw [split]
      exact after_append _ _ _
    rw [← whole, last] at lost
    have unloaded := (enforced.otherwise lost.2).2
    rw [lost.1] at unloaded
    cases unloaded
  · intro sync
    have honest : Honest p.machine (history p (ops ++ [.load a]) ⟨f, []⟩) := by
      refine after_keeps (fun op s sync honest => Honest.step honest sync) sync ⟨clear, ?_⟩
      intro loaded
      rw [(Filter.init_ok created).2.2.2.2] at loaded
      cases loaded
    rw [last] at honest
    exact (load_loads p a _).enforced honest

/-- A load is refused, and then repeated with one interruption on the way. -/
theorem load_enforced_iff_retried :
    ∃ f, Filter.init 0x7FFF0000 0 = .ok f ∧
      Enforced "x86_64"
        ((Filter.load ⟨"x86_64", true⟩ ⟨[⟨0, 0⟩], [.refused eintr, .installed 0],
          ⟨.ok expectedSizes, none, none⟩⟩).call (history ⟨"x86_64", true⟩
            [.load ⟨[⟨0, 0⟩], [.refused eacces], ⟨.ok expectedSizes, none, none⟩⟩] ⟨f, []⟩)).1
        ((Filter.load ⟨"x86_64", true⟩ ⟨[⟨0, 0⟩], [.refused eintr, .installed 0],
          ⟨.ok expectedSizes, none, none⟩⟩).call (history ⟨"x86_64", true⟩
            [.load ⟨[⟨0, 0⟩], [.refused eacces], ⟨.ok expectedSizes, none, none⟩⟩] ⟨f, []⟩)).2 := by
  refine ⟨⟨0x7FFF0000, 0, Dict.empty, none, false⟩, rfl, ?_⟩
  refine (load_enforced_iff ⟨"x86_64", true⟩ 0x7FFF0000 0 _ rfl _ _ _ rfl).mpr ?_
  refine Throughout.mono (fun s op sync => sync s)
    (.of_mem (Q := fun op => ∀ s, InSync ⟨"x86_64", true⟩ s op) fun op mem s => ?_)
  rcases List.mem_pair.mp mem with rfl | rfl
  · rintro a ⟨⟩ ⟨-, -, -, -, tid, answered⟩
    cases answered
  · rintro a ⟨⟩ ⟨-, -, -, -, tid, answered⟩
    cases answered

/-- With TSYNC, the kernel answers that thread 1234 could not be synchronised: `load`
returns and `loaded` is set, and nothing is installed. -/
theorem load_not_enforced_tsync :
    ∃ f r, Filter.init 0x7FFF0000 1 = .ok f ∧ (Install.notSynced 1234).Allowed f.flags ∧
      (Filter.load ⟨"x86_64", true⟩ ⟨[⟨0, 0⟩], [.notSynced 1234],
        ⟨.ok expectedSizes, none, none⟩⟩).call ⟨f, []⟩ = r ∧
      r.1 = .ok none ∧ r.2.filter.loaded = true ∧ r.2.installs = [] ∧
      ¬ Enforced "x86_64" r.1 r.2 := by
  let f : Filter := ⟨0x7FFF0000, 1, Dict.empty, none, false⟩
  have few : f.recordCount auditArchX86_64 ≤ 4096 := by decide
  obtain ⟨program, compiled, -⟩ := f.compile_ok auditArchX86_64 auditArch_x86_64 (by omega)
  have ready : Ready ⟨"x86_64", true⟩ ⟨[⟨0, 0⟩], [.notSynced 1234],
      ⟨.ok expectedSizes, none, none⟩⟩ f program := ⟨rfl, rfl, compiled⟩
  have ok : accepted ⟨"x86_64", true⟩ program [.notSynced 1234] = .ok (.notSynced 1234) :=
    (accepted_iff compiled).mpr ⟨rfl, ⟨auditArchX86_64, auditArch_x86_64, few⟩, rfl,
      fun errno is => by cases is⟩
  have loaded := load_returned (s := ⟨f, []⟩) ready ok
  refine ⟨f, _, rfl, ⟨by decide, by decide, by decide⟩, loaded, if_neg (by decide), rfl, rfl, ?_⟩
  intro enforced
  cases (enforced.otherwise rfl).2

end Seccompy
