import Seccompy.Filter.History

/-!
# The one load that counts

In a history of a filter `set_mode_filter` returns at most once.  The load in which it does
is the only one that can return, and the listener it wraps is the only one that is ever
handed over; if its constructor raises, the filter stays in force without a supervisor, and
no later load can make up for it (`listener_handed_once`).
-/

namespace Seccompy

open Lib Bpf

/-- What the loads of a sequence returned. -/
def returned (p : Platform) : List FilterOp → Session → List (Option Listener)
  | [], _ => []
  | op :: ops, s =>
    match op with
    | .load a => ((Filter.load p a).call s).1.toOption.toList ++ returned p ops (op.step p s).2
    | _ => returned p ops (op.step p s).2

def Event.isSet : Event → Bool
  | .modeFilterSet _ => true
  | _ => false

/-- The returns of `set_mode_filter`. -/
def Session.sets (s : Session) : List Event := s.log.filter Event.isSet

/-! ## Once the filter is loaded -/

theorem load_again {p : Platform} {a : LoadAnswers} {s : Session}
    (loaded : s.filter.loaded = true) :
    (Filter.load p a).call s = (.error (.runtimeError "filter is already loaded"), s) := by
  unfold Filter.load
  rw [Py.call_bind_ok (Py.call_read _), loaded]
  rfl

theorem returned_loaded {p : Platform} (ops : List FilterOp) {s : Session}
    (loaded : s.filter.loaded = true) : returned p ops s = [] := by
  induction ops generalizing s with
  | nil => rfl
  | cons op ops ih =>
    have rest := ih (((op.step_does p s).frozen loaded).loaded.trans loaded)
    cases op with
    | rule c => exact rest
    | program => exact rest
    | load a =>
      rw [returned, rest, load_again loaded]
      rfl

/-! ## Before it is -/

/-- An operation on a filter that is not loaded: `set_mode_filter` does not return and
neither does a load, or it returns in a load that hands over what it can. -/
theorem FilterOp.step_unloaded (p : Platform) (op : FilterOp) {s : Session}
    (unloaded : s.filter.loaded = false) :
    ((op.step p s).2.filter.loaded = false ∧ (op.step p s).2.filter.flags = s.filter.flags ∧
      (op.step p s).2.sets = s.sets ∧
      ∀ ops, returned p (op :: ops) s = returned p ops (op.step p s).2) ∨
    ∃ a ret, op = .load a ∧ (op.step p s).2.filter.loaded = true ∧
      (op.step p s).2.sets = s.sets ++ [.modeFilterSet ret] ∧
      ((Filter.load p a).call s).1 = handed a.listener s.filter.flags ret := by
  have does := op.step_does p s
  cases op with
  | rule c =>
    have rest : ∀ ops, returned p (.rule c :: ops) s = returned p ops ((FilterOp.rule c).step p s).2 :=
      fun _ => rfl
    generalize ((FilterOp.rule c).step p s).2 = s' at does rest ⊢
    cases does with
    | added => exact .inl ⟨unloaded, rfl, rfl, rest⟩
    | rejected => exact .inl ⟨unloaded, rfl, rfl, rest⟩
  | program =>
    have rest : ∀ ops, returned p (.program :: ops) s = returned p ops (FilterOp.program.step p s).2 :=
      fun _ => rfl
    generalize (FilterOp.program.step p s).2 = s' at does rest ⊢
    cases does with
    | read => exact .inl ⟨unloaded, rfl, rfl, rest⟩
    | unread => exact .inl ⟨unloaded, rfl, rfl, rest⟩
  | load a =>
    have loads := load_loads p a s
    rw [FilterOp.step_load]
    rcases ran : (Filter.load p a).call s with ⟨result, s'⟩
    have raised : ∀ {e}, result = .error e → ∀ ops,
        returned p (.load a :: ops) s = returned p ops s' := by
      rintro e rfl ops
      rw [returned, ran, FilterOp.step_load, ran]
      rfl
    rw [ran] at loads
    cases loads with
    | already => exact .inl ⟨unloaded, rfl, rfl, raised rfl⟩
    | unprivileged => exact .inl ⟨unloaded, rfl, rfl, raised rfl⟩
    | uncompiled => exact .inl ⟨unloaded, rfl, by simp [Session.sets, Event.isSet], raised rfl⟩
    | refused => exact .inl ⟨unloaded, rfl, by simp [Session.sets, Event.isSet], raised rfl⟩
    | @returned program answer ready ok =>
      refine .inr ⟨a, answer.reply.ret, rfl, rfl, ?_, congrArg Prod.fst ran⟩
      have none : (answer.events program s.filter.flags).filter Event.isSet = [] := by
        cases answer <;> rfl
      simp [Session.sets, Event.isSet, none]

theorem history_handed {p : Platform} (ops : List FilterOp) {s : Session}
    (unloaded : s.filter.loaded = false) :
    ((history p ops s).sets = s.sets ∧ returned p ops s = []) ∨
    ∃ before a behind ret, ops = before ++ .load a :: behind ∧
      (history p before s).filter.loaded = false ∧ (history p before s).sets = s.sets ∧
      (history p (before ++ [.load a]) s).sets = s.sets ++ [.modeFilterSet ret] ∧
      (history p ops s).sets = s.sets ++ [.modeFilterSet ret] ∧
      ((Filter.load p a).call (history p before s)).1 = handed a.listener s.filter.flags ret ∧
      returned p ops s = ((Filter.load p a).call (history p before s)).1.toOption.toList := by
  induction ops generalizing s with
  | nil => exact .inl ⟨rfl, rfl⟩
  | cons op ops ih =>
    rcases op.step_unloaded p unloaded with ⟨unloaded', flags, sets, rest⟩ |
      ⟨a, ret, rfl, loaded, sets, hands⟩
    · rcases ih unloaded' with ⟨none, nothing⟩ |
        ⟨before, a, behind, ret, rfl, first, unset, set, stays, hands, only⟩
      · exact .inl ⟨none.trans sets, (rest ops).trans nothing⟩
      · refine .inr ⟨op :: before, a, behind, ret, rfl, first, ?_, ?_, ?_, ?_, ?_⟩
        · rw [← sets]
          exact unset
        · rw [← sets]
          exact set
        · rw [← sets]
          exact stays
        · rw [← flags]
          exact hands
        · rw [rest]
          exact only
    · refine .inr ⟨[], a, ops, ret, rfl, unloaded, rfl, sets, ?_, hands, ?_⟩
      · have frozen := (history_frozen (p := p) ops loaded).log
        rw [← sets, Session.sets, Session.sets, ← frozen]
        rfl
      · rw [returned, returned_loaded ops loaded, List.append_nil]
        rfl

theorem mem_handed {env : InitEnv} {flags : U32} {ret : Int} {listener : Listener} :
    some listener ∈ (handed env flags ret).toOption.toList ↔
      hasFlag flags flagNewListener = true ∧ env.sizes = .ok expectedSizes ∧
        env.setInheritable = none ∧ listener = ⟨ret, false, []⟩ := by
  rw [← Listener.make_ok_iff, handed]
  cases flag : hasFlag flags flagNewListener with
  | false => simp [Except.toOption]
  | true =>
    cases made : Listener.make env ret with
    | error e => simp [Except.toOption]
    | ok made => simp [Except.toOption, eq_comm]

/-- Every history of a filter has at most one load in which `set_mode_filter` returns.  If
there is none, no load returned.  Else nothing but what that load returned was ever handed
over: a listener, open and on the descriptor that the kernel returned, exactly when
NEW_LISTENER is set, the sizes match and the descriptor could be made non-inheritable. -/
theorem listener_handed_once (p : Platform) (default flags : Int) (f : Filter)
    (created : Filter.init default flags = .ok f) (ops : List FilterOp) :
    ((history p ops ⟨f, []⟩).sets = [] ∧ returned p ops ⟨f, []⟩ = []) ∨
    ∃ before a behind ret, ops = before ++ .load a :: behind ∧
      (history p before ⟨f, []⟩).filter.loaded = false ∧
      (history p before ⟨f, []⟩).sets = [] ∧
      (history p (before ++ [.load a]) ⟨f, []⟩).sets = [.modeFilterSet ret] ∧
      (history p ops ⟨f, []⟩).sets = [.modeFilterSet ret] ∧
      returned p ops ⟨f, []⟩ =
        ((Filter.load p a).call (history p before ⟨f, []⟩)).1.toOption.toList ∧
      (returned p ops ⟨f, []⟩).length ≤ 1 ∧
      ∀ listener, some listener ∈ returned p ops ⟨f, []⟩ ↔
        hasFlag (BitVec.ofInt 32 flags) flagNewListener = true ∧
          a.listener.sizes = .ok expectedSizes ∧ a.listener.setInheritable = none ∧
          listener = ⟨ret, false, []⟩ := by
  obtain ⟨-, word, -, -, unloaded⟩ := Filter.init_ok created
  have same : BitVec.ofInt 32 flags = f.flags := by
    rw [← word]
    simp
  rcases history_handed (s := ⟨f, []⟩) ops unloaded with nothing |
    ⟨before, a, behind, ret, split, first, unset, set, stays, hands, only⟩
  · exact .inl nothing
  · refine .inr ⟨before, a, behind, ret, split, first, unset, set, stays, only, ?_,
      fun listener => ?_⟩
    · rw [only]
      exact Option.length_toList_le
    · rw [only, hands, same]
      exact mem_handed

/-- An interrupted load with NEW_LISTENER, and another after it. -/
theorem listener_handed_once_retried :
    ∃ f, Filter.init 0x7FFF0000 8 = .ok f ∧
      returned ⟨"x86_64", true⟩ [.load ⟨[⟨0, 0⟩], [], ⟨.ok expectedSizes, none, none⟩⟩,
        .load ⟨[⟨0, 0⟩], [.installed 5], ⟨.ok expectedSizes, none, none⟩⟩] ⟨f, []⟩ =
        [some ⟨5, false, []⟩] := by
  let f : Filter := ⟨0x7FFF0000, 8, Dict.empty, none, false⟩
  let ops : List FilterOp := [.load ⟨[⟨0, 0⟩], [], ⟨.ok expectedSizes, none, none⟩⟩,
    .load ⟨[⟨0, 0⟩], [.installed 5], ⟨.ok expectedSizes, none, none⟩⟩]
  have set : (history ⟨"x86_64", true⟩ ops ⟨f, []⟩).sets = [.modeFilterSet 5] := by decide +kernel
  refine ⟨f, rfl, ?_⟩
  rcases listener_handed_once ⟨"x86_64", true⟩ 0x7FFF0000 8 f rfl ops with ⟨none, -⟩ |
    ⟨before, a, behind, ret, split, -, -, -, sets, -, few, hands⟩
  · cases none.symm.trans set
  · cases set.symm.trans sets
    have clean : a.listener = ⟨.ok expectedSizes, none, none⟩ := by
      have inside : FilterOp.load a ∈ ops := by
        rw [split]
        simp
      simp only [ops, List.mem_cons, FilterOp.load.injEq, List.not_mem_nil, or_false] at inside
      rcases inside with rfl | rfl <;> rfl
    have handed := (hands ⟨5, false, []⟩).mpr ⟨by decide, by rw [clean], by rw [clean], rfl⟩
    obtain ⟨only, is⟩ := List.length_eq_one_iff.mp
      (le_antisymm few (List.length_pos_of_mem handed))
    rw [is, List.mem_singleton] at handed
    rw [handed]
    exact is

end Seccompy
