import Seccompy.Filter.Load

/-!
# Histories of a filter

A filter from its creation through any sequence of rule calls, reads of `program` and
loads, each of which may raise.  The cache never goes stale, what a load passes to the
kernel is what the rules added so far compile to, and nothing changes once
`set_mode_filter` has returned (`filter_history`).
-/

namespace Seccompy

open Lib Bpf

inductive FilterOp
  | rule (c : RuleCall)
  | program
  | load (a : LoadAnswers)

def FilterOp.body (p : Platform) : FilterOp → Py Session Unit
  | .rule c => Session.onFilter (c.body p.machine)
  | .program => do let _ ← Session.onFilter (Filter.program p.machine)
  | .load a => do let _ ← Filter.load p a

def FilterOp.step (p : Platform) (op : FilterOp) (s : Session) : Except PyExc Unit × Session :=
  (op.body p).call s

/-- The session a sequence of operations leaves. -/
def history (p : Platform) (ops : List FilterOp) (s : Session) : Session :=
  after (FilterOp.step p) ops s

/-- The rule calls of a sequence that returned. -/
def added (p : Platform) : List FilterOp → Session → List RuleCall
  | [], _ => []
  | op :: ops, s =>
    match op, (op.step p s).1 with
    | .rule c, .ok () => c :: added p ops (op.step p s).2
    | _, _ => added p ops (op.step p s).2

/-! ## Everything an operation can do -/

inductive Does (p : Platform) (s : Session) : FilterOp → Session → Prop
  | added {c : RuleCall} {nr : U32} {rule : Rule} (unloaded : s.filter.loaded = false)
    (adds : c.Adds p.machine nr rule) : Does p s (.rule c) ⟨s.filter.withRule nr rule, s.log⟩
  | rejected {c : RuleCall} : Does p s (.rule c) s
  | read {program : Bytes} (current : s.filter.current p.machine = .ok program) :
    Does p s .program ⟨{ s.filter with cached := some program }, s.log⟩
  | unread : Does p s .program s
  | load {a : LoadAnswers} {result : Except PyExc (Option Listener)} {s' : Session}
    (loads : Loads p a s result s') : Does p s (.load a) s'

theorem FilterOp.step_does (p : Platform) (op : FilterOp) (s : Session) :
    Does p s op (op.step p s).2 := by
  unfold FilterOp.step
  cases op with
  | rule c =>
    rcases RuleCall.call_cases p.machine c s.filter with ⟨nr, rule, unloaded, adds, done⟩ |
      ⟨⟨e, raised⟩, -⟩
    · rw [FilterOp.body, Session.onFilter_eq done]
      exact .added unloaded adds
    · rw [FilterOp.body, Session.onFilter_eq raised]
      exact .rejected
  | program =>
    have call := Filter.call_program p.machine s.filter
    rw [FilterOp.body, Py.call_discard]
    cases current : s.filter.current p.machine with
    | error e =>
      rw [current] at call
      rw [Session.onFilter_eq call]
      exact .unread
    | ok bytes =>
      rw [current] at call
      rw [Session.onFilter_eq call]
      exact .read current
  | load a =>
    rw [FilterOp.body, Py.call_discard]
    exact .load (load_loads p a s)

theorem FilterOp.step_load (p : Platform) (a : LoadAnswers) (s : Session) :
    ((FilterOp.load a).step p s).2 = ((Filter.load p a).call s).2 := by
  rw [FilterOp.step, FilterOp.body, Py.call_discard]

/-- What an operation does to the filter alone. -/
theorem Does.filter {p : Platform} {s s' : Session} {op : FilterOp} (does : Does p s op s') :
    (s'.filter = s.filter) ∨
    (∃ c nr rule, op = .rule c ∧ s.filter.loaded = false ∧ c.Adds p.machine nr rule ∧
      s'.filter = s.filter.withRule nr rule) ∨
    (∃ program loaded, s.filter.current p.machine = .ok program ∧
      s'.filter = { s.filter with cached := some program, loaded := loaded }) := by
  cases does with
  | added unloaded adds => exact .inr (.inl ⟨_, _, _, rfl, unloaded, adds, rfl⟩)
  | rejected => exact .inl rfl
  | read current => exact .inr (.inr ⟨_, s.filter.loaded, current, rfl⟩)
  | unread => exact .inl rfl
  | load loads =>
    cases loads with
    | already => exact .inl rfl
    | unprivileged => exact .inl rfl
    | uncompiled => exact .inl rfl
    | refused ready => exact .inr (.inr ⟨_, s.filter.loaded, ready.current, rfl⟩)
    | returned ready => exact .inr (.inr ⟨_, true, ready.current, rfl⟩)

/-! ## The cache -/

/-- A read of `program` gives what compiling now would give. -/
def Coherent (machine : String) (f : Filter) : Prop := f.current machine = f.compile machine

/-- Compiling looks at the default action and the rules alone. -/
theorem Filter.compile_congr (machine : String) {f f' : Filter} (default : f'.default = f.default)
    (rules : f'.rules = f.rules) : f'.compile machine = f.compile machine := by
  unfold Filter.compile Filter.code
  rw [default, rules]

theorem Coherent.step {p : Platform} {s : Session} {op : FilterOp}
    (coherent : Coherent p.machine s.filter) : Coherent p.machine (op.step p s).2.filter := by
  rcases (op.step_does p s).filter with same | ⟨c, nr, rule, -, -, -, added⟩ |
    ⟨program, loaded, current, cached⟩
  · rw [same]
    exact coherent
  · rw [added]
    rfl
  · rw [cached]
    exact current.symm.trans coherent

theorem history_coherent (p : Platform) (ops : List FilterOp) {s : Session}
    (coherent : Coherent p.machine s.filter) : Coherent p.machine (history p ops s).filter :=
  after_keeps (I := fun s : Session => Coherent p.machine s.filter) (P := fun _ _ => True)
    (fun _ _ _ kept => kept.step) (fun _ _ _ _ => trivial) coherent

/-! ## The rules -/

theorem addAll_append {machine : String} {calls more : List RuleCall} {f g : Filter}
    (ran : (addAll machine calls).call f = (.ok (), g)) :
    (addAll machine (calls ++ more)).call f = (addAll machine more).call g := by
  induction calls generalizing f with
  | nil =>
    cases ran
    rfl
  | cons c calls ih =>
    obtain ⟨nr, rule, unloaded, adds, rest⟩ := addAll_cons_ok ran
    rw [← ih rest, List.cons_append, addAll_cons, Py.call_bind_ok (adds.call unloaded)]

/-- The filter has the rules that the calls add to a fresh one. -/
def Replays (machine : String) (fresh : Filter) (calls : List RuleCall) (f : Filter) : Prop :=
  ∃ g, (addAll machine calls).call fresh = (.ok (), g) ∧ g.loaded = false ∧
    g.default = f.default ∧ g.flags = f.flags ∧ g.rules = f.rules

theorem Replays.withRule {machine : String} {fresh f : Filter} {calls : List RuleCall}
    {c : RuleCall} {nr : U32} {rule : Rule} (replays : Replays machine fresh calls f)
    (adds : c.Adds machine nr rule) :
    Replays machine fresh (calls ++ [c]) (f.withRule nr rule) := by
  obtain ⟨g, ran, unloaded, default, flags, rules⟩ := replays
  refine ⟨g.withRule nr rule, ?_, unloaded, default, flags, ?_⟩
  · rw [addAll_append ran, addAll_cons, Py.call_bind_ok (adds.call unloaded)]
    rfl
  · simp only [Filter.withRule, rules]

theorem Replays.step {p : Platform} {fresh : Filter} {calls : List RuleCall} {s : Session}
    (op : FilterOp) (ops : List FilterOp) (replays : Replays p.machine fresh calls s.filter) :
    ∃ more, added p (op :: ops) s = more ++ added p ops (op.step p s).2 ∧
      Replays p.machine fresh (calls ++ more) (op.step p s).2.filter := by
  have others : (∀ c, op ≠ .rule c) → Replays p.machine fresh calls (op.step p s).2.filter := by
    intro other
    rcases (op.step_does p s).filter with same | ⟨c, -, -, is, -⟩ | ⟨program, loaded, -, cached⟩
    · rw [same]
      exact replays
    · exact absurd is (other c)
    · rw [cached]
      exact replays
  cases op with
  | rule c =>
    rcases RuleCall.call_cases p.machine c s.filter with ⟨nr, rule, unloaded, adds, done⟩ |
      ⟨⟨e, raised⟩, -⟩
    · have stepped : (FilterOp.rule c).step p s = (.ok (), ⟨s.filter.withRule nr rule, s.log⟩) :=
        Session.onFilter_eq done
      refine ⟨[c], by simp [added, stepped], ?_⟩
      rw [stepped]
      exact replays.withRule adds
    · have stepped : (FilterOp.rule c).step p s = (.error e, s) := Session.onFilter_eq raised
      refine ⟨[], by simp [added, stepped], ?_⟩
      rw [stepped, List.append_nil]
      exact replays
  | program =>
    refine ⟨[], rfl, ?_⟩
    rw [List.append_nil]
    exact others fun c is => by cases is
  | load a =>
    refine ⟨[], rfl, ?_⟩
    rw [List.append_nil]
    exact others fun c is => by cases is

theorem history_replays {p : Platform} {fresh : Filter} {calls : List RuleCall} {s : Session}
    (ops : List FilterOp) (replays : Replays p.machine fresh calls s.filter) :
    Replays p.machine fresh (calls ++ added p ops s) (history p ops s).filter := by
  induction ops generalizing s calls with
  | nil =>
    rw [added, List.append_nil]
    exact replays
  | cons op ops ih =>
    obtain ⟨more, split, next⟩ := replays.step op ops
    rw [split, ← List.append_assoc]
    exact ih next

/-! ## What is sent -/

/-- The calls of `set_mode_filter` among the events carry this program and these flags,
after `set_no_new_privs` has returned. -/
def Sends (program : Except PyExc Bytes) (flags : U32) (events : List Event) : Prop :=
  ∀ before bytes word behind, events = before ++ .setModeFilter bytes word :: behind →
    program = .ok bytes ∧ word = flags ∧ .noNewPrivs ∈ before

theorem sends_of_not_mem {program : Except PyExc Bytes} {flags : U32} {events : List Event}
    (none : ∀ bytes word, .setModeFilter bytes word ∉ events) : Sends program flags events := by
  intro before bytes word behind split
  refine absurd ?_ (none bytes word)
  rw [split]
  exact List.mem_append_right _ List.mem_cons_self

/-- One call, right after `set_no_new_privs`. -/
theorem sends_once {bytes : Bytes} {flags : U32} {rest : List Event}
    (none : ∀ bytes word, .setModeFilter bytes word ∉ rest) :
    Sends (.ok bytes) flags (.noNewPrivs :: .setModeFilter bytes flags :: rest) := by
  intro before bytes' word behind split
  cases before with
  | nil => cases split
  | cons first before =>
    obtain ⟨rfl, rest_eq⟩ := List.cons.inj split
    cases before with
    | nil =>
      cases rest_eq
      exact ⟨rfl, rfl, List.mem_singleton_self _⟩
    | cons second before =>
      have tail : rest = before ++ .setModeFilter bytes' word :: behind :=
        (List.cons.inj rest_eq).2
      refine absurd ?_ (none bytes' word)
      rw [tail]
      exact List.mem_append_right _ List.mem_cons_self

theorem Does.sends {p : Platform} {s s' : Session} {op : FilterOp} (does : Does p s op s') :
    ∃ events, s'.log = s.log ++ events ∧
      Sends (s.filter.current p.machine) s.filter.flags events := by
  have nothing : ∃ events, s.log = s.log ++ events ∧
      Sends (s.filter.current p.machine) s.filter.flags events :=
    ⟨[], (List.append_nil _).symm, sends_of_not_mem nofun⟩
  cases does with
  | added => exact nothing
  | rejected => exact nothing
  | read => exact nothing
  | unread => exact nothing
  | load loads =>
    cases loads with
    | already => exact nothing
    | unprivileged => exact nothing
    | uncompiled => exact ⟨_, rfl, sends_of_not_mem (by simp)⟩
    | refused ready =>
      refine ⟨_, rfl, ?_⟩
      rw [ready.current]
      exact sends_once nofun
    | @returned program answer ready ok =>
      refine ⟨_, rfl, ?_⟩
      rw [ready.current]
      apply sends_once
      intro bytes word mem
      cases answer with
      | installed ret => simp [Install.events] at mem
      | refused errno => simp [Install.events] at mem
      | notSynced tid => simp [Install.events] at mem

/-! ## After the call has returned -/

/-- `set_mode_filter` has returned. -/
def Session.Set (s : Session) : Prop := ∃ ret, .modeFilterSet ret ∈ s.log

/-- Only the cache may have changed, and not what a read gives. -/
structure Frozen (machine : String) (s s' : Session) : Prop where
  loaded : s'.filter.loaded = s.filter.loaded
  log : s'.log = s.log
  current : s'.filter.current machine = s.filter.current machine
  default : s'.filter.default = s.filter.default
  flags : s'.filter.flags = s.filter.flags
  rules : s'.filter.rules = s.filter.rules

theorem Does.frozen {p : Platform} {s s' : Session} {op : FilterOp} (does : Does p s op s')
    (loaded : s.filter.loaded = true) : Frozen p.machine s s' := by
  have same : Frozen p.machine s s := ⟨rfl, rfl, rfl, rfl, rfl, rfl⟩
  have clash : s.filter.loaded ≠ false := by simp [loaded]
  cases does with
  | added unloaded => exact absurd unloaded clash
  | rejected => exact same
  | read current => exact ⟨rfl, rfl, current.symm, rfl, rfl, rfl⟩
  | unread => exact same
  | load loads =>
    cases loads with
    | already => exact same
    | unprivileged => exact same
    | uncompiled unloaded => exact absurd unloaded clash
    | refused ready => exact absurd ready.unloaded clash
    | returned ready => exact absurd ready.unloaded clash

theorem history_frozen {p : Platform} {s : Session} (ops : List FilterOp)
    (loaded : s.filter.loaded = true) : Frozen p.machine s (history p ops s) := by
  refine after_keeps (I := Frozen p.machine s) (P := fun _ _ => True) (fun op now _ frozen => ?_)
    (fun _ _ _ _ => trivial) ⟨rfl, rfl, rfl, rfl, rfl, rfl⟩
  have next := (op.step_does p now).frozen (frozen.loaded.trans loaded)
  exact ⟨next.loaded.trans frozen.loaded, next.log.trans frozen.log,
    next.current.trans frozen.current, next.default.trans frozen.default,
    next.flags.trans frozen.flags, next.rules.trans frozen.rules⟩

theorem Does.set_loaded {p : Platform} {s s' : Session} {op : FilterOp} (does : Does p s op s')
    (loaded : s.Set → s.filter.loaded = true) : s'.Set → s'.filter.loaded = true := by
  intro given
  rcases given with ⟨ret, mem⟩
  cases does with
  | added => exact loaded ⟨ret, mem⟩
  | rejected => exact loaded ⟨ret, mem⟩
  | read => exact loaded ⟨ret, mem⟩
  | unread => exact loaded ⟨ret, mem⟩
  | load loads =>
    cases loads with
    | already is => exact is
    | unprivileged => exact loaded ⟨ret, mem⟩
    | uncompiled => exact loaded ⟨ret, by simpa using mem⟩
    | refused => exact loaded ⟨ret, by simpa using mem⟩
    | returned => rfl

/-- On a loaded filter, rule calls and loads raise. -/
theorem FilterOp.step_raises {p : Platform} {s : Session} (loaded : s.filter.loaded = true) :
    (∀ c, ∃ e, ((FilterOp.rule c).step p s).1 = .error e) ∧
      ∀ a, ∃ e, ((FilterOp.load a).step p s).1 = .error e := by
  constructor
  · intro c
    rcases RuleCall.call_cases p.machine c s.filter with ⟨-, -, unloaded, -⟩ | ⟨⟨e, raised⟩, -⟩
    · rw [loaded] at unloaded
      cases unloaded
    · exact ⟨e, congrArg Prod.fst (Session.onFilter_eq raised)⟩
  · intro a
    refine ⟨.runtimeError "filter is already loaded", ?_⟩
    have raised : ((Filter.load p a).call s).1 =
        .error (.runtimeError "filter is already loaded") := by
      unfold Filter.load
      rw [Py.call_bind_ok (Py.call_read _), loaded]
      rfl
    rw [FilterOp.step, FilterOp.body, Py.call_discard, raised]
    rfl

/-! ## Every history -/

theorem history_added {p : Platform} {default flags : Int} {f : Filter}
    (created : Filter.init default flags = .ok f) (ops : List FilterOp) :
    ∃ g, (addAll p.machine (added p ops ⟨f, []⟩)).call f = (.ok (), g) ∧
      (history p ops ⟨f, []⟩).filter.current p.machine = g.compile p.machine ∧
      (history p ops ⟨f, []⟩).filter.flags = BitVec.ofInt 32 flags := by
  obtain ⟨-, word, -, uncached, unloaded⟩ := Filter.init_ok created
  have start : Replays p.machine f [] f := ⟨f, rfl, unloaded, rfl, rfl, rfl⟩
  have coherent : Coherent p.machine f := by rw [Coherent, Filter.current, uncached]
  obtain ⟨g, ran, -, default, same, rules⟩ :=
    history_replays (s := ⟨f, []⟩) ops start
  refine ⟨g, ran, ?_, ?_⟩
  · rw [Filter.compile_congr p.machine default rules]
    exact history_coherent (s := ⟨f, []⟩) p ops coherent
  · rw [← same, (addAll_frame ran uncached).2.1, ← word]
    simp

theorem history_set_loaded {p : Platform} {f : Filter} (ops : List FilterOp)
    (set : (history p ops ⟨f, []⟩).Set) : (history p ops ⟨f, []⟩).filter.loaded = true := by
  refine after_keeps (I := fun s : Session => s.Set → s.filter.loaded = true) (P := fun _ _ => True)
    (fun op s _ kept => (op.step_does p s).set_loaded kept) (fun _ _ _ _ => trivial) ?_ set
  intro given
  rcases given with ⟨ret, mem⟩
  cases mem

/-- Every history of a filter.  A read of `program` gives what the rules added so far
compile to on a fresh filter; a call of `set_mode_filter` gets that program and the
constructor's flags, after `set_no_new_privs` has returned in the same operation; once
such a call has returned, rule calls and loads raise and nothing changes any more. -/
theorem filter_history (p : Platform) (default flags : Int) (f : Filter)
    (created : Filter.init default flags = .ok f) (ops : List FilterOp) (s : Session)
    (reached : history p ops ⟨f, []⟩ = s) :
    (∃ g, (addAll p.machine (added p ops ⟨f, []⟩)).call f = (.ok (), g) ∧
      ((Filter.program p.machine).call s.filter).1 = g.compile p.machine ∧
      ∀ op : FilterOp, ∃ events, (op.step p s).2.log = s.log ++ events ∧
        Sends (g.compile p.machine) (BitVec.ofInt 32 flags) events) ∧
    (s.Set → ∀ more s', history p more s = s' →
      (∀ c, ∃ e, ((FilterOp.rule c).step p s').1 = .error e) ∧
      (∀ a, ∃ e, ((FilterOp.load a).step p s').1 = .error e) ∧
      s'.log = s.log ∧
      ((Filter.program p.machine).call s'.filter).1 =
        ((Filter.program p.machine).call s.filter).1 ∧
      s'.filter.default = s.filter.default ∧ s'.filter.flags = s.filter.flags) := by
  subst reached
  constructor
  · obtain ⟨g, ran, current, word⟩ := history_added (p := p) created ops
    refine ⟨g, ran, ?_, fun op => ?_⟩
    · rw [Filter.program_read, current]
    · obtain ⟨events, log, sends⟩ := (op.step_does p (history p ops ⟨f, []⟩)).sends
      rw [current, word] at sends
      exact ⟨events, log, sends⟩
  · rintro set more s' rfl
    have loaded := history_set_loaded ops set
    have frozen := history_frozen (p := p) more loaded
    obtain ⟨rules, loads⟩ := FilterOp.step_raises (p := p) (frozen.loaded.trans loaded)
    refine ⟨rules, loads, frozen.log, ?_, frozen.default, frozen.flags⟩
    rw [Filter.program_read, Filter.program_read, frozen.current]

/-- `read` is allowed and the filter loaded, with one interruption on the way. -/
theorem filter_history_loaded :
    ∃ f s, Filter.init 0x7FFF0000 0 = .ok f ∧
      history ⟨"x86_64", true⟩ [.rule ⟨.allow, .nr 0, .none⟩,
        .load ⟨[⟨0, 0⟩], [.refused eintr, .installed 0], ⟨.ok expectedSizes, none, none⟩⟩]
        ⟨f, []⟩ = s ∧
      s.Set ∧ ∀ c, ∃ e, ((FilterOp.rule c).step ⟨"x86_64", true⟩ s).1 = .error e := by
  let f : Filter := ⟨0x7FFF0000, 0, Dict.empty, none, false⟩
  let g : Filter := f.withRule 0 ⟨Action.allow.code, []⟩
  let a : LoadAnswers :=
    ⟨[⟨0, 0⟩], [.refused eintr, .installed 0], ⟨.ok expectedSizes, none, none⟩⟩
  have few : g.recordCount auditArchX86_64 ≤ 4096 := by decide
  obtain ⟨program, compiled, -⟩ := g.compile_ok auditArchX86_64 auditArch_x86_64 (by omega)
  have ready : Ready ⟨"x86_64", true⟩ a g program := ⟨rfl, rfl, compiled⟩
  have ok : accepted ⟨"x86_64", true⟩ program a.seccomp = .ok (.installed 0) :=
    (accepted_iff compiled).mpr ⟨rfl, ⟨auditArchX86_64, auditArch_x86_64, few⟩, rfl,
      fun errno is => by cases is⟩
  have set : (history ⟨"x86_64", true⟩ [.rule ⟨.allow, .nr 0, .none⟩, .load a] ⟨f, []⟩).Set := by
    have last : history ⟨"x86_64", true⟩ [.rule ⟨.allow, .nr 0, .none⟩, .load a] ⟨f, []⟩ = _ :=
      (FilterOp.step_load _ a ⟨g, []⟩).trans (congrArg Prod.snd (load_returned ready ok))
    refine ⟨0, ?_⟩
    rw [last]
    simp [Install.reply]
  refine ⟨f, _, rfl, rfl, set, ?_⟩
  exact ((filter_history ⟨"x86_64", true⟩ 0x7FFF0000 0 f rfl _ _ rfl).2 set [] _ rfl).1

end Seccompy
