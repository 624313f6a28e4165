import Seccompy.Filter.Emission

/-!
# Running the emitted code

The stretches of `_compile` as runs of the symbolic program that contains them:
the conditions of a rule, the rules of a number in order, the block of a number,
and the dispatch in front of them.  `Filter.code_halts` is the whole program.
-/

namespace Seccompy

open Lib Bpf

/-- All conditions of the rule hold. -/
def Rule.holds (r : Rule) (args : Fin 6 → U64) : Bool := r.args.all (·.holds args)

/-- The action of the first rule that holds, or the default. -/
def decideRules (default : U32) (rules : List Rule) (args : Fin 6 → U64) : U32 :=
  ((rules.find? (·.holds args)).map Rule.action).getD default

section Running

variable {p : Code} {load : U32 → U32} {args : Fin 6 → U64}

/-- A `Ret` that stands in the program ends the run there. -/
theorem halts_ret {c : Code} {k acc : U32} (part : (c.emit [.ret k]).Part p) :
    (symbolic p.insns p.labels load).Halts ⟨c.insns.length, acc⟩ (.ret k) := by
  have at_pc : p.insns[c.insns.length]? = some (.ret k) := part.insn_at
  have final : symbolic p.insns p.labels load ⟨c.insns.length, acc⟩ =
      (Insn.ret k).exec p.labels load ⟨c.insns.length, acc⟩ := symbolic_at at_pc
  exact Machine.Halts.of_final final

/-- The conditions of a rule run on while they hold, and leave at the first that
does not. -/
theorem emitConds_reaches (reads : ReadsArgs load args) {nr : U32} {i j : Nat}
    {conds : List ArgCmp} {c : Code} {stop : Nat}
    (part : (emitConds nr i j conds c).Part p) (fresh : c.Fresh (Label.condsFrom nr i j))
    (failed : p.labels.get? (Label.next nr i).text = some (stop : Int)) (acc : U32) :
    ∃ acc', (symbolic p.insns p.labels load).Reaches ⟨c.insns.length, acc⟩
      ⟨if conds.all (·.holds args) then (emitConds nr i j conds c).insns.length else stop,
        acc'⟩ := by
  induction conds generalizing j c acc with
  | nil => exact ⟨acc, Machine.Reaches.refl _⟩
  | cons cond conds ih =>
    have later : ∀ l : Label, l.condsFrom nr i (j + 1) → l.condsFrom nr i j ∧ l ≠ .hit nr i j := by
      intro l own
      cases l with
      | hit nr' i' j' =>
        obtain ⟨rfl, rfl, le⟩ := own
        exact ⟨⟨rfl, rfl, by omega⟩, fun same => by cases same; omega⟩
      | _ => cases own
    have grows : c.Grows (· = Label.hit nr i j)
        (emitCond c cond (Label.next nr i).text (Label.hit nr i j).text) := emitCond_grows rfl
    have fresh' := (fresh.mono fun l own => (later l own).1).grows grows
      fun l own => (later l own).2
    have first := part.of_grows (emitConds_grows nr i (j + 1) conds _) fresh'
    obtain ⟨acc', head⟩ := emitCond_reaches reads first.insns first.label_at failed acc
    cases holds : cond.holds args with
    | false =>
      rw [holds] at head
      refine ⟨acc', ?_⟩
      simpa [holds] using head
    | true =>
      rw [holds, if_pos rfl] at head
      obtain ⟨acc'', rest⟩ := ih part fresh' acc'
      refine ⟨acc'', head.trans ?_⟩
      simpa [holds, emitConds] using rest

/-- The rules of a number: the first that holds returns its action; when none does,
control runs past them. -/
theorem emitRules_runs (reads : ReadsArgs load args) {nr : U32} {i : Nat} {rules : List Rule}
    {c : Code} (part : (emitRules nr i rules c).1.Part p)
    (fresh : c.Fresh (Label.rulesFrom nr i)) (acc : U32) :
    match rules.find? (·.holds args) with
    | some rule => (symbolic p.insns p.labels load).Halts ⟨c.insns.length, acc⟩ (.ret rule.action)
    | none => (emitRules nr i rules c).2 = true ∧ ∃ acc',
        (symbolic p.insns p.labels load).Reaches ⟨c.insns.length, acc⟩
          ⟨(emitRules nr i rules c).1.insns.length, acc'⟩ := by
  induction rules generalizing i c acc with
  | nil => exact ⟨rfl, acc, Machine.Reaches.refl _⟩
  | cons rule rules ih =>
    rw [emitRules] at part ⊢
    by_cases unconditional : rule.args = []
    · rw [if_pos unconditional] at part
      have holds : rule.holds args = true := by simp [Rule.holds, unconditional]
      simp only [List.find?_cons, holds]
      exact halts_ret part
    · rw [if_neg unconditional] at part ⊢
      have later : ∀ l : Label, l.rulesFrom nr (i + 1) →
          l.rulesFrom nr i ∧ ¬ (l.condsFrom nr i 0 ∨ l = .next nr i) := by
        intro l own
        cases l with
        | next nr' i' =>
          obtain ⟨rfl, le⟩ := own
          refine ⟨⟨rfl, by omega⟩, ?_⟩
          intro given
          rcases given with none | same
          · cases none
          · cases same
            omega
        | hit nr' i' j' =>
          obtain ⟨rfl, le⟩ := own
          refine ⟨⟨rfl, by omega⟩, ?_⟩
          intro given
          rcases given with ⟨-, same, -⟩ | none
          · omega
          · cases none
        | _ => cases own
      have fresh' := (fresh.mono fun l own => (later l own).1).grows (emitRule_grows nr i rule c)
        fun l own => (later l own).2
      have whole := part.of_grows (emitRules_grows nr (i + 1) rules _) fresh'
      -- Before its end label is set, the rule stands at the front of the program too.
      have freshNext : ((emitConds nr i 0 rule.args c).emit [.ret rule.action]).Fresh
          (· = Label.next nr i) := by
        have before : c.Fresh (· = Label.next nr i) := fun l same => fresh l (by
          rw [same]
          exact ⟨rfl, Nat.le_refl i⟩)
        refine before.grows
          ((emitConds_grows nr i 0 rule.args c).trans (Code.Grows.emit _ _)) ?_
        rintro l rfl none
        cases none
      have body := whole.unmark freshNext
      have conds := body.unemit
      obtain ⟨acc', run⟩ := emitConds_reaches reads conds
        (fresh.mono fun l own => Label.condsFrom_rulesFrom own) whole.label_at acc
      cases holds : rule.holds args with
      | true =>
        simp only [List.find?_cons, holds]
        rw [Rule.holds] at holds
        rw [holds, if_pos rfl] at run
        exact run.halts (halts_ret body)
      | false =>
        simp only [List.find?_cons, holds]
        rw [Rule.holds] at holds
        rw [holds, if_neg Bool.false_ne_true] at run
        have rest := ih part fresh' acc'
        cases found : rules.find? (·.holds args) with
        | some rule' =>
          rw [found] at rest
          exact run.halts rest
        | none =>
          rw [found] at rest
          obtain ⟨falls, acc'', onward⟩ := rest
          exact ⟨falls, acc'', run.trans onward⟩

/-- The block of a number, from its label on. -/
theorem emitBlock_halts (reads : ReadsArgs load args) {default nr : U32} {rules : List Rule}
    {c : Code} (part : (emitBlock default nr rules c).Part p) (fresh : c.Fresh (Label.ofBlock nr)) :
    p.labels.get? (Label.block nr).text = some (c.insns.length : Int) ∧
      ∀ acc, (symbolic p.insns p.labels load).Halts ⟨c.insns.length, acc⟩
        (.ret (decideRules default rules args)) := by
  have fresh' : (c.mark (Label.block nr).text).Fresh (Label.rulesFrom nr 0) := by
    have grows : c.Grows (· = Label.block nr) (c.mark (Label.block nr).text) :=
      Code.Grows.mark c rfl
    apply (fresh.mono fun l own => Label.rulesFrom_ofBlock own).grows grows
    rintro l own rfl
    cases own
  have body : (emitRules nr 0 rules (c.mark (Label.block nr).text)).1.Part p := by
    simp only [emitBlock] at part
    split at part
    · exact part.unemit
    · exact part
  have start := body.of_grows (emitRules_grows nr 0 rules _) fresh'
  refine ⟨start.label_at, fun acc => ?_⟩
  have run := emitRules_runs reads body fresh' acc
  unfold decideRules
  cases found : rules.find? (·.holds args) with
  | some rule =>
    rw [found] at run
    exact run
  | none =>
    rw [found] at run
    obtain ⟨falls, acc', reach⟩ := run
    simp only [emitBlock, falls, if_true] at part
    exact reach.halts (halts_ret part)

/-- Every block is reachable under its label. -/
theorem emitBlocks_halts (reads : ReadsArgs load args) {default : U32}
    {entries : List (U32 × List Rule)} {c : Code}
    (part : (emitBlocks default entries c).Part p) (nodup : (entries.map Prod.fst).Nodup)
    (fresh : c.Fresh (Label.ofBlocks (entries.map Prod.fst))) {nr : U32} {rules : List Rule}
    (mem : (nr, rules) ∈ entries) :
    ∃ start : Nat, p.labels.get? (Label.block nr).text = some (start : Int) ∧
      ∀ acc, (symbolic p.insns p.labels load).Halts ⟨start, acc⟩
        (.ret (decideRules default rules args)) := by
  induction entries generalizing c with
  | nil => cases mem
  | cons entry entries ih =>
    obtain ⟨nr', rules'⟩ := entry
    rw [List.map_cons, List.nodup_cons] at nodup
    have fresh' : (emitBlock default nr' rules' c).Fresh
        (Label.ofBlocks (entries.map Prod.fst)) := by
      refine (fresh.mono ?_).grows (emitBlock_grows default nr' rules' c) ?_
      · rintro l ⟨key, among, own⟩
        exact ⟨key, List.mem_cons_of_mem _ among, own⟩
      · rintro l ⟨key, among, own⟩ own'
        exact nodup.1 (Label.ofBlock_unique own own' ▸ among)
    rcases List.mem_cons.mp mem with same | rest
    · cases same
      have first := part.of_grows (emitBlocks_grows default entries _) fresh'
      exact ⟨_, emitBlock_halts reads first
        (fresh.mono fun l own => ⟨nr, List.mem_cons_self, own⟩)⟩
    · exact ih part nodup.2 fresh' rest

/-- The jumps on the syscall number. -/
def dispatch (keys : List U32) : List Insn :=
  keys.map fun nr => .jump .jeq nr (some (Label.block nr).text) none

theorem walk_dispatch (keys : List U32) (acc : U32) :
    walk load (dispatch keys) acc =
      if acc ∈ keys then some (Label.block acc).text else none := by
  unfold dispatch
  induction keys with
  | nil => rfl
  | cons nr keys ih =>
    simp only [List.map_cons, walk, JumpOp.test]
    by_cases same : acc = nr
    · simp [same]
    · simp [same, ih]

end Running

section Whole

variable (f : Filter) (audit : U32)

/-- The blocks, before the kill label. -/
def Filter.body : Code :=
  emitBlocks f.default f.rules.entries (header audit f.default f.rules.keys)

theorem Filter.header_fresh (mine : Label → Prop) :
    (header audit f.default f.rules.keys).Fresh mine := fun _ _ => rfl

theorem Filter.body_part : (f.body audit).Part (f.code audit) := by
  have whole : (((f.body audit).mark Label.kill.text).emit [.ret Action.killProcess.code]).Part
      (f.code audit) := ⟨List.prefix_rfl, fun _ _ found => found⟩
  apply whole.unemit.unmark
  apply (f.header_fresh audit _).grows (emitBlocks_grows f.default f.rules.entries _)
  rintro l rfl ⟨nr, -, own⟩
  cases own

theorem Filter.header_part : (header audit f.default f.rules.keys).Part (f.code audit) :=
  (f.body_part audit).of_grows (emitBlocks_grows f.default f.rules.entries _)
    (f.header_fresh audit _)

theorem Filter.kill_halts (load : U32 → U32) :
    (f.code audit).labels.get? Label.kill.text = some ((f.body audit).insns.length : Int) ∧
      ∀ acc, (symbolic (f.code audit).insns (f.code audit).labels load).Halts
        ⟨(f.body audit).insns.length, acc⟩ (.ret Action.killProcess.code) := by
  have whole : (((f.body audit).mark Label.kill.text).emit [.ret Action.killProcess.code]).Part
      (f.code audit) := ⟨List.prefix_rfl, fun _ _ found => found⟩
  have stops : ∀ acc, (symbolic (f.code audit).insns (f.code audit).labels load).Halts
      ⟨((f.body audit).mark Label.kill.text).insns.length, acc⟩ (.ret Action.killProcess.code) :=
    fun acc => halts_ret whole
  exact ⟨whole.unemit.label_at, stops⟩

theorem Filter.header_at {k : Nat} {insn : Insn}
    (at_k : (header audit f.default f.rules.keys).insns[k]? = some insn) :
    (f.code audit).insns[k]? = some insn := by
  obtain ⟨rest, same⟩ := (f.header_part audit).insns
  have within := (List.getElem?_eq_some_iff.mp at_k).1
  rw [← same, List.getElem?_append_left within, at_k]

/-- From the third instruction on: the dispatch, then the block of the number. -/
theorem Filter.dispatch_halts (d : SeccompData) :
    (symbolic (f.code audit).insns (f.code audit).labels d.load).Halts ⟨3, d.nr⟩
      (.ret (decideRules f.default (f.rules.bucket d.nr) d.args)) := by
  have layout : (header audit f.default f.rules.keys).insns =
      [.load (BitVec.ofNat 32 offArch), .jump .jeq audit none (some Label.kill.text),
        .load (BitVec.ofNat 32 offNr)] ++ (dispatch f.rules.keys ++ [.ret f.default]) :=
    List.append_assoc _ _ _
  have lands : Lands (f.code audit).insns (f.code audit).labels d.load ⟨3, d.nr⟩
      (3 + (dispatch f.rules.keys).length) (walk d.load (dispatch f.rules.keys) d.nr) := by
    refine walk_lands (fun insn mem => ?_) (fun j within => ?_) d.nr
    · obtain ⟨nr, -, rfl⟩ := List.mem_map.mp mem
      rfl
    · rw [List.getElem?_eq_getElem within]
      apply f.header_at audit
      rw [layout, List.getElem?_append_right (Nat.le_add_right 3 j)]
      simp [List.getElem?_append_left within]
  rw [walk_dispatch] at lands
  cases found : f.rules.get? d.nr with
  | some rules =>
    have mem := Dict.get?_eq_some_iff.mp found
    have key : d.nr ∈ f.rules.keys := Dict.mem_keys_iff.mpr ⟨rules, found⟩
    obtain ⟨start, label, block⟩ := emitBlocks_halts d.readsArgs (f.body_part audit)
      f.rules.nodup (f.header_fresh audit _) mem
    rw [if_pos key] at lands
    obtain ⟨acc, reach⟩ := lands start label
    rw [Dict.bucket_eq_of_mem mem]
    exact reach.halts (block acc)
  | none =>
    have absent : d.nr ∉ f.rules.keys := Dict.get?_eq_none_iff.mp found
    rw [if_neg absent] at lands
    obtain ⟨acc, reach⟩ := lands
    have last : (f.code audit).insns[3 + (dispatch f.rules.keys).length]? =
        some (.ret f.default) := by
      apply f.header_at audit
      rw [layout, List.getElem?_append_right (Nat.le_add_right 3 _)]
      simp
    have final : symbolic (f.code audit).insns (f.code audit).labels d.load
        ⟨3 + (dispatch f.rules.keys).length, acc⟩ = (Insn.ret f.default).exec _ d.load _ :=
      symbolic_at last
    refine reach.halts (Machine.Halts.of_final (final.trans ?_))
    simp [Insn.exec, Dict.bucket, found, decideRules]

/-- The finished program on one call: a foreign architecture is killed, else the
rules of the number decide. -/
theorem Filter.code_halts (d : SeccompData) (acc : U32) :
    (symbolic (f.code audit).insns (f.code audit).labels d.load).Halts ⟨0, acc⟩
      (.ret (if d.arch = audit then decideRules f.default (f.rules.bucket d.nr) d.args
        else Action.killProcess.code)) := by
  have loadArch : symbolic (f.code audit).insns (f.code audit).labels d.load ⟨0, acc⟩ =
      .inl ⟨1, d.arch⟩ := by
    rw [symbolic_at (f.header_at audit rfl), ← d.load_arch]
    rfl
  have check : symbolic (f.code audit).insns (f.code audit).labels d.load ⟨1, d.arch⟩ =
      goto (f.code audit).labels ⟨1, d.arch⟩
        (if d.arch = audit then none else some Label.kill.text) := by
    rw [symbolic_at (f.header_at audit rfl)]
    simp [Insn.exec, JumpOp.test]
  apply Machine.Halts.of_step loadArch
  by_cases native : d.arch = audit
  · rw [if_pos native] at check ⊢
    have loadNr : symbolic (f.code audit).insns (f.code audit).labels d.load ⟨2, d.arch⟩ =
        .inl ⟨3, d.nr⟩ := by
      rw [symbolic_at (f.header_at audit rfl), ← d.load_nr]
      rfl
    exact Machine.Halts.of_step check (Machine.Halts.of_step loadNr (f.dispatch_halts audit d))
  · rw [if_neg native] at check ⊢
    obtain ⟨label, killed⟩ := f.kill_halts audit d.load
    rw [goto_label label] at check
    exact Machine.Halts.of_step check (killed d.arch)

end Whole

end Seccompy
