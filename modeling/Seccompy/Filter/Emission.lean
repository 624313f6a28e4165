import Seccompy.Filter.Conditions

/-!
# Emission

Two facts about the growing code.  `Code.Forward` says that every jump target lies
ahead, marked already or among the labels still pending; it gives the assembler's
precondition for the finished program.  `Code.Grows` says which labels a stretch of
emission may set; since label texts never collide, what was emitted earlier is
still there, under the same labels, in the finished program (`Code.Part`), and the
run of the whole is put together from the runs of its stretches.
-/

namespace Seccompy

open Lib Bpf

/-! ## Targets lie ahead -/

def Code.Forward (pending : String → Prop) (c : Code) : Prop :=
  ∀ (k : Nat) insn, c.insns[k]? = some insn → ∀ t ∈ targets insn,
    pending t ∨ ∃ p : Nat, c.labels.get? t = some (p : Int) ∧ k < p ∧ p ≤ c.insns.length

namespace Code.Forward

variable {pending pending' : String → Prop} {c : Code}

theorem mono (forward : c.Forward pending) (sub : ∀ t, pending t → pending' t) :
    c.Forward pending' := by
  intro k insn at_k t mem
  exact (forward k insn at_k t mem).imp_left (sub t)

theorem emit (forward : c.Forward pending) {more : List Insn}
    (waits : ∀ insn ∈ more, ∀ t ∈ targets insn, pending t) : (c.emit more).Forward pending := by
  intro k insn at_k t mem
  simp only [Code.emit] at at_k ⊢
  rcases Nat.lt_or_ge k c.insns.length with before | after
  · rw [List.getElem?_append_left before] at at_k
    rcases forward k insn at_k t mem with waiting | ⟨p, found, ahead, inside⟩
    · exact Or.inl waiting
    · exact Or.inr ⟨p, found, ahead, by rw [List.length_append]; omega⟩
  · rw [List.getElem?_append_right after] at at_k
    exact Or.inl (waits insn (List.mem_of_getElem? at_k) t mem)

/-- A marked label is pending no more: every jump to it stands before it. -/
theorem mark (forward : c.Forward pending) (label : String) :
    (c.mark label).Forward fun t => pending t ∧ t ≠ label := by
  intro k insn at_k t mem
  have within : k < c.insns.length := (List.getElem?_eq_some_iff.mp at_k).1
  by_cases same : t = label
  · subst same
    exact Or.inr ⟨c.insns.length, Dict.get?_set_self _ _ _, within, Nat.le_refl _⟩
  · rcases forward k insn at_k t mem with waiting | ⟨p, found, ahead, inside⟩
    · exact Or.inl ⟨waiting, same⟩
    · exact Or.inr ⟨p, (Dict.get?_set_ne _ _ same).trans found, ahead, inside⟩

end Code.Forward

theorem condInsns_targets (cond : ArgCmp) (fail passed : String) :
    ∀ insn ∈ condInsns cond fail passed, ∀ t ∈ targets insn, t = fail ∨ t = passed := by
  intro insn mem t target
  cases condInsns_made cond fail passed insn mem with
  | loadLo => cases target
  | loadHi => cases target
  | mask m => cases target
  | @jump op k jt jf compares first second =>
    obtain ⟨side, among, is⟩ := List.mem_filterMap.mp target
    rcases List.mem_pair.mp among with rfl | rfl
    · exact first t is
    · exact second t is

theorem emitCond_forward {pending : String → Prop} {c : Code} {cond : ArgCmp}
    {fail passed : String} (forward : c.Forward pending) (waits : pending fail) :
    (emitCond c cond fail passed).Forward pending := by
  have wider := forward.mono fun t waiting => (Or.inl waiting : pending t ∨ t = passed)
  have emitted := wider.emit fun insn mem t target => by
    rcases condInsns_targets cond fail passed insn mem t target with rfl | rfl
    · exact Or.inl waits
    · exact Or.inr rfl
  exact (emitted.mark passed).mono fun t ⟨waiting, ne⟩ => waiting.resolve_right ne

theorem emitConds_forward {pending : String → Prop} {nr : U32} {i : Nat} (j : Nat)
    (conds : List ArgCmp) {c : Code} (forward : c.Forward pending) (waits : pending (Label.next nr i).text) :
    (emitConds nr i j conds c).Forward pending := by
  induction conds generalizing j c with
  | nil => exact forward
  | cons cond conds ih => exact ih (j + 1) (emitCond_forward forward waits)

theorem forward_emit_ret {pending : String → Prop} {c : Code} (forward : c.Forward pending)
    (k : U32) : (c.emit [.ret k]).Forward pending := by
  apply forward.emit
  intro insn mem t target
  rw [List.mem_singleton.mp mem] at target
  cases target

theorem emitRules_forward {pending : String → Prop} (nr : U32) (i : Nat) (rules : List Rule)
    {c : Code} (forward : c.Forward pending) : (emitRules nr i rules c).1.Forward pending := by
  induction rules generalizing i c with
  | nil => exact forward
  | cons rule rules ih =>
    rw [emitRules]
    split
    · exact forward_emit_ret forward _
    · apply ih
      have wider := forward.mono fun t waiting =>
        (Or.inl waiting : pending t ∨ t = (Label.next nr i).text)
      have conds := emitConds_forward 0 rule.args wider (Or.inr rfl)
      have marked := (forward_emit_ret conds rule.action).mark (Label.next nr i).text
      exact marked.mono fun t ⟨waiting, ne⟩ => waiting.resolve_right ne

theorem emitBlock_forward {pending : String → Prop} (default nr : U32) (rules : List Rule)
    {c : Code} (forward : c.Forward pending) :
    (emitBlock default nr rules c).Forward fun t => pending t ∧ t ≠ (Label.block nr).text := by
  have rules_forward := emitRules_forward nr 0 rules
    (forward.mark (Label.block nr).text)
  simp only [emitBlock]
  split
  · exact forward_emit_ret rules_forward _
  · exact rules_forward

/-- The labels pending before the blocks of `keys` are emitted. -/
def dispatchPending (keys : List U32) (t : String) : Prop :=
  t = Label.kill.text ∨ ∃ nr ∈ keys, t = (Label.block nr).text

theorem emitBlocks_forward (default : U32) {entries : List (U32 × List Rule)} {c : Code}
    (forward : c.Forward (dispatchPending (entries.map Prod.fst))) :
    (emitBlocks default entries c).Forward (dispatchPending []) := by
  induction entries generalizing c with
  | nil => exact forward
  | cons entry entries ih =>
    obtain ⟨nr, rules⟩ := entry
    refine ih ((emitBlock_forward default nr rules forward).mono ?_)
    rintro t ⟨rfl | ⟨nr', mem, rfl⟩, ne⟩
    · exact Or.inl rfl
    · rcases List.mem_cons.mp mem with rfl | rest
      · exact absurd rfl ne
      · exact Or.inr ⟨nr', rest, rfl⟩

theorem header_forward (audit default : U32) (keys : List U32) :
    (header audit default keys).Forward (dispatchPending keys) := by
  intro k insn at_k t mem
  left
  have among := List.mem_of_getElem? at_k
  simp only [header, List.mem_append, List.mem_cons, List.not_mem_nil, or_false, List.mem_map]
    at among
  rcases among with ((rfl | rfl | rfl) | ⟨nr, key, rfl⟩) | rfl
  · cases mem
  · exact Or.inl (List.mem_singleton.mp mem)
  · cases mem
  · exact Or.inr ⟨nr, key, List.mem_singleton.mp mem⟩
  · cases mem

/-- In the finished program every target lies strictly ahead and inside. -/
theorem Filter.code_forward (f : Filter) (audit : U32) {k : Nat} {insn : Insn}
    (at_k : (f.code audit).insns[k]? = some insn) {t : String} (mem : t ∈ targets insn) :
    ∃ p : Nat, (f.code audit).labels.get? t = some (p : Int) ∧ k < p ∧
      p + 1 ≤ (f.code audit).insns.length := by
  have blocks := emitBlocks_forward f.default (header_forward audit f.default f.rules.keys)
  have marked := blocks.mark Label.kill.text
  simp only [Filter.code, Code.emit] at at_k ⊢
  rcases Nat.lt_or_ge k ((emitBlocks f.default f.rules.entries
    (header audit f.default f.rules.keys)).mark Label.kill.text).insns.length with before | after
  · rw [List.getElem?_append_left before] at at_k
    rcases marked k insn at_k t mem with ⟨rfl | ⟨nr, none, -⟩, ne⟩ | ⟨p, found, ahead, inside⟩
    · exact absurd rfl ne
    · cases none
    · exact ⟨p, found, ahead, by rw [List.length_append]; exact Nat.succ_le_succ inside⟩
  · rw [List.getElem?_append_right after] at at_k
    rw [List.mem_singleton.mp (List.mem_of_getElem? at_k)] at mem
    cases mem

/-! ## Growth -/

/-- `c'` extends `c`, and sets no labels outside `mine`. -/
structure Code.Grows (mine : Label → Prop) (c c' : Code) : Prop where
  insns : c.insns <+: c'.insns
  frame : ∀ l, ¬ mine l → c'.labels.get? l.text = c.labels.get? l.text

/-- None of the labels is set yet. -/
def Code.Fresh (mine : Label → Prop) (c : Code) : Prop :=
  ∀ l, mine l → c.labels.get? l.text = none

/-- `c` stands at the front of `p`, under the same labels. -/
structure Code.Part (c p : Code) : Prop where
  insns : c.insns <+: p.insns
  labels : ∀ (l : Label) (n : Int), c.labels.get? l.text = some n → p.labels.get? l.text = some n

namespace Code

variable {mine mine' : Label → Prop} {c c' c'' p : Code}

theorem Grows.refl (c : Code) : c.Grows mine c := ⟨List.prefix_rfl, fun _ _ => rfl⟩

theorem Grows.mono (grows : c.Grows mine c') (sub : ∀ l, mine l → mine' l) : c.Grows mine' c' :=
  ⟨grows.insns, fun l other => grows.frame l fun own => other (sub l own)⟩

theorem Grows.trans (grows : c.Grows mine c') (more : c'.Grows mine c'') : c.Grows mine c'' :=
  ⟨grows.insns.trans more.insns, fun l other => (more.frame l other).trans (grows.frame l other)⟩

theorem Grows.emit (c : Code) (more : List Insn) : c.Grows mine (c.emit more) :=
  ⟨List.prefix_append _ _, fun _ _ => rfl⟩

theorem Grows.mark (c : Code) {l : Label} (own : mine l) : c.Grows mine (c.mark l.text) := by
  refine ⟨List.prefix_rfl, fun l' other => Dict.get?_set_ne _ _ fun same => ?_⟩
  rw [Label.text_injective same] at other
  exact other own

theorem Fresh.mono (fresh : c.Fresh mine) (sub : ∀ l, mine' l → mine l) : c.Fresh mine' :=
  fun l own => fresh l (sub l own)

/-- Labels that a stretch may not set stay fresh. -/
theorem Fresh.grows (fresh : c.Fresh mine) (grows : c.Grows mine' c')
    (apart : ∀ l, mine l → ¬ mine' l) : c'.Fresh mine := by
  intro l own
  rw [grows.frame l (apart l own)]
  exact fresh l own

/-- What stands at the front of an extension stands at the front of the program. -/
theorem Part.of_grows (part : c'.Part p) (grows : c.Grows mine c') (fresh : c.Fresh mine) :
    c.Part p := by
  refine ⟨grows.insns.trans part.insns, fun l n found => part.labels l n ?_⟩
  rw [grows.frame l fun own => ?_]
  · exact found
  · rw [fresh l own] at found
    cases found

theorem Part.unemit {more : List Insn} (part : (c.emit more).Part p) : c.Part p := by
  have grows : c.Grows (fun _ => False) (c.emit more) := Grows.emit c more
  exact part.of_grows grows fun l none => none.elim

theorem Part.unmark {l : Label} (part : (c.mark l.text).Part p) (fresh : c.Fresh (· = l)) :
    c.Part p := by
  have grows : c.Grows (· = l) (c.mark l.text) := Grows.mark c rfl
  exact part.of_grows grows fresh

theorem Part.insn_at {insn : Insn} (part : (c.emit [insn]).Part p) : p.insns[c.insns.length]? = some insn := by
  obtain ⟨rest, same⟩ := part.insns
  rw [← same]
  simp [Code.emit]

theorem Part.label_at {l : Label} (part : (c.mark l.text).Part p) :
    p.labels.get? l.text = some (c.insns.length : Int) :=
  part.labels l _ (Dict.get?_set_self _ _ _)

end Code

/-! ## Which stretch sets which labels -/

/-- The condition labels of rule `i`, from condition `j` on. -/
def Label.condsFrom (nr : U32) (i j : Nat) : Label → Prop
  | .hit nr' i' j' => nr' = nr ∧ i' = i ∧ j ≤ j'
  | _ => False

/-- The labels of the rules of a number, from rule `i` on. -/
def Label.rulesFrom (nr : U32) (i : Nat) : Label → Prop
  | .next nr' i' | .hit nr' i' _ => nr' = nr ∧ i ≤ i'
  | _ => False

/-- All labels of one number. -/
def Label.ofBlock (nr : U32) : Label → Prop
  | .block nr' | .next nr' _ | .hit nr' _ _ => nr' = nr
  | .kill => False

def Label.ofBlocks (keys : List U32) (l : Label) : Prop := ∃ nr ∈ keys, l.ofBlock nr

theorem Label.condsFrom_rulesFrom {nr : U32} {i j : Nat} {l : Label} (own : l.condsFrom nr i j) :
    l.rulesFrom nr i := by
  cases l with
  | hit nr' i' j' => exact ⟨own.1, own.2.1.ge⟩
  | _ => cases own

theorem Label.rulesFrom_ofBlock {nr : U32} {i : Nat} {l : Label} (own : l.rulesFrom nr i) :
    l.ofBlock nr := by
  cases l with
  | next nr' i' => exact own.1
  | hit nr' i' j' => exact own.1
  | _ => cases own

theorem Label.ofBlock_unique {nr nr' : U32} {l : Label} (own : l.ofBlock nr)
    (own' : l.ofBlock nr') : nr = nr' := by
  cases l with
  | kill => cases own
  | _ => exact own.symm.trans own'

theorem emitCond_grows {mine : Label → Prop} {c : Code} {cond : ArgCmp} {fail : String}
    {passed : Label} (own : mine passed) : c.Grows mine (emitCond c cond fail passed.text) :=
  (Code.Grows.emit c _).trans (Code.Grows.mark _ own)

theorem emitConds_grows (nr : U32) (i j : Nat) (conds : List ArgCmp) (c : Code) :
    c.Grows (Label.condsFrom nr i j) (emitConds nr i j conds c) := by
  induction conds generalizing j c with
  | nil => exact Code.Grows.refl c
  | cons cond conds ih =>
    have first : c.Grows (Label.condsFrom nr i j)
        (emitCond c cond (Label.next nr i).text (Label.hit nr i j).text) :=
      emitCond_grows ⟨rfl, rfl, Nat.le_refl j⟩
    refine first.trans ((ih (j + 1) _).mono fun l own => ?_)
    cases l with
    | hit nr' i' j' => exact ⟨own.1, own.2.1, by have := own.2.2; omega⟩
    | _ => cases own

theorem emitRule_grows (nr : U32) (i : Nat) (rule : Rule) (c : Code) :
    c.Grows (fun l => l.condsFrom nr i 0 ∨ l = .next nr i)
      (((emitConds nr i 0 rule.args c).emit [.ret rule.action]).mark (Label.next nr i).text) := by
  have conds := (emitConds_grows nr i 0 rule.args c).mono
    fun l own => (Or.inl own : l.condsFrom nr i 0 ∨ l = .next nr i)
  exact (conds.trans (Code.Grows.emit _ _)).trans (Code.Grows.mark _ (Or.inr rfl))

theorem emitRules_grows (nr : U32) (i : Nat) (rules : List Rule) (c : Code) :
    c.Grows (Label.rulesFrom nr i) (emitRules nr i rules c).1 := by
  induction rules generalizing i c with
  | nil => exact Code.Grows.refl c
  | cons rule rules ih =>
    rw [emitRules]
    split
    · exact Code.Grows.emit c _
    · refine ((emitRule_grows nr i rule c).mono ?_).trans ((ih (i + 1) _).mono fun l own => ?_)
      · rintro l (own | rfl)
        · exact Label.condsFrom_rulesFrom own
        · exact ⟨rfl, Nat.le_refl i⟩
      · cases l with
        | next nr' i' => exact ⟨own.1, by have := own.2; omega⟩
        | hit nr' i' j' => exact ⟨own.1, by have := own.2; omega⟩
        | _ => cases own

theorem emitBlock_grows (default nr : U32) (rules : List Rule) (c : Code) :
    c.Grows (Label.ofBlock nr) (emitBlock default nr rules c) := by
  have marked : c.Grows (Label.ofBlock nr) (c.mark (Label.block nr).text) :=
    Code.Grows.mark c rfl
  have body := marked.trans
    ((emitRules_grows nr 0 rules _).mono fun l own => Label.rulesFrom_ofBlock own)
  simp only [emitBlock]
  split
  · exact body.trans (Code.Grows.emit _ _)
  · exact body

theorem emitBlocks_grows (default : U32) (entries : List (U32 × List Rule)) (c : Code) :
    c.Grows (Label.ofBlocks (entries.map Prod.fst)) (emitBlocks default entries c) := by
  induction entries generalizing c with
  | nil => exact Code.Grows.refl c
  | cons entry entries ih =>
    obtain ⟨nr, rules⟩ := entry
    refine ((emitBlock_grows default nr rules c).mono fun l own => ?_).trans
      ((ih _).mono ?_)
    · exact ⟨nr, List.mem_cons_self, own⟩
    · rintro l ⟨nr', mem, own⟩
      exact ⟨nr', List.mem_cons_of_mem _ mem, own⟩

end Seccompy
