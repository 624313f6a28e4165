import Seccompy.Bpf.Assembler
import Seccompy.Filter.Rules

/-!
# Compiling a filter

`filter.py`, `_compile` and `_emit_cond`.  Emission works on the pair of an
instruction list and a label table, both of which only grow: instructions are
appended, and a label is set to the position reached so far.  Label names are
texts built from a syscall number and rule and condition indices; `Label` is the
structured form, and `Label.text_injective` says that the texts never collide.
-/

namespace Seccompy

open Lib Bpf

/-! ## Label names -/

inductive Label
  | block (nr : U32)
  | next (nr : U32) (i : Nat)
  | hit (nr : U32) (i j : Nat)
  | kill
  deriving DecidableEq, Repr

def Label.text : Label → String
  | .block nr => s!"block_{nr.toNat}"
  | .next nr i => s!"next_{nr.toNat}_{i}"
  | .hit nr i j => s!"hit_{nr.toNat}_{i}_{j}"
  | .kill => "kill"

/-! ## Emission -/

def offNr : Nat := 0
def offArch : Nat := 4
def offArg0 : Nat := 16

/-- `insns` and `labels` as they are threaded through emission. -/
structure Code where
  insns : List Insn
  labels : Labels

/-- `insns.extend(more)`. -/
def Code.emit (c : Code) (more : List Insn) : Code := { c with insns := c.insns ++ more }

/-- `labels[label] = len(insns)`. -/
def Code.mark (c : Code) (label : String) : Code :=
  { c with labels := c.labels.set label c.insns.length }

/-- The body of the `MASKED_EQ` loop for one word. -/
def maskedWord (fail : String) (off m v : U32) : List Insn :=
  if m = 0 then [] else [.load off, .and m, .jump .jeq v none (some fail)]

/-- The instructions `_emit_cond` appends. -/
def condInsns (cond : ArgCmp) (fail passed : String) : List Insn :=
  let loOff := BitVec.ofNat 32 (offArg0 + 8 * cond.index)
  let hiOff := BitVec.ofNat 32 (offArg0 + 8 * cond.index + 4)
  let lo := loWord cond.value
  let hi := hiWord cond.value
  match cond.op with
  | .eq =>
    [.load loOff, .jump .jeq lo none (some fail), .load hiOff, .jump .jeq hi none (some fail)]
  | .ne =>
    [.load loOff, .jump .jeq lo none (some passed), .load hiOff, .jump .jeq hi (some fail) none]
  | .lt =>
    [.load hiOff, .jump .jgt hi (some fail) none, .jump .jeq hi none (some passed), .load loOff,
      .jump .jgeq lo (some fail) none]
  | .le =>
    [.load hiOff, .jump .jgt hi (some fail) none, .jump .jeq hi none (some passed), .load loOff,
      .jump .jgt lo (some fail) none]
  | .gt =>
    [.load hiOff, .jump .jgt hi (some passed) none, .jump .jeq hi none (some fail), .load loOff,
      .jump .jgt lo (some passed) (some fail)]
  | .ge =>
    [.load hiOff, .jump .jgt hi (some passed) none, .jump .jeq hi none (some fail), .load loOff,
      .jump .jgeq lo (some passed) (some fail)]
  | .maskedEq =>
    maskedWord fail loOff (loWord cond.mask) lo ++ maskedWord fail hiOff (hiWord cond.mask) hi

/-- `_emit_cond`: a jump to `fail` when the condition does not hold, else the code
runs on at `passed`, the position right after the sequence. -/
def emitCond (c : Code) (cond : ArgCmp) (fail passed : String) : Code :=
  (c.emit (condInsns cond fail passed)).mark passed

/-- The conditions of rule `i`, from condition `j` on. -/
def emitConds (nr : U32) (i : Nat) : Nat → List ArgCmp → Code → Code
  | _, [], c => c
  | j, cond :: conds, c =>
    emitConds nr i (j + 1) conds
      (emitCond c cond (Label.next nr i).text (Label.hit nr i j).text)

/-- The rules of one number, from rule `i` on; the flag is `falls_through`.  An
unconditional rule ends the loop. -/
def emitRules (nr : U32) : Nat → List Rule → Code → Code × Bool
  | _, [], c => (c, true)
  | i, rule :: rules, c =>
    if rule.args = [] then (c.emit [.ret rule.action], false)
    else
      emitRules nr (i + 1) rules
        (((emitConds nr i 0 rule.args c).emit [.ret rule.action]).mark (Label.next nr i).text)

def emitBlock (default : U32) (nr : U32) (rules : List Rule) (c : Code) : Code :=
  let (c, fallsThrough) := emitRules nr 0 rules (c.mark (Label.block nr).text)
  if fallsThrough then c.emit [.ret default] else c

def emitBlocks (default : U32) : List (U32 × List Rule) → Code → Code
  | [], c => c
  | (nr, rules) :: rest, c => emitBlocks default rest (emitBlock default nr rules c)

/-- The architecture check and the dispatch on the syscall number. -/
def header (audit default : U32) (keys : List U32) : Code :=
  { insns :=
      [.load (BitVec.ofNat 32 offArch), .jump .jeq audit none (some Label.kill.text),
        .load (BitVec.ofNat 32 offNr)] ++
      keys.map (fun nr => .jump .jeq nr (some (Label.block nr).text) none) ++ [.ret default]
    labels := Dict.empty }

/-- What `_compile` hands to the assembler. -/
def Filter.code (f : Filter) (audit : U32) : Code :=
  ((emitBlocks f.default f.rules.entries (header audit f.default f.rules.keys)).mark
    Label.kill.text).emit [.ret Action.killProcess.code]

def Filter.compile (machine : String) (f : Filter) : Except PyExc Bytes := do
  let audit ← auditArch machine
  assemble (f.code audit).insns (f.code audit).labels

/-- The `program` property: compile once, until the next rule drops the cache. -/
def Filter.program (machine : String) : Py Filter Bytes := do
  match (← Py.read).cached with
  | some bytes => return bytes
  | none =>
    let bytes ← Py.lift (Filter.compile machine (← Py.read))
    Py.update fun self => { self with cached := some bytes }
    return bytes

/-! ## The code of a condition -/

/-- What the code of a condition is made of: loads of the two words of its argument,
masks, and comparisons that go on to `fail` or `passed` or run on. -/
inductive CondInsn (cond : ArgCmp) (fail passed : String) : Insn → Prop
  | loadLo : CondInsn cond fail passed (.load (BitVec.ofNat 32 (offArg0 + 8 * cond.index)))
  | loadHi : CondInsn cond fail passed (.load (BitVec.ofNat 32 (offArg0 + 8 * cond.index + 4)))
  | mask (m : U32) : CondInsn cond fail passed (.and m)
  | jump {op : JumpOp} {k : U32} {jt jf : Option String} (compares : op ≠ .jset)
    (first : ∀ t ∈ jt, t = fail ∨ t = passed) (second : ∀ t ∈ jf, t = fail ∨ t = passed) :
    CondInsn cond fail passed (.jump op k jt jf)

theorem maskedWord_made {cond : ArgCmp} {fail passed : String} {off : U32}
    (load : CondInsn cond fail passed (.load off)) (m v : U32) :
    ∀ insn ∈ maskedWord fail off m v, CondInsn cond fail passed insn := by
  unfold maskedWord
  split
  · simp
  · simp [load, CondInsn.mask, CondInsn.jump]

theorem condInsns_made (cond : ArgCmp) (fail passed : String) :
    ∀ insn ∈ condInsns cond fail passed, CondInsn cond fail passed insn := by
  unfold condInsns
  cases cond.op with
  | maskedEq =>
    intro insn mem
    rcases List.mem_append.mp mem with low | high
    · exact maskedWord_made .loadLo _ _ insn low
    · exact maskedWord_made .loadHi _ _ insn high
  | _ => simp [CondInsn.loadLo, CondInsn.loadHi, CondInsn.jump]

/-! ## Label texts do not collide -/

theorem repr_injective {m n : Nat} (same : m.repr = n.repr) : m = n := by
  have digits : Nat.toDigits 10 m = Nat.toDigits 10 n := by
    rw [← Nat.toList_repr, ← Nat.toList_repr, same]
  rw [← Nat.ofDigitChars_ten_toDigits (n := m), digits, Nat.ofDigitChars_ten_toDigits]

theorem cut_at_first {α : Type} {c : α} {xs ys xs' ys' : List α} (clear : c ∉ xs)
    (clear' : c ∉ xs') (same : xs ++ c :: ys = xs' ++ c :: ys') : xs = xs' ∧ ys = ys' := by
  induction xs generalizing xs' with
  | nil =>
    cases xs' with
    | nil => exact ⟨rfl, (List.cons.inj same).2⟩
    | cons x' xs' => exact absurd (List.mem_cons.mpr (Or.inl (List.cons.inj same).1)) clear'
  | cons x xs ih =>
    cases xs' with
    | nil => exact absurd (List.mem_cons.mpr (Or.inl (List.cons.inj same).1.symm)) clear
    | cons x' xs' =>
      obtain ⟨head, tail⟩ := List.cons.inj same
      obtain ⟨rfl, rfl⟩ := ih (fun mem => clear (List.mem_cons_of_mem _ mem))
        (fun mem => clear' (List.mem_cons_of_mem _ mem)) tail
      exact ⟨by rw [head], rfl⟩

/-- Two texts that start with a number and an underscore. -/
theorem cut_underscore {m n : Nat} {s t : String}
    (same : m.repr ++ ("_" ++ s) = n.repr ++ ("_" ++ t)) : m = n ∧ s = t := by
  have lists := congrArg String.toList same
  simp only [String.toList_append, Nat.toList_repr] at lists
  obtain ⟨digits, rest⟩ := cut_at_first Nat.underscore_not_in_toDigits
    Nat.underscore_not_in_toDigits lists
  refine ⟨repr_injective ?_, String.toList_inj.mp rest⟩
  rw [← String.toList_inj, Nat.toList_repr, Nat.toList_repr, digits]

theorem Label.text_block (nr : U32) : (Label.block nr).text = "block_" ++ nr.toNat.repr := rfl

theorem Label.text_next (nr : U32) (i : Nat) :
    (Label.next nr i).text = "next_" ++ (nr.toNat.repr ++ ("_" ++ i.repr)) := by
  simp [Label.text, toString, String.append_assoc]

theorem Label.text_hit (nr : U32) (i j : Nat) :
    (Label.hit nr i j).text =
      "hit_" ++ (nr.toNat.repr ++ ("_" ++ (i.repr ++ ("_" ++ j.repr)))) := by
  simp [Label.text, toString, String.append_assoc]

/-- The first letter tells the four kinds apart. -/
theorem Label.head_text (l : Label) :
    l.text.toList.head? = some (match l with
      | .block _ => 'b'
      | .next .. => 'n'
      | .hit .. => 'h'
      | .kill => 'k') := by
  cases l with
  | block nr => rw [text_block, String.toList_append]; rfl
  | next nr i => rw [text_next, String.toList_append]; rfl
  | hit nr i j => rw [text_hit, String.toList_append]; rfl
  | kill => rfl

theorem Label.text_injective {l l' : Label} (same : l.text = l'.text) : l = l' := by
  have heads := l.head_text
  rw [same, l'.head_text] at heads
  cases l with
  | block nr =>
    cases l' with
    | block nr' =>
      rw [text_block, text_block, String.append_right_inj] at same
      rw [BitVec.toNat_inj.mp (repr_injective same)]
    | _ => cases heads
  | next nr i =>
    cases l' with
    | next nr' i' =>
      rw [text_next, text_next, String.append_right_inj] at same
      obtain ⟨number, rule⟩ := cut_underscore same
      rw [BitVec.toNat_inj.mp number, repr_injective rule]
    | _ => cases heads
  | hit nr i j =>
    cases l' with
    | hit nr' i' j' =>
      rw [text_hit, text_hit, String.append_right_inj] at same
      obtain ⟨number, rest⟩ := cut_underscore same
      obtain ⟨rule, cond⟩ := cut_underscore rest
      rw [BitVec.toNat_inj.mp number, rule, repr_injective cond]
    | _ => cases heads
  | kill =>
    cases l' with
    | kill => rfl
    | _ => cases heads

end Seccompy
