import Mathlib.Tactic

/-!
# The life of a request, as one party sees it

A request is opened, taken by a party that is to settle it, and at last over: settled, or
gone by itself.  A party does not see the request but the outcomes of its own operations on
it, each of which tells something about the moment at which it was carried out.  What the
party then knows is a bound on where the request stands (`Phase.Follows.sight`), and this
decides which sequences of outcomes it can ever see (`sightings_life`): it takes a request
once, settles it once, and finds it gone for good.
-/

namespace Seccompy.Lib

/-- Not taken yet, taken and not settled, or over. -/
inductive Phase
  | fresh
  | held
  | ended
  deriving DecidableEq, Repr

def Phase.rank : Phase → Nat
  | .fresh => 0
  | .held => 1
  | .ended => 2

theorem Phase.rank_injective : Function.Injective Phase.rank := by
  intro a b same
  cases a <;> cases b <;> first | rfl | cases same

instance : LinearOrder Phase := LinearOrder.lift' Phase.rank Phase.rank_injective

/-- An outcome: the party took the request; found it taken and not settled; settled it; or
found it anything but taken and not settled. -/
inductive Sighting
  | taken
  | seen
  | settled
  | missing
  deriving DecidableEq, Repr

/-- What an outcome tells about the request when the operation was carried out, and after. -/
def Sighting.Tells : Sighting → Phase → Phase → Prop
  | .taken, ph, ph' => ph = .fresh ∧ ph' = .held
  | .seen, ph, _ => ph = .held
  | .settled, ph, ph' => ph = .held ∧ ph' = .ended
  | .missing, ph, _ => ph ≠ .held

/-- What the party knows after an outcome; `none` where the outcome cannot be.  Only a party
that is not the sole one to take requests can find one held that it has not taken. -/
def Phase.sight (sole : Bool) : Phase → Sighting → Option Phase
  | .fresh, .taken => some .held
  | .fresh, .seen => if sole then none else some .held
  | .fresh, .settled => if sole then none else some .ended
  | .fresh, .missing => some .fresh
  | .held, .taken => none
  | .held, .seen => some .held
  | .held, .settled => some .ended
  | .held, .missing => some .ended
  | .ended, .missing => some .ended
  | .ended, _ => none

def Phase.sightings (sole : Bool) (known : Phase) (outcomes : List Sighting) : Option Phase :=
  outcomes.foldlM (Phase.sight sole) known

/-! ## Knowledge follows the request -/

/-- What is known bounds where the request stands; the sole party to take requests knows of
each that is held. -/
structure Phase.Follows (sole : Bool) (known actual : Phase) : Prop where
  bound : known ≤ actual
  taken : sole = true → actual = .held → known = .held

variable {sole : Bool} {known actual ph ph' : Phase} {outcome : Sighting}

theorem Phase.follows_fresh (unheld : sole = true → actual ≠ .held) :
    Phase.Follows sole .fresh actual :=
  ⟨by cases actual <;> decide, fun is held => absurd held (unheld is)⟩

/-- The request moves on by itself; a sole party is the only one to take it. -/
theorem Phase.Follows.later (follows : Phase.Follows sole known actual) (on : actual ≤ ph)
    (untaken : sole = true → ph = .held → actual = .held) : Phase.Follows sole known ph :=
  ⟨follows.bound.trans on, fun is held => follows.taken is (untaken is held)⟩

/-- An outcome can be, and what is known after it follows the request. -/
theorem Phase.Follows.sight (follows : Phase.Follows sole known ph) (on : ph ≤ ph')
    (tells : outcome.Tells ph ph')
    (untaken : sole = true → outcome ≠ .taken → ph' = .held → ph = .held) :
    ∃ known', Phase.sight sole known outcome = some known' ∧ Phase.Follows sole known' ph' := by
  obtain ⟨bound, taken⟩ := follows
  cases outcome with
  | taken =>
    obtain ⟨rfl, rfl⟩ := tells
    obtain rfl : known = .fresh := by
      cases known
      · rfl
      · exact absurd bound (by decide)
      · exact absurd bound (by decide)
    exact ⟨.held, rfl, le_rfl, fun _ _ => rfl⟩
  | seen =>
    obtain rfl : ph = .held := tells
    cases known with
    | fresh =>
      cases sole with
      | true => cases taken rfl rfl
      | false => exact ⟨.held, rfl, on, fun is => by cases is⟩
    | held => exact ⟨.held, rfl, on, fun _ _ => rfl⟩
    | ended => exact absurd bound (by decide)
  | settled =>
    obtain ⟨rfl, rfl⟩ := tells
    cases known with
    | fresh =>
      cases sole with
      | true => cases taken rfl rfl
      | false => exact ⟨.ended, rfl, le_rfl, fun is => by cases is⟩
    | held => exact ⟨.ended, rfl, le_rfl, fun _ held => by cases held⟩
    | ended => exact absurd bound (by decide)
  | missing =>
    have unheld : sole = true → ph' ≠ .held := fun is held =>
      tells (untaken is (by decide) held)
    cases known with
    | fresh => exact ⟨.fresh, rfl, bound.trans on, fun is held => absurd held (unheld is)⟩
    | held =>
      obtain rfl : ph = .ended := by
        cases ph
        · exact absurd bound (by decide)
        · exact absurd rfl tells
        · rfl
      exact ⟨.ended, rfl, on, fun is held => absurd held (unheld is)⟩
    | ended => exact ⟨.ended, rfl, bound.trans on, fun is held => absurd held (unheld is)⟩

/-! ## What a party can see -/

variable {outcomes before behind : List Sighting}

theorem sightings_append : Phase.sightings sole known (before ++ behind) =
    (Phase.sightings sole known before).bind fun mid => Phase.sightings sole mid behind :=
  List.foldlM_append

theorem sightings_cons : Phase.sightings sole known (outcome :: behind) =
    (Phase.sight sole known outcome).bind fun mid => Phase.sightings sole mid behind :=
  List.foldlM_cons

/-- A possible sequence, cut at one of its outcomes. -/
theorem sightings_split (possible : Phase.sightings sole known (before ++ outcome :: behind) = some ph) :
    ∃ mid next, Phase.sightings sole known before = some mid ∧
      Phase.sight sole mid outcome = some next ∧ Phase.sightings sole next behind = some ph := by
  rw [sightings_append] at possible
  obtain ⟨mid, first, possible⟩ := Option.bind_eq_some_iff.mp possible
  rw [sightings_cons] at possible
  obtain ⟨next, second, last⟩ := Option.bind_eq_some_iff.mp possible
  exact ⟨mid, next, first, second, last⟩

theorem le_sight (possible : Phase.sight sole known outcome = some ph) : known ≤ ph := by
  revert possible
  cases sole <;> cases known <;> cases outcome <;> cases ph <;> decide

theorem le_sightings (possible : Phase.sightings sole known outcomes = some ph) : known ≤ ph := by
  induction outcomes generalizing known with
  | nil =>
    cases possible
    exact le_rfl
  | cons outcome outcomes ih =>
    rw [sightings_cons] at possible
    obtain ⟨mid, first, rest⟩ := Option.bind_eq_some_iff.mp possible
    exact (le_sight first).trans (ih rest)

/-- Once over, a request is only ever found missing. -/
theorem sightings_ended (possible : Phase.sightings sole .ended outcomes = some ph) :
    ∀ o ∈ outcomes, o = .missing := by
  induction outcomes with
  | nil => exact List.forall_mem_nil _
  | cons outcome outcomes ih =>
    rw [sightings_cons] at possible
    obtain ⟨mid, first, rest⟩ := Option.bind_eq_some_iff.mp possible
    cases outcome with
    | missing =>
      cases first
      exact List.forall_mem_cons.mpr ⟨rfl, ih rest⟩
    | taken => cases first
    | seen => cases first
    | settled => cases first

/-- How far the request is, at least, behind an outcome. -/
def Sighting.least : Sighting → Phase
  | .taken | .seen => .held
  | .settled => .ended
  | .missing => .fresh

theorem least_le_sightings (possible : Phase.sightings sole known outcomes = some ph) :
    ∀ o ∈ outcomes, o.least ≤ ph := by
  intro o mem
  obtain ⟨before, behind, rfl⟩ := List.append_of_mem mem
  obtain ⟨mid, next, -, second, last⟩ := sightings_split possible
  refine le_trans ?_ (le_sightings last)
  revert second
  cases sole <;> cases mid <;> cases o <;> cases next <;> decide

/-- A life as a party sees it: missing as long as it is not taken, then taken, found held,
settled, and missing for good. -/
def Life (outcomes : List Sighting) : Prop :=
  ∃ a took b ended c, outcomes = List.replicate a .missing ++ took ++ List.replicate b .seen ++
    ended ++ List.replicate c .missing ∧ took <+: [.taken] ∧ ended <+: [.settled]

/-- What is seen of a request that was taken. -/
theorem sightings_held_life (possible : Phase.sightings sole .held outcomes = some ph) :
    ∃ b ended c, outcomes = List.replicate b .seen ++ ended ++ List.replicate c .missing ∧
      ended <+: [.settled] ∧ (ph = .held → ended = [] ∧ c = 0) := by
  induction outcomes with
  | nil => exact ⟨0, [], 0, rfl, List.nil_prefix, fun _ => ⟨rfl, rfl⟩⟩
  | cons outcome outcomes ih =>
    rw [sightings_cons] at possible
    obtain ⟨mid, first, rest⟩ := Option.bind_eq_some_iff.mp possible
    cases outcome with
    | taken => cases first
    | seen =>
      cases first
      obtain ⟨b, ended, c, rfl, shape⟩ := ih rest
      exact ⟨b + 1, ended, c, rfl, shape⟩
    | settled =>
      cases first
      refine ⟨0, [.settled], outcomes.length, ?_, List.prefix_rfl, ?_⟩
      · exact congrArg _ (List.eq_replicate_of_mem (sightings_ended rest))
      · rintro rfl
        exact absurd (le_sightings rest) (by decide)
    | missing =>
      cases first
      refine ⟨0, [], outcomes.length + 1, ?_, List.nil_prefix, ?_⟩
      · exact congrArg _ (List.eq_replicate_of_mem (sightings_ended rest))
      · rintro rfl
        exact absurd (le_sightings rest) (by decide)

theorem sightings_life (possible : Phase.sightings sole .fresh outcomes = some ph) :
    Life outcomes := by
  induction outcomes with
  | nil => exact ⟨0, [], 0, [], 0, rfl, List.nil_prefix, List.nil_prefix⟩
  | cons outcome outcomes ih =>
    rw [sightings_cons] at possible
    obtain ⟨mid, first, rest⟩ := Option.bind_eq_some_iff.mp possible
    cases outcome with
    | taken =>
      cases first
      obtain ⟨b, ended, c, rfl, ends, -⟩ := sightings_held_life rest
      exact ⟨0, [.taken], b, ended, c, rfl, List.prefix_rfl, ends⟩
    | seen =>
      cases sole <;> cases first
      obtain ⟨b, ended, c, rfl, ends, -⟩ := sightings_held_life rest
      exact ⟨0, [], b + 1, ended, c, rfl, List.nil_prefix, ends⟩
    | settled =>
      cases sole <;> cases first
      refine ⟨0, [], 0, [.settled], outcomes.length, ?_, List.nil_prefix, List.prefix_rfl⟩
      exact congrArg _ (List.eq_replicate_of_mem (sightings_ended rest))
    | missing =>
      cases first
      obtain ⟨a, took, b, ended, c, rfl, shape⟩ := ih rest
      exact ⟨a + 1, took, b, ended, c, rfl, shape⟩

/-- In a life the request is taken once and settled once. -/
theorem Life.count_le_one (life : Life outcomes) {o : Sighting}
    (once : o = .taken ∨ o = .settled) : outcomes.count o ≤ 1 := by
  obtain ⟨a, took, b, ended, c, rfl, takes, ends⟩ := life
  have takes := takes.sublist.count_le o
  have ends := ends.sublist.count_le o
  rcases once with rfl | rfl
  · simp [List.count_replicate] at takes ends ⊢
    omega
  · simp [List.count_replicate] at takes ends ⊢
    omega

end Seccompy.Lib
