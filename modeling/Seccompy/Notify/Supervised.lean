import Seccompy.Notify.Protocol

/-!
# What a supervisor can see

The kernel stays a parameter.  What its documentation promises of a notification is
assumed by name: it is received once, and completed once (`NotifKernel.Documented`); where
nobody else receives on the descriptor, `NotifKernel.Exclusive` says so.  Under these the
outcomes of a supervisor's calls on one notification form a life of it, whatever the kernel
does between and during the calls, whichever attempts are interrupted, and whatever an
interrupted attempt has done.
-/

namespace Seccompy

open Lib Bpf

/-! ## What an outcome of a call says -/

/-- The notification a call is about. -/
def RequestCall.notifId? : RequestCall → Option Int
  | .respond notifId .. | .addfd notifId .. | .valid notifId => some notifId
  | .setFlags _ => none

/-- The call answers the notification; `addfd` does with SEND. -/
def RequestCall.completes : RequestCall → Bool
  | .respond .. => true
  | .addfd _ _ flags .. => decide (flags / 2 % 2 = 1)
  | _ => false

def RequestCall.sighting? (c : RequestCall) : Except PyExc CallValue → Option Sighting
  | .ok (.truth false) => some .missing
  | .ok _ => some (if c.completes then .settled else .seen)
  | .error e => if e = .seccompError enoent then some .missing else none

def SupervisorCall.sighting? (id : Int) :
    SupervisorCall → Except PyExc CallValue → Option Sighting
  | .recv => fun
    | .ok (.notification n) => if (n.id : Int) = id then some .taken else none
    | _ => none
  | .ask c => fun result => if c.notifId? = some id then c.sighting? result else none

/-- What an exchange says of a notification. -/
def Exchange.sighting? (id : Int) (e : Exchange) : Option Sighting := e.call.sighting? id e.result

/-- What the supervisor has seen of a notification. -/
def Supervision.sightings {σ : Type} (w : Supervision σ) (id : Int) : List Sighting :=
  w.exchanges.filterMap (Exchange.sighting? id)

theorem getLsbD_one_ofInt {n : Int} (least : 0 ≤ n) (most : n < 2 ^ 32) :
    (BitVec.ofInt 32 n).getLsbD 1 = decide (n / 2 % 2 = 1) := by
  have word := toNat_ofInt_fits least most
  rw [← BitVec.testBit_toNat, Nat.testBit_succ, Nat.testBit_zero]
  congr 1
  apply propext
  omega

/-- The request of a call refers to the notification that the call is about. -/
theorem RequestCall.cookie_request {c : RequestCall} (within : c.Within maxFd) (id : U64) :
    c.request.cookie? = some id ↔ c.notifId? = some (id.toNat : Int) := by
  have same : ∀ {n : Int}, 0 ≤ n → n < 2 ^ 64 →
      (some (BitVec.ofInt 64 n) = some id ↔ some n = some (id.toNat : Int)) := by
    intro n least most
    have word := toNat_ofInt_fits (w := 64) least most
    rw [Option.some_inj, Option.some_inj, ← BitVec.toNat_inj]
    omega
  cases c with
  | respond notifId error val flags => exact same within.1.1 within.1.2
  | addfd notifId localFd flags newfd newfdFlags => exact same within.1.1 within.1.2
  | valid notifId => exact same within.1 within.2
  | setFlags flags => exact iff_of_false nofun nofun

theorem RequestCall.completes_request {c : RequestCall} (within : c.Within maxFd) :
    c.request.completes = c.completes := by
  cases c with
  | addfd notifId localFd flags newfd newfdFlags =>
    exact getLsbD_one_ofInt within.2.2.2.1.1 within.2.2.2.1.2
  | respond notifId error val flags => rfl
  | valid notifId => rfl
  | setFlags flags => rfl

theorem RequestCall.request_ne_recv (c : RequestCall) : c.request ≠ .recv := by
  cases c <;> exact nofun

theorem raiseErrno_enoent {errno : Int} : raiseErrno errno = .seccompError enoent ↔ errno = enoent := by
  unfold raiseErrno
  constructor
  · intro is
    split at is
    · cases is
    · exact PyExc.seccompError.inj is
  · rintro rfl
    rfl

theorem RequestCall.sighting?_ok (c : RequestCall) (filled : SeccompNotif) (n : Int) :
    c.sighting? ((SupervisorCall.ask c).value filled (.ok n)) =
      some (if c.completes then .settled else .seen) := by
  obtain ⟨v, is, present, -⟩ := (SupervisorCall.ask c).value_ok filled n
  rw [is]
  unfold RequestCall.sighting?
  split
  · next absurd => exact (present (Except.ok.inj absurd)).elim
  · rfl
  · next absurd => cases absurd

theorem RequestCall.sighting?_error (c : RequestCall) (filled : SeccompNotif) (e : PyExc) :
    c.sighting? ((SupervisorCall.ask c).value filled (.error e)) =
      if e = .seccompError enoent then some .missing else none := by
  rcases (SupervisorCall.ask c).value_error filled e with is | ⟨gone, is⟩
  · rw [is]
    rfl
  · rw [is, if_pos gone]
    rfl

/-! ## What the kernel documents -/

section Documented

variable {σ : Type} (K : NotifKernel σ) (phase : σ → U64 → Phase)

/-- A notification is received once and completed once: it never goes back; a RECV that
succeeds hands over one that was not received before; any other request that succeeds has
found the notification it refers to received and not completed, and one that completes it
has completed it; where the reply is ENOENT it has not found it so.  What an attempt that
fails has done besides is open. -/
structure NotifKernel.Documented : Prop where
  moves {k k' : σ} (move : K.move k k') (id : U64) : phase k id ≤ phase k' id
  forward {k k' : σ} {request : IoctlRequest} {filled : SeccompNotif} {reply : Reply}
    (serve : K.serve k request filled reply k') (id : U64) : phase k id ≤ phase k' id
  hands {k k' : σ} {filled : SeccompNotif} {reply : Reply}
    (serve : K.serve k .recv filled reply k') (done : reply.ret ≠ -1) :
    phase k filled.id = .fresh ∧ phase k' filled.id = .held
  awaits {k k' : σ} {request : IoctlRequest} {filled : SeccompNotif} {reply : Reply} {id : U64}
    (serve : K.serve k request filled reply k') (done : reply.ret ≠ -1)
    (names : request.cookie? = some id) : phase k id = .held
  completes {k k' : σ} {request : IoctlRequest} {filled : SeccompNotif} {reply : Reply} {id : U64}
    (serve : K.serve k request filled reply k') (done : reply.ret ≠ -1)
    (names : request.cookie? = some id) (last : request.completes = true) : phase k' id = .ended
  absent {k k' : σ} {request : IoctlRequest} {filled : SeccompNotif} {reply : Reply} {id : U64}
    (serve : K.serve k request filled reply k') (failed : reply.ret = -1)
    (gone : reply.errno = enoent) (names : request.cookie? = some id) : phase k id ≠ .held

/-- Nobody but the supervisor receives: a notification becomes received only by a RECV of
the supervisor that succeeds. -/
structure NotifKernel.Exclusive : Prop where
  moves {k k' : σ} (move : K.move k k') {id : U64} (held : phase k' id = .held) :
    phase k id = .held
  serves {k k' : σ} {request : IoctlRequest} {filled : SeccompNotif} {reply : Reply}
    (serve : K.serve k request filled reply k') {id : U64} (held : phase k' id = .held) :
    phase k id = .held ∨ (request = .recv ∧ reply.ret ≠ -1 ∧ id = filled.id)

/-- What happens before the attempt that decides a call: the kernel moves, and attempts are
interrupted, whatever these have done. -/
def NotifKernel.Drift (filled : SeccompNotif) : σ → σ → Prop :=
  Relation.ReflTransGen fun k k' =>
    K.move k k' ∨ ∃ request, K.serve k request filled .interrupted k'

variable {K phase} {filled : SeccompNotif} {k k' : σ}

theorem NotifKernel.drift_moved (moved : Relation.ReflTransGen K.move k k') :
    K.Drift filled k k' :=
  Relation.ReflTransGen.mono (fun _ _ => Or.inl) _ _ moved

theorem NotifKernel.Documented.drift (documented : K.Documented phase)
    (drift : K.Drift filled k k') (id : U64) : phase k id ≤ phase k' id := by
  induction drift with
  | refl => exact le_rfl
  | tail _ step ih =>
    rcases step with move | ⟨request, serve⟩
    · exact ih.trans (documented.moves move id)
    · exact ih.trans (documented.forward serve id)

theorem NotifKernel.Exclusive.drift (exclusive : K.Exclusive phase)
    (drift : K.Drift filled k k') {id : U64} (held : phase k' id = .held) : phase k id = .held := by
  induction drift with
  | refl => exact held
  | tail _ step ih =>
    rcases step with move | ⟨request, serve⟩
    · exact ih (exclusive.moves move held)
    · rcases exclusive.serves serve held with before | ⟨-, done, -⟩
      · exact ih before
      · exact absurd rfl done

theorem serves_interrupted {request : IoctlRequest} {n : Nat} {rest : List Attempt}
    (serves : K.Serves filled k (List.replicate n (request, .interrupted) ++ rest) k') :
    ∃ k₁, K.Drift filled k k₁ ∧ K.Serves filled k₁ rest k' := by
  induction n generalizing k with
  | zero => exact ⟨k, .refl, serves⟩
  | succ n ih =>
    cases serves with
    | cons moved serve rest =>
      obtain ⟨k₁, drift, serves⟩ := ih rest
      exact ⟨k₁, ((NotifKernel.drift_moved moved).tail (.inr ⟨request, serve⟩)).trans drift, serves⟩

/-- A call was decided by one attempt, or by none. -/
theorem Settles.decided {request : IoctlRequest} {attempts : List Attempt}
    {answer : Except PyExc Int} (settles : Settles request attempts answer)
    (serves : K.Serves filled k attempts k') :
    (K.Drift filled k k' ∧ ∃ e, answer = .error e ∧ e ≠ .seccompError enoent) ∨
      ∃ k₁ r, K.Drift filled k k₁ ∧ K.serve k₁ request filled r k' ∧ answer = r.outcome := by
  cases settles with
  | unserved other =>
    rw [← List.append_nil (List.replicate _ _)] at serves
    obtain ⟨k₁, drift, serves⟩ := serves_interrupted serves
    cases serves
    exact .inl ⟨drift, _, rfl, other⟩
  | @served n r decisive =>
    obtain ⟨k₁, drift, serves⟩ := serves_interrupted serves
    cases serves with
    | cons moved serve rest =>
      cases rest
      exact .inr ⟨_, r, drift.trans (NotifKernel.drift_moved moved), serve, rfl⟩

end Documented

/-! ## One call -/

section Call

variable {σ : Type} {K : NotifKernel σ} {phase : σ → U64 → Phase} {filled : SeccompNotif}
  {k k' : σ} {sole : Bool} {id : U64}

/-- What an attempt that decides a call has done to the notification `id`, and what the call
says of it. -/
structure Reveals (phase : σ → U64 → Phase) (sole : Bool) (id : U64) (k k' : σ)
    (shown : Option Sighting) : Prop where
  on : phase k id ≤ phase k' id
  tells : ∀ o ∈ shown, o.Tells (phase k id) (phase k' id)
  untaken : sole = true → shown ≠ some .taken → phase k' id = .held → phase k id = .held

theorem reveals_recv (documented : K.Documented phase) (exclusive : sole = true → K.Exclusive phase)
    {reply : Reply} (serve : K.serve k .recv filled reply k') (id : U64) :
    Reveals phase sole id k k' (SupervisorCall.recv.sighting? (id.toNat : Int)
      (SupervisorCall.recv.value filled reply.outcome)) := by
  by_cases failed : reply.ret = -1
  · rw [Reply.outcome, if_neg (not_not.mpr failed)]
    refine ⟨documented.forward serve id, (fun o shown => by cases shown), fun is _ held => ?_⟩
    exact ((exclusive is).serves serve held).resolve_right fun given => given.2.1 failed
  · rw [Reply.outcome, if_pos failed]
    have shown : SupervisorCall.recv.sighting? (id.toNat : Int)
        (SupervisorCall.recv.value filled (.ok reply.ret)) =
          if filled.id = id then some .taken else none := by
      simp only [SupervisorCall.value, Except.map, SupervisorCall.sighting?,
        SeccompNotif.notification, Nat.cast_inj, BitVec.toNat_inj]
    rw [shown]
    by_cases same : filled.id = id
    · obtain ⟨before, after⟩ := documented.hands serve failed
      rw [if_pos same]
      subst same
      refine ⟨documented.forward serve _, fun o shown => ?_, fun _ other => absurd rfl other⟩
      cases shown
      exact ⟨before, after⟩
    · rw [if_neg same]
      refine ⟨documented.forward serve id, (fun o shown => by cases shown), fun is _ held => ?_⟩
      exact ((exclusive is).serves serve held).resolve_right fun given => same given.2.2.symm

theorem reveals_ask (documented : K.Documented phase) (exclusive : sole = true → K.Exclusive phase)
    {c : RequestCall} (within : c.Within maxFd) {reply : Reply}
    (serve : K.serve k c.request filled reply k') (id : U64) :
    Reveals phase sole id k k' ((SupervisorCall.ask c).sighting? (id.toNat : Int)
      ((SupervisorCall.ask c).value filled reply.outcome)) := by
  refine ⟨documented.forward serve id, ?_, fun is _ held => ?_⟩
  · intro o shown
    by_cases names : c.notifId? = some (id.toNat : Int)
    · have cookie := (RequestCall.cookie_request within id).mpr names
      simp only [SupervisorCall.sighting?, if_pos names] at shown
      by_cases failed : reply.ret = -1
      · rw [Reply.outcome, if_neg (not_not.mpr failed), c.sighting?_error] at shown
        by_cases gone : raiseErrno reply.errno = .seccompError enoent
        · rw [if_pos gone] at shown
          cases shown
          exact documented.absent serve failed (raiseErrno_enoent.mp gone) cookie
        · rw [if_neg gone] at shown
          cases shown
      · rw [Reply.outcome, if_pos failed, c.sighting?_ok] at shown
        have waits := documented.awaits serve failed cookie
        by_cases last : c.completes = true
        · rw [if_pos last] at shown
          cases shown
          exact ⟨waits, documented.completes serve failed cookie
            ((RequestCall.completes_request within).trans last)⟩
        · rw [if_neg last] at shown
          cases shown
          exact waits
    · simp only [SupervisorCall.sighting?, if_neg names] at shown
      cases shown
  · exact ((exclusive is).serves serve held).resolve_right fun given => c.request_ne_recv given.1

/-- What is known of a notification still follows it after a call. -/
theorem Exchange.follows (documented : K.Documented phase)
    (exclusive : sole = true → K.Exclusive phase) {e : Exchange} {p : Platform} {s s' : Listener}
    (ran : (e.call.perform p (Attempt.replies e.attempts) e.filled).call s = (e.result, s'))
    (issued : s'.log = s.log ++ Attempt.issued e.attempts)
    (serves : K.Serves e.filled k e.attempts k') {known : Phase}
    (follows : Phase.Follows sole known (phase k id)) :
    ∃ known', Phase.sightings sole known (e.sighting? (id.toNat : Int)).toList = some known' ∧
      Phase.Follows sole known' (phase k' id) := by
  have drifts : ∀ {k₁}, K.Drift e.filled k k₁ → Phase.Follows sole known (phase k₁ id) := fun drift =>
    follows.later (documented.drift drift id) fun is held => (exclusive is).drift drift held
  have silent : ∀ {exc : PyExc}, exc ≠ .seccompError enoent → e.result = .error exc →
      e.sighting? (id.toNat : Int) = none := by
    intro exc other is
    rw [Exchange.sighting?, is]
    cases e.call with
    | recv => rfl
    | ask c => simp [SupervisorCall.sighting?, RequestCall.sighting?, other]
  rcases SupervisorCall.call_settles ran issued with ⟨-, none, msg, refused⟩ |
    ⟨within, answer, settles, value⟩
  · rw [silent (by simp) refused]
    rw [none] at serves
    cases serves
    exact ⟨known, rfl, follows⟩
  · rcases settles.decided serves with ⟨drift, exc, rfl, other⟩ | ⟨k₁, reply, drift, serve, rfl⟩
    · rw [silent other (value.trans ((e.call.value_error e.filled exc).resolve_right
        fun given => other given.1))]
      exact ⟨known, rfl, drifts drift⟩
    · have reveals : Reveals phase sole id k₁ k' (e.sighting? (id.toNat : Int)) := by
        rw [Exchange.sighting?, value]
        cases call : e.call with
        | recv =>
          rw [call] at serve
          exact reveals_recv documented exclusive serve id
        | ask c =>
          rw [call] at serve within
          exact reveals_ask documented exclusive within serve id
      cases shown : e.sighting? (id.toNat : Int) with
      | none =>
        rw [shown] at reveals
        exact ⟨known, rfl, (drifts drift).later reveals.on fun is held =>
          reveals.untaken is nofun held⟩
      | some o =>
        rw [shown] at reveals
        obtain ⟨known', possible, follows⟩ := (drifts drift).sight reveals.on
          (reveals.tells o rfl) fun is other => reveals.untaken is fun same =>
            other (Option.some_inj.mp same)
        refine ⟨known', ?_, follows⟩
        rw [Option.toList_some, sightings_cons, possible]
        rfl

end Call

/-! ## Whole supervisions -/

section Runs

variable {σ : Type} {K : NotifKernel σ} {phase : σ → U64 → Phase} {p : Platform} {sole : Bool}
  {k : σ} {fd : Int} {w w' : Supervision σ}

/-- What the supervisor has seen of the notification can be, and what it knows from it follows
the kernel. -/
def Supervision.Knows (phase : σ → U64 → Phase) (sole : Bool) (w : Supervision σ) (id : U64) : Prop :=
  ∃ known, Phase.sightings sole .fresh (w.sightings (id.toNat : Int)) = some known ∧
    Phase.Follows sole known (phase w.kernel id)

theorem Supervision.knows_step (documented : K.Documented phase)
    (exclusive : sole = true → K.Exclusive phase) {id : U64} (knows : w.Knows phase sole id)
    (step : w.Step K p w') : w'.Knows phase sole id := by
  obtain ⟨known, possible, follows⟩ := knows
  cases step with
  | move moved =>
    exact ⟨known, possible, follows.later (documented.moves moved id)
      fun is held => (exclusive is).moves moved held⟩
  | close closes ran => exact ⟨known, possible, follows⟩
  | @call e s k ran issued serves =>
    obtain ⟨known', next, follows⟩ := Exchange.follows documented exclusive ran issued serves follows
    refine ⟨known', ?_, follows⟩
    have last : [e].filterMap (Exchange.sighting? (id.toNat : Int)) =
        (e.sighting? (id.toNat : Int)).toList := by
      cases shown : e.sighting? (id.toNat : Int) <;> simp [shown]
    rw [Supervision.sightings, List.filterMap_append, sightings_append]
    exact Option.bind_eq_some_iff.mpr ⟨known, possible, last ▸ next⟩

theorem Supervision.Reachable.knows (sole : Bool) (documented : K.Documented phase)
    (exclusive : sole = true → K.Exclusive phase)
    (unheld : sole = true → ∀ id, phase k id ≠ .held) (reachable : w.Reachable K p k fd)
    (id : U64) : w.Knows phase sole id := by
  induction reachable with
  | refl => exact ⟨.fresh, rfl, Phase.follows_fresh fun is => unheld is id⟩
  | tail _ step ih => exact Supervision.knows_step documented exclusive ih step

/-- A call says something of a notification only where its id is one. -/
theorem Exchange.sighting_range {e : Exchange} {s s' : Listener}
    (ran : (e.call.perform p (Attempt.replies e.attempts) e.filled).call s = (e.result, s'))
    (issued : s'.log = s.log ++ Attempt.issued e.attempts) :
    ∀ {n : Int} {o : Sighting}, e.sighting? n = some o → ∃ id : U64, (id.toNat : Int) = n := by
  intro n o shown
  rw [Exchange.sighting?] at shown
  rcases SupervisorCall.call_settles ran issued with ⟨-, -, msg, refused⟩ | ⟨within, answer, -, value⟩
  · rw [refused] at shown
    cases call : e.call with
    | recv =>
      rw [call] at shown
      cases shown
    | ask c =>
      rw [call] at shown
      simp [SupervisorCall.sighting?, RequestCall.sighting?] at shown
  · cases call : e.call with
    | recv =>
      rw [call] at value shown
      rw [value] at shown
      cases answer with
      | error exc => cases shown
      | ok r =>
        simp only [SupervisorCall.value, Except.map, SupervisorCall.sighting?] at shown
        by_cases same : (e.filled.notification.id : Int) = n
        · exact ⟨e.filled.id, same⟩
        · rw [if_neg same] at shown
          cases shown
    | ask c =>
      rw [call] at within shown
      simp only [SupervisorCall.sighting?] at shown
      by_cases names : c.notifId? = some n
      · have fits : 0 ≤ n ∧ n < 2 ^ 64 := by
          cases c <;> cases names
          · exact within.1
          · exact within.1
          · exact within
        exact ⟨BitVec.ofInt 64 n, toNat_ofInt_fits fits.1 fits.2⟩
      · rw [if_neg names] at shown
        cases shown

/-- However the kernel and the calls interleave, what the supervisor sees of each notification
is a life of it: it asks in vain as long as the notification is not received, then finds it
waiting until it is answered or gone, and from then on asks in vain for good.  What it has
seen is true of the kernel: a notification received or found waiting was received, and one
answered is over. -/
theorem history_possible (K : NotifKernel σ) (phase : σ → U64 → Phase)
    (documented : K.Documented phase) (p : Platform) (k : σ) (fd : Int) (w : Supervision σ)
    (reachable : w.Reachable K p k fd) (id : U64) :
    Life (w.sightings (id.toNat : Int)) ∧
      ∀ o ∈ w.sightings (id.toNat : Int), o.least ≤ phase w.kernel id := by
  obtain ⟨known, possible, follows⟩ := reachable.knows false documented nofun nofun id
  exact ⟨sightings_life possible,
    fun o mem => (least_le_sightings possible o mem).trans follows.bound⟩

/-! ## Received once, answered once -/

/-- The notification that a call has answered. -/
def Exchange.answered? (e : Exchange) : Option Int :=
  match e.call with
  | .recv => none
  | .ask c => if c.sighting? e.result = some .settled then c.notifId? else none

theorem Exchange.answered?_iff (e : Exchange) (n : Int) :
    e.answered? = some n ↔ e.sighting? n = some .settled := by
  unfold Exchange.answered? Exchange.sighting?
  cases e.call with
  | recv =>
    refine iff_of_false nofun ?_
    simp only [SupervisorCall.sighting?]
    split
    · split <;> exact nofun
    · exact nofun
  | ask c =>
    simp only [SupervisorCall.sighting?]
    by_cases settled : c.sighting? e.result = some .settled
    · simp [settled]
    · simp [settled]

theorem Exchange.Exact.notification?_iff {e : Exchange} (exact : e.Exact) (n : Int) :
    e.notification?.map (fun m => (m.id : Int)) = some n ↔ e.sighting? n = some .taken := by
  cases call : e.call with
  | recv =>
    simp only [Exchange.notification?, Exchange.sighting?, call, SupervisorCall.sighting?]
    rcases e.result with exc | v
    · simp
    · cases v <;> simp
  | ask c =>
    have unwritten : e.written? = none := if_neg fun given => by
      obtain ⟨a, mem, -, recv⟩ := given
      have own := (exact.own a mem).1
      rw [call] at own
      exact c.request_ne_recv (own.symm.trans recv)
    rw [exact.received, unwritten, Exchange.sighting?, call]
    refine iff_of_false nofun ?_
    simp only [SupervisorCall.sighting?, RequestCall.sighting?]
    split
    · split
      · exact nofun
      · split <;> exact nofun
      · split <;> exact nofun
    · exact nofun

theorem count_filterMap_congr {α β γ : Type} [DecidableEq β] [DecidableEq γ] {f : α → Option β}
    {g : α → Option γ} {b : β} {c : γ} {l : List α} (same : ∀ a ∈ l, f a = some b ↔ g a = some c) :
    (l.filterMap f).count b = (l.filterMap g).count c := by
  induction l with
  | nil => rfl
  | cons a l ih =>
    obtain ⟨first, rest⟩ := List.forall_mem_cons.mp same
    rw [List.filterMap_cons, List.filterMap_cons]
    cases fa : f a <;> cases ga : g a <;> simp_all [List.count_cons]

theorem Supervision.Reachable.count_le_one (documented : K.Documented phase)
    (reachable : w.Reachable K p k fd) (n : Int) {o : Sighting} (once : o = .taken ∨ o = .settled) :
    (w.sightings n).count o ≤ 1 := by
  by_cases range : ∃ id : U64, (id.toNat : Int) = n
  · obtain ⟨id, rfl⟩ := range
    obtain ⟨known, possible, -⟩ := reachable.knows false documented nofun nofun id
    exact (sightings_life possible).count_le_one once
  · have none : o ∉ w.sightings n := by
      intro mem
      obtain ⟨e, mem, shown⟩ := List.mem_filterMap.mp mem
      exact range (reachable.each (P := fun e => ∀ {n o}, e.sighting? n = some o →
        ∃ id : U64, (id.toNat : Int) = n) Exchange.sighting_range e mem shown)
    rw [List.count_eq_zero_of_not_mem none]
    exact Nat.zero_le 1

/-- No notification is returned by `recv` twice, and none is answered twice, with `respond` or
with an `addfd` with SEND. -/
theorem handled_once (K : NotifKernel σ) (phase : σ → U64 → Phase)
    (documented : K.Documented phase) (p : Platform) (k : σ) (fd : Int) (w : Supervision σ)
    (reachable : w.Reachable K p k fd) :
    ((w.exchanges.filterMap Exchange.notification?).map fun m => (m.id : Int)).Nodup ∧
      (w.exchanges.filterMap Exchange.answered?).Nodup := by
  have exact := reachable.each Exchange.exact_of_ran
  refine ⟨List.nodup_iff_count_le_one.mpr fun n => ?_, List.nodup_iff_count_le_one.mpr fun n => ?_⟩
  · rw [List.map_filterMap, count_filterMap_congr fun e mem => (exact e mem).notification?_iff n]
    exact reachable.count_le_one documented n (.inl rfl)
  · rw [count_filterMap_congr fun e _ => e.answered?_iff n]
    exact reachable.count_le_one documented n (.inr rfl)

/-! ## A supervisor of its own -/

end Runs

/-! ## An example -/

section Book

variable {k k' : U64 → Phase} {request : IoctlRequest} {filled : SeccompNotif} {reply : Reply}

/-- What an attempt does to the book. -/
theorem bookKernel_serve (serve : bookKernel.serve k request filled reply k') :
    (reply.ret = -1 ∧ (k' = k ∨ ∃ id, request.cookie? = some id ∧ k' = Function.update k id .ended) ∧
        (reply.errno = enoent → ∀ id, request.cookie? = some id → k id ≠ .held)) ∨
      (∃ id, reply.ret ≠ -1 ∧ request.cookie? = some id ∧ k id = .held ∧
        k' = if request.completes then Function.update k id .ended else k) ∨
      (reply.ret ≠ -1 ∧ request = .recv ∧ k filled.id = .fresh ∧
        k' = Function.update k filled.id .held) ∨
      (reply.ret ≠ -1 ∧ request ≠ .recv ∧ request.cookie? = none ∧ k' = k) := by
  simp only [bookKernel] at serve
  split at serve
  · next failed => exact .inl ⟨failed, serve.1, serve.2⟩
  · next done =>
    split at serve
    · next id names => exact .inr (.inl ⟨id, done, names, serve.1, serve.2⟩)
    · next names =>
      split at serve
      · next recv => exact .inr (.inr (.inl ⟨done, recv, serve.1, serve.2⟩))
      · next other => exact .inr (.inr (.inr ⟨done, other, names, serve⟩))

theorem le_update {ph : Phase} {id : U64} (on : k id ≤ ph) (id' : U64) :
    k id' ≤ Function.update k id ph id' := by
  by_cases same : id' = id
  · subst same
    rwa [Function.update_self]
  · rw [Function.update_of_ne same]

theorem le_ended (ph : Phase) : ph ≤ .ended := by
  cases ph <;> decide

theorem book_documented : bookKernel.Documented fun k => k where
  moves := by
    intro k k' move id'
    obtain ⟨id, rfl⟩ := move
    exact le_update (le_ended _) id'
  forward := by
    intro k k' request filled reply serve id'
    rcases bookKernel_serve serve with ⟨-, rfl | ⟨id, -, rfl⟩, -⟩ | ⟨id, -, -, -, rfl⟩ |
      ⟨-, -, fresh, rfl⟩ | ⟨-, -, -, rfl⟩
    · exact le_rfl
    · exact le_update (le_ended _) id'
    · split
      · exact le_update (le_ended _) id'
      · exact le_rfl
    · refine le_update ?_ id'
      rw [fresh]
      decide
    · exact le_rfl
  hands := by
    intro k k' filled reply serve done
    rcases bookKernel_serve serve with ⟨failed, -⟩ | ⟨id, -, names, -⟩ | ⟨-, -, fresh, rfl⟩ |
      ⟨-, other, -⟩
    · exact absurd failed done
    · cases names
    · exact ⟨fresh, Function.update_self ..⟩
    · exact absurd rfl other
  awaits := by
    intro k k' request filled reply id serve done names
    rcases bookKernel_serve serve with ⟨failed, -⟩ | ⟨id', -, own, held, -⟩ | ⟨-, rfl, -⟩ |
      ⟨-, -, none, -⟩
    · exact absurd failed done
    · cases names.symm.trans own
      exact held
    · cases names
    · cases names.symm.trans none
  completes := by
    intro k k' request filled reply id serve done names last
    rcases bookKernel_serve serve with ⟨failed, -⟩ | ⟨id', -, own, -, rfl⟩ | ⟨-, rfl, -⟩ |
      ⟨-, -, none, -⟩
    · exact absurd failed done
    · cases names.symm.trans own
      rw [if_pos last]
      exact Function.update_self ..
    · cases names
    · cases names.symm.trans none
  absent := by
    intro k k' request filled reply id serve failed gone names
    rcases bookKernel_serve serve with ⟨-, -, honest⟩ | ⟨-, done, -⟩ | ⟨done, -⟩ | ⟨done, -⟩
    · exact honest gone id names
    · exact absurd failed done
    · exact absurd failed done
    · exact absurd failed done

end Book

theorem mount_sightings {w : Supervision (U64 → Phase)} (made : w.exchanges = mountExchanges) :
    w.sightings 7 = [.taken, .settled, .missing] := by
  rw [Supervision.sightings, made]
  rfl

theorem history_possible_mount : ∃ w : Supervision (U64 → Phase),
    w.Reachable bookKernel ⟨"x86_64", true⟩ (fun _ => .fresh) 5 ∧
      w.sightings 7 = [.taken, .settled, .missing] ∧ Life (w.sightings 7) ∧
      ∀ o ∈ w.sightings 7, o.least ≤ w.kernel 7 := by
  obtain ⟨-, w, -, reachable, made, -⟩ := mount_reachable
  exact ⟨w, reachable, mount_sightings made,
    history_possible bookKernel (fun k => k) book_documented _ _ _ w reachable 7⟩

theorem handled_once_mount : ∃ w : Supervision (U64 → Phase),
    w.Reachable bookKernel ⟨"x86_64", true⟩ (fun _ => .fresh) 5 ∧
      w.exchanges.filterMap Exchange.answered? = [7] ∧
      ((w.exchanges.filterMap Exchange.notification?).map fun m => (m.id : Int)).Nodup ∧
      (w.exchanges.filterMap Exchange.answered?).Nodup := by
  obtain ⟨-, w, -, reachable, made, -⟩ := mount_reachable
  refine ⟨w, reachable, ?_,
    handled_once bookKernel (fun k => k) book_documented _ _ _ w reachable⟩
  rw [made]
  rfl

end Seccompy
