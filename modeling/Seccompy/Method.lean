import Seccompy.Errors

/-!
# Methods that raise

A method body over the state `σ` of its object.  Raising does not undo: what the
body did to the object before it raised stays done, so that a method that leaves
its object alone when it fails does so by the order of its statements.
-/

namespace Seccompy

abbrev Py (σ α : Type) : Type := ExceptT PyExc (StateM σ) α

namespace Py

variable {σ τ α β : Type}

/-- Run a body on an object: its result or exception, and the object afterwards. -/
def call (body : Py σ α) (self : σ) : Except PyExc α × σ := (ExceptT.run body).run self

/-- A call that does not touch the object. -/
def lift (x : Except PyExc α) : Py σ α := ExceptT.mk (pure x)

def read : Py σ σ := ExceptT.mk fun self => (.ok self, self)

def update (f : σ → σ) : Py σ Unit := ExceptT.mk fun self => (.ok (), f self)

/-- `if c: raise e`. -/
def raiseIf (c : Prop) [Decidable c] (e : PyExc) : Py σ Unit := if c then throw e else pure ()

/-- A method of a part of the object. -/
def onPart (get : σ → τ) (set : τ → σ → σ) (body : Py τ α) : Py σ α :=
  ExceptT.mk fun self =>
    let (result, part) := body.call (get self)
    (result, set part self)

/-- `try: body except: handler`, where the handler sees every exception. -/
def rescue (body : Py σ α) (handler : PyExc → Py σ α) : Py σ α :=
  ExceptT.mk fun self =>
    match body.call self with
    | (.ok a, self) => (.ok a, self)
    | (.error e, self) => (handler e).call self

@[simp] theorem call_pure (a : α) (self : σ) : (pure a : Py σ α).call self = (.ok a, self) := rfl

@[simp] theorem call_throw (e : PyExc) (self : σ) :
    (throw e : Py σ α).call self = (.error e, self) := rfl

@[simp] theorem call_lift (x : Except PyExc α) (self : σ) :
    (lift x : Py σ α).call self = (x, self) := rfl

@[simp] theorem call_read (self : σ) : (read : Py σ σ).call self = (.ok self, self) := rfl

@[simp] theorem call_update (f : σ → σ) (self : σ) :
    (update f).call self = (.ok (), f self) := rfl

@[simp] theorem call_raiseIf (c : Prop) [Decidable c] (e : PyExc) (self : σ) :
    (raiseIf c e).call self = (if c then .error e else .ok (), self) := by
  unfold raiseIf
  split <;> rfl

theorem call_raiseIf_neg {c : Prop} [Decidable c] (holds : ¬ c) (e : PyExc) (self : σ) :
    (raiseIf c e).call self = (.ok (), self) := by
  rw [call_raiseIf, if_neg holds]

theorem call_bind (x : Py σ α) (f : α → Py σ β) (self : σ) :
    (x >>= f).call self =
      match x.call self with
      | (.ok a, self) => (f a).call self
      | (.error e, self) => (.error e, self) := by
  simp only [call, ExceptT.run_bind, StateT.run_bind]
  rcases x.run.run self with ⟨e | a, after⟩
  · rfl
  · rfl

@[simp] theorem call_ite (c : Prop) [Decidable c] (x y : Py σ α) (self : σ) :
    (if c then x else y).call self = if c then x.call self else y.call self := by
  split <;> rfl

@[simp] theorem call_onPart (get : σ → τ) (set : τ → σ → σ) (body : Py τ α) (self : σ) :
    (onPart get set body).call self =
      ((body.call (get self)).1, set (body.call (get self)).2 self) := rfl

theorem call_rescue (body : Py σ α) (handler : PyExc → Py σ α) (self : σ) :
    (rescue body handler).call self =
      match body.call self with
      | (.ok a, self) => (.ok a, self)
      | (.error e, self) => (handler e).call self := rfl

/-! ## Sequencing -/

variable {x : Py σ α} {f : α → Py σ β} {self self' : σ} {a : α} {e : PyExc}

theorem call_bind_ok (ran : x.call self = (.ok a, self')) :
    (x >>= f).call self = (f a).call self' := by
  rw [call_bind, ran]

theorem call_bind_error (raised : x.call self = (.error e, self')) :
    (x >>= f).call self = (.error e, self') := by
  rw [call_bind, raised]

theorem call_raiseIf_bind (c : Prop) [Decidable c] (e : PyExc) (f : Unit → Py σ β) (self : σ) :
    (raiseIf c e >>= f).call self = if c then (.error e, self) else (f ()).call self := by
  rw [call_bind, call_raiseIf]
  by_cases holds : c
  · rw [if_pos holds, if_pos holds]
  · rw [if_neg holds, if_neg holds]

/-- Dropping the result changes nothing else. -/
theorem call_discard (x : Py σ α) (self : σ) :
    (x >>= fun _ => (pure () : Py σ Unit)).call self =
      ((x.call self).1.map fun _ => (), (x.call self).2) := by
  rw [call_bind]
  rcases x.call self with ⟨e | a, after⟩
  · rfl
  · rfl

theorem call_map (x : Py σ α) (g : α → β) (self : σ) :
    (x >>= fun a => (pure (g a) : Py σ β)).call self =
      ((x.call self).1.map g, (x.call self).2) := by
  rw [call_bind]
  rcases x.call self with ⟨e | a, after⟩
  · rfl
  · rfl

/-! ## What a body can do to its object -/

/-- However the body ends, it leaves the object related to what it was. -/
def Within (R : σ → σ → Prop) (body : Py σ α) : Prop := ∀ self, R self (body.call self).2

/-- A relation that holds of doing nothing and of doing one thing after another. -/
structure Steady (R : σ → σ → Prop) : Prop where
  refl : ∀ s, R s s
  trans : ∀ s t u, R s t → R t u → R s u

namespace Steady

variable {R : σ → σ → Prop} (steady : Steady R)

include steady

theorem pure (a : α) : Within R (Pure.pure a : Py σ α) := fun self => steady.refl self

theorem throw (e : PyExc) : Within R (MonadExcept.throw e : Py σ α) := fun self => steady.refl self

theorem lift (x : Except PyExc α) : Within R (Py.lift x : Py σ α) := fun self => steady.refl self

theorem read : Within R (Py.read : Py σ σ) := fun self => steady.refl self

theorem bind {x : Py σ α} {f : α → Py σ β} (first : Within R x) (rest : ∀ a, Within R (f a)) :
    Within R (x >>= f) := by
  intro self
  have step := first self
  rcases ran : x.call self with ⟨e | a, middle⟩
  · rw [ran] at step
    rw [call_bind_error ran]
    exact step
  · rw [ran] at step
    rw [call_bind_ok ran]
    exact steady.trans _ _ _ step (rest a middle)

theorem map {x : Py σ α} {g : α → β} (first : Within R x) :
    Within R (x >>= fun a => Pure.pure (g a)) :=
  steady.bind first fun a => steady.pure (g a)

theorem lift_bind {x : Except PyExc α} {f : α → Py σ β} (rest : ∀ a, Within R (f a)) :
    Within R (Py.lift x >>= f) :=
  steady.bind (steady.lift x) rest

theorem rescue {body : Py σ α} {handler : PyExc → Py σ α} (first : Within R body)
    (rest : ∀ e, Within R (handler e)) : Within R (Py.rescue body handler) := by
  intro self
  have step := first self
  rw [call_rescue]
  rcases ran : body.call self with ⟨e | a, middle⟩
  · rw [ran] at step
    exact steady.trans _ _ _ step (rest e middle)
  · rw [ran] at step
    exact step

theorem raiseIf (c : Prop) [Decidable c] (e : PyExc) : Within R (raiseIf c e : Py σ Unit) := by
  intro self
  rw [call_raiseIf]
  exact steady.refl self

theorem raiseIf_bind {c : Prop} [Decidable c] {e : PyExc} {f : Unit → Py σ β}
    (rest : Within R (f ())) : Within R (Py.raiseIf c e >>= f) :=
  steady.bind (steady.raiseIf c e) fun _ => rest

end Steady

/-! ## What a body can raise -/

/-- Every exception the body raises, on any object, is one of these. -/
def Raises (P : PyExc → Prop) (body : Py σ α) : Prop :=
  ∀ self e, (body.call self).1 = .error e → P e

namespace Raises

variable {P : PyExc → Prop}

theorem pure (a : α) : Raises P (Pure.pure a : Py σ α) := by
  intro self e raised
  cases raised

theorem throw {e : PyExc} (is : P e) : Raises P (MonadExcept.throw e : Py σ α) := by
  intro self e' raised
  cases raised
  exact is

theorem lift {x : Except PyExc α} (is : ∀ e, x = .error e → P e) :
    Raises P (Py.lift x : Py σ α) := by
  intro self e raised
  exact is e raised

theorem read : Raises P (Py.read : Py σ σ) := by
  intro self e raised
  cases raised

theorem update (f : σ → σ) : Raises P (Py.update f) := by
  intro self e raised
  cases raised

theorem bind {x : Py σ α} {f : α → Py σ β} (first : Raises P x) (rest : ∀ a, Raises P (f a)) :
    Raises P (x >>= f) := by
  intro self e raised
  rcases ran : x.call self with ⟨e' | a, middle⟩
  · rw [call_bind_error ran] at raised
    cases raised
    exact first self e (by rw [ran])
  · rw [call_bind_ok ran] at raised
    exact rest a middle e raised

theorem map {x : Py σ α} {g : α → β} (first : Raises P x) :
    Raises P (x >>= fun a => Pure.pure (g a)) :=
  first.bind fun a => .pure (g a)

theorem ite {c : Prop} [Decidable c] {x y : Py σ α} (yes : Raises P x) (no : Raises P y) :
    Raises P (if c then x else y) := by
  split
  · exact yes
  · exact no

theorem raiseIf {c : Prop} [Decidable c] {e : PyExc} (is : P e) :
    Raises P (Py.raiseIf c e : Py σ Unit) :=
  .ite (.throw is) (.pure ())

theorem raiseIf_bind {c : Prop} [Decidable c] {e : PyExc} {f : Unit → Py σ β} (is : P e)
    (rest : Raises P (f ())) : Raises P (Py.raiseIf c e >>= f) :=
  (raiseIf is).bind fun _ => rest

/-- A handler raises in its own right. -/
theorem rescue {Q : PyExc → Prop} {body : Py σ α} {handler : PyExc → Py σ α}
    (first : Raises Q body) (rest : ∀ e, Q e → Raises P (handler e)) :
    Raises P (Py.rescue body handler) := by
  intro self e raised
  rw [call_rescue] at raised
  rcases ran : body.call self with ⟨e' | a, middle⟩
  · rw [ran] at raised
    exact rest e' (first self e' (by rw [ran])) middle e raised
  · rw [ran] at raised
    cases raised

theorem onPart {get : σ → τ} {set : τ → σ → σ} {body : Py τ α} (part : Raises P body) :
    Raises P (Py.onPart get set body) := by
  intro self e raised
  exact part (get self) e raised

theorem imp {Q : PyExc → Prop} {body : Py σ α} (raises : Raises Q body) (more : ∀ e, Q e → P e) :
    Raises P body :=
  fun self e raised => more e (raises self e raised)

end Raises

end Py

end Seccompy
