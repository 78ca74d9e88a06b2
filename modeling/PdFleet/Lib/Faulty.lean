import Mathlib

/-!
# Programs that raise and can be cut off

A program over a state ends with a value, with an exception, or is cut off
where it stands: handlers and finalizers run after an exception and not after
a cut. The rules are those of partial assertions over the three endings.
-/

set_option autoImplicit false

inductive Outcome (ε α : Type) where
  | ok (a : α)
  | raised (e : ε)
  | cut
  deriving Repr

inductive Fate where
  | ok | fail | cut
  deriving DecidableEq, Repr

/-- A program over states of type `σ` with exceptions of type `ε`. -/
def Faulty (σ ε α : Type) : Type := σ → Outcome ε α × σ

namespace Faulty

variable {σ ε α β : Type}

def pure (a : α) : Faulty σ ε α := fun s => (.ok a, s)

def bind (m : Faulty σ ε α) (f : α → Faulty σ ε β) : Faulty σ ε β := fun s =>
  match m s with
  | (.ok a, t) => f a t
  | (.raised e, t) => (.raised e, t)
  | (.cut, t) => (.cut, t)

instance : Monad (Faulty σ ε) where
  pure := Faulty.pure
  bind := Faulty.bind

def raise (e : ε) : Faulty σ ε α := fun s => (.raised e, s)

def get : Faulty σ ε σ := fun s => (.ok s, s)

def ofExcept : Except ε α → Faulty σ ε α
  | .ok a => Faulty.pure a
  | .error e => raise e

/-- One call to the system: it takes effect, fails with `e`, or is cut off before it. -/
def call (fate : Fate) (e : ε) (effect : σ → σ) : Faulty σ ε Unit := fun s =>
  match fate with
  | .ok => (.ok (), effect s)
  | .fail => (.raised e, s)
  | .cut => (.cut, s)

/-- `try … except`. -/
def handle (m : Faulty σ ε α) (h : ε → Faulty σ ε α) : Faulty σ ε α := fun s =>
  match m s with
  | (.raised e, t) => h e t
  | r => r

/-- `try … finally`. -/
def after (m : Faulty σ ε α) (f : Faulty σ ε Unit) : Faulty σ ε α := fun s =>
  match m s with
  | (.cut, t) => (.cut, t)
  | (o, t) =>
    match f t with
    | (.ok _, u) => (o, u)
    | (.raised e, u) => (.raised e, u)
    | (.cut, u) => (.cut, u)

@[simp] theorem get_bind_apply (f : σ → Faulty σ ε β) (s : σ) : (get >>= f) s = f s s := rfl

@[simp] theorem ofExcept_ok_bind (a : α) (f : α → Faulty σ ε β) :
    (ofExcept (.ok a) >>= f) = f a := rfl

@[simp] theorem ofExcept_error_bind (e : ε) (f : α → Faulty σ ε β) :
    (ofExcept (.error e) >>= f) = raise e := rfl

theorem bind_apply (m : Faulty σ ε α) (f : α → Faulty σ ε β) (s : σ) :
    (m >>= f) s = match m s with
      | (.ok a, t) => f a t
      | (.raised e, t) => (.raised e, t)
      | (.cut, t) => (.cut, t) := rfl

/-! ## Triples -/

/-- From every state in `P` the program ends as `Q` says. -/
def Triple (P : σ → Prop) (m : Faulty σ ε α) (Q : Outcome ε α → σ → Prop) : Prop :=
  ∀ s, P s → Q (m s).1 (m s).2

/-- The ending `Q` of a sequence, at the end of its first part: `R` after a value. -/
def Then (R : α → σ → Prop) (Q : Outcome ε β → σ → Prop) : Outcome ε α → σ → Prop
  | .ok a, s => R a s
  | .raised e, s => Q (.raised e) s
  | .cut, s => Q .cut s

/-- The ending `Q` of a part that ended with `o`, at the end of its finalizer. -/
def Finish (Q : Outcome ε α → σ → Prop) (o : Outcome ε α) : Outcome ε Unit → σ → Prop
  | .ok _, s => Q o s
  | .raised e, s => Q (.raised e) s
  | .cut, s => Q .cut s

namespace Triple

variable {P P' : σ → Prop} {m : Faulty σ ε α} {Q Q' : Outcome ε α → σ → Prop}

theorem weaken (h : Triple P m Q) (hp : ∀ s, P' s → P s)
    (hq : ∀ o s, Q o s → Q' o s) : Triple P' m Q' :=
  fun s hs => hq _ _ (h s (hp s hs))

theorem pure {a : α} (h : ∀ s, P s → Q (.ok a) s) :
    Triple P (Pure.pure a : Faulty σ ε α) Q := h

theorem raise {e : ε} (h : ∀ s, P s → Q (.raised e) s) : Triple P (Faulty.raise e) Q := h

/-- A fact that does not depend on the state. -/
theorem fact {q : Prop} (h : q → Triple P m Q) : Triple (fun s => P s ∧ q) m Q :=
  fun s hs => h hs.2 s hs.1

theorem bind {f : α → Faulty σ ε β} {R : α → σ → Prop} {S : Outcome ε β → σ → Prop}
    (hm : Triple P m (Then R S)) (hf : ∀ a, Triple (R a) (f a) S) : Triple P (m >>= f) S := by
  intro s hs
  have h := hm s hs
  show S (Faulty.bind m f s).1 (Faulty.bind m f s).2
  rw [Faulty.bind]
  rcases hr : m s with ⟨o,t⟩
  rw [hr] at h
  cases o with
  | ok a => exact hf a t h
  | raised e => exact h
  | cut => exact h

theorem call {fate : Fate} {e : ε} {f : σ → σ} {S : Outcome ε Unit → σ → Prop}
    (hok : fate = .ok → ∀ s, P s → S (.ok ()) (f s))
    (hfail : fate = .fail → ∀ s, P s → S (.raised e) s)
    (hcut : fate = .cut → ∀ s, P s → S .cut s) : Triple P (Faulty.call fate e f) S := by
  intro s hs
  cases fate with
  | ok => exact hok rfl s hs
  | fail => exact hfail rfl s hs
  | cut => exact hcut rfl s hs

theorem handle {h : ε → Faulty σ ε α} {R : ε → σ → Prop}
    (hm : Triple P m (fun o s => match o with
      | .raised e => R e s
      | o => Q o s))
    (hh : ∀ e, Triple (R e) (h e) Q) : Triple P (m.handle h) Q := by
  intro s hs
  have hr := hm s hs
  rw [Faulty.handle]
  rcases he : m s with ⟨o,t⟩
  rw [he] at hr
  cases o with
  | ok a => exact hr
  | raised e => exact hh e t hr
  | cut => exact hr

theorem after {f : Faulty σ ε Unit} {R : Outcome ε α → σ → Prop}
    (hm : Triple P m (fun o s => match o with
      | .cut => Q .cut s
      | o => R o s))
    (hf : ∀ o, o ≠ .cut → Triple (R o) f (Finish Q o)) : Triple P (m.after f) Q := by
  intro s hs
  have hr := hm s hs
  rw [Faulty.after]
  rcases he : m s with ⟨o,t⟩
  rw [he] at hr
  cases o with
  | cut => exact hr
  | ok a =>
    have hg := hf _ (by simp) t hr
    rcases hft : f t with ⟨o',u⟩
    rw [hft] at hg
    cases o' <;> simpa [hft, Finish] using hg
  | raised e =>
    have hg := hf _ (by simp) t hr
    rcases hft : f t with ⟨o',u⟩
    rw [hft] at hg
    cases o' <;> simpa [hft, Finish] using hg

end Triple

end Faulty
