import Mathlib

/-!
# Runs whose steps are guarded

A system takes a step for each call. A guard on the state before a step is exact if, in a
state of the invariant, it holds just when the step keeps the invariant and is allowed.
Then a run keeps the invariant and takes only allowed steps if and only if all of its
steps are guarded.
-/

set_option autoImplicit false

namespace Guarded

variable {S C : Type} (step : S → C → S)

/-- `P` holds of every call of a run, in the state that the call finds. -/
def EachStep (P : S → C → Prop) (s : S) (calls : List C) : Prop :=
  ∀ before call, before++[call] <+: calls → P (before.foldl step s) call

/-- `P` holds of every state of a run. -/
def EachState (P : S → Prop) (s : S) (calls : List C) : Prop :=
  ∀ before, before <+: calls → P (before.foldl step s)

variable {step} {P : S → C → Prop} {inv : S → Prop} {s : S} {c : C} {cs : List C}

theorem eachStep_nil : EachStep step P s [] := by
  intro before call h
  rw [List.prefix_nil] at h
  exact absurd h (List.append_ne_nil_of_right_ne_nil before (List.cons_ne_nil call []))

theorem eachStep_cons : EachStep step P s (c :: cs) ↔ P s c ∧ EachStep step P (step s c) cs := by
  constructor
  · intro h
    refine ⟨h [] c (by simp),fun before call hp => h (c :: before) call ?_⟩
    exact (List.prefix_cons_inj c).mpr hp
  · rintro ⟨h1,h2⟩ before call hp
    cases before with
    | nil =>
      obtain ⟨rfl,-⟩ := List.cons_prefix_cons.mp hp
      exact h1
    | cons d before =>
      obtain ⟨rfl,hq⟩ := List.cons_prefix_cons.mp hp
      exact h2 before call hq

theorem eachState_nil : EachState step inv s [] ↔ inv s := by
  constructor
  · exact fun h => h [] List.nil_prefix
  · intro h before hp
    rw [List.prefix_nil] at hp
    subst hp
    exact h

theorem eachState_cons :
    EachState step inv s (c :: cs) ↔ inv s ∧ EachState step inv (step s c) cs := by
  constructor
  · intro h
    exact ⟨h [] List.nil_prefix,fun before hp => h (c :: before) ((List.prefix_cons_inj c).mpr hp)⟩
  · rintro ⟨h1,h2⟩ before hp
    cases before with
    | nil => exact h1
    | cons d before =>
      obtain ⟨rfl,hq⟩ := List.cons_prefix_cons.mp hp
      exact h2 before hq

/-- An invariant of each step is one of each state. -/
theorem eachState (h : ∀ s c, inv s → inv (step s c)) (h0 : inv s) (cs : List C) :
    EachState step inv s cs := by
  induction cs generalizing s with
  | nil => exact eachState_nil.mpr h0
  | cons c cs ih => exact eachState_cons.mpr ⟨h0,ih (h s c h0)⟩

/-- The rule of exact guards. -/
theorem guarded_iff {guard allowed : S → C → Prop}
    (h : ∀ s c, inv s → (guard s c ↔ inv (step s c) ∧ allowed s c)) (h0 : inv s) (cs : List C) :
    EachStep step guard s cs ↔ EachState step inv s cs ∧ EachStep step allowed s cs := by
  induction cs generalizing s with
  | nil => exact ⟨fun _ => ⟨eachState_nil.mpr h0,eachStep_nil⟩,fun _ => eachStep_nil⟩
  | cons c cs ih =>
    rw [eachStep_cons, eachState_cons, eachStep_cons, h s c h0]
    constructor
    · rintro ⟨⟨h1,h2⟩,h3⟩
      obtain ⟨h4,h5⟩ := (ih h1).mp h3
      exact ⟨⟨h0,h4⟩,h2,h5⟩
    · rintro ⟨⟨-,h4⟩,h2,h5⟩
      have h1 : inv (step s c) := h4 [] List.nil_prefix
      exact ⟨⟨h1,h2⟩,(ih h1).mpr ⟨h4,h5⟩⟩

end Guarded
