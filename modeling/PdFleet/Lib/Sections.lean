import Mathlib

/-!
# Clients of one locked state

A client runs a script of sections. Each section runs alone on the shared state
and its outcome decides how the script goes on. Scripts of any number of
clients interleave between sections.
-/

set_option autoImplicit false

/-- A script over sections of kind `A` with outcomes `O` and a result `R`. -/
inductive Script (A O R : Type) where
  | done (r : R)
  | step (a : A) (next : O → Script A O R)

namespace Script

variable {A O R R' : Type}

def map (f : R → R') : Script A O R → Script A O R'
  | done r => done (f r)
  | step a next => step a (fun o => map f (next o))

/-- Every section that the script can come to is of a kind in `P`. -/
inductive All (P : A → Prop) : Script A O R → Prop
  | done (r : R) : All P (done r)
  | step {a : A} {next : O → Script A O R} (ha : P a) (hn : ∀ o, All P (next o)) :
      All P (step a next)

theorem All.map {P : A → Prop} {f : R → R'} {p : Script A O R} (h : All P p) :
    All P (p.map f) := by
  induction h with
  | done r => exact .done _
  | step ha _ ih => exact .step ha ih

theorem All.mono {P Q : A → Prop} {p : Script A O R} (h : All P p) (hq : ∀ a, P a → Q a) :
    All Q p := by
  induction h with
  | done r => exact .done _
  | step ha _ ih => exact .step (hq _ ha) ih

theorem all_true (p : Script A O R) : All (fun _ => True) p := by
  induction p with
  | done r => exact .done r
  | step a next ih => exact .step trivial ih

end Script

structure System (ι σ A O R : Type) where
  shared : σ
  client : ι → Option (Script A O R)

namespace System

variable {ι σ A O R X : Type} [DecidableEq ι]

def idle (s : σ) : System ι σ A O R := ⟨s, fun _ => none⟩

def setClient (y : System ι σ A O R) (i : ι) (p : Option (Script A O R)) (s : σ) :
    System ι σ A O R := ⟨s, Function.update y.client i p⟩

@[simp] theorem client_setClient (y : System ι σ A O R) (i : ι) (p : Option (Script A O R))
    (s : σ) : (y.setClient i p s).client i = p := Function.update_self ..

/-- A step of the system: an idle client starts a script, a client runs its next
section with some draws, or a finished client becomes idle. -/
inductive Step (exec : A → X → σ → O × σ) (starts : Script A O R → Prop) :
    System ι σ A O R → System ι σ A O R → Prop
  | start {y : System ι σ A O R} (i : ι) (p : Script A O R) (hi : y.client i = none)
      (hp : starts p) : Step exec starts y (y.setClient i (some p) y.shared)
  | run {y : System ι σ A O R} (i : ι) (a : A) (next : O → Script A O R) (x : X)
      (hi : y.client i = some (.step a next)) :
      Step exec starts y (y.setClient i (some (next (exec a x y.shared).1))
        (exec a x y.shared).2)
  | finish {y : System ι σ A O R} (i : ι) (r : R) (hi : y.client i = some (.done r)) :
      Step exec starts y (y.setClient i none y.shared)

def Run (exec : A → X → σ → O × σ) (starts : Script A O R → Prop) :
    System ι σ A O R → System ι σ A O R → Prop :=
  Relation.ReflTransGen (Step exec starts)

/-- One section of a kind in `P`, on the shared state alone. -/
def Section (exec : A → X → σ → O × σ) (P : A → Prop) (s t : σ) : Prop :=
  ∃ a x, P a ∧ t = (exec a x s).2

def Sections (exec : A → X → σ → O × σ) (P : A → Prop) : σ → σ → Prop :=
  Relation.ReflTransGen (Section exec P)

variable {exec : A → X → σ → O × σ} {starts : Script A O R → Prop} {P : A → Prop}

/-- The scripts under way have only sections of a kind in `P`. -/
def Within (P : A → Prop) (y : System ι σ A O R) : Prop :=
  ∀ i p, y.client i = some p → p.All P

omit [DecidableEq ι] in
theorem within_idle (s : σ) : Within P (idle s : System ι σ A O R) :=
  fun _ _ h => nomatch h

theorem within_setClient {y : System ι σ A O R} {i : ι} {p : Option (Script A O R)} {s : σ}
    (h : Within P y) (hp : ∀ q, p = some q → q.All P) : Within P (y.setClient i p s) := by
  intro j q hq
  by_cases hj : j = i
  · subst hj
    simp only [setClient, Function.update_self] at hq
    exact hp q hq
  · simp only [setClient, Function.update_of_ne hj] at hq
    exact h j q hq

theorem step_sections (hs : ∀ p, starts p → p.All P) {y z : System ι σ A O R}
    (h : Within P y) (hy : Step exec starts y z) :
    Within P z ∧ Sections exec P y.shared z.shared := by
  cases hy with
  | start i p hi hp =>
    refine ⟨within_setClient h ?_,.refl⟩
    rintro q ⟨⟩
    exact hs p hp
  | run i a next x hi =>
    cases h i _ hi with
    | step ha hn =>
      refine ⟨within_setClient h ?_,.single ⟨a,x,ha,rfl⟩⟩
      rintro q ⟨⟩
      exact hn _
  | finish i r hi =>
    exact ⟨within_setClient h (fun q hq => nomatch hq),.refl⟩

/-- On the shared state, an interleaving of scripts is a sequence of sections. -/
theorem run_sections (hs : ∀ p, starts p → p.All P) {y z : System ι σ A O R}
    (h : Within P y) (hy : Run exec starts y z) :
    Within P z ∧ Sections exec P y.shared z.shared := by
  induction hy with
  | refl => exact ⟨h,.refl⟩
  | tail _ hz ih =>
    have hn := step_sections hs ih.1 hz
    exact ⟨hn.1,ih.2.trans hn.2⟩

/-- One client alone runs a script of one section. -/
theorem run_alone [Inhabited ι] {a : A} {next : O → Script A O R} (x : X) {s : σ}
    (h : starts (.step a next)) (hd : ∀ o, ∃ r, next o = .done r) :
    Run exec starts (idle s : System ι σ A O R) (idle (exec a x s).2) := by
  obtain ⟨r,hr⟩ := hd (exec a x s).1
  let y : System ι σ A O R := (idle s).setClient default (some (.step a next)) s
  let z := y.setClient default (some (next (exec a x s).1)) (exec a x s).2
  have hy : Step exec starts (idle s) y := .start default _ rfl h
  have hz : Step exec starts y z := .run default a next x (client_setClient ..)
  have hw : Step exec starts z (z.setClient default none (exec a x s).2) :=
    .finish default r (by rw [← hr]; exact client_setClient ..)
  have hi : z.setClient default none (exec a x s).2 = idle (exec a x s).2 := by
    simp only [z, y, setClient, idle, Function.update_idem]
    rw [show Function.update (fun _ => none) default none = fun _ : ι => none from
      Function.update_eq_self default _]
  rw [hi] at hw
  exact ((Relation.ReflTransGen.single hy).tail hz).tail hw

/-! ## Runs under a condition -/

/-- A step whose section, if it runs one, meets `ok` at the state it starts in. -/
inductive StepWhere (exec : A → X → σ → O × σ) (starts : Script A O R → Prop)
    (ok : A → X → σ → Prop) : System ι σ A O R → System ι σ A O R → Prop
  | start {y : System ι σ A O R} (i : ι) (p : Script A O R) (hi : y.client i = none)
      (hp : starts p) : StepWhere exec starts ok y (y.setClient i (some p) y.shared)
  | run {y : System ι σ A O R} (i : ι) (a : A) (next : O → Script A O R) (x : X)
      (hi : y.client i = some (.step a next)) (hx : ok a x y.shared) :
      StepWhere exec starts ok y (y.setClient i (some (next (exec a x y.shared).1))
        (exec a x y.shared).2)
  | finish {y : System ι σ A O R} (i : ι) (r : R) (hi : y.client i = some (.done r)) :
      StepWhere exec starts ok y (y.setClient i none y.shared)

def RunWhere (exec : A → X → σ → O × σ) (starts : Script A O R → Prop)
    (ok : A → X → σ → Prop) : System ι σ A O R → System ι σ A O R → Prop :=
  Relation.ReflTransGen (StepWhere exec starts ok)

/-- What every section of a kind in `P` keeps where it meets `ok` holds after a run
whose sections all meet it. -/
theorem runWhere_invariant {ok : A → X → σ → Prop} {I : σ → Prop}
    (hs : ∀ p, starts p → p.All P) (hI : ∀ a x s, P a → ok a x s → I s → I (exec a x s).2)
    {y z : System ι σ A O R} (hy : RunWhere exec starts ok y z) (hw : Within P y)
    (h : I y.shared) : Within P z ∧ I z.shared := by
  induction hy with
  | refl => exact ⟨hw,h⟩
  | tail _ hz ih =>
    obtain ⟨hw,h⟩ := ih
    cases hz with
    | start i p hi hp =>
      refine ⟨within_setClient hw ?_,h⟩
      rintro q ⟨⟩
      exact hs p hp
    | run i a next x hi hx =>
      cases hw i _ hi with
      | step ha hn =>
        refine ⟨within_setClient hw ?_,hI a x _ ha hx h⟩
        rintro q ⟨⟩
        exact hn _
    | finish i r hi => exact ⟨within_setClient hw (fun q hq => nomatch hq),h⟩

/-! ## One client without a break -/

/-- A script comes to the script `q` over its next sections, run without a break. -/
inductive Runs (exec : A → X → σ → O × σ) : Script A O R → σ → Script A O R → σ → Prop
  | refl (p : Script A O R) (s : σ) : Runs exec p s p s
  | step {a : A} {next : O → Script A O R} {s : σ} {q : Script A O R} {t : σ} (x : X)
      (h : Runs exec (next (exec a x s).1) (exec a x s).2 q t) :
      Runs exec (.step a next) s q t

theorem run_client {i : ι} {p q : Script A O R} {s t : σ} (h : Runs exec p s q t)
    {y : System ι σ A O R} (hp : y.client i = some p) (hs : y.shared = s) :
    Run exec starts y (y.setClient i (some q) t) := by
  induction h generalizing y with
  | refl p s =>
    have hy : y.setClient i (some p) s = y := by
      simp only [setClient, ← hp, ← hs, Function.update_eq_self]
    rw [hy]
    exact .refl
  | @step a next s q t x h ih =>
    subst hs
    have hz := ih (y := y.setClient i (some (next (exec a x y.shared).1)) (exec a x y.shared).2)
      (client_setClient ..) rfl
    simp only [setClient, Function.update_idem] at hz
    exact Relation.ReflTransGen.head (.run i a next x hp) hz

/-- One client starts a script among idle ones and runs it. -/
theorem run_start (i : ι) {p q : Script A O R} {s t : σ} (hp : starts p)
    (h : Runs exec p s q t) :
    Run exec starts (idle s) ((idle s : System ι σ A O R).setClient i (some q) t) := by
  have hz : Run exec starts ((idle s : System ι σ A O R).setClient i (some p) s) _ :=
    run_client h (client_setClient ..) rfl
  simp only [setClient, Function.update_idem] at hz
  exact Relation.ReflTransGen.head (.start i p rfl hp) hz

omit [DecidableEq ι] in
theorem sections_invariant {I : σ → Prop} (hI : ∀ a x s, P a → I s → I (exec a x s).2)
    {s t : σ} (h : Sections exec P s t) (hs : I s) : I t := by
  induction h with
  | refl => exact hs
  | tail _ hz ih =>
    obtain ⟨a,x,ha,rfl⟩ := hz
    exact hI a x _ ha ih

end System
