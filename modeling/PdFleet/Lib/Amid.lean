import PdFleet.Lib.Sections

/-!
# One client amid others

What the script of one client comes to while others run sections of their own in between,
and how that is shown along the script.
-/

set_option autoImplicit false

namespace Script

variable {A O R R' : Type}

/-- The second script goes on with the result of the first. -/
def bind : Script A O R → (R → Script A O R') → Script A O R'
  | done r, f => f r
  | step a next, f => step a (fun o => (next o).bind f)

/-- The second script goes on unless the first has stopped. -/
def andThen (p : Script A O (Option R)) (f : R → Script A O (Option R')) :
    Script A O (Option R') := p.bind (fun o => o.elim (.done none) f)

/-- The script keeps to sections of kinds in `P` and to results in `V`. -/
inductive Keeps (P : A → Prop) (V : R → Prop) : Script A O R → Prop
  | done {r : R} (hr : V r) : Keeps P V (done r)
  | step {a : A} {next : O → Script A O R} (ha : P a) (hn : ∀ o, Keeps P V (next o)) :
      Keeps P V (step a next)

theorem All.keeps {P : A → Prop} {V : R' → Prop} {f : R → R'} {p : Script A O R} (h : All P p)
    (hf : ∀ r, V (f r)) : Keeps P V (p.map f) := by
  induction h with
  | done r => exact .done (hf r)
  | step ha _ ih => exact .step ha ih

end Script

namespace System

variable {ι σ A O R R' X : Type}

/-- The script `p` comes to `q` over its next sections, with any sections of kinds in `P`
before each of its own. -/
inductive Amid (exec : A → X → σ → O × σ) (P : A → Prop) :
    Script A O R → σ → Script A O R → σ → Prop
  | refl (p : Script A O R) (s : σ) : Amid exec P p s p s
  | other {p q : Script A O R} {s t u : σ} (h : Section exec P s t)
      (hq : Amid exec P p t q u) : Amid exec P p s q u
  | own {a : A} {next : O → Script A O R} {q : Script A O R} {s u : σ} (x : X)
      (hq : Amid exec P (next (exec a x s).1) (exec a x s).2 q u) :
      Amid exec P (.step a next) s q u

/-- Where the script returns amid sections of kinds in `P`, its result and the shared state
are in `Q`. -/
def Ensures (exec : A → X → σ → O × σ) (P : A → Prop) (Q : R → σ → Prop) :
    Script A O R → σ → Prop
  | .done r, s => ∀ t, Sections exec P s t → Q r t
  | .step a next, s => ∀ t, Sections exec P s t → ∀ x,
      Ensures exec P Q (next (exec a x t).1) (exec a x t).2

section

variable {exec : A → X → σ → O × σ} {P : A → Prop} {Q Q' : R → σ → Prop} {p q : Script A O R}
  {s t : σ}

theorem Ensures.later (h : Ensures exec P Q p s) (hs : Sections exec P s t) :
    Ensures exec P Q p t := by
  cases p with
  | done r => exact fun u hu => h u (hs.trans hu)
  | step a next => exact fun u hu x => h u (hs.trans hu) x

theorem Ensures.mono (h : Ensures exec P Q p s) (hq : ∀ r u, Q r u → Q' r u) :
    Ensures exec P Q' p s := by
  induction p generalizing s with
  | done r => exact fun u hu => hq r u (h u hu)
  | step a next ih => exact fun u hu x => ih _ (h u hu x)

/-- What the first script ensures is what the second starts from. -/
theorem Ensures.bind {f : R → Script A O R'} {S : R' → σ → Prop} (h : Ensures exec P Q p s)
    (hf : ∀ r u, Q r u → Ensures exec P S (f r) u) : Ensures exec P S (p.bind f) s := by
  induction p generalizing s with
  | done r => exact hf r s (h s .refl)
  | step a next ih => exact fun u hu x => ih _ (h u hu x)

theorem ensures_done {r : R} (h : ∀ t, Sections exec P s t → Q r t) :
    Ensures exec P Q (.done r) s := h

/-- Along a script it is enough to follow what `I` says of the shared state. -/
theorem ensures_step {a : A} {next : O → Script A O R} {I : σ → Prop} (hs : I s)
    (hI : ∀ t u, Section exec P t u → I t → I u)
    (h : ∀ t x, I t → Ensures exec P Q (next (exec a x t).1) (exec a x t).2) :
    Ensures exec P Q (.step a next) s := by
  intro t ht x
  have hi : I t := by
    induction ht with
    | refl => exact hs
    | tail _ hu ih => exact hI _ _ hu ih
  exact h t x hi

theorem Ensures.map {f : R → R'} {T : R' → σ → Prop}
    (h : Ensures exec P (fun r => T (f r)) p s) : Ensures exec P T (p.map f) s := by
  induction p generalizing s with
  | done r => exact h
  | step a next ih => exact fun u hu x => ih _ (h u hu x)

/-! ## Scripts that may stop -/

/-- Where the script gives a result, the result and the shared state are in `Q`. -/
def Gives (exec : A → X → σ → O × σ) (P : A → Prop) (Q : R → σ → Prop) (p : Script A O (Option R))
    (s : σ) : Prop := Ensures exec P (fun o t => ∀ r, o = some r → Q r t) p s

theorem Gives.andThen {p : Script A O (Option R)} {f : R → Script A O (Option R')}
    {S : R' → σ → Prop} (h : Gives exec P Q p s)
    (hf : ∀ r u, Q r u → Gives exec P S (f r) u) : Gives exec P S (p.andThen f) s := by
  apply Ensures.bind h
  intro o u hq
  cases o with
  | none =>
    intro t _ r hr
    cases hr
  | some r => exact hf r u (hq r rfl)

theorem Gives.mono {p : Script A O (Option R)} (h : Gives exec P Q p s)
    (hq : ∀ r u, Q r u → Q' r u) : Gives exec P Q' p s :=
  Ensures.mono h (fun _ u ho r hr => hq r u (ho r hr))

theorem gives_some {r : R} (h : ∀ t, Sections exec P s t → Q r t) :
    Gives exec P Q (.done (some r)) s := by
  intro t ht r' hr
  cases hr
  exact h t ht

/-! ## Along a run -/

theorem Ensures.amid (h : Ensures exec P Q p s) (ha : Amid exec P p s q t) :
    Ensures exec P Q q t := by
  induction ha with
  | refl p s => exact h
  | other hs _ ih => exact ih (h.later (.single hs))
  | own x _ ih => exact ih (h _ .refl x)

theorem Amid.others (h : Sections exec P s t) {u : σ} (hq : Amid exec P p t q u) :
    Amid exec P p s q u := by
  induction h using Relation.ReflTransGen.head_induction_on with
  | refl => exact hq
  | head hs _ ih => exact .other hs ih

/-- Exactly what is ensured holds wherever the script returns. -/
theorem ensures_iff : Ensures exec P Q p s ↔
    ∀ r t, Amid exec P p s (.done r) t → Q r t := by
  constructor
  · intro h r t ht
    exact h.amid ht t .refl
  · intro h
    induction p generalizing s with
    | done r => exact fun t ht => h r t (Amid.others ht (.refl _ _))
    | step a next ih => exact fun t ht x => ih _ (fun r u hu => h r u (Amid.others ht (.own x hu)))

/-! ## A client of a system -/

theorem Amid.tail {u : σ} (h : Amid exec P p s q t) (hu : Section exec P t u) :
    Amid exec P p s q u := by
  induction h with
  | refl p s => exact .other hu (.refl p u)
  | other hs _ ih => exact .other hs (ih hu)
  | own x _ ih => exact .own x (ih hu)

theorem Amid.next {a : A} {next : O → Script A O R} (h : Amid exec P p s (.step a next) t) (x : X) :
    Amid exec P p s (next (exec a x t).1) (exec a x t).2 := by
  generalize hq : Script.step a next = q at h
  induction h with
  | refl p s =>
    subst hq
    exact .own x (.refl _ _)
  | other hs _ ih => exact .other hs (ih hq)
  | own y _ ih => exact .own y (ih hq)

variable [DecidableEq ι]

theorem client_setClient_ne {i j : ι} (h : i ≠ j) (y : System ι σ A O R)
    (p : Option (Script A O R)) (s : σ) : (y.setClient j p s).client i = y.client i :=
  Function.update_of_ne h ..

variable {V : R → Prop}

omit [DecidableEq ι] in
/-- Every client but `i` keeps to sections of kinds in `P` and to results in `V`. -/
def Others (P : A → Prop) (V : R → Prop) (i : ι) (y : System ι σ A O R) : Prop :=
  ∀ j q, j ≠ i → y.client j = some q → q.Keeps P V

theorem others_setClient {i j : ι} {y : System ι σ A O R} {o : Option (Script A O R)}
    (h : Others P V i y) (ho : j ≠ i → ∀ q, o = some q → q.Keeps P V) :
    Others P V i (y.setClient j o s) := by
  intro k q hk hq
  by_cases hkj : k = j
  · subst hkj
    rw [client_setClient] at hq
    exact ho hk q hq
  · rw [client_setClient_ne hkj] at hq
    exact h k q hk hq

/-- The client `i` runs what its script has come to, or it has returned and is one of the
others now. -/
def At (P : A → Prop) (V : R → Prop) (i : ι) (y : System ι σ A O R) (q : Script A O R) : Prop :=
  y.client i = some q ∨ (∃ r, q = .done r) ∧ ∀ u, y.client i = some u → u.Keeps P V

theorem at_setClient {i j : ι} (hij : i ≠ j) {y : System ι σ A O R} {o : Option (Script A O R)}
    (h : At P V i y q) : At P V i (y.setClient j o s) q := by
  rw [At, client_setClient_ne hij]
  exact h

theorem at_returned {i : ι} {y : System ι σ A O R} {o : Option (Script A O R)}
    (hd : ∃ r, q = .done r) (ho : ∀ u, o = some u → u.Keeps P V) :
    At P V i (y.setClient i o s) q := by
  refine Or.inr ⟨hd,?_⟩
  rw [client_setClient]
  exact ho

/-- One step of a system, seen from the client `i`. -/
theorem step_amid {starts : Script A O R → Prop} (hstarts : ∀ p, starts p → p.Keeps P V) {i : ι}
    {y z : System ι σ A O R} (ha : Amid exec P p s q y.shared) (hw : Others P V i y)
    (hi : At P V i y q) (h : Step exec starts y z) :
    ∃ u, Amid exec P p s u z.shared ∧ Others P V i z ∧ At P V i z u := by
  cases h with
  | start j p' hj hp =>
    have hnew : ∀ u, some p' = some u → u.Keeps P V := by
      intro u hu
      cases hu
      exact hstarts p' hp
    refine ⟨q,ha,others_setClient hw (fun _ => hnew),?_⟩
    by_cases hij : i = j
    · subst hij
      rcases hi with hi | hi
      · rw [hj] at hi
        cases hi
      · exact at_returned hi.1 hnew
    · exact at_setClient hij hi
  | run j a next x hj =>
    have hnew : (Script.step a next).Keeps P V → P a ∧
        ∀ u, some (next (exec a x y.shared).1) = some u → u.Keeps P V := by
      intro hall
      cases hall with
      | step hpa hn =>
        refine ⟨hpa,?_⟩
        intro u hu
        cases hu
        exact hn _
    by_cases hij : i = j
    · subst hij
      have hkeep : ∀ u, Others P V i (y.setClient i u (exec a x y.shared).2) := by
        intro u
        exact others_setClient hw (fun hne => absurd rfl hne)
      rcases hi with hi | hi
      · rw [hj] at hi
        cases hi
        exact ⟨_,ha.next x,hkeep _,Or.inl (client_setClient ..)⟩
      · obtain ⟨hpa,hn⟩ := hnew (hi.2 _ hj)
        exact ⟨q,ha.tail ⟨a,x,hpa,rfl⟩,hkeep _,at_returned hi.1 hn⟩
    · obtain ⟨hpa,hn⟩ := hnew (hw j _ (Ne.symm hij) hj)
      exact ⟨q,ha.tail ⟨a,x,hpa,rfl⟩,others_setClient hw (fun _ => hn),at_setClient hij hi⟩
  | finish j r hj =>
    have hnone : ∀ u, (none : Option (Script A O R)) = some u → u.Keeps P V := by
      intro u hu
      cases hu
    refine ⟨q,ha,others_setClient hw (fun _ => hnone),?_⟩
    by_cases hij : i = j
    · subst hij
      rcases hi with hi | hi
      · rw [hj] at hi
        cases hi
        exact at_returned ⟨r,rfl⟩ hnone
      · exact at_returned hi.1 hnone
    · exact at_setClient hij hi

theorem run_amid {starts : Script A O R → Prop} (hstarts : ∀ p, starts p → p.Keeps P V) {i : ι}
    {y z : System ι σ A O R} (hi : y.client i = some p) (hw : Others P V i y)
    (h : Run exec starts y z) :
    ∃ q, Amid exec P p y.shared q z.shared ∧ Others P V i z ∧ At P V i z q := by
  induction h with
  | refl => exact ⟨p,.refl _ _,hw,Or.inl hi⟩
  | tail _ hz ih =>
    obtain ⟨q,ha,hothers,hq⟩ := ih
    exact step_amid hstarts ha hothers hq hz

/-- What a client's script ensures holds where the client has its result, in a system whose
other clients keep to sections of kinds in `P` and to other results. -/
theorem run_ensures {starts : Script A O R → Prop} (hstarts : ∀ p, starts p → p.Keeps P V) {i : ι}
    {y z : System ι σ A O R} {r : R} (hp : Ensures exec P Q p y.shared) (hi : y.client i = some p)
    (hw : Others P V i y) (h : Run exec starts y z) (hr : ¬ V r)
    (hz : z.client i = some (.done r)) : Q r z.shared := by
  obtain ⟨q,ha,-,hq | ⟨-,hq⟩⟩ := run_amid hstarts hi hw h
  · rw [hz] at hq
    cases hq
    exact ensures_iff.mp hp r z.shared ha
  · cases hq _ hz with
    | done hv => exact absurd hv hr

end

end System
