import Mathlib

/-!
# Verdicts of a check that reads its input

A reader of untrusted data accepts it with the value it read, rejects it, or
raises an exception of its own. The first answer that is not an acceptance
decides.
-/

set_option autoImplicit false

inductive Verdict (ε α : Type) where
  | accept (a : α)
  | reject
  | raise (e : ε)
  deriving Repr

namespace Verdict

variable {ε α β : Type}

def bind (x : Verdict ε α) (f : α → Verdict ε β) : Verdict ε β :=
  match x with
  | accept a => f a
  | reject => reject
  | raise e => raise e

instance : Monad (Verdict ε) where
  pure := accept
  bind := bind

def require (b : Bool) : Verdict ε Unit := if b then accept () else reject

def ofOption : Option α → Verdict ε α
  | some a => accept a
  | none => reject

def ofExcept : Except ε α → Verdict ε α
  | .ok a => accept a
  | .error e => raise e

def toExcept : Verdict ε α → Except ε (Option α)
  | accept a => .ok (some a)
  | reject => .ok none
  | raise e => .error e

/-- The items of a list in order, up to the first that is not accepted. -/
def each (f : α → Verdict ε β) : List α → Verdict ε (List β)
  | [] => accept []
  | a :: l => do
    let b ← f a
    let bs ← each f l
    return b::bs

@[simp] theorem pure_eq (a : α) : (pure a : Verdict ε α) = accept a := rfl

@[simp] theorem accept_bind (a : α) (f : α → Verdict ε β) : (accept a >>= f) = f a := rfl

@[simp] theorem reject_bind (f : α → Verdict ε β) : (reject >>= f) = reject := rfl

@[simp] theorem raise_bind (e : ε) (f : α → Verdict ε β) : (raise e >>= f) = raise e := rfl

@[simp] theorem require_true : (require true : Verdict ε Unit) = accept () := rfl

@[simp] theorem require_false : (require false : Verdict ε Unit) = reject := rfl

theorem bind_eq_accept {x : Verdict ε α} {f : α → Verdict ε β} {b : β} :
    (x >>= f) = accept b ↔ ∃ a, x = accept a ∧ f a = accept b := by
  cases x with
  | accept a => simp
  | reject =>
    constructor
    · intro h
      cases h
    · rintro ⟨a,h,_⟩
      cases h
  | raise e =>
    constructor
    · intro h
      cases h
    · rintro ⟨a,h,_⟩
      cases h

theorem require_eq_accept {b : Bool} {u : Unit} :
    (require b : Verdict ε Unit) = accept u ↔ b = true := by
  cases b <;> simp [require]

theorem ofOption_eq_accept {o : Option α} {a : α} :
    (ofOption o : Verdict ε α) = accept a ↔ o = some a := by
  cases o <;> simp [ofOption]

theorem ofExcept_eq_accept {x : Except ε α} {a : α} :
    ofExcept x = accept a ↔ x = .ok a := by
  cases x <;> simp [ofExcept]

theorem each_eq_accept {f : α → Verdict ε β} {l : List α} {m : List β} :
    each f l = accept m ↔ List.Forall₂ (fun a b => f a = accept b) l m := by
  induction l generalizing m with
  | nil =>
    rw [List.forall₂_nil_left_iff, each, accept.injEq]
    exact eq_comm
  | cons a l ih =>
    rw [each, bind_eq_accept]
    constructor
    · rintro ⟨b,hb,h⟩
      obtain ⟨bs,hbs,h⟩ := bind_eq_accept.mp h
      cases h
      exact List.Forall₂.cons hb (ih.mp hbs)
    · intro h
      obtain ⟨b,bs,hb,hbs,rfl⟩ := List.forall₂_cons_left_iff.mp h
      exact ⟨b,hb,bind_eq_accept.mpr ⟨bs,ih.mpr hbs,rfl⟩⟩

theorem each_accepts {f : α → Verdict ε β} {l : List α} :
    (∃ m, each f l = accept m) ↔ ∀ a ∈ l, ∃ b, f a = accept b := by
  induction l with
  | nil => exact iff_of_true ⟨[],rfl⟩ (fun a h => nomatch h)
  | cons a l ih =>
    rw [List.forall_mem_cons, ← ih]
    constructor
    · rintro ⟨m,h⟩
      obtain ⟨b,hb,h⟩ := bind_eq_accept.mp h
      obtain ⟨bs,hbs,-⟩ := bind_eq_accept.mp h
      exact ⟨⟨b,hb⟩,bs,hbs⟩
    · rintro ⟨⟨b,hb⟩,bs,hbs⟩
      refine ⟨b::bs,?_⟩
      rw [each, hb, accept_bind, hbs]
      rfl

theorem exists_of_mem_each {f : α → Verdict ε β} {l : List α} {m : List β} {b : β}
    (h : each f l = accept m) (hb : b ∈ m) : ∃ a ∈ l, f a = accept b := by
  induction each_eq_accept.mp h with
  | nil => simp at hb
  | @cons a c l m hf _ ih =>
    rcases List.mem_cons.mp hb with rfl | hm
    · exact ⟨a,List.mem_cons_self,hf⟩
    · obtain ⟨a',ha,hf'⟩ := ih (each_eq_accept.mpr ‹_›) hm
      exact ⟨a',List.mem_cons_of_mem _ ha,hf'⟩

/-! ## Checks that do not raise -/

def Calm (x : Verdict ε α) : Prop := ∀ e, x ≠ raise e

theorem calm_accept (a : α) : (accept a : Verdict ε α).Calm := fun _ h => nomatch h

theorem calm_reject : (reject : Verdict ε α).Calm := fun _ h => nomatch h

theorem calm_require (b : Bool) : (require b : Verdict ε Unit).Calm := by
  cases b
  · exact calm_reject
  · exact calm_accept ()

theorem calm_ofOption (o : Option α) : (ofOption o : Verdict ε α).Calm := by
  cases o
  · exact calm_reject
  · exact calm_accept _

theorem calm_bind {x : Verdict ε α} {f : α → Verdict ε β} (hx : x.Calm)
    (hf : ∀ a, x = accept a → (f a).Calm) : (x >>= f).Calm := by
  cases x with
  | accept a => exact hf a rfl
  | reject => exact calm_reject
  | raise e => exact absurd rfl (hx e)

theorem calm_each {f : α → Verdict ε β} {l : List α} (h : ∀ a ∈ l, (f a).Calm) :
    (each f l).Calm := by
  induction l with
  | nil => exact calm_accept _
  | cons a l ih =>
    refine calm_bind (h a List.mem_cons_self) (fun b _ => ?_)
    exact calm_bind (ih (fun c hc => h c (List.mem_cons_of_mem _ hc))) (fun _ _ => calm_accept _)

end Verdict
