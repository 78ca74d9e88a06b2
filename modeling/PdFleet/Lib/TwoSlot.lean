import Mathlib

/-!
# A store of two slots

A primary slot and a backup slot hold versions or nothing that can be read.
The newest readable version is the state of the store, the primary in a tie.
An update copies a readable primary over the backup and then replaces the
primary; it may be cut off in between.
-/

set_option autoImplicit false

namespace TwoSlot

variable {α : Type}

def newest (gen : α → ℕ) : Option α → Option α → Option α
  | some a, some b => if gen a < gen b then some b else some a
  | some a, none => some a
  | none, b => b

/-- The backup is not newer than a readable primary. -/
def Ordered (gen : α → ℕ) (a b : Option α) : Prop :=
  ∀ x y, a = some x → b = some y → gen y ≤ gen x

/-- What an update of the slots `a`, `b` by `n` can leave. -/
inductive Update (a b : Option α) (n : α) : Option α → Option α → Prop
  | untouched : Update a b n a b
  | backed (h : a.isSome) : Update a b n a a
  | replaced : Update a b n (some n) b
  | complete (h : a.isSome) : Update a b n (some n) a

theorem newest_of_ordered {gen : α → ℕ} {a : α} {b : Option α}
    (h : Ordered gen (some a) b) : newest gen (some a) b = some a := by
  cases b with
  | none => rfl
  | some b =>
    have hg := h a b rfl rfl
    rw [newest, if_neg (by omega)]

theorem newest_isSome (gen : α → ℕ) {a b : Option α} (h : a.isSome ∨ b.isSome) :
    (newest gen a b).isSome := by
  cases a with
  | none => simpa [newest] using h
  | some a =>
    cases b with
    | none => rfl
    | some b =>
      rw [newest]
      split <;> rfl

theorem le_newest {gen : α → ℕ} {a b : Option α} {s : α} (h : newest gen a b = some s) :
    (∀ x, a = some x → gen x ≤ gen s) ∧ (∀ y, b = some y → gen y ≤ gen s) := by
  cases a with
  | none =>
    rw [newest] at h
    subst h
    exact ⟨fun x hx => (nomatch hx),fun y hy => le_of_eq (by rw [Option.some.inj hy])⟩
  | some a =>
    cases b with
    | none =>
      rw [newest, Option.some.injEq] at h
      subst h
      exact ⟨fun x hx => le_of_eq (by rw [Option.some.inj hx]),fun y hy => nomatch hy⟩
    | some b =>
      rw [newest] at h
      split at h <;> cases h
      · constructor
        · rintro x ⟨⟩
          omega
        · rintro y ⟨⟩
          exact le_refl _
      · constructor
        · rintro x ⟨⟩
          exact le_refl _
        · rintro y ⟨⟩
          omega

theorem newest_mem {gen : α → ℕ} {a b : Option α} {s : α} (h : newest gen a b = some s) :
    a = some s ∨ b = some s := by
  cases a with
  | none => exact Or.inr h
  | some a =>
    cases b with
    | none => exact Or.inl h
    | some b =>
      rw [newest] at h
      split at h
      · exact Or.inr h
      · exact Or.inl h

theorem newest_replaced {gen : α → ℕ} {b : Option α} {n : α}
    (h : ∀ y, b = some y → gen y ≤ gen n) : newest gen (some n) b = some n :=
  newest_of_ordered (fun x y hx hy => by cases hx; exact h y hy)

theorem newest_map {β : Type} (gen : β → ℕ) (f : α → β) (a b : Option α) :
    newest gen (a.map f) (b.map f) = (newest (fun x => gen (f x)) a b).map f := by
  cases a with
  | none => rfl
  | some a =>
    cases b with
    | none => rfl
    | some b =>
      simp only [Option.map_some, newest]
      split_ifs <;> rfl

theorem newest_none (gen : α → ℕ) (b : Option α) : newest gen none b = b := rfl

section Update

variable {gen : α → ℕ} {a b a' b' : Option α} {s n : α}

theorem ordered_update (ho : Ordered gen a b) (hs : newest gen a b = some s)
    (hn : gen s < gen n) (hu : Update a b n a' b') : Ordered gen a' b' := by
  have hle := le_newest hs
  cases hu with
  | untouched => exact ho
  | backed h =>
    intro x y hx hy
    rw [hx, Option.some.injEq] at hy
    rw [hy]
  | replaced =>
    intro x y hx hy
    cases hx
    exact le_trans (hle.2 y hy) (le_of_lt hn)
  | complete h =>
    intro x y hx hy
    cases hx
    exact le_trans (hle.1 y hy) (le_of_lt hn)

/-- An update that is cut off anywhere leaves the old state or the new one. -/
theorem newest_update (ho : Ordered gen a b) (hs : newest gen a b = some s)
    (hn : gen s < gen n) (hu : Update a b n a' b') :
    newest gen a' b' = some s ∨ newest gen a' b' = some n := by
  have hle := le_newest hs
  cases hu with
  | untouched => exact Or.inl hs
  | backed h =>
    obtain ⟨x,rfl⟩ := Option.isSome_iff_exists.mp h
    rw [newest_of_ordered ho] at hs
    rw [newest, if_neg (lt_irrefl _)]
    exact Or.inl hs
  | replaced =>
    exact Or.inr (newest_replaced (fun y hy => le_trans (hle.2 y hy) (le_of_lt hn)))
  | complete h =>
    exact Or.inr (newest_replaced (fun y hy => le_trans (hle.1 y hy) (le_of_lt hn)))

end Update

theorem ordered_primary_lost (gen : α → ℕ) (b : Option α) : Ordered gen none b :=
  fun _ _ hx => nomatch hx

theorem ordered_backup_lost (gen : α → ℕ) (a : Option α) : Ordered gen a none :=
  fun _ _ _ hy => nomatch hy

/-! ## Rotation

A store that renames whatever is in its primary slot to the backup, readable or not,
before it puts a new version there. -/

section Rotation

/-- What a rotation of the slots `a`, `b` by `n` can leave, where `present` says that there
is something in the primary slot, and what of the primary slot is then present. -/
inductive Rotation (present : Prop) (a b : Option α) (n : α) : Prop → Option α → Option α → Prop
  | untouched : Rotation present a b n present a b
  | moved (h : present) : Rotation present a b n False none a
  | installed (h : present) : Rotation present a b n True (some n) a
  | placed (h : ¬ present) : Rotation present a b n True (some n) b

/-- A primary that is there can be read and is not older than the backup. -/
def Sound (gen : α → ℕ) (present : Prop) (a b : Option α) : Prop :=
  present → ∃ x, a = some x ∧ ∀ y, b = some y → gen y ≤ gen x

variable {gen : α → ℕ} {present present' : Prop} {a b a' b' : Option α} {s n : α}

theorem newest_of_sound (h : Sound gen present a b) (hp : present) : newest gen a b = a := by
  obtain ⟨x,rfl,hx⟩ := h hp
  exact newest_of_ordered (fun u v hu hv => by
    cases hu
    exact hx v hv)

/-- A rotation of sound slots that stops anywhere leaves the old state or the new one. -/
theorem newest_rotation (h : Sound gen present a b) (hs : newest gen a b = some s) (hn : gen s < gen n)
    (hr : Rotation present a b n present' a' b') :
    newest gen a' b' = some s ∨ newest gen a' b' = some n := by
  have hle := le_newest hs
  cases hr with
  | untouched => exact Or.inl hs
  | moved hp =>
    rw [newest_of_sound h hp] at hs
    exact Or.inl hs
  | installed hp =>
    exact Or.inr (newest_replaced (fun y hy => le_trans (hle.1 y hy) (le_of_lt hn)))
  | placed hp =>
    exact Or.inr (newest_replaced (fun y hy => le_trans (hle.2 y hy) (le_of_lt hn)))

/-- Rotations keep slots sound. -/
theorem sound_rotation (h : Sound gen present a b) (hs : ∀ s, newest gen a b = some s → gen s < gen n)
    (hr : Rotation present a b n present' a' b') : Sound gen present' a' b' := by
  have hlt : ∀ y, b = some y ∨ a = some y → gen y ≤ gen n := by
    intro y hy
    have hsome : (newest gen a b).isSome := by
      apply newest_isSome
      rcases hy with hy | hy
      · exact Or.inr (by rw [hy]; rfl)
      · exact Or.inl (by rw [hy]; rfl)
    obtain ⟨s,hs'⟩ := Option.isSome_iff_exists.mp hsome
    have hle := le_newest hs'
    have hsn := hs s hs'
    rcases hy with hy | hy
    · exact le_trans (hle.2 y hy) (le_of_lt hsn)
    · exact le_trans (hle.1 y hy) (le_of_lt hsn)
  cases hr with
  | untouched => exact h
  | moved hp => exact False.elim
  | installed hp => exact fun _ => ⟨n,rfl,fun y hy => hlt y (Or.inr hy)⟩
  | placed hp => exact fun _ => ⟨n,rfl,fun y hy => hlt y (Or.inl hy)⟩

/-- Only sound slots survive every rotation that stops between its two renames. -/
theorem sound_of_moved (hs : newest gen a b = some s) (h : ∃ s', newest gen none a = some s' ∧ gen s ≤ gen s') :
    ∃ x, a = some x ∧ ∀ y, b = some y → gen y ≤ gen x := by
  obtain ⟨x,hx,hle⟩ := h
  rw [newest_none] at hx
  exact ⟨x,hx,fun y hy => le_trans ((le_newest hs).2 y hy) hle⟩

end Rotation

end TwoSlot
