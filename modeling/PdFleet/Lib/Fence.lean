import Mathlib

/-!
# Fencing by generations

Holders of resources under a counter. Every step raises the counter, and what a
resource holds after a step was there before or bears the new count. A holding
that is gone never comes back, and no two holdings of a resource share a count.
-/

set_option autoImplicit false

namespace Fence

variable {κ α : Type}

structure State (κ α : Type) where
  count : ℕ
  held : κ → Option α

def Step (mark : α → ℕ) (a b : State κ α) : Prop :=
  a.count < b.count ∧ ∀ k x, b.held k = some x → a.held k = some x ∨ mark x = b.count

def Run (mark : α → ℕ) : State κ α → State κ α → Prop := Relation.ReflTransGen (Step mark)

/-- No holding is from the future. -/
def Dated (mark : α → ℕ) (a : State κ α) : Prop := ∀ k x, a.held k = some x → mark x ≤ a.count

section

variable {mark : α → ℕ} {a b c : State κ α} {k : κ} {x y : α}

theorem dated_step (ha : Dated mark a) (h : Step mark a b) : Dated mark b := by
  intro k x hx
  rcases h.2 k x hx with hk | hk
  · exact le_trans (ha k x hk) h.1.le
  · exact le_of_eq hk

theorem count_le (h : Run mark a b) : a.count ≤ b.count := by
  induction h with
  | refl => exact le_refl _
  | tail _ hs ih => exact le_trans ih hs.1.le

/-- A holding no younger than the start of a run was there at the start. -/
theorem held_before (h : Run mark a b) (hx : b.held k = some x) (hm : mark x ≤ a.count) :
    a.held k = some x := by
  induction h with
  | refl => exact hx
  | tail hr hs ih =>
    rcases hs.2 k x hx with hk | hk
    · exact ih hk
    · have hlt := hs.1
      have hle := count_le hr
      omega

/-- Two holdings of one resource with one count are the same holding. -/
theorem held_unique (ha : Dated mark a) (h : Run mark a b) (hx : a.held k = some x)
    (hy : b.held k = some y) (hm : mark y = mark x) : y = x := by
  have hk := held_before h hy (by rw [hm]; exact ha k x hx)
  rw [hx] at hk
  exact (Option.some.inj hk).symm

/-- Once a holding is gone, its count is gone. -/
theorem never_again (ha : Dated mark a) (h : Run mark a b) (h' : Run mark b c)
    (hx : a.held k = some x) (hb : b.held k ≠ some x) (hy : c.held k = some y) :
    mark y ≠ mark x := by
  intro hm
  have hd := ha k x hx
  have hc := count_le h
  have hk := held_before h' hy (by omega)
  have he := held_unique ha h hx hk hm
  exact hb (he ▸ hk)

end

end Fence
