import Mathlib

/-!
# Fixed-width decimal numerals

Numerals of one width are ordered as text the way their numbers are ordered,
and texts made of fields of equal widths are ordered field by field.
-/

set_option autoImplicit false

namespace FixedWidth

section Fields

variable {α : Type} [LinearOrder α]

theorem append_lt_append_iff (a a' b b' : List α) (h : a.length = a'.length) :
    a++b < a'++b' ↔ a < a' ∨ (a = a' ∧ b < b') := by
  induction a generalizing a' with
  | nil =>
    obtain rfl : a' = [] := List.eq_nil_of_length_eq_zero h.symm
    simp
  | cons x a ih =>
    cases a' with
    | nil => simp at h
    | cons x' a' =>
      have hl : a.length = a'.length := by simpa using h
      simp only [List.cons_append, List.cons_lt_cons_iff, ih a' hl, List.cons.injEq]
      tauto

theorem append_lt_of_lt {a a' : List α} (b b' : List α) (hl : a.length = a'.length)
    (h : a < a') : a++b < a'++b' :=
  (append_lt_append_iff a a' b b' hl).mpr (Or.inl h)

theorem append_lt_of_eq (a : List α) {b b' : List α} (h : b < b') : a++b < a++b' :=
  (append_lt_append_iff a a b b' rfl).mpr (Or.inr ⟨rfl,h⟩)

end Fields

def digitChar (n : ℕ) : Char := Char.ofNat (48+n)

def digitVal (c : Char) : Option ℕ :=
  if '0' ≤ c ∧ c ≤ '9' then some (c.toNat-48) else none

theorem digitVal_lt {c : Char} {d : ℕ} (h : digitVal c = some d) : d < 10 := by
  rw [digitVal] at h
  split at h
  · rename_i hc
    cases h
    have h9 : c.toNat ≤ 57 := hc.2
    omega
  · cases h

theorem digitVal_digitChar (n : ℕ) (h : n < 10) : digitVal (digitChar n) = some n := by
  interval_cases n <;> decide

theorem digitChar_lt (m n : ℕ) (hn : n < 10) (h : m < n) : digitChar m < digitChar n := by
  have hm : m < 10 := by omega
  interval_cases n <;> interval_cases m <;> first | omega | decide

def numeral : ℕ → ℕ → List Char
  | 0, _ => []
  | w+1, n => numeral w (n/10) ++ [digitChar (n%10)]

theorem numeral_length (w n : ℕ) : (numeral w n).length = w := by
  induction w generalizing n with
  | zero => rfl
  | succ w ih => simp [numeral, ih]

theorem numeral_lt (w m n : ℕ) (hn : n < 10^w) (h : m < n) : numeral w m < numeral w n := by
  induction w generalizing m n with
  | zero => simp at hn; omega
  | succ w ih =>
    have hlen : (numeral w (m/10)).length = (numeral w (n/10)).length := by
      simp [numeral_length]
    have hn10 : n/10 < 10^w := by
      rw [pow_succ] at hn
      exact Nat.div_lt_of_lt_mul (by omega)
    rcases Nat.lt_or_ge (m/10) (n/10) with hd | hd
    · exact append_lt_of_lt _ _ hlen (ih _ _ hn10 hd)
    · have he : m/10 = n/10 := by omega
      have hr : m%10 < n%10 := by omega
      rw [numeral, numeral, he]
      apply append_lt_of_eq
      rw [List.cons_lt_cons_iff]
      exact Or.inl (digitChar_lt _ _ (Nat.mod_lt _ (by decide)) hr)

end FixedWidth
