import Mathlib

/-!
# The proleptic Gregorian calendar

Dates and day counts determine each other, and the order of dates by year,
month and day is the order of their day counts. Day zero is the first of
January of year one.
-/

set_option autoImplicit false

namespace Gregorian

def isLeap (y : ℕ) : Bool := y%4 = 0 ∧ (y%100 ≠ 0 ∨ y%400 = 0)

def leap (y : ℕ) : ℕ := if isLeap y then 1 else 0

def daysBeforeYear (y : ℕ) : ℕ := 365*(y-1)+(y-1)/4-(y-1)/100+(y-1)/400

/-- The length of a month; `l` is one in a leap year and zero otherwise. -/
def daysInMonth (l m : ℕ) : ℕ :=
  if m = 2 then 28+l else if m = 4 ∨ m = 6 ∨ m = 9 ∨ m = 11 then 30 else 31

def daysBeforeMonth (l : ℕ) : ℕ → ℕ
  | 0 => 0
  | 1 => 0
  | m+2 => daysBeforeMonth l (m+1)+daysInMonth l (m+1)

structure Date where
  year : ℕ
  month : ℕ
  day : ℕ
  deriving DecidableEq, Repr

structure Date.Valid (t : Date) : Prop where
  year_pos : 1 ≤ t.year
  month_pos : 1 ≤ t.month
  month_le : t.month ≤ 12
  day_pos : 1 ≤ t.day
  day_le : t.day ≤ daysInMonth (leap t.year) t.month

/-- The day count of a date. -/
def Date.count (t : Date) : ℕ :=
  daysBeforeYear t.year+daysBeforeMonth (leap t.year) t.month+t.day-1

def Date.Before (t u : Date) : Prop :=
  t.year < u.year ∨ (t.year = u.year ∧
    (t.month < u.month ∨ (t.month = u.month ∧ t.day < u.day)))

def yearOf (n : ℕ) : ℕ :=
  let y := n*400/146097+1
  if daysBeforeYear (y+1) ≤ n then y+1 else if daysBeforeYear y ≤ n then y else y-1

/-- The first month from `m` on, at most `k` later, that ends after day `r` of the year. -/
def monthFrom (l r : ℕ) : ℕ → ℕ → ℕ
  | 0, m => m
  | k+1, m => if r < daysBeforeMonth l (m+1) then m else monthFrom l r k (m+1)

def monthOf (l r : ℕ) : ℕ := monthFrom l r 11 1

def dateOf (n : ℕ) : Date :=
  let y := yearOf n
  let r := n-daysBeforeYear y
  let m := monthOf (leap y) r
  ⟨y, m, r-daysBeforeMonth (leap y) m+1⟩

theorem leap_le (y : ℕ) : leap y ≤ 1 := by
  unfold leap
  split <;> omega

theorem daysBeforeYear_succ (y : ℕ) (h : 1 ≤ y) :
    daysBeforeYear (y+1) = daysBeforeYear y+365+leap y := by
  obtain ⟨e,rfl⟩ : ∃ e, y = e+1 := ⟨y-1, by omega⟩
  have h4 := @Nat.succ_div e 4
  have h100 := @Nat.succ_div e 100
  have h400 := @Nat.succ_div e 400
  have hle : e/100 ≤ e/4 := by omega
  simp only [daysBeforeYear, leap, isLeap, Nat.add_sub_cancel, Bool.decide_and, Bool.decide_or,
    Bool.and_eq_true, Bool.or_eq_true, decide_eq_true_eq]
  rw [h4, h100, h400]
  split_ifs <;> omega

theorem daysBeforeYear_mono {y z : ℕ} (hy : 1 ≤ y) (h : y ≤ z) :
    daysBeforeYear y ≤ daysBeforeYear z := by
  induction z, h using Nat.le_induction with
  | base => exact le_refl _
  | succ z hz ih =>
    rw [daysBeforeYear_succ z (by omega)]
    omega

theorem daysBeforeMonth_succ (l m : ℕ) (h : 1 ≤ m) :
    daysBeforeMonth l (m+1) = daysBeforeMonth l m+daysInMonth l m := by
  obtain ⟨k,rfl⟩ : ∃ k, m = k+1 := ⟨m-1, by omega⟩
  rfl

theorem daysBeforeMonth_mono (l : ℕ) {m k : ℕ} (h : m ≤ k) :
    daysBeforeMonth l m ≤ daysBeforeMonth l k := by
  induction k, h using Nat.le_induction with
  | base => exact le_refl _
  | succ k hk ih =>
    rcases Nat.eq_zero_or_pos k with rfl | hp
    · simpa [daysBeforeMonth] using ih
    · rw [daysBeforeMonth_succ l k hp]
      omega

theorem yearOf_spec (n : ℕ) :
    1 ≤ yearOf n ∧ daysBeforeYear (yearOf n) ≤ n ∧ n < daysBeforeYear (yearOf n+1) := by
  unfold yearOf daysBeforeYear
  simp only
  split
  · omega
  · split <;> omega

theorem month_from_spec (l r k m : ℕ) (h : daysBeforeMonth l m ≤ r) :
    m ≤ monthFrom l r k m ∧ monthFrom l r k m ≤ m+k ∧
      daysBeforeMonth l (monthFrom l r k m) ≤ r ∧
      (r < daysBeforeMonth l (monthFrom l r k m+1) ∨ monthFrom l r k m = m+k) := by
  induction k generalizing m with
  | zero => exact ⟨le_refl _, le_refl _, h, Or.inr rfl⟩
  | succ k ih =>
    unfold monthFrom
    split
    · rename_i hlt
      exact ⟨le_refl _, by omega, h, Or.inl hlt⟩
    · rename_i hge
      obtain ⟨h1,h2,h3,h4⟩ := ih (m+1) (Nat.le_of_not_lt hge)
      exact ⟨by omega, by omega, h3, h4.imp_right (fun he => by omega)⟩

theorem month_spec (l r : ℕ) (h : r < 365+l) :
    1 ≤ monthOf l r ∧ monthOf l r ≤ 12 ∧ daysBeforeMonth l (monthOf l r) ≤ r ∧
      r < daysBeforeMonth l (monthOf l r+1) := by
  obtain ⟨h1,h2,h3,h4⟩ := month_from_spec l r 11 1 (Nat.zero_le _)
  refine ⟨h1, h2, h3, h4.elim id (fun he => ?_)⟩
  have h13 : daysBeforeMonth l 13 = 365+l := by simp [daysBeforeMonth, daysInMonth]; omega
  rw [monthOf, he, show 1+11+1 = 13 from rfl, h13]
  exact h

theorem day_of_year_lt (n : ℕ) : n-daysBeforeYear (yearOf n) < 365+leap (yearOf n) := by
  obtain ⟨hp,hl,hu⟩ := yearOf_spec n
  rw [daysBeforeYear_succ _ hp] at hu
  omega

theorem dateOf_valid (n : ℕ) : (dateOf n).Valid := by
  obtain ⟨hp,-,-⟩ := yearOf_spec n
  obtain ⟨h1,h12,hlo,hhi⟩ := month_spec _ _ (day_of_year_lt n)
  refine ⟨hp, h1, h12, by simp [dateOf], ?_⟩
  rw [daysBeforeMonth_succ _ _ h1] at hhi
  simp only [dateOf]
  omega

theorem count_dateOf (n : ℕ) : (dateOf n).count = n := by
  obtain ⟨-,hl,-⟩ := yearOf_spec n
  obtain ⟨-,-,hlo,-⟩ := month_spec _ _ (day_of_year_lt n)
  simp only [dateOf, Date.count]
  omega

theorem day_of_year_le {t : Date} (ht : t.Valid) :
    daysBeforeMonth (leap t.year) t.month+t.day ≤ 365+leap t.year := by
  have hm := daysBeforeMonth_mono (leap t.year) (m := t.month+1) (k := 13)
    (by have := ht.month_le; omega)
  have hd := ht.day_le
  have h13 : daysBeforeMonth (leap t.year) 13 = 365+leap t.year := by
    simp [daysBeforeMonth, daysInMonth]; omega
  rw [daysBeforeMonth_succ _ _ ht.month_pos] at hm
  omega

theorem count_lt {t u : Date} (ht : t.Valid) (hu : u.Valid) (h : t.Before u) :
    t.count < u.count := by
  have htd := ht.day_pos
  have hud := hu.day_pos
  unfold Date.count
  rcases h with hy | ⟨hy,hm | ⟨hm,hd⟩⟩
  · have hb := daysBeforeYear_mono (y := t.year+1) (by omega) hy
    rw [daysBeforeYear_succ _ ht.year_pos] at hb
    have hr := day_of_year_le ht
    omega
  · have hb := daysBeforeMonth_mono (leap t.year) (m := t.month+1) hm
    have hd := ht.day_le
    rw [daysBeforeMonth_succ _ _ ht.month_pos] at hb
    rw [← hy]
    omega
  · rw [← hy, ← hm]
    omega

theorem before_total (t u : Date) (h : ¬ t.Before u) : u.Before t ∨ t = u := by
  obtain ⟨y,mo,d⟩ := t
  obtain ⟨y',mo',d'⟩ := u
  simp only [Date.Before, Date.mk.injEq] at *
  omega

theorem dateOf_before {m n : ℕ} (h : m < n) : (dateOf m).Before (dateOf n) := by
  by_contra hn
  have hcases : (dateOf n).Before (dateOf m) ∨ dateOf m = dateOf n := before_total _ _ hn
  rcases hcases with hb | he
  · have hc := count_lt (dateOf_valid n) (dateOf_valid m) hb
    rw [count_dateOf, count_dateOf] at hc
    omega
  · have hc := congrArg Date.count he
    rw [count_dateOf, count_dateOf] at hc
    omega

/-- A day before the count `n` of a first of January lies in an earlier year. -/
theorem yearOf_lt (n y : ℕ) (h : n < daysBeforeYear y) (hy : 1 ≤ y) : yearOf n < y := by
  obtain ⟨-,hl,-⟩ := yearOf_spec n
  by_contra hn
  have hm := daysBeforeYear_mono hy (Nat.le_of_not_lt hn)
  omega

end Gregorian
