import Mathlib

/-!
# Replacing words

The occurrences of a word in a text are replaced from left to right, no two of them
overlapping, and then those of the next word in what came of it. A text may be taken apart
at a place where no occurrence is cut: the parts are replaced each by itself.
-/

set_option autoImplicit false

namespace Replace

variable {α : Type} [DecidableEq α]

/-- `skip` elements belong to the last occurrence. -/
def replaceFrom (new old : List α) : ℕ → List α → List α
  | _, [] => []
  | skip+1, _ :: t => replaceFrom new old skip t
  | 0, c :: t =>
    if old <+: c :: t then new++replaceFrom new old (old.length-1) t
    else c :: replaceFrom new old 0 t

def replace (new old t : List α) : List α := replaceFrom new old 0 t

/-- An occurrence that the replacement of `t++u` meets begins in `t` and ends in `u`. -/
def cutsFrom (old : List α) : ℕ → List α → List α → Bool
  | _, [], _ => false
  | skip+1, _ :: t, u => cutsFrom old skip t u
  | 0, c :: t, u =>
    if old <+: c :: t then cutsFrom old (old.length-1) t u
    else decide (old <+: c :: t++u) || cutsFrom old 0 t u

def cuts (old t u : List α) : Bool := cutsFrom old 0 t u

/-- One word after the other. -/
def replaceAll (new : List α) (olds : List (List α)) (t : List α) : List α :=
  olds.foldl (fun t old => replace new old t) t

/-- An occurrence of one of the words is cut when its turn comes. -/
def cutsAny (new : List α) : List (List α) → List α → List α → Bool
  | [], _, _ => false
  | old :: olds, t, u =>
    cuts old t u || cutsAny new olds (replace new old t) (replace new old u)

variable {new old t u : List α} {olds : List (List α)}

theorem replaceFrom_append {skip : ℕ} (hskip : skip ≤ t.length)
    (h : cutsFrom old skip t u = false) :
    replaceFrom new old skip (t++u) = replaceFrom new old skip t++replaceFrom new old 0 u := by
  induction t generalizing skip with
  | nil =>
    obtain rfl : skip = 0 := Nat.le_zero.mp hskip
    rfl
  | cons c t ih =>
    rw [List.length_cons] at hskip
    cases skip with
    | succ skip => exact ih (by omega) h
    | zero =>
      rw [cutsFrom] at h
      rw [List.cons_append, replaceFrom, replaceFrom]
      by_cases hold : old <+: c :: t
      · have hlong : old <+: c :: (t++u) := hold.trans (List.prefix_append (c :: t) u)
        have hlen := hold.length_le
        rw [List.length_cons] at hlen
        rw [if_pos hold] at h
        rw [if_pos hold, if_pos hlong, ih (by omega) h, List.append_assoc]
      · rw [if_neg hold, Bool.or_eq_false_iff, decide_eq_false_iff_not, List.cons_append] at h
        rw [if_neg hold, if_neg h.1, ih (Nat.zero_le _) h.2, List.cons_append]

theorem replace_append (h : cuts old t u = false) :
    replace new old (t++u) = replace new old t++replace new old u :=
  replaceFrom_append (Nat.zero_le _) h

/-- At a place where no word is cut the replacement falls apart. -/
theorem replaceAll_append (h : cutsAny new olds t u = false) :
    replaceAll new olds (t++u) = replaceAll new olds t++replaceAll new olds u := by
  induction olds generalizing t u with
  | nil => rfl
  | cons old olds ih =>
    rw [cutsAny, Bool.or_eq_false_iff] at h
    have hrest := ih h.2
    rw [← replace_append h.1] at hrest
    exact hrest

theorem cuts_nil (old t : List α) : cuts old t [] = false := by
  have h : ∀ skip, cutsFrom old skip t [] = false := by
    induction t with
    | nil => exact fun skip => rfl
    | cons c t ih =>
      intro skip
      cases skip with
      | succ skip => exact ih skip
      | zero =>
        rw [cutsFrom, List.append_nil]
        by_cases hold : old <+: c :: t
        · rw [if_pos hold]
          exact ih _
        · rw [if_neg hold, ih 0, decide_eq_false hold]
          rfl
  exact h 0

theorem cutsAny_nil (olds : List (List α)) (t : List α) : cutsAny new olds t [] = false := by
  induction olds generalizing t with
  | nil => rfl
  | cons old olds ih =>
    rw [cutsAny, cuts_nil, Bool.false_or]
    exact ih _

theorem mem_replaceFrom {skip : ℕ} {c : α} (h : c ∈ replaceFrom new old skip t) :
    c ∈ new ∨ c ∈ t := by
  induction t generalizing skip with
  | nil => cases h
  | cons d t ih =>
    cases skip with
    | succ skip => exact (ih h).imp_right (List.mem_cons_of_mem d)
    | zero =>
      rw [replaceFrom] at h
      split_ifs at h
      · rcases List.mem_append.mp h with h | h
        · exact Or.inl h
        · exact (ih h).imp_right (List.mem_cons_of_mem d)
      · rcases List.mem_cons.mp h with rfl | h
        · exact Or.inr List.mem_cons_self
        · exact (ih h).imp_right (List.mem_cons_of_mem d)

/-- No element comes up that neither the text nor the replacement has. -/
theorem mem_replaceAll {c : α} (h : c ∈ replaceAll new olds t) : c ∈ new ∨ c ∈ t := by
  induction olds generalizing t with
  | nil => exact Or.inr h
  | cons old olds ih =>
    rcases ih h with h | h
    · exact Or.inl h
    · exact mem_replaceFrom h

end Replace
