import Mathlib

/-!
# Texts as paths in a tree

A text whose parts are divided by a separator names a place in a tree. That one
text lies under another, as far as a test of prefixes tells, is that the parts of
the one begin with the parts of the other.
-/

set_option autoImplicit false

namespace PathTree

variable {α : Type} [DecidableEq α] {sep : α}

/-- One of the two paths is the other, or contains it. -/
def Nested (p q : List (List α)) : Prop := p <+: q ∨ q <+: p

instance (p q : List (List α)) : Decidable (Nested p q) :=
  inferInstanceAs (Decidable (p <+: q ∨ q <+: p))

omit [DecidableEq α] in
theorem Nested.symm {p q : List (List α)} (h : Nested p q) : Nested q p := Or.symm h

omit [DecidableEq α] in
theorem intercalate_append (p : List (List α)) {q : List (List α)} (hq : q ≠ []) (w : List α) :
    [sep].intercalate (p++w::q) = [sep].intercalate (p++[w])++sep::[sep].intercalate q := by
  induction p with
  | nil => simp [List.intercalate_cons_of_ne_nil hq]
  | cons v p ih =>
    have h₁ : p++w::q ≠ [] := by simp
    have h₂ : p++[w] ≠ [] := by simp
    rw [List.cons_append, List.intercalate_cons_of_ne_nil h₁, ih, List.cons_append,
      List.intercalate_cons_of_ne_nil h₂]
    simp

theorem not_mem_of_mem_splitOn {l w : List α} (h : w ∈ l.splitOn sep) : sep ∉ w := by
  induction l generalizing w with
  | nil =>
    rw [List.splitOn_nil, List.mem_singleton] at h
    rw [h]
    exact List.not_mem_nil
  | cons x l ih =>
    rw [List.splitOn_cons_eq_if_modifyHead] at h
    obtain ⟨v,vs,hv⟩ := List.exists_cons_of_ne_nil (List.splitOn_ne_nil sep l)
    rw [hv] at h ih
    split at h
    · rcases List.mem_cons.mp h with rfl | h
      · exact List.not_mem_nil
      · exact ih h
    · rename_i hx
      rcases List.mem_cons.mp h with rfl | h
      · rw [List.mem_cons, not_or]
        exact ⟨fun he => hx (by simp [he]),ih List.mem_cons_self⟩
      · exact ih (List.mem_cons_of_mem v h)

/-- A word is a part of a text if separators, or its ends, enclose it there. -/
theorem mem_splitOn_iff {l w : List α} : w ∈ l.splitOn sep ↔ sep ∉ w ∧
    ∃ before after, l = before++w++after ∧ (∀ c ∈ before.getLast?, c = sep) ∧
      ∀ c ∈ after.head?, c = sep := by
  have hword : ∀ w' : List α, sep ∉ w' → w'.splitOn sep = [w'] := fun _ h =>
    List.splitOn_eq_singleton h
  constructor
  · intro h
    obtain ⟨p,q,hsplit⟩ := List.mem_iff_append.mp h
    have hl : [sep].intercalate (l.splitOn sep) = l := List.intercalate_splitOn sep
    refine ⟨not_mem_of_mem_splitOn h,?_⟩
    -- what stands before the word is empty or ends with a separator
    obtain ⟨before,hbefore,hlast⟩ : ∃ before, [sep].intercalate (p++[w]) = before++w ∧
        ∀ c ∈ before.getLast?, c = sep := by
      rcases List.eq_nil_or_concat p with rfl | ⟨p',v,rfl⟩
      · exact ⟨[],by simp,by simp⟩
      · refine ⟨[sep].intercalate (p'.concat v)++[sep],?_,by simp⟩
        rw [List.concat_eq_append, List.append_assoc, List.singleton_append,
          intercalate_append p' (List.cons_ne_nil w [])]
        simp
    by_cases hq : q = []
    · subst hq
      refine ⟨before,[],?_,hlast,by simp⟩
      rw [← hl, hsplit, hbefore, List.append_nil]
    · refine ⟨before,sep :: [sep].intercalate q,?_,hlast,by simp⟩
      rw [← hl, hsplit, intercalate_append p hq, hbefore]
  · rintro ⟨hw,before,after,rfl,hlast,hhead⟩
    have hrest : w ∈ (w++after).splitOn sep := by
      cases after with
      | nil => simp [hword w hw]
      | cons c t =>
        obtain rfl : c = sep := hhead c rfl
        rw [List.splitOn_append_cons_self, hword w hw]
        exact List.mem_append_left _ List.mem_cons_self
    rcases List.eq_nil_or_concat before with rfl | ⟨b,c,rfl⟩
    · exact hrest
    · obtain rfl : c = sep := hlast c (by simp)
      rw [List.concat_eq_append, List.append_assoc, List.append_assoc, List.singleton_append,
        List.splitOn_append_cons_self]
      exact List.mem_append_right _ hrest

/-- The text `a` is `b` or lies under it. -/
theorem splitOn_prefix_iff (a b : List α) :
    b.splitOn sep <+: a.splitOn sep ↔ a = b ∨ b++[sep] <+: a := by
  constructor
  · rintro ⟨r,hr⟩
    have ha : [sep].intercalate (a.splitOn sep) = a := List.intercalate_splitOn sep
    have hb : [sep].intercalate (b.splitOn sep) = b := List.intercalate_splitOn sep
    rw [← hr] at ha
    by_cases hn : r = []
    · subst hn
      rw [List.append_nil, hb] at ha
      exact Or.inl ha.symm
    · obtain ⟨p,w,hp⟩ : ∃ p w, b.splitOn sep = p++[w] := by
        rcases List.eq_nil_or_concat (b.splitOn sep) with h | ⟨p,w,h⟩
        · exact absurd h (List.splitOn_ne_nil _ _)
        · exact ⟨p,w,by simpa using h⟩
      rw [hp, List.append_assoc, List.singleton_append, intercalate_append p hn, ← hp, hb] at ha
      refine Or.inr ⟨[sep].intercalate r,?_⟩
      rw [← ha]
      simp
  · rintro (rfl | ⟨t,rfl⟩)
    · exact List.prefix_refl _
    · rw [List.append_assoc, List.singleton_append, List.splitOn_append_cons_self]
      exact List.prefix_append _ _

theorem nested_splitOn_iff (a b : List α) : Nested (a.splitOn sep) (b.splitOn sep) ↔
    a = b ∨ b++[sep] <+: a ∨ a++[sep] <+: b := by
  rw [Nested, splitOn_prefix_iff, splitOn_prefix_iff]
  constructor
  · rintro ((h | h) | h | h)
    · exact Or.inl h.symm
    · exact Or.inr (Or.inr h)
    · exact Or.inl h
    · exact Or.inr (Or.inl h)
  · rintro (h | h | h)
    · exact Or.inr (Or.inl h)
    · exact Or.inr (Or.inr h)
    · exact Or.inl (Or.inr h)

end PathTree
