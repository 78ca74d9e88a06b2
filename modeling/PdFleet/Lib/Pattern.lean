import Mathlib

/-!
# Backtracking patterns

Regular patterns whose repetitions are over single characters, with the
results of a match in the order in which a backtracking matcher tries them.
A result is the text that is left. A rule replaces its first match at each
place by a text, keeping what its first part matched.
-/

set_option autoImplicit false

inductive Pattern where
  | empty
  | char (p : Char → Bool)
  | seq (a b : Pattern)
  | alt (a b : Pattern)
  | opt (a : Pattern)
  | many (p : Char → Bool)

namespace Pattern

/-- What a repetition can leave, the longest match first. -/
def manyRests (p : Char → Bool) : List Char → List (List Char)
  | [] => [[]]
  | c :: t => if p c then manyRests p t ++ [c :: t] else [c :: t]

def rests : Pattern → List Char → List (List Char)
  | empty, t => [t]
  | char _, [] => []
  | char p, c :: t => if p c then [t] else []
  | seq a b, t => (rests a t).flatMap (rests b)
  | alt a b, t => rests a t ++ rests b t
  | opt a, t => rests a t ++ [t]
  | many p, t => manyRests p t

/-- `n` characters or more. -/
def atLeast (n : ℕ) (p : Char → Bool) : Pattern := (List.replicate n (char p)).foldr seq (many p)

def many1 (p : Char → Bool) : Pattern := seq (char p) (many p)

/-- The characters of a word, compared after `fold`. -/
def word (fold : Char → Char) (w : String) : Pattern :=
  w.toList.foldr (fun c r => seq (char (fun d => fold d = c)) r) empty

def oneOf (l : List Pattern) : Pattern := l.foldr alt (char (fun _ => false))

/-- A match at some place of the text. -/
def search (a : Pattern) : List Char → Bool
  | [] => !(rests a []).isEmpty
  | c :: t => !(rests a (c :: t)).isEmpty || search a t

structure Rule where
  behind : Option Char → Bool
  kept : Pattern
  dropped : Pattern
  text : String

/-- The first match of a rule: what its kept part leaves, and what the whole leaves. -/
def Rule.first (r : Rule) (t : List Char) : Option (List Char × List Char) :=
  ((rests r.kept t).flatMap (fun u => (rests r.dropped u).map (fun v => (u,v)))).head?

/-- Replacement from left to right. `skip` characters belong to the last match;
`last` is the character before the text. -/
def Rule.subFrom (r : Rule) : Option Char → ℕ → List Char → List Char
  | _, _, [] => []
  | _, skip+1, c :: t => r.subFrom (some c) skip t
  | last, 0, c :: t =>
    match if r.behind last then r.first (c :: t) else none with
    | some (u,v) => (c :: t).take (t.length+1-u.length) ++ r.text.toList ++
        r.subFrom (some c) (t.length-v.length) t
    | none => c :: r.subFrom (some c) 0 t

/-- Replacement from left to right where what a match becomes is computed. `f` gives the
replacement at a place, and the text that the match leaves. -/
def subWith (f : Option Char → List Char → Option (List Char × List Char)) :
    Option Char → ℕ → List Char → List Char
  | _, _, [] => []
  | _, skip+1, c :: t => subWith f (some c) skip t
  | last, 0, c :: t =>
    match f last (c :: t) with
    | some (out,rest) => out ++ subWith f (some c) (t.length-rest.length) t
    | none => c :: subWith f (some c) 0 t

def Rule.sub (r : Rule) (text : String) : String := String.ofList (r.subFrom none 0 text.toList)

section

variable {r : Rule} {p : Char → Prop}

/-- A kind of character of which the replacement has one does not vanish from a text. -/
theorem subFrom_keeps (hr : ∃ c ∈ r.text.toList, p c) (last : Option Char) {skip : ℕ}
    {t : List Char} (h : ∃ c ∈ t.drop skip, p c) : ∃ c ∈ r.subFrom last skip t, p c := by
  induction t generalizing last skip with
  | nil => simp at h
  | cons c t ih =>
    cases skip with
    | succ skip => exact ih (some c) h
    | zero =>
      rw [Rule.subFrom]
      split
      · obtain ⟨d,hd,hp⟩ := hr
        exact ⟨d,by simp [hd],hp⟩
      · obtain ⟨d,hd,hp⟩ := h
        rw [List.drop_zero] at hd
        rcases List.mem_cons.mp hd with rfl | hd
        · exact ⟨d,List.mem_cons_self,hp⟩
        · have hd0 : d ∈ t.drop 0 := hd
          obtain ⟨e,he,hpe⟩ := ih (some c) ⟨d,hd0,hp⟩
          exact ⟨e,List.mem_cons_of_mem _ he,hpe⟩

/-- A text that a rule changes holds the replacement afterwards. -/
theorem subFrom_eq_or (r : Rule) (last : Option Char) (t : List Char) :
    r.subFrom last 0 t = t ∨ ∀ c ∈ r.text.toList, c ∈ r.subFrom last 0 t := by
  induction t generalizing last with
  | nil => exact Or.inl rfl
  | cons c t ih =>
    rw [Rule.subFrom]
    split
    · right
      intro d hd
      simp [hd]
    · rcases ih (some c) with h | h
      · exact Or.inl (by rw [h])
      · exact Or.inr (fun d hd => List.mem_cons_of_mem _ (h d hd))

theorem sub_keeps {s : String} (hr : ∃ c ∈ r.text.toList, p c) (h : ∃ c ∈ s.toList, p c) :
    ∃ c ∈ (r.sub s).toList, p c := by
  rw [Rule.sub, String.toList_ofList]
  exact subFrom_keeps hr none (by rwa [List.drop_zero])

theorem sub_eq_or (r : Rule) (s : String) : r.sub s = s ∨ ∀ c ∈ r.text.toList, c ∈ (r.sub s).toList := by
  rw [Rule.sub, String.toList_ofList]
  rcases subFrom_eq_or r none s.toList with h | h
  · exact Or.inl (by rw [h, String.ofList_toList])
  · exact Or.inr h

end

/-! ## What a match has read -/

theorem manyRests_suffix {p : Char → Bool} {t u : List Char} (h : u ∈ manyRests p t) : u <:+ t := by
  induction t with
  | nil => simp_all [manyRests]
  | cons c t ih =>
    rw [manyRests] at h
    split at h
    · rcases List.mem_append.mp h with h | h
      · exact (ih h).trans (List.suffix_cons c t)
      · exact (List.mem_singleton.mp h) ▸ List.suffix_refl _
    · exact (List.mem_singleton.mp h) ▸ List.suffix_refl _

/-- What a match leaves is an end of the text. -/
theorem rests_suffix {a : Pattern} {t u : List Char} (h : u ∈ rests a t) : u <:+ t := by
  induction a generalizing t u with
  | empty => exact (List.mem_singleton.mp h) ▸ List.suffix_refl _
  | char p =>
    cases t with
    | nil => cases h
    | cons c t =>
      rw [rests] at h
      split at h
      · exact (List.mem_singleton.mp h) ▸ List.suffix_cons c t
      · cases h
  | seq a b iha ihb =>
    obtain ⟨w,hw,hu⟩ := List.mem_flatMap.mp h
    exact (ihb hu).trans (iha hw)
  | alt a b iha ihb => exact (List.mem_append.mp h).elim iha ihb
  | opt a iha =>
    rcases List.mem_append.mp h with h | h
    · exact iha h
    · exact (List.mem_singleton.mp h) ▸ List.suffix_refl _
  | many p => exact manyRests_suffix h

/-- Every match of the pattern reads a character of the class. -/
def Reads (p : Char → Bool) (a : Pattern) : Prop :=
  ∀ t u, u ∈ rests a t → ∃ c ∈ t, p c = true

variable {p : Char → Bool} {a b : Pattern}

theorem reads_char {q : Char → Bool} (h : ∀ c, q c = true → p c = true) : Reads p (char q) := by
  intro t u hu
  cases t with
  | nil => cases hu
  | cons c t =>
    rw [rests] at hu
    split at hu
    · exact ⟨c,List.mem_cons_self,h c ‹_›⟩
    · cases hu

theorem Reads.seq_left (h : Reads p a) : Reads p (seq a b) := by
  intro t u hu
  obtain ⟨w,hw,-⟩ := List.mem_flatMap.mp hu
  exact h t w hw

theorem Reads.seq_right (h : Reads p b) : Reads p (seq a b) := by
  intro t u hu
  obtain ⟨w,hw,hu⟩ := List.mem_flatMap.mp hu
  obtain ⟨c,hc,hp⟩ := h w u hu
  exact ⟨c,(rests_suffix hw).subset hc,hp⟩

theorem reads_oneOf {l : List Pattern} (h : ∀ a ∈ l, Reads p a) : Reads p (oneOf l) := by
  induction l with
  | nil => exact reads_char (fun c hc => nomatch hc)
  | cons a l ih =>
    intro t u hu
    rcases List.mem_append.mp hu with hu | hu
    · exact h a List.mem_cons_self t u hu
    · exact ih (fun b hb => h b (List.mem_cons_of_mem a hb)) t u hu

/-- A match of a word reads each of its characters. -/
theorem reads_word {fold : Char → Char} {w : String} {d : Char} (hd : d ∈ w.toList)
    (h : ∀ c, fold c = d → p c = true) : Reads p (word fold w) := by
  rw [word]
  generalize w.toList = l at hd
  induction l with
  | nil => cases hd
  | cons c t ih =>
    rcases List.mem_cons.mp hd with rfl | hd
    · exact (reads_char (fun c hc => h c (of_decide_eq_true hc))).seq_left
    · exact (ih hd).seq_right

/-- A text without a character of the class has no match. -/
theorem Reads.search (h : Reads p a) {t : List Char} (ht : ∀ c ∈ t, p c = false) :
    search a t = false := by
  have hrests : ∀ t', t' <:+ t → rests a t' = [] := by
    intro t' hs
    refine List.eq_nil_iff_forall_not_mem.mpr fun u hu => ?_
    obtain ⟨c,hc,hp⟩ := h t' u hu
    rw [ht c (hs.subset hc)] at hp
    cases hp
  induction t with
  | nil => rw [Pattern.search, hrests [] (List.suffix_refl _)]; rfl
  | cons c t ih =>
    rw [Pattern.search, hrests (c :: t) (List.suffix_refl _),
      ih (fun d hd => ht d (List.mem_cons_of_mem c hd))
        (fun t' hs => hrests t' (hs.trans (List.suffix_cons c t)))]
    rfl

theorem Reads.alt (ha : Reads p a) (hb : Reads p b) : Reads p (alt a b) := by
  intro t u hu
  rcases List.mem_append.mp hu with hu | hu
  · exact ha t u hu
  · exact hb t u hu

/-- Nor does a rule change it. -/
theorem Reads.subFrom {r : Rule} (h : Reads p r.dropped) (last : Option Char) {t : List Char}
    (ht : ∀ c ∈ t, p c = false) : r.subFrom last 0 t = t := by
  induction t generalizing last with
  | nil => rfl
  | cons c t ih =>
    have hfirst : r.first (c :: t) = none := by
      rw [Rule.first, List.head?_eq_none_iff, List.flatMap_eq_nil_iff]
      intro u hu
      rw [List.map_eq_nil_iff]
      refine List.eq_nil_iff_forall_not_mem.mpr fun v hv => ?_
      obtain ⟨d,hd,hp⟩ := h u v hv
      rw [ht d ((rests_suffix hu).subset hd)] at hp
      cases hp
    have hnone : (if r.behind last then r.first (c :: t) else none) = none := by
      rw [hfirst, ite_self]
    rw [Rule.subFrom, hnone]
    dsimp only
    rw [ih (some c) (fun d hd => ht d (List.mem_cons_of_mem c hd))]

end Pattern
