import PdFleet.Lib.Pattern

/-!
# What replacements count and keep

The characters of a class that a replacement leaves are no more than those it
found, and fewer where it replaced a match that took one of them. A replacement
that always shows a character of a class shows one of every text that has one.
-/

set_option autoImplicit false

namespace Pattern

variable {p : Char → Bool} {a b : Pattern}

/-- Every match of the pattern takes a character of the class. -/
def Takes (p : Char → Bool) (a : Pattern) : Prop :=
  ∀ t u, u ∈ rests a t → ∃ w, t = w ++ u ∧ ∃ c ∈ w, p c = true

theorem takes_char {q : Char → Bool} (h : ∀ c, q c = true → p c = true) : Takes p (char q) := by
  intro t u hu
  cases t with
  | nil => cases hu
  | cons c t =>
    rw [rests] at hu
    split at hu
    · cases List.mem_singleton.mp hu
      exact ⟨[c],rfl,c,List.mem_singleton_self c,h c ‹_›⟩
    · cases hu

theorem Takes.seq_left (h : Takes p a) : Takes p (seq a b) := by
  intro t u hu
  obtain ⟨v,hv,hu⟩ := List.mem_flatMap.mp hu
  obtain ⟨w,hw,c,hc,hp⟩ := h t v hv
  obtain ⟨x,rfl⟩ := rests_suffix hu
  exact ⟨w++x,by rw [hw, List.append_assoc],c,List.mem_append_left x hc,hp⟩

theorem Takes.seq_right (h : Takes p b) : Takes p (seq a b) := by
  intro t u hu
  obtain ⟨v,hv,hu⟩ := List.mem_flatMap.mp hu
  obtain ⟨w,hw,c,hc,hp⟩ := h v u hu
  obtain ⟨x,rfl⟩ := rests_suffix hv
  exact ⟨x++w,by rw [hw, List.append_assoc],c,List.mem_append_right x hc,hp⟩

theorem Takes.alt (ha : Takes p a) (hb : Takes p b) : Takes p (alt a b) := by
  intro t u hu
  rcases List.mem_append.mp hu with hu | hu
  · exact ha t u hu
  · exact hb t u hu

theorem takes_oneOf {l : List Pattern} (h : ∀ a ∈ l, Takes p a) : Takes p (oneOf l) := by
  induction l with
  | nil => exact takes_char (fun c hc => nomatch hc)
  | cons a l ih =>
    exact (h a List.mem_cons_self).alt (ih (fun b hb => h b (List.mem_cons_of_mem a hb)))

theorem takes_many1 {q : Char → Bool} (h : ∀ c, q c = true → p c = true) : Takes p (many1 q) :=
  (takes_char h).seq_left

theorem Takes.reads {q : Char → Bool} (h : Takes p a) (hq : ∀ c, p c = true → q c = true) :
    Reads q a := by
  intro t u hu
  obtain ⟨w,rfl,c,hc,hp⟩ := h t u hu
  exact ⟨c,List.mem_append_left u hc,hq c hp⟩

theorem Reads.rests_eq_nil (h : Reads p a) {t : List Char} (ht : ∀ c ∈ t, p c = false) :
    rests a t = [] := by
  refine List.eq_nil_iff_forall_not_mem.mpr fun u hu => ?_
  obtain ⟨c,hc,hp⟩ := h t u hu
  rw [ht c hc] at hp
  cases hp

/-! ## Counting -/

theorem countP_suffix {t u : List Char} (h : u <:+ t) : u.countP p ≤ t.countP p :=
  h.sublist.countP_le

/-- What follows a place, of a match from that place that leaves `v`. -/
theorem drop_suffix {c : Char} {t v : List Char} (h : v <:+ c :: t) : t.drop (t.length-v.length) <:+ v := by
  rcases List.suffix_cons_iff.mp h with rfl | h
  · rw [List.length_cons, Nat.sub_eq_zero_of_le (Nat.le_succ _), List.drop_zero]
    exact List.suffix_cons c t
  · rw [← List.suffix_iff_eq_drop.mp h]

theorem first_suffix {r : Rule} {t u v : List Char} (h : r.first t = some (u,v)) : u <:+ t ∧ v <:+ u := by
  have hmem := List.mem_of_mem_head? h
  obtain ⟨w,hw,hv⟩ := List.mem_flatMap.mp hmem
  obtain ⟨x,hx,he⟩ := List.mem_map.mp hv
  cases he
  exact ⟨rests_suffix hw,rests_suffix hx⟩

theorem if_none_eq_some {α : Type*} {c : Bool} {o : Option α} {x : α}
    (h : (if c then o else none) = some x) : o = some x := by
  split_ifs at h
  exact h

/-- The text before an end of it. -/
theorem take_append_suffix {c : Char} {t u : List Char} (h : u <:+ c :: t) :
    (c :: t).take (t.length+1-u.length) ++ u = c :: t := by
  obtain ⟨w,hw⟩ := h
  have hl : t.length+1-u.length = w.length := by
    have := congrArg List.length hw
    simp only [List.length_append, List.length_cons] at this
    omega
  rw [hl, ← hw, List.take_left]

/-- A replacement without characters of the class leaves no more of them. -/
theorem Rule.countP_subFrom_le {r : Rule} (hr : ∀ c ∈ r.text.toList, p c = false)
    (last : Option Char) (skip : ℕ) (t : List Char) :
    (r.subFrom last skip t).countP p ≤ (t.drop skip).countP p := by
  induction t generalizing last skip with
  | nil => rw [Rule.subFrom, List.drop_nil]
  | cons c t ih =>
    cases skip with
    | succ skip => exact ih (some c) skip
    | zero =>
      rw [Rule.subFrom, List.drop_zero]
      split
      next u v h =>
        obtain ⟨hu,hv⟩ := first_suffix (if_none_eq_some h)
        have htext : r.text.toList.countP p = 0 :=
          List.countP_eq_zero.mpr (fun c hc => by simp [hr c hc])
        have hsub := (ih (some c) (t.length-v.length)).trans (countP_suffix (drop_suffix (hv.trans hu)))
        have hle := countP_suffix (p := p) hv
        have htake := congrArg (List.countP p) (take_append_suffix hu)
        rw [List.countP_append] at htake
        rw [List.countP_append, List.countP_append, htext]
        omega
      next =>
        have := ih (some c) 0
        rw [List.drop_zero] at this
        rw [List.countP_cons, List.countP_cons]
        omega

/-- A rule whose matches take a character of the class leaves fewer, or does nothing. -/
theorem Rule.subFrom_eq_of_countP {r : Rule} (hr : ∀ c ∈ r.text.toList, p c = false)
    (ht : Takes p r.dropped) (last : Option Char) {t : List Char}
    (h : t.countP p ≤ (r.subFrom last 0 t).countP p) : r.subFrom last 0 t = t := by
  induction t generalizing last with
  | nil => rfl
  | cons c t ih =>
    rw [Rule.subFrom] at h ⊢
    split at h
    next u v hf =>
      exfalso
      have hmem := List.mem_of_mem_head? (if_none_eq_some hf)
      obtain ⟨u',hu,hv⟩ := List.mem_flatMap.mp hmem
      obtain ⟨v',hv,he⟩ := List.mem_map.mp hv
      cases he
      obtain ⟨w,hw,d,hd,hp⟩ := ht u v hv
      have hsuffix := rests_suffix hu
      have htext : r.text.toList.countP p = 0 :=
        List.countP_eq_zero.mpr (fun c hc => by simp [hr c hc])
      have hsub := (r.countP_subFrom_le hr (some c) (t.length-v.length) t).trans
        (countP_suffix (drop_suffix ((rests_suffix hv).trans hsuffix)))
      have hpos : 0 < w.countP p := List.countP_pos_iff.mpr ⟨d,hd,hp⟩
      have htake := congrArg (List.countP p) (take_append_suffix hsuffix)
      have hcount := congrArg (List.countP p) hw
      rw [List.countP_append] at htake hcount
      rw [List.countP_append, List.countP_append, htext] at h
      omega
    next =>
      rw [List.countP_cons, List.countP_cons] at h
      rw [ih (some c) (by omega)]

section

variable {f : Option Char → List Char → Option (List Char × List Char)}

/-- The same, where what a match becomes is computed. -/
theorem countP_subWith_le
    (hf : ∀ last t out rest, f last t = some (out,rest) →
      rest <:+ t ∧ out.countP p + rest.countP p ≤ t.countP p)
    (last : Option Char) (skip : ℕ) (t : List Char) :
    (subWith f last skip t).countP p ≤ (t.drop skip).countP p := by
  induction t generalizing last skip with
  | nil => rw [subWith, List.drop_nil]
  | cons c t ih =>
    cases skip with
    | succ skip => exact ih (some c) skip
    | zero =>
      rw [subWith, List.drop_zero]
      split
      next out rest h =>
        obtain ⟨hs,hle⟩ := hf last (c :: t) out rest h
        have hsub := (ih (some c) (t.length-rest.length)).trans (countP_suffix (drop_suffix hs))
        rw [List.countP_append]
        omega
      next =>
        have := ih (some c) 0
        rw [List.drop_zero] at this
        rw [List.countP_cons, List.countP_cons]
        omega

theorem subWith_eq_self (last : Option Char) {t : List Char}
    (hf : ∀ last u, u <:+ t → f last u = none) : subWith f last 0 t = t := by
  induction t generalizing last with
  | nil => rfl
  | cons c t ih =>
    rw [subWith, hf last (c :: t) (List.suffix_refl _)]
    dsimp only
    rw [ih (some c) (fun last u hu => hf last u (hu.trans (List.suffix_cons c t)))]

/-- A replacement that always shows a character of the class keeps the class. -/
theorem subWith_keeps (hf : ∀ last t out rest, f last t = some (out,rest) → ∃ c ∈ out, p c = true)
    (last : Option Char) {t : List Char} (h : ∃ c ∈ t, p c = true) :
    ∃ c ∈ subWith f last 0 t, p c = true := by
  induction t generalizing last with
  | nil => exact h
  | cons c t ih =>
    rw [subWith]
    split
    next out rest ho =>
      obtain ⟨d,hd,hp⟩ := hf last (c :: t) out rest ho
      exact ⟨d,List.mem_append_left _ hd,hp⟩
    next =>
      obtain ⟨d,hd,hp⟩ := h
      rcases List.mem_cons.mp hd with rfl | hd
      · exact ⟨d,List.mem_cons_self,hp⟩
      · obtain ⟨e,he,hpe⟩ := ih (some c) ⟨d,hd,hp⟩
        exact ⟨e,List.mem_cons_of_mem c he,hpe⟩

end

end Pattern
