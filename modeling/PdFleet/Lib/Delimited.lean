import Mathlib

/-!
# Words that end by themselves

A word of a set is delimited if no other word of the set can be read in its place, as long
as a text that may follow a word comes after it. Lists of delimited words with separators,
pairs of them and quoted texts are delimited again.
-/

set_option autoImplicit false

variable {α : Type} {stop : List α → Prop} {W K : Set (List α)} {a b r r' : List α} {s e : α}

/-- Before a text that may follow, `a` is the only word of `W` that can be read. -/
def Delimited (stop : List α → Prop) (W : Set (List α)) (a : List α) : Prop :=
  ∀ b ∈ W, ∀ r r', stop r → stop r' → a++r = b++r' → a = b

namespace Delimited

theorem rest (h : Delimited stop W a) (hb : b ∈ W) (hr : stop r) (hr' : stop r')
    (he : a++r = b++r') : a = b ∧ r = r' := by
  have hab := h b hb r r' hr hr' he
  subst hab
  exact ⟨rfl,List.append_cancel_left he⟩

/-- A word of characters of one class ends where the class does. -/
theorem span {p : α → Bool} (ha : a.all p = true) (hr : ∀ r, stop r → ∀ c ∈ r.head?, p c = false)
    (hW : ∀ b ∈ W, b.all p = true) : Delimited stop W a := by
  have htake : ∀ (x y : List α), x.all p = true → stop y → (x++y).takeWhile p = x := by
    intro x y hx hy
    rw [List.takeWhile_append_of_pos (by simpa using hx)]
    cases y with
    | nil => simp
    | cons c y => simp [hr _ hy c rfl]
  intro b hb r r' hr hr' he
  have := congrArg (List.takeWhile p) he
  rwa [htake a r ha hr, htake b r' (hW b hb) hr'] at this

/-- Words that begin with different characters cannot stand for each other. -/
theorem union {V : Set (List α)} (h : Delimited stop W a) (hne : a ≠ [])
    (hV : ∀ b ∈ V, b ≠ [] ∧ b.head? ≠ a.head?) : Delimited stop (W ∪ V) a := by
  rintro b (hb | hb) r r' hr hr' he
  · exact h b hb r r' hr hr' he
  · obtain ⟨hb,hhead⟩ := hV b hb
    have := congrArg List.head? he
    rw [List.head?_append_of_ne_nil a hne, List.head?_append_of_ne_nil b hb] at this
    exact absurd this.symm hhead

/-- A key that ends by itself, a mark and a word. -/
theorem pair {k v k' v' : List α} (hk : Delimited (fun _ => True) K k) (hv : Delimited stop W v)
    (hk' : k' ∈ K) (hv' : v' ∈ W) (hr : stop r) (hr' : stop r')
    (he : (k++s :: v)++r = (k'++s :: v')++r') : k = k' ∧ v = v' ∧ r = r' := by
  rw [List.append_assoc, List.append_assoc] at he
  obtain ⟨rfl,hrest⟩ := hk.rest hk' trivial trivial he
  rw [List.cons_append, List.cons_append, List.cons.injEq] at hrest
  obtain ⟨rfl,rfl⟩ := hv.rest hv' hr hr' hrest.2
  exact ⟨rfl,rfl,rfl⟩

end Delimited

/-! ## Lists with separators -/

/-- Words with a separator between them and an end mark after them. -/
def separated (s e : α) : List (List α) → List α
  | [] => [e]
  | [a] => a++[e]
  | a :: as => a++s :: separated s e as

theorem separated_inj {as bs : List (List α)} (hse : s ≠ e) (hs : ∀ r, stop (s :: r))
    (he : ∀ r, stop (e :: r)) (hW : ∀ b ∈ W, b.head? ≠ some e ∧ b ≠ [])
    (has : ∀ a ∈ as, a ∈ W ∧ Delimited stop W a) (hbs : ∀ b ∈ bs, b ∈ W)
    (h : separated s e as++r = separated s e bs++r') : as = bs ∧ r = r' := by
  have hempty : ∀ {cs : List (List α)} {x y : List α}, (∀ c ∈ cs, c ∈ W) →
      separated s e []++x = separated s e cs++y → cs = [] := by
    intro cs x y hcs hx
    cases cs with
    | nil => rfl
    | cons c cs =>
      obtain ⟨hhead,hne⟩ := hW c (hcs c List.mem_cons_self)
      cases c with
      | nil => exact absurd rfl hne
      | cons d c =>
        have hd : e = d := by
          cases cs <;> exact (List.cons.inj hx).1
        rw [hd] at hhead
        exact absurd rfl hhead
  induction as generalizing bs with
  | nil =>
    have hnil := hempty hbs h
    subst hnil
    exact ⟨rfl,List.append_cancel_left h⟩
  | cons a as ih =>
    obtain ⟨ha,hda⟩ := has a List.mem_cons_self
    cases bs with
    | nil =>
      have hnil := hempty (fun c hc => (has c hc).1) h.symm
      cases hnil
    | cons b bs =>
      have hb := hbs b List.mem_cons_self
      cases as with
      | nil =>
        cases bs with
        | nil =>
          simp only [separated, List.append_assoc] at h
          obtain ⟨hab,hr⟩ := hda.rest hb (he r) (he r') h
          exact ⟨by rw [hab],(List.cons.inj hr).2⟩
        | cons b' bs =>
          simp only [separated, List.append_assoc] at h
          obtain ⟨-,hr⟩ := hda.rest hb (he r) (hs _) h
          exact absurd (List.cons.inj hr).1.symm hse
      | cons a' as =>
        cases bs with
        | nil =>
          simp only [separated, List.append_assoc] at h
          obtain ⟨-,hr⟩ := hda.rest hb (hs _) (he r') h
          exact absurd (List.cons.inj hr).1 hse
        | cons b' bs =>
          simp only [separated, List.append_assoc] at h
          obtain ⟨hab,hr⟩ := hda.rest hb (hs _) (hs _) h
          have htail := (List.cons.inj hr).2
          obtain ⟨hl,hrr⟩ := ih (fun c hc => has c (List.mem_cons_of_mem a hc))
            (fun c hc => hbs c (List.mem_cons_of_mem b hc)) htail
          exact ⟨by rw [hab, hl],hrr⟩

/-! ## Quoted texts -/

/-- A text of escaped characters ends at the first quote, if each escaped character can be
read back and none begins with the quote. -/
theorem escaped_inj {β : Type} {esc : β → List α} {read : List α → Option (β × List α)} {q : α}
    (hread : ∀ c t, read (esc c++t) = some (c,t)) (hq : ∀ c, (esc c).head? ≠ some q)
    (hne : ∀ c, esc c ≠ []) {cs ds : List β}
    (h : cs.flatMap esc++q :: r = ds.flatMap esc++q :: r') : cs = ds ∧ r = r' := by
  have hend : ∀ {c : β} {t x y : List α}, q :: x ≠ (esc c++t)++y := by
    intro c t x y hx
    have hhead := congrArg List.head? hx
    rw [List.append_assoc, List.head?_append_of_ne_nil _ (hne c)] at hhead
    exact hq c hhead.symm
  induction cs generalizing ds with
  | nil =>
    cases ds with
    | nil => exact ⟨rfl,(List.cons.inj h).2⟩
    | cons d ds => exact absurd h hend
  | cons c cs ih =>
    cases ds with
    | nil => exact absurd h.symm hend
    | cons d ds =>
      rw [List.flatMap_cons, List.flatMap_cons, List.append_assoc, List.append_assoc] at h
      have hcd := congrArg read h
      rw [hread, hread, Option.some.injEq, Prod.mk.injEq] at hcd
      obtain ⟨rfl,hrest⟩ := hcd
      obtain ⟨rfl,hr⟩ := ih hrest
      exact ⟨rfl,hr⟩
