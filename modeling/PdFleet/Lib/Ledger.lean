import Mathlib

/-!
# Numbered logs and their last items

A log gives a number to each entry, from one on; an entry holds an item, or nothing where the item
was lost. A page is what lies between two numbers. Of a log only the last items are kept: a reader
that finds its place among them gets a page of the whole log, and the pages of a reader that goes
on where it stopped are one page.
-/

set_option autoImplicit false

namespace Ledger

open List (reduceOption reduceOption_append reduceOption_mem_iff)

variable {α : Type} {num : α → ℕ} {log : List (Option α)}

/-- Each item carries the number of its entry. -/
def Numbered (num : α → ℕ) (log : List (Option α)) : Prop :=
  ∀ i x, log[i]? = some (some x) → num x = i+1

/-- The items with the numbers from `a+1` to `b`. -/
def page (log : List (Option α)) (a b : ℕ) : List α := ((log.take b).drop a).reduceOption

/-- The last `n` items of a log. -/
def kept (n : ℕ) (log : List (Option α)) : List α := log.reduceOption.rtake n

theorem reduceOption_none (log : List (Option α)) :
    (log++[none]).reduceOption = log.reduceOption := by
  rw [reduceOption_append, List.reduceOption_singleton, Option.toList_none, List.append_nil]

theorem reduceOption_some (log : List (Option α)) (x : α) :
    (log++[some x]).reduceOption = log.reduceOption++[x] := by
  rw [reduceOption_append, List.reduceOption_singleton, Option.toList_some]

theorem numbered_nil : Numbered num [] := by
  intro i x h
  simp at h

theorem Numbered.snoc (h : Numbered num log) {e : Option α}
    (he : ∀ x, e = some x → num x = log.length+1) : Numbered num (log++[e]) := by
  intro i x hx
  by_cases hi : i < log.length
  · rw [List.getElem?_append_left hi] at hx
    exact h i x hx
  · have hlt := (List.getElem?_eq_some_iff.mp hx).1
    rw [List.length_append, List.length_singleton] at hlt
    have hi : i = log.length := by omega
    subst hi
    rw [List.getElem?_concat_length, Option.some.injEq] at hx
    exact he x hx

theorem Numbered.of_grown {log' : List (Option α)} (h : Numbered num log') (hp : log <+: log') :
    Numbered num log := by
  intro i x hx
  have hi := (List.getElem?_eq_some_iff.mp hx).1
  apply h i x
  obtain ⟨more,rfl⟩ := hp
  rw [List.getElem?_append_left hi, hx]

/-! ## Numbers of items -/

theorem Numbered.le_of_mem_take (h : Numbered num log) {n : ℕ} {x : α}
    (hx : x ∈ (log.take n).reduceOption) : num x ≤ n := by
  obtain ⟨i,hi⟩ := List.mem_iff_getElem?.mp (reduceOption_mem_iff.mp hx)
  rw [List.getElem?_take] at hi
  split_ifs at hi with hlt
  rw [h i x hi]
  omega

theorem Numbered.lt_of_mem_drop (h : Numbered num log) {n : ℕ} {x : α}
    (hx : x ∈ (log.drop n).reduceOption) : n < num x := by
  obtain ⟨i,hi⟩ := List.mem_iff_getElem?.mp (reduceOption_mem_iff.mp hx)
  rw [List.getElem?_drop] at hi
  rw [h _ x hi]
  omega

theorem Numbered.le_length (h : Numbered num log) {x : α} (hx : x ∈ log.reduceOption) :
    num x ≤ log.length := by
  rw [← List.take_length (l := log)] at hx
  exact h.le_of_mem_take hx

theorem Numbered.pos (h : Numbered num log) {x : α} (hx : x ∈ log.reduceOption) : 0 < num x := by
  rw [← List.drop_zero (l := log)] at hx
  exact h.lt_of_mem_drop hx

theorem split (log : List (Option α)) (n : ℕ) :
    log.reduceOption = (log.take n).reduceOption++(log.drop n).reduceOption := by
  rw [← reduceOption_append, List.take_append_drop]

/-- Items come in the order of their numbers. -/
theorem Numbered.sorted (h : Numbered num log) :
    log.reduceOption.Pairwise (fun x y => num x < num y) := by
  induction log using List.reverseRecOn with
  | nil => exact List.Pairwise.nil
  | append_singleton log e ih =>
    have hp : Numbered num log := h.of_grown (List.prefix_append log [e])
    cases e with
    | none =>
      rw [reduceOption_none]
      exact ih hp
    | some x =>
      rw [reduceOption_some, List.pairwise_append]
      refine ⟨ih hp,List.pairwise_singleton _ x,?_⟩
      intro y hy z hz
      rw [List.mem_singleton.mp hz, h log.length x List.getElem?_concat_length]
      have := hp.le_length hy
      omega

theorem page_eq_filter (h : Numbered num log) (a b : ℕ) :
    page log a b = log.reduceOption.filter (fun x => decide (a < num x ∧ num x ≤ b)) := by
  have hu : (log.take b).reduceOption.filter (fun x => decide (a < num x ∧ num x ≤ b)) =
      page log a b := by
    have ht : Numbered num (log.take b) := h.of_grown (List.take_prefix b log)
    rw [split (log.take b) a, List.filter_append, List.filter_eq_nil_iff.mpr, List.nil_append,
      List.filter_eq_self.mpr, page]
    · intro x hx
      have hle : num x ≤ b := by
        apply h.le_of_mem_take
        rw [split (log.take b) a]
        exact List.mem_append_right _ hx
      simpa using ⟨ht.lt_of_mem_drop hx,hle⟩
    · intro x hx
      have := ht.le_of_mem_take hx
      simp only [decide_eq_true_eq]
      omega
  rw [split log b, List.filter_append, hu, List.filter_eq_nil_iff.mpr, List.append_nil]
  intro x hx
  have := h.lt_of_mem_drop hx
  simp only [decide_eq_true_eq]
  omega

/-- Consecutive items of a log are a page of it. -/
theorem Numbered.segment (h : Numbered num log) {u s v : List α}
    (hl : log.reduceOption = u++(s++v)) {a b : ℕ} (hu : ∀ x ∈ u, num x ≤ a)
    (hs : ∀ x ∈ s, a < num x ∧ num x ≤ b) (hv : ∀ x ∈ v, b < num x) : page log a b = s := by
  rw [page_eq_filter h, hl, List.filter_append, List.filter_append, List.filter_eq_nil_iff.mpr,
    List.filter_eq_self.mpr, List.filter_eq_nil_iff.mpr, List.nil_append, List.append_nil]
  · intro x hx
    have := hv x hx
    simp only [decide_eq_true_eq]
    omega
  · intro x hx
    simpa using hs x hx
  · intro x hx
    have := hu x hx
    simp only [decide_eq_true_eq]
    omega

/-! ## Pages -/

theorem page_self (log : List (Option α)) (a : ℕ) : page log a a = [] := by
  rw [page, List.drop_eq_nil_of_le (List.length_take_le a log)]
  rfl

/-- A page and the one after it are one page. -/
theorem page_append (log : List (Option α)) {a b c : ℕ} (hab : a ≤ b) (hbc : b ≤ c) :
    page log a b++page log b c = page log a c := by
  rw [page, page, ← reduceOption_append, page]
  congr 1
  have hb : log.take b = (log.take c).take b := by rw [List.take_take, Nat.min_eq_left hbc]
  have hd : (log.take c).drop b = ((log.take c).drop a).drop (b-a) := by
    rw [List.drop_drop, Nat.add_sub_cancel' hab]
  have ht : ((log.take c).take b).drop a = ((log.take c).drop a).take (b-a) := by
    rw [List.drop_take]
  rw [hb, ht, hd, List.take_append_drop]

/-- A log that grows keeps its pages. -/
theorem page_grown {log' : List (Option α)} (hp : log <+: log') (a : ℕ) {b : ℕ}
    (hb : b ≤ log.length) : page log' a b = page log a b := by
  obtain ⟨more,rfl⟩ := hp
  rw [page, page, List.take_append_of_le_length hb]

/-! ## What is kept -/

theorem kept_suffix (n : ℕ) (log : List (Option α)) : kept n log <:+ log.reduceOption :=
  List.drop_suffix _ _

theorem kept_length (n : ℕ) (log : List (Option α)) : (kept n log).length ≤ n := by
  rw [kept, List.rtake_eq_reverse_take_reverse, List.length_reverse]
  exact List.length_take_le _ _

theorem kept_none (n : ℕ) (log : List (Option α)) : kept n (log++[none]) = kept n log := by
  rw [kept, kept, reduceOption_none]

/-- An item that is appended to what is kept is kept. -/
theorem kept_some {n : ℕ} (hn : 0 < n) (log : List (Option α)) (x : α) :
    kept n (log++[some x]) = (kept n log++[x]).rtake n := by
  obtain ⟨m,rfl⟩ := Nat.exists_eq_add_of_lt hn
  rw [Nat.zero_add, kept, kept, reduceOption_some, List.rtake_concat_succ,
    List.rtake_concat_succ]
  simp only [List.rtake_eq_reverse_take_reverse, List.reverse_reverse, List.take_take]
  rw [Nat.min_eq_left (Nat.le_succ m)]

/-- What is kept is a page up to the end. -/
theorem Numbered.kept_eq (h : Numbered num log) {n a : ℕ}
    (ha : ∀ x, (kept n log).head? = some x → num x ≤ a+1) (hn : 0 < n) :
    (kept n log).filter (fun x => decide (a < num x)) = (log.drop a).reduceOption := by
  obtain ⟨u,hu⟩ := kept_suffix n log
  have hafter : log.reduceOption.filter (fun x => decide (a < num x)) =
      (log.drop a).reduceOption := by
    rw [split log a, List.filter_append, List.filter_eq_nil_iff.mpr, List.nil_append,
      List.filter_eq_self.mpr]
    · intro x hx
      simpa using h.lt_of_mem_drop hx
    · intro x hx
      have := h.le_of_mem_take hx
      simp only [decide_eq_true_eq]
      omega
  rw [← hafter, ← hu, List.filter_append]
  symm
  rw [List.append_left_eq_self, List.filter_eq_nil_iff]
  intro y hy
  simp only [decide_eq_true_eq]
  cases hk : kept n log with
  | nil =>
    -- nothing is kept of a log without items only
    rw [kept, List.rtake_eq_reverse_take_reverse, List.reverse_eq_nil_iff,
      List.take_eq_nil_iff] at hk
    rcases hk with hk | hk
    · omega
    · rw [List.reverse_eq_nil_iff] at hk
      rw [hk, List.append_eq_nil_iff] at hu
      rw [hu.1] at hy
      exact absurd hy List.not_mem_nil
  | cons x rest =>
    have hx := ha x (by rw [hk]; rfl)
    have hs := h.sorted
    rw [← hu, hk, List.pairwise_append] at hs
    have := hs.2.2 y hy x List.mem_cons_self
    omega

/-- The first items after a number are a page, which ends with the last of them. -/
theorem Numbered.take_after (h : Numbered num log) {a limit : ℕ} {x : α}
    (hx : ((log.drop a).reduceOption.take limit).getLast? = some x) :
    page log a (num x) = (log.drop a).reduceOption.take limit := by
  have hsort := h.sorted
  rw [split log a, ← List.take_append_drop limit (log.drop a).reduceOption,
    List.pairwise_append, List.pairwise_append] at hsort
  obtain ⟨s,hs⟩ := List.getLast?_eq_some_iff.mp hx
  apply h.segment (u := (log.take a).reduceOption) (v := (log.drop a).reduceOption.drop limit)
  · rw [List.take_append_drop, ← split log a]
  · intro y hy
    exact h.le_of_mem_take hy
  · intro y hy
    refine ⟨h.lt_of_mem_drop (List.mem_of_mem_take hy),?_⟩
    have hord := hsort.2.1.1
    rw [hs, List.pairwise_append] at hord
    rw [hs] at hy
    rcases List.mem_append.mp hy with hy | hy
    · exact (hord.2.2 y hy x (List.mem_singleton_self x)).le
    · rw [List.mem_singleton.mp hy]
  · intro y hy
    exact hsort.2.1.2.2 x (List.mem_of_getLast? hx) y hy

/-- The first of the kept items are a page too. -/
theorem Numbered.take_kept (h : Numbered num log) {n limit : ℕ} {x y : α}
    (hx : (kept n log).head? = some x) (hy : ((kept n log).take limit).getLast? = some y) :
    page log (num x-1) (num y) = (kept n log).take limit := by
  obtain ⟨u,hu⟩ := kept_suffix n log
  have hsort := h.sorted
  rw [← hu] at hsort
  have hxm : x ∈ kept n log := List.mem_of_head? hx
  have hpos : 0 < num x := h.pos (by rw [← hu]; exact List.mem_append_right u hxm)
  have hbefore := (List.pairwise_append.mp hsort).2.2
  have hkept := (List.pairwise_append.mp hsort).2.1
  obtain ⟨rest,hrest⟩ := List.head?_eq_some_iff.mp hx
  apply h.segment (u := u) (v := (kept n log).drop limit)
  · rw [List.take_append_drop, hu]
  · intro z hz
    have := hbefore z hz x hxm
    omega
  · intro z hz
    have hz' := List.mem_of_mem_take hz
    constructor
    · rw [hrest] at hz' hkept
      rcases List.mem_cons.mp hz' with hz' | hz'
      · rw [hz']
        omega
      · have := (List.pairwise_cons.mp hkept).1 z hz'
        omega
    · obtain ⟨s,hs⟩ := List.getLast?_eq_some_iff.mp hy
      have hord := hkept.sublist (List.take_sublist limit _)
      rw [hs, List.pairwise_append] at hord
      rw [hs] at hz
      rcases List.mem_append.mp hz with hz | hz
      · exact (hord.2.2 z hz y (List.mem_singleton_self y)).le
      · rw [List.mem_singleton.mp hz]
  · intro z hz
    rw [← List.take_append_drop limit (kept n log), List.pairwise_append] at hkept
    exact hkept.2.2 y (List.mem_of_getLast? hy) z hz

/-! ## Pages without a loss -/

/-- No entry between two numbers lost its item. -/
def Whole (log : List (Option α)) (a b : ℕ) : Prop := ∀ e ∈ (log.take b).drop a, e.isSome

theorem page_length_of_whole {a b : ℕ} (h : Whole log a b) (hb : b ≤ log.length) :
    (page log a b).length = b-a := by
  rw [page, List.reduceOption_length_eq_iff.mpr h, List.length_drop, List.length_take,
    Nat.min_eq_left hb]

theorem map_some_of_isSome {l : List (Option α)} (h : ∀ e ∈ l, e.isSome) :
    l.reduceOption.map some = l := by
  induction l with
  | nil => rfl
  | cons e l ih =>
    obtain ⟨x,rfl⟩ := Option.isSome_iff_exists.mp (h e List.mem_cons_self)
    rw [List.reduceOption_cons_of_some, List.map_cons,
      ih (fun e he => h e (List.mem_cons_of_mem _ he))]

/-- The items of a page are numbered without a gap exactly if none of them was lost. -/
theorem Numbered.gapless_iff (h : Numbered num log) {a b : ℕ} (hb : b ≤ log.length) (hab : a ≤ b) :
    (page log a b).map num = List.range' (a+1) (b-a) ↔ Whole log a b := by
  constructor
  · intro hm e he
    have hlen : (page log a b).length = ((log.take b).drop a).length := by
      have := congrArg List.length hm
      rw [List.length_map, List.length_range'] at this
      rw [this, List.length_drop, List.length_take, Nat.min_eq_left hb]
    exact List.reduceOption_length_eq_iff.mp hlen e he
  · intro hw
    have hsome : (page log a b).map some = (log.take b).drop a := map_some_of_isSome hw
    apply List.ext_getElem?
    intro i
    by_cases hi : i < b-a
    · have hlen := page_length_of_whole hw hb
      have hp : i < (page log a b).length := by omega
      have hat : log[a+i]? = some (some ((page log a b)[i])) := by
        have hc := congrArg (fun l => l[i]?) hsome
        simp only [List.getElem?_drop, List.getElem?_map] at hc
        rw [List.getElem?_take_of_lt (by omega), List.getElem?_eq_getElem hp] at hc
        exact hc.symm
      rw [List.getElem?_map, List.getElem?_eq_getElem hp, List.getElem?_range' hi, Option.map_some,
        h _ _ hat]
      congr 1
      omega
    · rw [List.getElem?_eq_none, List.getElem?_eq_none]
      · rw [List.length_range']
        omega
      · rw [List.length_map, page_length_of_whole hw hb]
        omega

end Ledger
