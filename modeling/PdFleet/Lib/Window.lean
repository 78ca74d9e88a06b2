import Mathlib

/-!
# Windows of acknowledgement

A reader of numbered items holds a cursor, the highest number sent to it, and the
numbers it has not acknowledged. Acknowledgements come in any order. The cursor follows
them only over numbers that are not waiting, so that it takes absence from the waiting
list for an acknowledgement; this is sound while everything in the window was sent.
-/

set_option autoImplicit false

structure Window where
  cursor : ℤ
  upto : ℤ
  waiting : List ℤ
  deriving DecidableEq, Repr

namespace Window

/-- The cursor moves over what is in the window and does not wait. -/
def advance (upto : ℤ) (waiting : List ℤ) (cursor : ℤ) : ℤ :=
  if cursor < upto ∧ cursor+1 ∉ waiting then advance upto waiting (cursor+1) else cursor
termination_by (upto-cursor).toNat
decreasing_by omega

def enqueue (waiting : List ℤ) (n : ℤ) : List ℤ :=
  if n ∈ waiting then waiting else waiting++[n]

/-- The numbers `ns` are sent, `top` the last of them. -/
def send (ns : List ℤ) (top : ℤ) (w : Window) : Window :=
  { w with upto := max w.upto top, waiting := ns.foldl enqueue w.waiting }

def ack (n : ℤ) (w : Window) : Window :=
  { w with waiting := w.waiting.erase n, cursor := advance w.upto (w.waiting.erase n) w.cursor }

section

variable {upto c n m top start : ℤ} {waiting ns : List ℤ} {w : Window} {sent acked : ℤ → Prop}

theorem le_advance : c ≤ advance upto waiting c := by
  induction c using advance.induct upto waiting with
  | case1 c h ih =>
    rw [advance, if_pos h]
    omega
  | case2 c h => rw [advance, if_neg h]

/-- What the cursor passes was in the window and not waiting. -/
theorem advance_passed (hl : c < n) (hu : n ≤ advance upto waiting c) :
    n ≤ upto ∧ n ∉ waiting := by
  induction c using advance.induct upto waiting with
  | case1 c h ih =>
    rw [advance, if_pos h] at hu
    by_cases hn : n = c+1
    · subst hn
      exact ⟨by omega,h.2⟩
    · exact ih (by omega) hu
  | case2 c h =>
    rw [advance, if_neg h] at hu
    omega

theorem mem_enqueue : m ∈ enqueue waiting n ↔ m ∈ waiting ∨ m = n := by
  rw [enqueue]
  split
  · constructor
    · exact Or.inl
    · rintro (h | rfl)
      · exact h
      · assumption
  · simp

theorem enqueue_nodup (h : waiting.Nodup) : (enqueue waiting n).Nodup := by
  rw [enqueue]
  split
  · exact h
  · rw [List.nodup_append]
    refine ⟨h,List.nodup_singleton n,?_⟩
    intro a ha b hb he
    have hbn : b = n := by simpa using hb
    subst hbn
    subst he
    contradiction

theorem mem_foldl_enqueue : m ∈ ns.foldl enqueue waiting ↔ m ∈ waiting ∨ m ∈ ns := by
  induction ns generalizing waiting with
  | nil => simp
  | cons n ns ih => rw [List.foldl_cons, ih, mem_enqueue, List.mem_cons, or_assoc]

theorem foldl_enqueue_nodup (h : waiting.Nodup) : (ns.foldl enqueue waiting).Nodup := by
  induction ns generalizing waiting with
  | nil => exact h
  | cons n ns ih => exact ih (enqueue_nodup h)

/-- How a window that began at `start` stands to what was sent and acknowledged. A
window in which nothing waits may begin before anything was sent. -/
structure Accounted (start : ℤ) (sent acked : ℤ → Prop) (w : Window) : Prop where
  start_le : start ≤ w.cursor
  nodup : w.waiting.Nodup
  within : ∀ n ∈ w.waiting, w.cursor < n ∧ n ≤ w.upto ∧ sent n
  passed : ∀ n, start < n → n ≤ w.cursor → sent n ∧ acked n
  filled : w.waiting ≠ [] → ∀ n, w.cursor < n → n ≤ w.upto → sent n
  waits : ∀ n, sent n → ¬ acked n → n ∈ w.waiting

theorem Accounted.congr {sent' acked' : ℤ → Prop} (h : Accounted start sent acked w)
    (hs : ∀ n, sent' n ↔ sent n) (ha : ∀ n, acked' n ↔ acked n) :
    Accounted start sent' acked' w := by
  have h1 : sent' = sent := funext (fun n => propext (hs n))
  have h2 : acked' = acked := funext (fun n => propext (ha n))
  rwa [h1, h2]

theorem accounted_start (hs : ∀ n, ¬ sent n) : Accounted start sent acked ⟨start,upto,[]⟩ where
  start_le := le_refl start
  nodup := List.nodup_nil
  within := by simp
  passed := by
    intro n hlt hle
    exact absurd hle (not_le.mpr hlt)
  filled := by simp
  waits := by
    intro n hn
    exact absurd hn (hs n)

/-- Sending all that lies between the cursor and the last number known keeps the account. -/
theorem Accounted.send (h : Accounted start sent acked w) (hns : ∀ n, n ∈ ns ↔ w.cursor < n ∧ n ≤ top)
    (hu : w.upto ≤ top) :
    Accounted start (fun n => sent n ∨ n ∈ ns) acked (w.send ns top) := by
  have hmax : max w.upto top = top := max_eq_right hu
  constructor
  · exact h.start_le
  · exact foldl_enqueue_nodup h.nodup
  · intro n hn
    change w.cursor < n ∧ n ≤ max w.upto top ∧ (sent n ∨ n ∈ ns)
    rw [hmax]
    rcases mem_foldl_enqueue.mp hn with hw | hm
    · obtain ⟨h1,h2,h3⟩ := h.within n hw
      exact ⟨h1,by omega,Or.inl h3⟩
    · have hb := (hns n).mp hm
      exact ⟨hb.1,hb.2,Or.inr hm⟩
  · intro n hlt hle
    have hp := h.passed n hlt hle
    exact ⟨Or.inl hp.1,hp.2⟩
  · intro _ n hlt hle
    have hle' : n ≤ max w.upto top := hle
    rw [hmax] at hle'
    exact Or.inr ((hns n).mpr ⟨hlt,hle'⟩)
  · intro n hn ha
    apply mem_foldl_enqueue.mpr
    rcases hn with hs | hm
    · exact Or.inl (h.waits n hs ha)
    · exact Or.inr hm

/-- An acknowledgement of a waiting number keeps the account: the cursor passes only
numbers that were sent and no longer wait. -/
theorem Accounted.ack (h : Accounted start sent acked w) (hn : n ∈ w.waiting) :
    Accounted start sent (fun m => acked m ∨ m = n) (w.ack n) := by
  have hfill := h.filled (List.ne_nil_of_mem hn)
  have hle : w.cursor ≤ (w.ack n).cursor := le_advance
  have herase : ∀ m, m ∈ w.waiting.erase n ↔ m ≠ n ∧ m ∈ w.waiting :=
    fun m => h.nodup.mem_erase_iff
  have hwaits : ∀ m, sent m → ¬ (acked m ∨ m = n) → m ∈ w.waiting.erase n := by
    intro m hs ha
    rw [herase]
    exact ⟨fun he => ha (Or.inr he),h.waits m hs (fun hm => ha (Or.inl hm))⟩
  have hpass : ∀ m, w.cursor < m → m ≤ (w.ack n).cursor →
      m ≤ w.upto ∧ m ∉ w.waiting.erase n := by
    intro m hlt hm
    exact advance_passed hlt hm
  constructor
  · exact le_trans h.start_le hle
  · exact h.nodup.erase n
  · intro m hm
    obtain ⟨h1,h2,h3⟩ := h.within m ((herase m).mp hm).2
    refine ⟨?_,h2,h3⟩
    by_contra hge
    exact (hpass m h1 (not_lt.mp hge)).2 hm
  · intro m hlt hm
    by_cases hc : m ≤ w.cursor
    · have hp := h.passed m hlt hc
      exact ⟨hp.1,Or.inl hp.2⟩
    · have hp := hpass m (not_le.mp hc) hm
      have hs := hfill m (not_le.mp hc) hp.1
      refine ⟨hs,?_⟩
      by_contra ha
      exact hp.2 (hwaits m hs ha)
  · intro _ m hlt hm
    exact hfill m (lt_of_le_of_lt hle hlt) hm
  · exact hwaits

end

end Window
