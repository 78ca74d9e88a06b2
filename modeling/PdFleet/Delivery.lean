import PdFleet.Subscription

/-!
# Delivery loses nothing silently

Of a live subscription only its start, its cursor, the highest delivered number and its
outbox matter. Each call moves these as a window of acknowledgement moves, which is
shown first; the history is a gapless range above the floor; and from both follows what
a subscriber can have missed, over all sequences of calls.
-/

set_option autoImplicit false

namespace PdFleet.Gateway

variable {τ : Type} {since : τ → τ → ℚ} {s : SubscriptionStore τ} {log : Log τ} {ref : String}
  {n start : ℤ} {w : Window} {now : τ}

namespace Subscription

variable (sub : Subscription τ)

@[simp] theorem deriveState_snapshotSequence :
    (sub.deriveState since now).snapshotSequence = sub.snapshotSequence := by
  simp only [deriveState]
  split_ifs <;> rfl

@[simp] theorem deriveState_cursorSeq :
    (sub.deriveState since now).cursorSeq = sub.cursorSeq := by
  simp only [deriveState]
  split_ifs <;> rfl

@[simp] theorem deriveState_deliveredUpto :
    (sub.deriveState since now).deliveredUpto = sub.deliveredUpto := by
  simp only [deriveState]
  split_ifs <;> rfl

@[simp] theorem deriveState_cursorIssuedAt :
    (sub.deriveState since now).cursorIssuedAt = sub.cursorIssuedAt := by
  simp only [deriveState]
  split_ifs <;> rfl

def window (outbox : List ℤ) : ℤ × Window :=
  (sub.snapshotSequence,⟨sub.cursorSeq,sub.deliveredUpto,outbox⟩)

@[simp] theorem window_deriveState (since : τ → τ → ℚ) (now : τ) (outbox : List ℤ) :
    (sub.deriveState since now).window outbox = sub.window outbox := by
  simp [window]

end Subscription

/-! ## The window of a subscriber -/

/-- Where a live subscription began, and its window. -/
def account (s : SubscriptionStore τ) (ref : String) : Option (ℤ × Window) :=
  if ref ∈ s.tombstones then none
  else (s.subscriptions.lookup ref).map (·.window (s.pending ref))

/-- What a call and its answer do to the window of a subscriber. -/
def follow (ref : String) : Call τ × Answer τ → Option (ℤ × Window) → Option (ℤ × Window)
  | (.subscribe r _ _ _ snapshot _,.subscription (some _)), a =>
    if r = ref then some (snapshot,⟨snapshot,0,[]⟩) else a
  | (.read r _ _,.result answer), a =>
    match answer.events.getLast? with
    | none => a
    | some last =>
      if r = ref then
        a.map (Prod.map id (Window.send (answer.events.map (·.sequence)) last.sequence))
      else a
  | (.ack r n,.flag true), a => if r = ref then a.map (Prod.map id (Window.ack n)) else a
  | (.detach r,.flag true), a => if r = ref then none else a
  | _, a => a

theorem account_live {sub : Subscription τ} (hs : s.subscriptions.lookup ref = some sub)
    (hl : ref ∉ s.tombstones) : account s ref = some (sub.window (s.pending ref)) := by
  rw [account, if_neg hl, hs, Option.map_some]

theorem account_congr {t : SubscriptionStore τ} (h1 : t.tombstones = s.tombstones)
    (h2 : t.subscriptions.lookup ref = s.subscriptions.lookup ref)
    (h3 : t.outbox.lookup ref = s.outbox.lookup ref) : account t ref = account s ref := by
  rw [account, account, h1, h2, SubscriptionStore.pending, h3, SubscriptionStore.pending]

@[simp] theorem account_note (who : String) (code : Code) :
    account (s.note who code) ref = account s ref :=
  account_congr rfl rfl rfl

/-- A new value of a subscription with the same window is not seen. -/
theorem account_update {r : String} {sub sub' : Subscription τ}
    (hs : s.subscriptions.lookup r = some sub) (hw : ∀ o, sub'.window o = sub.window o) :
    account (s.update r sub') ref = account s ref := by
  by_cases hr : ref = r
  · subst hr
    simp [account, SubscriptionStore.update, SubscriptionStore.pending, hs, hw]
  · apply account_congr
    · rfl
    · rw [SubscriptionStore.update, AList.lookup_insert_ne hr]
    · rfl

theorem account_subscribe {r association epoch boundary : String} {snapshot : ℤ} :
    account (s.subscribe r association epoch boundary snapshot now).2 ref =
      follow ref (.subscribe r association epoch boundary snapshot now,
        .subscription (s.subscribe r association epoch boundary snapshot now).1) (account s ref) := by
  simp only [SubscriptionStore.subscribe]
  split_ifs with h1 h2
  · rfl
  · rfl
  · by_cases hr : r = ref
    · subst hr
      simp [account, follow, h2, SubscriptionStore.pending, Subscription.window]
    · simp only [follow, if_neg hr]
      apply account_congr
      · rfl
      · exact AList.lookup_insert_ne (Ne.symm hr)
      · exact AList.lookup_insert_ne (Ne.symm hr)

theorem account_append {eventId : String} :
    account (s.append n eventId).2 ref = account s ref := by
  rw [SubscriptionStore.append]
  split_ifs
  · rfl
  · rfl
  · exact account_note _ _
  · exact account_congr rfl rfl rfl

theorem account_heartbeat {r : String} :
    account (s.heartbeat since r n now).2 ref = account s ref := by
  rw [SubscriptionStore.heartbeat]
  split
  · exact account_note _ _
  rename_i sub hs
  have hw := Subscription.window_deriveState sub since now
  dsimp only
  split_ifs
  · exact account_note _ _
  · rw [account_note]
    exact account_update hs hw
  · rw [account_note]
    exact account_update hs hw
  · exact account_update hs hw
  · exact account_update hs hw

theorem account_evaluate {r : String} :
    account (s.evaluate since r now).2 ref = account s ref := by
  rw [SubscriptionStore.evaluate]
  split
  · rfl
  · rename_i sub hs
    exact account_update hs (Subscription.window_deriveState sub since now)

theorem account_deny {t : SubscriptionStore τ} {r : String} {code : Code} {resync : Bool} :
    account (t.deny r code resync).2 ref = account t ref :=
  account_note _ _

/-- What a read hands out and queues. -/
structure Read (s : SubscriptionStore τ) (ref : String) (sub : Subscription τ) (r : ReadResult)
    (last : EventRecord) : Prop where
  found : s.subscriptions.lookup ref = some sub
  live : ref ∉ s.tombstones
  floor_le : s.retentionFloor ≤ sub.cursorSeq
  events : r.events = s.history.filter (fun e => sub.cursorSeq < e.sequence)
  last : r.events.getLast? = some last

/-- A read hands out events of the history, or none and only derives a state and notes
its code. -/
theorem read_cases (since : τ → τ → ℚ) (s : SubscriptionStore τ) (now : τ) (r epoch : String) :
    ((s.read since r epoch now).1.events = [] ∧
      ∀ ref, account (s.read since r epoch now).2 ref = account s ref) ∨
    ∃ sub last, Read s r sub (s.read since r epoch now).1 last ∧
      ∀ ref, account (s.read since r epoch now).2 ref =
        if r = ref then (account s ref).map (Prod.map id
          (Window.send ((s.read since r epoch now).1.events.map (·.sequence)) last.sequence))
        else account s ref := by
  rw [SubscriptionStore.read]
  split
  · exact Or.inl ⟨rfl,fun _ => account_deny⟩
  rename_i sub hs
  have hw := Subscription.window_deriveState sub since now
  have hu : ∀ ref, account (s.update r (sub.deriveState since now)) ref = account s ref :=
    fun ref => account_update hs hw
  dsimp only
  split
  · exact Or.inl ⟨rfl,fun _ => account_deny⟩
  rename_i hlive
  split
  · exact Or.inl ⟨rfl,fun _ => account_deny⟩
  split
  · exact Or.inl ⟨rfl,fun ref => by rw [account_deny, hu]⟩
  split
  · exact Or.inl ⟨rfl,fun ref => by rw [account_deny, hu]⟩
  split
  · exact Or.inl ⟨rfl,fun ref => by rw [account_deny, hu]⟩
  rename_i hfloor
  split
  · exact Or.inl ⟨rfl,hu⟩
  rename_i last hlast
  right
  simp only [Subscription.deriveState_cursorSeq, SubscriptionStore.update, not_lt] at hfloor hlast
  refine ⟨sub,last,⟨hs,hlive,hfloor,by simp [SubscriptionStore.update],by
    simpa [SubscriptionStore.update] using hlast⟩,fun ref => ?_⟩
  split
  · rename_i hr
    subst hr
    simp [account, hlive, hs, SubscriptionStore.update, SubscriptionStore.pending,
      Subscription.window, Window.send]
  · rename_i hr
    apply account_congr
    · rfl
    · simp [SubscriptionStore.update, AList.lookup_insert_ne (Ne.symm hr)]
    · simp [SubscriptionStore.update, AList.lookup_insert_ne (Ne.symm hr)]

theorem account_read {r epoch : String} :
    account (s.read since r epoch now).2 ref =
      follow ref (.read r epoch now,.result (s.read since r epoch now).1) (account s ref) := by
  rcases read_cases since s now r epoch with
    ⟨he,ha⟩ | ⟨sub,last,hread,ha⟩
  · simp only [follow, he, List.getLast?_nil]
    exact ha ref
  · simp only [follow, hread.last]
    exact ha ref

/-- An acknowledgement is accepted of a live subscription, for a number in its outbox. -/
theorem of_ack {r : String} (h : (s.ack r n).1 = true) :
    ∃ sub, s.subscriptions.lookup r = some sub ∧ r ∉ s.tombstones ∧ n ∈ s.pending r := by
  rw [SubscriptionStore.ack] at h
  split at h
  · rename_i sub outbox hs ho
    split_ifs at h with h1 h2
    refine ⟨sub,hs,h1,?_⟩
    simpa [SubscriptionStore.pending, ho] using h2
  · cases h

theorem account_ack {r : String} :
    account (s.ack r n).2 ref = follow (τ := τ) ref (.ack r n,.flag (s.ack r n).1) (account s ref) := by
  rw [SubscriptionStore.ack]
  split
  · rename_i sub outbox hs ho
    split_ifs with h1 h2
    · exact account_note _ _
    · by_cases hr : r = ref
      · subst hr
        simp [account, follow, h1, hs, ho, SubscriptionStore.update, SubscriptionStore.pending,
          Subscription.window, Window.ack]
      · simp only [follow, if_neg hr]
        apply account_congr
        · rfl
        · simp [SubscriptionStore.update, AList.lookup_insert_ne (Ne.symm hr)]
        · simp [AList.lookup_insert_ne (Ne.symm hr)]
    · exact account_note _ _
  · exact account_note _ _

theorem account_detach {r : String} :
    account (s.detach r).2 ref = follow (τ := τ) ref (.detach r,.flag (s.detach r).1) (account s ref) := by
  rw [SubscriptionStore.detach]
  split
  · rfl
  by_cases hr : r = ref
  · subst hr
    simp [account, follow]
  · simp [account, follow, if_neg hr, Ne.symm hr, SubscriptionStore.update,
      SubscriptionStore.pending]

/-- Every call moves the window of every subscriber as `follow` says. -/
theorem account_perform (call : Call τ) :
    account (perform since s call).2 ref =
      follow ref (call,(perform since s call).1) (account s ref) := by
  cases call with
  | subscribe r association epoch boundary snapshot now => exact account_subscribe
  | append n eventId => exact account_append
  | prune n => exact account_congr rfl rfl rfl
  | heartbeat r n now => exact account_heartbeat
  | evaluate r now => exact account_evaluate
  | read r epoch now => exact account_read
  | ack r n => exact account_ack
  | detach r => exact account_detach

/-! ## The history -/

/-- The history is the range of numbers above the floor, in order. -/
structure Stream (s : SubscriptionStore τ) : Prop where
  floor : 0 ≤ s.retentionFloor
  ingestion : 0 ≤ s.ingestionCursor
  held : ∀ n, n ∈ s.history.map (·.sequence) ↔ s.retentionFloor < n ∧ n ≤ s.ingestionCursor
  sorted : (s.history.map (·.sequence)).Pairwise (· < ·)

def SameStream (s t : SubscriptionStore τ) : Prop :=
  t.history = s.history ∧ t.ingestionCursor = s.ingestionCursor ∧
    t.retentionFloor = s.retentionFloor

theorem Stream.same {t : SubscriptionStore τ} (h : Stream s) (hs : SameStream s t) : Stream t := by
  obtain ⟨h1,h2,h3⟩ := hs
  constructor
  · rw [h3]
    exact h.floor
  · rw [h2]
    exact h.ingestion
  · rw [h1, h2, h3]
    exact h.held
  · rw [h1]
    exact h.sorted

/-- What `append` does when it answers true. -/
theorem append_cases (s : SubscriptionStore τ) (n : ℤ) (eventId : String) :
    ((s.append n eventId).1 = false ∧ SameStream s (s.append n eventId).2) ∨
    ((s.append n eventId).1 = true ∧ n = s.ingestionCursor+1 ∧ s.retentionFloor < n ∧
      (s.append n eventId).2.history = s.history++[⟨n,eventId⟩] ∧
      (s.append n eventId).2.ingestionCursor = n ∧
      (s.append n eventId).2.retentionFloor = s.retentionFloor) := by
  rw [SubscriptionStore.append]
  split_ifs with h1 h2 h3
  · exact Or.inl ⟨rfl,rfl,rfl,rfl⟩
  · exact Or.inl ⟨rfl,rfl,rfl,rfl⟩
  · exact Or.inl ⟨rfl,rfl,rfl,rfl⟩
  · exact Or.inr ⟨rfl,not_not.mp h1,not_le.mp h2,rfl,rfl,rfl⟩

theorem Stream.append {eventId : String} (h : Stream s) : Stream (s.append n eventId).2 := by
  rcases append_cases s n eventId with ⟨-,hs⟩ | ⟨-,hn,hf,h1,h2,h3⟩
  · exact h.same hs
  have hmap : (s.append n eventId).2.history.map (·.sequence) =
      s.history.map (·.sequence)++[n] := by rw [h1, List.map_append]; rfl
  constructor
  · rw [h3]
    exact h.floor
  · have hi := h.ingestion
    rw [h2]
    omega
  · intro m
    rw [hmap, h2, h3, List.mem_append, List.mem_singleton, h.held]
    constructor
    · rintro (hm | hm)
      · omega
      · omega
    · intro hm
      by_cases hmn : m = n
      · exact Or.inr hmn
      · exact Or.inl (by omega)
  · rw [hmap, List.pairwise_append]
    refine ⟨h.sorted,List.pairwise_singleton _ _,?_⟩
    intro a ha b hb
    have hle := ((h.held a).mp ha).2
    have hbn : b = n := List.mem_singleton.mp hb
    omega

theorem Stream.prune (h : Stream s) : Stream (s.prune n) := by
  have hsub : (s.prune n).history.map (·.sequence) =
      (s.history.map (·.sequence)).filter (fun m => max s.retentionFloor n < m) := by
    rw [List.filter_map]
    rfl
  constructor
  · exact le_trans h.floor (le_max_left _ _)
  · exact h.ingestion
  · intro m
    change _ ↔ max s.retentionFloor n < m ∧ m ≤ s.ingestionCursor
    rw [hsub, List.mem_filter, h.held, decide_eq_true_iff]
    have hle : s.retentionFloor ≤ max s.retentionFloor n := le_max_left _ _
    constructor
    · intro hm
      exact ⟨hm.2,hm.1.2⟩
    · intro hm
      exact ⟨⟨lt_of_le_of_lt hle hm.1,hm.2⟩,hm.1⟩
  · rw [hsub]
    exact h.sorted.filter _

theorem read_same {r epoch : String} : SameStream s (s.read since r epoch now).2 := by
  rw [SubscriptionStore.read]
  split
  · exact ⟨rfl,rfl,rfl⟩
  · dsimp only
    split_ifs
    · exact ⟨rfl,rfl,rfl⟩
    · exact ⟨rfl,rfl,rfl⟩
    · exact ⟨rfl,rfl,rfl⟩
    · exact ⟨rfl,rfl,rfl⟩
    · exact ⟨rfl,rfl,rfl⟩
    · split
      · exact ⟨rfl,rfl,rfl⟩
      · exact ⟨rfl,rfl,rfl⟩

theorem heartbeat_same {r : String} : SameStream s (s.heartbeat since r n now).2 := by
  rw [SubscriptionStore.heartbeat]
  split
  · exact ⟨rfl,rfl,rfl⟩
  · dsimp only
    split_ifs <;> exact ⟨rfl,rfl,rfl⟩

theorem ack_same {r : String} : SameStream s (s.ack r n).2 := by
  rw [SubscriptionStore.ack]
  split
  · split_ifs <;> exact ⟨rfl,rfl,rfl⟩
  · exact ⟨rfl,rfl,rfl⟩

/-- Only `append` and `prune` touch the history. -/
theorem perform_same (since : τ → τ → ℚ) (s : SubscriptionStore τ) (call : Call τ) : SameStream s (perform since s call).2 ∨
    (∃ n eventId, call = .append n eventId) ∨ ∃ n, call = .prune n := by
  cases call with
  | subscribe r association epoch boundary snapshot now =>
    left
    simp only [perform, SubscriptionStore.subscribe, Prod.map]
    split_ifs <;> exact ⟨rfl,rfl,rfl⟩
  | append n eventId => exact Or.inr (Or.inl ⟨n,eventId,rfl⟩)
  | prune n => exact Or.inr (Or.inr ⟨n,rfl⟩)
  | heartbeat r n now => exact Or.inl heartbeat_same
  | evaluate r now =>
    left
    simp only [perform, SubscriptionStore.evaluate, Prod.map]
    split <;> exact ⟨rfl,rfl,rfl⟩
  | read r epoch now => exact Or.inl read_same
  | ack r n => exact Or.inl ack_same
  | detach r =>
    left
    simp only [perform, SubscriptionStore.detach, Prod.map]
    split <;> exact ⟨rfl,rfl,rfl⟩

theorem Stream.perform (h : Stream s) (call : Call τ) : Stream (perform since s call).2 := by
  rcases perform_same since s call with hs | ⟨n,eventId,rfl⟩ | ⟨n,rfl⟩
  · exact h.same hs
  · exact h.append
  · exact h.prune

theorem ingestion_le (since : τ → τ → ℚ) (s : SubscriptionStore τ) (call : Call τ) :
    s.ingestionCursor ≤ (perform since s call).2.ingestionCursor := by
  rcases perform_same since s call with hs | ⟨n,eventId,rfl⟩ | ⟨n,rfl⟩
  · exact le_of_eq hs.2.1.symm
  · rcases append_cases s n eventId with ⟨-,hs⟩ | ⟨-,hn,-,-,h2,-⟩
    · exact le_of_eq hs.2.1.symm
    · change _ ≤ (s.append n eventId).2.ingestionCursor
      omega
  · exact le_refl _

section

variable {sub : Subscription τ} {r : ReadResult} {last : EventRecord}

theorem Read.mem (h : Read s ref sub r last) (hs : Stream s) :
    n ∈ r.events.map (·.sequence) ↔ sub.cursorSeq < n ∧ n ≤ s.ingestionCursor := by
  have hmap : r.events.map (·.sequence) =
      (s.history.map (·.sequence)).filter (fun m => sub.cursorSeq < m) := by
    rw [h.events, List.filter_map]
    rfl
  have hf := h.floor_le
  rw [hmap, List.mem_filter, hs.held, decide_eq_true_iff]
  constructor
  · intro hn
    exact ⟨hn.2,hn.1.2⟩
  · intro hn
    exact ⟨⟨lt_of_le_of_lt hf hn.1,hn.2⟩,hn.1⟩

/-- The last event of a read is the latest one that came in. -/
theorem Read.last_eq (h : Read s ref sub r last) (hs : Stream s) :
    last.sequence = s.ingestionCursor := by
  obtain ⟨init,hinit⟩ := List.getLast?_eq_some_iff.mp h.last
  have hmem : last.sequence ∈ r.events.map (·.sequence) := by simp [hinit]
  have hl := (h.mem hs).mp hmem
  have htop : s.ingestionCursor ∈ r.events.map (·.sequence) :=
    (h.mem hs).mpr ⟨by omega,le_refl _⟩
  have hsorted : (r.events.map (·.sequence)).Pairwise (· < ·) := by
    rw [h.events]
    exact hs.sorted.sublist (List.filter_sublist.map _)
  rw [hinit, List.map_append, List.pairwise_append] at hsorted
  rw [hinit, List.map_append, List.mem_append] at htop
  rcases htop with hin | heq
  · have hlt := hsorted.2.2 _ hin last.sequence (by simp)
    omega
  · exact (List.mem_singleton.mp heq).symm

end

/-! ## Runs -/

section

variable {e : Call τ × Answer τ}

theorem not_delivered_of_opens (h : opens ref e = true) : ¬ Delivered ref (e :: log) n := by
  rintro ⟨epoch,now,r,hm,-⟩
  simp [current, h] at hm

theorem delivered_cons (h : opens ref e = false) :
    Delivered ref (e :: log) n ↔ Delivered ref log n ∨
      ∃ epoch now r, e = (.read ref epoch now,.result r) ∧ n ∈ r.events.map (·.sequence) := by
  simp only [Delivered, current, List.takeWhile_cons, h, Bool.not_false, if_true, List.mem_cons]
  constructor
  · rintro ⟨epoch,now,r,hm | hm,hn⟩
    · exact Or.inr ⟨epoch,now,r,hm.symm,hn⟩
    · exact Or.inl ⟨epoch,now,r,hm,hn⟩
  · rintro (⟨epoch,now,r,hm,hn⟩ | ⟨epoch,now,r,hm,hn⟩)
    · exact ⟨epoch,now,r,Or.inr hm,hn⟩
    · exact ⟨epoch,now,r,Or.inl hm.symm,hn⟩

theorem acknowledged_cons (h : opens ref e = false) :
    Acknowledged ref (e :: log) n ↔ Acknowledged ref log n ∨ e = (.ack ref n,.flag true) := by
  simp only [Acknowledged, current, List.takeWhile_cons, h, Bool.not_false, if_true, List.mem_cons]
  rw [or_comm, eq_comm]

/-- A call that neither delivers to a subscriber nor takes its acknowledgement. -/
structure Quiet (ref : String) (e : Call τ × Answer τ) : Prop where
  opens : Gateway.opens ref e = false
  delivers : ∀ epoch now r, e = (.read ref epoch now,.result r) → r.events = []
  acks : ∀ n, e ≠ (.ack ref n,.flag true)

theorem Quiet.accounted (hq : Quiet ref e)
    (h : Window.Accounted start (Delivered ref log) (Acknowledged ref log) w) :
    Window.Accounted start (Delivered ref (e :: log)) (Acknowledged ref (e :: log)) w := by
  apply h.congr
  · intro n
    rw [delivered_cons hq.opens, or_iff_left]
    rintro ⟨epoch,now,r,he,hn⟩
    rw [hq.delivers epoch now r he] at hn
    cases hn
  · intro n
    rw [acknowledged_cons hq.opens, or_iff_left]
    exact hq.acks n

end

theorem of_opens {e : Call τ × Answer τ} (h : opens ref e = true) :
    ∃ association epoch boundary snapshot now sub,
      e = (.subscribe ref association epoch boundary snapshot now,.subscription (some sub)) := by
  unfold opens at h
  split at h
  · rename_i r association epoch boundary snapshot now sub
    obtain rfl : r = ref := of_decide_eq_true h
    exact ⟨association,epoch,boundary,snapshot,now,sub,rfl⟩
  · cases h

/-- A quiet call leaves the window, or ends the subscription. -/
theorem Quiet.follow {e : Call τ × Answer τ} (hq : Quiet ref e) (a : Option (ℤ × Window)) :
    follow ref e a = a ∨ follow ref e a = none := by
  unfold Gateway.follow
  split
  · rename_i r _ _ _ _ _ _
    split_ifs with hr
    · exact absurd hq.opens (by simp [Gateway.opens, hr])
    · exact Or.inl rfl
  · rename_i r _ _ answer
    split
    · exact Or.inl rfl
    · rename_i last hlast
      split_ifs with hr
      · subst hr
        rw [hq.delivers _ _ answer rfl] at hlast
        cases hlast
      · exact Or.inl rfl
  · split_ifs with hr
    · subst hr
      exact absurd rfl (hq.acks _)
    · exact Or.inl rfl
  · split_ifs
    · exact Or.inr rfl
    · exact Or.inl rfl
  · exact Or.inl rfl

/-- The window of a live subscriber is in order, and nothing beyond the history was sent. -/
def Windowed (ref : String) (ingestion : ℤ) (log : Log τ) : Option (ℤ × Window) → Prop
  | none => True
  | some (start,w) => w.upto ≤ ingestion ∧
      Window.Accounted start (Delivered ref log) (Acknowledged ref log) w

theorem Windowed.quiet {e : Call τ × Answer τ} {a : Option (ℤ × Window)} {i j : ℤ}
    (h : Windowed ref i log a) (hq : Quiet ref e) (hij : i ≤ j) :
    Windowed ref j (e :: log) a := by
  cases a with
  | none => trivial
  | some a => exact ⟨le_trans h.1 hij,hq.accounted h.2⟩

/-- Delivering all that is above the cursor keeps the window in order. -/
theorem windowed_read (hs : Stream s) {epoch : String}
    (h : Windowed ref s.ingestionCursor log (account s ref)) :
    Windowed ref (s.read since ref epoch now).2.ingestionCursor
      ((.read ref epoch now,.result (s.read since ref epoch now).1) :: log)
      (account (s.read since ref epoch now).2 ref) := by
  have hing : (s.read since ref epoch now).2.ingestionCursor = s.ingestionCursor := read_same.2.1
  rcases read_cases since s now ref epoch with ⟨he,ha⟩ | ⟨sub,last,hr,ha⟩
  · rw [ha]
    apply h.quiet
    · constructor
      · rfl
      · rintro _ _ _ ⟨⟩
        exact he
      · rintro _ ⟨⟩
    · exact le_of_eq hing.symm
  · have hacc := account_live hr.found hr.live
    rw [ha, if_pos rfl, hacc]
    rw [hacc] at h
    have htop := hr.last_eq hs
    constructor
    · change max sub.deliveredUpto last.sequence ≤ _
      rw [hing, htop, max_eq_right h.1]
    · have hmem : ∀ n, n ∈ (s.read since ref epoch now).1.events.map (·.sequence) ↔
          sub.cursorSeq < n ∧ n ≤ last.sequence := fun n => by rw [hr.mem hs, htop]
      have hsend := h.2.send hmem (by rw [htop]; exact h.1)
      apply hsend.congr
      · intro n
        rw [delivered_cons rfl]
        apply or_congr Iff.rfl
        constructor
        · rintro ⟨_,_,_,⟨⟩,hn⟩
          exact hn
        · intro hn
          exact ⟨epoch,now,_,rfl,hn⟩
      · intro n
        rw [acknowledged_cons rfl, or_iff_left]
        rintro ⟨⟩

theorem windowed_ack (hn : (s.ack ref n).1 = true)
    (h : Windowed ref s.ingestionCursor log (account s ref)) :
    Windowed ref s.ingestionCursor ((.ack ref n,.flag true) :: log)
      ((account s ref).map (Prod.map id (Window.ack n))) := by
  obtain ⟨sub,hf,hl,hm⟩ := of_ack hn
  have hacc := account_live hf hl
  rw [hacc] at h ⊢
  constructor
  · exact h.1
  · apply (h.2.ack hm).congr
    · intro m
      rw [delivered_cons rfl, or_iff_left]
      rintro ⟨_,_,_,⟨⟩,-⟩
    · intro m
      rw [acknowledged_cons rfl]
      simp [eq_comm]

/-- The step: what a call does to the window of a subscriber keeps it in order. -/
theorem windowed_perform (hs : Stream s) (call : Call τ)
    (h : Windowed ref s.ingestionCursor log (account s ref)) :
    Windowed ref (perform since s call).2.ingestionCursor ((call,(perform since s call).1) :: log)
      (account (perform since s call).2 ref) := by
  have hle := ingestion_le since s call
  by_cases hread : ∃ epoch now, call = .read ref epoch now
  · obtain ⟨epoch,now,rfl⟩ := hread
    exact windowed_read hs h
  by_cases hack : ∃ n, (call,(perform since s call).1) = (.ack ref n,.flag true)
  · obtain ⟨n,he⟩ := hack
    rw [account_perform, he]
    obtain ⟨rfl,hb⟩ := Prod.mk.inj he
    have hing : (s.ack ref n).2.ingestionCursor = s.ingestionCursor := ack_same.2.1
    have hn : (s.ack ref n).1 = true := by simpa [perform] using hb
    simp only [follow, if_true]
    exact hing ▸ windowed_ack hn h
  by_cases hopen : opens ref (call,(perform since s call).1) = true
  · obtain ⟨association,epoch,boundary,snapshot,now,sub,he⟩ := of_opens hopen
    have hi := hs.ingestion
    rw [account_perform, he]
    simp only [follow, if_true]
    constructor
    · exact le_trans hi hle
    · rw [he] at hopen
      exact Window.accounted_start (fun n => not_delivered_of_opens hopen)
  have hq : Quiet ref (call,(perform since s call).1) := by
    constructor
    · simpa using hopen
    · rintro epoch now r he
      exact absurd ⟨epoch,now,(Prod.mk.inj he).1⟩ hread
    · intro n he
      exact hack ⟨n,he⟩
  rw [account_perform]
  rcases hq.follow (account s ref) with hf | hf
  · rw [hf]
    exact h.quiet hq hle
  · rw [hf]
    trivial

/-- What every run keeps. -/
structure Kept (s : SubscriptionStore τ) (log : Log τ) : Prop where
  stream : Stream s
  ingested : ∀ n, Ingested log n → n ≤ s.ingestionCursor
  windowed : ∀ ref, Windowed ref s.ingestionCursor log (account s ref)

theorem kept_start : Kept ({} : SubscriptionStore τ) [] := by
  constructor
  · constructor
    · exact le_refl _
    · exact le_refl _
    · intro n
      simp only [List.map_nil, List.not_mem_nil, false_iff]
      omega
    · exact List.Pairwise.nil
  · rintro n ⟨eventId,h⟩
    cases h
  · intro ref
    trivial

theorem Kept.perform (h : Kept s log) (call : Call τ) :
    Kept (perform since s call).2 ((call,(perform since s call).1) :: log) := by
  constructor
  · exact h.stream.perform call
  · rintro n ⟨eventId,hm⟩
    rcases List.mem_cons.mp hm with he | hm
    · obtain ⟨rfl,hb⟩ := Prod.mk.inj he
      have htrue : (s.append n eventId).1 = true := by simpa [Gateway.perform] using hb.symm
      rcases append_cases s n eventId with ⟨hf,-⟩ | ⟨-,-,-,-,h2,-⟩
      · rw [htrue] at hf
        cases hf
      · exact le_of_eq h2.symm
    · exact le_trans (h.ingested n ⟨eventId,hm⟩) (ingestion_le since _ call)
  · intro ref
    exact windowed_perform h.stream call (h.windowed ref)

theorem kept_run (since : τ → τ → ℚ) (calls : List (Call τ)) (h : Kept s log) :
    Kept (run since calls (s,log)).1 (run since calls (s,log)).2 := by
  induction calls generalizing s log with
  | nil => exact h
  | cons call calls ih => exact ih (h.perform call)

/-- A read that is not denied. -/
def ReadResult.admitted (r : ReadResult) : Prop := r.outcome = .ok ∨ r.outcome = .noNewEvents

section

variable {sub : Subscription τ} {epoch : String}

/-- An admitted read hands out all of the history above the cursor. -/
theorem read_admitted (hf : s.subscriptions.lookup ref = some sub)
    (h : (s.read since ref epoch now).1.admitted) :
    (s.read since ref epoch now).1.events = s.history.filter (fun e => sub.cursorSeq < e.sequence) := by
  unfold ReadResult.admitted at h
  rw [SubscriptionStore.read, hf] at h ⊢
  dsimp only at h ⊢
  split_ifs at h ⊢ with h1 h2 h3 h4 h5
  · simp [SubscriptionStore.deny] at h
  · simp [SubscriptionStore.deny] at h
  · simp [SubscriptionStore.deny] at h
  · simp [SubscriptionStore.deny] at h
  · simp [SubscriptionStore.deny] at h
  · split
    · rename_i hlast
      symm
      simpa [SubscriptionStore.update] using List.getLast?_eq_none_iff.mp hlast
    · simp [SubscriptionStore.update]

/-- Below the floor the read in the right epoch says so, if it gets that far. -/
theorem read_gap (since : τ → τ → ℚ) (now : τ) (hf : s.subscriptions.lookup ref = some sub) (hl : ref ∉ s.tombstones)
    (hgap : sub.cursorSeq < s.retentionFloor) :
    (s.read since ref sub.streamEpoch now).1.outcome = .associationStale ∨
      (s.read since ref sub.streamEpoch now).1.outcome = .cursorExpired ∨
      (s.read since ref sub.streamEpoch now).1 =
        { outcome := .replayGap, resyncRequired := true } := by
  rw [SubscriptionStore.read, hf]
  dsimp only
  rw [if_neg hl, if_neg (by simp)]
  split_ifs with h1 h2 h3
  · exact Or.inl rfl
  · exact Or.inr (Or.inl rfl)
  · exact Or.inr (Or.inr rfl)
  · simp [SubscriptionStore.update, hgap] at h3

end

/-- In every state that calls lead to, a live subscription has passed only what was
delivered and acknowledged; its outbox holds delivered numbers of its window, once each,
and all that was delivered and never acknowledged; and an event above its cursor can
still be read, or the read says that there is a gap. -/
theorem delivery_loses_nothing (since : τ → τ → ℚ) (calls : List (Call τ)) (ref : String)
    (sub : Subscription τ) {s : SubscriptionStore τ} {log : Log τ}
    (hrun : run since calls ({},[]) = (s,log))
    (hf : s.subscriptions.lookup ref = some sub) (hl : ref ∉ s.tombstones) :
    (∀ n, sub.snapshotSequence < n → n ≤ sub.cursorSeq →
      Delivered ref log n ∧ Acknowledged ref log n) ∧
    (s.pending ref).Nodup ∧
    (∀ n ∈ s.pending ref, Delivered ref log n ∧ sub.cursorSeq < n ∧ n ≤ sub.deliveredUpto) ∧
    (∀ n, Delivered ref log n → ¬ Acknowledged ref log n → n ∈ s.pending ref) ∧
    ∀ n, Ingested log n → sub.cursorSeq < n →
      (n ∈ s.history.map (·.sequence) ∧ ∀ epoch now, (s.read since ref epoch now).1.admitted →
        n ∈ (s.read since ref epoch now).1.events.map (·.sequence)) ∨
      ∀ now, (s.read since ref sub.streamEpoch now).1.outcome ≠ .associationStale →
        (s.read since ref sub.streamEpoch now).1.outcome ≠ .cursorExpired →
        (s.read since ref sub.streamEpoch now).1 =
          { outcome := .replayGap, resyncRequired := true } := by
  have hk : Kept s log := by
    have hk := kept_run since calls kept_start
    rwa [hrun] at hk
  have hw := hk.windowed ref
  rw [account_live hf hl] at hw
  have ha := hw.2
  refine ⟨ha.passed,ha.nodup,?_,ha.waits,?_⟩
  · intro n hn
    obtain ⟨h1,h2,h3⟩ := ha.within n hn
    exact ⟨h3,h1,h2⟩
  · intro n hi hn
    by_cases hh : n ∈ s.history.map (·.sequence)
    · refine Or.inl ⟨hh,fun epoch now had => ?_⟩
      obtain ⟨e,he,rfl⟩ := List.mem_map.mp hh
      rw [read_admitted hf had]
      apply List.mem_map_of_mem
      simp [he, hn]
    · right
      have hle := hk.ingested n hi
      have hfloor : n ≤ s.retentionFloor := by
        by_contra hlt
        exact hh ((hk.stream.held n).mpr ⟨not_le.mp hlt,hle⟩)
      intro now h1 h2
      rcases read_gap since now hf hl (by omega) with h | h | h
      · exact absurd h h1
      · exact absurd h h2
      · exact h

/-- Out of order acknowledgements, a purge below the cursor and a second delivery. -/
theorem delivery_loses_nothing_reread :
    let calls : List (Call ℤ) := [.subscribe "s" "a" "e" "b" 0 0, .append 1 "x", .append 2 "y",
      .append 3 "z", .read "s" "e" 1, .ack "s" 2, .read "s" "e" 2, .ack "s" 1, .prune 1]
    let out := run (fun a b => ((a-b : ℤ) : ℚ)) calls ({},[])
    ∃ sub, out.1.subscriptions.lookup "s" = some sub ∧ sub.cursorSeq = 1 ∧
      out.1.pending "s" = [3,2] ∧ Delivered "s" out.2 1 ∧ Acknowledged "s" out.2 1 := by
  intro calls out
  have hs : out.1.subscriptions.lookup "s" = some ⟨"s","a","e","b",0,1,0,0,0,3,.observing⟩ := by
    decide +kernel
  have h := delivery_loses_nothing _ calls "s" _ rfl hs (by decide +kernel)
  have h1 := h.1 1 (by decide) (by decide)
  exact ⟨_,hs,rfl,by decide +kernel,h1.1,h1.2⟩

end PdFleet.Gateway
