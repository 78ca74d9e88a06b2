import PdFleet.GatewayStreams

/-!
# Readers of the gateway's streams

Over any run of the gateway, with any calls of any observers between, what a reader gets is a page
of the log, and a reader that goes on with the cursors it is given reads the log without a gap and
without reading twice.
-/

set_option autoImplicit false

namespace PdFleet.Bridge.Fake

open Ledger

variable {U : Nfc} {G : Settings} {g : Gateway U} {logs : Logs U}

/-! ## One answer -/

/-- What a reader gets after a number: a page of the log, up to the number of its new cursor. -/
structure Served (logs : Logs U) (after limit : ℕ) (r : StreamResult U) : Prop where
  association : r.cursor.association_ref = r.snapshot.association_ref
  epoch : r.snapshot.stream_epoch = some r.cursor.stream_epoch
  forward : after ≤ r.cursor.last_sequence.val
  known : r.cursor.last_sequence.val ≤ r.snapshot.sequence.val
  logged : r.snapshot.sequence.val ≤ (logs r.cursor.stream_epoch.val).length
  events : r.events = page (logs r.cursor.stream_epoch.val) after r.cursor.last_sequence.val
  bounded : r.events.length ≤ limit
  complete : r.events.length < limit →
    page (logs r.cursor.stream_epoch.val) r.cursor.last_sequence.val r.snapshot.sequence.val = []
  own : ∀ e ∈ r.events, e.val.association_ref = r.snapshot.association_ref ∧
    e.val.session_ref = r.snapshot.session_ref
  last : ∀ e, r.events.getLast? = some e → number e = r.cursor.last_sequence.val
  mode : r.snapshot.ownership_mode = .userOwnedSession

theorem Served.grown {logs' : Logs U} {after limit : ℕ} {r : StreamResult U}
    (h : Served logs after limit r) (hg : Grown logs logs') : Served logs' after limit r where
  association := h.association
  epoch := h.epoch
  forward := h.forward
  known := h.known
  logged := h.logged.trans (hg _).length_le
  events := by
    rw [page_grown (hg _) after (h.known.trans h.logged)]
    exact h.events
  bounded := h.bounded
  complete := by
    rw [page_grown (hg _) _ h.logged]
    exact h.complete
  own := h.own
  last := h.last
  mode := h.mode

/-- The events of a stream call, as a page of a log. -/
structure Page (log : List (Option (BridgeEvent U))) (after limit last : ℕ)
    (events : List (BridgeEvent U)) : Prop where
  forward : after ≤ last
  known : last ≤ log.length
  content : events = page log after last
  bounded : events.length ≤ limit
  complete : events.length < limit → page log last log.length = []
  last : ∀ e, events.getLast? = some e → number e = last

theorem served_of_page {key : String} {a : Association U} (hs : Serves G g logs)
    (hget : g.associations key = some a) {snapshot : SessionSnapshot}
    (hsnap : snapshotOf a = .ok snapshot) {events : List (BridgeEvent U)}
    {after limit last : ℕ} (later : ℕ) {r : StreamResult U}
    (hp : Page (logs a.epoch) after limit last events)
    (hr : streamResult G a snapshot events last later = .ok r) : Served logs after limit r := by
  have hf := hs.follows key a hget
  have hsn := isSnapshot_of_snapshotOf hsnap
  obtain ⟨c,hc,hr⟩ := ok_of_bind hr
  cases hr
  have hcur := isCursor_of_cursorOf (contract_ok hc)
  have hnum : snapshot.sequence.val = (logs a.epoch).length := hsn.number.trans hf.sequence
  have hassoc : c.association_ref = snapshot.association_ref := by
    have h := hcur.association
    rw [hsn.association] at h
    exact (Option.some.inj h).symm
  have hepoch : snapshot.stream_epoch = some c.stream_epoch := by
    cases he : snapshot.stream_epoch with
    | none =>
      have h := hsn.epoch
      rw [he] at h
      cases h
    | some p =>
      have h := hsn.epoch
      rw [he] at h
      have hval : p.val = c.stream_epoch.val := (Option.some.inj h).trans hcur.epoch.symm
      rw [Subtype.ext hval]
  constructor
  · exact hassoc
  · exact hepoch
  · dsimp only
    rw [hcur.number]
    exact hp.forward
  · dsimp only
    rw [hcur.number, hnum]
    exact hp.known
  · dsimp only
    rw [hcur.epoch, hnum]
  · dsimp only
    rw [hcur.epoch, hcur.number]
    exact hp.content
  · exact hp.bounded
  · dsimp only
    rw [hcur.epoch, hcur.number, hnum]
    exact hp.complete
  · intro e he
    have hmem : e ∈ (logs a.epoch).reduceOption := by
      dsimp only at he
      rw [hp.content] at he
      have hd := List.reduceOption_mem_iff.mp he
      exact List.reduceOption_mem_iff.mpr (List.mem_of_mem_take (List.mem_of_mem_drop hd))
    obtain ⟨h1,h2⟩ := hf.own e hmem
    rw [hsn.association] at h1
    rw [hsn.session] at h2
    exact ⟨(Option.some.inj h1).symm,(Option.some.inj h2).symm⟩
  · dsimp only
    rw [hcur.number]
    exact hp.last
  · exact hsn.mode.trans hf.mode

/-- The events after a number, all of which are kept. -/
theorem page_of_eventsAfter {a : Association U} {log : List (Option (BridgeEvent U))}
    {key epoch : String} (hf : Follows G key a log) (hs : Sound epoch log) {after limit : ℕ}
    {events : List (BridgeEvent U)} (h : eventsAfter a after limit = .ok events) :
    ∃ e, events.getLast? = some e ∧ Page log after limit (number e) events := by
  unfold eventsAfter at h
  split at h
  · cases h
  rename_i hhead
  dsimp only at h
  split at h
  · cases h
  rename_i hne
  have hhead' : ∀ e, (kept G.retention log).head? = some e → number e ≤ after+1 := by
    intro e he
    rw [hf.events, he, Option.any_some, decide_eq_true_eq] at hhead
    exact Nat.le_of_not_lt hhead
  have hkept := hs.numbered.kept_eq hhead' G.retention_pos
  rw [hf.events] at h hne
  change ¬ (List.take limit ((kept G.retention log).filter (fun e => decide (after < number e)))) =
    [] at hne
  change Except.ok (List.take limit
    ((kept G.retention log).filter (fun e => decide (after < number e)))) = _ at h
  rw [hkept] at h hne
  cases h
  obtain ⟨e,he⟩ := Option.ne_none_iff_exists'.mp (mt List.getLast?_eq_none_iff.mp hne)
  refine ⟨e,he,?_⟩
  have hmem : e ∈ (log.drop after).reduceOption := List.mem_of_mem_take (List.mem_of_getLast? he)
  have hpage := hs.numbered.take_after he
  have hlen : number e ≤ log.length := by
    apply hs.numbered.le_length
    rw [split log after]
    exact List.mem_append_right _ hmem
  have hlt := hs.numbered.lt_of_mem_drop hmem
  constructor
  · exact hlt.le
  · exact hlen
  · exact hpage.symm
  · exact List.length_take_le _ _
  · intro hshort
    -- the page was not cut, so it is all that there is
    have hall : ((log.drop after).reduceOption).take limit = (log.drop after).reduceOption := by
      apply List.take_of_length_le
      rw [List.length_take] at hshort
      omega
    have hjoin := page_append log hlt.le hlen
    have hend : page log after log.length = (log.drop after).reduceOption := by
      rw [page, List.take_length]
    rw [hpage, hall, hend] at hjoin
    exact List.append_right_eq_self.mp hjoin
  · intro x hx
    rw [he] at hx
    cases hx
    rfl

/-- The first of the kept events. -/
theorem page_of_kept {a : Association U} {log : List (Option (BridgeEvent U))}
    {key epoch : String} (hf : Follows G key a log) (hs : Sound epoch log) (limit : ℕ) :
    ∃ after, Page log after limit
      (((a.events.take limit).getLast?.map number).getD a.sequence) (a.events.take limit) := by
  rw [hf.events, hf.sequence]
  cases hy : ((kept G.retention log).take limit).getLast? with
  | none =>
    have hnil := List.getLast?_eq_none_iff.mp hy
    refine ⟨log.length,?_⟩
    rw [hnil, Option.map_none, Option.getD_none]
    constructor
    · exact le_rfl
    · exact le_rfl
    · exact (page_self log _).symm
    · exact Nat.zero_le _
    · intro _
      exact page_self log _
    · intro e he
      cases he
  | some y =>
    have hmem : y ∈ kept G.retention log := List.mem_of_mem_take (List.mem_of_getLast? hy)
    obtain ⟨x,hx⟩ : ∃ x, (kept G.retention log).head? = some x := by
      rw [← Option.ne_none_iff_exists', Ne, List.head?_eq_none_iff]
      exact List.ne_nil_of_mem hmem
    have hpage := hs.numbered.take_kept hx hy
    have hall := (kept_suffix G.retention log).subset hmem
    have hfirst : number x-1 ≤ number y := by
      rw [List.head?_eq_some_iff] at hx
      obtain ⟨rest,hx⟩ := hx
      have hsort := hs.numbered.sorted.sublist (kept_suffix G.retention log).sublist
      rw [hx] at hsort hmem
      rcases List.mem_cons.mp hmem with hm | hm
      · rw [hm]
        exact Nat.sub_le _ _
      · have := (List.pairwise_cons.mp hsort).1 y hm
        omega
    refine ⟨number x-1,?_⟩
    rw [Option.map_some, Option.getD_some]
    constructor
    · exact hfirst
    · exact hs.numbered.le_length hall
    · exact hpage.symm
    · exact List.length_take_le _ _
    · intro hshort
      -- nothing comes after the last event that is kept
      have hcut : (kept G.retention log).take limit = kept G.retention log := by
        apply List.take_of_length_le
        rw [List.length_take] at hshort
        omega
      rw [hcut] at hy
      obtain ⟨u,hu⟩ := kept_suffix G.retention log
      obtain ⟨v,hv⟩ := List.getLast?_eq_some_iff.mp hy
      have hsort := hs.numbered.sorted
      rw [split log (number y)] at hsort hu
      rw [hv, ← List.append_assoc] at hu
      rw [page, List.take_length]
      by_contra hne
      obtain ⟨w,hw⟩ := Option.ne_none_iff_exists'.mp (mt List.getLast?_eq_none_iff.mp hne)
      have hl := congrArg List.getLast? hu
      rw [List.getLast?_concat, List.getLast?_append, hw, Option.some_or, Option.some.injEq] at hl
      have := hs.numbered.lt_of_mem_drop (List.mem_of_getLast? hw)
      rw [hl] at this
      exact lt_irrefl _ this
    · intro e he
      rw [hy] at he
      cases he
      rfl

/-! ## Calls -/

theorem replayEvents_ok {a : Association U} {window : ReplayWindow} {cursor : Option BridgeCursor}
    {now : ℕ} {events : List (BridgeEvent U)} (h : replayEvents a window cursor now = .ok events) :
    window.stream_epoch.val = a.epoch ∧
      (∀ c, cursor = some c → c.association_ref = window.association_ref ∧
        c.stream_epoch = window.stream_epoch ∧ c.last_sequence.val = window.after_sequence.val ∧
        some c.subscriber_ref = a.binding.observerRef) ∧
      eventsAfter a window.after_sequence.val window.limit.val = .ok events := by
  unfold replayEvents at h
  split at h
  · cases h
  rename_i hany
  split at h
  · cases h
  rename_i hepoch
  obtain ⟨_,hcheck,h⟩ := ok_of_bind h
  refine ⟨not_not.mp hepoch,?_,h⟩
  intro c hc
  rw [hc, Option.any_some, Bool.not_eq_true, Bool.or_eq_false_iff, Bool.or_eq_false_iff,
    decide_eq_false_iff_not, decide_eq_false_iff_not, decide_eq_false_iff_not, not_not, not_not,
    not_not] at hany
  rw [hc, checkCursors, checkCursor] at hcheck
  split at hcheck
  · cases hcheck
  · rename_i hbinding
    rw [not_or, not_not, not_not] at hbinding
    exact ⟨hany.1.1.symm,hany.1.2.symm,hany.2.symm,hbinding.2⟩

/-- A reader that gives a window or a cursor gets a page after its number. -/
theorem replay_served (hs : Serves G g logs) {o : ObserverIdentity} {window : ReplayWindow}
    {cursor : Option BridgeCursor} {now later : ℕ} {r : StreamResult U}
    (h : replay G g o window cursor now later = .ok r) :
    r.events ≠ [] ∧ r.cursor.stream_epoch = window.stream_epoch ∧
      Served logs window.after_sequence.val window.limit.val r := by
  obtain ⟨_,-,h⟩ := ok_of_bind h
  obtain ⟨a,ha,h⟩ := ok_of_bind h
  obtain ⟨snapshot,hsnap,h⟩ := ok_of_bind h
  obtain ⟨events,hevents,h⟩ := ok_of_bind h
  obtain ⟨hget,-,-⟩ := stateOf_ok ha
  obtain ⟨hepoch,-,hafter⟩ := replayEvents_ok hevents
  obtain ⟨e,he,hp⟩ := page_of_eventsAfter (hs.follows _ a hget) (hs.sound a.epoch) hafter
  have hserved : Served logs window.after_sequence.val window.limit.val r := by
    apply served_of_page hs hget (contract_ok hsnap) later hp
    rw [he] at h
    exact h
  obtain ⟨c,hc,hr⟩ := ok_of_bind h
  cases hr
  refine ⟨?_,?_,hserved⟩
  · intro hnil
    dsimp only at hnil
    rw [hnil] at he
    cases he
  · exact Subtype.ext ((isCursor_of_cursorOf (contract_ok hc)).epoch.trans hepoch.symm)

/-- A limit that is given, or one hundred. -/
def limitOf : Json → ℕ
  | .int n => n.toNat
  | _ => MAX_REPLAY_BATCH

theorem replayLimit_ok {limit : Json} {n : ℕ} (h : replayLimit limit = .ok n) :
    n = limitOf limit ∧ n ≤ MAX_REPLAY_BATCH := by
  unfold replayLimit at h
  split at h
  · cases h
    exact ⟨rfl,le_rfl⟩
  · split at h
    · rename_i m hm
      cases h
      exact ⟨rfl,Int.toNat_le.mpr hm.2⟩
    · cases h
  · cases h

/-- A reader without a cursor gets the first events that are kept, another one those after its
cursor. -/
theorem subscribe_served (hs : Serves G g logs) {o : ObserverIdentity} {association : Target}
    {cursor : Option BridgeCursor} {limit : Json} {now later : ℕ} {r : StreamResult U}
    (h : subscribe G g o association cursor limit now later = .ok r) :
    limitOf limit ≤ MAX_REPLAY_BATCH ∧
      (cursor = none → ∃ after, Served logs after (limitOf limit) r) ∧
      ∀ c, cursor = some c → r.events ≠ [] ∧ r.cursor.association_ref = c.association_ref ∧
        r.cursor.stream_epoch = c.stream_epoch ∧ r.cursor.subscriber_ref = c.subscriber_ref ∧
        Served logs c.last_sequence.val (limitOf limit) r := by
  obtain ⟨_,-,h⟩ := ok_of_bind h
  obtain ⟨key,-,h⟩ := ok_of_bind h
  obtain ⟨a,ha,h⟩ := ok_of_bind h
  obtain ⟨snapshot,hsnap,h⟩ := ok_of_bind h
  obtain ⟨n,hn,h⟩ := ok_of_bind h
  obtain ⟨events,hevents,h⟩ := ok_of_bind h
  obtain ⟨hget,-,-⟩ := stateOf_ok ha
  obtain ⟨hn,hmax⟩ := replayLimit_ok hn
  rw [← hn]
  refine ⟨hmax,?_,?_⟩
  · intro hc
    rw [hc] at h hevents
    cases hevents
    obtain ⟨after,hp⟩ := page_of_kept (hs.follows key a hget) (hs.sound a.epoch) n
    refine ⟨after,served_of_page hs hget (contract_ok hsnap) later hp ?_⟩
    rw [← h]
    cases (a.events.take n).getLast? with
    | none => rfl
    | some e => rfl
  · intro c hc
    rw [hc] at h hevents
    obtain ⟨window,hw,hevents⟩ := ok_of_bind hevents
    obtain ⟨found,hfound,hevents⟩ := ok_of_bind hevents
    cases hevents
    obtain ⟨w1,hw1,hw⟩ := ok_of_bind (contract_ok hw)
    obtain ⟨w2,hw2,hw⟩ := ok_of_bind hw
    obtain ⟨w3,hw3,hw⟩ := ok_of_bind hw
    split at hw
    · cases hw
    obtain ⟨w4,hw4,hw⟩ := ok_of_bind hw
    cases hw
    obtain ⟨hepoch,hcur,hafter⟩ := replayEvents_ok hfound
    obtain ⟨hc1,hc2,hc3,hc4⟩ := hcur c rfl
    rw [of_integer_nat hw3, of_integer_nat hw4] at hafter
    obtain ⟨e,he,hp⟩ := page_of_eventsAfter (hs.follows _ a hget) (hs.sound a.epoch) hafter
    have htake : found.take n = found := List.take_of_length_le hp.bounded
    rw [htake] at h
    have hserved : Served logs c.last_sequence.val n r := by
      apply served_of_page hs hget (contract_ok hsnap) later hp
      rw [he] at h
      exact h
    obtain ⟨c',hc',hr⟩ := ok_of_bind h
    cases hr
    have hcursor := isCursor_of_cursorOf (contract_ok hc')
    refine ⟨?_,?_,?_,?_,hserved⟩
    · intro hnil
      dsimp only at hnil
      rw [hnil] at he
      cases he
    · have h1 := of_ref_optional hw1
      rw [hcursor.association] at h1
      exact (Option.some.inj h1).trans hc1.symm
    · apply Subtype.ext
      rw [hc2]
      exact hcursor.epoch.trans hepoch.symm
    · rw [hcursor.subscriber] at hc4
      exact (Option.some.inj hc4).symm

end PdFleet.Bridge.Fake
