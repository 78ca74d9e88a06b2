import PdFleet.BridgeGaps

/-!
# Runs of the bridge

Which runs of the facade keep every stored cursor behind the journal's events.
-/

set_option autoImplicit false

namespace PdFleet.Bridge

variable {U : Nfc} {s s' : Store} {L : Limits}

/-! ## Calls that put no cursor -/

theorem writeEvent_cursors {row : EventRow} (h : s.writeEvent L row = .ok s') :
    s'.cursors = s.cursors := by
  rw [Store.writeEvent] at h
  split at h
  · obtain ⟨_,-,h⟩ := ok_of_bind h
    obtain ⟨s1,h1,h⟩ := ok_of_bind h
    rw [Store.insertEvent] at h1
    split at h1
    · cases h1
    cases h1
    rw [Store.outboxEvent] at h
    split at h
    · split at h
      · cases h
      · cases h
        rfl
    · split at h
      · cases h
      · cases h
        rfl
  · split at h
    · cases h
    · cases h
      rfl

theorem writeTerminal_cursors {encoded : Dict Ref Json} {e : BridgeEvent U}
    (h : s.writeTerminal L encoded e = .ok s') : s'.cursors = s.cursors := by
  rw [Store.writeTerminal] at h
  split at h
  · cases h
  obtain ⟨old,-,h⟩ := ok_of_bind h
  split at h
  · cases h
  obtain ⟨s1,h1,h⟩ := ok_of_bind h
  obtain ⟨record,-,h⟩ := ok_of_bind h
  cases h
  show s1.cursors = _
  exact writeEvent_cursors h1

theorem writeTerminals_cursors {encoded : Dict Ref Json} {events : List (BridgeEvent U)}
    (h : events.foldlM (Store.writeTerminal L encoded) s = .ok s') : s'.cursors = s.cursors := by
  induction events generalizing s with
  | nil =>
    cases h
    rfl
  | cons e events ih =>
    rw [List.foldlM_cons] at h
    obtain ⟨s1,h1,h⟩ := ok_of_bind h
    exact (ih h).trans (writeTerminal_cursors h1)

theorem noGap_ingestEvents {events : List (BridgeEvent U)} (hi : Integrity U s) (hg : NoGap U s)
    (h : s.ingestEvents L events = .ok s') : NoGap U s' := by
  have hevents := (later_ingestEvents hi h).extends_old.events
  rw [Store.ingestEvents] at h
  split at h
  · cases h
  split at h
  · cases h
  obtain ⟨t,-,h⟩ := ok_of_bind h
  have hc := writeTerminals_cursors h
  exact hg.grow hevents.subset fun key => by rw [hc]

theorem noGap_ack {event_id : String} (hg : NoGap U s) (h : s.ack (U := U) event_id = .ok s') :
    NoGap U s' := by
  rw [Store.ack] at h
  split at h
  · cases h
  split at h
  · cases h
  cases h
  exact hg.grow (fun _ hr => hr) fun _ => rfl

/-- A consistent journal without gaps. -/
structure Sound (U : Nfc) (s : Store) : Prop where
  integrity : Integrity U s
  noGap : NoGap U s

/-- The later journal is what a call of the store without a cursor leaves. -/
inductive Plain (U : Nfc) (L : Limits) (s s' : Store) : Prop where
  | ingest (snapshot : SessionSnapshot) (events : List (BridgeEvent U))
      (h : s.ingest L snapshot events none = .ok s')
  | ingestEvents (events : List (BridgeEvent U)) (h : s.ingestEvents L events = .ok s')
  | ack (event_id : String) (h : s.ack (U := U) event_id = .ok s')

theorem Plain.integrity (h : Plain U L s s') (hi : Integrity U s) : Integrity U s' := by
  cases h with
  | ingest snapshot events h => exact (later_ingest hi h).1.integrity
  | ingestEvents events h => exact (later_ingestEvents hi h).integrity
  | ack event_id h => exact (later_ack hi h).integrity

theorem Plain.sound (h : Plain U L s s') (hs : Sound U s) : Sound U s' := by
  refine ⟨h.integrity hs.integrity,?_⟩
  cases h with
  | ingest snapshot events h => exact noGap_ingest_none hs.integrity hs.noGap h
  | ingestEvents events h => exact noGap_ingestEvents hs.integrity hs.noGap h
  | ack event_id h => exact noGap_ack hs.noGap h

theorem sound_empty : Sound U Store.empty := ⟨integrity_empty,nofun⟩

namespace FleetGatewayBridge

variable {B : FleetGatewayBridge}

theorem settle_keeps {α : Type} {P : Store → Prop} {x : Except Exn (α × Store)} (hs : P s)
    (h : ∀ a s', x = .ok (a,s') → P s') : P (settle s x).2 := by
  cases x with
  | error e => exact hs
  | ok r => exact h r.1 r.2 rfl

theorem plain_attach {activation : Activation} {binding operation_key : Json}
    {consumed : Answer AssociationRef} {answer : Answer SessionSnapshot} {a : AssociationRef}
    (h : B.attach s U activation binding operation_key consumed answer = .ok (a,s')) :
    Plain U B.limits s s' := by
  obtain ⟨_,-,h⟩ := ok_of_bind h
  obtain ⟨_,-,h⟩ := ok_of_bind h
  obtain ⟨_,-,h⟩ := ok_of_bind h
  obtain ⟨snap,-,h⟩ := ok_of_bind h
  cases snap with
  | none => cases h
  | some snap =>
    obtain ⟨_,-,h⟩ := ok_of_bind h
    obtain ⟨s1,h1,h⟩ := ok_of_bind h
    cases h
    exact .ingest _ _ (own_ok.mp h1)

theorem plain_snapshot {association : Target} {answer : Answer SessionSnapshot}
    {snap : SessionSnapshot} (h : B.snapshot s U association answer = .ok (snap,s')) : Plain U B.limits s s' := by
  obtain ⟨_,-,h⟩ := ok_of_bind h
  obtain ⟨_,-,h⟩ := ok_of_bind h
  obtain ⟨_,-,h⟩ := ok_of_bind h
  obtain ⟨s1,h1,h⟩ := ok_of_bind h
  cases h
  exact .ingest _ _ (own_ok.mp h1)

theorem plain_heartbeat {association : Target}
    {answer : Answer (Object SessionSnapshot × Object (BridgeEvent U))}
    {r : SessionSnapshot × BridgeEvent U} (h : B.heartbeat s association answer = .ok (r,s')) : Plain U B.limits s s' := by
  obtain ⟨_,-,h⟩ := ok_of_bind h
  obtain ⟨⟨_,_⟩,-,h⟩ := ok_of_bind h
  obtain ⟨_,-,h⟩ := ok_of_bind h
  obtain ⟨_,-,h⟩ := ok_of_bind h
  obtain ⟨s1,h1,h⟩ := ok_of_bind h
  cases h
  exact .ingest _ _ (own_ok.mp h1)

theorem plain_detach {revoked : Answer (BridgeEvent U)} {paths : Option (Paths U)}
    {r : Object (BridgeEvent U)} (h : B.detach s revoked paths = .ok (r,s')) :
    Plain U B.limits s s' := by
  obtain ⟨_,-,h⟩ := ok_of_bind h
  obtain ⟨events,-,h⟩ := ok_of_bind h
  obtain ⟨s1,h1,h⟩ := ok_of_bind h
  cases h
  exact .ingestEvents _ (own_ok.mp h1)

theorem plain_acked {event_id : String} {u : Unit} (L : Limits)
    (h : ack s U event_id = .ok (u,s')) : Plain U L s s' := by
  obtain ⟨s1,h1,h⟩ := ok_of_bind h
  cases h
  exact .ack _ (own_ok.mp h1)

/-! ## Calls that may put a cursor -/

/-- What a stream call has checked when it stores the result. -/
structure Checked (B : FleetGatewayBridge) (s : Store) (requested : Target) (b : ℕ)
    (r : Stream U) (s' : Store) : Prop where
  stream : validateStream r.snapshot r.events b r.cursor = .ok ()
  binding : s.validateBinding requested r.snapshot r.events = .ok ()
  stored : s.ingest B.limits r.snapshot r.events r.cursor = .ok s'

theorem Checked.integrity {requested : Target} {b : ℕ} {r : Stream U}
    (h : Checked B s requested b r s') (hi : Integrity U s) : Integrity U s' :=
  (later_ingest hi h.stored).1.integrity

theorem deliver_checked {now : ℤ} {requested : Target} {b : ℕ} {answer : Answer (Parts U)}
    {r : Stream U} (h : B.deliver s now requested b answer = .ok (r,s')) :
    Checked B s requested b r s' := by
  obtain ⟨r1,h1,h⟩ := ok_of_bind h
  obtain ⟨result,-,h1⟩ := ok_of_bind (caught_ok.mp h1)
  obtain ⟨parts,-,h1⟩ := ok_of_bind (own_ok.mp h1)
  obtain ⟨r2,h2,h1⟩ := ok_of_bind h1
  obtain ⟨_,hb,h1⟩ := ok_of_bind h1
  obtain ⟨_,-,h1⟩ := ok_of_bind h1
  cases h1
  obtain ⟨s1,hs,h⟩ := ok_of_bind h
  cases h
  rw [validateParts] at h2
  split at h2
  · cases h2
  obtain ⟨_,hv,h2⟩ := ok_of_bind h2
  cases h2
  exact ⟨hv,hb,own_ok.mp hs⟩

/-- The boundary of a stream call is journaled, as far as the call puts a new cursor. -/
def Resumable (s : Store) (b : ℕ) (r : Stream U) : Prop :=
  ∀ c ∈ r.cursor, Ahead s c →
    Covered s c.association_ref c.stream_epoch (min b c.last_sequence.val)

theorem resumable_zero (r : Stream U) : Resumable s 0 r := by
  intro c _ _ k h1 hk
  omega

theorem sound_checked {requested : Target} {b : ℕ} {r : Stream U} (hs : Sound U s)
    (h : Checked B s requested b r s') : Sound U s' ↔ Resumable s b r := by
  have hi := h.integrity hs.integrity
  have hstored := h.stored
  have hstream := h.stream
  cases hc : r.cursor with
  | none =>
    rw [hc] at hstored
    refine iff_of_true ((Plain.ingest _ _ hstored).sound hs) fun c hm => ?_
    rw [hc] at hm
    cases hm
  | some c =>
    rw [hc] at hstored hstream
    have hiff := noGap_ingest hs.integrity hs.noGap hstream hstored
    constructor
    · intro hsound c' hm
      rw [hc] at hm
      cases hm
      exact hiff.mp hsound.noGap
    · exact fun hr => ⟨hi,hiff.mpr (hr c (by rw [hc]; rfl))⟩

/-- A stream call, if it returns, resumes from a journaled boundary. -/
def Guard (s : Store) (b : ℕ) (x : Except Exn (Stream U × Store)) : Prop :=
  ∀ r s', x = .ok (r,s') → Resumable s b r

theorem sound_iff_guard {requested : Target} {b : ℕ} {x : Except Exn (Stream U × Store)}
    (hs : Sound U s) (h : ∀ r s', x = .ok (r,s') → Checked B s requested b r s') :
    Sound U (settle s x).2 ↔ Guard s b x := by
  cases x with
  | error e => exact iff_of_true hs nofun
  | ok p =>
    obtain ⟨r,s'⟩ := p
    have hiff := sound_checked hs (h r s' rfl)
    constructor
    · intro hsound r' s'' hx
      cases hx
      exact hiff.mp hsound
    · exact fun hg => hiff.mpr (hg r s' rfl)

theorem subscribe_checked {clock : Clock} {association : Target} {cursor : Option BridgeCursor}
    {limit : Json} {signature : Except Exn Bool} {answer : Answer (Parts U)} {r : Stream U}
    (h : B.subscribe s clock association (some cursor) limit signature answer = .ok (r,s')) :
    B.subscribeArguments s clock.asked association (some cursor) limit = .ok cursor ∧
      Checked B s association (boundary cursor 0) r s' := by
  obtain ⟨cursor1,h1,h⟩ := ok_of_bind h
  obtain ⟨_,-,h⟩ := ok_of_bind h
  have hdeliver := deliver_checked h
  have harg := own_ok.mp h1
  obtain rfl : cursor1 = cursor := by
    obtain ⟨c,hc,hrest⟩ := ok_of_bind harg
    cases hc
    obtain ⟨_,-,hrest⟩ := ok_of_bind hrest
    split at hrest
    · cases hrest
    obtain ⟨_,-,hrest⟩ := ok_of_bind hrest
    obtain ⟨_,-,hrest⟩ := ok_of_bind hrest
    cases hrest
    rfl
  exact ⟨harg,hdeliver⟩

theorem replay_checked {clock : Clock} {window : ReplayWindow} {cursor : Option BridgeCursor}
    {answer : Answer (Parts U)} {r : Stream U}
    (h : B.replay s clock (some window) (some cursor) answer = .ok (r,s')) :
    Checked B s (.text window.association_ref.val) (boundary cursor window.after_sequence.val) r
      s' := by
  obtain ⟨⟨w,c⟩,h1,h⟩ := ok_of_bind h
  obtain ⟨w',hw,h1⟩ := ok_of_bind (own_ok.mp h1)
  cases hw
  obtain ⟨c',hc,h1⟩ := ok_of_bind h1
  cases hc
  obtain ⟨_,-,h1⟩ := ok_of_bind h1
  cases h1
  exact deliver_checked h

/-! ## Reconciling -/

theorem of_storedSnapshot {t : Ref} {old : SessionSnapshot} (hi : Integrity U s)
    (h : s.storedSnapshot (some t.val) = .ok (some old)) :
    ∃ row, s.associations.lookup t = some row ∧ Holds row t old := by
  rw [Store.storedSnapshot, Store.associationRow, dif_pos t.property] at h
  cases hl : s.associations.lookup t with
  | none => rw [hl] at h; cases h
  | some row =>
    obtain ⟨o,ho⟩ := hi.associations t row hl
    rw [hl] at h
    dsimp only at h
    rw [ho.decode] at h
    cases h
    exact ⟨row,rfl,ho⟩

/-- A snapshot that is stored has the epoch of the one that it finds. -/
theorem association_epoch {snapshot old : SessionSnapshot} {row : AssociationRow}
    (h : s.association (U := U) snapshot = .ok s')
    (hl : s.associations.lookup snapshot.association_ref = some row)
    (ho : Holds row snapshot.association_ref old) : old.stream_epoch = snapshot.stream_epoch := by
  rw [Store.association] at h
  split at h
  · cases h
  obtain ⟨record,-,h⟩ := ok_of_bind h
  rw [hl] at h
  obtain ⟨old',hdec,h⟩ := ok_of_bind h
  rw [ho.decode] at hdec
  cases hdec
  dsimp only at h
  split at h
  · cases h
  · rename_i hc
    simp only [not_or, not_not, ne_eq] at hc
    exact hc.2.2.2

theorem ingest_epoch {snapshot old : SessionSnapshot} {row : AssociationRow}
    {events : List (BridgeEvent U)} {cursor : Option BridgeCursor}
    (h : s.ingest L snapshot events cursor = .ok s')
    (hl : s.associations.lookup snapshot.association_ref = some row)
    (ho : Holds row snapshot.association_ref old) : old.stream_epoch = snapshot.stream_epoch := by
  rw [Store.ingest] at h
  split at h
  · cases h
  obtain ⟨s1,h1,-⟩ := ok_of_bind h
  exact association_epoch h1 hl ho

/-- The cursor of a stream call is of the stored snapshot's association and epoch. -/
theorem of_subscribeArguments {now : ℤ} {association : Target} {c : BridgeCursor} {limit : Json}
    (h : B.subscribeArguments s now association (some (some c)) limit = .ok (some c)) :
    association.ref = some c.association_ref.val ∧ ∃ old,
      s.storedSnapshot association.ref = .ok (some old) ∧
        some c.stream_epoch = old.stream_epoch := by
  obtain ⟨c',hc,h⟩ := ok_of_bind h
  cases hc
  obtain ⟨requested,hreq,h⟩ := ok_of_bind h
  split at h
  · cases h
  rename_i hepoch
  obtain ⟨_,hb,h⟩ := ok_of_bind h
  rw [validateCursorBinding] at hb
  split at hb
  · cases hb
  rename_i hassoc
  split at hb
  · cases hb
  rename_i hsame
  rw [not_not] at hassoc
  simp only [Option.isSome_some, true_and] at hepoch
  rw [not_and, not_not] at hsame
  cases requested with
  | none => exact absurd rfl hepoch
  | some old => exact ⟨hassoc.symm,old,hreq,hsame hepoch⟩

/-- A snapshot that is bound to a target has its reference. -/
theorem of_validateBinding {requested : Target} {snapshot : SessionSnapshot}
    {events : List (BridgeEvent U)} {a : Ref} (hi : Integrity U s)
    (ha : requested.ref = some a.val)
    (h : s.validateBinding requested snapshot events = .ok ()) : snapshot.association_ref = a := by
  obtain ⟨expected,he,h⟩ := ok_of_bind h
  split at h
  · cases h
  rename_i hsame
  rw [not_not] at hsame
  subst hsame
  cases requested with
  | association o =>
    rw [Store.expectedBinding, Except.ok.injEq, Option.some.injEq, SessionSnapshot.binding,
      Prod.mk.injEq] at he
    rw [Target.ref, he.1] at ha
    exact Subtype.ext (Option.some.inj ha)
  | text t =>
    rw [Target.ref, Option.some.injEq] at ha
    subst ha
    obtain ⟨old,hold,he⟩ := ok_of_bind he
    cases old with
    | none => cases he
    | some old =>
      obtain ⟨row,-,ho⟩ := of_storedSnapshot hi hold
      rw [Option.map_some, Except.ok.injEq, Option.some.injEq, SessionSnapshot.binding,
        SessionSnapshot.binding, Prod.mk.injEq] at he
      rw [← Option.some.inj he.1]
      exact ho.ref

/-- The journal's own cursor is a journaled boundary. -/
theorem guard_resume {clock : Clock} {association : Target} {snap : SessionSnapshot}
    {signature : Except Exn Bool} {answer : Answer (Parts U)} {cursor : Option BridgeCursor}
    (hs : Sound U s) (hc : s.cursor snap.association_ref B.observer.observer_ref = .ok cursor) :
    Guard s (boundary cursor 0)
      (B.subscribe s clock association (some cursor) .null signature answer) := by
  intro r s' hx
  obtain ⟨harg,hchecked⟩ := subscribe_checked hx
  cases cursor with
  | none => exact resumable_zero r
  | some c =>
    obtain ⟨haref,old,hold,hepoch⟩ := of_subscribeArguments harg
    -- The stored row that the cursor was read from.
    rw [Store.cursor] at hc
    split at hc
    · cases hc
    rename_i row hrow
    obtain ⟨o,-,hlookup⟩ := Option.bind_eq_some_iff.mp hrow
    split at hc
    · rename_i c' hread
      cases hc
      obtain ⟨c0,hrec,hkey,hseq⟩ := hs.integrity.cursors _ row hlookup
      rw [hrec] at hread
      obtain ⟨hra,-,hrn,hre⟩ := BridgeCursor.of_wire hread
      have hcovered := hs.noGap _ row hlookup c0 hrec
      -- The result is of its association and of its epoch.
      have hassoc : r.snapshot.association_ref = c.association_ref :=
        of_validateBinding hs.integrity haref hchecked.binding
      rw [haref] at hold
      obtain ⟨held,hheld,hholds⟩ := of_storedSnapshot hs.integrity hold
      rw [← hassoc] at hheld hholds
      have hsnap := ingest_epoch hchecked.stored hheld hholds
      intro d hd _ k h1 hk
      have hstream := hchecked.stream
      rw [Option.mem_def.mp hd] at hstream
      obtain ⟨n,-,-,hda,hde⟩ := of_validateStream hstream
      have hkey1 : snap.association_ref = c0.association_ref := (Prod.mk.inj hkey).1.symm
      have hda' : d.association_ref = snap.association_ref := by
        rw [hda, hassoc, hra, hkey1]
      have hde' : d.stream_epoch = c0.stream_epoch := by
        rw [← hre]
        exact Option.some.inj (hde.trans (hsnap.symm.trans hepoch.symm))
      rw [hda', hde']
      refine hcovered k h1 ?_
      have hb : boundary (some c) 0 = row.last_sequence := by
        rw [hseq, ← hrn]
        rfl
      omega
    · cases hc

theorem sound_resume {clock : Clock} {association : Target} {snap : SessionSnapshot}
    {signature : Except Exn Bool} {answer : Answer (Parts U)} (hs : Sound U s) :
    Sound U (settle s (B.resume s clock association snap signature answer)).2 := by
  refine settle_keeps hs fun r s' h => ?_
  obtain ⟨cursor,hc,h⟩ := ok_of_bind h
  have hguard := @guard_resume U s B clock association snap signature answer cursor hs
    (own_ok.mp hc)
  exact (sound_checked hs (subscribe_checked h).2).mpr (hguard r s' h)

theorem sound_reconcile {clock : Clock} {association : Target}
    {snapshotAnswer : Answer SessionSnapshot} {signature : Except Exn Bool}
    {answer : Answer (Parts U)} (hs : Sound U s) :
    Sound U (B.reconcile s clock association snapshotAnswer signature answer).2 := by
  rw [reconcile]
  cases h : B.snapshot s U association snapshotAnswer with
  | error e => exact hs
  | ok p => exact sound_resume ((plain_snapshot h).sound hs)

/-! ## Runs -/

/-- The calls that keep the rule: a stream call, if it returns, starts at a journaled boundary
as far as it puts a new cursor. -/
def Resumes (B : FleetGatewayBridge) (s : Store) : Call U → Prop
  | .subscribe clock association (some cursor) limit signature answer =>
    Guard s (boundary cursor 0)
      (B.subscribe s clock association (some cursor) limit signature answer)
  | .replay clock (some window) (some cursor) answer =>
    Guard s (boundary cursor window.after_sequence.val)
      (B.replay s clock (some window) (some cursor) answer)
  | _ => True

/-- A call keeps the rule if and only if it resumes from what the journal has. -/
theorem sound_step (hs : Sound U s) (c : Call U) : Sound U (B.step s c) ↔ B.Resumes s c := by
  cases c with
  | attach activation binding operation_key consumed answer =>
    exact iff_of_true (settle_keeps hs fun a s' h => (plain_attach h).sound hs) trivial
  | snapshot association answer =>
    exact iff_of_true (settle_keeps hs fun a s' h => (plain_snapshot h).sound hs) trivial
  | subscribe clock association cursor limit signature answer =>
    cases cursor with
    | none => exact iff_of_true hs trivial
    | some cursor => exact sound_iff_guard hs fun r s' h => (subscribe_checked h).2
  | replay clock window cursor answer =>
    cases window with
    | none => exact iff_of_true hs trivial
    | some window =>
      cases cursor with
      | none => exact iff_of_true hs trivial
      | some cursor => exact sound_iff_guard hs fun r s' h => replay_checked h
  | heartbeat association answer =>
    exact iff_of_true (settle_keeps hs fun a s' h => (plain_heartbeat h).sound hs) trivial
  | reconcile clock association snapshotAnswer signature answer =>
    exact iff_of_true (sound_reconcile hs) trivial
  | detach revoked paths =>
    exact iff_of_true (settle_keeps hs fun a s' h => (plain_detach h).sound hs) trivial
  | ack event_id =>
    exact iff_of_true (settle_keeps hs fun a s' h => (plain_acked B.limits h).sound hs) trivial

theorem subscribe_integrity {clock : Clock} {association : Target}
    {cursor : Object (Option BridgeCursor)} {limit : Json} {signature : Except Exn Bool}
    {answer : Answer (Parts U)} (hi : Integrity U s) :
    Integrity U (settle s (B.subscribe s clock association cursor limit signature answer)).2 := by
  cases cursor with
  | none => exact hi
  | some cursor => exact settle_keeps hi fun r s' h => (subscribe_checked h).2.integrity hi

theorem integrity_step (hi : Integrity U s) (c : Call U) : Integrity U (B.step s c) := by
  cases c with
  | attach activation binding operation_key consumed answer =>
    exact settle_keeps hi fun a s' h => (plain_attach h).integrity hi
  | snapshot association answer => exact settle_keeps hi fun a s' h => (plain_snapshot h).integrity hi
  | subscribe clock association cursor limit signature answer => exact subscribe_integrity hi
  | replay clock window cursor answer =>
    cases window with
    | none => exact hi
    | some window =>
      cases cursor with
      | none => exact hi
      | some cursor => exact settle_keeps hi fun r s' h => (replay_checked h).integrity hi
  | heartbeat association answer => exact settle_keeps hi fun a s' h => (plain_heartbeat h).integrity hi
  | reconcile clock association snapshotAnswer signature answer =>
    show Integrity U (B.reconcile s clock association snapshotAnswer signature answer).2
    rw [reconcile]
    cases h : B.snapshot s U association snapshotAnswer with
    | error e => exact hi
    | ok p =>
      have hi1 := (plain_snapshot h).integrity hi
      refine settle_keeps hi1 fun r s' h => ?_
      obtain ⟨cursor,-,h⟩ := ok_of_bind h
      exact (subscribe_checked h).2.integrity hi1
  | detach revoked paths => exact settle_keeps hi fun a s' h => (plain_detach h).integrity hi
  | ack event_id =>
    exact settle_keeps hi fun a s' h => (plain_acked B.limits h).integrity hi

theorem integrity_run (B : FleetGatewayBridge) (calls : List (Call U)) :
    Guarded.EachState B.step (Integrity U) Store.empty calls :=
  @Guarded.eachState Store (Call U) B.step (Integrity U) Store.empty
    (fun _ c hs => integrity_step hs c) integrity_empty calls

/-- In a run of the bridge from the empty journal, no stored cursor ever passes an event that
the journal misses, if and only if each stream call that returns with a new cursor starts at
a journaled boundary. -/
theorem noGap_iff (B : FleetGatewayBridge) (calls : List (Call U)) :
    Guarded.EachState B.step (NoGap U) Store.empty calls ↔
      Guarded.EachStep B.step B.Resumes Store.empty calls := by
  have hi := integrity_run B calls
  have hiff := @Guarded.guarded_iff Store (Call U) B.step (Sound U) Store.empty B.Resumes
    (fun _ _ => True) (fun s c hs => by rw [sound_step hs c, and_true]) sound_empty calls
  constructor
  · intro h
    exact hiff.mpr ⟨fun before hp => ⟨hi before hp,h before hp⟩,fun _ _ _ => trivial⟩
  · intro h before hp
    exact ((hiff.mp h).1 before hp).noGap

namespace Skipping

def session : Ref := ⟨"session-1",by decide +kernel⟩
def association : Ref := ⟨"assoc-1",by decide +kernel⟩
def subscriber : Ref := ⟨"observer-1",by decide +kernel⟩
def epoch : Ref := ⟨"epoch-1",by decide +kernel⟩
def fifty : Sequence := ⟨50,by decide⟩

def bridge : FleetGatewayBridge := ⟨⟨some subscriber,none,none⟩,⟨1024,1024⟩⟩

def snapshot (n : Sequence) : SessionSnapshot :=
  ⟨session,association,.userOwnedSession,⟨"observing",by decide⟩,some epoch,n,⟨0,by decide⟩⟩

def cursor : BridgeCursor where
  association_ref := association
  subscriber_ref := subscriber
  stream_epoch := epoch
  last_sequence := fifty
  issued_at := ⟨"2026-01-01T00:00:00Z",by decide +kernel⟩
  expires_at := ⟨"2026-01-02T00:00:00Z",by decide +kernel⟩
  interval := by decide +kernel

def binding : Json :=
  .obj [("owner_ref",.str "owner-1"), ("profile_ref",.str "profile-1"),
    ("workspace_ref",.str "workspace-1"), ("session_ref",.str "session-1"),
    ("association_ref",.str "assoc-1"), ("purpose",.str "pd_observation")]

/-- An attached association, replayed after its fiftieth event; nothing is delivered. -/
def calls : List (Call plainForm) :=
  [.attach (.object (.str "activation-1")) binding .null
      (.ok (some ⟨some association,some session,none,none,none,.userOwnedSession⟩))
      (.ok (some (snapshot ⟨0,by decide⟩))),
    .replay ⟨0,0⟩ (some ⟨association,epoch,fifty,⟨100,by decide⟩⟩) (some none)
      (.ok (some ⟨some (snapshot fifty),[],some (some cursor)⟩))]

end Skipping

/-- A replay from a window that the journal has not reached leaves a cursor past events that
the journal misses. -/
theorem skipped_window_gap :
    ¬ Guarded.EachState Skipping.bridge.step (NoGap plainForm) Store.empty Skipping.calls := by
  intro h
  have hgap := h Skipping.calls (List.prefix_refl _)
  have hevents : (Skipping.calls.foldl Skipping.bridge.step Store.empty).events.length = 0 := by
    decide +kernel
  have hlast : ((Skipping.calls.foldl Skipping.bridge.step Store.empty).cursors.lookup
      (Skipping.association,Skipping.subscriber)).map (·.last_sequence) = some 50 := by
    decide +kernel
  obtain ⟨row,hrow,hseq⟩ := Option.map_eq_some_iff.mp hlast
  have hi := integrity_run Skipping.bridge Skipping.calls Skipping.calls (List.prefix_refl _)
  obtain ⟨c,hrec,-,-⟩ := hi.cursors _ row hrow
  obtain ⟨r,hr,-⟩ := hgap _ row hrow c hrec 1 (le_refl 1) (by omega)
  rw [List.length_eq_zero_iff.mp hevents] at hr
  cases hr

end FleetGatewayBridge

end PdFleet.Bridge
