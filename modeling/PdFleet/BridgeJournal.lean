import PdFleet.BridgeStore

/-!
# What the journal keeps

The tables stay consistent with each other, and a later journal extends an earlier one: its
events, the states of its associations and its cursors.
-/

set_option autoImplicit false

namespace PdFleet.Bridge

variable {U : Nfc}

theorem storeRecord_ok {o : Contract U} {r : Json} (h : storeRecord o = .ok r) :
    ∃ d, o.toDict U = .ok d ∧ freeze false 0 d = .ok () ∧ r = normal U d := by
  obtain ⟨d,hd,h⟩ := ok_of_bind h
  obtain ⟨w,hw,h⟩ := ok_of_bind h
  obtain ⟨u,hf,hs⟩ := ok_of_bind hw
  split at h
  · cases h
  · cases h
    exact ⟨d,hd,hf,(serialize_iff.mp (recast_ok.mp hs)).1⟩

theorem storeRecord_snapshot {o : SessionSnapshot} {r : Json}
    (h : storeRecord (U := U) (.snapshot o) = .ok r) : r = .obj o.attributes := by
  obtain ⟨d,hd,-,rfl⟩ := storeRecord_ok h
  obtain ⟨rfl,-⟩ := serialize_iff.mp hd
  rw [normal_idem, o.flat.normal_eq]

theorem storeRecord_cursor {o : BridgeCursor} {r : Json}
    (h : storeRecord (U := U) (.cursor o) = .ok r) : r = .obj (o.wire U) := by
  obtain ⟨d,hd,-,rfl⟩ := storeRecord_ok h
  obtain ⟨rfl,-⟩ := serialize_iff.mp hd
  rw [normal_idem, o.normal_attributes]

theorem SessionSnapshot.fromDict_self (o : SessionSnapshot) : fromDict (.obj o.attributes) = .ok o :=
  o.fromDict_of (fun _ => rfl) (fun _ he => List.mem_map_of_mem he)

/-- A cursor that is read back from a wire form has its references and its sequence. -/
theorem BridgeCursor.of_wire {o o' : BridgeCursor} (h : fromDict (.obj (o.wire U)) = .ok o') :
    o'.association_ref = o.association_ref ∧ o'.subscriber_ref = o.subscriber_ref ∧
      o'.last_sequence = o.last_sequence ∧ o'.stream_epoch = o.stream_epoch := by
  rw [o.fromDict_eq (fun _ => rfl) (fun _ he => List.mem_map_of_mem he), make] at h
  obtain ⟨_,-,h⟩ := ok_of_bind h
  obtain ⟨a,ha,h⟩ := ok_of_bind h
  obtain ⟨b,hb,h⟩ := ok_of_bind h
  obtain ⟨e,he,h⟩ := ok_of_bind h
  obtain ⟨n,hn,h⟩ := ok_of_bind h
  obtain ⟨_,-,h⟩ := ok_of_bind h
  obtain ⟨_,-,h⟩ := ok_of_bind h
  obtain ⟨⟨_⟩,-,h⟩ := ok_of_bind h
  rw [Ref.read] at ha hb he
  rw [integer_val] at hn
  cases ha
  cases hb
  cases he
  cases hn
  cases h
  exact ⟨rfl,rfl,rfl,rfl⟩

/-! ## Consistent tables -/

/-- A row of associations holds a snapshot. -/
structure Holds (row : AssociationRow) (a : Ref) (old : SessionSnapshot) : Prop where
  record : row.record = .obj old.attributes
  ref : old.association_ref = a
  status : row.status = old.status.val
  epoch : old.stream_epoch.map (·.val) = some row.stream_epoch

theorem Holds.fromDict {row : AssociationRow} {a : Ref} {old : SessionSnapshot}
    (h : Holds row a old) : SessionSnapshot.fromDict row.record = .ok old := by
  rw [h.record, old.fromDict_self]

theorem Holds.decode {row : AssociationRow} {a : Ref} {old : SessionSnapshot}
    (h : Holds row a old) : Store.decode row = .ok old := by
  rw [Store.decode, h.fromDict]

theorem Holds.unique {row : AssociationRow} {a : Ref} {old old' : SessionSnapshot}
    (h : Holds row a old) (h' : Holds row a old') : old' = old := by
  have he := h.fromDict
  rw [h'.fromDict] at he
  exact Except.ok.inj he

/-- A row of cursors holds the record of a cursor of its key and sequence. -/
def HoldsCursor (U : Nfc) (key : Ref × Ref) (row : CursorRow) : Prop :=
  ∃ c : BridgeCursor, row.record = .obj (c.wire U) ∧
    (c.association_ref,c.subscriber_ref) = key ∧ row.last_sequence = c.last_sequence.val

structure Integrity (U : Nfc) (s : Store) : Prop where
  /-- Each sequence of an association has at most one event. -/
  places : (s.events.map (fun r => (r.association_ref,r.sequence))).Nodup
  /-- Each id names one event. -/
  ids : (s.events.map (·.event_id)).Nodup
  /-- The outbox has the journaled events once each. -/
  outbox : s.outbox.map (fun o => (o.event_id,o.association_ref,o.record)) =
    s.events.map (fun r => (r.event_id,r.association_ref,r.record))
  associations : ∀ a row, s.associations.lookup a = some row → ∃ old, Holds row a old
  cursors : ∀ key row, s.cursors.lookup key = some row → HoldsCursor U key row

/-! ## Later journals -/

/-- A snapshot that may follow another in the journal. -/
structure Successor (old new : SessionSnapshot) : Prop where
  session : new.session_ref = old.session_ref
  mode : new.ownership_mode = old.ownership_mode
  epoch : new.stream_epoch = old.stream_epoch
  sequence : old.sequence.val ≤ new.sequence.val
  terminal : old.status.val ∈ TERMINAL_STATUSES → new.status.val ∈ TERMINAL_STATUSES

theorem Successor.refl (o : SessionSnapshot) : Successor o o :=
  ⟨rfl,rfl,rfl,le_refl _,id⟩

theorem Successor.trans {a b c : SessionSnapshot} (h : Successor a b) (h' : Successor b c) :
    Successor a c :=
  ⟨h'.session.trans h.session,h'.mode.trans h.mode,h'.epoch.trans h.epoch,
    h.sequence.trans h'.sequence,fun ht => h'.terminal (h.terminal ht)⟩

/-- A later journal has the events of an earlier one, its associations in later states, and
its cursors, none of them earlier. -/
structure Extends (s s' : Store) : Prop where
  events : s.events <+: s'.events
  associations : ∀ a row old, s.associations.lookup a = some row → Holds row a old →
    ∃ row' new, s'.associations.lookup a = some row' ∧ Holds row' a new ∧ Successor old new
  cursors : ∀ key row, s.cursors.lookup key = some row →
    ∃ row', s'.cursors.lookup key = some row' ∧ row.last_sequence ≤ row'.last_sequence

theorem Extends.refl (s : Store) : Extends s s :=
  ⟨List.prefix_refl _,fun _ row old h ho => ⟨row,old,h,ho,Successor.refl old⟩,
    fun _ row h => ⟨row,h,le_refl _⟩⟩

theorem Extends.trans {s s' s'' : Store} (h : Extends s s') (h' : Extends s' s'') :
    Extends s s'' := by
  refine ⟨h.events.trans h'.events,fun a row old hr ho => ?_,fun key row hr => ?_⟩
  · obtain ⟨row',new,hr',ho',hs⟩ := h.associations a row old hr ho
    obtain ⟨row'',new',hr'',ho'',hs'⟩ := h'.associations a row' new hr' ho'
    exact ⟨row'',new',hr'',ho'',hs.trans hs'⟩
  · obtain ⟨row',hr',hl⟩ := h.cursors key row hr
    obtain ⟨row'',hr'',hl'⟩ := h'.cursors key row' hr'
    exact ⟨row'',hr'',hl.trans hl'⟩

/-- The later of two consistent journals. -/
structure Later (U : Nfc) (s s' : Store) : Prop where
  integrity : Integrity U s'
  extends_old : Extends s s'

theorem Later.trans {s s' s'' : Store} (h : Later U s s') (h' : Later U s' s'') :
    Later U s s'' := ⟨h'.integrity,h.extends_old.trans h'.extends_old⟩

theorem later_refl {s : Store} (h : Integrity U s) : Later U s s := ⟨h,Extends.refl s⟩

/-! ## Associations -/

variable {s s' : Store}

theorem later_putAssociation {a : Ref} {row : AssociationRow} {kept : SessionSnapshot}
    (h : Integrity U s) (hk : Holds row a kept)
    (hs : ∀ held old, s.associations.lookup a = some held → Holds held a old →
      Successor old kept) : Later U s (s.putAssociation a row) := by
  constructor
  · refine ⟨h.places,h.ids,h.outbox,fun b row' hr => ?_,h.cursors⟩
    rcases Dict.of_lookup_insert hr with ⟨rfl,rfl⟩ | ⟨-,hr⟩
    · exact ⟨kept,hk⟩
    · exact h.associations b row' hr
  · refine ⟨List.prefix_refl _,fun b held old hr ho => ?_,fun key row' hr => ⟨row',hr,le_refl _⟩⟩
    by_cases hb : b = a
    · subst hb
      exact ⟨row,kept,by simp [Store.putAssociation],hk,hs held old hr ho⟩
    · refine ⟨held,old,?_,ho,Successor.refl old⟩
      rw [Store.putAssociation, AList.lookup_insert_ne hb]
      exact hr

theorem effective_successor {old snapshot : SessionSnapshot}
    (hses : old.session_ref = snapshot.session_ref)
    (hmode : old.ownership_mode = snapshot.ownership_mode)
    (hepoch : old.stream_epoch = snapshot.stream_epoch) :
    Successor old (Store.effective old snapshot) := by
  rw [Store.effective]
  split
  · exact Successor.refl old
  · rename_i h
    rw [not_or, not_lt] at h
    refine ⟨hses.symm,hmode.symm,hepoch.symm,h.1,fun ht => ?_⟩
    by_contra hn
    exact h.2 ⟨ht,hn⟩

/-- What `_association` writes: the snapshot itself or the one it finds. -/
theorem association_spec {snapshot : SessionSnapshot}
    (h : s.association (U := U) snapshot = .ok s') (hi : Integrity U s) :
    ∃ row kept, s' = s.putAssociation snapshot.association_ref row ∧
      Holds row snapshot.association_ref kept ∧
      ∀ held old, s.associations.lookup snapshot.association_ref = some held →
        Holds held snapshot.association_ref old → Successor old kept := by
  rw [Store.association] at h
  cases he : snapshot.stream_epoch with
  | none => rw [he] at h; cases h
  | some epoch =>
    rw [he] at h
    obtain ⟨record,hrec,h⟩ := ok_of_bind h
    cases hl : s.associations.lookup snapshot.association_ref with
    | none =>
      rw [hl] at h
      dsimp only at h
      split at h
      · cases h
      · cases h
        refine ⟨_,snapshot,rfl,⟨storeRecord_snapshot hrec,rfl,rfl,?_⟩,nofun⟩
        rw [he]
        rfl
    | some held =>
      rw [hl] at h
      obtain ⟨old,hold⟩ := hi.associations _ held hl
      obtain ⟨old',hdec,h⟩ := ok_of_bind h
      rw [hold.decode] at hdec
      cases hdec
      dsimp only at h
      split at h
      · cases h
      · rename_i hc
        simp only [not_or, not_not, ne_eq] at hc
        obtain ⟨-,hses,hmode,hepoch⟩ := hc
        obtain ⟨record',hrec',h⟩ := ok_of_bind h
        cases h
        have hsucc := effective_successor hses hmode (hepoch.trans he.symm)
        have href : (Store.effective old snapshot).association_ref = snapshot.association_ref := by
          rw [Store.effective]
          split
          · exact hold.ref
          · rfl
        refine ⟨_,Store.effective old snapshot,rfl,⟨storeRecord_snapshot hrec',href,rfl,?_⟩,?_⟩
        · rw [hsucc.epoch, hepoch]
          rfl
        · intro held' old'' hl' ho'
          obtain rfl := Option.some.inj hl'
          rw [hold.unique ho']
          exact hsucc

theorem later_association {snapshot : SessionSnapshot}
    (h : s.association (U := U) snapshot = .ok s') (hi : Integrity U s) : Later U s s' := by
  obtain ⟨row,kept,rfl,hk,hs⟩ := association_spec h hi
  exact later_putAssociation hi hk hs

/-! ## Events -/

/-- A row with the place, the id and the text of an event. -/
structure IsRow (r : EventRow) (e : BridgeEvent U) : Prop where
  ref : r.association_ref = e.val.association_ref
  epoch : r.stream_epoch = e.val.stream_epoch
  sequence : r.sequence = e.val.sequence.val
  id : r.event_id = e.val.event_id
  text : ∃ enc, storeRecord (.event e) = .ok enc ∧ dumps r.record = dumps enc

/-- The tables with one more event. -/
def Store.append (s : Store) (row : EventRow) : Store :=
  { s with events := s.events++[row], outbox := s.outbox++[row.outboxRow] }

theorem atSlot_none {a epoch : Ref} {n : ℕ} : s.atSlot a epoch n = none ↔
    ∀ r ∈ s.events, ¬ (r.association_ref = a ∧ r.stream_epoch = epoch ∧ r.sequence = n) := by
  simp [Store.atSlot]

theorem atSequence_none {a : Ref} {n : ℕ} : s.atSequence a n = none ↔
    ∀ r ∈ s.events, ¬ (r.association_ref = a ∧ r.sequence = n) := by
  simp [Store.atSequence]

theorem byId_none {i : Ref} : s.byId i = none ↔ ∀ r ∈ s.events, r.event_id ≠ i := by
  simp [Store.byId]

theorem of_atSlot {a epoch : Ref} {n : ℕ} {r : EventRow} (h : s.atSlot a epoch n = some r) :
    r ∈ s.events ∧ r.association_ref = a ∧ r.stream_epoch = epoch ∧ r.sequence = n :=
  ⟨List.mem_of_find?_eq_some h,by simpa using List.find?_some h⟩

theorem of_atSequence {a : Ref} {n : ℕ} {r : EventRow} (h : s.atSequence a n = some r) :
    r ∈ s.events ∧ r.association_ref = a ∧ r.sequence = n :=
  ⟨List.mem_of_find?_eq_some h,by simpa using List.find?_some h⟩

theorem of_byId {i : Ref} {r : EventRow} (h : s.byId i = some r) :
    r ∈ s.events ∧ r.event_id = i :=
  ⟨List.mem_of_find?_eq_some h,by simpa using List.find?_some h⟩

theorem Integrity.place_unique (h : Integrity U s) {r r' : EventRow} (hr : r ∈ s.events)
    (hr' : r' ∈ s.events) (ha : r.association_ref = r'.association_ref)
    (hn : r.sequence = r'.sequence) : r = r' :=
  List.inj_on_of_nodup_map h.places hr hr' (Prod.ext ha hn)

theorem Integrity.id_unique (h : Integrity U s) {r r' : EventRow} (hr : r ∈ s.events)
    (hr' : r' ∈ s.events) (hid : r.event_id = r'.event_id) : r = r' :=
  List.inj_on_of_nodup_map h.ids hr hr' hid

/-- An outbox row is that of an event. -/
theorem Integrity.event_of_outbox (h : Integrity U s) {o : OutboxRow} (ho : o ∈ s.outbox) :
    ∃ r ∈ s.events, r.event_id = o.event_id ∧ r.association_ref = o.association_ref ∧
      r.record = o.record := by
  have hm : (o.event_id,o.association_ref,o.record) ∈
      s.events.map (fun r => (r.event_id,r.association_ref,r.record)) :=
    h.outbox ▸ List.mem_map_of_mem ho
  obtain ⟨r,hr,he⟩ := List.mem_map.mp hm
  simp only [Prod.mk.injEq] at he
  exact ⟨r,hr,he⟩

theorem Integrity.outbox_of_event (h : Integrity U s) {r : EventRow} (hr : r ∈ s.events) :
    ∃ o ∈ s.outbox, o.event_id = r.event_id := by
  have hm : (r.event_id,r.association_ref,r.record) ∈
      s.outbox.map (fun o => (o.event_id,o.association_ref,o.record)) :=
    h.outbox ▸ List.mem_map_of_mem hr
  obtain ⟨o,ho,he⟩ := List.mem_map.mp hm
  exact ⟨o,ho,(Prod.mk.inj he).1⟩

/-- Writing an event whose id no event of its association has: its id is new, and it is
appended to both tables. -/
theorem write_spec {row : EventRow} (hi : Integrity U s)
    (hid : ∀ r ∈ s.events, r.event_id = row.event_id → r.association_ref ≠ row.association_ref)
    (h : (s.insertEvent row >>= fun s => s.outboxEvent row) = .ok s') :
    s' = s.append row ∧ (∀ r ∈ s.events, r.event_id ≠ row.event_id) ∧
      row.association_ref ∈ s.associations := by
  obtain ⟨s1,h1,h⟩ := ok_of_bind h
  rw [Store.insertEvent] at h1
  split at h1
  · cases h1
  rename_i hc
  cases h1
  rw [not_or, not_not] at hc
  rw [Store.outboxEvent] at h
  split at h
  · rename_i o ho
    have hmem : o ∈ s.outbox := List.mem_of_find?_eq_some ho
    have hoid : o.event_id = row.event_id := by simpa using List.find?_some ho
    split at h
    · cases h
    · rename_i hsame
      rw [not_or, not_not] at hsame
      obtain ⟨r,hr,hrid,hra,-⟩ := hi.event_of_outbox hmem
      exact absurd (hra.trans hsame.1) (hid r hr (hrid.trans hoid))
  · rename_i ho
    have hfresh : ∀ r ∈ s.events, r.event_id ≠ row.event_id := by
      intro r hr he
      obtain ⟨o,hmem,hoid⟩ := hi.outbox_of_event hr
      have := List.find?_eq_none.mp ho o hmem
      simp [hoid, he] at this
    split at h
    · cases h
    · cases h
      exact ⟨rfl,hfresh,hc.1⟩

theorem later_append {row : EventRow} (hi : Integrity U s)
    (hplace : ∀ r ∈ s.events, ¬ (r.association_ref = row.association_ref ∧
      r.sequence = row.sequence))
    (hid : ∀ r ∈ s.events, r.event_id ≠ row.event_id) : Later U s (s.append row) := by
  constructor
  · refine ⟨?_,?_,?_,hi.associations,hi.cursors⟩
    · rw [Store.append, List.map_append, List.nodup_append]
      refine ⟨hi.places,by simp,?_⟩
      rintro _ ha _ hb rfl
      obtain ⟨r,hr,he⟩ := List.mem_map.mp ha
      rw [List.map_singleton, List.mem_singleton] at hb
      rw [hb] at he
      exact hplace r hr (Prod.mk.inj he)
    · rw [Store.append, List.map_append, List.nodup_append]
      refine ⟨hi.ids,by simp,?_⟩
      rintro _ ha _ hb rfl
      obtain ⟨r,hr,he⟩ := List.mem_map.mp ha
      rw [List.map_singleton, List.mem_singleton] at hb
      exact hid r hr (he.trans hb)
    · rw [Store.append, List.map_append, List.map_append, hi.outbox]
      rfl
  · exact ⟨List.prefix_append _ _,fun _ held old hr ho => ⟨held,old,hr,ho,Successor.refl old⟩,
      fun _ row' hr => ⟨row',hr,le_refl _⟩⟩

theorem conflict_free (row : EventRow) {r : EventRow} (h : s.sequenceConflict row = false)
    (hr : s.atSequence row.association_ref row.sequence = some r) :
    r.stream_epoch = row.stream_epoch ∧ r.event_id = row.event_id ∧
      dumps r.record = dumps row.record := by
  rw [Store.sequenceConflict, hr] at h
  simpa [not_or] using h

theorem id_conflict_free (row : EventRow) {r : EventRow} (h : s.idConflict row = false)
    (hr : s.byId row.event_id = some r) :
    r.association_ref = row.association_ref ∧ r.stream_epoch = row.stream_epoch ∧
      r.sequence = row.sequence ∧ dumps r.record = dumps row.record := by
  rw [Store.idConflict, hr] at h
  simpa [not_or] using h

variable {L : Limits}

/-- What one event does to the journal: nothing if it is there, and else it is appended. -/
theorem ingestEvent_spec {e : BridgeEvent U} (hi : Integrity U s)
    (h : s.ingestEvent L e = .ok s') : ∃ enc, storeRecord (.event e) = .ok enc ∧
      ((s' = s ∧ ∃ r ∈ s.events, IsRow r e) ∨
        (s' = s.append (eventRow e enc) ∧
          (∀ r ∈ s.events, ¬ (r.association_ref = e.val.association_ref ∧
            r.sequence = e.val.sequence.val)) ∧
          (∀ r ∈ s.events, r.event_id ≠ e.val.event_id) ∧
          e.val.association_ref ∈ s.associations)) := by
  obtain ⟨enc,henc,h⟩ := ok_of_bind h
  refine ⟨enc,henc,?_⟩
  dsimp only at h
  split at h
  · cases h
  rename_i hseq
  rw [Bool.not_eq_true] at hseq
  split at h
  · rename_i r hslot
    obtain ⟨hmem,ha,hep,hn⟩ := of_atSlot hslot
    split at h
    · cases h
    · rename_i hsame
      rw [not_or, not_not, not_not] at hsame
      cases h
      exact Or.inl ⟨rfl,r,hmem,ha,hep,hn,hsame.1,enc,henc,hsame.2⟩
  · rename_i hslot
    split at h
    · cases h
    rename_i hidc
    rw [Bool.not_eq_true] at hidc
    obtain ⟨_,-,h⟩ := ok_of_bind h
    -- The slot of the event is free, and with it its sequence and its id.
    have hplace : s.atSequence e.val.association_ref e.val.sequence.val = none := by
      cases hat : s.atSequence e.val.association_ref e.val.sequence.val with
      | none => rfl
      | some r =>
        obtain ⟨hmem,ha,hn⟩ := of_atSequence hat
        obtain ⟨hep,-,-⟩ := conflict_free (eventRow e enc) hseq hat
        exact absurd ⟨ha,hep,hn⟩ (atSlot_none.mp hslot r hmem)
    have hid : ∀ r ∈ s.events, r.event_id ≠ e.val.event_id := by
      cases hby : s.byId e.val.event_id with
      | none => exact byId_none.mp hby
      | some r =>
        obtain ⟨hmem,-⟩ := of_byId hby
        obtain ⟨ha,-,hn,-⟩ := id_conflict_free (eventRow e enc) hidc hby
        exact absurd ⟨ha,hn⟩ (atSequence_none.mp hplace r hmem)
    obtain ⟨rfl,-,hassoc⟩ := write_spec hi (fun r hr he => absurd he (hid r hr)) h
    exact Or.inr ⟨rfl,atSequence_none.mp hplace,hid,hassoc⟩

theorem isRow_eventRow {e : BridgeEvent U} {enc : Json} (h : storeRecord (.event e) = .ok enc) :
    IsRow (eventRow e enc) e := ⟨rfl,rfl,rfl,rfl,enc,h,rfl⟩

theorem later_ingestEvent {e : BridgeEvent U} (hi : Integrity U s)
    (h : s.ingestEvent L e = .ok s') : Later U s s' ∧ ∃ r ∈ s'.events, IsRow r e := by
  obtain ⟨enc,henc,⟨rfl,hr⟩ | ⟨rfl,hplace,hid,-⟩⟩ := ingestEvent_spec hi h
  · exact ⟨later_refl hi,hr⟩
  · exact ⟨later_append hi hplace hid,eventRow e enc,by simp [Store.append],isRow_eventRow henc⟩

theorem later_ingestAll {events : List (BridgeEvent U)} (hi : Integrity U s)
    (h : events.foldlM (Store.ingestEvent L) s = .ok s') :
    Later U s s' ∧ ∀ e ∈ events, ∃ r ∈ s'.events, IsRow r e := by
  induction events generalizing s with
  | nil =>
    cases h
    exact ⟨later_refl hi,nofun⟩
  | cons e events ih =>
    rw [List.foldlM_cons] at h
    obtain ⟨s1,h1,h⟩ := ok_of_bind h
    obtain ⟨hl,r,hr,hrow⟩ := later_ingestEvent hi h1
    obtain ⟨hl',hrows⟩ := ih hl.integrity h
    refine ⟨hl.trans hl',List.forall_mem_cons.mpr ⟨⟨r,?_,hrow⟩,hrows⟩⟩
    exact hl'.extends_old.events.subset hr

/-! ## Cursors -/

theorem later_putCursorRow {key : Ref × Ref} {row : CursorRow} (hi : Integrity U s)
    (hrow : HoldsCursor U key row)
    (hle : ∀ prior, s.cursors.lookup key = some prior → prior.last_sequence ≤ row.last_sequence) :
    Later U s (s.putCursorRow key row) := by
  constructor
  · refine ⟨hi.places,hi.ids,hi.outbox,hi.associations,fun key' row' hr => ?_⟩
    rcases Dict.of_lookup_insert hr with ⟨rfl,rfl⟩ | ⟨-,hr⟩
    · exact hrow
    · exact hi.cursors key' row' hr
  · refine ⟨List.prefix_refl _,fun _ held old hr ho => ⟨held,old,hr,ho,Successor.refl old⟩,
      fun key' prior hr => ?_⟩
    by_cases hk : key' = key
    · subst hk
      exact ⟨row,by simp [Store.putCursorRow],hle prior hr⟩
    · refine ⟨prior,?_,le_refl _⟩
      rw [Store.putCursorRow, AList.lookup_insert_ne hk]
      exact hr

/-- A cursor that is not ahead of the journal's leaves it, if it can be read back. -/
theorem putCursor_kept {c : BridgeCursor} {prior : CursorRow} (hi : Integrity U s)
    (hl : s.cursors.lookup (c.association_ref,c.subscriber_ref) = some prior)
    (hle : c.last_sequence.val ≤ prior.last_sequence)
    (h : s.putCursor (U := U) c = .ok s') :
    s' = s.putCursorRow (c.association_ref,c.subscriber_ref) prior := by
  obtain ⟨enc,-,h⟩ := ok_of_bind h
  rw [hl] at h
  dsimp only at h
  rw [if_pos hle] at h
  obtain ⟨kept,hk,h⟩ := ok_of_bind h
  obtain ⟨c',hrec,hkey,hseq⟩ := hi.cursors _ prior hl
  rw [hrec] at hk
  obtain ⟨ha,hs,hn,-⟩ := BridgeCursor.of_wire hk
  cases h
  rw [ha, hs, hkey, hn, ← hseq]

theorem putCursor_written {c : BridgeCursor} (h : s.putCursor (U := U) c = .ok s')
    (hl : ∀ prior, s.cursors.lookup (c.association_ref,c.subscriber_ref) = some prior →
      prior.last_sequence < c.last_sequence.val) :
    s' = s.putCursorRow (c.association_ref,c.subscriber_ref)
      ⟨.obj (c.wire U),c.last_sequence.val⟩ := by
  obtain ⟨enc,henc,h⟩ := ok_of_bind h
  obtain rfl := storeRecord_cursor henc
  cases hp : s.cursors.lookup (c.association_ref,c.subscriber_ref) with
  | none =>
    rw [hp] at h
    cases h
    rfl
  | some prior =>
    rw [hp] at h
    dsimp only at h
    rw [if_neg (not_le.mpr (hl prior hp))] at h
    cases h
    rfl

theorem putCursor_spec {c : BridgeCursor} (hi : Integrity U s)
    (h : s.putCursor (U := U) c = .ok s') :
    ∃ row, s' = s.putCursorRow (c.association_ref,c.subscriber_ref) row ∧
      c.last_sequence.val ≤ row.last_sequence ∧ Later U s s' := by
  by_cases hl : ∃ prior, s.cursors.lookup (c.association_ref,c.subscriber_ref) = some prior ∧
      c.last_sequence.val ≤ prior.last_sequence
  · obtain ⟨prior,hp,hle⟩ := hl
    obtain rfl := putCursor_kept hi hp hle h
    refine ⟨prior,rfl,hle,later_putCursorRow hi (hi.cursors _ prior hp) fun prior' hp' => ?_⟩
    rw [hp] at hp'
    cases hp'
    exact le_refl _
  · push Not at hl
    obtain rfl := putCursor_written h hl
    refine ⟨_,rfl,le_refl _,later_putCursorRow hi ⟨c,rfl,rfl,rfl⟩ fun prior hp => ?_⟩
    exact le_of_lt (hl prior hp)

/-! ## The ordinary path -/

/-- A batch that the journal has: its events, and a cursor that is as far. -/
structure Stored (s : Store) (events : List (BridgeEvent U)) (cursor : Option BridgeCursor) :
    Prop where
  events : ∀ e ∈ events, ∃ r ∈ s.events, IsRow r e
  cursor : ∀ c ∈ cursor, ∃ row,
    s.cursors.lookup (c.association_ref,c.subscriber_ref) = some row ∧
      c.last_sequence.val ≤ row.last_sequence

theorem Stored.later {events : List (BridgeEvent U)} {cursor : Option BridgeCursor}
    (h : Stored s events cursor) (hl : Extends s s') : Stored s' events cursor := by
  refine ⟨fun e he => ?_,fun c hc => ?_⟩
  · obtain ⟨r,hr,hrow⟩ := h.events e he
    exact ⟨r,hl.events.subset hr,hrow⟩
  · obtain ⟨row,hr,hle⟩ := h.cursor c hc
    obtain ⟨row',hr',hle'⟩ := hl.cursors _ row hr
    exact ⟨row',hr',hle.trans hle'⟩

theorem later_ingest {snapshot : SessionSnapshot} {events : List (BridgeEvent U)}
    {cursor : Option BridgeCursor} (hi : Integrity U s)
    (h : s.ingest L snapshot events cursor = .ok s') :
    Later U s s' ∧ Stored s' events cursor := by
  rw [Store.ingest] at h
  split at h
  · cases h
  obtain ⟨s1,h1,h⟩ := ok_of_bind h
  have hl1 := later_association h1 hi
  obtain ⟨s2,h2,h⟩ := ok_of_bind h
  obtain ⟨hl2,hrows⟩ := later_ingestAll hl1.integrity h2
  cases cursor with
  | none =>
    cases h
    exact ⟨hl1.trans hl2,hrows,nofun⟩
  | some c =>
    obtain ⟨row,rfl,hle,hl3⟩ := putCursor_spec hl2.integrity h
    refine ⟨(hl1.trans hl2).trans hl3,hrows,?_⟩
    intro c' hc'
    obtain rfl := Option.mem_some_iff.mp hc'
    exact ⟨row,by simp [Store.putCursorRow],hle⟩

/-- Two journals with the same rows of events, of the outbox and of the cursors. -/
structure SameRows (s s' : Store) : Prop where
  events : s'.events = s.events
  outbox : s'.outbox = s.outbox
  cursors : ∀ key, s'.cursors.lookup key = s.cursors.lookup key

theorem ingestEvent_stored {e : BridgeEvent U} {r : EventRow} (hi : Integrity U s)
    (hr : r ∈ s.events) (hrow : IsRow r e) (h : s.ingestEvent L e = .ok s') : s' = s := by
  obtain ⟨enc,-,⟨h,-⟩ | ⟨-,hplace,-⟩⟩ := ingestEvent_spec hi h
  · exact h
  · exact absurd ⟨hrow.ref,hrow.sequence⟩ (hplace r hr)

theorem ingestAll_stored {events : List (BridgeEvent U)} (hi : Integrity U s)
    (hs : ∀ e ∈ events, ∃ r ∈ s.events, IsRow r e)
    (h : events.foldlM (Store.ingestEvent L) s = .ok s') : s' = s := by
  induction events generalizing s' with
  | nil =>
    cases h
    rfl
  | cons e events ih =>
    rw [List.forall_mem_cons] at hs
    rw [List.foldlM_cons] at h
    obtain ⟨s1,h1,hrest⟩ := ok_of_bind h
    obtain ⟨r,hr,hrow⟩ := hs.1
    obtain rfl := ingestEvent_stored hi hr hrow h1
    exact ih hs.2 hrest

/-- A batch that the journal has changes no event, no outbox row and no cursor. -/
theorem ingest_stored {snapshot : SessionSnapshot} {events : List (BridgeEvent U)}
    {cursor : Option BridgeCursor} (hi : Integrity U s) (hs : Stored s events cursor)
    (h : s.ingest L snapshot events cursor = .ok s') : SameRows s s' := by
  rw [Store.ingest] at h
  split at h
  · cases h
  obtain ⟨s1,h1,h⟩ := ok_of_bind h
  have hl1 := later_association h1 hi
  obtain ⟨row,-,rfl,-⟩ := association_spec h1 hi
  obtain ⟨s2,h2,h⟩ := ok_of_bind h
  obtain rfl := ingestAll_stored hl1.integrity hs.events h2
  cases cursor with
  | none =>
    cases h
    exact ⟨rfl,rfl,fun _ => rfl⟩
  | some c =>
    obtain ⟨prior,hp,hle⟩ := hs.cursor c rfl
    obtain rfl := putCursor_kept hl1.integrity hp hle h
    refine ⟨rfl,rfl,fun key => ?_⟩
    show (s.cursors.insert _ prior).lookup key = _
    rw [Dict.lookup_insert_eq]
    split
    · rename_i hk
      rw [hk, hp]
    · rfl

/-! ## The terminal path -/

/-- The only event of a stream that passes is the one after the boundary. -/
theorem sequence_of_validateStream {snapshot : SessionSnapshot} {e : BridgeEvent U} {n : ℕ}
    (h : validateStream snapshot [e] n none = .ok ()) : e.val.sequence.val = n+1 := by
  rw [validateStream, recast_ok, checkStream] at h
  split at h
  · cases h
  split at h
  · cases h
  split at h
  · cases h
  obtain ⟨m,hm,-⟩ := ok_of_bind h
  obtain ⟨m',hm',-⟩ := ok_of_bind hm
  rw [validateEvent] at hm'
  split at hm'
  · cases hm'
  split at hm'
  · cases hm'
  split at hm'
  · cases hm'
  · rename_i hn
    exact not_not.mp hn

/-- What the first loop has found of an event: it is in the journal, or its sequence is free
and follows the boundary of its association. -/
def Planned (s : Store) (t : Store.Terminal) (e : BridgeEvent U) : Prop :=
  (∃ r ∈ s.events, r.event_id = e.val.event_id ∧ r.association_ref = e.val.association_ref ∧
    r.stream_epoch = e.val.stream_epoch ∧ r.sequence = e.val.sequence.val) ∨
  ((∀ r ∈ s.events, r.event_id ≠ e.val.event_id) ∧
    (∀ r ∈ s.events, ¬ (r.association_ref = e.val.association_ref ∧
      r.sequence = e.val.sequence.val)) ∧
    ∃ n, t.expected_by_association.lookup e.val.association_ref = some n ∧
      e.val.sequence.val = n-1+1)

/-- The later collection has the boundaries of the earlier one. -/
def Grown (t t' : Store.Terminal) : Prop :=
  Dict.Sub t.expected_by_association t'.expected_by_association

theorem Planned.grow {t t' : Store.Terminal} {e : BridgeEvent U} (h : Planned s t e)
    (hg : Grown t t') : Planned s t' e := by
  rcases h with h | ⟨h1,h2,n,hn,he⟩
  · exact Or.inl h
  · exact Or.inr ⟨h1,h2,n,hg _ _ hn,he⟩

theorem validateTerminal_spec {t t' : Store.Terminal} {e : BridgeEvent U}
    (h : s.validateTerminal t e = .ok t') : Grown t t' ∧ Planned s t' e := by
  obtain ⟨enc,-,h⟩ := ok_of_bind h
  dsimp only at h
  cases hby : s.byId e.val.event_id with
  | some r =>
    rw [hby, Option.isSome_some, if_pos rfl] at h
    split at h
    · cases h
    · rename_i hc
      rw [Bool.not_eq_true] at hc
      obtain ⟨ha,hep,hn,-⟩ := id_conflict_free (eventRow e enc) hc hby
      obtain ⟨hr,hid⟩ := of_byId hby
      cases h
      exact ⟨fun _ _ hl => hl,Or.inl ⟨r,hr,hid,ha,hep,hn⟩⟩
  | none =>
    rw [hby, Option.isSome_none, if_neg Bool.false_ne_true] at h
    split at h
    · cases h
    obtain ⟨old,-,h⟩ := ok_of_bind h
    split at h
    · cases h
    split at h
    · cases h
    obtain ⟨u,hv,h⟩ := ok_of_bind h
    split at h
    · cases h
    rename_i hc
    rw [Bool.not_eq_true] at hc
    cases h
    have hid := byId_none.mp hby
    have hplace : ∀ r ∈ s.events, ¬ (r.association_ref = e.val.association_ref ∧
        r.sequence = e.val.sequence.val) := by
      refine atSequence_none.mp ?_
      cases hat : s.atSequence e.val.association_ref e.val.sequence.val with
      | none => rfl
      | some r =>
        obtain ⟨hr,-,-⟩ := of_atSequence hat
        exact absurd (conflict_free (eventRow e enc) hc hat).2.1 (hid r hr)
    refine ⟨fun a n hl => ?_,Or.inr ⟨hid,hplace,_,AList.lookup_insert _,?_⟩⟩
    · show (t.expected_by_association.insert _ _).lookup a = _
      rw [Dict.lookup_insert_eq]
      split
      · rename_i ha
        rw [← ha, hl, Option.getD_some]
      · exact hl
    · exact sequence_of_validateStream hv

theorem validateAll_spec {events : List (BridgeEvent U)} {t t' : Store.Terminal}
    (h : events.foldlM s.validateTerminal t = .ok t') :
    Grown t t' ∧ ∀ e ∈ events, Planned s t' e := by
  induction events generalizing t with
  | nil =>
    cases h
    exact ⟨fun _ _ hl => hl,nofun⟩
  | cons e events ih =>
    rw [List.foldlM_cons] at h
    obtain ⟨t1,h1,hrest⟩ := ok_of_bind h
    obtain ⟨hg,hp⟩ := validateTerminal_spec h1
    obtain ⟨hg',hps⟩ := ih hrest
    exact ⟨fun a n hl => hg' a n (hg a n hl),List.forall_mem_cons.mpr ⟨hp.grow hg',hps⟩⟩

/-- A row written by the second loop: its sequence follows the boundary of its association,
and its epoch is that of the association. -/
def Written (t : Store.Terminal) (s : Store) (r : EventRow) : Prop :=
  (∃ n, t.expected_by_association.lookup r.association_ref = some n ∧ r.sequence = n-1+1) ∧
  ∃ row old, s.associations.lookup r.association_ref = some row ∧
    Holds row r.association_ref old ∧ old.stream_epoch = some r.stream_epoch

theorem Written.later {t : Store.Terminal} {r : EventRow} (h : Written t s r)
    (hl : Extends s s') : Written t s' r := by
  obtain ⟨hn,row,old,hr,ho,he⟩ := h
  obtain ⟨row',new,hr',ho',hs⟩ := hl.associations _ row old hr ho
  exact ⟨hn,row',new,hr',ho',hs.epoch.trans he⟩

/-- The journal while the second loop runs. -/
structure Writing (U : Nfc) (s0 : Store) (t : Store.Terminal) (s : Store) : Prop where
  later : Later U s0 s
  events : ∀ r ∈ s.events, r ∈ s0.events ∨ Written t s r

/-- The middle part of the second loop: the event is written, or is there already. -/
theorem writeTerminal_middle {s0 : Store} {t : Store.Terminal} {e : BridgeEvent U} {enc : Json}
    (hw : Writing U s0 t s) (hp : Planned s0 t e) {row : AssociationRow} {old : SessionSnapshot}
    (hrow : s.associations.lookup e.val.association_ref = some row)
    (hold : Holds row e.val.association_ref old) (hep : old.stream_epoch = some e.val.stream_epoch)
    (hslot : s.atSlot e.val.association_ref e.val.stream_epoch e.val.sequence.val = none)
    (h : (s.insertEvent (eventRow e enc) >>= fun s => s.outboxEvent (eventRow e enc)) = .ok s') :
    Writing U s0 t s' ∧ s'.associations = s.associations ∧ s'.cursors = s.cursors := by
  have hfree := atSlot_none.mp hslot
  rcases hp with ⟨r,hr,-,ha,hepr,hn⟩ | ⟨hid0,hplace0,n,hexp,hseq⟩
  · exact absurd ⟨ha,hepr,hn⟩ (hfree r (hw.later.extends_old.events.subset hr))
  have hplace : ∀ r ∈ s.events, ¬ (r.association_ref = e.val.association_ref ∧
      r.sequence = e.val.sequence.val) := by
    rintro r hr ⟨ha,hn⟩
    rcases hw.events r hr with h0 | ⟨-,row',old',hrow',hold',hep'⟩
    · exact hplace0 r h0 ⟨ha,hn⟩
    · rw [ha, hrow] at hrow'
      cases hrow'
      rw [ha] at hold'
      rw [hold.unique hold', hep] at hep'
      exact hfree r hr ⟨ha,(Option.some.inj hep').symm,hn⟩
  have hid : ∀ r ∈ s.events, r.event_id = e.val.event_id →
      r.association_ref ≠ e.val.association_ref := by
    intro r hr he ha
    rcases hw.events r hr with h0 | ⟨⟨m,hm,hmseq⟩,-⟩
    · exact hid0 r h0 he
    · rw [ha, hexp] at hm
      cases hm
      exact hplace r hr ⟨ha,hmseq.trans hseq.symm⟩
  obtain ⟨rfl,hfresh,-⟩ := write_spec hw.later.integrity hid h
  have hl := later_append hw.later.integrity hplace hfresh
  refine ⟨⟨hw.later.trans hl,fun r hr => ?_⟩,rfl,rfl⟩
  rcases List.mem_append.mp hr with hr | hr
  · exact (hw.events r hr).imp id (fun h => h.later hl.extends_old)
  · rw [List.mem_singleton] at hr
    subst hr
    exact Or.inr ⟨⟨n,hexp,hseq⟩,row,old,hrow,hold,hep⟩

theorem detached_successor (old : SessionSnapshot) (n : Sequence) :
    Successor old (Store.detached old n) :=
  ⟨rfl,rfl,rfl,le_max_left _ _,fun _ => List.mem_cons_self⟩

/-- What the second loop does to an event's association, after its middle part. -/
theorem writeTerminal_spec {encoded : Dict Ref Json} {e : BridgeEvent U} (hi : Integrity U s)
    (h : s.writeTerminal L encoded e = .ok s') :
    ∃ row old s1 row' enc, s.associations.lookup e.val.association_ref = some row ∧
      Holds row e.val.association_ref old ∧ old.stream_epoch = some e.val.stream_epoch ∧
      s.writeEvent L (eventRow e enc) = .ok s1 ∧
      s' = s1.putAssociation e.val.association_ref row' ∧
      Holds row' e.val.association_ref (Store.detached old e.val.sequence) := by
  rw [Store.writeTerminal] at h
  cases hl : s.associations.lookup e.val.association_ref with
  | none => rw [hl] at h; cases h
  | some row =>
    rw [hl] at h
    obtain ⟨old,hold⟩ := hi.associations _ row hl
    obtain ⟨old',hdec,h⟩ := ok_of_bind h
    rw [hold.fromDict] at hdec
    cases hdec
    dsimp only at h
    split at h
    · cases h
    rename_i hc
    rw [not_or, not_not] at hc
    obtain ⟨s1,h1,h⟩ := ok_of_bind h
    obtain ⟨record,hrec,h⟩ := ok_of_bind h
    cases h
    refine ⟨row,old,s1,_,_,rfl,hold,hc.2,h1,rfl,storeRecord_snapshot hrec,hold.ref,rfl,?_⟩
    rw [← hold.epoch]
    rfl

theorem writing_terminal {s0 : Store} {t : Store.Terminal} {encoded : Dict Ref Json}
    {e : BridgeEvent U} (hw : Writing U s0 t s) (hp : Planned s0 t e)
    (h : s.writeTerminal L encoded e = .ok s') : Writing U s0 t s' := by
  obtain ⟨row,old,s1,row',enc,hrow,hold,hep,h1,rfl,hnew⟩ := writeTerminal_spec hw.later.integrity h
  -- The middle part leaves the associations as they are.
  have hmid : Writing U s0 t s1 ∧ s1.associations = s.associations := by
    rw [Store.writeEvent] at h1
    split at h1
    · rename_i hslot
      obtain ⟨u,-,h1⟩ := ok_of_bind h1
      obtain ⟨hw1,ha,-⟩ := writeTerminal_middle hw hp hrow hold hep hslot h1
      exact ⟨hw1,ha⟩
    · split at h1
      · cases h1
      · cases h1
        exact ⟨hw,rfl⟩
  obtain ⟨hw1,ha⟩ := hmid
  have hl := later_putAssociation hw1.later.integrity hnew fun held old' hr ho => by
    rw [ha, hrow] at hr
    cases hr
    rw [hold.unique ho]
    exact detached_successor old _
  exact ⟨hw1.later.trans hl,fun r hr => (hw1.events r hr).imp id (fun h => h.later hl.extends_old)⟩

theorem writing_terminals {s0 : Store} {t : Store.Terminal} {encoded : Dict Ref Json}
    {events : List (BridgeEvent U)} (hw : Writing U s0 t s) (hp : ∀ e ∈ events, Planned s0 t e)
    (h : events.foldlM (Store.writeTerminal L encoded) s = .ok s') : Writing U s0 t s' := by
  induction events generalizing s with
  | nil =>
    cases h
    exact hw
  | cons e events ih =>
    rw [List.forall_mem_cons] at hp
    rw [List.foldlM_cons] at h
    obtain ⟨s1,h1,hrest⟩ := ok_of_bind h
    exact ih (writing_terminal hw hp.1 h1) hp.2 hrest

theorem later_ingestEvents {events : List (BridgeEvent U)} (hi : Integrity U s)
    (h : s.ingestEvents L events = .ok s') : Later U s s' := by
  rw [Store.ingestEvents] at h
  split at h
  · cases h
  split at h
  · cases h
  obtain ⟨t,ht,h⟩ := ok_of_bind h
  have hp := (validateAll_spec ht).2
  exact (writing_terminals ⟨later_refl hi,fun r hr => Or.inl hr⟩ hp h).later

/-- A terminal batch that the journal has changes no event, no outbox row and no cursor. -/
theorem ingestEvents_stored {events : List (BridgeEvent U)} (hi : Integrity U s)
    (hs : ∀ e ∈ events, ∃ r ∈ s.events, IsRow r e) (h : s.ingestEvents L events = .ok s') :
    SameRows s s' := by
  have hwrite : ∀ {encoded : Dict Ref Json} {s s' : Store}, Integrity U s →
      (∀ e ∈ events, ∃ r ∈ s.events, IsRow r e) →
      events.foldlM (Store.writeTerminal L encoded) s = .ok s' → SameRows s s' := by
    clear h hs hi
    intro encoded s s' hi hs h
    induction events generalizing s with
    | nil =>
      cases h
      exact ⟨rfl,rfl,fun _ => rfl⟩
    | cons e events ih =>
      rw [List.forall_mem_cons] at hs
      rw [List.foldlM_cons] at h
      obtain ⟨s1,h1,hrest⟩ := ok_of_bind h
      obtain ⟨row,old,s2,row',enc,hrow,hold,hep,h2,rfl,hnew⟩ := writeTerminal_spec hi h1
      obtain ⟨⟨r,hr,his⟩,hrows⟩ := hs
      obtain rfl : s2 = s := by
        rw [Store.writeEvent] at h2
        split at h2
        · rename_i hslot
          exact absurd ⟨his.ref,his.epoch,his.sequence⟩ (atSlot_none.mp hslot r hr)
        · split at h2
          · cases h2
          · cases h2
            rfl
      have hl := later_putAssociation hi hnew fun held old' hr ho => by
        rw [hrow] at hr
        cases hr
        rw [hold.unique ho]
        exact detached_successor old _
      have hsame := ih hl.integrity hrows hrest
      exact ⟨hsame.events,hsame.outbox,hsame.cursors⟩
  rw [Store.ingestEvents] at h
  split at h
  · cases h
  split at h
  · cases h
  obtain ⟨t,-,h⟩ := ok_of_bind h
  exact hwrite hi hs h

/-! ## Acknowledging -/

theorem later_ack {event_id : String} (hi : Integrity U s)
    (h : s.ack (U := U) event_id = .ok s') : Later U s s' := by
  rw [Store.ack] at h
  split at h
  · cases h
  split at h
  · cases h
  cases h
  constructor
  · refine ⟨hi.places,hi.ids,?_,hi.associations,hi.cursors⟩
    rw [← hi.outbox, List.map_map]
    refine List.map_congr_left fun o _ => ?_
    rw [Function.comp_apply]
    split <;> rfl
  · exact ⟨List.prefix_refl _,fun _ row old hr ho => ⟨row,old,hr,ho,Successor.refl old⟩,
      fun _ row hr => ⟨row,hr,le_refl _⟩⟩

/-! ## Runs -/

theorem later_attempt {c : Store.Call U} (hi : Integrity U s) (h : s.attempt L c = .ok s') :
    Later U s s' := by
  cases c with
  | ingest snapshot events cursor => exact (later_ingest hi h).1
  | ingestEvents events => exact later_ingestEvents hi h
  | ack event_id => exact later_ack hi h

theorem later_perform (c : Store.Call U) (hi : Integrity U s) : Later U s (s.perform L c).2 := by
  rw [Store.perform]
  cases h : s.attempt L c with
  | ok s' => exact later_attempt hi h
  | error e => exact later_refl hi

theorem later_run (calls : List (Store.Call U)) (hi : Integrity U s) :
    Later U s (s.run L calls) := by
  induction calls generalizing s with
  | nil => exact later_refl hi
  | cons c calls ih =>
    have h := later_perform (L := L) c hi
    exact h.trans (ih h.integrity)

theorem integrity_empty : Integrity U Store.empty :=
  ⟨List.nodup_nil,List.nodup_nil,rfl,nofun,nofun⟩

theorem run_append (calls more : List (Store.Call U)) :
    s.run L (calls++more) = (s.run L calls).run L more := List.foldl_append

/-- The journal of every run from the empty tables: they are consistent; a call that raises
leaves them; a longer run extends them; a batch that an ingestion has stored stays stored;
and a stored batch, ingested again, changes no event, no outbox row and no cursor. -/
theorem journal_integrity (L : Limits) (calls : List (Store.Call U)) :
    Integrity U (Store.empty.run L calls) ∧
    (∀ (c : Store.Call U) e, ((Store.empty.run L calls).perform L c).1 = .error e →
      ((Store.empty.run L calls).perform L c).2 = Store.empty.run L calls) ∧
    (∀ more : List (Store.Call U),
      Extends (Store.empty.run L calls) (Store.empty.run L (calls++more))) ∧
    (∀ (snapshot : SessionSnapshot) (events : List (BridgeEvent U))
      (cursor : Option BridgeCursor) (more : List (Store.Call U)),
      ((Store.empty.run L calls).perform L (.ingest snapshot events cursor)).1 = .ok () →
      Stored (Store.empty.run L (calls++.ingest snapshot events cursor :: more)) events cursor) ∧
    ∀ (snapshot : SessionSnapshot) (events : List (BridgeEvent U)) (cursor : Option BridgeCursor),
      Stored (Store.empty.run L calls) events cursor →
      SameRows (Store.empty.run L calls)
        ((Store.empty.run L calls).perform L (.ingest snapshot events cursor)).2 ∧
      SameRows (Store.empty.run L calls)
        ((Store.empty.run L calls).perform L (.ingestEvents events)).2 := by
  have hi := (later_run (L := L) calls (integrity_empty (U := U))).integrity
  refine ⟨hi,fun c e h => ?_,fun more => ?_,fun snapshot events cursor more hok => ?_,
    fun snapshot events cursor hstored => ⟨?_,?_⟩⟩
  · rw [Store.perform] at h ⊢
    cases ha : (Store.empty.run L calls).attempt L c with
    | ok s' => rw [ha] at h; cases h
    | error e' => rfl
  · rw [run_append]
    exact (later_run more hi).extends_old
  · rw [run_append]
    generalize Store.empty.run L calls = s at hi hok
    rw [Store.perform] at hok
    cases ha : s.attempt L (.ingest snapshot events cursor) with
    | error e => rw [ha] at hok; cases hok
    | ok s1 =>
      obtain ⟨hl1,hstored⟩ := later_ingest hi ha
      have hrun : s.run L (.ingest snapshot events cursor :: more) = s1.run L more := by
        rw [Store.run, List.foldl_cons, Store.perform, ha]
        rfl
      rw [hrun]
      exact hstored.later (later_run (L := L) more hl1.integrity).extends_old
  · rw [Store.perform]
    cases ha : (Store.empty.run L calls).attempt L (.ingest snapshot events cursor) with
    | error e => exact ⟨rfl,rfl,fun _ => rfl⟩
    | ok s1 => exact ingest_stored hi hstored ha
  · rw [Store.perform]
    cases ha : (Store.empty.run L calls).attempt L (.ingestEvents events) with
    | error e => exact ⟨rfl,rfl,fun _ => rfl⟩
    | ok s1 => exact ingestEvents_stored hi hstored.events ha

end PdFleet.Bridge
