import PdFleet.FleetGatewayBridge
import PdFleet.Lib.Guarded

/-!
# The cursors of the journal and its events

A stored cursor stands for all events up to its sequence. Which calls keep this: those whose
boundary is journaled, and all that store no cursor of a caller's boundary.
-/

set_option autoImplicit false

namespace PdFleet.Bridge

variable {U : Nfc} {s s' : Store} {L : Limits}

/-- The journal has an event of an association, epoch and sequence. -/
def Journaled (s : Store) (a epoch : Ref) (n : ℕ) : Prop :=
  ∃ r ∈ s.events, r.association_ref = a ∧ r.stream_epoch = epoch ∧ r.sequence = n

/-- The journal has the first `n` events. -/
def Covered (s : Store) (a epoch : Ref) (n : ℕ) : Prop :=
  ∀ k, 1 ≤ k → k ≤ n → Journaled s a epoch k

/-- No stored cursor has passed an event that the journal misses. -/
def NoGap (U : Nfc) (s : Store) : Prop :=
  ∀ key row, s.cursors.lookup key = some row → ∀ c : BridgeCursor, row.record = .obj (c.wire U) →
    Covered s key.1 c.stream_epoch row.last_sequence

theorem Journaled.mono {a epoch : Ref} {n : ℕ} (h : Journaled s a epoch n)
    (hs : s.events ⊆ s'.events) : Journaled s' a epoch n := by
  obtain ⟨r,hr,hp⟩ := h
  exact ⟨r,hs hr,hp⟩

theorem Covered.mono {a epoch : Ref} {n : ℕ} (h : Covered s a epoch n)
    (hs : s.events ⊆ s'.events) : Covered s' a epoch n :=
  fun k h1 hk => (h k h1 hk).mono hs

/-- A journal with more events and the same cursors. -/
theorem NoGap.grow (h : NoGap U s) (hs : s.events ⊆ s'.events)
    (hc : ∀ key, s'.cursors.lookup key = s.cursors.lookup key) : NoGap U s' := by
  intro key row hr c hrec
  rw [hc] at hr
  exact (h key row hr c hrec).mono hs

/-! ## Consecutive events -/

/-- An event of a snapshot's association and epoch. -/
def OfStream (snapshot : SessionSnapshot) (e : BridgeEvent U) : Prop :=
  e.val.association_ref = snapshot.association_ref ∧
    some e.val.stream_epoch = snapshot.stream_epoch

/-- Events of a stream, one for each sequence after `b` up to `n`. -/
structure Consecutive (snapshot : SessionSnapshot) (events : List (BridgeEvent U)) (b n : ℕ) :
    Prop where
  places : ∀ e ∈ events, OfStream snapshot e
  later : ∀ e ∈ events, b < e.val.sequence.val
  reached : ∀ k, b < k → k ≤ n → ∃ e ∈ events, e.val.sequence.val = k
  last : (events.getLast?.map (·.val.sequence.val)).getD b = n

theorem of_validateEvent {snapshot : SessionSnapshot} {b n : ℕ} {e : BridgeEvent U}
    (h : validateEvent snapshot b e = .ok n) :
    OfStream snapshot e ∧ e.val.sequence.val = b+1 ∧ n = b+1 := by
  rw [validateEvent] at h
  split at h
  · cases h
  rename_i hplace
  split at h
  · cases h
  split at h
  · cases h
  · rename_i hn
    rw [not_not] at hn
    simp only [not_or, not_not, ne_eq] at hplace
    cases h
    exact ⟨⟨hplace.2.1,hplace.2.2.1⟩,hn,hn⟩

theorem consecutive_of_fold {snapshot : SessionSnapshot} {events : List (BridgeEvent U)} {b n : ℕ}
    (h : events.foldlM (validateEvent snapshot) b = .ok n) : Consecutive snapshot events b n := by
  induction events generalizing b with
  | nil =>
    cases h
    exact ⟨nofun,nofun,fun k h1 h2 => absurd h1 (by omega),rfl⟩
  | cons e events ih =>
    rw [List.foldlM_cons] at h
    obtain ⟨m,hm,h⟩ := ok_of_bind h
    obtain ⟨hplace,hseq,rfl⟩ := of_validateEvent hm
    have hrest := ih h
    refine ⟨List.forall_mem_cons.mpr ⟨hplace,hrest.places⟩,List.forall_mem_cons.mpr ⟨?_,?_⟩,?_,?_⟩
    · omega
    · intro e' he'
      have := hrest.later e' he'
      omega
    · intro k h1 h2
      by_cases hk : k = b+1
      · exact ⟨e,List.mem_cons_self,hseq.trans hk.symm⟩
      · obtain ⟨e',he',hk'⟩ := hrest.reached k (by omega) h2
        exact ⟨e',List.mem_cons_of_mem e he',hk'⟩
    · have hl := hrest.last
      rw [List.getLast?_cons]
      cases hg : events.getLast? with
      | none =>
        rw [hg] at hl
        exact hseq.trans hl
      | some e' =>
        rw [hg] at hl
        exact hl

/-- A stream that passes with a cursor: its events follow the boundary, and the cursor is of
the same stream and not ahead of them. -/
theorem of_validateStream {snapshot : SessionSnapshot} {events : List (BridgeEvent U)} {b : ℕ}
    {c : BridgeCursor} (h : validateStream snapshot events b (some c) = .ok ()) :
    ∃ n, Consecutive snapshot events b n ∧ c.last_sequence.val ≤ n ∧
      c.association_ref = snapshot.association_ref ∧ some c.stream_epoch = snapshot.stream_epoch := by
  rw [validateStream, recast_ok, checkStream] at h
  split at h
  · cases h
  split at h
  · cases h
  split at h
  · cases h
  obtain ⟨n,hn,h⟩ := ok_of_bind h
  have hc := consecutive_of_fold hn
  split at h
  · cases h
  rw [validateCursor] at h
  split at h
  · cases h
  rename_i hsame
  simp only [not_or, not_not, ne_eq] at hsame
  have hlast := hc.last
  refine ⟨n,hc,?_,hsame⟩
  split at h
  · rename_i e he
    split at h
    · cases h
    · rename_i hle
      rw [not_not] at hle
      rw [he] at hlast
      exact (hle.trans hlast).le
  · rename_i he
    split at h
    · cases h
    · rename_i hle
      rw [he] at hlast
      exact (not_lt.mp hle).trans hlast.le

/-! ## What an ingestion adds -/

/-- The later journal has the earlier one's events and those of a batch. -/
structure Adds (s s' : Store) (events : List (BridgeEvent U)) : Prop where
  old : s.events ⊆ s'.events
  stored : ∀ e ∈ events, ∃ r ∈ s'.events, IsRow r e
  new : ∀ r ∈ s'.events, r ∈ s.events ∨ ∃ e ∈ events, IsRow r e

theorem Adds.journaled {events : List (BridgeEvent U)} (h : Adds s s' events) {a epoch : Ref}
    {n : ℕ} : Journaled s' a epoch n ↔ Journaled s a epoch n ∨ ∃ e ∈ events,
      e.val.association_ref = a ∧ e.val.stream_epoch = epoch ∧ e.val.sequence.val = n := by
  constructor
  · rintro ⟨r,hr,hp⟩
    rcases h.new r hr with hold | ⟨e,he,hrow⟩
    · exact Or.inl ⟨r,hold,hp⟩
    · rw [hrow.ref, hrow.epoch, hrow.sequence] at hp
      exact Or.inr ⟨e,he,hp⟩
  · rintro (hj | ⟨e,he,hp⟩)
    · exact hj.mono h.old
    · obtain ⟨r,hr,hrow⟩ := h.stored e he
      rw [← hrow.ref, ← hrow.epoch, ← hrow.sequence] at hp
      exact ⟨r,hr,hp⟩

theorem ingestEvent_adds {e : BridgeEvent U} (hi : Integrity U s)
    (h : s.ingestEvent L e = .ok s') : Adds s s' [e] ∧ s'.cursors = s.cursors := by
  obtain ⟨enc,henc,⟨rfl,r,hr,hrow⟩ | ⟨rfl,-⟩⟩ := ingestEvent_spec hi h
  · refine ⟨⟨fun _ hm => hm,fun e' he' => ?_,fun r hr => Or.inl hr⟩,rfl⟩
    rw [List.mem_singleton.mp he']
    exact ⟨r,hr,hrow⟩
  · refine ⟨⟨List.subset_append_left _ _,fun e' he' => ?_,fun r hr => ?_⟩,rfl⟩
    · rw [List.mem_singleton.mp he']
      exact ⟨eventRow e enc,by simp [Store.append],isRow_eventRow henc⟩
    · rcases List.mem_append.mp hr with hr | hr
      · exact Or.inl hr
      · rw [List.mem_singleton.mp hr]
        exact Or.inr ⟨e,List.mem_singleton_self e,isRow_eventRow henc⟩

theorem ingestAll_adds {events : List (BridgeEvent U)} (hi : Integrity U s)
    (h : events.foldlM (Store.ingestEvent L) s = .ok s') :
    Adds s s' events ∧ s'.cursors = s.cursors := by
  induction events generalizing s with
  | nil =>
    cases h
    exact ⟨⟨fun _ hm => hm,nofun,fun r hr => Or.inl hr⟩,rfl⟩
  | cons e events ih =>
    rw [List.foldlM_cons] at h
    obtain ⟨s1,h1,h⟩ := ok_of_bind h
    obtain ⟨ha,hc⟩ := ingestEvent_adds hi h1
    obtain ⟨ha',hc'⟩ := ih (later_ingestEvent hi h1).1.integrity h
    refine ⟨⟨fun _ hm => ha'.old (ha.old hm),fun e' he' => ?_,fun r hr => ?_⟩,hc'.trans hc⟩
    · rcases List.mem_cons.mp he' with rfl | he'
      · obtain ⟨r,hr,hrow⟩ := ha.stored e' (List.mem_singleton_self e')
        exact ⟨r,ha'.old hr,hrow⟩
      · exact ha'.stored e' he'
    · rcases ha'.new r hr with hr | ⟨e',he',hrow⟩
      · rcases ha.new r hr with hr | ⟨e',he',hrow⟩
        · exact Or.inl hr
        · rw [List.mem_singleton.mp he'] at hrow
          exact Or.inr ⟨e,List.mem_cons_self,hrow⟩
      · exact Or.inr ⟨e',List.mem_cons_of_mem e he',hrow⟩

/-- The journal before the cursor of an ingestion is put. -/
theorem ingest_adds {snapshot : SessionSnapshot} {events : List (BridgeEvent U)}
    {cursor : Option BridgeCursor} (hi : Integrity U s)
    (h : s.ingest L snapshot events cursor = .ok s') :
    ∃ s2, Adds s s2 events ∧ s2.cursors = s.cursors ∧ Integrity U s2 ∧
      match cursor with
      | none => s' = s2
      | some c => s2.putCursor (U := U) c = .ok s' := by
  rw [Store.ingest] at h
  split at h
  · cases h
  obtain ⟨s1,h1,h⟩ := ok_of_bind h
  have hi1 := (later_association h1 hi).integrity
  obtain ⟨row,-,rfl,-⟩ := association_spec h1 hi
  obtain ⟨s2,h2,h⟩ := ok_of_bind h
  obtain ⟨ha,hc⟩ := ingestAll_adds hi1 h2
  refine ⟨s2,⟨ha.old,ha.stored,ha.new⟩,hc,(later_ingestAll hi1 h2).1.integrity,?_⟩
  cases cursor with
  | none =>
    cases h
    rfl
  | some c => exact h

theorem noGap_ingest_none {snapshot : SessionSnapshot} {events : List (BridgeEvent U)}
    (hi : Integrity U s) (hg : NoGap U s) (h : s.ingest L snapshot events none = .ok s') :
    NoGap U s' := by
  obtain ⟨s2,ha,hc,-,hs⟩ := ingest_adds hi h
  dsimp only at hs
  subst hs
  exact hg.grow ha.old fun key => by rw [hc]

/-- A cursor beyond the stored one of its association and subscriber, if there is one. -/
def Ahead (s : Store) (c : BridgeCursor) : Prop :=
  ∀ prior, s.cursors.lookup (c.association_ref,c.subscriber_ref) = some prior →
    prior.last_sequence < c.last_sequence.val

theorem wire_epoch {c c' : BridgeCursor} (h : c.wire U = c'.wire U) :
    c'.stream_epoch = c.stream_epoch := by
  simp only [BridgeCursor.wire, List.cons.injEq, Prod.mk.injEq, Json.str.injEq] at h
  exact (Subtype.ext h.2.2.2.1.2).symm

/-- An accepted batch with a cursor keeps the rule if and only if its boundary is journaled. -/
theorem noGap_ingest {snapshot : SessionSnapshot} {events : List (BridgeEvent U)}
    {c : BridgeCursor} {b : ℕ} (hi : Integrity U s) (hg : NoGap U s)
    (hv : validateStream snapshot events b (some c) = .ok ())
    (h : s.ingest L snapshot events (some c) = .ok s') :
    NoGap U s' ↔ (Ahead s c →
      Covered s c.association_ref c.stream_epoch (min b c.last_sequence.val)) := by
  obtain ⟨n,hcons,hle,hassoc,hepoch⟩ := of_validateStream hv
  obtain ⟨s2,ha,hc,hi2,hput⟩ := ingest_adds hi h
  dsimp only at hput
  by_cases hahead : Ahead s c
  · have hwritten := putCursor_written hput (by rw [hc]; exact hahead)
    have hevents : s'.events = s2.events := by rw [hwritten]; rfl
    have hlookup : ∀ key, s'.cursors.lookup key =
        if key = (c.association_ref,c.subscriber_ref) then
          some ⟨.obj (c.wire U),c.last_sequence.val⟩
        else s.cursors.lookup key := by
      intro key
      rw [hwritten, ← hc]
      exact Dict.lookup_insert_eq _ _ _ _
    -- The events up to the boundary are those of the earlier journal.
    have hcovered : Covered s' c.association_ref c.stream_epoch c.last_sequence.val ↔
        Covered s c.association_ref c.stream_epoch (min b c.last_sequence.val) := by
      have hj : ∀ k, Journaled s' c.association_ref c.stream_epoch k ↔
          Journaled s2 c.association_ref c.stream_epoch k := by
        intro k
        rw [Journaled, Journaled, hevents]
      constructor
      · intro hall k h1 hk
        rcases ha.journaled.mp ((hj k).mp (hall k h1 (by omega))) with hold | ⟨e,he,-,-,hseq⟩
        · exact hold
        · have := hcons.later e he
          omega
      · intro hold k h1 hk
        rw [hj, ha.journaled]
        by_cases hkb : k ≤ b
        · exact Or.inl (hold k h1 (by omega))
        · obtain ⟨e,he,hseq⟩ := hcons.reached k (by omega) (hk.trans hle)
          obtain ⟨hea,hee⟩ := hcons.places e he
          exact Or.inr ⟨e,he,hea.trans hassoc.symm,
            Option.some.inj (hee.trans hepoch.symm),hseq⟩
    constructor
    · intro hall _
      rw [← hcovered]
      exact hall _ _ (by rw [hlookup, if_pos rfl]) c rfl
    · intro hold key row hr c' hrec
      rw [hlookup] at hr
      split at hr
      · rename_i hk
        cases hr
        rw [wire_epoch (Json.obj.inj hrec), hk]
        exact hcovered.mpr (hold hahead)
      · exact (hg key row hr c' hrec).mono (by rw [hevents]; exact ha.old)
  · refine iff_of_true ?_ (fun h => absurd h hahead)
    rw [Ahead] at hahead
    push Not at hahead
    obtain ⟨prior,hp,hlast⟩ := hahead
    rw [← hc] at hp
    obtain rfl := putCursor_kept hi2 hp hlast hput
    refine hg.grow ha.old fun key => ?_
    rw [← hc]
    show (s2.cursors.insert _ prior).lookup key = _
    rw [Dict.lookup_insert_eq]
    split
    · rename_i hk
      rw [hk, hp]
    · rfl

end PdFleet.Bridge
