import PdFleet.ContractRoundTrip
import PdFleet.Lib.Dict

/-!
# The journal of the gateway bridge

The four tables of the bridge's store and its three writing calls. A record is the data that
was stored; its text is `dumps` of it, and reading it back gives this data. A transaction that
raises is rolled back.
-/

set_option autoImplicit false

namespace PdFleet.Bridge

variable {U : Nfc}

def MAX_STORE_BYTES : ℕ := 64*1024

def TERMINAL_STATUSES : List String := ["detached", "ended"]

/-- `_json`: the record of a contract. -/
def storeRecord (value : Contract U) : Except Raised Json := do
  let d ← value.toDict U
  let record ← canonicalData U d
  if MAX_STORE_BYTES < (dumps record).utf8ByteSize then
    failWith .payloadTooLarge "store_record_too_large"
  else .ok record

structure AssociationRow where
  record : Json
  status : String
  stream_epoch : String

structure EventRow where
  association_ref : Ref
  stream_epoch : Ref
  sequence : ℕ
  event_id : Ref
  record : Json

structure OutboxRow where
  event_id : Ref
  association_ref : Ref
  record : Json
  acknowledged : Bool

structure CursorRow where
  record : Json
  last_sequence : ℕ

/-- The tables; the primary keys of the first and of the last are their keys here. -/
structure Store where
  associations : Dict Ref AssociationRow
  events : List EventRow
  outbox : List OutboxRow
  cursors : Dict (Ref × Ref) CursorRow

structure Limits where
  max_events : ℕ
  max_pending_events : ℕ

def EventRow.outboxRow (row : EventRow) : OutboxRow :=
  ⟨row.event_id,row.association_ref,row.record,false⟩

def eventRow (e : BridgeEvent U) (encoded : Json) : EventRow :=
  ⟨e.val.association_ref,e.val.stream_epoch,e.val.sequence.val,e.val.event_id,encoded⟩

/-- The body of the event loop of `_validate_stream`. -/
def validateEvent (snapshot : SessionSnapshot) (previous : ℕ) (e : BridgeEvent U) :
    Except Raised ℕ :=
  if e.val.schema_version ≠ SCHEMA_VERSION ∨ e.val.association_ref ≠ snapshot.association_ref ∨
      some e.val.stream_epoch ≠ snapshot.stream_epoch ∨ e.val.sequence.val ≤ 0 then
    failWith .invalidEvent "stream_mismatch"
  else if e.val.ownership_mode = .fleetOwnedTask then fail .capabilityDenied
  else if e.val.sequence.val ≠ previous+1 then failWith .replayGap "non_contiguous_stream"
  else .ok e.val.sequence.val

/-- The bounds of a result's cursor: what was delivered, or the boundary. -/
def validateCursor (snapshot : SessionSnapshot) (events : List (BridgeEvent U)) (expected : ℕ)
    (cursor : Option BridgeCursor) : Except Raised Unit :=
  match cursor with
  | none => .ok ()
  | some c =>
    if c.association_ref ≠ snapshot.association_ref ∨ some c.stream_epoch ≠ snapshot.stream_epoch then
      failWith .resyncRequired "cursor_boundary_mismatch"
    else match events.getLast? with
      | some e =>
        if c.last_sequence.val ≠ e.val.sequence.val then
          failWith .cursorStale "cursor_ahead_of_delivery"
        else .ok ()
      | none =>
        if expected < c.last_sequence.val then failWith .cursorStale "cursor_ahead_of_delivery"
        else .ok ()

/-- The checks of `_validate_stream`, of values of their types. -/
def checkStream (snapshot : SessionSnapshot) (events : List (BridgeEvent U)) (expected : ℕ)
    (cursor : Option BridgeCursor) : Except Raised Unit :=
  if MAX_REPLAY_BATCH < events.length then failWith .invalidEvent "malformed_event_batch"
  else if snapshot.ownership_mode = .fleetOwnedTask ∨ snapshot.stream_epoch = none then
    failWith .resyncRequired "invalid_snapshot"
  else if snapshot.sequence.val < expected then failWith .resyncRequired "invalid_boundary"
  else do
    let previous ← events.foldlM (validateEvent snapshot) expected
    if events ≠ [] ∧ snapshot.sequence.val < previous then
      failWith .resyncRequired "snapshot_before_delivery"
    else validateCursor snapshot events expected cursor

/-- `FleetGatewayBridge._validate_stream`, whose `except` clause takes its own errors too. -/
def validateStream (snapshot : SessionSnapshot) (events : List (BridgeEvent U)) (expected : ℕ)
    (cursor : Option BridgeCursor) : Except Raised Unit :=
  recast .invalidEvent "malformed_upstream" (checkStream snapshot events expected cursor)

namespace Store

def empty : Store := ⟨∅,[],[],∅⟩

variable (L : Limits) (s : Store)

def putAssociation (a : Ref) (row : AssociationRow) : Store :=
  { s with associations := s.associations.insert a row }

def putCursorRow (key : Ref × Ref) (row : CursorRow) : Store :=
  { s with cursors := s.cursors.insert key row }

/-- The snapshot that a row of associations holds. -/
def decode (row : AssociationRow) : Except Raised SessionSnapshot :=
  match SessionSnapshot.fromDict row.record with
  | .ok old => .ok old
  | .error _ => failWith .invalidEvent "corrupt_association"

/-- The snapshot that stays in the journal. -/
def effective (old snapshot : SessionSnapshot) : SessionSnapshot :=
  if snapshot.sequence.val < old.sequence.val ∨
      (old.status.val ∈ TERMINAL_STATUSES ∧ snapshot.status.val ∉ TERMINAL_STATUSES) then old
  else snapshot

/-- `_association`. -/
def association (snapshot : SessionSnapshot) : Except Raised Store :=
  match snapshot.stream_epoch with
  | none => failWith .resyncRequired "missing_epoch"
  | some epoch => do
    let record ← storeRecord (U := U) (.snapshot snapshot)
    match s.associations.lookup snapshot.association_ref with
    | some row => do
      let old ← decode row
      if old.stream_epoch = none ∨ old.session_ref ≠ snapshot.session_ref ∨
          old.ownership_mode ≠ snapshot.ownership_mode ∨
          old.stream_epoch ≠ snapshot.stream_epoch then
        failWith .invalidEvent "association_conflict"
      else do
        let kept := effective old snapshot
        let record ← storeRecord (U := U) (.snapshot kept)
        .ok (s.putAssociation snapshot.association_ref ⟨record,kept.status.val,epoch.val⟩)
    | none =>
      if snapshot.ownership_mode = .fleetOwnedTask then fail .capabilityDenied
      else
        .ok (s.putAssociation snapshot.association_ref ⟨record,snapshot.status.val,epoch.val⟩)

def atSequence (a : Ref) (n : ℕ) : Option EventRow :=
  s.events.find? (fun r => r.association_ref = a ∧ r.sequence = n)

def atSlot (a epoch : Ref) (n : ℕ) : Option EventRow :=
  s.events.find? (fun r => r.association_ref = a ∧ r.stream_epoch = epoch ∧ r.sequence = n)

def byId (i : Ref) : Option EventRow := s.events.find? (fun r => r.event_id = i)

def pending : ℕ := (s.outbox.filter (fun o => !o.acknowledged)).length

/-- The two limits that a new event has to keep. -/
def capacity : Except Raised Unit :=
  if L.max_events ≤ s.events.length then failWith .payloadTooLarge "journal_event_limit"
  else if L.max_pending_events ≤ s.pending then
    failWith .payloadTooLarge "journal_pending_limit"
  else .ok ()

/-- The limits, of an event whose id is new. -/
def room (row : EventRow) : Except Raised Unit :=
  if (s.byId row.event_id).isNone then s.capacity L else .ok ()

/-- `INSERT INTO fleet_bridge_events`, with its foreign key and its unique slot. -/
def insertEvent (row : EventRow) : Except Raised Store :=
  if row.association_ref ∉ s.associations ∨
      (s.atSlot row.association_ref row.stream_epoch row.sequence).isSome then
    failWith .invalidRequest "store_unavailable"
  else .ok { s with events := s.events++[row] }

/-- `_outbox_event`. -/
def outboxEvent (row : EventRow) : Except Raised Store :=
  match s.outbox.find? (fun o => o.event_id = row.event_id) with
  | some o =>
    if o.association_ref ≠ row.association_ref ∨ dumps o.record ≠ dumps row.record then
      failWith .invalidProvenance "event_id_conflict"
    else .ok s
  | none =>
    if row.association_ref ∉ s.associations then failWith .invalidRequest "store_unavailable"
    else .ok { s with outbox := s.outbox++[row.outboxRow] }

/-- A journaled row of another epoch, id or text than the new one of its sequence. -/
def sequenceConflict (row : EventRow) : Bool :=
  match s.atSequence row.association_ref row.sequence with
  | none => false
  | some r => r.stream_epoch ≠ row.stream_epoch ∨ r.event_id ≠ row.event_id ∨
      dumps r.record ≠ dumps row.record

/-- A journaled row of another place or text than the new one of its id. -/
def idConflict (row : EventRow) : Bool :=
  match s.byId row.event_id with
  | none => false
  | some r => r.association_ref ≠ row.association_ref ∨ r.stream_epoch ≠ row.stream_epoch ∨
      r.sequence ≠ row.sequence ∨ dumps r.record ≠ dumps row.record

/-- The body of the event loop of `ingest`. -/
def ingestEvent (s : Store) (e : BridgeEvent U) : Except Raised Store := do
  let encoded ← storeRecord (.event e)
  let row := eventRow e encoded
  if s.sequenceConflict row then failWith .invalidProvenance "sequence_identity_conflict"
  else match s.atSlot row.association_ref row.stream_epoch row.sequence with
    | some r =>
      if r.event_id ≠ row.event_id ∨ dumps r.record ≠ dumps row.record then
        failWith .invalidProvenance "sequence_identity_conflict"
      else .ok s
    | none =>
      if s.idConflict row then failWith .invalidProvenance "event_id_conflict"
      else do
        s.room L row
        let s ← s.insertEvent row
        s.outboxEvent row

/-- The cursor part of `ingest`. -/
def putCursor (c : BridgeCursor) : Except Raised Store := do
  let encoded ← storeRecord (U := U) (.cursor c)
  match s.cursors.lookup (c.association_ref,c.subscriber_ref) with
  | some prior =>
    if c.last_sequence.val ≤ prior.last_sequence then do
      let kept ← BridgeCursor.fromDict prior.record
      .ok (s.putCursorRow (kept.association_ref,kept.subscriber_ref)
        ⟨prior.record,kept.last_sequence.val⟩)
    else
      .ok (s.putCursorRow (c.association_ref,c.subscriber_ref) ⟨encoded,c.last_sequence.val⟩)
  | none =>
    .ok (s.putCursorRow (c.association_ref,c.subscriber_ref) ⟨encoded,c.last_sequence.val⟩)

def ingest (snapshot : SessionSnapshot) (events : List (BridgeEvent U))
    (cursor : Option BridgeCursor) : Except Raised Store :=
  if MAX_REPLAY_BATCH < events.length then failWith .invalidEvent "malformed_event_batch"
  else do
    let s ← s.association (U := U) snapshot
    let s ← events.foldlM (ingestEvent L) s
    match cursor with
    | none => .ok s
    | some c => s.putCursor (U := U) c

/-- The highest of some sequences, or zero. -/
def highest (l : List ℕ) : ℕ := l.foldr max 0

/-- The durable boundary of an association. -/
def boundary (old : SessionSnapshot) (a : Ref) : ℕ :=
  max old.sequence.val
    (max (highest ((s.events.filter (fun r => r.association_ref = a ∧
        some r.stream_epoch = old.stream_epoch)).map (·.sequence)))
      (highest (((Dict.toFields s.cursors).filter (fun e => e.1.1 = a)).map (·.2.last_sequence))))

/-- What the first loop of `ingest_events` collects. -/
structure Terminal where
  expected_by_association : Dict Ref ℕ
  encoded_events : Dict Ref Json

/-- The body of the first loop of `ingest_events`, which only reads the tables. -/
def validateTerminal (t : Terminal) (e : BridgeEvent U) : Except Raised Terminal := do
  let encoded ← storeRecord (.event e)
  let row := eventRow e encoded
  if (s.byId e.val.event_id).isSome then
    if s.idConflict row then failWith .invalidProvenance "event_id_conflict"
    else .ok { t with encoded_events := t.encoded_events.insert e.val.event_id encoded }
  else match s.associations.lookup e.val.association_ref with
    | none => failWith .associationRequired "unknown_association"
    | some held => do
      let old ← decode held
      if old.association_ref ≠ e.val.association_ref ∨ old.session_ref ≠ e.val.session_ref ∨
          old.stream_epoch = none ∨ old.stream_epoch ≠ some e.val.stream_epoch then
        failWith .invalidProvenance "terminal_provenance_mismatch"
      else if e.val.event_type.val ≠ "session.detached" then
        failWith .invalidEvent "invalid_terminal_event"
      else do
        let expected := (t.expected_by_association.lookup e.val.association_ref).getD
          (s.boundary old e.val.association_ref+1)
        validateStream { old with status := ⟨"detached",by decide⟩, sequence := e.val.sequence }
          [e] (expected-1) none
        if s.sequenceConflict row then failWith .invalidProvenance "sequence_identity_conflict"
        else .ok ⟨t.expected_by_association.insert e.val.association_ref expected,
          t.encoded_events.insert e.val.event_id encoded⟩

/-- The snapshot of a detached association. -/
def detached (old : SessionSnapshot) (n : Sequence) : SessionSnapshot :=
  { old with status := ⟨"detached",by decide⟩,
             sequence := ⟨max old.sequence.val n.val,Nat.zero_le _,
               max_le old.sequence.property.2 n.property.2⟩ }

/-- The event of the second loop: it is written, or compared with what is there. -/
def writeEvent (row : EventRow) : Except Raised Store :=
  match s.atSlot row.association_ref row.stream_epoch row.sequence with
  | none => do
    s.capacity L
    let s ← s.insertEvent row
    s.outboxEvent row
  | some r =>
    if r.event_id ≠ row.event_id ∨ dumps r.record ≠ dumps row.record then
      failWith .invalidProvenance "sequence_identity_conflict"
    else .ok s

/-- The body of the second loop of `ingest_events`. -/
def writeTerminal (encoded_events : Dict Ref Json) (s : Store) (e : BridgeEvent U) :
    Except Raised Store :=
  match s.associations.lookup e.val.association_ref with
  | none => failWith .associationRequired "unknown_association"
  | some held => do
    let old ← SessionSnapshot.fromDict held.record
    if old.stream_epoch = none ∨ old.stream_epoch ≠ some e.val.stream_epoch then
      failWith .resyncRequired "epoch_conflict"
    else do
      let row := eventRow e ((encoded_events.lookup e.val.event_id).getD .null)
      let s ← s.writeEvent L row
      let updated := detached old e.val.sequence
      let record ← storeRecord (U := U) (.snapshot updated)
      .ok (s.putAssociation e.val.association_ref
        ⟨record,updated.status.val,held.stream_epoch⟩)

def ingestEvents (events : List (BridgeEvent U)) : Except Raised Store :=
  if events = [] then failWith .associationStale "detach_event_unavailable"
  else if MAX_REPLAY_BATCH < events.length then failWith .invalidEvent "malformed_event_batch"
  else do
    let t ← events.foldlM s.validateTerminal ⟨∅,∅⟩
    events.foldlM (writeTerminal L t.encoded_events) s

def ack (event_id : String) : Except Raised Store :=
  match s.outbox.find? (fun o => o.event_id.val = event_id) with
  | none => failWith .invalidEvent "unknown_outbox_event"
  | some o =>
    match BridgeEvent.fromDict U o.record with
    | .error _ => failWith .invalidEvent "corrupt_outbox"
    | .ok _ => .ok { s with outbox := s.outbox.map (fun o =>
        if o.event_id.val = event_id then { o with acknowledged := true } else o) }

/-! ## Runs -/

/-- A call of the store. -/
inductive Call (U : Nfc) where
  | ingest (snapshot : SessionSnapshot) (events : List (BridgeEvent U))
      (cursor : Option BridgeCursor)
  | ingestEvents (events : List (BridgeEvent U))
  | ack (event_id : String)

def attempt : Call U → Except Raised Store
  | .ingest snapshot events cursor => s.ingest L snapshot events cursor
  | .ingestEvents events => s.ingestEvents L events
  | .ack event_id => s.ack (U := U) event_id

/-- A call commits its tables, or raises and is rolled back. -/
def perform (c : Call U) : Except Raised Unit × Store :=
  match s.attempt L c with
  | .ok s' => (.ok (),s')
  | .error e => (.error e,s)

def run (calls : List (Call U)) : Store := calls.foldl (fun s c => (s.perform L c).2) s

end Store

end PdFleet.Bridge
