import PdFleet.BridgeJournal

/-!
# The observer facade of the gateway

The calls of the bridge over its journal. What the injected connection answers is an argument
of each call: any value, of the expected type or not, or any exception.
-/

set_option autoImplicit false

namespace PdFleet.Bridge

variable {U : Nfc}

/-! ## Answers of the connection -/

/-- An exception that a call lets out. -/
inductive Exn where
  | raised (e : Raised)
  | attributeError
  | typeError
  | valueError
  | other
  deriving DecidableEq, Repr

namespace Exn

def isValueError : Exn → Bool
  | .raised (.bridge _ _) | .valueError => true
  | _ => false

def isTypeError (e : Exn) : Bool := e = .typeError

/-- `except (AttributeError, TypeError)`. -/
def isMisuse (e : Exn) : Bool := e = .attributeError || e = .typeError

/-- What `except Exception` catches after `except BridgeValidationError: raise`. -/
def isForeign : Exn → Bool
  | .raised (.bridge _ _) => false
  | _ => true

end Exn

/-- An object that the connection made: of the expected type, or any other. -/
abbrev Object (α : Type) := Option α

abbrev Answer (α : Type) := Except Exn (Object α)

/-- The bridge's own part of a call. -/
def own {α : Type} (x : Except Raised α) : Except Exn α := x.mapError .raised

/-- An `except` clause that raises a fixed error. -/
def caught {α : Type} (clause : Exn → Bool) (code : BridgeErrorCode) (reason : String)
    (x : Except Exn α) : Except Exn α :=
  match x with
  | .error e => if clause e then own (failWith code reason) else .error e
  | .ok a => .ok a

@[simp] theorem own_ok {α : Type} {x : Except Raised α} {a : α} : own x = .ok a ↔ x = .ok a := by
  cases x <;> simp [own, Except.mapError]

@[simp] theorem caught_ok {α : Type} {clause : Exn → Bool} {code : BridgeErrorCode}
    {reason : String} {x : Except Exn α} {a : α} :
    caught clause code reason x = .ok a ↔ x = .ok a := by
  cases x with
  | ok b => rfl
  | error e =>
    rw [caught]
    split <;> simp [own, failWith, Except.mapError]

/-- What a stream call hands over, item by item. -/
structure Parts (U : Nfc) where
  snapshot : Object SessionSnapshot
  events : List (Object (BridgeEvent U))
  cursor : Object (Option BridgeCursor)

structure Stream (U : Nfc) where
  snapshot : SessionSnapshot
  events : List (BridgeEvent U)
  cursor : Option BridgeCursor

/-- The result of a stream call whose items all have their types. -/
def Parts.typed (p : Parts U) : Option (Stream U) := do
  let snapshot ← p.snapshot
  let events ← p.events.mapM id
  let cursor ← p.cursor
  some ⟨snapshot,events,cursor⟩

/-- `_stream_parts`, of an object with the three attributes and iterable events. -/
def streamParts (result : Object (Parts U)) : Except Raised (Parts U) :=
  match result with
  | none => failWith .invalidEvent "malformed_upstream_result"
  | some p =>
    if MAX_REPLAY_BATCH < p.events.length then failWith .invalidEvent "malformed_event_batch"
    else .ok p

/-- `_validate_stream` of any items: those of another type raise as every other fault does. -/
def validateParts (p : Parts U) (expected : ℕ) : Except Raised (Stream U) :=
  match p.typed with
  | none => failWith .invalidEvent "malformed_upstream"
  | some r => do
    validateStream r.snapshot r.events expected r.cursor
    .ok r

/-- `_validate_stream` of a snapshot alone. -/
def validateSnapshot (U : Nfc) (snapshot : Object SessionSnapshot) :
    Except Raised SessionSnapshot := do
  let r ← validateParts (U := U) ⟨snapshot,[],some none⟩ 0
  .ok r.snapshot

/-- An association as a caller names it. -/
inductive Target where
  | text (association_ref : String)
  | association (o : AssociationRef)

def Target.ref : Target → Option String
  | .text s => some s
  | .association o => o.association_ref.map (·.val)

/-- The row of associations with a key, which may be any text. -/
def Store.associationRow (s : Store) (r : Option String) : Option AssociationRow :=
  match r with
  | none => none
  | some t => if h : refText t = .ok () then s.associations.lookup ⟨t,h⟩ else none

/-- `_stored_snapshot`. -/
def Store.storedSnapshot (s : Store) (r : Option String) : Except Raised (Option SessionSnapshot) :=
  match s.associationRow r with
  | none => .ok none
  | some row => (Store.decode row).map some

/-- `_Store.cursor`. -/
def Store.cursor (s : Store) (association_ref : Ref) (subscriber_ref : Option Ref) :
    Except Raised (Option BridgeCursor) :=
  match subscriber_ref.bind (fun r => s.cursors.lookup (association_ref,r)) with
  | none => .ok none
  | some row =>
    match BridgeCursor.fromDict row.record with
    | .ok c => .ok (some c)
    | .error _ => failWith .cursorStale "corrupt_cursor"

/-- The references and the mode that a snapshot has to have. -/
abbrev Binding := Option Ref × Option Ref × OwnershipMode

def SessionSnapshot.binding (o : SessionSnapshot) : Binding :=
  (some o.association_ref,some o.session_ref,o.ownership_mode)

def Store.expectedBinding (s : Store) (requested : Target) : Except Raised (Option Binding) :=
  match requested with
  | .association o => .ok (some (o.association_ref,o.session_ref,o.ownership_mode))
  | .text t => do
    let old ← s.storedSnapshot (some t)
    .ok (old.map SessionSnapshot.binding)

/-- `_validate_binding`. -/
def Store.validateBinding (s : Store) (requested : Target) (snapshot : SessionSnapshot)
    (events : List (BridgeEvent U)) : Except Raised Unit := do
  let expected ← s.expectedBinding requested
  if expected ≠ some snapshot.binding then
    failWith .invalidProvenance "requested_binding_mismatch"
  else if events.any (fun e => e.val.association_ref ≠ snapshot.association_ref ∨
      e.val.session_ref ≠ snapshot.session_ref ∨
      e.val.ownership_mode ≠ snapshot.ownership_mode) then
    failWith .invalidProvenance "requested_binding_mismatch"
  else .ok ()

/-- The expiry of a cursor, which has to lie after `now`. -/
def cursorExpiry (now : ℤ) (c : BridgeCursor) : Except Raised Unit :=
  match (readStamp c.expires_at.val).map astimezone with
  | some (.ok expires) =>
    if expires ≤ now then failWith .resyncRequired "cursor_expired" else .ok ()
  | _ => failWith .invalidRequest "cursor_expired"

/-! ## The arguments of `attach` -/

/-- The activation of `attach`: a ticket, or any other object. -/
inductive Activation where
  | ticket (o : ActivationTicketRef)
  | object (v : Json)

def allowedBinding : List String :=
  ["owner_ref", "profile_ref", "workspace_ref", "session_ref", "association_ref", "purpose",
    "ownership_mode"]

def requiredBinding : List String := allowedBinding.filter (· ≠ "ownership_mode")

/-- What `attach` sends to `consume_activation`, next to the fixed purpose and mode. -/
structure Consumption where
  owner_ref : Ref
  profile_ref : Ref
  workspace_ref : Ref
  session_ref : Ref
  association_ref : Ref
  operation_key : String

def activationValue : Activation → Except Raised String
  | .ticket o => .ok o.activation_ref.val
  | .object (.str s) => .ok s
  | .object _ => failWith .invalidRequest "malformed_activation_ref"

def bindingValues (binding : Json) : Except Raised Obj :=
  match binding with
  | .obj kvs =>
    if kvs.any (fun e => e.1 ∉ allowedBinding) then
      failWith .invalidRequest "unknown_binding_field"
    else if requiredBinding.any (fun k => !Obj.has kvs k) then
      failWith .invalidRequest "malformed_binding"
    else .ok kvs
  | _ => failWith .invalidRequest "malformed_binding"

def attachPurpose (v : Json) : Except Raised Unit := do
  let s ← asText v
  stringText false false s
  if s ≠ "pd_observation" then failWith .capabilityDenied "unsupported_attach_purpose" else .ok ()

def attachMode (v : Json) : Except Raised Unit :=
  match v with
  | .str s =>
    if s ≠ OwnershipMode.userOwnedSession.value then failWith .capabilityDenied "fleet_owned_task"
    else .ok ()
  | _ => failWith .invalidRequest "malformed_ownership_mode"

def operationKey (activation_value : String) (operation_key : Json) : Except Raised String :=
  match operation_key with
  | .null => .ok ("fleet-attach-" ++ activation_value)
  | v => do
    let k ← ref v
    .ok k.val

/-- The checks of `attach` before it calls the connection. The references are those of a set,
whose order decides only which of several faults is raised. -/
def attachArguments (activation : Activation) (binding operation_key : Json) :
    Except Raised Consumption := do
  let values ← bindingValues binding
  let activation_value ← activationValue activation
  let _ ← ref (.str activation_value)
  let owner_ref ← ref (argument values "owner_ref" .null)
  let profile_ref ← ref (argument values "profile_ref" .null)
  let workspace_ref ← ref (argument values "workspace_ref" .null)
  let session_ref ← ref (argument values "session_ref" .null)
  let association_ref ← ref (argument values "association_ref" .null)
  attachPurpose (argument values "purpose" .null)
  attachMode (argument values "ownership_mode" (.str OwnershipMode.userOwnedSession.value))
  let key ← operationKey activation_value operation_key
  .ok ⟨owner_ref,profile_ref,workspace_ref,session_ref,association_ref,key⟩

/-- The association that `consume_activation` answered. -/
def consumedAssociation (requested : Consumption) (assoc : Object AssociationRef) :
    Except Raised AssociationRef :=
  match assoc with
  | none => fail .capabilityDenied
  | some o =>
    if o.ownership_mode = .fleetOwnedTask then fail .capabilityDenied
    else if some requested.association_ref ≠ o.association_ref ∨
        some requested.session_ref ≠ o.session_ref then
      failWith .invalidProvenance "requested_binding_mismatch"
    else .ok o

/-! ## The facade -/

structure FleetGatewayBridge where
  observer : ObserverIdentity
  limits : Limits

namespace FleetGatewayBridge

variable (B : FleetGatewayBridge) (s : Store)

/-- `_validate_cursor_binding`. -/
def validateCursorBinding (now : ℤ) (cursor : Option BridgeCursor) (association_ref : Option String)
    (stream_epoch : Option Ref) : Except Raised Unit :=
  match cursor with
  | none => .ok ()
  | some c =>
    if some c.association_ref.val ≠ association_ref then
      failWith .invalidProvenance "cursor_association_mismatch"
    else if stream_epoch ≠ none ∧ some c.stream_epoch ≠ stream_epoch then
      failWith .invalidProvenance "cursor_epoch_mismatch"
    else if some c.subscriber_ref ≠ B.observer.observer_ref then
      failWith .invalidProvenance "cursor_subscriber_mismatch"
    else cursorExpiry now c

/-- `attach`. -/
def attach (U : Nfc) (activation : Activation) (binding operation_key : Json)
    (consumed : Answer AssociationRef) (answer : Answer SessionSnapshot) :
    Except Exn (AssociationRef × Store) := do
  let requested ← own (attachArguments activation binding operation_key)
  let assoc ← caught Exn.isForeign .invalidRequest "upstream_attach_failed" consumed
  let assoc ← own (consumedAssociation requested assoc)
  let snap ← caught Exn.isForeign .invalidRequest "upstream_attach_failed" answer
  match snap with
  | none => .error .attributeError
  | some snap => do
    own (s.validateBinding (U := U) (.association assoc) snap [])
    let s' ← own (s.ingest (U := U) B.limits snap [] none)
    .ok (assoc,s')

/-- `snapshot`. -/
def snapshot (U : Nfc) (association : Target) (answer : Answer SessionSnapshot) :
    Except Exn (SessionSnapshot × Store) := do
  let snap ← caught Exn.isMisuse .invalidEvent "malformed_snapshot" answer
  let snap ← own (validateSnapshot U snap)
  own (s.validateBinding (U := U) association snap [])
  let s' ← own (s.ingest (U := U) B.limits snap [] none)
  .ok (snap,s')

/-- The checks that a stream result has to pass. -/
def acceptStream (now : ℤ) (requested : Target) (expected : ℕ) (result : Object (Parts U)) :
    Except Raised (Stream U) := do
  let parts ← streamParts result
  let r ← validateParts parts expected
  s.validateBinding requested r.snapshot r.events
  B.validateCursorBinding now r.cursor (some r.snapshot.association_ref.val) r.snapshot.stream_epoch
  .ok r

/-- The common end of `subscribe` and `replay`: the result is checked against a boundary and
stored. -/
def deliver (now : ℤ) (requested : Target) (expected : ℕ) (answer : Answer (Parts U)) :
    Except Exn (Stream U × Store) := do
  let r ← caught Exn.isMisuse .invalidEvent "malformed_upstream_result"
    (answer >>= fun result => own (B.acceptStream s now requested expected result))
  let s' ← own (s.ingest B.limits r.snapshot r.events r.cursor)
  .ok (r,s')

/-- The cursor argument of a stream call. -/
def cursorArgument (cursor : Object (Option BridgeCursor)) :
    Except Raised (Option BridgeCursor) :=
  match cursor with
  | none => failWith .resyncRequired "malformed_cursor"
  | some c => .ok c

def limitArgument (limit : Json) : Except Raised Unit :=
  match limit with
  | .null => .ok ()
  | .int n =>
    if 1 ≤ n ∧ n ≤ (MAX_REPLAY_BATCH : ℤ) then .ok () else failWith .invalidRequest "invalid_limit"
  | _ => failWith .invalidRequest "invalid_limit"

/-- The boundary of a stream call: the caller's cursor, or a default. -/
def boundary (cursor : Option BridgeCursor) (default : ℕ) : ℕ :=
  match cursor with
  | none => default
  | some c => c.last_sequence.val

/-- The clock of a stream call, before it asks the connection and when it has the answer. -/
structure Clock where
  asked : ℤ
  answered : ℤ

/-- What `subscribe` checks of its arguments against the journal. -/
def subscribeArguments (now : ℤ) (association : Target) (cursor : Object (Option BridgeCursor))
    (limit : Json) : Except Raised (Option BridgeCursor) := do
  let cursor ← cursorArgument cursor
  let requested ← s.storedSnapshot association.ref
  if cursor.isSome ∧ requested.bind (·.stream_epoch) = none then
    failWith .invalidProvenance "cursor_epoch_unavailable"
  else do
    B.validateCursorBinding now cursor association.ref (requested.bind (·.stream_epoch))
    limitArgument limit
    .ok cursor

/-- Whether the connection's `subscribe` takes a limit, as its signature says. -/
def supportsLimit (signature : Except Exn Bool) : Except Exn Unit :=
  match signature with
  | .ok true => .ok ()
  | .ok false => own (failWith .invalidRequest "unbounded_source")
  | .error e =>
    if e.isTypeError || e.isValueError then own (failWith .invalidRequest "unbounded_source")
    else .error e

/-- `subscribe`. -/
def subscribe (clock : Clock) (association : Target) (cursor : Object (Option BridgeCursor))
    (limit : Json) (signature : Except Exn Bool) (answer : Answer (Parts U)) :
    Except Exn (Stream U × Store) := do
  let cursor ← own (B.subscribeArguments s clock.asked association cursor limit)
  supportsLimit signature
  B.deliver s clock.answered association (boundary cursor 0) answer

/-- `_validate_window`, of which the types of a window leave one check. -/
def windowArgument (window : Object ReplayWindow) : Except Raised ReplayWindow :=
  match window with
  | none => failWith .invalidRequest "malformed_window"
  | some w => .ok w

def replayArguments (now : ℤ) (window : Object ReplayWindow)
    (cursor : Object (Option BridgeCursor)) :
    Except Raised (ReplayWindow × Option BridgeCursor) := do
  let window ← windowArgument window
  let cursor ← cursorArgument cursor
  B.validateCursorBinding now cursor (some window.association_ref.val) (some window.stream_epoch)
  .ok (window,cursor)

/-- `replay`. -/
def replay (clock : Clock) (window : Object ReplayWindow) (cursor : Object (Option BridgeCursor))
    (answer : Answer (Parts U)) : Except Exn (Stream U × Store) := do
  let (window,cursor) ← own (B.replayArguments clock.asked window cursor)
  B.deliver s clock.answered (.text window.association_ref.val)
    (boundary cursor window.after_sequence.val) answer

/-- The two parts of a heartbeat. -/
def heartbeatParts (result : Object (Object SessionSnapshot × Object (BridgeEvent U))) :
    Except Raised (SessionSnapshot × BridgeEvent U) :=
  match result with
  | none => failWith .invalidEvent "malformed_heartbeat_result"
  | some (none,_) => failWith .resyncRequired "malformed_snapshot"
  | some (some _,none) => failWith .invalidEvent "malformed_event"
  | some (some snapshot,some e) => .ok (snapshot,e)

/-- `heartbeat`. -/
def heartbeat (association : Target)
    (answer : Answer (Object SessionSnapshot × Object (BridgeEvent U))) :
    Except Exn ((SessionSnapshot × BridgeEvent U) × Store) := do
  let result ← caught (fun e => e.isMisuse || e.isValueError) .invalidEvent
    "malformed_heartbeat_result" answer
  let (snapshot,e) ← own (heartbeatParts result)
  own (validateStream snapshot [e] (snapshot.sequence.val-1) none)
  own (s.validateBinding association snapshot [e])
  let s' ← own (s.ingest B.limits snapshot [e] none)
  .ok ((snapshot,e),s')

/-- The result of a call and the journal that it leaves. -/
def settle {α : Type} (s : Store) (x : Except Exn (α × Store)) : Except Exn α × Store :=
  match x with
  | .ok (a,s') => (.ok a,s')
  | .error e => (.error e,s)

/-- The second half of `reconcile`, in the journal with the snapshot. -/
def resume (clock : Clock) (association : Target) (snap : SessionSnapshot)
    (signature : Except Exn Bool) (answer : Answer (Parts U)) : Except Exn (Stream U × Store) := do
  let cursor ← own (s.cursor snap.association_ref B.observer.observer_ref)
  B.subscribe s clock association (some cursor) .null signature answer

/-- `reconcile`, whose snapshot stays in the journal when the rest raises. -/
def reconcile (clock : Clock) (association : Target) (snapshotAnswer : Answer SessionSnapshot)
    (signature : Except Exn Bool) (answer : Answer (Parts U)) :
    Except Exn (Stream U) × Store :=
  match B.snapshot s U association snapshotAnswer with
  | .error e => (.error e,s)
  | .ok (snap,s') => settle s' (B.resume s' clock association snap signature answer)

/-- The event path of a connection: what each of the three ways to call it answers; the events
of an object that cannot be iterated are missing. -/
structure Paths (U : Nfc) where
  limited : Answer (List (Object (BridgeEvent U)))
  plain : Answer (List (Object (BridgeEvent U)))
  legacy : Answer (List (Object (BridgeEvent U)))

/-- The source that the three ways lead to. -/
def Paths.source (p : Paths U) : Answer (List (Object (BridgeEvent U))) :=
  let first := match p.limited with
    | .error .typeError => p.plain
    | x => x
  match first with
  | .error e =>
    if e.isMisuse then caught Exn.isMisuse .invalidEvent "malformed_event_source" p.legacy
    else .error e
  | .ok x => .ok x

/-- The bounded events of a source. -/
def sourceEvents (source : Object (List (Object (BridgeEvent U)))) :
    Except Raised (List (BridgeEvent U)) :=
  match source with
  | none => failWith .invalidEvent "malformed_event_source"
  | some xs =>
    if MAX_REPLAY_BATCH < xs.length then failWith .invalidEvent "malformed_event_batch"
    else match xs.mapM id with
      | none => failWith .invalidEvent "malformed_event"
      | some events => .ok events

def isDetached (e : BridgeEvent U) : Bool := e.val.event_type.val = "session.detached"

/-- The terminal events of a revocation: its own answer, or those of the event path. -/
def detachedEvents (result : Object (BridgeEvent U)) (paths : Option (Paths U)) :
    Except Exn (List (BridgeEvent U)) :=
  match result.filter isDetached, paths with
  | some e, _ => .ok [e]
  | none, none => .ok []
  | none, some p => do
    let source ← p.source
    let events ← own (sourceEvents source)
    .ok (events.filter isDetached)

/-- `detach`. -/
def detach (revoked : Answer (BridgeEvent U)) (paths : Option (Paths U)) :
    Except Exn (Object (BridgeEvent U) × Store) := do
  let result ← revoked
  let events ← detachedEvents result paths
  let s' ← own (s.ingestEvents B.limits events)
  .ok (result,s')

/-- `ack`. -/
def ack (U : Nfc) (event_id : String) : Except Exn (Unit × Store) := do
  let s' ← own (s.ack (U := U) event_id)
  .ok ((),s')

/-! ## Runs -/

/-- A call with what the connection answers to it. -/
inductive Call (U : Nfc) where
  | attach (activation : Activation) (binding operation_key : Json)
      (consumed : Answer AssociationRef) (answer : Answer SessionSnapshot)
  | snapshot (association : Target) (answer : Answer SessionSnapshot)
  | subscribe (clock : Clock) (association : Target) (cursor : Object (Option BridgeCursor))
      (limit : Json) (signature : Except Exn Bool) (answer : Answer (Parts U))
  | replay (clock : Clock) (window : Object ReplayWindow) (cursor : Object (Option BridgeCursor))
      (answer : Answer (Parts U))
  | heartbeat (association : Target)
      (answer : Answer (Object SessionSnapshot × Object (BridgeEvent U)))
  | reconcile (clock : Clock) (association : Target) (snapshotAnswer : Answer SessionSnapshot)
      (signature : Except Exn Bool) (answer : Answer (Parts U))
  | detach (revoked : Answer (BridgeEvent U)) (paths : Option (Paths U))
  | ack (event_id : String)

/-- The journal after a call. -/
def step (s : Store) : Call U → Store
  | .attach activation binding operation_key consumed answer =>
    (settle s (B.attach s U activation binding operation_key consumed answer)).2
  | .snapshot association answer => (settle s (B.snapshot s U association answer)).2
  | .subscribe clock association cursor limit signature answer =>
    (settle s (B.subscribe s clock association cursor limit signature answer)).2
  | .replay clock window cursor answer => (settle s (B.replay s clock window cursor answer)).2
  | .heartbeat association answer => (settle s (B.heartbeat s association answer)).2
  | .reconcile clock association snapshotAnswer signature answer =>
    (B.reconcile s clock association snapshotAnswer signature answer).2
  | .detach revoked paths => (settle s (B.detach s revoked paths)).2
  | .ack event_id => (settle s (ack s U event_id)).2

end FleetGatewayBridge

end PdFleet.Bridge
