import PdFleet.BridgeGaps
import Mathlib.Data.List.DropRight

/-!
# The gateway's double

The in-memory gateway that an observer talks to: activations, associations, their numbered
events with a bounded retention, cursors, heartbeats and revocation. What the clock reads is an
argument of each call, in microseconds from the first of January of year one, and `repr` is the
text that Python prints of a mapping.
-/

set_option autoImplicit false

namespace PdFleet.Bridge.Fake

/-! ## Settings and errors -/

/-- What a gateway is made with. -/
structure Settings where
  activationTtl : ℕ
  heartbeatTtl : ℕ
  /-- `int(heartbeat_ttl.total_seconds() * 1000)`. -/
  ttlMs : ℕ
  retention : ℕ
  activation_pos : 0 < activationTtl
  heartbeat_pos : 0 < heartbeatTtl
  retention_pos : 0 < retention
  repr : Obj → String

inductive Code where
  | activationInvalid
  | invalidRequest
  | capabilityDenied
  | associationRequired
  | associationStale
  | foreignOwner
  | resyncRequired
  | cursorStale
  | cursorExpired
  | replayGap
  | noNewEvents
  deriving DecidableEq, Repr

/-- An error of the gateway with its audit reason, or one of a contract that it makes. -/
inductive Refusal where
  | code (c : Code) (reason : String)
  | contract (e : Raised)
  deriving DecidableEq, Repr

def refuse {α : Type} (c : Code) (reason : String) : Except Refusal α := .error (.code c reason)

/-- `_uniform`. -/
def uniform {α : Type} (reason : String) : Except Refusal α := refuse .activationInvalid reason

/-- A contract that the gateway makes. -/
def contract {α : Type} (x : Except Raised α) : Except Refusal α := x.mapError .contract

/-- `isoformat().replace("+00:00", "Z")`, which leaves a fraction of zero out. -/
def clockText (t : ℕ) : String :=
  if t%1000000 = 0 then String.ofList ((isoformat t).take 19++['Z'])
  else String.ofList (isoformat t)

/-! ## State -/

/-- A binding, whose purpose is always to observe. -/
structure ActivationBinding where
  observerRef : Option Ref
  ownerRef : Option Ref
  profileRef : Option Ref
  workspaceRef : Option Ref
  sessionRef : Option Ref
  associationRef : Option Ref
  deriving DecidableEq

structure Ticket where
  binding : ActivationBinding
  issuedAt : ℕ
  expiresAt : ℕ
  consumedOperation : Option String
  association : Option AssociationRef

structure Association (U : Nfc) where
  ref : AssociationRef
  binding : ActivationBinding
  epoch : String
  status : String
  sequence : ℕ
  metadataVersion : ℕ
  heartbeatAt : Option ℕ
  associatedAt : ℕ
  heartbeatSequence : ℕ
  events : List (BridgeEvent U)
  revoked : Bool

/-- The associations are also kept in the order in which they were made. A generation of zero
is that of an observer that has never connected. -/
structure Gateway (U : Nfc) where
  counter : ℕ
  resetGeneration : ℕ
  tickets : String → Option Ticket
  associations : String → Option (Association U)
  order : List String
  connected : Option Ref → Bool
  generations : Option Ref → ℕ

variable {U : Nfc}

def Gateway.start : Gateway U := ⟨0,0,fun _ => none,fun _ => none,[],fun _ => false,fun _ => 0⟩

def Gateway.put (g : Gateway U) (key : String) (a : Association U) : Gateway U :=
  { g with associations := Function.update g.associations key (some a) }

def Gateway.putTicket (g : Gateway U) (value : String) (item : Ticket) : Gateway U :=
  { g with tickets := Function.update g.tickets value (some item) }

/-- The key of a reference in the tables. -/
def keyOf (r : Option Ref) : String := (r.map (·.val)).getD ""

def sameRef (a b : AssociationRef) : Bool :=
  a.association_ref = b.association_ref && a.session_ref = b.session_ref &&
    a.owner_ref = b.owner_ref && a.profile_ref = b.profile_ref &&
    a.workspace_ref = b.workspace_ref && a.ownership_mode = b.ownership_mode

/-! ## Events -/

variable (G : Settings)

/-- The id of an event. -/
def eventId (a : Association U) (type occurred : String) (payload : Obj) : String :=
  let identity := keyOf a.ref.association_ref ++ "|" ++ a.epoch ++ "|" ++ toString a.sequence ++
    "|" ++ type ++ "|" ++ occurred ++ "|" ++ G.repr payload
  "evt-" ++ String.ofList ((sha256Hex identity).toList.take 24)

def provenance (a : Association U) : Obj :=
  [("transport",.str "gateway-event-stream"),
    ("correlation_id",.str ("corr-" ++ keyOf a.ref.association_ref))]

/-- The event of the association's number. -/
@[irreducible]
def makeEvent (a : Association U) (type : String) (payload : Obj) (now : ℕ) :
    Except Raised (BridgeEvent U) :=
  BridgeEvent.make U (.str SCHEMA_VERSION) (.str (eventId G a type (clockText now) payload))
    (.str type) (.str (clockText now)) (.str "hermes-gateway")
    (.str EventOrigin.gatewayNative.value) (optionalText a.ref.session_ref)
    (optionalText a.ref.association_ref) (.str a.ref.ownership_mode.value) (.str a.epoch)
    (.int a.sequence) (.obj payload) (.obj (provenance a)) .null

def Association.numbered (a : Association U) : Association U := { a with sequence := a.sequence+1 }

/-- The association after an event was made, or could not be made. -/
def Association.keep (a : Association U) : Except Raised (BridgeEvent U) → Association U
  | .error _ => a
  | .ok e => { a with events := (a.events++[e]).rtake G.retention }

/-- `_append`: the number is taken before the event is made, and is lost if it cannot be made. -/
def append (a : Association U) (type : String) (payload : Obj) (now : ℕ) :
    Association U × Except Raised (BridgeEvent U) :=
  let event := makeEvent G a.numbered type payload now
  (a.numbered.keep G event,event)

/-! ## Looking up -/

variable (g : Gateway U) (o : ObserverIdentity)

/-- `_ensure_connected`. -/
def ensureConnected (generation : Option ℕ) : Except Refusal Unit :=
  if !g.connected o.observer_ref || generation.any (· ≠ g.generations o.observer_ref) then
    uniform "disconnected"
  else .ok ()

/-- `_association_ref`. -/
def associationRef : Target → Except Refusal String
  | .association r => .ok (keyOf r.association_ref)
  | .text s => if s = "" then refuse .invalidRequest "malformed_association" else .ok s

def bound (a : Association U) : Bool :=
  a.binding.observerRef = o.observer_ref && a.binding.ownerRef = o.owner_ref &&
    a.binding.profileRef = o.profile_ref

/-- An association of the observer. -/
def find (key : String) : Except Refusal (Association U) :=
  match g.associations key with
  | none => refuse .associationRequired "unknown_association"
  | some a => if bound o a then .ok a else refuse .foreignOwner "observer_binding_mismatch"

/-- `_state`. -/
def stateOf (key : String) : Except Refusal (Association U) := do
  let a ← find g o key
  if a.revoked then refuse .associationStale "revoked" else .ok a

def snapshotOf (a : Association U) : Except Raised SessionSnapshot :=
  SessionSnapshot.make (optionalText a.ref.session_ref) (optionalText a.ref.association_ref)
    (.str a.ref.ownership_mode.value) (.str a.status) (.str a.epoch) (.int a.sequence)
    (.int a.metadataVersion)

/-- `_cursor`. -/
def cursorOf (a : Association U) (lastSequence now : ℕ) : Except Raised BridgeCursor :=
  if maxInstant < now+G.activationTtl then .error .overflow
  else BridgeCursor.make (.str SCHEMA_VERSION) (optionalText a.ref.association_ref)
    (optionalText a.binding.observerRef) (.str a.epoch) (.int lastSequence) (.str (clockText now))
    (.str (clockText (now+G.activationTtl)))

/-! ## Activations -/

/-- The keyword arguments of `issue_activation`. -/
structure Issue where
  ownerRef : Json
  profileRef : Json
  workspaceRef : Json
  sessionRef : Json
  associationRef : Json
  purpose : Json

/-- A purpose has to be a text, and then the one that there is. -/
def checkPurpose (purpose : Json) : Except Refusal Unit :=
  if purpose.isStr "pd_observation" then .ok () else refuse .capabilityDenied "capability_denied"

def isGiven : Json → Bool
  | .str s => s ≠ ""
  | _ => false

def Issue.binding (o : ObserverIdentity) (requested : AssociationRef) : ActivationBinding where
  observerRef := o.observer_ref
  ownerRef := requested.owner_ref
  profileRef := requested.profile_ref
  workspaceRef := requested.workspace_ref
  sessionRef := requested.session_ref
  associationRef := requested.association_ref

/-- Another association has the reference already. -/
def collides (r : AssociationRef) (b : ActivationBinding) : Bool :=
  (g.associations (keyOf r.association_ref)).any (fun a => !sameRef a.ref r || a.binding ≠ b)

/-- The value of a new ticket. -/
@[irreducible]
def opaqueValue (counter : ℕ) : String :=
  String.ofList ((sha256Hex ("ticket-" ++ toString counter ++ "|" ++
    toString g.resetGeneration)).toList.take 32)

/-- The reference that an activation asks for, and the gateway that has counted a new one. -/
def chosenRef (r : Issue) : Gateway U × Json :=
  if r.associationRef.truth then (g,r.associationRef)
  else ({ g with counter := g.counter+1 },.str ("assoc-" ++ toString (g.counter+1)))

/-- `issue_activation` of a checked request. -/
def issueTicket (requested : AssociationRef) (now : ℕ) :
    Gateway U × Except Refusal ActivationTicketRef :=
  let b := Issue.binding o requested
  if collides g requested b then (g,uniform "association_collision")
  else
    let g := { g with counter := g.counter+1 }
    let value := opaqueValue g g.counter
    if maxInstant < now+G.activationTtl then (g,.error (.contract .overflow))
    else (g.putTicket value ⟨b,now,now+G.activationTtl,none,none⟩,
      contract (ActivationTicketRef.make (.str value) .null))

/-- `issue_activation`. -/
def issueActivation (r : Issue) (now : ℕ) : Gateway U × Except Refusal ActivationTicketRef :=
  if !isGiven r.purpose then (g,refuse .invalidRequest "malformed_activation")
  else match ensureConnected g o none >>= fun _ => checkPurpose r.purpose with
    | .error e => (g,.error e)
    | .ok _ =>
      let (g,association) := chosenRef g r
      match AssociationRef.make association r.sessionRef r.ownerRef r.profileRef r.workspaceRef
          (.str OwnershipMode.userOwnedSession.value) with
      | .error e => (g,.error (.contract e))
      | .ok requested => issueTicket G g o requested now

/-- The arguments of `consume_activation`. -/
structure Consume where
  ticket : Activation
  ownerRef : Json
  profileRef : Json
  workspaceRef : Json
  sessionRef : Json
  associationRef : Json
  purpose : Json
  operationKey : Json
  ownershipMode : Json

def Gateway.lookup (g : Gateway U) (value : String) : Except Refusal (String × Ticket) :=
  match g.tickets value with
  | none => uniform "unknown_ticket"
  | some item => .ok (value,item)

/-- `_ticket`. -/
def ticketOf : Activation → Except Refusal (String × Ticket)
  | .ticket r => g.lookup r.activation_ref.val
  | .object (.str s) => g.lookup s
  | .object _ => uniform "malformed_ticket"

/-- A value is the text of a reference, or `None` where there is none. -/
def isRef : Json → Option Ref → Bool
  | .null, none => true
  | .str s, some r => s = r.val
  | _, _ => false

/-- `_binding`. -/
def bindingMatches (r : Consume) (b : ActivationBinding) : Bool :=
  o.observer_ref = b.observerRef && o.owner_ref = b.ownerRef && o.profile_ref = b.profileRef &&
    isRef r.ownerRef b.ownerRef && isRef r.profileRef b.profileRef &&
    isRef r.workspaceRef b.workspaceRef && isRef r.sessionRef b.sessionRef &&
    isRef r.associationRef b.associationRef

/-- The ticket after it is consumed. -/
def Gateway.consume (g : Gateway U) (value : String) (item : Ticket) (key : String)
    (r : AssociationRef) : Gateway U :=
  g.putTicket value { item with consumedOperation := some key, association := some r }

def epochText (n : ℕ) : String := "epoch-" ++ toString n

def newAssociation (r : AssociationRef) (b : ActivationBinding) (epoch : String) (now : ℕ) :
    Association U where
  ref := r
  binding := b
  epoch := epoch
  status := "observing"
  sequence := 0
  metadataVersion := 0
  heartbeatAt := none
  associatedAt := now
  heartbeatSequence := 0
  events := []
  revoked := false

def registered (a : Association U) : Obj :=
  [("runtime_surface",.str "gateway"),("metadata_version",.int a.metadataVersion)]

/-- The first use of a ticket. -/
def consumeFirst (value key : String) (item : Ticket) (assoc : AssociationRef) (now later : ℕ) :
    Gateway U × Except Refusal AssociationRef :=
  match g.associations (keyOf assoc.association_ref) with
  | some existing =>
    if !sameRef existing.ref assoc || existing.binding ≠ item.binding then
      (g,uniform "association_collision")
    else (g.consume value item key existing.ref,.ok existing.ref)
  | none =>
    let g := { g with counter := g.counter+1 }
    let a := newAssociation assoc item.binding (epochText g.counter) now
    let g := { g.consume value item key assoc with
      order := g.order++[keyOf assoc.association_ref] }
    let p := append G a "session.registered" (registered a) later
    (g.put (keyOf assoc.association_ref) p.1,contract (p.2.map (fun _ => assoc)))

/-- `consume_activation` with a ticket that fits. -/
def consumeTicket (r : Consume) (value key : String) (item : Ticket) (now later : ℕ) :
    Gateway U × Except Refusal AssociationRef :=
  if !bindingMatches o r item.binding then (g,uniform "binding_mismatch")
  else if item.expiresAt ≤ now then (g,uniform "expired")
  else match item.consumedOperation with
    | some used =>
      match item.association with
      | some assoc => (g,if used = key then .ok assoc else uniform "replayed")
      | none => (g,uniform "replayed")
    | none =>
      match AssociationRef.make r.associationRef r.sessionRef r.ownerRef r.profileRef
          r.workspaceRef r.ownershipMode with
      | .error e => (g,.error (.contract e))
      | .ok assoc =>
        if assoc.ownership_mode = .fleetOwnedTask then
          (g,refuse .capabilityDenied "fleet_owned_task")
        else consumeFirst G g value key item assoc now later

/-- `consume_activation`. -/
def consumeActivation (r : Consume) (now later : ℕ) : Gateway U × Except Refusal AssociationRef :=
  match r.operationKey with
  | .str key =>
    if key = "" then (g,refuse .invalidRequest "malformed_consume")
    else match ensureConnected g o none >>= fun _ => checkPurpose r.purpose >>= fun _ =>
        ticketOf g r.ticket with
      | .error e => (g,.error e)
      | .ok (value,item) => consumeTicket G g o r value key item now later
  | _ => (g,refuse .invalidRequest "malformed_consume")

/-! ## Streams -/

structure StreamResult (U : Nfc) where
  snapshot : SessionSnapshot
  boundaryRef : String
  cursor : BridgeCursor
  events : List (BridgeEvent U)

/-- The limit of a call, one hundred where none is given. -/
def replayLimit : Json → Except Refusal ℕ
  | .null => .ok MAX_REPLAY_BATCH
  | .int n =>
    if 1 ≤ n ∧ n ≤ (MAX_REPLAY_BATCH : ℤ) then .ok n.toNat
    else refuse .invalidRequest "invalid_replay_limit"
  | _ => refuse .invalidRequest "invalid_replay_limit"

/-- The interval of a cursor against the clock. -/
def checkInterval (c : BridgeCursor) (now : ℕ) : Except Refusal Unit :=
  match readStamp c.issued_at.val, readStamp c.expires_at.val with
  | some issued, some expires => do
    let i ← contract (astimezone issued)
    if (now : ℤ) < i then refuse .cursorStale "future_cursor"
    else do
      let x ← contract (astimezone expires)
      if x ≤ (now : ℤ) then refuse .cursorExpired "cursor_expired" else .ok ()
  | _, _ => refuse .cursorStale "invalid_cursor_time"

/-- The checks of `_replay` on a cursor. -/
def checkCursor (a : Association U) (c : BridgeCursor) (now : ℕ) : Except Refusal Unit :=
  if some c.association_ref ≠ a.ref.association_ref ∨ some c.subscriber_ref ≠ a.binding.observerRef
  then uniform "cursor_binding_mismatch"
  else if c.stream_epoch.val ≠ a.epoch then refuse .resyncRequired "epoch_changed"
  else do
    checkInterval c now
    if a.sequence < c.last_sequence.val then refuse .cursorStale "future_cursor" else .ok ()

def checkCursors (a : Association U) (cursor : Option BridgeCursor) (now : ℕ) :
    Except Refusal Unit :=
  match cursor with
  | none => .ok ()
  | some c => checkCursor a c now

/-- The events after a number, if all of them are retained. -/
def eventsAfter (a : Association U) (after limit : ℕ) : Except Refusal (List (BridgeEvent U)) :=
  if a.events.head?.any (fun e => after+1 < e.val.sequence.val) then
    refuse .replayGap "retention_gap"
  else
    let result := (a.events.filter (fun e => after < e.val.sequence.val)).take limit
    if result = [] then refuse .noNewEvents "no_new_events" else .ok result

/-- `_replay`. -/
def replayEvents (a : Association U) (window : ReplayWindow) (cursor : Option BridgeCursor)
    (now : ℕ) : Except Refusal (List (BridgeEvent U)) :=
  if cursor.any (fun c => window.association_ref ≠ c.association_ref ||
      window.stream_epoch ≠ c.stream_epoch ||
      window.after_sequence.val ≠ c.last_sequence.val) then
    uniform "cursor_window_mismatch"
  else if window.stream_epoch.val ≠ a.epoch then refuse .resyncRequired "epoch_changed"
  else do
    checkCursors a cursor now
    eventsAfter a window.after_sequence.val window.limit.val

/-- The result of a stream call. -/
def streamResult (a : Association U) (snapshot : SessionSnapshot) (events : List (BridgeEvent U))
    (lastSequence later : ℕ) : Except Refusal (StreamResult U) := do
  let cursor ← contract (cursorOf G a lastSequence later)
  .ok ⟨snapshot,"boundary-" ++ toString a.sequence,cursor,events⟩

/-- `snapshot`. -/
def snapshot (association : Target) : Except Refusal SessionSnapshot := do
  ensureConnected g o none
  let key ← associationRef association
  let a ← stateOf g o key
  contract (snapshotOf a)

/-- The events that `subscribe` hands over. -/
def subscribedEvents (a : Association U) (cursor : Option BridgeCursor) (limit now : ℕ) :
    Except Refusal (List (BridgeEvent U)) :=
  match cursor with
  | none => .ok (a.events.take limit)
  | some c => do
    let window ← contract (ReplayWindow.make (optionalText a.ref.association_ref) (.str a.epoch)
      (.int c.last_sequence.val) (.int limit))
    let events ← replayEvents a window (some c) now
    .ok (events.take limit)

/-- `subscribe`. -/
def subscribe (association : Target) (cursor : Option BridgeCursor) (limit : Json)
    (now later : ℕ) : Except Refusal (StreamResult U) := do
  ensureConnected g o none
  let key ← associationRef association
  let a ← stateOf g o key
  let snapshot ← contract (snapshotOf a)
  let limit ← replayLimit limit
  let events ← subscribedEvents a cursor limit now
  let last := match events.getLast? with
    | some e => e.val.sequence.val
    | none => (cursor.map (·.last_sequence.val)).getD a.sequence
  streamResult G a snapshot events last later

/-- `replay`. -/
def replay (window : ReplayWindow) (cursor : Option BridgeCursor) (now later : ℕ) :
    Except Refusal (StreamResult U) := do
  ensureConnected g o none
  let a ← stateOf g o window.association_ref.val
  let snapshot ← contract (snapshotOf a)
  let events ← replayEvents a window cursor now
  -- the events are not empty
  let last := (events.getLast?.map (·.val.sequence.val)).getD 0
  streamResult G a snapshot events last later

/-- `events`, of an association that may have been revoked. -/
def listEvents (association : Target) (limit : Json) : Except Refusal (List (BridgeEvent U)) := do
  ensureConnected g o none
  let limit ← replayLimit limit
  let key ← associationRef association
  match g.associations key with
  | none => .ok []
  | some a =>
    if !bound o a then refuse .foreignOwner "observer_binding_mismatch"
    else if limit < a.events.length then .error (.contract (.bridge .invalidEvent
      (some "malformed_event_batch")))
    else .ok a.events

/-! ## Changes of an association -/

def heartbeatPayload (a : Association U) (now : ℕ) : Obj :=
  [("heartbeat_sequence",.int a.heartbeatSequence),("observed_at",.str (clockText now)),
    ("ttl_ms",.int G.ttlMs)]

def Association.beaten (a : Association U) (now : ℕ) : Association U :=
  { a with heartbeatAt := some now, heartbeatSequence := a.heartbeatSequence+1 }

/-- `heartbeat`. -/
def heartbeat (association : Target) (now later : ℕ) :
    Gateway U × Except Refusal (SessionSnapshot × BridgeEvent U) :=
  match ensureConnected g o none >>= fun _ => associationRef association >>= fun key =>
      (stateOf g o key).map (fun a => (key,a)) with
  | .error e => (g,.error e)
  | .ok (key,a) =>
    let p := append G (a.beaten now) "session.heartbeat" (heartbeatPayload G (a.beaten now) now)
      later
    (g.put key p.1,contract (p.2 >>= fun e => (snapshotOf p.1).map (fun s => (s,e))))

def detachedPayload (a : Association U) : Obj :=
  [("reason_code",.str "user_requested"),("metadata_version",.int a.metadataVersion)]

def Association.detached (a : Association U) : Association U :=
  { a with revoked := true, status := "detached" }

/-- `revoke`, which looks an association up by any key. -/
def revoke (association : Target) (now : ℕ) : Gateway U × Except Refusal (Option (BridgeEvent U)) :=
  let key := (association.ref).getD ""
  match ensureConnected g o none >>= fun _ => find g o key with
  | .error e => (g,.error e)
  | .ok a =>
    if a.revoked then (g,.ok none)
    else
      let p := append G a.detached "session.detached" (detachedPayload a) now
      (g.put key p.1,contract (p.2.map some))

def endedPayload (a : Association U) : Obj :=
  [("terminal_state",.str "disconnected"),("reason_code",.str "timeout"),
    ("metadata_version",.int a.metadataVersion)]

def Association.ended (a : Association U) : Association U :=
  { a with revoked := true, status := "ended" }

/-- The association was not heard of for too long. -/
def isStale (a : Association U) (now : ℕ) : Bool :=
  !a.revoked && G.heartbeatTtl+a.heartbeatAt.getD a.associatedAt ≤ now

/-- `expire_stale` over the associations that are left. -/
def expireFrom (now : ℕ) (later : String → ℕ) : List String → Gateway U → ℕ →
    Gateway U × Except Refusal ℕ
  | [], g, changed => (g,.ok changed)
  | key :: keys, g, changed =>
    match g.associations key with
    | none => expireFrom now later keys g changed
    | some a =>
      if isStale G a now then
        let p := append G a.ended "session.ended" (endedPayload a) (later key)
        match p.2 with
        | .error e => (g.put key p.1,.error (.contract e))
        | .ok _ => expireFrom now later keys (g.put key p.1) (changed+1)
      else expireFrom now later keys g changed

/-- `expire_stale`. -/
def expireStale (now : ℕ) (later : String → ℕ) : Gateway U × Except Refusal ℕ :=
  expireFrom G now later g.order g 0

/-- `reset`. -/
def Gateway.reset (g : Gateway U) : Gateway U :=
  { g with
    resetGeneration := g.resetGeneration+1
    tickets := fun _ => none
    associations := fun _ => none
    order := []
    connected := fun _ => false
    generations := fun r => if g.generations r = 0 then 0 else g.generations r+1 }

/-! ## Connections -/

/-- A connection facade. -/
structure Connection where
  observer : ObserverIdentity
  generation : ℕ
  closed : Bool

structure System (U : Nfc) where
  gateway : Gateway U
  connections : List Connection

def System.start : System U := ⟨Gateway.start,[]⟩

/-- `connect` of the gateway. -/
def Gateway.connect (g : Gateway U) (o : ObserverIdentity) : Gateway U :=
  { g with
    connected := Function.update g.connected o.observer_ref true
    generations := Function.update g.generations o.observer_ref (g.generations o.observer_ref+1) }

/-- `disconnect` of the gateway. -/
def Gateway.disconnect (g : Gateway U) (o : ObserverIdentity) : Gateway U × Except Refusal Unit :=
  match ensureConnected g o none with
  | .error e => (g,.error e)
  | .ok _ => ({ g with
      connected := Function.update g.connected o.observer_ref false
      generations := Function.update g.generations o.observer_ref
        (g.generations o.observer_ref+1) },.ok ())

/-- Who makes a call: an observer at the gateway itself, or one of the connections. -/
inductive Caller where
  | direct (o : ObserverIdentity)
  | facade (n : ℕ)

inductive Request where
  | issueActivation (r : Issue) (now : ℕ)
  | consumeActivation (r : Consume) (now later : ℕ)
  | snapshot (association : Target)
  | subscribe (association : Target) (cursor : Option BridgeCursor) (limit : Json) (now later : ℕ)
  | replay (window : ReplayWindow) (cursor : Option BridgeCursor) (now later : ℕ)
  | events (association : Target) (limit : Json)
  | heartbeat (association : Target) (now later : ℕ)
  | revoke (association : Target) (now : ℕ)

inductive Reply (U : Nfc) where
  | ticket (r : ActivationTicketRef)
  | association (r : AssociationRef)
  | snapshot (s : SessionSnapshot)
  | stream (r : StreamResult U)
  | events (es : List (BridgeEvent U))
  | heartbeat (s : SessionSnapshot) (e : BridgeEvent U)
  | revoked (e : Option (BridgeEvent U))

/-- A request of an observer. -/
def ask : Request → Gateway U × Except Refusal (Reply U)
  | .issueActivation r now => (issueActivation G g o r now).map id (·.map .ticket)
  | .consumeActivation r now later =>
    (consumeActivation G g o r now later).map id (·.map .association)
  | .snapshot association => (g,(snapshot g o association).map .snapshot)
  | .subscribe association cursor limit now later =>
    (g,(subscribe G g o association cursor limit now later).map .stream)
  | .replay window cursor now later => (g,(replay G g o window cursor now later).map .stream)
  | .events association limit => (g,(listEvents g o association limit).map .events)
  | .heartbeat association now later =>
    (heartbeat G g o association now later).map id (·.map (fun p => .heartbeat p.1 p.2))
  | .revoke association now => (revoke G g o association now).map id (·.map .revoked)

/-- `_check` of a connection. -/
def Connection.check (g : Gateway U) (c : Connection) : Except Refusal Unit :=
  if c.closed then uniform "disconnected"
  else ensureConnected g c.observer (some c.generation)

/-- `events` of a connection reads the association before it passes the call on. -/
def forward : Request → Except Refusal Unit
  | .events association _ => (associationRef association).map (fun _ => ())
  | _ => .ok ()

/-- The observer that a request is passed on for; there are no other connections. -/
def System.observer (s : System U) (r : Request) : Caller → Except Refusal ObserverIdentity
  | .direct o => .ok o
  | .facade n =>
    match s.connections[n]? with
    | none => uniform "disconnected"
    | some c => (c.check s.gateway >>= fun _ => forward r).map (fun _ => c.observer)

inductive Step where
  | connect (o : ObserverIdentity)
  | disconnect (caller : Caller)
  | ask (caller : Caller) (r : Request)
  | expireStale (now : ℕ) (later : String → ℕ)
  | reset

/-- `disconnect` of a connection, which may be stale but not closed. -/
def disconnectFacade (s : System U) (n : ℕ) : System U × Except Refusal Unit :=
  match s.connections[n]? with
  | none => (s,uniform "disconnected")
  | some c =>
    if c.closed then (s,uniform "disconnected")
    else
      let p := s.gateway.disconnect c.observer
      (⟨p.1,s.connections.set n { c with closed := true }⟩,p.2)

/-- What a call is answered with, if it is a request. -/
def step (s : System U) : Step → System U × Option (Except Refusal (Reply U))
  | .connect o =>
    let g := s.gateway.connect o
    (⟨g,s.connections++[⟨o,g.generations o.observer_ref,false⟩]⟩,none)
  | .disconnect (.direct o) => ({ s with gateway := (s.gateway.disconnect o).1 },none)
  | .disconnect (.facade n) => ((disconnectFacade s n).1,none)
  | .ask caller r =>
    match s.observer r caller with
    | .error e => (s,some (.error e))
    | .ok o =>
      let p := ask G s.gateway o r
      ({ s with gateway := p.1 },some p.2)
  | .expireStale now later => ({ s with gateway := (expireStale G s.gateway now later).1 },none)
  | .reset => ({ s with gateway := s.gateway.reset },none)

end PdFleet.Bridge.Fake
