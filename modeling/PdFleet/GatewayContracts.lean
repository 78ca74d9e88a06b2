import PdFleet.Clock
import PdFleet.ReadBack
import PdFleet.Redact

/-!
# The contracts of the gateway bridge

The checked values that the bridge exchanges with its gateway, each with its constructor
from data and its wire form. Normalization of a text is that of Unicode's form C; of it only
two laws are used.
-/

set_option autoImplicit false

namespace PdFleet.Bridge

open Pattern

def SCHEMA_VERSION : String := "pd-fleet-gateway-bridge:v1"
def MAX_STRING_BYTES : ℕ := 256
def MAX_REF_BYTES : ℕ := 128
def MAX_PAYLOAD_BYTES : ℕ := 4096
def MAX_PROVENANCE_REFS : ℕ := 8
def MAX_LIST_ITEMS : ℕ := 32
def MAX_SEQUENCE : ℕ := 2^63-1
def MAX_NESTING_DEPTH : ℕ := 4
def MAX_ENVELOPE_BYTES : ℕ := 8192
def MAX_REPLAY_BATCH : ℕ := 100
def RUNTIME_SURFACES : List String := ["gateway", "gateway_bridge"]
def STATUSES : List String := ["observing", "active", "idle", "paused", "detached", "ended"]
def REASON_CODES : List String :=
  ["user_requested", "timeout", "expired", "disconnected", "error", "reconciled"]
def TERMINAL_STATES : List String := ["completed", "cancelled", "failed", "disconnected"]
def CHANGED_FIELDS : List String := ["status", "metadata", "runtime_surface", "ownership_mode"]
def LIFECYCLE_EVENT_TYPES : List String :=
  ["session.registered", "session.status_changed", "session.heartbeat",
    "session.metadata_changed", "session.detached", "session.ended"]

inductive BridgeErrorCode where
  | invalidRequest
  | associationRequired
  | associationStale
  | invalidProvenance
  | unsupportedSchema
  | unsupportedEvent
  | invalidEvent
  | payloadTooLarge
  | capabilityDenied
  | cursorStale
  | replayGap
  | resyncRequired
  deriving DecidableEq, Repr

/-- A `BridgeValidationError` with its code and audit reason, and the `OverflowError` of an
instant that leaves the calendar in UTC. -/
inductive Raised where
  | bridge (code : BridgeErrorCode) (reason : Option String)
  | overflow
  deriving DecidableEq, Repr

def fail {α : Type} (code : BridgeErrorCode) : Except Raised α := .error (.bridge code none)

def failWith {α : Type} (code : BridgeErrorCode) (reason : String) : Except Raised α :=
  .error (.bridge code (some reason))

/-- An `except` clause for `ValueError`, which a `BridgeValidationError` is and an
`OverflowError` is not, that raises another error. -/
def recast {α : Type} (code : BridgeErrorCode) (reason : String) (x : Except Raised α) :
    Except Raised α :=
  match x with
  | .error (.bridge _ _) => failWith code reason
  | _ => x

@[simp] theorem recast_ok {α : Type} {code : BridgeErrorCode} {reason : String}
    {x : Except Raised α} {a : α} : recast code reason x = .ok a ↔ x = .ok a := by
  cases x with
  | ok b => rfl
  | error e => cases e <;> simp [recast, failWith]

/-- The outcome of a check, kept as a proof. -/
def holds {ε : Type} (x : Except ε Unit) : Except ε (PLift (x = .ok ())) :=
  match x with
  | .ok () => .ok ⟨rfl⟩
  | .error e => .error e

/-- `unicodedata.normalize("NFC", text)`. -/
structure Nfc where
  normalize : String → String
  idem : ∀ s, normalize (normalize s) = normalize s
  ascii : ∀ s, s.toList.all (fun c => c.toNat < 128) = true → normalize s = s

/-! ## Texts -/

/-- `_SENSITIVE`. -/
def sensitive : Pattern :=
  oneOf ((["prompt", "history", "message", "tool", "provider", "credential", "secret", "token",
      "password", "terminal", "path", "url", "uri", "authorization", "cookie"].map
      (word foldCase)) ++
    [seq (word foldCase "api") (seq (opt (char (· ≠ '\n'))) (word foldCase "key"))])

def isSensitive (s : String) : Bool := search sensitive s.toList

def isLetter (c : Char) : Bool := 'a' ≤ foldCase c && foldCase c ≤ 'z'

/-- `(?:https?://|ftp://|/[^ ]+|[A-Za-z]:\\\\)`. -/
def located : Pattern :=
  oneOf [seq (word foldCase "http") (seq (opt (word foldCase "s")) (word id "://")),
    seq (word foldCase "ftp") (word id "://"), seq (char (· = '/')) (many1 (· ≠ ' ')),
    seq (char isLetter) (word id ":\\\\")]

def isLocated (s : String) : Bool := search located s.toList

def isRefChar (c : Char) : Bool := c.isAlphanum || c ∈ ['.', '_', ':', '-']

/-- `[A-Za-z0-9][A-Za-z0-9._:-]{0,127}`. -/
def refMatches (s : String) : Bool :=
  match s.toList with
  | [] => false
  | c :: t => c.isAlphanum && t.all isRefChar && t.length ≤ 127

/-- `_string` of a text. -/
def stringText (ref allowEmpty : Bool) (s : String) : Except Raised Unit :=
  if !allowEmpty ∧ s = "" then fail .invalidEvent
  else if (if ref then MAX_REF_BYTES else MAX_STRING_BYTES) < s.utf8ByteSize then
    fail .payloadTooLarge
  else if s.toList.any (fun c => c ∈ ['\x00', '\n', '\r']) then fail .invalidEvent
  else if ref ∧ (!refMatches s ∨ s.toList.any (fun c => c ∈ ['/', '\\'])) then fail .invalidEvent
  else .ok ()

/-- `_ref` of a text. -/
def refText (s : String) : Except Raised Unit := do
  stringText true false s
  if ':' ∈ s.toList ∨ isSensitive s then failWith .invalidEvent "redaction_denied" else .ok ()

/-- `datetime.fromisoformat(text.replace("Z", "+00:00"))`. -/
def readStamp (s : String) : Option Stamp := fromisoformat (replaceZ s.toList)

/-- `_timestamp` of a text. -/
def timestampText (s : String) : Except Raised Unit := do
  stringText false false s
  match readStamp s with
  | none => fail .invalidEvent
  | some t => if t.offset = none then fail .invalidEvent else .ok ()

/-- The instant of an aware stamp in UTC. -/
def astimezone (t : Stamp) : Except Raised ℤ :=
  let u : ℤ := t.instant-t.offset.getD 0
  if 0 ≤ u ∧ u ≤ maxInstant then .ok u else .error .overflow

/-- The interval of a cursor. -/
def intervalText (issued_at expires_at : String) : Except Raised Unit :=
  match readStamp issued_at, readStamp expires_at with
  | some issued, some expires =>
    if issued.offset = none ∨ expires.offset = none then
      failWith .invalidEvent "invalid_cursor_interval"
    else do
      let e ← astimezone expires
      let i ← astimezone issued
      if e < i then failWith .invalidEvent "invalid_cursor_interval" else .ok ()
  | _, _ => fail .invalidEvent

/-! ## Checked values -/

abbrev Ref := {s : String // refText s = .ok ()}

abbrev Timestamp := {s : String // timestampText s = .ok ()}

abbrev Count (minimum maximum : ℕ) := {n : ℕ // minimum ≤ n ∧ n ≤ maximum}

abbrev Sequence := Count 0 MAX_SEQUENCE

def METADATA_MAX : ℕ := 2^31-1

abbrev Metadata := Count 0 METADATA_MAX

inductive OwnershipMode where
  | userOwnedSession
  | fleetOwnedTask
  deriving DecidableEq, Repr

def OwnershipMode.value : OwnershipMode → String
  | .userOwnedSession => "user_owned_session"
  | .fleetOwnedTask => "fleet_owned_task"

inductive EventOrigin where
  | gatewayNative
  | fleetReconciled
  deriving DecidableEq, Repr

def EventOrigin.value : EventOrigin → String
  | .gatewayNative => "gateway_native"
  | .fleetReconciled => "fleet_reconciled"

/-- A value that has to be a text. -/
def asText (v : Json) : Except Raised String :=
  match v with
  | .str s => .ok s
  | _ => fail .invalidEvent

/-- `_ref`. -/
def ref (v : Json) : Except Raised Ref := do
  let s ← asText v
  let ⟨h⟩ ← holds (refText s)
  .ok ⟨s,h⟩

/-- A reference that may be missing. -/
def optionalRef (v : Json) : Except Raised (Option Ref) :=
  match v with
  | .null => .ok none
  | _ => do
    let r ← ref v
    .ok (some r)

/-- `_timestamp`. -/
def timestamp (v : Json) : Except Raised Timestamp := do
  let s ← asText v
  let ⟨h⟩ ← holds (timestampText s)
  .ok ⟨s,h⟩

/-- `_integer`. -/
def integer (minimum maximum : ℕ) (v : Json) : Except Raised (Count minimum maximum) :=
  match v with
  | .int n =>
    if h : minimum ≤ n.toNat ∧ n.toNat ≤ maximum ∧ 0 ≤ n then .ok ⟨n.toNat,h.1,h.2.1⟩
    else fail .invalidEvent
  | _ => fail .invalidEvent

/-- `_enum`, with the values of the members. -/
def enum {α : Type} (members : List (String × α)) (v : Json) : Except Raised α :=
  match v with
  | .str s =>
    match members.lookup s with
    | some a => .ok a
    | none => failWith .invalidEvent "unknown_enum"
  | _ => failWith .invalidEvent "unknown_enum"

def ownershipMode (v : Json) : Except Raised OwnershipMode :=
  enum ([.userOwnedSession, .fleetOwnedTask].map (fun m : OwnershipMode => (m.value,m))) v

def eventOrigin (v : Json) : Except Raised EventOrigin :=
  enum ([.gatewayNative, .fleetReconciled].map (fun m : EventOrigin => (m.value,m))) v

/-- A text of a closed list, after `_string`. -/
def listed (names : List String) (code : BridgeErrorCode) (reason : Option String) (v : Json) :
    Except Raised {s : String // s ∈ names} := do
  let s ← asText v
  stringText false false s
  if h : s ∈ names then .ok ⟨s,h⟩ else .error (.bridge code reason)

/-! ## Freezing and serializing -/

def keyText (k : String) : Except Raised Unit := do
  stringText false false k
  if isSensitive k ∧ k ≠ "terminal_state" then failWith .invalidEvent "redaction_denied"
  else .ok ()

def valueText (s : String) : Except Raised Unit := do
  stringText false true s
  if isSensitive s ∨ isLocated s then failWith .invalidEvent "redaction_denied" else .ok ()

mutual

/-- `_freeze`, which returns its value; here its checks. -/
def freeze (provenance : Bool) (depth : ℕ) (value : Json) : Except Raised Unit :=
  if MAX_NESTING_DEPTH < depth then failWith .payloadTooLarge "nesting_depth"
  else match value with
    | .obj kvs =>
      if (if provenance then MAX_PROVENANCE_REFS else MAX_LIST_ITEMS) < kvs.length then
        fail .payloadTooLarge
      else freezeFields provenance depth kvs
    | .arr xs =>
      if MAX_LIST_ITEMS < xs.length then fail .payloadTooLarge else freezeItems provenance depth xs
    | .str s => valueText s
    | .float r => if isFloatText r then .ok () else failWith .invalidEvent "non_finite"
    | .null | .bool _ | .int _ => .ok ()

def freezeItems (provenance : Bool) (depth : ℕ) : List Json → Except Raised Unit
  | [] => .ok ()
  | x :: xs => do
    freeze provenance (depth+1) x
    freezeItems provenance depth xs

def freezeFields (provenance : Bool) (depth : ℕ) : List (String × Json) → Except Raised Unit
  | [] => .ok ()
  | (k,v) :: kvs => do
    keyText k
    freeze provenance (depth+1) v
    freezeFields provenance depth kvs

end

mutual

/-- `_serialize` of data. -/
def serialize (U : Nfc) : Json → Except Raised Json
  | .str s => .ok (.str (U.normalize s))
  | .float r => .ok (.float (if r = "-0.0" then "0.0" else r))
  | .arr xs => (serializeItems U xs).map .arr
  | .obj kvs => (serializeFields U [] kvs).map .obj
  | v => .ok v

def serializeItems (U : Nfc) : List Json → Except Raised (List Json)
  | [] => .ok []
  | x :: xs => do
    let w ← serialize U x
    let ws ← serializeItems U xs
    .ok (w :: ws)

def serializeFields (U : Nfc) (result : Obj) : List (String × Json) → Except Raised Obj
  | [] => .ok result
  | (k,v) :: kvs =>
    if U.normalize k ∈ result.map Prod.fst then
      failWith .invalidEvent "duplicate_normalized_key"
    else do
      let w ← serialize U v
      serializeFields U (result++[(U.normalize k,w)]) kvs

end

/-- The data of `canonical_json(value)`, whose text is `dumps` of it. -/
def canonicalData (U : Nfc) (value : Json) : Except Raised Json := do
  freeze false 0 value
  recast .invalidEvent "invalid_json" (serialize U value)

def canonicalJson (U : Nfc) (value : Json) : Except Raised String :=
  (canonicalData U value).map dumps

/-- `_safe_mapping` of a mapping; here its checks. -/
def safeMapping (U : Nfc) (provenance : Bool) (kvs : Obj) : Except Raised Unit := do
  freeze provenance 0 (.obj kvs)
  let encoded ← canonicalJson U (.obj kvs)
  if MAX_PAYLOAD_BYTES < encoded.utf8ByteSize then fail .payloadTooLarge else .ok ()

def asMapping (v : Json) : Except Raised Obj :=
  match v with
  | .obj kvs => .ok kvs
  | _ => fail .invalidEvent

/-! ## The six plain contracts -/

/-- The arguments of `from_dict`, all of them fields and with the required ones. -/
def arguments (fields required : List String) (value : Json) : Except Raised Obj :=
  match value with
  | .obj kvs =>
    if kvs.any (fun e => e.1 ∉ fields) then failWith .invalidRequest "unknown_field"
    else if required.any (fun k => !Obj.has kvs k) then
      failWith .invalidRequest "missing_field"
    else .ok kvs
  | _ => fail .invalidRequest

def argument (kvs : Obj) (k : String) (missing : Json) : Json := (Obj.field kvs k).getD missing

def optionalText (r : Option Ref) : Json :=
  match r with
  | none => .null
  | some s => .str s.val

structure ActivationTicketRef where
  activation_ref : Ref
  nonce_ref : Option Ref

structure AssociationRef where
  association_ref : Option Ref
  session_ref : Option Ref
  owner_ref : Option Ref
  profile_ref : Option Ref
  workspace_ref : Option Ref
  ownership_mode : OwnershipMode

structure ObserverIdentity where
  observer_ref : Option Ref
  owner_ref : Option Ref
  profile_ref : Option Ref

structure BridgeCursor where
  association_ref : Ref
  subscriber_ref : Ref
  stream_epoch : Ref
  last_sequence : Sequence
  issued_at : Timestamp
  expires_at : Timestamp
  interval : intervalText issued_at.val expires_at.val = .ok ()

structure ReplayWindow where
  association_ref : Ref
  stream_epoch : Ref
  after_sequence : Sequence
  limit : Count 1 MAX_REPLAY_BATCH

structure SessionSnapshot where
  session_ref : Ref
  association_ref : Ref
  ownership_mode : OwnershipMode
  status : {s : String // s ∈ STATUSES}
  stream_epoch : Option Ref
  sequence : Sequence
  metadata_version : Metadata
  deriving DecidableEq

namespace ActivationTicketRef

def make (activation_ref nonce_ref : Json) : Except Raised ActivationTicketRef := do
  let a ← ref activation_ref
  let n ← optionalRef nonce_ref
  .ok ⟨a,n⟩

def attributes (o : ActivationTicketRef) : Obj :=
  [("activation_ref",.str o.activation_ref.val), ("nonce_ref",optionalText o.nonce_ref)]

def fromDict (value : Json) : Except Raised ActivationTicketRef := do
  let d ← arguments ["activation_ref", "nonce_ref"] ["activation_ref"] value
  make (argument d "activation_ref" .null) (argument d "nonce_ref" .null)

end ActivationTicketRef

namespace AssociationRef

/-- Every reference, the first two included, may be `None`. -/
def make (association_ref session_ref owner_ref profile_ref workspace_ref ownership_mode : Json) :
    Except Raised AssociationRef := do
  let a ← optionalRef association_ref
  let s ← optionalRef session_ref
  let o ← optionalRef owner_ref
  let p ← optionalRef profile_ref
  let w ← optionalRef workspace_ref
  let m ← ownershipMode ownership_mode
  .ok ⟨a,s,o,p,w,m⟩

def attributes (o : AssociationRef) : Obj :=
  [("association_ref",optionalText o.association_ref), ("session_ref",optionalText o.session_ref),
    ("owner_ref",optionalText o.owner_ref), ("profile_ref",optionalText o.profile_ref),
    ("workspace_ref",optionalText o.workspace_ref), ("ownership_mode",.str o.ownership_mode.value)]

def fromDict (value : Json) : Except Raised AssociationRef := do
  let d ← arguments ["association_ref", "session_ref", "owner_ref", "profile_ref",
    "workspace_ref", "ownership_mode"] ["association_ref", "session_ref"] value
  make (argument d "association_ref" .null) (argument d "session_ref" .null)
    (argument d "owner_ref" .null) (argument d "profile_ref" .null)
    (argument d "workspace_ref" .null)
    (argument d "ownership_mode" (.str OwnershipMode.userOwnedSession.value))

end AssociationRef

namespace ObserverIdentity

def make (observer_ref owner_ref profile_ref : Json) : Except Raised ObserverIdentity := do
  let o ← optionalRef observer_ref
  let w ← optionalRef owner_ref
  let p ← optionalRef profile_ref
  .ok ⟨o,w,p⟩

def attributes (o : ObserverIdentity) : Obj :=
  [("observer_ref",optionalText o.observer_ref), ("owner_ref",optionalText o.owner_ref),
    ("profile_ref",optionalText o.profile_ref)]

def fromDict (value : Json) : Except Raised ObserverIdentity := do
  let d ← arguments ["observer_ref", "owner_ref", "profile_ref"] ["observer_ref"] value
  make (argument d "observer_ref" .null) (argument d "owner_ref" .null)
    (argument d "profile_ref" .null)

end ObserverIdentity

/-- A value that has to be the version of the schema. -/
def schemaVersion (v : Json) : Except Raised Unit :=
  if v.isStr SCHEMA_VERSION then .ok () else fail .unsupportedSchema

namespace BridgeCursor

/-- A cursor has one version once it is made. -/
def cursor_version (_ : BridgeCursor) : String := SCHEMA_VERSION

def make (cursor_version association_ref subscriber_ref stream_epoch last_sequence issued_at
    expires_at : Json) : Except Raised BridgeCursor := do
  schemaVersion cursor_version
  let a ← ref association_ref
  let s ← ref subscriber_ref
  let e ← ref stream_epoch
  let n ← integer 0 MAX_SEQUENCE last_sequence
  let i ← timestamp issued_at
  let x ← timestamp expires_at
  let ⟨h⟩ ← holds (intervalText i.val x.val)
  .ok ⟨a,s,e,n,i,x,h⟩

def attributes (o : BridgeCursor) : Obj :=
  [("cursor_version",.str o.cursor_version), ("association_ref",.str o.association_ref.val),
    ("subscriber_ref",.str o.subscriber_ref.val), ("stream_epoch",.str o.stream_epoch.val),
    ("last_sequence",.int o.last_sequence.val), ("issued_at",.str o.issued_at.val),
    ("expires_at",.str o.expires_at.val)]

def fields : List String :=
  ["cursor_version", "association_ref", "subscriber_ref", "stream_epoch", "last_sequence",
    "issued_at", "expires_at"]

def fromDict (value : Json) : Except Raised BridgeCursor := do
  let d ← arguments fields fields value
  make (argument d "cursor_version" .null) (argument d "association_ref" .null)
    (argument d "subscriber_ref" .null) (argument d "stream_epoch" .null)
    (argument d "last_sequence" .null) (argument d "issued_at" .null)
    (argument d "expires_at" .null)

end BridgeCursor

namespace ReplayWindow

def overLimit (v : Json) : Bool :=
  match v with
  | .int n => (MAX_REPLAY_BATCH : ℤ) < n
  | _ => false

def make (association_ref stream_epoch after_sequence limit : Json) :
    Except Raised ReplayWindow := do
  let a ← ref association_ref
  let e ← ref stream_epoch
  let n ← integer 0 MAX_SEQUENCE after_sequence
  if overLimit limit then failWith .invalidRequest "invalid_replay_limit"
  else do
    let l ← integer 1 MAX_REPLAY_BATCH limit
    .ok ⟨a,e,n,l⟩

def attributes (o : ReplayWindow) : Obj :=
  [("association_ref",.str o.association_ref.val), ("stream_epoch",.str o.stream_epoch.val),
    ("after_sequence",.int o.after_sequence.val), ("limit",.int o.limit.val)]

def fromDict (value : Json) : Except Raised ReplayWindow := do
  let d ← arguments ["association_ref", "stream_epoch", "after_sequence", "limit"]
    ["association_ref", "stream_epoch", "after_sequence"] value
  make (argument d "association_ref" .null) (argument d "stream_epoch" .null)
    (argument d "after_sequence" .null) (argument d "limit" (.int 100))

end ReplayWindow

namespace SessionSnapshot

def make (session_ref association_ref ownership_mode status stream_epoch sequence
    metadata_version : Json) : Except Raised SessionSnapshot := do
  let s ← ref session_ref
  let a ← ref association_ref
  let m ← ownershipMode ownership_mode
  let t ← listed STATUSES .invalidEvent (some "unknown_enum") status
  let n ← integer 0 MAX_SEQUENCE sequence
  let v ← integer 0 METADATA_MAX metadata_version
  let e ← optionalRef stream_epoch
  .ok ⟨s,a,m,t,e,n,v⟩

def attributes (o : SessionSnapshot) : Obj :=
  [("session_ref",.str o.session_ref.val), ("association_ref",.str o.association_ref.val),
    ("ownership_mode",.str o.ownership_mode.value), ("status",.str o.status.val),
    ("stream_epoch",optionalText o.stream_epoch), ("sequence",.int o.sequence.val),
    ("metadata_version",.int o.metadata_version.val)]

def fromDict (value : Json) : Except Raised SessionSnapshot := do
  let d ← arguments ["session_ref", "association_ref", "ownership_mode", "status",
    "stream_epoch", "sequence", "metadata_version"] ["session_ref", "association_ref"] value
  make (argument d "session_ref" .null) (argument d "association_ref" .null)
    (argument d "ownership_mode" (.str OwnershipMode.userOwnedSession.value))
    (argument d "status" (.str "observing")) (argument d "stream_epoch" .null)
    (argument d "sequence" (.int 0)) (argument d "metadata_version" (.int 0))

end SessionSnapshot

/-! ## Events -/

/-- The fields that the payload of each type may have, and those that it has to have. -/
def payloadFields : List (String × List String × List String) :=
  [("session.registered",["runtime_surface", "metadata_version"],
      ["runtime_surface", "metadata_version"]),
    ("session.status_changed",["status", "reason_code", "metadata_version"],
      ["status", "metadata_version"]),
    ("session.heartbeat",["heartbeat_sequence", "observed_at", "ttl_ms"],
      ["heartbeat_sequence", "observed_at", "ttl_ms"]),
    ("session.metadata_changed",["metadata_version", "changed_fields"],
      ["metadata_version", "changed_fields"]),
    ("session.detached",["reason_code", "metadata_version"], ["reason_code", "metadata_version"]),
    ("session.ended",["terminal_state", "reason_code", "metadata_version"],
      ["terminal_state", "reason_code", "metadata_version"])]

/-- `isinstance(item, str) and item in names`. -/
def isOneOf (names : List String) (v : Json) : Bool :=
  match v with
  | .str s => s ∈ names
  | _ => false

def enumerated (good : Bool) : Except Raised Unit :=
  if good then .ok () else failWith .invalidEvent "unknown_enum"

def isNumberKey (k : String) : Bool :=
  k.endsWith "_version" || k.endsWith "_sequence" || k = "ttl_ms"

/-- The check of the list of changed fields. -/
def changedFields (v : Json) : Except Raised Unit :=
  match v with
  | .arr xs => enumerated (xs.length ≤ MAX_LIST_ITEMS && xs.all (isOneOf CHANGED_FIELDS))
  | _ => failWith .invalidEvent "unknown_enum"

/-- The check of one field of a payload. -/
def payloadItem (k : String) (v : Json) : Except Raised Unit :=
  if k = "runtime_surface" then enumerated (isOneOf RUNTIME_SURFACES v)
  else if k = "status" then enumerated (isOneOf STATUSES v)
  else if k = "reason_code" then enumerated (isOneOf REASON_CODES v)
  else if k = "terminal_state" then enumerated (isOneOf TERMINAL_STATES v)
  else if isNumberKey k then (integer 0 METADATA_MAX v).map (fun _ => ())
  else if k = "observed_at" then (timestamp v).map (fun _ => ())
  else if k = "changed_fields" then changedFields v
  else do
    let s ← asText v
    stringText false false s

def payloadItems : Obj → Except Raised Unit
  | [] => .ok ()
  | (k,v) :: kvs => do
    payloadItem k v
    payloadItems kvs

/-- The shape and the values of a payload of one type. -/
def payloadShape (event_type : String) (payload : Obj) : Except Raised Unit :=
  match payloadFields.lookup event_type with
  | none => fail .unsupportedEvent
  | some (allowed,required) =>
    if payload.any (fun e => e.1 ∉ allowed) ∨ required.any (fun k => !Obj.has payload k) then
      failWith .invalidEvent "payload_shape"
    else payloadItems payload

/-- The fields of an event whose own checks are made one by one. -/
structure EventFields where
  event_id : Ref
  event_type : {s : String // s ∈ LIFECYCLE_EVENT_TYPES}
  occurred_at : Timestamp
  event_origin : EventOrigin
  session_ref : Ref
  association_ref : Ref
  stream_epoch : Ref
  sequence : Sequence
  payload : Obj
  provenance : Obj
  source_instance_ref : Option Ref

namespace EventFields

variable (U : Nfc) (o : EventFields)

/-- An event has one version, one source system and one ownership mode once it is made. -/
def schema_version (_ : EventFields) : String := SCHEMA_VERSION

def source_system (_ : EventFields) : String := "hermes-gateway"

def ownership_mode (_ : EventFields) : OwnershipMode := .userOwnedSession

def source : Obj :=
  ("system",.str o.source_system) ::
    (match o.source_instance_ref with
    | none => []
    | some r => [("instance_ref",.str r.val)])

def session : Obj :=
  [("session_ref",.str o.session_ref.val), ("association_ref",.str o.association_ref.val),
    ("ownership_mode",.str o.ownership_mode.value)]

/-- `_bridge_event_wire`. -/
def wire : Except Raised Json := do
  let payload ← serialize U (.obj o.payload)
  let provenance ← serialize U (.obj o.provenance)
  .ok (.obj [("schema_version",.str o.schema_version), ("event_id",.str o.event_id.val),
    ("event_type",.str o.event_type.val), ("occurred_at",.str o.occurred_at.val),
    ("source",.obj o.source), ("event_origin",.str o.event_origin.value),
    ("session",.obj o.session), ("stream_epoch",.str o.stream_epoch.val),
    ("sequence",.int o.sequence.val), ("payload",payload), ("provenance",provenance)])

/-- `_canonical_event_json`. -/
def canonicalEventJson : Except Raised String := do
  let w ← o.wire U
  (recast .invalidEvent "invalid_json" (serialize U w)).map dumps

def envelope : Except Raised Unit := do
  let text ← o.canonicalEventJson U
  if MAX_ENVELOPE_BYTES < text.utf8ByteSize then failWith .payloadTooLarge "envelope_too_large"
  else .ok ()

/-- The checks of the constructor that the types of the fields do not carry. -/
structure Accepted : Prop where
  payload : safeMapping U false o.payload = .ok ()
  shape : payloadShape o.event_type.val o.payload = .ok ()
  provenance : safeMapping U true o.provenance = .ok ()
  envelope : o.envelope U = .ok ()

end EventFields

abbrev BridgeEvent (U : Nfc) := {o : EventFields // o.Accepted U}

/-- A value that has to be the source system of the gateway. -/
def sourceSystem (v : Json) : Except Raised Unit :=
  if v.isStr "hermes-gateway" then .ok () else fail .invalidProvenance

namespace BridgeEvent

variable (U : Nfc)

def make (schema_version event_id event_type occurred_at source_system event_origin session_ref
    association_ref ownership_mode stream_epoch sequence payload provenance
    source_instance_ref : Json) : Except Raised (BridgeEvent U) := do
  schemaVersion schema_version
  let i ← ref event_id
  let t ← timestamp occurred_at
  let s ← ref session_ref
  let a ← ref association_ref
  let e ← ref stream_epoch
  sourceSystem source_system
  let k ← listed LIFECYCLE_EVENT_TYPES .unsupportedEvent none event_type
  let g ← eventOrigin event_origin
  let m ← ownershipMode ownership_mode
  let n ← integer 0 MAX_SEQUENCE sequence
  let r ← optionalRef source_instance_ref
  let p ← asMapping payload
  let ⟨h1⟩ ← holds (safeMapping U false p)
  let ⟨h2⟩ ← holds (payloadShape k.val p)
  let q ← asMapping provenance
  let ⟨h3⟩ ← holds (safeMapping U true q)
  if m = .fleetOwnedTask then fail .capabilityDenied
  else do
    let o : EventFields := ⟨i,k,t,g,s,a,e,n,p,q,r⟩
    let ⟨h4⟩ ← holds (o.envelope U)
    .ok ⟨o,h1,h2,h3,h4⟩

def fields : List String :=
  ["schema_version", "event_id", "event_type", "occurred_at", "source", "event_origin", "session",
    "stream_epoch", "sequence", "payload", "provenance"]

/-- A nested mapping of an event, without unknown fields. -/
def nested (allowed : List String) (v : Json) : Except Raised Obj := do
  let kvs ← asMapping v
  if kvs.any (fun e => e.1 ∉ allowed) then failWith .invalidRequest "unknown_field" else .ok kvs

def fromDict (value : Json) : Except Raised (BridgeEvent U) := do
  let d ← nested fields value
  if fields.any (fun k => !Obj.has d k) then failWith .invalidEvent "missing_field"
  else do
    let _ ← asMapping (argument d "source" .null)
    let _ ← asMapping (argument d "session" .null)
    let source ← nested ["system", "instance_ref"] (argument d "source" .null)
    let session ← nested ["session_ref", "association_ref", "ownership_mode"]
      (argument d "session" .null)
    if !Obj.has source "system" ∨
        ["session_ref", "association_ref", "ownership_mode"].any (fun k => !Obj.has session k) then
      failWith .invalidEvent "missing_field"
    else
      make U (argument d "schema_version" .null) (argument d "event_id" .null)
        (argument d "event_type" .null) (argument d "occurred_at" .null)
        (argument source "system" .null) (argument d "event_origin" .null)
        (argument session "session_ref" .null) (argument session "association_ref" .null)
        (argument session "ownership_mode" .null) (argument d "stream_epoch" .null)
        (argument d "sequence" .null) (argument d "payload" .null) (argument d "provenance" .null)
        (argument source "instance_ref" .null)

end BridgeEvent

/-! ## Any contract -/

inductive Contract (U : Nfc) where
  | ticket (o : ActivationTicketRef)
  | association (o : AssociationRef)
  | observer (o : ObserverIdentity)
  | cursor (o : BridgeCursor)
  | window (o : ReplayWindow)
  | snapshot (o : SessionSnapshot)
  | event (o : BridgeEvent U)

namespace Contract

variable (U : Nfc)

/-- `to_dict()`. -/
def toDict : Contract U → Except Raised Json
  | .ticket o => serialize U (.obj o.attributes)
  | .association o => serialize U (.obj o.attributes)
  | .observer o => serialize U (.obj o.attributes)
  | .cursor o => serialize U (.obj o.attributes)
  | .window o => serialize U (.obj o.attributes)
  | .snapshot o => serialize U (.obj o.attributes)
  | .event o => o.val.wire U

/-- `canonical_json()`. -/
def canonical (o : Contract U) : Except Raised String := do
  let d ← o.toDict U
  canonicalJson U d

/-- `from_dict` of the class of a contract. -/
def fromDictOf (o : Contract U) (value : Json) : Except Raised (Contract U) :=
  match o with
  | .ticket _ => (ActivationTicketRef.fromDict value).map .ticket
  | .association _ => (AssociationRef.fromDict value).map .association
  | .observer _ => (ObserverIdentity.fromDict value).map .observer
  | .cursor _ => (BridgeCursor.fromDict value).map .cursor
  | .window _ => (ReplayWindow.fromDict value).map .window
  | .snapshot _ => (SessionSnapshot.fromDict value).map .snapshot
  | .event _ => (BridgeEvent.fromDict U value).map .event

/-- `fingerprint()`: the function of the module freezes every contract but an event, which
its freezing does not know. -/
def fingerprint (o : Contract U) : Except Raised String :=
  match o with
  | .event e => (e.val.canonicalEventJson U).map sha256Hex
  | _ => failWith .invalidEvent "unsupported_input"

end Contract

end PdFleet.Bridge
