import PdFleet.Clock
import PdFleet.Printed
import PdFleet.Lib.Pattern

/-!
# The closed schema of gateway events

An event of the gateway is flattened to dotted paths, which have to be those of the
envelope; each of its values has a test, and its payload the schema of its type. What the
flattening drops is a mapping without a leaf.
-/

set_option autoImplicit false

namespace PdFleet.Redaction

def WIRE_SCHEMA : String := "pd-fleet-gateway-bridge:v1"
def REF_MAX : ℕ := 128
def STRING_MAX : ℕ := 512
def PAYLOAD_MAX_BYTES : ℕ := 4096
def DEPTH_MAX : ℕ := 8
def CARDINALITY_MAX : ℕ := 32
def TTL_MS_MAX : ℤ := 300000

def RUNTIME_SURFACES : List String := ["cli", "gateway", "api", "tui"]
def STATUSES : List String := ["active", "idle", "stale", "ended"]
def REASON_CODES : List String := ["none", "timeout", "detached", "error", "closed"]
def TERMINAL_STATES : List String := ["ended", "error"]
def CHANGED_FIELDS : List String := ["status", "metadata_version"]
def EVENT_ORIGINS : List String := ["gateway_native", "fleet_reconciled"]
def EVENT_TYPES : List String :=
  ["session.registered", "session.status_changed", "session.heartbeat",
    "session.metadata_changed", "session.detached", "session.ended"]
def OWNERSHIP_MODE : String := "user_owned_session"
def SOURCE_SYSTEM : String := "hermes-gateway"
def TRANSPORT : String := "gateway-event-stream"

def refChar (c : Char) : Bool := c.isAlphanum || c = '.' || c = '_' || c = '-'

/-- `_REF_RE.match(value)`; its `$` also stands before a last line feed. -/
def refMatches (value : String) : Bool :=
  ((Pattern.many1 refChar).rests value.toList).any (fun rest => rest = [] || rest = ['\n'])

def ENVELOPE_FIELDS : List String :=
  ["schema_version", "event_id", "event_type", "occurred_at", "source.system",
    "source.instance_ref", "event_origin", "session.session_ref", "session.association_ref",
    "session.ownership_mode", "stream_epoch", "sequence", "payload", "provenance.transport",
    "provenance.correlation_id"]

/-- The rule of a payload field. -/
inductive Rule where
  | oneOf (names : List String)
  | int (limit : Option ℤ)
  | ts
  | listOf (names : List String)

abbrev Schema := List (String × Rule)

def PAYLOAD_SCHEMA : List (String × Schema) :=
  [("session.registered",
    [("runtime_surface",.oneOf RUNTIME_SURFACES), ("metadata_version",.int none)]),
   ("session.status_changed",
    [("status",.oneOf STATUSES), ("reason_code",.oneOf REASON_CODES),
     ("metadata_version",.int none)]),
   ("session.heartbeat",
    [("heartbeat_sequence",.int none), ("observed_at",.ts), ("ttl_ms",.int (some TTL_MS_MAX))]),
   ("session.metadata_changed",
    [("metadata_version",.int none), ("changed_fields",.listOf CHANGED_FIELDS)]),
   ("session.detached",
    [("reason_code",.oneOf REASON_CODES), ("metadata_version",.int none)]),
   ("session.ended",
    [("terminal_state",.oneOf TERMINAL_STATES), ("reason_code",.oneOf REASON_CODES),
     ("metadata_version",.int none)])]

structure Verdict where
  ok : Bool
  reason : Option String := none
  deriving DecidableEq

/-! ## Depth and size -/

mutual

def depth : Json → ℕ
  | .arr xs => 1+depthItems xs
  | .obj kvs => 1+depthFields kvs
  | _ => 0

def depthItems : List Json → ℕ
  | [] => 0
  | x :: xs => max (depth x) (depthItems xs)

def depthFields : List (String × Json) → ℕ
  | [] => 0
  | (_,v) :: kvs => max (depth v) (depthFields kvs)

end

/-- The bytes of a character in an ASCII text of JSON. -/
def asciiBytes (c : Char) : ℕ :=
  if c ∈ ['"', '\\', '\n', '\r', '\t', '\x0c', '\x08'] then 2
  else if 32 ≤ c.toNat ∧ c.toNat < 127 then 1 else if c.toNat < 65536 then 6 else 12

def textBytes (s : String) : ℕ := 2+(s.toList.map asciiBytes).sum

mutual

/-- `len(json.dumps(value))`; every separator has two characters. -/
def jsonBytes : Json → ℕ
  | .null | .bool true => 4
  | .bool false => 5
  | .int n => (toString n).length
  | .float r => r.length
  | .str s => textBytes s
  | .arr xs => 2+itemBytes xs+2*(xs.length-1)
  | .obj kvs => 2+fieldBytes kvs+2*(kvs.length-1)

def itemBytes : List Json → ℕ
  | [] => 0
  | x :: xs => jsonBytes x+itemBytes xs

def fieldBytes : List (String × Json) → ℕ
  | [] => 0
  | (k,v) :: kvs => textBytes k+2+jsonBytes v+fieldBytes kvs

end

/-! ## Flattening -/

mutual

/-- One child of a mapping at a path; `none` is a path collision. -/
def flattenChild (flat : Obj) (path : String) : Json → Option Obj
  | .obj kvs =>
    (flattenFields [] (path++".") kvs).bind (fun nested =>
      if nested.any (fun e => e.1 ∈ flat.map Prod.fst) then none else some (flat++nested))
  | v => if path ∈ flat.map Prod.fst then none else some (flat++[(path,v)])

/-- The children of a mapping, after those already flattened. -/
def flattenFields (flat : Obj) (pre : String) : List (String × Json) → Option Obj
  | [] => some flat
  | (k,v) :: kvs => (flattenChild flat (pre++k) v).bind (fun flat => flattenFields flat pre kvs)

end

/-! ## The tests -/

/-- `_valid_ts`. -/
def validTs : Json → Bool
  | .str s => s.length ≤ STRING_MAX && s.toList.getLast? = some 'Z' &&
      (fromisoformat (replaceZ s.toList)).isSome
  | _ => false

/-- `_valid_ref`. -/
def validRef : Json → Bool
  | .str s => s.length ≤ REF_MAX && refMatches s
  | _ => false

/-- The first test that fails, with its reason; a test may raise. -/
def firstFault : List (Except PyError Bool × String) → Except PyError (Option String)
  | [] => .ok none
  | (.ok true,_) :: tests => firstFault tests
  | (.ok false,reason) :: _ => .ok (some reason)
  | (.error e,_) :: _ => .error e

def at' (flat : Obj) (path : String) : Json := (flat.field path).getD .null

def envelopeTests (flat : Obj) : List (Except PyError Bool × String) :=
  [(.ok (validRef (at' flat "event_id")),"invalid_field"),
   ((at' flat "event_type").inSet EVENT_TYPES,"unknown_enum"),
   (.ok (validTs (at' flat "occurred_at")),"invalid_field"),
   (.ok ((at' flat "source.system").isStr SOURCE_SYSTEM),"malformed_provenance"),
   (.ok (validRef (at' flat "source.instance_ref")),"invalid_field"),
   ((at' flat "event_origin").inSet EVENT_ORIGINS,"unknown_enum"),
   (.ok (validRef (at' flat "session.session_ref")),"invalid_field"),
   (.ok (validRef (at' flat "session.association_ref")),"invalid_field"),
   (.ok ((at' flat "session.ownership_mode").isStr OWNERSHIP_MODE),"unknown_enum"),
   (.ok (validRef (at' flat "stream_epoch")),"invalid_field"),
   (.ok ((at' flat "sequence").isIntFrom 0),"invalid_field"),
   (.ok ((at' flat "provenance.transport").isStr TRANSPORT),"malformed_provenance"),
   (.ok (validRef (at' flat "provenance.correlation_id")),"invalid_field")]

/-- The reason for which a rule rejects a value. -/
def Rule.fault : Rule → Json → Option String
  | .oneOf names, v => if names.any v.isStr then none else some "unknown_enum"
  | .int limit, v =>
    if v.isIntFrom 0 && limit.all (fun n => !v.isIntFrom (n+1)) then none
    else some "invalid_field"
  | .ts, v => if validTs v then none else some "invalid_field"
  | .listOf names, .arr xs =>
    if CARDINALITY_MAX < xs.length then some "invalid_field"
    else if xs.all (fun x => names.any x.isStr) then none else some "unknown_enum"
  | .listOf _, _ => some "invalid_field"

/-- The envelope of an event, flat and complete, or the reason to reject it. -/
def envelopeOf (event : Obj) : Except String Obj :=
  if !(event.field "schema_version").any (·.isStr WIRE_SCHEMA) then .error "unsupported_schema"
  else if DEPTH_MAX < depth (.obj event) then .error "nested_beyond_depth"
  else
    match flattenFields [] "" (event.filter (fun e => e.1 ≠ "payload")) with
    | none => .error "duplicate_path"
    | some flat =>
      let flat := Obj.put flat "payload" ((event.field "payload").getD .null)
      if !flat.all (fun e => e.1 ∈ ENVELOPE_FIELDS) then .error "unknown_field"
      else if !ENVELOPE_FIELDS.all (Obj.has flat) then .error "malformed_envelope"
      else .ok flat

/-- `PAYLOAD_SCHEMA[event["event_type"]]`. -/
def schemaOf (event : Obj) : Except PyError Schema :=
  match event.field "event_type" with
  | some (.str t) => (PAYLOAD_SCHEMA.lookup t).elim (.error .keyError) .ok
  | some v => .error (if v.hashable then .keyError else .typeError)
  | none => .error .keyError

def payloadFault (schema : Schema) (payload : Obj) : Option String :=
  if !payload.hasExactly (schema.map Prod.fst) then some "unknown_field"
  else schema.findSome? (fun e => e.2.fault (at' payload e.1))

def verdictOf (reason : Option String) : Verdict := ⟨reason.isNone,reason⟩

/-- `validate_event` of a mapping. -/
def validateMapping (event : Obj) : Except PyError Verdict :=
  match envelopeOf event with
  | .error reason => .ok (verdictOf (some reason))
  | .ok flat => do
    match ← firstFault (envelopeTests flat) with
    | some reason => .ok (verdictOf (some reason))
    | none =>
      match event.field "payload" with
      | some (.obj payload) =>
        if PAYLOAD_MAX_BYTES < jsonBytes (.obj payload) then
          .ok (verdictOf (some "oversized_payload"))
        else do
          let schema ← schemaOf event
          .ok (verdictOf (payloadFault schema payload))
      | _ => .ok (verdictOf (some "invalid_field"))

def validateEvent : Json → Except PyError Verdict
  | .obj event => validateMapping event
  | _ => .ok (verdictOf (some "malformed_envelope"))

/-! ## What an accepted event may hold -/

mutual

/-- The keys of a value, at any depth. -/
def keysOf : Json → List String
  | .arr xs => keysOfItems xs
  | .obj kvs => keysOfFields kvs
  | _ => []

def keysOfItems : List Json → List String
  | [] => []
  | x :: xs => keysOf x++keysOfItems xs

def keysOfFields : List (String × Json) → List String
  | [] => []
  | (k,v) :: kvs => k :: (keysOf v++keysOfFields kvs)

end

mutual

/-- The texts of a value that are no keys. -/
def stringsOf : Json → List String
  | .str s => [s]
  | .arr xs => stringsOfItems xs
  | .obj kvs => stringsOfFields kvs
  | _ => []

def stringsOfItems : List Json → List String
  | [] => []
  | x :: xs => stringsOf x++stringsOfItems xs

def stringsOfFields : List (String × Json) → List String
  | [] => []
  | (_,v) :: kvs => stringsOf v++stringsOfFields kvs

end

/-- The components of a dotted path. -/
def components (path : String) : List String :=
  (path.toList.splitOn '.').map String.ofList

/-- A path of the envelope, a component of one, or a payload field of the event's type. -/
def ListedKey (event : Obj) (k : String) : Prop :=
  k ∈ ENVELOPE_FIELDS ∨ (∃ path ∈ ENVELOPE_FIELDS, k ∈ components path) ∨
    ∃ schema, schemaOf event = .ok schema ∧ k ∈ schema.map Prod.fst

/-- The constants and the members of the enumerations. -/
def CONSTANTS : List String :=
  [WIRE_SCHEMA, OWNERSHIP_MODE, SOURCE_SYSTEM, TRANSPORT]++RUNTIME_SURFACES++STATUSES++
    REASON_CODES++TERMINAL_STATES++CHANGED_FIELDS++EVENT_ORIGINS++EVENT_TYPES

def IsRef (s : String) : Prop :=
  1 ≤ s.length ∧ s.length ≤ REF_MAX ∧ ∀ c ∈ s.toList, refChar c = true

def ListedString (s : String) : Prop := s ∈ CONSTANTS ∨ validTs (.str s) = true ∨ IsRef s

/-- A verdict is returned, and of an accepted event every key and every text is listed. -/
def Closed (value : Json) : Prop :=
  ∃ verdict, validateEvent value = .ok verdict ∧ (verdict.ok = true → ∀ event, value = .obj event →
    (∀ k ∈ keysOf value, ListedKey event k) ∧ ∀ s ∈ stringsOf value, ListedString s)

end PdFleet.Redaction
