import PdFleet.Lib.Dict
import PdFleet.Redact

/-!
# The fake runtime of the adapter contract

The runtime keeps one record, with a table of the results that it gave: one for each
operation and idempotency key, under the fingerprint that the call claimed. A call takes the
lock once; an execution takes it three times, and other calls can come between. A request is
what a caller gives, and `Request` what the checks have read from it.
-/

set_option autoImplicit false

namespace PdFleet.FakeAdapter

open Pattern

def SCHEMA_VERSION : String := "pd-fleet-hermes-adapter:v0"

/-- The codes of `FakeAdapterError` that the calls raise. -/
inductive Code where
  | invalidLineage
  | ownerMismatch
  | staleGeneration
  | staleHandle
  | invalidTransition
  | idempotencyConflict
  | replayInProgress
  | inputTooLarge
  | forbiddenField
  | unknownField
  deriving DecidableEq, Repr

def Code.text : Code → String
  | .invalidLineage => "invalid_lineage"
  | .ownerMismatch => "owner_mismatch"
  | .staleGeneration => "stale_generation"
  | .staleHandle => "stale_handle"
  | .invalidTransition => "invalid_transition"
  | .idempotencyConflict => "idempotency_conflict"
  | .replayInProgress => "replay_in_progress"
  | .inputTooLarge => "input_too_large"
  | .forbiddenField => "forbidden_field"
  | .unknownField => "unknown_field"

/-! ## Texts -/

def isControl (c : Char) : Bool := c.toNat < 32 || c.toNat = 127

def idHead (c : Char) : Bool := c.isLower || c.isDigit

def idTail (c : Char) : Bool := idHead c || c = '.' || c = '_' || c = '-'

/-- `_valid_id`. -/
def validId (s : String) : Bool :=
  s.utf8ByteSize ≤ 128 &&
    match s.toList with
    | [] => false
    | c :: t => idHead c && t.all idTail

/-- `_FINGERPRINT.fullmatch`. -/
def isFingerprint (s : String) : Bool :=
  "sha256:".isPrefixOf s && isHex64 (String.ofList (s.toList.drop 7))

/-- `{n:03d}`. -/
def padded (n : ℕ) : String :=
  String.ofList (List.replicate (3-(toString n).length) '0') ++ toString n

/-! ## Redaction -/

def isSolid (c : Char) : Bool := !isSpace c

def keyOf (w : String) : Pattern := seq (word foldCase w) (seq keyGap (word foldCase "key"))

/-- `_SENSITIVE_KEY`. -/
def sensitiveKey : Pattern :=
  oneOf [word foldCase "secret", word foldCase "token", word foldCase "password",
    word foldCase "credential", keyOf "private", keyOf "access", keyOf "client", keyOf "api",
    word foldCase "authorization", word foldCase "bearer"]

/-- `_SECRET_VALUE`. -/
def secretValue : Rule where
  behind _ := true
  kept := empty
  dropped := alt
    (seq (oneOf [word foldCase "token", word foldCase "secret", word foldCase "password",
        word foldCase "credential", keyOf "private", keyOf "access", keyOf "client", keyOf "api"])
      (seq (many isSpace) (seq (char (fun c => c = '=' || c = ':'))
        (seq (many isSpace) (many1 isSolid)))))
    (seq (word foldCase "bearer") (seq (many1 isSpace) (many1 isSolid)))
  text := "[REDACTED]"

/-- `_URL_VALUE`. -/
def urlValue : Rule where
  behind _ := true
  kept := empty
  dropped := seq (word foldCase "http") (seq (opt (word foldCase "s"))
    (seq (word id "://") (many1 isSolid)))
  text := "[REDACTED]"

/-- `_PATH_VALUE`. -/
def pathValue : Rule where
  behind last := !last.any Char.isAlphanum
  kept := empty
  -- one repetition of the last group already reads to the end of the word
  dropped := alt
    (seq (alt (seq (char (fun c => c.isUpper || c.isLower)) (word id ":\\")) (char (· = '/')))
      (many1 isSolid))
    (seq (word id "\\\\") (seq (many1 isSolid) (seq (char (· = '\\')) (many1 isSolid))))
  text := "[REDACTED]"

def redactString (value : String) : String := secretValue.sub (pathValue.sub (urlValue.sub value))

/-- A value that is not nested too deeply. -/
def shallow {α : Type} (depth : ℕ) (x : Except Code α) : Except Code α :=
  if 64 < depth then .error .inputTooLarge else x

mutual

/-- `_redacted`. -/
def redacted (depth : ℕ) : Json → Except Code Json
  | .obj kvs => shallow depth ((redactedFields (depth+1) kvs).map .obj)
  | .arr xs => shallow depth ((redactedItems (depth+1) xs).map .arr)
  | .str s => shallow depth
      (if s.toList.any isControl then .error .forbiddenField else .ok (.str (redactString s)))
  | .null => shallow depth (.ok .null)
  | .bool b => shallow depth (.ok (.bool b))
  | .int n => shallow depth (.ok (.int n))
  | .float r => shallow depth (.ok (.float r))

def redactedItems (depth : ℕ) : List Json → Except Code (List Json)
  | [] => .ok []
  | x :: xs => do
    let y ← redacted depth x
    let ys ← redactedItems depth xs
    return y :: ys

def redactedFields (depth : ℕ) : List (String × Json) → Except Code (List (String × Json))
  | [] => .ok []
  | (k,v) :: kvs =>
    if k.toList.any isControl then .error .forbiddenField
    else do
      let w ← if search sensitiveKey k.toList then .ok (.str "[REDACTED]") else redacted depth v
      let rest ← redactedFields depth kvs
      return (k,w) :: rest

end

/-- `canonical_request_fingerprint`, of a mapping. -/
def canonicalRequestFingerprint (request : Obj) : Except Code String := do
  let body ← redacted 0 (.obj (request.without ["request_fingerprint"]))
  return "sha256:" ++ sha256Hex ("pd-fleet-hermes-adapter:v0\x00request\x00" ++ dumps body)

/-! ## The record -/

inductive LifecycleState where
  | queued
  | preparing
  | ready
  | running
  | succeeded
  | failed
  | timedOut
  | cancelling
  | cancelled
  deriving DecidableEq, Repr

def LifecycleState.text : LifecycleState → String
  | .queued => "queued"
  | .preparing => "preparing"
  | .ready => "ready"
  | .running => "running"
  | .succeeded => "succeeded"
  | .failed => "failed"
  | .timedOut => "timed_out"
  | .cancelling => "cancelling"
  | .cancelled => "cancelled"

def terminal : List LifecycleState := [.succeeded,.failed,.timedOut,.cancelled]

inductive Operation where
  | prepare
  | execute
  | cancel
  | handoff
  | cleanup
  deriving DecidableEq, Repr

def Operation.text : Operation → String
  | .prepare => "prepare"
  | .execute => "execute"
  | .cancel => "cancel"
  | .handoff => "handoff"
  | .cleanup => "cleanup"

abbrev Key := Operation × String

/-- The marker, which is "cleaning" only while a call holds the lock. -/
inductive CleanupMarker where
  | notCleaned
  | cleaned
  deriving DecidableEq, Repr

def CleanupMarker.text : CleanupMarker → String
  | .notCleaned => "not_cleaned"
  | .cleaned => "cleaned"

structure Lineage where
  runId : String
  taskId : String
  attemptId : String
  sessionHandleId : Option String
  workspaceId : String
  deriving DecidableEq, Repr

def orNull (s : Option String) : Json := (s.map Json.str).getD .null

def Lineage.toJson (l : Lineage) : Json :=
  .obj [("run_id",.str l.runId),("task_id",.str l.taskId),("attempt_id",.str l.attemptId),
    ("session_handle_id",orNull l.sessionHandleId),("workspace_id",.str l.workspaceId)]

/-- A result with the fingerprint that the call claimed. -/
structure Stored where
  fingerprint : String
  result : Obj

structure Record where
  lineage : Lineage
  owner : String
  generation : ℤ
  status : LifecycleState := .queued
  dispatchCount : ℕ := 0
  sequence : ℕ := 0
  events : List Obj := []
  replay : Dict Key Stored := ∅
  tombstones : Finset Key := ∅
  cleanupMarker : CleanupMarker := .notCleaned
  cleanupResult : Option Obj := none

structure Runtime where
  record : Option Record
  inflight : Finset Key
  nextHandle : ℕ

/-! ## The checks of a request -/

/-- A request whose envelope was checked, with what the calls read from it. -/
structure Request where
  operation : Operation
  body : Obj
  owner : String
  generation : ℤ
  key : String
  claimed : String

def Request.slot (r : Request) : Key := (r.operation,r.key)

def commonFields : List String :=
  ["schema_version","operation","lineage","owner","expected_generation","idempotency_key",
    "request_fingerprint"]

/-- The field that only one operation allows. -/
def Operation.ownField : Operation → String
  | .prepare => "workspace"
  | .execute => "input"
  | .cancel => "cancel_reason"
  | .handoff => "handoff_reason"
  | .cleanup => "cleanup_reason"

def Operation.hasReason : Operation → Bool
  | .cancel | .handoff | .cleanup => true
  | _ => false

def validReason : Option Json → Bool
  | some (.str s) => s ≠ "" && s.utf8ByteSize ≤ 256 && !s.toList.any isControl
  | _ => false

/-- The text of a field that is a valid id. -/
def idField (o : Obj) (k : String) (code : Code) : Except Code String :=
  match o.field k with
  | some (.str s) => if validId s then .ok s else .error code
  | _ => .error code

def generationField (o : Obj) : Except Code ℤ :=
  match o.field "expected_generation" with
  | some (.int n) => if 0 ≤ n then .ok n else .error .staleGeneration
  | _ => .error .staleGeneration

def fingerprintField (o : Obj) : Except Code String :=
  match o.field "request_fingerprint" with
  | some (.str s) => if isFingerprint s then .ok s else .error .unknownField
  | _ => .error .unknownField

def require (b : Bool) (code : Code) : Except Code Unit := if b then .ok () else .error code

/-- `_validate_envelope` of a mapping, without the fingerprint. -/
def readEnvelope (op : Operation) (o : Obj) : Except Code Request := do
  require ((o.field "schema_version").any (·.isStr SCHEMA_VERSION) &&
    (o.field "operation").any (·.isStr op.text)) .unknownField
  require (o.all (fun e => e.1 ∈ commonFields || e.1 = op.ownField)) .unknownField
  require (["lineage","owner","expected_generation","idempotency_key",
    "request_fingerprint"].all (Obj.has o)) .unknownField
  let owner ← idField o "owner" .ownerMismatch
  let generation ← generationField o
  let key ← idField o "idempotency_key" .unknownField
  let claimed ← fingerprintField o
  require (!op.hasReason || validReason (o.field op.ownField)) .forbiddenField
  return ⟨op,o,owner,generation,key,claimed⟩

def validateEnvelope (op : Operation) : Json → Except Code Request
  | .obj o => readEnvelope op o
  | _ => .error .unknownField

/-- What the table holds for an operation and a key. -/
def stored (rt : Runtime) (k : Key) : Option Stored := rt.record.bind (fun r => r.replay.lookup k)

/-- `_validate_request_fingerprint`: a stored key may claim another fingerprint. -/
def validateRequestFingerprint (rt : Runtime) (r : Request) : Except Code Unit := do
  let derived ← canonicalRequestFingerprint r.body
  require (r.claimed = derived || (stored rt r.slot).isSome) .forbiddenField

def handleField (l : Obj) : Except Code (Option String) :=
  match l.field "session_handle_id" with
  | some .null => .ok none
  | _ => (idField l "session_handle_id" .invalidLineage).map some

def readLineage (l : Obj) : Except Code Lineage := do
  require (l.hasExactly ["run_id","task_id","attempt_id","session_handle_id","workspace_id"])
    .invalidLineage
  let runId ← idField l "run_id" .invalidLineage
  let taskId ← idField l "task_id" .invalidLineage
  let attemptId ← idField l "attempt_id" .invalidLineage
  let workspaceId ← idField l "workspace_id" .invalidLineage
  let handle ← handleField l
  return ⟨runId,taskId,attemptId,handle,workspaceId⟩

/-- `_lineage`. -/
def lineageOf (o : Obj) : Except Code Lineage :=
  match o.field "lineage" with
  | some (.obj l) => readLineage l
  | _ => .error .invalidLineage

/-- `_validate_identity`. -/
def validateIdentity (rt : Runtime) (r : Request) (requireHandle : Bool) : Except Code Record :=
  match rt.record with
  | none => .error .invalidLineage
  | some record => do
    let supplied ← lineageOf r.body
    require (supplied.runId = record.lineage.runId && supplied.taskId = record.lineage.taskId &&
      supplied.attemptId = record.lineage.attemptId &&
      supplied.workspaceId = record.lineage.workspaceId) .invalidLineage
    require (r.owner = record.owner) .ownerMismatch
    require (r.generation = record.generation) .staleGeneration
    require (!requireHandle || supplied.sessionHandleId = record.lineage.sessionHandleId)
      .staleHandle
    return record

/-- The workspace of a first `prepare`. -/
def validWorkspace (lineage : Lineage) : Option Json → Bool
  | some (.obj w) =>
    Obj.hasExactly w ["workspace_id","root_ref","isolation","cleanup_policy"] &&
      (Obj.field w "workspace_id").any (·.isStr lineage.workspaceId) &&
      (Obj.field w "isolation").any (·.isStr "dedicated") &&
      (Obj.field w "cleanup_policy").any (·.isStr "always") &&
      validRoot (Obj.field w "root_ref")
  | _ => false
where
  validRoot : Option Json → Bool
    | some (.str s) => !decide (['.', '.'] <:+: s.toList) && validId s
    | _ => false

/-- `_validate_execute_input`. The call repeats these checks later, where they hold. -/
def validateExecuteInput (r : Request) : Except Code Unit :=
  match r.body.field "input" with
  | some (.obj p) => do
    require (Obj.hasExactly p ["goal_ref","payload"]) .unknownField
    let _ ← idField p "goal_ref" .inputTooLarge
    match Obj.field p "payload" with
    | some (.str s) => do
      require (s.utf8ByteSize ≤ 8192) .inputTooLarge
      require (!s.toList.any isControl) .forbiddenField
    | _ => .error .inputTooLarge
  | _ => .error .unknownField

/-! ## Results -/

/-- `_event`. -/
def event (record : Record) (eventType : String) : Record :=
  let n := record.sequence+1
  { record with
    sequence := n
    events := record.events++[[("schema_version",.str SCHEMA_VERSION),
      ("event_id",.str ("event-" ++ padded n)),("sequence",.int n),
      ("event_type",.str eventType),("run_id",.str record.lineage.runId),
      ("task_id",.str record.lineage.taskId),("attempt_id",.str record.lineage.attemptId),
      ("status",.str record.status.text),("payload_ref",.str ("payload-" ++ padded n))]] }

/-- What every result of `_result` holds. -/
def baseResult (record : Record) (status : String) (errorCode : Option String) : Obj :=
  [("schema_version",.str SCHEMA_VERSION),("status",.str status),
    ("error_code",orNull errorCode),("lineage_ref",record.lineage.toJson),
    ("event_sequence",.int record.sequence),
    ("evidence_refs",.arr [.str ("evidence-" ++ padded record.sequence)])]

/-- The result of a session: of `prepare`, and of `execute` with its output. -/
def sessionResult (record : Record) (status : String) (output : Bool) : Obj :=
  baseResult record status none ++ [("dispatch_count",.int record.dispatchCount),
    ("attempt_id",.str record.lineage.attemptId),
    ("session_handle_id",orNull record.lineage.sessionHandleId)] ++
    if output then
      [("output_ref",.str ("output-" ++ padded record.sequence)),("output_bytes",.int 0)]
    else []

/-- The result of `cancel`, without the fields that it takes out. -/
def cancelResult (record : Record) (status : String) (errorCode terminationRef : Option String)
    (confirmed : Bool) : Obj :=
  baseResult record status errorCode ++
    [("cancel_confirmed",.bool confirmed),("termination_ref",orNull terminationRef)]

def handoffResult (record : Record) : Obj :=
  [("schema_version",.str SCHEMA_VERSION),
    ("artifact_id",.str ("handoff-" ++ padded (record.sequence+1))),("artifact_version",.int 1),
    ("lineage_ref",record.lineage.toJson),("status",.str record.status.text),
    ("next_action",.str (if record.status ∈ terminal then "cleanup" else "resume_local_fake")),
    ("evidence_refs",.arr [.str ("evidence-" ++ padded (record.sequence+1))])]

/-- `_cleanup_result`. -/
def cleanupResultOf (record : Record) (confirmed : Bool) (errorCode : Option String) : Obj :=
  [("schema_version",.str SCHEMA_VERSION),
    ("status",.str (if confirmed then "cleaned" else "cleanup_failed")),
    ("error_code",orNull errorCode),("lineage_ref",record.lineage.toJson),
    ("event_sequence",.int record.sequence),
    ("evidence_refs",.arr [.str ("evidence-cleanup-" ++ padded record.sequence)]),
    ("cleanup_marker",.str record.cleanupMarker.text),
    ("original_terminal_status",.str record.status.text),("cleanup_confirmed",.bool confirmed)]

/-! ## The table -/

inductive Answer where
  /-- The result of a call that was made before. -/
  | replayed (result : Obj)
  /-- A new result, which is in the table now. -/
  | given (result : Obj)
  | raised (code : Code)

/-- `_replay`. -/
def replay (record : Record) (r : Request) : Except Code (Option Obj) :=
  match record.replay.lookup r.slot with
  | none => .ok none
  | some existing =>
    if existing.fingerprint = r.claimed then .ok (some existing.result)
    else .error .idempotencyConflict

/-- The statuses and the marker that leave a tombstone. -/
def leavesTombstone (result : Obj) : Bool :=
  terminal.any (fun s => (result.field "status").any (·.isStr s.text)) ||
    (result.field "cleanup_marker").any (·.isStr "cleaned")

/-- `_reserve`. -/
def reserve (record : Record) (r : Request) (result : Obj) : Record :=
  { record with
    replay := record.replay.insert r.slot ⟨r.claimed,result⟩
    tombstones := if leavesTombstone result then insert r.slot record.tombstones
      else record.tombstones }

/-- The record with a new result, which answers the call. -/
def give (rt : Runtime) (record : Record) (r : Request) (result : Obj) : Runtime × Answer :=
  ({ rt with record := some (reserve record r result) },.given result)

/-- A call that comes to the table: `fresh` is what it does where nothing is stored. -/
def settle (rt : Runtime) (record : Record) (r : Request) (fresh : Runtime × Answer) :
    Runtime × Answer :=
  match replay record r with
  | .error code => (rt,.raised code)
  | .ok (some result) => (rt,.replayed result)
  | .ok none => fresh

/-! ## The calls that take the lock once -/

/-- The envelope with the fingerprint. -/
def enter (rt : Runtime) (op : Operation) (request : Json) : Except Code Request := do
  let r ← validateEnvelope op request
  validateRequestFingerprint rt r
  return r

/-- The checks of a call before it comes to the table. -/
def checkCall (rt : Runtime) (op : Operation) (request : Json) : Except Code (Request × Record) := do
  let r ← enter rt op request
  let record ← validateIdentity rt r true
  return (r,record)

/-- The same for a `prepare` that is not the first. -/
def checkAgain (rt : Runtime) (r : Request) : Except Code Record := do
  let lineage ← lineageOf r.body
  require lineage.sessionHandleId.isNone .invalidLineage
  validateIdentity rt r false

/-- The record of a first `prepare`, and its result. -/
def prepared (rt : Runtime) (r : Request) (lineage : Lineage) : Record × Obj :=
  let record : Record :=
    { lineage := lineage, owner := r.owner, generation := r.generation, status := .preparing }
  let record := event record "preparing"
  let handle := "handle-" ++ padded rt.nextHandle
  let record := { record with
    lineage := { lineage with sessionHandleId := some handle }
    status := .ready }
  let result := sessionResult record "ready" false
  let record := event record "ready"
  (record,Obj.put result "event_sequence" (.int record.sequence))

def prepareFirst (rt : Runtime) (r : Request) : Runtime × Answer :=
  match lineageOf r.body with
  | .error code => (rt,.raised code)
  | .ok lineage =>
    if lineage.sessionHandleId.isSome || !validWorkspace lineage (r.body.field "workspace") then
      (rt,.raised .invalidLineage)
    else
      let (record,result) := prepared rt r lineage
      give { rt with nextHandle := rt.nextHandle+1 } record r result

/-- `prepare`. -/
def prepare (rt : Runtime) (request : Json) : Runtime × Answer :=
  match enter rt .prepare request with
  | .error code => (rt,.raised code)
  | .ok r =>
    if rt.record.isNone then prepareFirst rt r
    else
      match checkAgain rt r with
      | .error code => (rt,.raised code)
      | .ok record => settle rt record r (rt,.raised .invalidTransition)

def answered (rt : Runtime) (op : Operation) (request : Json)
    (fresh : Request → Record → Runtime × Answer) : Runtime × Answer :=
  match checkCall rt op request with
  | .error code => (rt,.raised code)
  | .ok (r,record) => settle rt record r (fresh r record)

/-- `cancel` of a session that has ended. -/
def cancelEnded (rt : Runtime) (r : Request) (record : Record) : Runtime × Answer :=
  match record.status with
  | .cancelled =>
    give rt record r (cancelResult record "cancelled" none (some "termination-001") true)
  | .failed | .timedOut =>
    give rt record r
      (cancelResult record record.status.text (some "cancel_not_confirmed") none false)
  | _ => (rt,.raised .invalidTransition)

/-- `cancel` of a live session. -/
def cancelLive (rt : Runtime) (confirm : Bool) (r : Request) (record : Record) :
    Runtime × Answer :=
  let record := event { record with status := .cancelling } "cancelling"
  if confirm then
    let record := event { record with status := .cancelled } "cancelled"
    give rt record r (cancelResult record "cancelled" none (some "termination-001") true)
  else
    let result := cancelResult record "failed" (some "cancel_not_confirmed") none false
    give rt (event { record with status := .failed } "failed") r result

/-- `cancel`. -/
def cancel (rt : Runtime) (request : Json) (confirm : Bool) : Runtime × Answer :=
  answered rt .cancel request (fun r record =>
    if record.status ∈ terminal then cancelEnded rt r record else cancelLive rt confirm r record)

/-- `handoff`. -/
def handoff (rt : Runtime) (request : Json) : Runtime × Answer :=
  answered rt .handoff request (fun r record =>
    if rt.inflight ≠ ∅ then (rt,.raised .replayInProgress)
    else give rt record r (handoffResult record))

def cleanupFresh (rt : Runtime) (succeed : Bool) (r : Request) (record : Record) :
    Runtime × Answer :=
  if record.status ∉ terminal then (rt,.raised .invalidTransition)
  else
    match record.cleanupResult with
    | some result => give rt record r result
    | none =>
      let record := { record with cleanupMarker := if succeed then .cleaned else .notCleaned }
      let result := cleanupResultOf record succeed
        (if succeed then none else some "cleanup_failed")
      give rt { record with cleanupResult := if succeed then some result else none } r result

/-- `cleanup`. -/
def cleanup (rt : Runtime) (request : Json) (succeed : Bool) : Runtime × Answer :=
  answered rt .cleanup request (cleanupFresh rt succeed)

/-! ## The execution -/

/-- How executions end. -/
inductive RunOutcome where
  | succeeded
  | failed
  | timedOut
  deriving DecidableEq, Repr

def RunOutcome.status : RunOutcome → LifecycleState
  | .succeeded => .succeeded
  | .failed => .failed
  | .timedOut => .timedOut

/-- `execute` before it takes the lock. -/
def executeChecks (rt : Runtime) (request : Json) : Except Code Request := do
  let r ← validateEnvelope .execute request
  validateExecuteInput r
  validateRequestFingerprint rt r
  let _ ← validateIdentity rt r true
  return r

/-- The first time with the lock: an answer, or none where the key is in flight now. -/
def executeReserve (rt : Runtime) (r : Request) : Runtime × Option Answer :=
  match rt.record with
  | none => (rt,some (.raised .invalidLineage))
  | some record =>
    match replay record r with
    | .error code => (rt,some (.raised code))
    | .ok (some result) => (rt,some (.replayed result))
    | .ok none =>
      if r.slot ∈ rt.inflight then (rt,some (.raised .replayInProgress))
      else if record.status ≠ .ready then (rt,some (.raised .invalidTransition))
      else ({ rt with inflight := insert r.slot rt.inflight },none)

/-- The record after the run, with its result. -/
def dispatched (outcome : RunOutcome) (record : Record) : Record × Obj :=
  let record := event { record with
    status := .running
    dispatchCount := record.dispatchCount+1 } "running"
  let record := event { record with status := outcome.status } outcome.status.text
  (record,sessionResult record outcome.status.text true)

/-- The second time. -/
def executeDispatch (outcome : RunOutcome) (rt : Runtime) (r : Request) : Runtime × Answer :=
  match rt.record with
  | none => (rt,.raised .invalidLineage)
  | some record =>
    if record.status ≠ .ready then (rt,.raised .invalidTransition)
    else
      let (record,result) := dispatched outcome record
      give rt record r result

/-- The last time. -/
def executeRelease (rt : Runtime) (r : Request) : Runtime :=
  { rt with inflight := rt.inflight.erase r.slot }

/-! ## Runs -/

/-- How far an execution is. -/
inductive Phase where
  | checked (r : Request)
  | reserved (r : Request)
  | ending (r : Request)

structure System where
  runtime : Runtime
  /-- The executions that have begun, by their threads. -/
  threads : ℕ → Option Phase

inductive Step where
  | prepare (request : Json)
  | cancel (request : Json) (confirm : Bool)
  | handoff (request : Json)
  | cleanup (request : Json) (succeed : Bool)
  | begin (t : ℕ) (request : Json)
  | reserve (t : ℕ)
  | dispatch (t : ℕ)
  | release (t : ℕ)

def System.start : System where
  runtime := ⟨none,∅,1⟩
  threads _ := none

def System.with (s : System) (rt : Runtime) : System := { s with runtime := rt }

def System.phase (s : System) (t : ℕ) (p : Option Phase) : System :=
  { s with threads := Function.update s.threads t p }

/-- A step of a call, with its answer where the step answers. Only an execution that has
come to a step can take it. -/
def step (outcome : RunOutcome) (s : System) : Step → System × Option Answer
  | .prepare request =>
    let (rt,a) := prepare s.runtime request
    (s.with rt,some a)
  | .cancel request confirm =>
    let (rt,a) := cancel s.runtime request confirm
    (s.with rt,some a)
  | .handoff request =>
    let (rt,a) := handoff s.runtime request
    (s.with rt,some a)
  | .cleanup request succeed =>
    let (rt,a) := cleanup s.runtime request succeed
    (s.with rt,some a)
  | .begin t request =>
    match s.threads t with
    | none =>
      match executeChecks s.runtime request with
      | .error code => (s,some (.raised code))
      | .ok r => (s.phase t (some (.checked r)),none)
    | some _ => (s,none)
  | .reserve t =>
    match s.threads t with
    | some (.checked r) =>
      match executeReserve s.runtime r with
      | (rt,some a) => ((s.with rt).phase t none,some a)
      | (rt,none) => ((s.with rt).phase t (some (.reserved r)),none)
    | _ => (s,none)
  | .dispatch t =>
    match s.threads t with
    | some (.reserved r) =>
      let (rt,a) := executeDispatch outcome s.runtime r
      ((s.with rt).phase t (some (.ending r)),some a)
    | _ => (s,none)
  | .release t =>
    match s.threads t with
    | some (.ending r) => ((s.with (executeRelease s.runtime r)).phase t none,none)
    | _ => (s,none)

/-- The request that a step brings to the table. -/
def presented (s : System) : Step → Option Request
  | .prepare request =>
    match enter s.runtime .prepare request with
    | .ok r => if s.runtime.record.isSome && (checkAgain s.runtime r).isOk then some r else none
    | .error _ => none
  | .cancel request _ => (checkCall s.runtime .cancel request).toOption.map Prod.fst
  | .handoff request => (checkCall s.runtime .handoff request).toOption.map Prod.fst
  | .cleanup request _ => (checkCall s.runtime .cleanup request).toOption.map Prod.fst
  | .reserve t =>
    match s.threads t with
    | some (.checked r) => some r
    | _ => none
  | _ => none

end PdFleet.FakeAdapter
