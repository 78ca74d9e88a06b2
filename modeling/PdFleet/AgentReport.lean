import PdFleet.PlanText
import PdFleet.ReportClock

/-!
# Reports of agents

A terminal report is parsed from a mapping: its payload is redacted, its error reduced to
one safe line, its instants written in UTC. `AgentReportV2` checks and redacts what it is
given once more.
-/

set_option autoImplicit false

namespace PdFleet.Contracts

open Pattern

/-- What the tables of Unicode decide besides: `\d`. -/
structure ReportTables extends PlanTables where
  isDigit : Char → Bool

/-! ## Sensitive labels -/

def sensitiveKeys : List (List Char) :=
  ["credential", "secret", "token", "password", "api_key", "access_key", "access_token",
    "private_key", "client_secret", "authorization", "bearer"].map String.toList

def isLowerOrDigit (c : Char) : Bool := c.isLower || c.isDigit

/-- `re.sub(r"([a-z0-9])([A-Z])", r"\1_\2", text)`. -/
def splitCamel : List Char → List Char
  | c :: d :: t =>
    if isLowerOrDigit c && d.isUpper then c :: '_' :: splitCamel (d :: t)
    else c :: splitCamel (d :: t)
  | t => t

/-- `re.sub(r"([A-Z]+)([A-Z][a-z])", r"\1_\2", text)`. -/
def splitAcronym : List Char → List Char
  | c :: d :: e :: t =>
    if c.isUpper && d.isUpper && e.isLower then c :: '_' :: splitAcronym (d :: e :: t)
    else c :: splitAcronym (d :: e :: t)
  | t => t

/-- Every run of the characters of a class becomes one `mark`. -/
def squeeze (p : Char → Bool) (mark : Char) : List Char → List Char
  | [] => []
  | [c] => if p c then [mark] else [c]
  | c :: d :: t =>
    if p c then if p d then squeeze p mark (d :: t) else mark :: squeeze p mark (d :: t)
    else c :: squeeze p mark (d :: t)

def stripMark (t : List Char) : List Char := (t.rdropWhile (· = '_')).dropWhile (· = '_')

/-- The parts of a text between the marks. -/
def splitMark : List Char → List (List Char)
  | [] => [[]]
  | c :: t =>
    if c = '_' then [] :: splitMark t
    else match splitMark t with
      | part :: parts => (c :: part) :: parts
      | [] => [[c]]

section

variable (T : PlanTables)

/-- `str.lower`. -/
def lowerText (t : List Char) : List Char :=
  if t.all (fun c => c.toNat < 128) then t.map Char.toLower else T.lower t

/-- `_normalize_sensitive_key`. -/
def normalizeSensitiveKey (label : List Char) : List Char :=
  stripMark (squeeze (fun c => !isLowerOrDigit c) '_'
    (lowerText T (splitAcronym (splitCamel (stripSpace label)))))

/-- `_is_sensitive_label`. -/
def isSensitiveLabel (label : List Char) : Bool :=
  let normalized := normalizeSensitiveKey T label
  let compact := normalized.filter (· ≠ '_')
  sensitiveKeys.any (fun key =>
      normalized = key || (key ++ ['_']).isPrefixOf normalized ||
        ('_' :: key).isSuffixOf normalized) ||
    (splitMark normalized).any (· ∈ sensitiveKeys) ||
    sensitiveKeys.any (fun key => compact = key.filter (· ≠ '_'))

/-! ## Redaction of values -/

/-- `_EXTERNAL_URL.sub`. -/
def urlMark : Rule where
  behind _ := true
  kept := empty
  dropped := externalUrl
  text := "[URL REDACTED]"

/-- What `redact_report_value` makes of a text. -/
def redactReportText (t : List Char) : List Char :=
  redactSensitiveText T (redactPaths T (urlMark.subFrom none 0 t))

mutual

/-- `redact_report_value`, of a value whose keys are in order. -/
def redactValue : Json → Json
  | .obj kvs => .obj (redactEntries kvs)
  | .arr xs => .arr (redactAll xs)
  | .str s => .str (String.ofList (redactReportText T s.toList))
  | .null => .null
  | .bool b => .bool b
  | .int n => .int n
  | .float r => .float r

def redactAll : List Json → List Json
  | [] => []
  | x :: xs => redactValue x :: redactAll xs

def redactEntries : List (String × Json) → List (String × Json)
  | [] => []
  | (k,v) :: kvs => (k,redactValue v) :: redactEntries kvs

end

mutual

/-- Every key of the value, at any depth, has a name that is not a sensitive label. -/
def keysInOrder : Json → Bool
  | .obj kvs => keysOfEntries kvs
  | .arr xs => keysOfAll xs
  | _ => true

def keysOfAll : List Json → Bool
  | [] => true
  | x :: xs => keysInOrder x && keysOfAll xs

def keysOfEntries : List (String × Json) → Bool
  | [] => true
  | (k,v) :: kvs =>
    k ≠ "" && !isSensitiveLabel T k.toList && keysInOrder v && keysOfEntries kvs

end

/-- `redact_report_value`. The error is the code in its text. -/
def redactReportValue (v : Json) : Except String Json :=
  if keysInOrder T v then .ok (redactValue T v) else .error "invalid or sensitive nested field"

mutual

/-- `_check_secrets` finds nothing. -/
def noSecrets : Json → Bool
  | .obj kvs => noSecretsEntries kvs
  | .arr xs => noSecretsAll xs
  | .str s =>
    !(search secretValue s.toList || search externalUrl s.toList) &&
      redactSensitiveText T s.toList = s.toList
  | _ => true

def noSecretsAll : List Json → Bool
  | [] => true
  | x :: xs => noSecrets x && noSecretsAll xs

def noSecretsEntries : List (String × Json) → Bool
  | [] => true
  | (k,v) :: kvs => !isSensitiveLabel T k.toList && noSecrets v && noSecretsEntries kvs

end

/-! ## Errors -/

/-- `splitlines()`. -/
def lineTexts (t : List Char) : List (List Char) :=
  (splitLines [] t).map (fun line =>
    if ['\r', '\n'].isSuffixOf line then line.dropLast.dropLast
    else if line.getLast?.any isLineBreak then line.dropLast else line)

def isLetterFold (c : Char) : Bool := c.isAlpha || c ∈ ['\u0130', '\u0131', '\u017f', '\u212a']

def tracebackMark : Pattern := word foldCase "traceback (most recent call last)"

/-- `^\s*file\s+["']|^\s*(?:at\s+)?(?:/|[A-Za-z]:[\\/])`. -/
def frameLine : Pattern :=
  alt (seq (many isSpace) (seq (word foldCase "file") (seq (many1 isSpace)
      (char (fun c => c = '"' || c = '\'')))))
    (seq (many isSpace) (seq (opt (seq (word foldCase "at") (many1 isSpace)))
      (alt (char (· = '/')) (seq (char isLetterFold) (seq (char (· = ':')) (char isSlash))))))

/-- `_PATH_ASSIGNMENT`. -/
def pathAssignment : Rule where
  behind last := !last.any (fun c => isAlnumFold c || c = '_')
  kept := empty
  dropped := seq (alt (word foldCase "source") (word foldCase "path")) (seq separator
    (many1 (fun c => !isSpace c && c ≠ ',' && c ≠ ';')))
  text := ""

/-- The first line that says something, without its path assignments. -/
def firstLine : List (List Char) → List Char
  | [] => []
  | line :: lines =>
    if search tracebackMark line then []
    else if !(rests frameLine line).isEmpty then firstLine lines
    else if isBlank (pathAssignment.subFrom none 0 line) then firstLine lines
    else pathAssignment.subFrom none 0 line

/-- Up to `n` characters. -/
def atMost : ℕ → (Char → Bool) → Pattern
  | 0, _ => empty
  | n+1, p => opt (seq (char p) (atMost n p))

def isLabelChar (c : Char) : Bool := isAlnumFold c || c = '_' || c = '.' || c = ' ' || c = '-'

def assignmentLabel : Pattern := seq (char isLetterFold) (seq (char isLabelChar) (atMost 79 isLabelChar))

/-- A match of `_ASSIGNMENT`: what becomes of it, and what it leaves. -/
def assignedAt (_ : Option Char) (t : List Char) : Option (List Char × List Char) :=
  ((rests assignmentLabel t).flatMap (fun rest =>
    (rests (seq separator (many1 (fun c => !isSpace c))) rest).map (fun rest' =>
      if isSensitiveLabel T (matched t rest) then
        (stripSpace (matched t rest) ++ '=' :: redacted,rest')
      else (matched t rest',rest')))).head?

def redactLabels (t : List Char) : List Char := subWith (assignedAt T) none 0 t

def agentError : String := "erro do agente"

/-- `_sanitize_error`, of the text. -/
def sanitizeErrorText (text : List Char) : List Char :=
  let line := firstLine (lineTexts text)
  let line := redactPaths T (urlMark.subFrom none 0 line)
  let line := redactLabels T (redactSensitiveText T (redactSecrets line))
  (stripSpace (squeeze isSpace ' ' line)).take 2000

def errorText : Json → String
  | .str s => s
  | _ => agentError

/-- An error of which nothing is left is only named. -/
def shownError (safe : List Char) : String := if safe = [] then agentError else String.ofList safe

/-- `_sanitize_error`. -/
def sanitizeError (v : Json) : String := shownError (sanitizeErrorText T (errorText v).toList)

end

/-! ## Meaningful values -/

mutual

/-- `_report_meaningful`. -/
def meaningful : Json → Bool
  | .str s => !isBlank s.toList
  | .obj kvs => meaningfulEntries kvs
  | .arr xs => meaningfulAll xs
  | .null => false
  | .bool b => b
  | _ => true

def meaningfulAll : List Json → Bool
  | [] => false
  | x :: xs => meaningful x || meaningfulAll xs

def meaningfulEntries : List (String × Json) → Bool
  | [] => false
  | (_,v) :: kvs => meaningful v || meaningfulEntries kvs

end

/-! ## Timestamps -/

section

variable (T : ReportTables)

def isReportDigit (c : Char) : Bool := if c.toNat < 128 then c.isDigit else T.isDigit c

def digitsOf (n : ℕ) : Pattern := (List.replicate n (char (isReportDigit T))).foldr seq empty

/-- `_REPORT_V2_TIMESTAMP_RE`. -/
def timestamp : Pattern :=
  [digitsOf T 4, word id "-", digitsOf T 2, word id "-", digitsOf T 2, word id "T", digitsOf T 2,
    word id ":", digitsOf T 2, word id ":", digitsOf T 2,
    opt (seq (word id ".") (many1 (isReportDigit T))),
    alt (word id "Z") (seq (char (fun c => c = '+' || c = '-')) (seq (digitsOf T 2)
      (seq (opt (word id ":")) (digitsOf T 2))))].foldr seq empty

/-- `_report_timestamp`. -/
def reportTimestamp (name : String) (v : Json) : Except String (List Char) :=
  match v with
  | .str s =>
    if (rests (timestamp T) (stripSpace s.toList)).contains [] then .ok (stripSpace s.toList)
    else .error ("invalid " ++ name)
  | _ => .error ("invalid " ++ name)

/-- `parse_instant`, before the instant is written. -/
def parseInstant (name : String) (text : List Char) : Except String ℕ :=
  match instantOf text with
  | some t => .ok t
  | none => .error ("invalid " ++ name)

/-- `_report_instant`. -/
def reportInstant (name : String) (v : Json) : Except String ℕ := do
  let text ← reportTimestamp T name v
  parseInstant name text

end

/-! ## Reports -/

def agentReportV2SchemaVersion : String := "pd-fleet-report:v2"

def maxReportRetryAttempts : ℤ := 100

def reportV2Fields : List String :=
  ["schema_version", "task_id", "attempt", "agent_id", "agent", "role", "capabilities", "status",
    "outputs", "evidence", "tests", "validation", "decision", "started_at", "completed_at",
    "timestamps", "reason", "error", "blocker", "diagnostics", "retry", "metadata", "extensions"]

def requiredPayload : List String := ["outputs", "evidence", "tests", "validation", "decision"]

def payloadFields : List String :=
  requiredPayload ++ ["reason", "error", "blocker", "diagnostics", "retry", "metadata", "extensions"]

/-- A report; its schema version is `AGENT_REPORT_V2_SCHEMA_VERSION`. The payload is given by
the names of its fields, and is `None` where a field has no value. -/
structure AgentReportV2 where
  taskId : String
  attempt : ℤ
  agentId : String
  role : String
  capabilities : List String
  status : String
  startedAt : String
  completedAt : String
  agent : Option String
  payload : String → Json

/-- `value is None`. -/
def absent : Json → Bool
  | .null => true
  | _ => false

def require (c : Bool) (code : String) : Except String Unit := if c then .ok () else .error code

def isNonBlank : Json → Bool
  | .str s => !isBlank s.toList
  | _ => false

/-- The check of `backoff_seconds`. -/
def validateBackoff : Json → Except String Unit
  | .int n =>
    if 2^1024-2^970 ≤ n.natAbs then .error "OverflowError"
    else require (0 ≤ n) "invalid retry backoff"
  | .float r => require (!"-".toList.isPrefixOf r.toList || r = "-0.0") "invalid retry backoff"
  | _ => .error "invalid retry backoff"

def isAttempts : Json → Bool
  | .int n => 1 ≤ n && n ≤ maxReportRetryAttempts
  | _ => false

def isBool : Json → Bool
  | .bool _ => true
  | _ => false

/-- `_validate_report_retry`. -/
def validateReportRetry : Json → Except String Unit
  | .null => .ok ()
  | .obj o => do
    require (o.all (fun e => e.1 ∈ ["recommended", "max_attempts", "backoff_seconds", "reason"]))
      "invalid retry recommendation"
    require ((Obj.field o "max_attempts").all isAttempts) "retry recommendation out of bounds"
    require ((Obj.field o "recommended").all isBool) "invalid retry recommendation"
    validateBackoff ((Obj.field o "backoff_seconds").getD (.int 0))
    require ((Obj.field o "reason").all isNonBlank) "invalid retry reason"
  | _ => .error "invalid retry recommendation"

/-- What a terminal status asks of the payload. `code` is the error of a field that a completed
report lacks. -/
def checkOutcome (status : String) (code : String → String) (payload : String → Json) :
    Except String Unit :=
  if status = "completed" then
    match requiredPayload.find? (fun k => !meaningful (payload k)) with
    | some k => .error (code k)
    | none => .ok ()
  else
    require (["reason", "error", "blocker"].any (fun k => meaningful (payload k)) &&
      meaningful (payload "evidence")) "terminal failure missing reason or diagnosis evidence"

def reportStatuses : List String := ["completed", "failed", "blocked"]

section

variable (T : ReportTables)

/-- What becomes of a redacted field: errors and textual diagnostics are sanitized. -/
def sanitizeField (k : String) (v : Json) : Json :=
  if k = "error" then if absent v then v else .str (sanitizeError T.toPlanTables v)
  else if k = "diagnostics" then if v.isText then .str (sanitizeError T.toPlanTables v) else v
  else v

/-- A field redacted and sanitized. -/
def settle (k : String) (v : Json) : Json := sanitizeField T k (redactValue T.toPlanTables v)

/-- `AgentReportV2.__post_init__`. -/
def makeReport (r : AgentReportV2) : Except String AgentReportV2 := do
  require (!isBlank r.taskId.toList && !isBlank r.agentId.toList && !isBlank r.role.toList)
    "invalid identity field"
  require (r.agent.all (fun a => !isBlank a.toList && stripSpace a.toList = stripSpace r.agentId.toList))
    "conflicting identity aliases"
  require (1 ≤ r.attempt) "invalid attempt"
  require (r.status ∈ reportStatuses) "invalid terminal status"
  require (r.capabilities.all (fun c => !isBlank c.toList)) "invalid capabilities"
  let started ← reportInstant T "started_at" (.str r.startedAt)
  let completed ← reportInstant T "completed_at" (.str r.completedAt)
  require (started ≤ completed) "completed_at before started_at"
  checkOutcome r.status (fun _ => "completed missing required field") r.payload
  validateReportRetry (r.payload "retry")
  require (payloadFields.all (fun k => noSecrets T.toPlanTables (r.payload k)))
    "credencial proibida no payload"
  require (payloadFields.all (fun k => keysInOrder T.toPlanTables (r.payload k)))
    "invalid or sensitive nested field"
  return { r with payload := fun k => settle T k (r.payload k) }

/-- The fields of a report besides its payload. -/
def AgentReportV2.header (r : AgentReportV2) : Obj :=
  [("schema_version",.str agentReportV2SchemaVersion), ("task_id",.str r.taskId),
    ("attempt",.int r.attempt), ("agent_id",.str r.agentId), ("role",.str r.role),
    ("capabilities",.arr (r.capabilities.map .str)), ("status",.str r.status),
    ("started_at",.str r.startedAt), ("completed_at",.str r.completedAt)]

/-- The mapping that `to_dict` redacts. -/
def AgentReportV2.fields (r : AgentReportV2) : Obj :=
  r.header ++ (payloadFields.filter (fun k => k ∈ requiredPayload || !absent (r.payload k))).map
    (fun k => (k,r.payload k))

/-- `to_dict`, short of the order of its keys. -/
def AgentReportV2.toDict (r : AgentReportV2) : Except String Json :=
  redactReportValue T.toPlanTables (.obj r.fields)

/-- `to_json`, as the data of the text. -/
def AgentReportV2.toJson (r : AgentReportV2) : Except String Json := r.toDict T

/-! ## Parsing -/

/-- Unknown fields are rejected, or go to the extensions. -/
def withExtensions (rejectUnknown : Bool) (data : Obj) : Except String Obj :=
  let unknown := data.filter (fun e => e.1 ∉ reportV2Fields)
  if unknown.isEmpty then .ok data
  else if rejectUnknown then .error "unknown field"
  else if unknown.any (fun e => e.1 = "" || isSensitiveLabel T.toPlanTables e.1.toList) then
    .error "unknown field"
  else match (Obj.field data "extensions").getD .null with
    | .null => .ok (Obj.put data "extensions" (.obj unknown))
    | .obj existing =>
      .ok (Obj.put data "extensions" (.obj (unknown.foldl (fun o e => Obj.put o e.1 e.2) existing)))
    | _ => .error "invalid extensions"

def textOf : Json → Option String
  | .str s => some s
  | _ => none

def asText (code : String) (v : Json) : Except String String :=
  match v with
  | .str s => if isBlank s.toList then .error code else .ok s
  | _ => .error code

/-- `task_id`, the agent's id and `role`. -/
def identityOf (data : Obj) : Except String (String × String × String) := do
  let given := Obj.field data
  require ((given "agent_id").all (fun a => (given "agent").all (fun b =>
    (textOf a).any (fun s => (textOf b).any (fun t =>
      stripSpace s.toList = stripSpace t.toList))))) "conflicting identity aliases"
  let taskId ← asText "invalid identity field" ((given "task_id").getD .null)
  let agentId ← asText "invalid identity field"
    (((given "agent_id").orElse (fun _ => given "agent")).getD .null)
  let role ← asText "invalid identity field" ((given "role").getD .null)
  return (taskId,agentId,role)

def capabilitiesOf : Json → Except String (List String)
  | .arr xs => xs.mapM (asText "invalid capabilities")
  | _ => .error "invalid capabilities"

def attemptOf : Json → Except String ℤ
  | .int n => if n < 1 then .error "invalid attempt" else .ok n
  | _ => .error "invalid attempt"

def statusOf (v : Json) : Except String String :=
  match v with
  | .str s => if s ∈ reportStatuses then .ok s else .error "invalid terminal status"
  | _ => .error "invalid terminal status"

/-- The two instants agree where both are given. -/
def sameInstants (name : String) (top nested : Json) : Except String Unit :=
  if absent top || absent nested then .ok ()
  else do
    let t ← reportInstant T name top
    let u ← reportInstant T name nested
    require (t = u) "conflicting timestamps"

/-- `timestamps`, a mapping of the two names or nothing. -/
def timestampsOf : Json → Except String Obj
  | .null => .ok []
  | .obj o =>
    if o.all (fun e => e.1 ∈ ["started_at", "completed_at"]) then .ok o
    else .error "unknown timestamp field"
  | _ => .error "invalid timestamps"

/-- The instants of a report, from its own fields and from `timestamps`. -/
def instantsOf (data : Obj) : Except String (ℕ × ℕ) := do
  let given := fun k => (Obj.field data k).getD .null
  let nested ← timestampsOf (given "timestamps")
  let inner := fun k => (Obj.field nested k).getD .null
  let chosen := fun k => if absent (given k) then inner k else given k
  require (!absent (chosen "started_at") && !absent (chosen "completed_at"))
    "missing execution timestamps"
  let started ← reportTimestamp T "started_at" (chosen "started_at")
  let completed ← reportTimestamp T "completed_at" (chosen "completed_at")
  sameInstants T "started_at" (given "started_at") (inner "started_at")
  sameInstants T "completed_at" (given "completed_at") (inner "completed_at")
  let started ← parseInstant "started_at" started
  let completed ← parseInstant "completed_at" completed
  return (started,completed)

def sortedTexts (l : List String) : List String := l.insertionSort (· ≤ ·)

/-- `parse_agent_report_v2`, of data. -/
def parseData (rejectUnknown : Bool) (value : Json) : Except String AgentReportV2 :=
  match value with
  | .obj value => do
    let data ← withExtensions T rejectUnknown value
    let given := fun k => (Obj.field data k).getD .null
    require ((given "schema_version").isStr agentReportV2SchemaVersion) "unsupported schema version"
    let status ← statusOf (given "status")
    require (["task_id", "attempt", "role", "capabilities"].all (fun k => !absent (given k)))
      "missing required field"
    let (taskId,agentId,role) ← identityOf data
    let attempt ← attemptOf (given "attempt")
    let capabilities ← capabilitiesOf (given "capabilities")
    let (started,completed) ← instantsOf T data
    require ((data.filter (fun e => e.1 ∈ reportV2Fields ∧ e.1 ≠ "timestamps")).all
      (fun e => keysInOrder T.toPlanTables e.2)) "invalid or sensitive nested field"
    let payload := fun k => settle T k (given k)
    checkOutcome status (fun k => "completed missing " ++ k) payload
    validateReportRetry (payload "retry")
    makeReport T {
      taskId := String.ofList (stripSpace taskId.toList)
      attempt := attempt
      agentId := String.ofList (stripSpace agentId.toList)
      role := String.ofList (stripSpace role.toList)
      capabilities := sortedTexts capabilities
      status := status
      startedAt := String.ofList (shortFormat started)
      completedAt := String.ofList (shortFormat completed)
      agent := textOf (given "agent")
      payload := payload }
  | _ => .error "report must be an object"

/-- What the parser is given: a mapping, or a report that it parsed before. -/
inductive ReportValue where
  | data (v : Json)
  | report (r : AgentReportV2)

/-- `parse_agent_report_v2`. The error is the code in its text. -/
def parseAgentReportV2 (rejectUnknown : Bool) : ReportValue → Except String AgentReportV2
  | .data v => parseData T rejectUnknown v
  | .report r => do
    let v ← r.toDict T
    parseData T rejectUnknown v

/-- `from_json`, of the data of the text. -/
def fromJson (rejectUnknown : Bool) (v : Json) : Except String AgentReportV2 :=
  parseAgentReportV2 T rejectUnknown (.data v)

end

end PdFleet.Contracts
