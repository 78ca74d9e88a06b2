import PdFleet.Lifecycle
import PdFleet.AgentReport

/-!
# What becomes of an attempt

The answer of a dispatcher is read, its report checked where reports are required, and a
completion checked against the outputs and the acceptance criteria of the task.
-/

set_option autoImplicit false

namespace PdFleet.Serial

open Pattern Contracts

section

variable (T : ReportTables)

/-! ## Texts -/

/-- `_REPORT_URL_RE`. -/
def reportUrl : Rule := { urlRule with text := "[redacted-url]" }

def isReportPathChar (c : Char) : Bool := !isSpace c && c ∉ ['"', '\'', '<', '>', ';', ',']

/-- `_REPORT_PATH_RE`. -/
def reportPath : Rule where
  behind last := !last.any (fun c => isPlanWord T.toPlanTables c || c = '.')
  kept := empty
  dropped := oneOf [seq (char (fun c => c.isUpper || c.isLower)) (seq (char (· = ':'))
      (seq (char isSlash) (many1 isReportPathChar))),
    seq (char (· = '/')) (many1 isReportPathChar),
    seq (word id "\\\\") (many1 isReportPathChar)]
  text := "[redacted-path]"

/-- `_REPORT_SECRET_RE`. -/
def reportSecret : Rule where
  behind last := !last.any (isPlanWord T.toPlanTables)
  kept := empty
  dropped := alt (seq (word foldCase "bearer") (seq (many1 isSpace) (many1 (fun c => !isSpace c))))
    (seq (word foldCase "sk-") (many1 (fun c => isAlnumFold c || c = '_' || c = '-')))
  text := "[redacted-secret]"

/-- `_SENSITIVE_KEYS`. -/
def sensitiveWords : List String :=
  ["secret", "token", "password", "credential", "apikey", "accesskey", "privatekey",
    "authorization", "bearer"]

def hasSensitiveWord (key : List Char) : Bool := sensitiveWords.any (fun w => w.toList <:+: key)

def isKeyChar (c : Char) : Bool := isAlnumFold c || c = '_' || c = '.' || c = '-'

/-- A match of `_REPORT_ASSIGNMENT_RE`: what becomes of it, and what it leaves. -/
def reportAssignmentAt (last : Option Char) (t : List Char) : Option (List Char × List Char) :=
  if last.any isAlnumFold then none
  else ((rests (seq (char isLetterFold) (seq (char isKeyChar) (atMost 79 isKeyChar))) t).flatMap
    (fun rest => (rests (seq separator (many1 (fun c => !isSpace c && c ≠ ',' && c ≠ ';'))) rest).map
      (fun rest' =>
        let key := (lowerText T.toPlanTables (matched t rest)).filter (fun c => c ≠ '_' && c ≠ '-')
        if hasSensitiveWord key then
          (matched t rest ++ "=[redacted-secret]".toList,rest')
        else (matched t rest',rest')))).head?

/-- `_sanitize_text`, of a text. -/
def sanitizeText (text : String) : String :=
  let t := reportUrl.subFrom none 0 text.toList
  let t := (reportSecret T).subFrom none 0 ((reportPath T).subFrom none 0 t)
  String.ofList (subWith (reportAssignmentAt T) none 0 t)

/-- The text of `_sanitize_text(value, default)`. -/
def sanitizeOr (default : Option String) : Json → Option String
  | .null => default
  | .str s => some (sanitizeText T s)
  | _ => default.map (sanitizeText T)

mutual

/-- `_sanitize_payload`. -/
def sanitizePayload : Json → Json
  | .obj kvs => .obj (sanitizeEntries [] kvs)
  | .arr xs => .arr (sanitizeAll xs)
  | .str s => .str (sanitizeText T s)
  | .null => .null
  | .bool b => .bool b
  | .int n => .int n
  | .float r => .float r

def sanitizeAll : List Json → List Json
  | [] => []
  | x :: xs => sanitizePayload x :: sanitizeAll xs

/-- The entries, put after those that were sanitized. -/
def sanitizeEntries : Obj → List (String × Json) → Obj
  | result, [] => result
  | result, (k,v) :: kvs =>
    let name := if sanitizeText T k = "" then "key" else sanitizeText T k
    let normalized := (lowerText T.toPlanTables name.toList).filter isLowerOrDigit
    sanitizeEntries (Obj.put result name
      (if hasSensitiveWord normalized then .str "[redacted-secret]" else sanitizePayload v)) kvs

end

/-! ## Completions -/

variable {W : Type}

/-- What the outputs of a task are called in a completion. -/
def normalizeOutput (names : List String) (output : Json) (evidence : Obj) : Option Json :=
  match output with
  | .obj o =>
    if Obj.hasExactly o names then
      some (.obj (names.dedup.map (fun name => (name,(Obj.field o name).getD .null))))
    else match names, Obj.field o "output" with
      | [name], some v =>
        if (Obj.field evidence "adapter").any (fun a => a.isStr "simulated") then
          some (.obj [(name,v)])
        else none
      | _, _ => none
  | v =>
    match names with
    | [name] => some (.obj [(name,v)])
    | _ => none

/-- The acceptance that the evidence gives under one of its names. -/
def acceptanceOf (evidence : Obj) : Json :=
  let given := fun k => (Obj.field evidence k).getD .null
  if (given "acceptance").truth then given "acceptance"
  else if (given "acceptance_metadata").truth then given "acceptance_metadata"
  else if (given "acceptance_criteria").truth then given "acceptance_criteria"
  else given "validation"

def isFalse : Json → Bool
  | .bool b => !b
  | _ => false

/-- The proof of acceptance of the simulated adapter. -/
def isSimulated (evidence : Obj) : Bool :=
  (Obj.field evidence "adapter").any (fun a => a.isStr "simulated") &&
    (Obj.field evidence "deterministic").any (fun d => isBool d && !isFalse d) &&
    (Obj.field evidence "fingerprint").any Json.truth

def isRefused : Json → Bool
  | .obj o => (Obj.field o "passed").any isFalse
  | v => isFalse v

/-- `_normalize_completion`. -/
def normalizeCompletion (t : TaskSpec W) (output evidence : Json) : Option (Json × Json) :=
  if t.outputs = [] || absent output then none
  else match evidence with
    | .obj e =>
      match normalizeOutput t.outputs output e with
      | none => none
      | some normalized =>
        if !e.any (fun entry => entry.2.present) then none
        else if t.acceptanceCriteria ≠ [] && !(acceptanceOf e).truth && !isSimulated e then none
        else if isRefused (acceptanceOf e) then none
        else some (sanitizePayload T normalized,sanitizePayload T (.obj e))
    | _ => none

/-! ## Answers -/

/-- What a dispatcher returns: a mapping, or an object with these attributes. -/
inductive Reply where
  | raised
  | mapping (o : Obj)
  | object (o : Obj)

structure Answer where
  reply : Reply
  elapsed : ℚ
  /-- The hooks take the report of the attempt. -/
  commits : Bool

/-- The status, the result, the evidence, the error and the reason of a reply. -/
structure Read where
  status : Json
  output : Json
  evidence : Json
  error : Json
  reason : Json

def Reply.read : Reply → Read
  | .raised => ⟨.str "failed",.null,.obj [],.str "dispatch failed",.null⟩
  | .mapping o =>
    let given := fun k => (Obj.field o k).getD .null
    ⟨given "status",((Obj.field o "result").getD (given "output")),given "evidence",given "error",
      given "reason"⟩
  | .object o =>
    ⟨(Obj.field o "status").getD (.str "failed"),(Obj.field o "result").getD .null,
      (Obj.field o "evidence").getD (.obj []),(Obj.field o "error").getD .null,
      (Obj.field o "reason").getD .null⟩

/-- What a run is given besides its plan. -/
structure Environment (W : Type) extends Setting W where
  /-- The ids of `self.gates`. -/
  gates : List String
  /-- The plan has no hash that gates could be bound to. -/
  scopeFails : Bool
  /-- The obstruction of a task is that its inputs are missing. -/
  missesInputs : TaskSpec W → Bool
  timeout : Option ℚ
  /-- Completions are reports of the second version. -/
  reports : Bool
  tables : ReportTables

/-- `parsed.error or parsed.reason`. -/
def errorOf (r : AgentReportV2) : Json :=
  if (r.payload "error").truth then r.payload "error" else r.payload "reason"

/-- The report that an answer holds, if it is one of this attempt. -/
def reportOf (T : ReportTables) (t : TaskSpec W) (attempt : ℕ) (output : Json) : Option AgentReportV2 :=
  match output with
  | .obj o =>
    match parseAgentReportV2 T true (.data ((Obj.field o "report").getD .null)) with
    | .ok r => if r.taskId = t.id ∧ r.attempt = attempt then some r else none
    | .error _ => none
  | _ => none

/-- A report that cannot be taken; a reply that is not `completed` keeps what it says. -/
def Read.withoutReport (r : Read) : Read :=
  if r.status.isStr "completed" then
    { r with
      status := .str "failed"
      error := .str "incomplete AgentReportV2"
      reason := .str "invalid terminal report" }
  else r

/-- The reading of a reply, with its report; the flag is `v2_valid`. -/
def withReport (T : ReportTables) (t : TaskSpec W) (attempt : ℕ) (commits : Bool) (r : Read) :
    Read × Bool :=
  match reportOf T t attempt r.output with
  | none => (r.withoutReport,false)
  | some report =>
    let r := { r with output := report.payload "outputs", evidence := report.payload "evidence" }
    if report.status = "completed" then
      if commits then ({ r with status := .str "completed" },true) else (r.withoutReport,false)
    else ({ r with
      status := .str report.status
      error := errorOf report
      reason := report.payload "reason" },false)

/-- What an attempt comes to. -/
inductive Judgement where
  | completed (output evidence : Json)
  | failed (error : String) (retryable : Bool)
  /-- The status is compared with a set of texts, and cannot be hashed. -/
  | unhashable

def isTimeout (status : Json) : Bool := status.isStr "timeout" || status.isStr "timed_out"

/-- The reading of an answer, with its timeout and its report. -/
def readAnswer (E : Environment W) (t : TaskSpec W) (attempt : ℕ) (a : Answer) : Read × Bool :=
  let r := a.reply.read
  let r := if E.timeout.any (fun limit => limit ≤ a.elapsed) then { r with status := .str "timeout" } else r
  if E.reports then withReport E.tables t attempt a.commits r else (r,false)

/-- The judgement of `_execute` on an answer. -/
def judge (E : Environment W) (t : TaskSpec W) (attempt : ℕ) (a : Answer) : Judgement :=
  let (r,valid) := readAnswer E t attempt a
  if r.status.isStr "completed" then
    match if valid then some (r.output,r.evidence) else
        normalizeCompletion E.tables t r.output r.evidence with
    | some (output,evidence) => .completed output evidence
    | none => .failed (sanitizeText E.tables "completed report contract inválido") true
  else if !r.status.hashable then .unhashable
  else
    let error := if isTimeout r.status then .str "timeout" else r.error
    let safe := (sanitizeOr E.tables (some "dispatch failed") error).getD ""
    .failed (if safe = "" then "dispatch failed" else safe) (!isTimeout r.status)

/-! ## Errors that are tried again -/

/-- `re.sub(r"[^a-z0-9]+", " ", text.lower()).strip()`. -/
def errorWords (text : String) : List Char :=
  stripSpace (squeeze (fun c => !isLowerOrDigit c) ' ' (lowerText T.toPlanTables text.toList))

/-- The text occurs between blanks or ends. -/
def occursIn (part t : List Char) : Bool := (' ' :: part ++ [' ']) <:+: (' ' :: t ++ [' '])

/-- A denial of the error: `not`, perhaps with `transient` or `retryable`, before it. -/
def isDenied (candidate t : List Char) : Bool :=
  ["", "transient", "retryable"].any (fun w => ["", " "].any (fun gap =>
    occursIn ("not ".toList ++ w.toList ++ gap.toList ++ candidate) t))

/-- `_retry_error_matches`. -/
def retryErrorMatches (error : String) (tokens : List String) : Bool :=
  let normalized := errorWords T error
  tokens.any (fun token =>
    let candidate := errorWords T token
    candidate ≠ [] && (if ' ' ∈ candidate then candidate = normalized || occursIn candidate normalized
      else occursIn candidate normalized && !isDenied candidate normalized))

end

end PdFleet.Serial
