import PdFleet.Disk
import PdFleet.PlanText

/-!
# Handoffs

What a worker hands over to the next one. Every text of an artifact is redacted and bounded
when the artifact is made, its ids are bounded, and its safety metadata are a mapping of
bounded depth and size.
-/

set_option autoImplicit false

namespace PdFleet.Handoff

open Pattern Contracts

/-- What the tables of Unicode decide besides: `\d` and `str.isalpha`. -/
structure HandoffTables extends PlanTables where
  isDigit : Char → Bool
  isAlpha : Char → Bool

inductive HandoffError where
  | value (text : String)
  | type (text : String)
  | osError
  deriving DecidableEq

def maxItems : ℕ := 32
def maxText : ℕ := 2000
def maxId : ℕ := 200

/-! ## What no text may hold -/

/-- Whether `f` holds at some place of the text, of the character before and of what follows. -/
def anywhere (f : Option Char → List Char → Bool) : Option Char → List Char → Bool
  | last, [] => f last []
  | last, c :: t => f last (c :: t) || anywhere f (some c) t

def isHexFold (c : Char) : Bool := c.isDigit || foldCase c ∈ ['a', 'b', 'c', 'd', 'e', 'f']

def oneSpace : Pattern := many1 isSpace

/-- `_PROMPT_LIKE`, but for its last alternative. -/
def promptWords : Pattern :=
  oneOf [seq (word foldCase "ignore") (seq oneSpace (seq (opt (seq (word foldCase "all") oneSpace))
      (seq (word foldCase "previous") (seq oneSpace (word foldCase "instructions"))))),
    seq (word foldCase "system") (seq oneSpace (word foldCase "prompt")),
    seq (word foldCase "chain") (seq (char (fun c => c ∈ ['-', ' ', '_'])) (seq (word foldCase "of")
      (seq (char (fun c => c ∈ ['-', ' ', '_'])) (word foldCase "thought")))),
    seq (word foldCase "full") (seq oneSpace (word foldCase "prompt")),
    seq (word foldCase "developer") (seq oneSpace (word foldCase "message"))]

/-- `prompt\b\s*[:=]`. -/
def promptLabel : Pattern :=
  seq (word foldCase "prompt") (seq (many isSpace) (char (fun c => c = ':' || c = '=')))

/-- `(?:api[_ -]?key|secret|token|password|credential)\s*[:=]`. -/
def secretLabel : Pattern :=
  seq (oneOf [seq (word foldCase "api") (seq labelGap (word foldCase "key")),
      word foldCase "secret", word foldCase "token", word foldCase "password",
      word foldCase "credential"])
    (seq (many isSpace) (char (fun c => c = ':' || c = '=')))

section

variable (T : HandoffTables)

def isHandleWord (c : Char) : Bool := isPlanWord T.toPlanTables c

def isHandleDigit (c : Char) : Bool := if c.toNat < 128 then c.isDigit else T.isDigit c

/-- A match that begins at a word boundary, before a character of a word. -/
def atBoundary (a : Pattern) (last : Option Char) (t : List Char) : Bool :=
  !last.any (isHandleWord T) && !(rests a t).isEmpty

/-- `a\b`, where `a` ends with a character of a word: what it leaves. -/
def closed (a : Pattern) (t : List Char) : List (List Char) :=
  (rests a t).filter (fun rest => !rest.head?.any (isHandleWord T))

/-- `_PROMPT_LIKE.search`. -/
def promptLike (t : List Char) : Bool :=
  search promptWords t || anywhere (atBoundary T promptLabel) none t

/-- `\s*[:=#]?\s*(?:0x[0-9a-f]+|\d+)`. -/
def handleNumber : Pattern :=
  seq (many isSpace) (seq (opt (char (fun c => c = ':' || c = '=' || c = '#')))
    (seq (many isSpace) (alt (seq (word foldCase "0x") (many1 isHexFold))
      (many1 (isHandleDigit T)))))

def namesHandle (last : Option Char) (t : List Char) : Bool :=
  let starts := !last.any (isHandleWord T)
  let names := (if starts then closed T (word foldCase "pid") t else []) ++
    rests (seq (word foldCase "process") (seq oneSpace (word foldCase "id"))) t ++
    rests (seq (word foldCase "native") (seq labelGap (word foldCase "handle"))) t ++
    (if starts then closed T (word foldCase "handle") t else [])
  names.any (fun rest => !(rests (handleNumber T) rest).isEmpty) ||
    starts && !(closed T (seq (word foldCase "0x") (atLeast 8 isHexFold)) t).isEmpty

/-- `_OPERATIONAL_HANDLE.search`. -/
def operationalHandle (t : List Char) : Bool := anywhere (namesHandle T) none t

/-- `_SECRET_ASSIGNMENT.search`. -/
def secretAssignment (t : List Char) : Bool := anywhere (atBoundary T secretLabel) none t

def rootedAt (last : Option Char) (t : List Char) : Bool :=
  last.all (fun c => c = '=' || isSpace c) &&
    !(rests (seq (char (· = '/')) (many1 (fun c => !isSpace c))) t).isEmpty

def isLetter (c : Char) : Bool := if c.toNat < 128 then c.isAlpha else T.isAlpha c

/-- `_unsafe_identifier`. -/
def unsafeIdentifier (t : List Char) : Bool :=
  search externalUrl t || promptLike T t || operationalHandle T t || secretAssignment T t ||
    ["/", "\\", "~", "[PATH", "[URL"].any (fun p => p.toList.isPrefixOf t) ||
    (t.tail.head? = some ':' && t.head?.any (isLetter T)) || t.contains '\\' ||
    anywhere rootedAt none t

/-! ## Texts and ids -/

def urlSub : Rule where
  behind _ := true
  kept := empty
  dropped := externalUrl
  text := "[URL REDACTED]"

/-- What the redactions leave of a text. -/
def redactText (t : List Char) : List Char :=
  stripSpace (redactSensitiveText T.toPlanTables (redactPaths T.toPlanTables (urlSub.subFrom none 0 t)))

/-- `_sanitize_text`. -/
def sanitizeText (name : String) (value : Json) : Except HandoffError String :=
  match value with
  | .str s =>
    if isBlank s.toList || maxText < s.toList.length then
      .error (.value (name ++ " must be a non-empty bounded string"))
    else if s.toList.any (fun c => c.toNat < 32 && c ≠ '\n' && c ≠ '\t') then
      .error (.value (name ++ " contains control characters"))
    else if promptLike T s.toList || operationalHandle T s.toList then
      .error (.value (name ++ " contains prohibited operational or prompt content"))
    else if redactText T s.toList = [] then
      .error (.value (name ++ " became empty after redaction"))
    else .ok (String.ofList (redactText T s.toList))
  | _ => .error (.value (name ++ " must be a non-empty bounded string"))

/-- `_bounded_id`. -/
def boundedId (name : String) (value : Json) : Except HandoffError String :=
  match value with
  | .str s =>
    if isBlank s.toList || maxId < s.toList.length then
      .error (.value (name ++ " must be a non-empty bounded string"))
    else if s.toList.any (fun c => c.toNat < 32) then .error (.value ("invalid " ++ name))
    else if unsafeIdentifier T (stripSpace s.toList) then
      .error (.value ("invalid or unsafe " ++ name))
    else .ok (String.ofList (stripSpace s.toList))
  | _ => .error (.value (name ++ " must be a non-empty bounded string"))

/-- `HandoffReason`. -/
def reasons : List String := ["retry", "fallback", "handoff", "replan", "human_intervention"]

/-- `_LEGACY_REASONS`. -/
def legacyReasons : List (String × String) :=
  [("worker_lost", "fallback"), ("context_exhausted", "handoff"), ("phase_boundary", "handoff")]

/-- `_reason`. -/
def reason : Json → Except HandoffError String
  | .str s =>
    if (legacyReasons.lookup s).getD s ∈ reasons then .ok ((legacyReasons.lookup s).getD s)
    else .error (.value "reason must be a bounded HandoffReason")
  | .arr _ | .obj _ => .error (.type "unhashable type")
  | _ => .error (.value "reason must be a bounded HandoffReason")

/-- `_ref`. -/
def ref (value : Json) : Except HandoffError String := do
  let s ← sanitizeText T "evidence_ref" value
  if search externalUrl s.toList || "/".toList.isPrefixOf s.toList || "~".toList.isPrefixOf s.toList ||
      "[PATH REDACTED]".toList.isPrefixOf s.toList || "[URL REDACTED]".toList.isPrefixOf s.toList then
    .error (.value "evidence_ref must not be an absolute path")
  else .ok s

/-- The values that `for value in values` runs over. -/
def iterate (name : String) : Json → Except HandoffError (List Json)
  | .arr xs => .ok xs
  | .obj kvs => .ok (kvs.map (fun e => .str e.1))
  | .str _ => .error (.value (name ++ " must be a list"))
  | _ => .error (.type "object is not iterable")

/-- The loop of `_items` and `_bounded_refs`; `n` items were taken. -/
def takeItems (name : String) (f : Json → Except HandoffError String) :
    ℕ → List Json → Except HandoffError (List String)
  | _, [] => .ok []
  | n, x :: xs => do
    let s ← f x
    if maxItems < n+1 then .error (.value (name ++ " exceeds item limit"))
    else do
      let l ← takeItems name f (n+1) xs
      return s :: l

/-- `_items`. -/
def items (name : String) (values : Json) : Except HandoffError (List String) := do
  let xs ← iterate name values
  takeItems name (sanitizeText T (name ++ " item")) 0 xs

/-- `_bounded_refs`. -/
def boundedRefs (values : Json) : Except HandoffError (List String) := do
  let xs ← iterate "evidence_refs" values
  takeItems "evidence_refs" (ref T) 0 xs

/-! ## Safety metadata -/

/-- `(?i)(?:secret|secrets|token|password|credential|api[_ -]?key)`. -/
def secretKey : Pattern :=
  oneOf [word foldCase "secret", word foldCase "secrets", word foldCase "token",
    word foldCase "password", word foldCase "credential",
    seq (word foldCase "api") (seq labelGap (word foldCase "key"))]

def unsafeKey (t : List Char) : Bool :=
  isBlank t || maxId < t.length || unsafeIdentifier T t || (rests secretKey (stripSpace t)).contains []

/-- `math.isfinite`, of an integer. -/
def isFiniteInt (n : ℤ) : Bool := n.natAbs < 2^1024-2^970

mutual

/-- `_safe_metadata`: the value and the number of values seen. -/
def safeMetadata (depth count : ℕ) (value : Json) : Except HandoffError (Json × ℕ) :=
  if 4 < depth then .error (.value "safety metadata exceeds depth limit")
  else if maxItems < count+1 then .error (.value "safety metadata exceeds item limit")
  else match value with
    | .obj kvs =>
      if maxItems < kvs.length then .error (.value "safety metadata exceeds item limit")
      else (safeFields depth (count+1) [] kvs).map (fun (o,n) => (.obj o,n))
    | .arr xs =>
      if maxItems < xs.length then .error (.value "safety metadata exceeds item limit")
      else (safeItems depth (count+1) xs).map (fun (l,n) => (.arr l,n))
    | .str s => (sanitizeText T "safety metadata" (.str s)).map (fun t => (.str t,count+1))
    | .int n =>
      if isFiniteInt n then .ok (.int n,count+1)
      else .error (.value "safety metadata contains invalid value")
    | value => .ok (value,count+1)

def safeItems (depth count : ℕ) : List Json → Except HandoffError (List Json × ℕ)
  | [] => .ok ([],count)
  | x :: xs => do
    let (w,n) ← safeMetadata (depth+1) count x
    let (l,n) ← safeItems depth n xs
    return (w :: l,n)

/-- `result` holds the entries that were read. -/
def safeFields (depth count : ℕ) (result : Obj) :
    List (String × Json) → Except HandoffError (Obj × ℕ)
  | [] => .ok (result,count)
  | (k,v) :: kvs =>
    if unsafeKey T k.toList then .error (.value "unsafe safety metadata key")
    else do
      let (w,n) ← safeMetadata (depth+1) count v
      safeFields depth n (result.put (String.ofList (stripSpace k.toList)) w) kvs

end

/-- The safety metadata of an artifact. -/
def safeMapping : Json → Except HandoffError Obj
  | .obj kvs => do
    match ← safeMetadata T 0 0 (.obj kvs) with
    | (.obj o,_) => .ok o
    | _ => .error (.value "safety must be a mapping")
  | _ => .error (.value "safety must be a mapping")

/-! ## Artifacts -/

structure HandoffLineage where
  missionId : String
  missionRunId : String
  taskId : String
  sourceLaneId : String
  attemptId : String
  sessionId : String
  targetRole : String
  ownerEpoch : ℕ
  deriving DecidableEq

/-- The check of `owner_epoch`. -/
def epoch : Json → Except HandoffError ℕ
  | .int n =>
    if n < 0 then .error (.value "owner_epoch must be a non-negative integer") else .ok n.toNat
  | _ => .error (.value "owner_epoch must be a non-negative integer")

/-- `HandoffLineage.__post_init__`. -/
def makeLineage (missionId missionRunId taskId sourceLaneId attemptId sessionId targetRole
    ownerEpoch : Json) : Except HandoffError HandoffLineage := do
  let missionId ← boundedId T "mission_id" missionId
  let missionRunId ← boundedId T "mission_run_id" missionRunId
  let taskId ← boundedId T "task_id" taskId
  let sourceLaneId ← boundedId T "source_lane_id" sourceLaneId
  let attemptId ← boundedId T "attempt_id" attemptId
  let sessionId ← boundedId T "session_id" sessionId
  let targetRole ← boundedId T "target_role" targetRole
  let ownerEpoch ← epoch ownerEpoch
  return ⟨missionId,missionRunId,taskId,sourceLaneId,attemptId,sessionId,targetRole,ownerEpoch⟩

structure HandoffArtifact where
  handoffId : String
  reason : String
  summary : String
  completed : List String
  remaining : List String
  decisions : List String
  risks : List String
  evidenceRefs : List String
  nextAction : String
  lineage : HandoffLineage
  safety : Obj

/-- `HandoffArtifact.__post_init__`, after the check of the lineage's type. -/
def makeArtifact (handoffId reason' summary completed remaining decisions risks evidenceRefs
    nextAction : Json) (lineage : HandoffLineage) (safety : Json) :
    Except HandoffError HandoffArtifact := do
  let handoffId ← boundedId T "handoff_id" handoffId
  let reason' ← reason reason'
  let summary ← sanitizeText T "summary" summary
  let nextAction ← sanitizeText T "next_action" nextAction
  let completed ← items T "completed" completed
  let remaining ← items T "remaining" remaining
  let decisions ← items T "decisions" decisions
  let risks ← items T "risks" risks
  let evidenceRefs ← boundedRefs T evidenceRefs
  let safety ← safeMapping T safety
  return ⟨handoffId,reason',summary,completed,remaining,decisions,risks,evidenceRefs,nextAction,
    lineage,safety⟩

end

/-- `HandoffLineage.to_dict`. -/
def HandoffLineage.toDict (l : HandoffLineage) : Obj :=
  [("mission_id",.str l.missionId), ("mission_run_id",.str l.missionRunId),
    ("task_id",.str l.taskId), ("source_lane_id",.str l.sourceLaneId),
    ("attempt_id",.str l.attemptId), ("session_id",.str l.sessionId),
    ("target_role",.str l.targetRole), ("owner_epoch",.int l.ownerEpoch)]

def texts (l : List String) : Json := .arr (l.map .str)

/-- `HandoffArtifact.to_dict`. -/
def HandoffArtifact.toDict (a : HandoffArtifact) : Obj :=
  [("handoff_id",.str a.handoffId), ("reason",.str a.reason), ("summary",.str a.summary),
    ("completed",texts a.completed), ("remaining",texts a.remaining),
    ("decisions",texts a.decisions), ("risks",texts a.risks),
    ("evidence_refs",texts a.evidenceRefs), ("next_action",.str a.nextAction),
    ("lineage",.obj a.lineage.toDict), ("safety",.obj a.safety)]

end PdFleet.Handoff
