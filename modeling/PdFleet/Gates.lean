import PdFleet.Clock
import PdFleet.Validation

/-!
# Gate results and human verification records

The records of `gates.py`, built from data with their checks, and the policy that
evaluates them. A `float` of the data is read by the platform, like the tables of
Unicode.
-/

set_option autoImplicit false

namespace PdFleet.Gates

structure GateTables extends Tables where
  upper : List Char → List Char
  casefold : List Char → List Char
  float : String → ℚ

/-- A `GateError` with its text, or the overflow of a date or of a duration. -/
inductive GateError where
  | invalid (msg : String)
  | overflow
  deriving DecidableEq, Repr

def fail {α : Type} (msg : String) : Except GateError α := .error (.invalid msg)

def check (b : Bool) (msg : String) : Except GateError Unit := if b then .ok () else fail msg

def get (o : Obj) (k : String) : Json := (o.field k).getD .null

/-- `value.get(k, value.get(k'))`. -/
def getElse (o : Obj) (k : String) (d : Json) : Json := (o.field k).getD d

/-! ## Reading values -/

mutual

/-- `_safe` and `_plain_json`: whether a value holds no empty key. -/
def safe (path : String) : Json → Except GateError Unit
  | .arr xs => safeItems path 0 xs
  | .obj kvs =>
    if kvs.any (fun e => e.1 = "") then fail (path ++ " contém chave JSON inválida")
    else safeFields path kvs
  | _ => .ok ()

def safeItems (path : String) : ℕ → List Json → Except GateError Unit
  | _, [] => .ok ()
  | i, x :: xs => do
    safe (path ++ "[" ++ toString i ++ "]") x
    safeItems path (i+1) xs

def safeFields (path : String) : List (String × Json) → Except GateError Unit
  | [] => .ok ()
  | (k,v) :: kvs => do
    safe (path ++ "." ++ k) v
    safeFields path kvs

end

def stripText (T : Tables) (s : String) : String := String.ofList (strip T s.toList)

/-- `_text` of a required value. -/
def text (T : Tables) (name : String) (value : Json) : Except GateError String :=
  match value with
  | .str s => if strip T s.toList = [] then fail (name ++ " deve ser string não vazia")
    else .ok (stripText T s)
  | _ => fail (name ++ " deve ser string não vazia")

/-- `_text` of a value that may be missing or blank. -/
def optionalText (T : Tables) (name : String) (value : Json) :
    Except GateError (Option String) :=
  match value with
  | .null => .ok none
  | .str s => .ok (some (stripText T s))
  | _ => fail (name ++ " deve ser string não vazia")

def items (name : String) : Json → Except GateError (List Json)
  | .null => .ok []
  | .arr xs => .ok xs
  | _ => fail (name ++ " deve ser uma lista")

def isTextOf (T : Tables) : Json → Bool
  | .str s => strip T s.toList ≠ []
  | _ => false

def checkReference (T : Tables) (name : String) : Json → Except GateError Unit
  | .str s => if strip T s.toList = [] then fail (name ++ " contém referência vazia") else .ok ()
  | .obj o => if ["ref","id","path","name"].any (fun k => isTextOf T (get o k)) then .ok ()
    else fail (name ++ " contém referência sem id/ref/path")
  | _ => fail (name ++ " contém referência inválida")

/-- `_references`. -/
def references (T : Tables) (name : String) (value : Json) : Except GateError (List Json) := do
  let xs ← items name value
  safeItems name 0 xs
  xs.forM (checkReference T name)
  return xs

def foldText (T : GateTables) (s : String) : String :=
  String.ofList (T.casefold (strip T.toTables s.toList))

def severities : List String := ["blocker","critical","high","medium","low","info"]

def closedStatuses : List String := ["closed","resolved","done","passed"]

def blockerStatuses : List String :=
  ["open","pending","active","in_progress","in-progress","unresolved"]++closedStatuses

/-- `_open_blocker`. -/
def openBlocker (T : GateTables) : Json → Bool
  | .obj o =>
    match getElse o "severity" (get o "level"), get o "status" with
    | .str severity, .str status =>
      let severity := foldText T severity
      let status := foldText T status
      if severity ∉ severities ∨ status ∉ blockerStatuses then true
      else status ∉ closedStatuses && severity ∈ ["blocker","critical","high"]
    | _, _ => true
  | _ => true

/-! ## Gate results -/

inductive GateStatus where
  | pending
  | running
  | passed
  | failed
  | blocked
  deriving DecidableEq, Repr

def gateStatus : Json → Except GateError GateStatus
  | .str "pending" => .ok .pending
  | .str "running" => .ok .running
  | .str "passed" => .ok .passed
  | .str "failed" => .ok .failed
  | .str "blocked" => .ok .blocked
  | _ => fail "status inválido"

def gateTypes : List String := ["review","grill","smoke_test","evidence"]

structure GateResult where
  gateId : String
  gateType : String
  status : GateStatus
  owner : Option String
  decision : Option String
  blockers : List Json
  evidence : List Json
  reports : List Json
  details : Obj

/-- The truth of a text that may be missing. -/
def present (s : Option String) : Bool := s.any (· ≠ "")

/-- `_passes_gate_contract`. -/
def passesGateContract (T : GateTables) (g : GateResult) : Bool :=
  present g.owner && present g.decision && g.evidence ≠ [] && g.reports ≠ [] &&
    !g.blockers.any (openBlocker T)

def detailsOf : Json → Except GateError Obj
  | .obj o => .ok o
  | _ => fail "details deve ser objeto"

/-- `GateResult.__post_init__`. -/
def GateResult.make (T : GateTables)
    (gateId gateType status owner decision blockers evidence reports details : Json) :
    Except GateError GateResult := do
  let gateId ← text T.toTables "gate_id" gateId
  let gateType ← text T.toTables "gate_type" gateType
  check (gateType ∈ gateTypes) "gate_type inválido"
  let status ← gateStatus status
  let owner ← optionalText T.toTables "owner" owner
  let decision ← optionalText T.toTables "decision" decision
  let blockers ← items "blockers" blockers
  safeItems "blockers" 0 blockers
  let evidence ← references T.toTables "evidence" evidence
  let reports ← references T.toTables "reports" reports
  let details ← detailsOf details
  safe "details" (.obj details)
  let g : GateResult :=
    ⟨gateId,gateType,status,owner,decision,blockers,evidence,reports,details⟩
  check (status ≠ .passed || passesGateContract T g)
    "resultado passed exige owner, decision, evidence, reports e nenhum blocker aberto"
  return g

/-- The gate type that the mapping gives. -/
def givenType (o : Obj) : Json := getElse o "gate_type" (getElse o "kind" (get o "type"))

/-- `GateResult.from_dict`, of a mapping. -/
def GateResult.fromDict (T : GateTables) (o : Obj) : Except GateError GateResult :=
  GateResult.make T (getElse o "gate_id" (get o "id")) (givenType o)
    (getElse o "status" (.str "pending")) (get o "owner") (get o "decision")
    (getElse o "blockers" (.arr []))
    (getElse o "evidence" (getElse o "evidence_refs" (.arr [])))
    (getElse o "reports" (.arr [])) (getElse o "details" (.obj []))

abbrev Requirements := List (String × Bool)

structure GatePolicy where
  requirements : List (String × Requirements)
  defaultRequirements : Requirements

/-- `GatePolicy()`. -/
def contractPolicy : GatePolicy where
  requirements := []
  defaultRequirements := [("owner",true),("decision",true),("evidence",true),("reports",true),
    ("no_blockers",true)]

/-- Whether a gate type requires `key`; what nothing tells is required. -/
def GatePolicy.requires (P : GatePolicy) (gateType key : String) : Bool :=
  ((((P.requirements.lookup gateType).getD []).lookup key).orElse
    (fun _ => P.defaultRequirements.lookup key)).getD true

/-- `GatePolicy.evaluate`, of a result. -/
def GatePolicy.evaluate (P : GatePolicy) (T : GateTables) (g : GateResult) : GateStatus :=
  let req := P.requires g.gateType
  if g.status = .pending ∨ g.status = .running then g.status
  else if present g.decision ∧ String.ofList (T.lower (g.decision.getD "").toList) ∈
      ["human","human_required","needs_approval","pending"] then .pending
  else if g.status ≠ .passed then g.status
  else if req "owner" ∧ !present g.owner then .blocked
  else if req "decision" ∧ !present g.decision then .pending
  else if req "evidence" ∧ g.evidence = [] then .blocked
  else if req "reports" ∧ g.reports = [] then .blocked
  else if req "no_blockers" ∧ g.blockers.any (openBlocker T) then .blocked
  else .passed

def GatePolicy.allows (P : GatePolicy) (T : GateTables) (g : GateResult) : Bool :=
  P.evaluate T g = .passed

/-! ## Human verification records -/

inductive HumanDecision where
  | approved
  | rejected
  | pending
  deriving DecidableEq, Repr

def humanDecision (T : GateTables) (value : Json) : Except GateError HumanDecision :=
  match value with
  | .str s =>
    let name := String.ofList (T.upper s.toList)
    if name = "APPROVED" then .ok .approved
    else if name = "REJECTED" then .ok .rejected
    else if name = "PENDING" then .ok .pending
    else fail "decision humana inválida"
  | _ => fail "decision humana inválida"

def digest (name : String) : Json → Except GateError String
  | .str s => if isHex64 s then .ok s
    else fail (name ++ " deve ser SHA-256 hexadecimal lowercase")
  | _ => fail (name ++ " deve ser SHA-256 hexadecimal lowercase")

/-- `_utc_datetime`: the instant of a text. -/
def utcDatetime (name : String) : Json → Except GateError ℕ
  | .str s =>
    match fromisoformat (replaceZ s.toList) with
    | none => fail (name ++ " deve ser timestamp ISO-8601 UTC")
    | some ⟨t, some 0⟩ => .ok t
    | some _ => fail (name ++ " deve ser timestamp UTC")
  | _ => fail (name ++ " deve ser timestamp UTC")

def windowSeconds (T : GateTables) : Json → Except GateError Seconds
  | .int n => .ok (.int n)
  | .float r => .ok (.float (T.float r))
  | _ => fail "freshness_window deve ser duração positiva"

/-- The microseconds of the largest `timedelta`. -/
def maxDuration : ℕ := 1000000000*dayMicros-1

def freshness (T : GateTables) (window : Json) : Except GateError ℕ := do
  let seconds ← windowSeconds T window
  check seconds.positive "freshness_window deve ser duração positiva"
  if maxDuration < seconds.micros then .error .overflow else .ok seconds.micros

structure HumanVerificationGate where
  owner : String
  identity : String
  decision : HumanDecision
  scope : Json
  run : String
  evidenceDigest : String
  artifactDigest : String
  createdAt : ℕ
  updatedAt : ℕ
  freshnessWindow : ℕ
  blockers : List Json

def frozenScope (T : Tables) (scope : Json) : Except GateError Json :=
  match scope with
  | .str _ => do return .str (← text T "scope" scope)
  | _ => do
    safe "scope" scope
    match scope with
    | .obj _ | .arr _ => return scope
    | _ => fail "scope deve ser string ou objeto JSON"

/-- `HumanVerificationGate.__post_init__`. -/
def HumanVerificationGate.make (T : GateTables)
    (owner identity decision scope run evidenceDigest artifactDigest createdAt updatedAt
      freshnessWindow blockers : Json) : Except GateError HumanVerificationGate := do
  let owner ← text T.toTables "owner" owner
  let identity ← text T.toTables "identity" identity
  let run ← text T.toTables "run" run
  let decision ← humanDecision T decision
  let evidenceDigest ← digest "evidence_digest" evidenceDigest
  let artifactDigest ← digest "artifact_digest" artifactDigest
  let created ← utcDatetime "created_at" createdAt
  let updated ← utcDatetime "updated_at" updatedAt
  check (created ≤ updated) "updated_at não pode anteceder created_at"
  let window ← freshness T freshnessWindow
  let scope ← frozenScope T.toTables scope
  let blockers ← items "blockers" blockers
  safeItems "blockers" 0 blockers
  return ⟨owner,identity,decision,scope,run,evidenceDigest,artifactDigest,created,updated,
    window,blockers⟩

def humanFields : List String :=
  ["owner","identity","decision","scope","run","run_id","evidence_digest","artifact_digest",
    "created_at","updated_at","freshness_window","blockers"]

/-- `run` and `run_id`, where a mapping has both, are one text. -/
def checkRun (o : Obj) : Except GateError Unit :=
  match o.field "run", o.field "run_id" with
  | some (.str r), some (.str r') => check (r = r') "run e run_id conflitantes"
  | some _, some _ => fail "run e run_id devem ser strings"
  | _, _ => .ok ()

/-- `HumanVerificationGate.from_dict`; `plain` tells that the mapping is a `dict`. -/
def HumanVerificationGate.fromDict (T : GateTables) (plain : Bool) (o : Obj) :
    Except GateError HumanVerificationGate := do
  check plain "human gate deve ser objeto"
  check (o.all (fun e => e.1 ∈ humanFields)) "human gate contém campos desconhecidos"
  checkRun o
  HumanVerificationGate.make T (get o "owner") (get o "identity") (get o "decision") (get o "scope")
    (getElse o "run" (get o "run_id")) (get o "evidence_digest") (get o "artifact_digest")
    (get o "created_at") (get o "updated_at") (get o "freshness_window")
    (getElse o "blockers" (.arr []))

mutual

def normalize : Json → Json
  | .arr xs => .arr ((normalizeItems xs).insertionSort (fun a b => dumps a ≤ dumps b))
  | .obj kvs => .obj (normalizeFields kvs)
  | v => v

def normalizeItems : List Json → List Json
  | [] => []
  | x :: xs => normalize x :: normalizeItems xs

def normalizeFields : List (String × Json) → List (String × Json)
  | [] => []
  | (k,v) :: kvs => (k,normalize v) :: normalizeFields kvs

end

/-- `_canonical_scope`. -/
def canonicalScope (value : Json) : Option String :=
  match safe "scope" value with
  | .ok _ => some (dumps (normalize value))
  | .error _ => none

def isNone : Json → Bool
  | .null => true
  | _ => false

def isRun (T : Tables) : Json → Bool
  | .str s => strip T s.toList ≠ []
  | _ => false

/-- `HumanVerificationGate.evaluate`, at the instant `now` and with the record's own
digests and blockers. -/
def HumanVerificationGate.evaluate (T : GateTables) (g : HumanVerificationGate) (now : ℕ)
    (expectedRun expectedScope : Json) : Except GateError GateStatus :=
  if !isRun T.toTables expectedRun || isNone expectedScope ||
      canonicalScope expectedScope = none || canonicalScope g.scope = none ||
      !expectedRun.isStr g.run || canonicalScope g.scope ≠ canonicalScope expectedScope then
    .ok .pending
  else if g.blockers.any (openBlocker T) then .ok .blocked
  else match g.decision with
    | .rejected => .ok .blocked
    | .pending => .ok .pending
    | .approved =>
      if maxInstant < g.updatedAt+g.freshnessWindow then .error .overflow
      else .ok (if g.updatedAt+g.freshnessWindow < now then .pending else .passed)

end PdFleet.Gates
