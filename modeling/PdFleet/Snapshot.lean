import PdFleet.Clock
import PdFleet.Lib.Dict

/-!
# The run snapshot

The records that a run keeps, the raw document of nineteen fields that a write
seals with a checksum, and the typed snapshot that the store's operations read
and change.
-/

set_option autoImplicit false

namespace PdFleet

/-! ## Identifiers and statuses -/

def isIdStart (c : Char) : Bool :=
  ('A' ≤ c ∧ c ≤ 'Z') ∨ ('a' ≤ c ∧ c ≤ 'z') ∨ ('0' ≤ c ∧ c ≤ '9')

def isIdChar (c : Char) : Bool := isIdStart c || c = '_' || c = '.' || c = '-'

/-- `_ID.fullmatch`. -/
def isId (s : String) : Bool :=
  match s.toList with
  | [] => false
  | c :: cs => isIdStart c && cs.all isIdChar

inductive RunStatus where
  | created | running | completed | failed | cancelled | blocked
  deriving DecidableEq, Repr

inductive TaskStatus where
  | created | running | completed | failed | cancelled | blocked
  | pending | ready | orphaned | skipped
  deriving DecidableEq, Repr

inductive ReportStatus where
  | completed | failed | blocked
  deriving DecidableEq, Repr

namespace RunStatus

def text : RunStatus → String
  | created => "created"
  | running => "running"
  | completed => "completed"
  | failed => "failed"
  | cancelled => "cancelled"
  | blocked => "blocked"

def all : List RunStatus := [created, running, completed, failed, cancelled, blocked]

def ofText (s : String) : Option RunStatus := all.find? (fun r => r.text = s)

/-- `_TERMINAL_RUN_STATUSES`. -/
def terminal : RunStatus → Bool
  | completed | failed | cancelled => true
  | _ => false

@[simp] theorem ofText_text (r : RunStatus) : ofText r.text = some r := by
  cases r <;> rfl

end RunStatus

namespace TaskStatus

def text : TaskStatus → String
  | created => "created"
  | running => "running"
  | completed => "completed"
  | failed => "failed"
  | cancelled => "cancelled"
  | blocked => "blocked"
  | pending => "pending"
  | ready => "ready"
  | orphaned => "orphaned"
  | skipped => "skipped"

def all : List TaskStatus :=
  [created, running, completed, failed, cancelled, blocked, pending, ready, orphaned, skipped]

def ofText (s : String) : Option TaskStatus := all.find? (fun r => r.text = s)

/-- `_TERMINAL_TASK_STATUSES`. -/
def terminal : TaskStatus → Bool
  | completed | failed | blocked | cancelled | orphaned | skipped => true
  | _ => false

@[simp] theorem ofText_text (r : TaskStatus) : ofText r.text = some r := by
  cases r <;> rfl

end TaskStatus

namespace ReportStatus

def text : ReportStatus → String
  | completed => "completed"
  | failed => "failed"
  | blocked => "blocked"

def all : List ReportStatus := [completed, failed, blocked]

def ofText (s : String) : Option ReportStatus := all.find? (fun r => r.text = s)

def task : ReportStatus → TaskStatus
  | completed => .completed
  | failed => .failed
  | blocked => .blocked

@[simp] theorem ofText_text (r : ReportStatus) : ofText r.text = some r := by
  cases r <;> rfl

@[simp] theorem text_task (r : ReportStatus) : r.task.text = r.text := by
  cases r <;> rfl

@[simp] theorem terminal_task (r : ReportStatus) : r.task.terminal = true := by
  cases r <;> rfl

end ReportStatus

/-! ## Records -/

structure Lease where
  owner : String
  leaseId : String
  expiresAt : String
  generation : ℕ
  deriving DecidableEq, Repr

structure ReportRecord where
  status : ReportStatus
  report : Obj
  digest : String
  attempt : ℕ
  leaseId : String
  leaseGeneration : ℕ

/-- A list of mappings. Where the code only iterates, an empty mapping passes
for an empty list. -/
inductive Rows where
  | list (rows : List Obj)
  | dict

def Rows.items : Rows → List Obj
  | list rows => rows
  | dict => []

structure Snapshot where
  runId : String
  planHash : String
  plan : Obj
  generation : ℕ
  owner : String
  status : RunStatus
  waves : Rows
  tasks : Dict String Obj
  leases : Dict String Lease
  attempts : Dict String ℕ
  checkpoints : Dict String Obj
  reports : Dict String ReportRecord
  events : Rows
  gates : Json
  metrics : Json
  audit : Json
  eventSequence : ℕ
  updatedAt : String

/-! ## The raw document -/

/-- The nineteen fields below the checksum, with whatever values they hold. -/
structure Document where
  schemaVersion : Json
  runId : Json
  planHash : Json
  plan : Json
  generation : Json
  owner : Json
  status : Json
  waves : Json
  tasks : Json
  leases : Json
  attempts : Json
  checkpoints : Json
  reports : Json
  events : Json
  gates : Json
  metrics : Json
  audit : Json
  eventSequence : Json
  updatedAt : Json

def schemaVersion : String := "pd-fleet-run:v2"

def fieldNames : List String :=
  ["schema_version", "run_id", "plan_hash", "plan", "generation", "owner", "status", "waves",
    "tasks", "leases", "attempts", "checkpoints", "reports", "events", "gates", "metrics",
    "audit", "event_sequence", "updated_at", "checksum"]

namespace Document

def toObj (d : Document) : Obj :=
  [("schema_version", d.schemaVersion), ("run_id", d.runId), ("plan_hash", d.planHash),
    ("plan", d.plan), ("generation", d.generation), ("owner", d.owner), ("status", d.status),
    ("waves", d.waves), ("tasks", d.tasks), ("leases", d.leases), ("attempts", d.attempts),
    ("checkpoints", d.checkpoints), ("reports", d.reports), ("events", d.events),
    ("gates", d.gates), ("metrics", d.metrics), ("audit", d.audit),
    ("event_sequence", d.eventSequence), ("updated_at", d.updatedAt)]

def ofObj (o : Obj) : Option Document :=
  let get := fun k => (o.field k).getD .null
  if o.hasExactly fieldNames then
    some ⟨get "schema_version", get "run_id", get "plan_hash", get "plan", get "generation",
      get "owner", get "status", get "waves", get "tasks", get "leases", get "attempts",
      get "checkpoints", get "reports", get "events", get "gates", get "metrics", get "audit",
      get "event_sequence", get "updated_at"⟩
  else none

end Document

/-- `FleetRunStore._checksum`. -/
def checksum (data : Obj) : String := sha256Hex (dumps (.obj (data.without ["checksum"])))

/-- `FleetRunStore._seal`. -/
def Document.sealed (d : Document) : Obj := d.toObj ++ [("checksum", .str (checksum d.toObj))]

/-! ## Encoding -/

def encodeDict {α : Type} (f : α → Json) (d : Dict String α) : Json :=
  .obj (d.toFields.map (fun e => (e.1, f e.2)))

def Rows.json : Rows → Json
  | list rows => .arr (rows.map Json.obj)
  | dict => .obj []

def Lease.toObj (l : Lease) : Obj :=
  [("owner", .str l.owner), ("lease_id", .str l.leaseId), ("expires_at", .str l.expiresAt),
    ("generation", .int l.generation)]

def ReportRecord.toObj (r : ReportRecord) : Obj :=
  [("status", .str r.status.text), ("report", .obj r.report), ("digest", .str r.digest),
    ("attempt", .int r.attempt), ("lease_id", .str r.leaseId),
    ("lease_generation", .int r.leaseGeneration)]

def Snapshot.document (s : Snapshot) : Document where
  schemaVersion := .str PdFleet.schemaVersion
  runId := .str s.runId
  planHash := .str s.planHash
  plan := .obj s.plan
  generation := .int s.generation
  owner := .str s.owner
  status := .str s.status.text
  waves := s.waves.json
  tasks := encodeDict .obj s.tasks
  leases := encodeDict (fun l => .obj l.toObj) s.leases
  attempts := encodeDict (fun n : ℕ => .int n) s.attempts
  checkpoints := encodeDict .obj s.checkpoints
  reports := encodeDict (fun r => .obj r.toObj) s.reports
  events := s.events.json
  gates := s.gates
  metrics := s.metrics
  audit := s.audit
  eventSequence := .int s.eventSequence
  updatedAt := .str s.updatedAt

/-! ## Reading a sealed document back -/

theorem checksum_sealed (d : Document) : checksum d.sealed = checksum d.toObj := rfl

theorem field_sealed_checksum (d : Document) :
    d.sealed.field "checksum" = some (.str (checksum d.toObj)) := rfl

theorem ofObj_sealed (d : Document) : Document.ofObj d.sealed = some d := rfl

end PdFleet
