import PdFleet.Checkpoint
import PdFleet.Disk

/-!
# The durable checkpoint envelope

The store of version two: an envelope holds the redacted checkpoint under a checksum,
in a file that is rotated into a backup before the new one is installed. What the
reader accepts is a predicate of its own.
-/

set_option autoImplicit false

namespace PdFleet.CheckpointV2

open Pattern

/-! ## Redaction -/

def isPathChar (c : Char) : Bool :=
  c ∉ [' ', '\t', '\n', '\r', '\x0c', '\x0b', '"', '\'', '<', '>', ';', ',']

def pathRule (D : Deps) : Rule where
  behind last := !last.any (fun c => isWordChar D c || c = '.')
  kept := empty
  dropped := oneOf [seq (char (· = '~')) (seq (char isSlash) (many isPathChar)),
    seq (char (· = '/')) (many1 isPathChar),
    seq (char (fun c => c.isUpper || c.isLower)) (seq (char (· = ':'))
      (seq (char isSlash) (many isPathChar))),
    seq (word id "\\\\") (many1 isPathChar)]
  text := "[PATH REDACTED]"

def redactText (D : Deps) (text : String) : String := (pathRule D).sub (urlRule.sub text)

mutual

/-- `_redact`. -/
def redact (D : Deps) : Json → Json
  | .obj kvs => .obj (redactFields D kvs)
  | .arr xs => .arr (redactItems D xs)
  | .str s => .str (redactText D s)
  | .null => .null
  | .bool b => .bool b
  | .int n => .int n
  | .float r => .float r

def redactItems (D : Deps) : List Json → List Json
  | [] => []
  | x :: xs => redact D x :: redactItems D xs

def redactFields (D : Deps) : List (String × Json) → List (String × Json)
  | [] => []
  | (k,v) :: kvs =>
    (k, if search sensitive k.toList then .str "[REDACTED]" else redact D v) :: redactFields D kvs

end

/-! ## The fields that the reader knows -/

def lifecycleFields : List String :=
  ["task_id", "status", "state", "attempt", "max_attempts", "agent", "heartbeat", "started_at",
    "finished_at", "outputs", "evidence", "reason", "error", "history", "final_report",
    "report_final", "retryable"]

def taskFields : List String :=
  ["id", "name", "title", "description", "owner", "depends_on", "dependencies", "wave", "status",
    "state", "metadata", "inputs", "outputs", "acceptance", "tags"]

def checkpointFields : List String :=
  ["schema_version", "feature", "wave", "tasks", "lifecycle", "reports", "evidence", "blockers",
    "created_at"]

def historyFields : List String := ["from", "to", "reason"]

def reportFields : List String :=
  ["task_id", "status", "summary", "details", "content", "text", "report", "agent", "created_at",
    "outputs", "evidence", "error"]

def evidenceFields : List String :=
  ["task_id", "kind", "type", "path", "uri", "url", "sha256", "description", "value", "metadata"]

def blockerFields : List String := ["task_id", "reason", "details", "status"]

def extensionFields : List String :=
  ["metadata", "inputs", "outputs", "acceptance", "tags", "value", "details", "content"]

mutual

def walk (place : String) (allowed : Option (List String)) (extension : Bool) :
    Json → Except CheckpointError Unit
  | .obj kvs => walkFields place allowed extension kvs
  | .arr xs => walkItems place extension 0 xs
  | _ => .ok ()

def walkItems (place : String) (extension : Bool) : ℕ → List Json → Except CheckpointError Unit
  | _, [] => .ok ()
  | i, x :: xs => do
    walk (place ++ "[" ++ toString i ++ "]") none extension x
    walkItems place extension (i+1) xs

def walkFields (place : String) (allowed : Option (List String)) (extension : Bool) :
    List (String × Json) → Except CheckpointError Unit
  | [] => .ok ()
  | (k,v) :: kvs => do
    refuse (search sensitive k.toList) ("campo inseguro em " ++ place)
    refuse (allowed.any (k ∉ ·) && !extension) ("campo desconhecido em " ++ place)
    walk (place ++ "." ++ k) none (extension || k ∈ extensionFields) v
    walkFields place allowed extension kvs

end

def nestedTask (id : String) (task : Json) : Except CheckpointError Unit := do
  refuse (blankKey id || !task.isDict) "registro de task inválido"
  walk ("tasks." ++ id) (some taskFields) false task

def indexed (xs : List Json) : List (ℕ × Json) := (List.range xs.length).zip xs

def nestedHistory (id : String) : Json → Except CheckpointError Unit
  | .arr records => (indexed records).forM (fun r => do
      refuse (!r.2.isDict) "registro de history inválido"
      walk ("lifecycle." ++ id ++ ".history[" ++ toString r.1 ++ "]") (some historyFields) false r.2)
  | _ => .error ⟨"history deve ser lista"⟩

def nestedLifecycle (id : String) (snapshot : Json) : Except CheckpointError Unit := do
  refuse (blankKey id || !snapshot.isDict) "registro de lifecycle inválido"
  walk ("lifecycle." ++ id) (some lifecycleFields) false snapshot
  match snapshot with
  | .obj o => nestedHistory id ((Obj.field o "history").getD (.arr []))
  | _ => pure ()

def nestedRecords (name : String) (allowed : List String) :
    Option Json → Except CheckpointError Unit
  | some (.arr records) => (indexed records).forM (fun r =>
      walk (name ++ "[" ++ toString r.1 ++ "]") (if r.2.isDict then some allowed else none) false r.2)
  | _ => .error ⟨"checkpoint." ++ name ++ " deve ser lista"⟩

def nestedEntries (name : String) (f : String → Json → Except CheckpointError Unit) :
    Option Json → Except CheckpointError Unit
  | some (.obj kvs) => kvs.forM (fun e => f e.1 e.2)
  | _ => .error ⟨"checkpoint." ++ name ++ " deve ser objeto"⟩

/-- `_validate_v2_nested`. -/
def validateNested (value : Json) : Except CheckpointError Unit := do
  match value with
  | .obj c =>
    walk "checkpoint" (some checkpointFields) false value
    nestedEntries "tasks" nestedTask (Obj.field c "tasks")
    nestedEntries "lifecycle" nestedLifecycle (Obj.field c "lifecycle")
    nestedRecords "reports" reportFields (Obj.field c "reports")
    nestedRecords "evidence" evidenceFields (Obj.field c "evidence")
    nestedRecords "blockers" blockerFields (Obj.field c "blockers")
  | _ => .error ⟨"checkpoint V2 inválido"⟩

/-! ## The envelope -/

def schemaVersion : String := "pd-fleet-checkpoint:v2"

/-- `_checksum`. -/
def checksum (envelope : Obj) : String :=
  sha256Hex (schemaVersion ++ "\x00" ++ dumps (.obj (envelope.without ["checksum"])))

def body (runId planHash : String) (generation : ℤ) (checkpoint : Json) : Obj :=
  [("schema_version",.str schemaVersion), ("run_id",.str runId), ("plan_hash",.str planHash),
    ("generation",.int generation), ("checkpoint",checkpoint)]

variable (D : Deps) (iso : String)

/-- `_seal`. -/
def sealed (runId : String) (c : Checkpoint) (planHash : String) (generation : ℤ) :
    Except CheckpointError Obj := do
  refuse (!isHex64 planHash) "plan_hash inválido"
  refuse (generation < 0) "generation inválida"
  let dict ← c.toDict
  let envelope := body runId planHash generation (redact D dict)
  return envelope.put "checksum" (.str (checksum envelope))

def accepts {ε : Type} : Except ε Unit → Bool
  | .ok _ => true
  | .error _ => false

def envelopeFields : List String :=
  ["schema_version", "run_id", "plan_hash", "generation", "checkpoint", "checksum"]

/-- `_valid`. -/
def valid (runId : String) (expected : Option String) (v : Obj) : Bool :=
  v.hasExactly envelopeFields &&
  (v.field "schema_version").any (·.isStr schemaVersion) &&
  (v.field "run_id").any (·.isStr runId) &&
  (match v.field "plan_hash" with
    | some (.str h) => isHex64 h && expected.all (fun e => h = e)
    | _ => false) &&
  (v.field "generation").any (·.isIntFrom 0) &&
  (v.field "checksum").any (·.isStr (checksum v)) &&
  (v.field "checkpoint").any (fun c =>
    accepts (validateNested c) && accepts ((Checkpoint.fromDict iso c).map (fun _ => ())))

/-! ## Reading -/

/-- The files of a run: the checkpoint, its backup, and the temporary file of a save. -/
structure Dir where
  target : Node
  backup : Node
  temporary : Node

def Dir.empty : Dir := ⟨.absent,.absent,.absent⟩

/-- What `_candidates` finds at a path. -/
def candidate (runId : String) (expected : Option String) : Node → Option Obj
  | .document (.obj v) => if valid iso runId expected v then some v else none
  | _ => none

def generationOf (v : Obj) : ℕ :=
  match v.field "generation" with
  | some (.int n) => n.toNat
  | _ => 0

/-- The candidate of the highest generation, the primary in a tie. -/
def newest (runId : String) (expected : Option String) (d : Dir) : Option Obj :=
  TwoSlot.newest generationOf (candidate iso runId expected d.target)
    (candidate iso runId expected d.backup)

/-- `_safe_id`, as far as it refuses a text. -/
def unsafeId (runId : String) : Bool :=
  runId = "" || runId = "." || runId = ".." || runId.toList.any (fun c => c = '/' || c = '\\')

/-- `load`. -/
def load (runId : String) (expected : Option String) (expectedGeneration : Option ℤ) (d : Dir) :
    Except CheckpointError Obj := do
  refuse (expected.any (!isHex64 ·)) "plan hash drift"
  refuse (unsafeId runId) "run_id/path traversal inválido"
  match newest iso runId expected d with
  | none =>
    refuse (expected.isSome && (newest iso runId none d).isSome) "plan hash drift"
    .error ⟨"checkpoint inválido ou ilegível"⟩
  | some v =>
    refuse (expected.any (fun e => !(v.field "plan_hash").any (·.isStr e))) "plan hash drift"
    refuse (expectedGeneration.any (fun g => (generationOf v : ℤ) ≠ g)) "generation drift"
    return v

/-! ## Saving -/

/-- The stages of a save at which it can fail or be interrupted: the named ones, and the
other calls to the file system. -/
inductive Stage where
  | directory | lock | mkstemp | write | fsync | backup | replace | directoryFsync | unlink
  deriving DecidableEq, Repr

inductive SaveError where
  | checkpoint (e : CheckpointError)
  /-- What the system or the fault injector raised. -/
  | system
  deriving DecidableEq, Repr

abbrev Saving (ρ : Type) := Faulty Dir SaveError ρ

def raise {ρ : Type} (msg : String) : Saving ρ := Faulty.raise (.checkpoint ⟨msg⟩)

section

variable (fate : Stage → Fate)

def stage (c : Stage) (e : SaveError) (effect : Dir → Dir) : Saving Unit :=
  Faulty.call (fate c) e effect

/-- A primary that exists, readable or not, becomes the backup. -/
def rotate : Saving Unit := do
  let d ← Faulty.get
  if d.target.exists then
    stage fate .backup .system (fun d => { d with backup := d.target, target := .absent })
  else pure ()

def install (envelope : Obj) : Saving Unit := do
  stage fate .write .system (fun d => { d with temporary := .document (.obj envelope) })
  stage fate .fsync .system id
  rotate fate
  stage fate .replace .system (fun d => { d with target := d.temporary, temporary := .absent })
  stage fate .directoryFsync (.checkpoint ⟨"checkpoint directory fsync failed"⟩) id

/-- The temporary file is removed and the exception goes on. -/
def discard (e : SaveError) : Saving Unit := do
  let d ← Faulty.get
  if d.temporary.exists then
    stage fate .unlink .system (fun d => { d with temporary := .absent })
    Faulty.raise e
  else Faulty.raise e

/-- `save`, of a checkpoint. -/
def save (runId : String) (c : Checkpoint) (planHash : String) (generation : ℤ) : Saving Obj := do
  if unsafeId runId then raise "run_id/path traversal inválido" else pure ()
  let envelope ← match sealed D runId c planHash generation with
    | .ok envelope => pure envelope
    | .error e => Faulty.raise (.checkpoint e)
  stage fate .directory (.checkpoint ⟨"checkpoint directory unavailable"⟩) id
  stage fate .lock (.checkpoint ⟨"checkpoint lock indisponível"⟩) id
  let d ← Faulty.get
  if (newest iso runId none d).any (fun v => generation ≤ generationOf v) then
    raise "generation stale or non-increasing"
  else if d.target.isSymlink || d.backup.isSymlink then raise "checkpoint path is symlink"
  else
    stage fate .mkstemp .system (fun d => { d with temporary := .garbled })
    Faulty.handle (install fate envelope) (discard fate)
    return envelope

end

end PdFleet.CheckpointV2
