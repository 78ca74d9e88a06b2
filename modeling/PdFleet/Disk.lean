import PdFleet.Lib.Faulty
import PdFleet.Lib.TwoSlot
import PdFleet.Redact

/-!
# The run directory

The two snapshot files of a run, what the reader finds in them, and the write
with its calls to the file system. Each call can succeed, fail, or be the place
where the process stops.
-/

set_option autoImplicit false

namespace PdFleet

/-- A path of the run directory. A `garbled` file is a regular file that is not
the UTF-8 text of a JSON value. -/
inductive Node where
  | absent
  | symlink
  | garbled
  | document (j : Json)

def Node.isSymlink : Node → Bool
  | symlink => true
  | _ => false

def Node.exists : Node → Bool
  | absent => false
  | _ => true

/-- The two snapshot files, and the temporary files of the write in progress
under their fresh names. -/
structure RunDir where
  snapshot : Node
  bak : Node
  temp : Node
  bakTemp : Node

def RunDir.empty : RunDir := ⟨.absent, .absent, .absent, .absent⟩

/-- The calls of `_write`, in their order. -/
inductive Syscall where
  | prepareDir | inspectPaths | lstatTarget | lstatBackup
  | openTemp | writeTemp | fsyncTemp | closeTemp
  | readOld
  | openBakTemp | openSource | readSource | writeBakTemp | closeSource
  | fsyncBakTemp | closeBakTemp | replaceBackup
  | replaceTarget | openDir | fsyncDir | closeDir
  | closeLeft | unlinkTemp | unlinkBakTemp
  deriving DecidableEq, Repr

abbrev Fates := Syscall → Fate

def allOk : Fates := fun _ => .ok

/-- Every call succeeds but one, which fails. -/
def oneFailure (c : Syscall) : Fates := fun c' => if c' = c then .fail else .ok

abbrev OnDisk (ρ : Type) := Faulty RunDir PyError ρ

/-! ## Reading -/

/-- What `_valid_snapshot` finds at a path. -/
def readNode (D : Deps) (rid : String) : Node → Verdict PyError Snapshot
  | .document j => validate D j rid
  | _ => .reject

/-- A file on which the reader does not raise. -/
def Quiet (D : Deps) (rid : String) (n : Node) : Prop := ∀ e, readNode D rid n ≠ .raise e

/-- `_valid_snapshot`. -/
def validSnapshot (D : Deps) (rid : String) (d : RunDir) : Except PyError (Option Snapshot) := do
  let primary ← (readNode D rid d.snapshot).toExcept
  let backup ← (readNode D rid d.bak).toExcept
  return TwoSlot.newest Snapshot.generation primary backup

/-- `load`. -/
def load (D : Deps) (rid : String) (d : RunDir) : Except PyError Snapshot :=
  match validSnapshot D rid d with
  | .error e => .error e
  | .ok (some s) => .ok s
  | .ok none =>
    if d.snapshot.isSymlink || d.bak.isSymlink then
      .error (.pathContainment "snapshot path is symlink")
    else if d.snapshot.exists || d.bak.exists then
      .error (.corruptSnapshot "run snapshot malformed or no valid candidate")
    else .error (.runNotFound "run snapshot unavailable")

/-! ## Writing -/

section Write

variable (D : Deps) (fate : Fates) (rid : String)

/-- A call that fails with `OSError`. -/
def sys (c : Syscall) (effect : RunDir → RunDir) : OnDisk Unit :=
  Faulty.call (fate c) .osError effect

/-- A call in a `try … except OSError: pass`. -/
def sysQuiet (c : Syscall) (effect : RunDir → RunDir) : OnDisk Unit :=
  Faulty.handle (sys fate c effect) (fun _ => pure ())

def refuseSymlink (n : Node) : OnDisk Unit :=
  if n.isSymlink then Faulty.raise (.pathContainment "snapshot path is symlink") else pure ()

/-- `_read_snapshot_fd`, with its failures taken for no snapshot. -/
def readOld : OnDisk (Option Json) :=
  Faulty.handle
    (do
      sys fate .readOld id
      let d ← Faulty.get
      match d.snapshot with
      | .document j => return some j
      | _ => return none)
    (fun _ => pure none)

/-- The old primary becomes the backup. -/
def copyBackup : OnDisk Unit := do
  sys fate .openBakTemp (fun d => { d with bakTemp := .garbled })
  sys fate .openSource id
  Faulty.after
    (do
      sys fate .readSource id
      sys fate .writeBakTemp (fun d => { d with bakTemp := d.snapshot }))
    (sys fate .closeSource id)
  sys fate .fsyncBakTemp id
  sys fate .closeBakTemp id
  sys fate .replaceBackup (fun d => { d with bak := d.bakTemp, bakTemp := .absent })

/-- Only a primary that the reader accepts is copied. -/
def backupOld : OnDisk Unit := do
  match ← readOld fate with
  | none => pure ()
  | some old =>
    match validate D old rid with
    | .accept _ => copyBackup fate
    | .reject => pure ()
    | .raise e => Faulty.raise e

def replaceSnapshot (payload : Json) : OnDisk Unit := do
  sys fate .lstatTarget id
  refuseSymlink (← Faulty.get).snapshot
  sys fate .lstatBackup id
  refuseSymlink (← Faulty.get).bak
  sys fate .openTemp (fun d => { d with temp := .garbled, bakTemp := .absent })
  sys fate .writeTemp (fun d => { d with temp := .document payload })
  sys fate .fsyncTemp id
  sys fate .closeTemp id
  backupOld D fate rid
  sys fate .replaceTarget (fun d => { d with snapshot := d.temp, temp := .absent })
  sys fate .openDir id
  Faulty.after (sys fate .fsyncDir id) (sys fate .closeDir id)

def unlinkLeft (c : Syscall) (left : RunDir → Node) (effect : RunDir → RunDir) : OnDisk Unit := do
  let d ← Faulty.get
  if (left d).exists then sysQuiet fate c effect else pure ()

/-- The `finally` clause: open files are closed and temporary files unlinked. -/
def cleanUp : OnDisk Unit := do
  sysQuiet fate .closeLeft id
  unlinkLeft fate .unlinkTemp RunDir.temp (fun d => { d with temp := .absent })
  unlinkLeft fate .unlinkBakTemp RunDir.bakTemp (fun d => { d with bakTemp := .absent })

/-- The `except` clauses: an `OSError` becomes an error of the run store. -/
def persistError : PyError → PyError
  | .osError => .runStore "cannot persist run snapshot"
  | e => e

/-- `_write`. -/
def write (state : Document) : OnDisk Unit := do
  Faulty.handle (sys fate .prepareDir id)
    (fun _ => Faulty.raise (.runStore "cannot prepare run directory"))
  sys fate .inspectPaths id
  Faulty.after
    (Faulty.handle (replaceSnapshot D fate rid (.obj state.sealed))
      (fun e => Faulty.raise (persistError e)))
    (cleanUp fate)

/-- A section of the store under its lock: the state is read, the body decides,
and a state that it returns is written. -/
def locked {ρ : Type} (body : Snapshot → Except PyError (Option Snapshot × ρ)) : OnDisk ρ := do
  let found ← Faulty.ofExcept (validSnapshot D rid (← Faulty.get))
  match found with
  | none => Faulty.raise (.runNotFound "run snapshot unavailable")
  | some s =>
    let (candidate,reply) ← Faulty.ofExcept (body s)
    match candidate with
    | none => return reply
    | some c =>
      write D fate rid c.document
      return reply

end Write

/-! ## Creation -/

def structuralFields : List String :=
  ["schema_version", "run_id", "plan_hash", "plan", "generation", "owner", "event_sequence",
    "updated_at", "checksum"]

def Document.set (d : Document) (k : String) (v : Json) : Document :=
  match k with
  | "status" => { d with status := v }
  | "waves" => { d with waves := v }
  | "tasks" => { d with tasks := v }
  | "leases" => { d with leases := v }
  | "attempts" => { d with attempts := v }
  | "checkpoints" => { d with checkpoints := v }
  | "reports" => { d with reports := v }
  | "events" => { d with events := v }
  | "gates" => { d with gates := v }
  | "metrics" => { d with metrics := v }
  | "audit" => { d with audit := v }
  | _ => d

/-- The state of a run that has not started. -/
def freshSnapshot (rid hash : String) (plan : Obj) (owner now : String) : Snapshot where
  runId := rid
  planHash := hash
  plan := plan
  generation := 0
  owner := owner
  status := .created
  waves := .list []
  tasks := ∅
  leases := ∅
  attempts := ∅
  checkpoints := ∅
  reports := ∅
  events := .list []
  gates := .obj []
  metrics := .obj []
  audit := .arr []
  eventSequence := 0
  updatedAt := now

/-- `_safe_id`, of a text. -/
def safeIdText (value : String) : Except PyError String :=
  if isId value then .ok value else .error (.pathContainment "unsafe run identifier")

def withInitial (D : Deps) (state : Document) : Option Json → Except PyError Document
  | none => .ok state
  | some (.obj initial) =>
    if structuralFields.any (Obj.has initial) then
      .error (.runStore "initial state contains structural fields")
    else if initial.any (fun e => e.1 ∉ fieldNames) then
      .error (.runStore "initial state contains unknown fields")
    else .ok ((redactFields D initial).foldl (fun d e => d.set e.1 e.2) state)
  | some _ => .error (.runStore "initial state must be an object")

/-- What `create` decides before it takes the lock. -/
def createState (D : Deps) (runId : String) (plan : Json) (owner : String) (now : Json) :
    Except PyError Document := do
  let rid ← safeIdText runId
  if !isId owner then throw (.ownerMismatch "owner required")
  let p ← match plan with
    | .obj p => pure p
    | _ => throw (.runStore "plan must be an object")
  let canonical ← D.canonicalize p
  let now ← clockValue now
  let hash ← planHash D p
  return (freshSnapshot rid hash canonical owner now).document

/-- `create`. -/
def create (D : Deps) (fate : Fates) (runId : String) (plan : Json) (owner : String)
    (initial : Option Json) (now : Json) : OnDisk Obj := do
  let fresh ← Faulty.ofExcept (createState D runId plan owner now)
  sys fate .prepareDir id
  let d ← Faulty.get
  if d.snapshot.exists || d.bak.exists then
    Faulty.raise (.runStore "run snapshot artifact already exists")
  else
    let state ← Faulty.ofExcept (withInitial D fresh initial)
    write D fate runId state
    return state.sealed

end PdFleet
