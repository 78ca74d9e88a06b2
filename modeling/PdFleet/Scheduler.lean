import PdFleet.Lib.Sections
import PdFleet.Store

/-!
# The lease scheduler

Path ownership, readiness and selection, and the calls of the scheduler as
scripts of sections over the locked store. The scheduler's own clock is read
outside the lock.
-/

set_option autoImplicit false

namespace PdFleet

/-! ## Paths -/

/-- The components of a text between its slashes. -/
def splitSlash : List Char → List (List Char)
  | [] => [[]]
  | c :: t =>
    if c = '/' then [] :: splitSlash t
    else
      match splitSlash t with
      | [] => [[c]]
      | w :: ws => (c :: w) :: ws

/-- `PurePosixPath(value).parts`, of a relative path. -/
def pathParts (value : List Char) : List (List Char) :=
  (splitSlash value).filter (fun w => w ≠ [] ∧ w ≠ ['.'])

/-- `str(PurePosixPath(value))` from its parts. -/
def pathText (parts : List (List Char)) : List Char :=
  if parts = [] then ['.'] else ['/'].intercalate parts

def unbackslash (value : String) : List Char :=
  value.toList.map (fun c => if c = '\\' then '/' else c)

/-- The parts of one declared path. -/
def declaredPath (v : Json) : Except PyError (List (List Char)) :=
  match v with
  | .str s =>
    match s.toList with
    | [] => .error (.scheduler "task paths must be relative")
    | c :: _ =>
      if c = '/' ∨ c = '\\' then .error (.scheduler "task paths must be relative")
      else
        let parts := pathParts (unbackslash s)
        if ['.', '.'] ∈ parts then .error (.scheduler "task paths must not traverse")
        else .ok parts
  | _ => .error (.scheduler "task paths must be relative")

/-- The values of a path field; a text stands for a list of one. -/
def pathValues (task : Obj) (key : String) : Except PyError (List Json) :=
  match task.field key with
  | none | some .null => .ok []
  | some (.str s) => .ok (if s = "" then [] else [.str s])
  | some (.arr vs) => .ok vs
  | some _ => .error (.scheduler "task paths must be a list")

/-- The parts of the paths of a task. -/
def declaredPaths (task : Obj) : Except PyError (List (List (List Char))) := do
  let allowed ← (← pathValues task "allowed_paths").mapM declaredPath
  let more ← (← pathValues task "paths").mapM declaredPath
  return allowed++more

/-- `_paths`. -/
def paths (task : Obj) : Except PyError (List (List Char)) := do
  return (← declaredPaths task).map pathText

/-- `_overlap`. -/
def overlap (left right : List (List Char)) : Bool :=
  left.any (fun a => right.any (fun b =>
    a = b || (b++['/']).isPrefixOf a || (a++['/']).isPrefixOf b))

/-! ## Readiness -/

/-- A task of the plan with its dependencies and its wave. -/
structure PlanTask where
  raw : Obj
  deps : List String
  wave : ℕ

/-- `_validate_task_dependencies`, with the dependencies that it accepts. -/
def taskDependencies (task : Obj) : Except PyError (List String) :=
  match (task.field "depends_on").getD ((task.field "dependencies").getD (.arr [])) with
  | .arr vs => vs.mapM (fun v =>
      match v with
      | .str s => .ok s
      | _ => .error (.scheduler "dependency elements must be exact strings"))
  | _ => .error (.scheduler "task dependencies must be a list")

def taskWave (task : Obj) : Except PyError ℕ :=
  match (task.field "wave").getD (.int 0) with
  | .int n =>
    if 0 ≤ n then .ok n.toNat
    else .error (.scheduler "task wave must be a non-negative integer")
  | _ => .error (.scheduler "task wave must be a non-negative integer")

def addPlanTask (result : Dict String PlanTask) (task : Obj) :
    Except PyError (Dict String PlanTask) := do
  let deps ← taskDependencies task
  let wave ← taskWave task
  match task.field "id" with
  | some (.str id) => return result.insert id ⟨task, deps, wave⟩
  | _ => return result

/-- `_task_map`. -/
def taskMap (s : Snapshot) : Except PyError (Dict String PlanTask) := do
  let tasks ← planTasks s.plan
  tasks.foldlM addPlanTask ∅

def completedText : String := "completed"

/-- The tasks that count as completed for their dependents. -/
def Snapshot.completed (s : Snapshot) (taskId : String) : Bool :=
  (s.tasks.lookup taskId).any (fun t => hasText t "status" completedText) ||
    (s.reports.lookup taskId).any (fun r => r.status = .completed)

def terminalNames : List String :=
  ["completed", "failed", "blocked", "orphaned", "cancelled", "skipped"]

/-- The status of a task: the run's, else the plan's. -/
def statusOf (s : Snapshot) (taskId : String) (task : PlanTask) : Json :=
  let planned := (task.raw.field "status").getD (.str "pending")
  match s.tasks.lookup taskId with
  | some t => (t.field "status").getD planned
  | none => planned

def isTerminal (s : Snapshot) (taskId : String) (task : PlanTask) : Except PyError Bool :=
  (statusOf s taskId task).inSet terminalNames

/-- An unexpired lease, or any lease if no time is given. -/
def leased (s : Snapshot) (now : Option String) (taskId : String) : Bool :=
  (s.leases.lookup taskId).any (fun l => now.all (fun now => l.activeAt now))

def sortIds (l : List String) : List String := l.insertionSort (· ≤ ·)

/-- The tasks that are not terminal. -/
def openTasks (s : Snapshot) : List (String × PlanTask) →
    Except PyError (List (String × PlanTask))
  | [] => .ok []
  | e :: l => do
    let terminal ← isTerminal s e.1 e.2
    let rest ← openTasks s l
    return if terminal then rest else e :: rest

def minWave : List (String × PlanTask) → Option ℕ
  | [] => none
  | e :: l => some ((minWave l).elim e.2.wave (min e.2.wave))

/-- `_ready_ids_from_state`. -/
def readyIds (s : Snapshot) (now : Option String) : Except PyError (List String) := do
  let tasks ← taskMap s
  let waiting ← openTasks s tasks.toFields
  match minWave waiting with
  | none => return []
  | some wave =>
    let ready := waiting.filter (fun e =>
      !leased s now e.1 && e.2.wave = wave && e.2.deps.all s.completed)
    return sortIds (ready.map Prod.fst)

/-! ## Selection -/

/-- The paths of the tasks that hold unexpired leases. -/
def occupiedPaths (s : Snapshot) (tasks : Dict String PlanTask) (now : String) :
    Except PyError (List (List (List Char))) :=
  (s.leases.toFields.filter (fun e => e.2.activeAt now)).filterMapM (fun e =>
    match tasks.lookup e.1 with
    | some t => do return some (← paths t.raw)
    | none => .ok none)

/-- The loop of `select`: `taken` are the paths of occupied and selected tasks. -/
def selectLoop (tasks : Dict String PlanTask) (ready : List String) (requested : ℕ) :
    List String → List (List (List Char)) → List String → Except PyError (List String)
  | [], _, selected => .ok selected
  | id :: rest, taken, selected =>
    if requested ≤ selected.length then .ok selected
    else if id ∉ ready then selectLoop tasks ready requested rest taken selected
    else
      match tasks.lookup id with
      | none => .error .keyError
      | some t => do
        let ps ← paths t.raw
        if taken.any (overlap ps) then throw (.ownershipConflict "task paths overlap")
        else selectLoop tasks ready requested rest (taken++[ps]) (selected++[id])

/-- The selector that `claim` hands to `claim_many`. -/
def select (requested : ℕ) (s : Snapshot) (available : List String) (capacity : ℕ)
    (now : String) : Except PyError Json := do
  if capacity < requested then throw (.capacityExceeded "bounded capacity exceeded")
  else
    let tasks ← taskMap s
    let ready ← readyIds s (some now)
    let occupied ← occupiedPaths s tasks now
    let selected ← selectLoop tasks ready requested (sortIds available) occupied []
    return .arr (selected.map Json.str)

/-! ## Sections -/

/-- `release`, under the lock: the lease behind the token is dropped. -/
def release (token : Json) (owner : String) (x : Draws) : Except PyError Body :=
  .ok (fun s => do
    let c ← mutate owner .null (fun s =>
      match token with
      | .obj o =>
        match Obj.field o "task_id" with
        | some (.str taskId) => do
          let _ ← checkToken s taskId token x.now
          return { s with leases := s.leases.erase taskId }
        | v =>
          if !tokenShape s o then .error (.lease "invalid lease")
          else if v.all Json.hashable then do
            let _ ← clockValue x.now
            throw (.lease "stale or expired lease")
          else .error .typeError
      | _ => .error (.lease "invalid lease")) x s
    return (some c, .nothing))

/-- The removal of `recover_stale`, under the lock: the lease is dropped if it is
still expired at the scheduler's own time. -/
def dropStale (taskId now owner : String) (expected : Json) (x : Draws) : Except PyError Body :=
  .ok (fun s => do
    let c ← mutate owner expected (fun s =>
      .ok (if (s.leases.lookup taskId).any (fun l => !l.activeAt now) then
        { s with leases := s.leases.erase taskId } else s)) x s
    return (some c, .nothing))

/-- The sections that clients run on one run directory. -/
inductive Action where
  | load
  | use (taskId : String) (token : Json) (owner : String)
  | transition (status : Json) (owner : String) (expected : Json)
  | updateTaskStatus (taskId : String) (status : Json) (owner : String) (expected : Json)
  | appendTerminalEventIfAbsent (taskId owner : String) (expected : Json)
  | appendEvent (event : Json) (owner : String) (expected : Json)
  | claim (taskId owner : String) (seconds : Seconds) (expected : Json)
  | claimMany (taskIds : List String) (owner : String) (maxParallel : ℤ) (seconds : Seconds)
      (sel : Selector)
  | renew (taskId : String) (token : Json) (owner : String) (seconds : Seconds)
  | commit (taskId : String) (token : Json) (owner : String) (report status : Json)
  | release (token : Json) (owner : String)
  | dropStale (taskId now owner : String) (expected : Json)

def Action.prepare (D : Deps) (x : Draws) : Action → Except PyError Body
  | load => .ok (fun s => .ok (none, .state s))
  | use t k o => PdFleet.use t k o x
  | transition st o g => PdFleet.transition st o g x
  | updateTaskStatus t st o g => PdFleet.updateTaskStatus t st o g x
  | appendTerminalEventIfAbsent t o g => PdFleet.appendTerminalEventIfAbsent t o g x
  | appendEvent e o g => PdFleet.appendEvent D e o g x
  | claim t o n g => PdFleet.claim t o n g x
  | claimMany ts o m n f => PdFleet.claimMany ts o m n f x
  | renew t k o n => PdFleet.renew t k o n x
  | commit t k o r st => PdFleet.commit D t k o r st x
  | release k o => PdFleet.release k o x
  | dropStale t now o g => PdFleet.dropStale t now o g x

/-- A read reports a missing run as `load` does. -/
def readState (D : Deps) (rid : String) : OnDisk Reply := do
  let s ← Faulty.ofExcept (load D rid (← Faulty.get))
  return .state s

/-- One section on the run directory. -/
def perform (D : Deps) (fate : Fates) (rid : String) (a : Action) (x : Draws) : OnDisk Reply :=
  match a with
  | .load => readState D rid
  | a => do
    let body ← Faulty.ofExcept (a.prepare D x)
    locked D fate rid body

/-! ## The calls of the scheduler -/

abbrev Result := Except PyError Reply

abbrev StoreScript (ρ : Type) := Script Action (Outcome PyError Reply) ρ

/-- What a caller sees of a section; a process that stopped sees nothing more. -/
def received : Outcome PyError Reply → Option Result
  | .ok r => some (.ok r)
  | .raised e => some (.error e)
  | .cut => none

/-- A call that is one section. -/
def oneSection (a : Action) : StoreScript (Option Result) := .step a (fun o => .done (received o))

def textContains (text part : String) : Bool :=
  text.toList.tails.any (fun t => part.toList.isPrefixOf t)

/-- How `claim` answers an error of `claim_many`. -/
def claimError (candidates : List String) (e : PyError) : Result :=
  if e.runStoreText.any (fun m => textContains m "bounded capacity exceeded") then
    if candidates ≠ [] then .ok (.tokens [])
    else .error (.capacityExceeded "bounded capacity exceeded")
  else .error e

/-- `LeaseScheduler.claim`; `now` is the scheduler's clock, if it has one. -/
def schedulerClaim (owner : String) (maxParallel : ℤ) (now : Option String) (workerId : String)
    (limit : Option ℤ) (seconds : Seconds) : StoreScript (Option Result) :=
  let requested := limit.getD maxParallel
  if workerId = "" then .done (some (.error (.scheduler "worker_id required")))
  else if requested < 0 then .done (some (.error (.scheduler "limit must be non-negative")))
  else if maxParallel < requested then
    .done (some (.error (.capacityExceeded "bounded capacity exceeded")))
  else
    .step .load (fun o =>
      match o with
      | .ok (.state s) =>
        match readyIds s now with
        | .error e => .done (some (.error e))
        | .ok candidates =>
          .step (.claimMany candidates owner maxParallel seconds (.timed (select requested.toNat)))
            (fun o =>
              match o with
              | .raised e => .done (some (claimError candidates e))
              | o => .done (received o))
      | o => .done (received o))

/-- `LeaseScheduler.renew`. A task id that is not a text names no lease. -/
def schedulerRenew (owner : String) (token : Json) (seconds : Seconds) :
    StoreScript (Option Result) :=
  match token with
  | .obj o =>
    match Obj.field o "task_id" with
    | some (.str taskId) =>
      .step (.renew taskId token owner seconds) (fun o =>
        match o with
        | .raised (.generationConflict _) => .done (some (.error (.lease "stale or expired lease")))
        | o => .done (received o))
    | some _ => .done (some (.error (.lease "invalid lease")))
    | none => .done (some (.error .keyError))
  | _ => .done (some (.error .typeError))

/-- The loop of `recover_stale`. -/
def dropEach (owner now : String) : List String → StoreScript (Option Result)
  | [] => .done (some (.ok .nothing))
  | id :: rest =>
    .step .load (fun o =>
      match o with
      | .ok (.state s) =>
        if (s.leases.lookup id).isNone then dropEach owner now rest
        else
          .step (.dropStale id now owner (.int s.generation)) (fun o =>
            match o with
            | .ok _ => dropEach owner now rest
            | o => .done (received o))
      | o => .done (received o))

/-- `LeaseScheduler.recover_stale`. -/
def recoverStale (owner : String) (now : Option String) : StoreScript (Option Result) :=
  .step .load (fun o =>
    match o with
    | .ok (.state s) =>
      match now with
      | none => .done (some (.ok .nothing))
      | some now =>
        dropEach owner now (sortIds
          ((s.leases.toFields.filter (fun e => !e.2.activeAt now)).map Prod.fst))
    | o => .done (received o))

end PdFleet
