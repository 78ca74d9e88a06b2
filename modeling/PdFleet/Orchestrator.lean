import PdFleet.Validation

/-!
# The serial orchestrator

`FleetOrchestrator.run` of a plan that is executed without a store. It goes once through
the wave labels and executes the ready tasks of each; what the dispatcher, the contract
of a completion and the retry policy make of an attempt is one answer.
-/

set_option autoImplicit false

namespace PdFleet

inductive LifecycleState where
  | pending
  | ready
  | running
  | blocked
  | failed
  | completed
  | skipped
  deriving DecidableEq, Repr

/-- `LifecycleState(value)`. -/
def LifecycleState.ofText (s : String) : Option LifecycleState :=
  if s = "pending" then some .pending
  else if s = "ready" then some .ready
  else if s = "running" then some .running
  else if s = "blocked" then some .blocked
  else if s = "failed" then some .failed
  else if s = "completed" then some .completed
  else if s = "skipped" then some .skipped
  else none

/-- What an attempt comes to: a completion that the contract of the task accepts, or a
failure that the policy lets be tried again or not. -/
inductive Attempt where
  | completed
  | failed (retryable : Bool)
  deriving DecidableEq, Repr

section

variable {W : Type}

/-- Whether `_agent_block` finds a reason. -/
def agentBlock (plan : FleetPlan W) (t : TaskSpec W) : Bool :=
  let fits := fun a : AgentSpec => a.role = t.role && t.capabilities.all (· ∈ a.capabilities)
  plan.agents ≠ [] &&
    match t.owner with
    | some id => !(plan.agents.find? (fun a => a.id = id)).any fits
    | none => !plan.agents.any fits

/-- What a run is given besides its plan: the gates that pass, the tasks whose inputs are
missing or whose `blocked_when` holds, and the bound of a batch. -/
structure Setting (W : Type) where
  passed : List String
  obstructed : TaskSpec W → Bool
  maxParallel : ℕ

structure SerialState where
  states : String → LifecycleState
  /-- How many attempts the dispatcher has answered. -/
  dispatched : ℕ
  executedWaves : List (List String)

def SerialState.set (s : SerialState) (id : String) (st : LifecycleState) : SerialState :=
  { s with states := Function.update s.states id st }

def SerialState.record (s : SerialState) (batch : List String) : SerialState :=
  { s with executedWaves := s.executedWaves++[batch] }

/-- The state that `_resume` gives a task, without a checkpoint. -/
def resumedState (status : String) : LifecycleState :=
  match (LifecycleState.ofText status).getD .pending with
  | .running => .ready
  | st => st

def initialState (plan : FleetPlan W) : SerialState where
  states id := ((byId plan).lookup id).elim .pending (fun t => resumedState t.status)
  dispatched := 0
  executedWaves := []

/-! ## Labels of waves -/

/-- `_wave_key`, of the text of a label. -/
def waveKey (T : Tables) (label : List Char) : List Char := waveText T label

def TaskSpec.label [Label W] (t : TaskSpec W) : List Char := Label.text t.wave

/-- The key that `_ordered_waves` sorts a label by; `none` is a `ValueError`. -/
def orderKey (T : Tables) (label : List Char) : Option WaveId :=
  let number := removePrefix "wave-".toList label
  if allDigits T number then (intText T number).map .number else some (.name label)

/-- `_ordered_waves`, of the labels as the set of them is iterated. -/
def orderedWaves (T : Tables) (labels : List (List Char)) : Option (List (List Char)) :=
  let key := fun label => (orderKey T label).getD (.number 0)
  if labels.all (fun label => (orderKey T label).isSome) then
    some (labels.insertionSort (fun a b => (key b).before (key a) = false))
  else none

/-! ## Execution -/

def SerialState.isOpen (s : SerialState) (id : String) : Bool :=
  s.states id = .pending || s.states id = .ready

def SerialState.withState (plan : FleetPlan W) (s : SerialState)
    (p : LifecycleState → Bool) : List String :=
  (plan.tasks.map TaskSpec.id).filter (fun id => p (s.states id))

/-- `_ready_ids`. -/
def Orchestrator.readyIds (T : Tables) [Label W] (plan : FleetPlan W) (E : Setting W) (s : SerialState) :
    Except (List String) (List String) := do
  let ready ← computeReadyTasks T plan
    (s.withState plan (fun st => st = .completed || st = .skipped))
    (s.withState plan (· = .skipped)) E.passed
  return ready.filter (fun id =>
    s.isOpen id && ((byId plan).lookup id).any (fun t => !agentBlock plan t))

/-- The attempts of a task, with the number of retries that its policy leaves. -/
def attempts (answers : ℕ → Attempt) : ℕ → ℕ → LifecycleState × ℕ
  | retries, n =>
    match answers n with
    | .completed => (.completed,n+1)
    | .failed retryable =>
      match retries with
      | 0 => (.failed,n+1)
      | retries+1 => if retryable then attempts answers retries (n+1) else (.failed,n+1)

/-- `_execute`. -/
def executeTask (plan : FleetPlan W) (E : Setting W) (answers : ℕ → Attempt) (s : SerialState)
    (t : TaskSpec W) : SerialState :=
  if s.states t.id = .completed then s
  else if agentBlock plan t then s.set t.id .blocked
  else if E.obstructed t then s.set t.id .blocked
  else
    let end' := attempts answers (t.retryPolicy.maxAttempts-1) s.dispatched
    { s.set t.id end'.1 with dispatched := end'.2 }

def executeBatch (plan : FleetPlan W) (E : Setting W) (answers : ℕ → Attempt)
    (s : SerialState) (batch : List String) : SerialState :=
  batch.foldl (fun s id =>
    match (byId plan).lookup id with
    | some t => executeTask plan E answers s t
    | none => s) s

def isResolved (st : LifecycleState) : Bool :=
  st = .completed || st = .failed || st = .blocked || st = .skipped

/-- Whether `_block_unresolvable` blocks a task: no agent fits it, or a dependency has
failed or is blocked. -/
def unresolvable (plan : FleetPlan W) (s : SerialState) (t : TaskSpec W) : Bool :=
  !isResolved (s.states t.id) && (agentBlock plan t ||
    t.dependsOn.any (fun dep => s.states dep = .failed || s.states dep = .blocked))

/-- The tasks in the order of their ids. -/
def tasksById (plan : FleetPlan W) : List (TaskSpec W) :=
  (sortTexts (byId plan).keys).filterMap (byId plan).lookup

/-- `_block_unresolvable`. -/
def blockUnresolvable (plan : FleetPlan W) (s : SerialState) : SerialState :=
  (tasksById plan).foldl (fun s t =>
    if unresolvable plan s t then s.set t.id .blocked else s) s

/-- The gates of a wave that do not pass, as `_block_wave_stalls` finds them. -/
def missingGates (T : Tables) (plan : FleetPlan W) (E : Setting W) (wave : List Char) :
    List String :=
  ((plan.waves.filter (fun w => waveKey T w.id.toList = waveKey T wave)).flatMap
    WaveSpec.gates).filter (· ∉ E.passed)

/-- `_block_wave_stalls`. -/
def blockWaveStalls (T : Tables) [Label W] (plan : FleetPlan W) (E : Setting W)
    (wave : List Char) (s : SerialState) : SerialState :=
  (tasksById plan).foldl (fun s t =>
    if waveKey T t.label = waveKey T wave && s.isOpen t.id && missingGates T plan E wave ≠ []
    then s.set t.id .blocked else s) s

/-- The ready tasks of a wave. -/
def readyInWave (T : Tables) [Label W] (plan : FleetPlan W) (wave : List Char)
    (ready : List String) : List String :=
  ready.filter (fun id =>
    ((byId plan).lookup id).any (fun t => waveKey T t.label = waveKey T wave))

/-- The loop of `run` over the batches of a wave. -/
def runWave (T : Tables) [Label W] (plan : FleetPlan W) (E : Setting W)
    (answers : ℕ → Attempt) (wave : List Char) :
    ℕ → SerialState → Except (List String) SerialState
  | 0, s => .ok s
  | fuel+1, s => do
    let ready ← Orchestrator.readyIds T plan E s
    let batch := (readyInWave T plan wave ready).take E.maxParallel
    if batch = [] then return s
    else
      runWave T plan E answers wave fuel
        (blockUnresolvable plan ((executeBatch plan E answers s batch).record batch))

def runWaves (T : Tables) [Label W] (plan : FleetPlan W) (E : Setting W)
    (answers : ℕ → Attempt) : List (List Char) → SerialState → Except (List String) SerialState
  | [], s => .ok s
  | wave :: waves, s => do
    let s ← runWave T plan E answers wave plan.tasks.length s
    runWaves T plan E answers waves (blockWaveStalls T plan E wave s)

/-- `run`, once the labels are in the order of the visits. -/
def runVisits (T : Tables) [Label W] (plan : FleetPlan W) (E : Setting W)
    (answers : ℕ → Attempt) (visits : List (List Char)) :
    Except (List String) SerialState := do
  let s ← runWaves T plan E answers visits (blockUnresolvable plan (initialState plan))
  return blockUnresolvable plan s

/-- `run`, of labels as the set of them is iterated; `none` is the `ValueError` of a label
of digits that `int` does not read. -/
def runSerial (T : Tables) [Label W] (plan : FleetPlan W) (E : Setting W)
    (answers : ℕ → Attempt) (labels : List (List Char)) :
    Option (Except (List String) SerialState) :=
  (orderedWaves T labels).map (runVisits T plan E answers)

end

end PdFleet
