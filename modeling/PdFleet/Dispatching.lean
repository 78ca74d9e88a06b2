import PdFleet.Completion

/-!
# The serial run, call by call

`FleetOrchestrator.run` with the lives of its tasks, the calls of its dispatcher and what it
raises. Every call is recorded with the lives of the tasks when it is made.
-/

set_option autoImplicit false

namespace PdFleet.Serial

open Contracts

/-- What a run raises. `outOfFuel` stands for a loop that goes on. -/
inductive Raised where
  | lifecycle (e : LifecycleError)
  | unhashable
  | wave
  | scope
  | plan (errors : List String)
  | outOfFuel
  deriving DecidableEq, Repr

section

variable {W : Type}

abbrev Lives := String → TaskLifecycle

/-- A call of the dispatcher, with what it answers. -/
structure Call (W : Type) where
  task : TaskSpec W
  attempt : ℕ
  lives : Lives
  answer : Answer

structure Fleet (W : Type) where
  lives : Lives
  calls : List (Call W)
  executedWaves : List (List String)

/-- A state, and what was raised in it. -/
abbrev Outcome (W : Type) := Fleet W × Option Raised

def Outcome.andThen (o : Outcome W) (f : Fleet W → Outcome W) : Outcome W :=
  match o.2 with
  | none => f o.1
  | some _ => o

def Fleet.put (s : Fleet W) (id : String) (l : TaskLifecycle) : Fleet W :=
  { s with lives := Function.update s.lives id l }

@[simp] theorem Fleet.put_self (s : Fleet W) (id : String) (l : TaskLifecycle) :
    (s.put id l).lives id = l := Function.update_self _ _ _

theorem Fleet.put_of_ne {id id' : String} (h : id' ≠ id) (s : Fleet W) (l : TaskLifecycle) :
    (s.put id l).lives id' = s.lives id' := Function.update_of_ne h _ _

@[simp] theorem Fleet.put_calls (s : Fleet W) (id : String) (l : TaskLifecycle) :
    (s.put id l).calls = s.calls := rfl

/-- An operation on the life of a task. -/
def Fleet.step (s : Fleet W) (id : String)
    (f : TaskLifecycle → Except LifecycleError TaskLifecycle) : Outcome W :=
  match f (s.lives id) with
  | .ok l => (s.put id l,none)
  | .error e => (s,some (.lifecycle e))

/-- The states of the tasks, as readiness reads them. -/
def Fleet.serial (s : Fleet W) : SerialState where
  states id := (s.lives id).state
  dispatched := s.calls.length
  executedWaves := s.executedWaves

/-- The life of an id that no task has. -/
def noTask (id : String) : TaskLifecycle :=
  ⟨id,.pending,0,1,none,.null,.null,none,none,[],true⟩

/-- `_resume`, without a checkpoint. -/
def resume (plan : FleetPlan W) : Except LifecycleError (Fleet W) := do
  let lives ← plan.tasks.mapM (fun t =>
    (newLifecycle t.id t.status t.retryPolicy.maxAttempts).map (fun l => (t.id,l)))
  return { lives := fun id => (lives.lookup id).getD (noTask id), calls := [], executedWaves := [] }

/-! ## Blocking -/

/-- The reason of `_agent_block`. -/
def agentReason (plan : FleetPlan W) (t : TaskSpec W) : String :=
  match t.owner with
  | some id =>
    if plan.agents.any (fun a => a.id = id) then
      "owner incompatível: agente " ++ safeRepr id ++ " não atende role/capabilities"
    else "owner incompatível: agente " ++ safeRepr id ++ " não existe"
  | none => "nenhum agente compatível para role " ++ safeRepr t.role ++ " e capabilities [" ++
      ", ".intercalate ((sortedSet t.capabilities).map safeRepr) ++ "]"

variable (T : Tables) (plan : FleetPlan W) (E : Environment W)

def dependencyReason : String := "dependency failed or blocked"

/-- One task of `_block_unresolvable`. -/
def blockTask (s : Fleet W) (t : TaskSpec W) : Outcome W :=
  if isResolved (s.lives t.id).state then (s,none)
  else if agentBlock plan t then s.step t.id (fun l => l.block (agentReason plan t))
  else if t.dependsOn.any (fun dep =>
      (s.lives dep).state = .failed || (s.lives dep).state = .blocked) then
    s.step t.id (fun l => l.block dependencyReason)
  else (s,none)

/-- A step for each task, while none raises. -/
def forTasks (f : Fleet W → TaskSpec W → Outcome W) : List (TaskSpec W) → Fleet W → Outcome W
  | [], s => (s,none)
  | t :: ts, s => (f s t).andThen (forTasks f ts)

/-- `_block_unresolvable`. -/
def blockAll (s : Fleet W) : Outcome W := forTasks (blockTask plan) (tasksById plan) s

/-- The gates of a wave. -/
def gatesOf (wave : List Char) : List String :=
  (plan.waves.filter (fun w => waveKey T w.id.toList = waveKey T wave)).flatMap WaveSpec.gates

/-- One task of `_block_wave_stalls`. -/
def stallTask [Label W] (wave : List Char) (s : Fleet W) (t : TaskSpec W) : Outcome W :=
  if waveKey T t.label = waveKey T wave && s.serial.isOpen t.id && gatesOf T plan wave ≠ [] then
    if E.scopeFails then (s,some .scope)
    else if missingGates T plan E.toSetting wave = [] then (s,none)
    else s.step t.id (fun l => l.block
      ("gate: " ++ ", ".intercalate (sortTexts (missingGates T plan E.toSetting wave))))
  else (s,none)

def stallAll [Label W] (wave : List Char) (s : Fleet W) : Outcome W :=
  forTasks (stallTask T plan E wave) (tasksById plan) s

/-! ## Attempts -/

/-- The agent that a task is started with. -/
def agentOf (t : TaskSpec W) : String :=
  match t.owner with
  | some id => if id = "" then t.role else id
  | none => t.role

/-- Whether `_execute` tries a task again after a failure. -/
def triesAgain (t : TaskSpec W) (attempt : ℕ) (error : String) (retryable : Bool) : Bool :=
  retryable && (t.retryPolicy.retryableErrors = [] ||
    retryErrorMatches E.tables error t.retryPolicy.retryableErrors) &&
      attempt < t.retryPolicy.maxAttempts

/-- The dispatcher is called with a task. -/
def Fleet.call (s : Fleet W) (t : TaskSpec W) (answers : ℕ → Answer) : Fleet W :=
  { s with calls := s.calls ++
      [⟨t,(s.lives t.id).attempt,s.lives,answers s.calls.length⟩] }

/-- The loop of `_execute` over the attempts of a task. -/
def attemptTask (answers : ℕ → Answer) (t : TaskSpec W) : ℕ → Fleet W → Outcome W
  | 0, s => (s,some .outOfFuel)
  | fuel+1, s =>
    (s.step t.id (fun l => l.start (agentOf t))).andThen (fun s =>
      let attempt := (s.lives t.id).attempt
      let called := s.call t answers
      match judge E t attempt (answers s.calls.length) with
      | .completed output evidence => called.step t.id (fun l => l.complete output evidence)
      | .unhashable => (called,some .unhashable)
      | .failed error retryable =>
        (called.step t.id (fun l => l.fail error retryable)).andThen (fun s =>
          if triesAgain E t attempt error retryable then
            (s.step t.id TaskLifecycle.retry).andThen (attemptTask answers t fuel)
          else (s,none)))

def missingReason : String := "input ausente"

def blockedReason : String := "blocked_when não resolvido"

/-- `_execute`. -/
def executeTask (answers : ℕ → Answer) (s : Fleet W) (t : TaskSpec W) : Outcome W :=
  if (s.lives t.id).state = .completed then (s,none)
  else if agentBlock plan t then s.step t.id (fun l => l.block (agentReason plan t))
  else if E.obstructed t then
    s.step t.id (fun l => l.block (if E.missesInputs t then missingReason else blockedReason))
  else
    (if (s.lives t.id).state = .pending then s.step t.id TaskLifecycle.markReady else (s,none)).andThen
      (attemptTask E answers t t.retryPolicy.maxAttempts)

/-! ## The run -/

def tasksOf (ids : List String) : List (TaskSpec W) := ids.filterMap (byId plan).lookup

/-- `_ready_ids`. -/
def readyIds [Label W] (s : Fleet W) : Except Raised (List String) :=
  if E.gates ≠ [] && E.scopeFails then .error .scope
  else match Orchestrator.readyIds T plan E.toSetting s.serial with
    | .ok ready => .ok ready
    | .error errors => .error (.plan errors)

def Fleet.record (s : Fleet W) (batch : List String) : Fleet W :=
  { s with executedWaves := s.executedWaves ++ [batch] }

/-- The loop of `run` over the batches of a wave. -/
def runWave [Label W] (answers : ℕ → Answer) (wave : List Char) : ℕ → Fleet W → Outcome W
  | 0, s => (s,some .outOfFuel)
  | fuel+1, s =>
    match readyIds T plan E s with
    | .error e => (s,some e)
    | .ok ready =>
      let batch := (readyInWave T plan wave ready).take E.maxParallel
      if batch = [] then (s,none)
      else
        ((forTasks (executeTask plan E answers) (tasksOf plan batch) (s.record batch)).andThen
          (blockAll plan)).andThen (runWave answers wave fuel)

def runWaves [Label W] (answers : ℕ → Answer) : List (List Char) → Fleet W → Outcome W
  | [], s => (s,none)
  | wave :: waves, s =>
    ((runWave T plan E answers wave (plan.tasks.length+1) s).andThen (stallAll T plan E wave)).andThen
      (runWaves answers waves)

/-- `run`, of labels as the set of them is iterated. -/
def run [Label W] (answers : ℕ → Answer) (labels : List (List Char)) (s : Fleet W) : Outcome W :=
  (blockAll plan s).andThen (fun s =>
    match orderedWaves T labels with
    | none => (s,some .wave)
    | some visits => (runWaves T plan E answers visits s).andThen (blockAll plan))

end

end PdFleet.Serial
