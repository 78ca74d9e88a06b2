import PdFleet.Json

/-!
# The bounded parallel executor

One run of the executor over a list of tasks. A bounded number of tasks is submitted to the
pool, and each result that is collected lets the next one in. When a future completes, in
which order `wait` gives those that have, when the cancellation is set and what the clock
says are answers of the environment, numbered as the run asks for them. Copies may fail.
-/

set_option autoImplicit false

namespace PdFleet.Parallel

def PARALLEL_ERROR : String := "[PARALLEL ERROR]"

/-- A task as the caller gives it, with the value that stands for its id. -/
inductive Task (α : Type) where
  | mapping (id : Json) (body : α)
  | object (id : Json) (body : α)
  /-- A text is its own id. -/
  | text (s : String)

def Task.id {α : Type} : Task α → Json
  | .mapping id _ | .object id _ => id
  | .text s => .str s

/-- What a runner does with a task. -/
inductive Outcome (β : Type) where
  | value (v : β)
  | timeout
  | raises

structure TaskResult (β : Type) where
  taskId : String
  status : String
  value : Option β
  error : Option String

structure Executor where
  maxWorkers : ℕ
  maxOutput : ℕ
  poisoned : Bool
  closed : Bool
  workers_pos : 1 ≤ maxWorkers
  output_pos : 1 ≤ maxOutput

/-- The runner, and which tasks and values can be copied. -/
structure Program (α β : Type) where
  copy : Task α → Option (Task α)
  copyValue : β → Option β
  runner : Task α → Outcome β

/-- The futures that are not collected, each with its id. -/
abbrev Futures := List (ℕ × String)

/-- The answers to the questions of a run, each kind numbered from zero. -/
structure Environment where
  cancelled : ℕ → Bool
  clock : ℕ → ℚ
  /-- Those that `wait` finds done. -/
  done : ℕ → Futures → List ℕ
  /-- A future that still runs after it was cancelled. -/
  stubborn : ℕ → Bool
  done_mem : ∀ n fs, ∀ k ∈ done n fs, k ∈ fs.map Prod.fst
  done_nodup : ∀ n fs, (done n fs).Nodup

/-- What happens to the pool. -/
inductive Event where
  | submitted (id : String)
  | collected (id : String)
  | dropped (id : String)
  deriving DecidableEq, Repr

structure State (β : Type) where
  pending : List String
  futures : Futures
  results : String → Option (TaskResult β)
  cancelled : Bool
  timedOut : Bool
  /-- The cancelled run left running work in the pool. -/
  fenced : Bool
  submissions : ℕ
  polls : ℕ
  readings : ℕ
  events : List Event

section

variable {α β : Type}

/-! ## The tasks -/

/-- A string that is not empty. -/
def taskId (t : Task α) : Option String :=
  match t.id with
  | .str s => if s = "" then none else some s
  | _ => none

/-- `entries.setdefault(task_id, task)` for every task. -/
def entriesFrom (entries : List (String × Task α)) : List (Task α) →
    Except String (List (String × Task α))
  | [] => .ok entries
  | t :: ts =>
    match taskId t with
    | none => .error "tasks must have non-empty string IDs"
    | some id =>
      entriesFrom (if id ∈ entries.map Prod.fst then entries else entries++[(id,t)]) ts

/-- `sorted(entries)`. -/
def orderedIds (entries : List (String × Task α)) : List String :=
  (entries.map Prod.fst).insertionSort (· ≤ ·)

/-- `copied[task_id]`, where the task can be copied. -/
def copied (P : Program α β) (entries : List (String × Task α)) (id : String) : Option (Task α) :=
  (entries.lookup id).bind P.copy

/-! ## The results -/

def failedResult (id : String) : TaskResult β := ⟨id,"failed",none,some PARALLEL_ERROR⟩

/-- `result`: the value is copied once more, and the text of an error cut. -/
def result (E : Executor) (P : Program α β) (id status : String) (value : Option β)
    (error : Option String) : TaskResult β :=
  let error := error.map (fun e => String.ofList (e.toList.take E.maxOutput))
  match value with
  | none => ⟨id,status,none,error⟩
  | some v =>
    match P.copyValue v with
    | none => failedResult id
    | some v => ⟨id,status,some v,error⟩

/-- The result of a future that is done. -/
def outcomeResult (E : Executor) (P : Program α β) (id : String) : Outcome β → TaskResult β
  | .value v => result E P id "completed" (some v) none
  | .timeout => result E P id "timeout" none (some PARALLEL_ERROR)
  | .raises => result E P id "failed" none (some PARALLEL_ERROR)

/-! ## The loop -/

/-- `submit_one`. -/
def submitOne (st : State β) : State β :=
  match st.pending with
  | [] => st
  | id :: rest =>
    { st with
      pending := rest
      futures := st.futures++[(st.submissions,id)]
      submissions := st.submissions+1
      events := st.events++[.submitted id] }

/-- The submissions before the loop. -/
def submitMany : ℕ → State β → State β
  | 0, st => st
  | n+1, st => submitMany n (submitOne st)

/-- A reading of the clock, before the deadline if there is one. -/
def intime (W : Environment) (deadline : Option ℚ) (st : State β) : Bool × State β :=
  match deadline with
  | none => (true,st)
  | some d => (W.clock st.readings < d,{ st with readings := st.readings+1 })

/-- One future that is done is collected, and a task takes its place. -/
def collect (E : Executor) (P : Program α β) (entries : List (String × Task α)) (W : Environment)
    (deadline : Option ℚ) (st : State β) (k : ℕ) : State β :=
  match st.futures.lookup k with
  | none => st
  | some id =>
    let outcome := ((copied P entries id).map P.runner).getD .raises
    let st := { st with
      futures := st.futures.filter (fun f => f.1 ≠ k)
      results := Function.update st.results id (some (outcomeResult E P id outcome))
      events := st.events++[.collected id] }
    if st.cancelled then st
    else
      let (before,st) := intime W deadline st
      if before then submitOne st else st

/-- The live futures are given up, each with the same result. -/
def drop (E : Executor) (P : Program α β) (W : Environment) (status : String) (st : State β) :
    State β :=
  { st with
    results := st.futures.foldl (fun results f =>
      Function.update results f.2 (some (result E P f.2 status none (some status)))) st.results
    fenced := st.fenced || (st.cancelled && st.futures.any (fun f => W.stubborn f.1))
    timedOut := st.timedOut || !st.cancelled
    events := st.events++st.futures.map (fun f => .dropped f.2)
    futures := [] }

/-- One turn of the loop, with live futures. -/
def turn (E : Executor) (P : Program α β) (entries : List (String × Task α)) (W : Environment)
    (deadline : Option ℚ) (st : State β) : State β :=
  let st := { st with
    cancelled := st.cancelled || W.cancelled (st.polls+2)
    polls := st.polls+1 }
  let (before,st) := intime W deadline st
  if st.cancelled then drop E P W "cancelled" st
  else if !before then drop E P W "timeout" st
  else
    match W.done (st.polls-1) st.futures with
    | [] =>
      let (before,st) := intime W deadline st
      if before then st else drop E P W "timeout" st
    | ks => ks.foldl (collect E P entries W deadline) st

/-- `while futures`, for so many turns. -/
def loop (E : Executor) (P : Program α β) (entries : List (String × Task α)) (W : Environment)
    (deadline : Option ℚ) : ℕ → State β → Option (State β)
  | 0, _ => none
  | fuel+1, st =>
    if st.futures = [] then some st
    else loop E P entries W deadline fuel (turn E P entries W deadline st)

/-! ## The run -/

inductive Ended (β : Type) where
  | raised (msg : String)
  /-- The results, with what happened to the pool and whether it is poisoned now. -/
  | returned (output : List (TaskResult β)) (events : List Event) (poisoned : Bool)

def startState (E : Executor) (P : Program α β) (entries : List (String × Task α))
    (cancelled : Bool) (readings : ℕ) : State β :=
  let ids := (orderedIds entries).filter (fun id => (copied P entries id).isSome)
  let st : State β :=
    { pending := ids
      futures := []
      results := fun id => if (copied P entries id).isNone then some (failedResult id) else none
      cancelled := cancelled
      timedOut := false
      fenced := false
      submissions := 0
      polls := 0
      readings := readings
      events := [] }
  if cancelled then st else submitMany (min E.maxWorkers ids.length) st

/-- The results in the order of the ids; a task that was never submitted is cancelled. -/
def outputOf (E : Executor) (P : Program α β) (entries : List (String × Task α)) (st : State β) :
    List (TaskResult β) :=
  (orderedIds entries).map (fun id =>
    (st.results id).getD (result E P id "cancelled" none (some "cancelled")))

/-- `run`, with so many turns of its loop; `none` where they do not suffice. -/
def run (E : Executor) (P : Program α β) (W : Environment) (timeout : Option ℚ)
    (tasks : List (Task α)) (fuel : ℕ) : Option (Ended β) :=
  if E.closed then some (.raised "executor is closed")
  else if E.poisoned && !W.cancelled 0 then
    some (.raised "executor pool is poisoned after a non-cooperative timeout")
  else if timeout.any (· < 0) then some (.raised "timeout must be non-negative")
  else
    match entriesFrom [] tasks with
    | .error msg => some (.raised msg)
    | .ok [] => some (.returned [] [] E.poisoned)
    | .ok entries =>
      let deadline := timeout.map (W.clock 0+·)
      let readings := if timeout.isSome then 1 else 0
      match loop E P entries W deadline fuel (startState E P entries (W.cancelled 1) readings) with
      | none => none
      | some st => some (.returned (outputOf E P entries st) st.events
          (E.poisoned || st.timedOut || st.fenced))

end

end PdFleet.Parallel
