import PdFleet.Clients
import PdFleet.Completion
import PdFleet.Lib.Amid
import PdFleet.Parallel
import PdFleet.Validation

/-!
# The durable orchestration loop

`_run_v2_integration`: the loop of an orchestrator over a stored run. Each round claims
leases of the ready tasks, lets the executor run them, and settles the results one by one
with sections on the run directory. The adapter, the pool and the scheduler's clock answer
as they please; the rounds are numbered by the waves before them.
-/

set_option autoImplicit false

namespace PdFleet.Integration

open Contracts Serial

/-- What an adapter hands back: data, a report, or a mapping that holds a report. -/
inductive Value where
  | data (v : Json)
  | report (r : AgentReportV2)
  | holding (r : AgentReportV2)

/-- `candidate`. -/
def Value.candidate : Value → ReportValue
  | data (.obj o) => .data ((Obj.field o "report").getD (.obj o))
  | data v => .data v
  | report r | holding r => .report r

inductive RunError where
  | store (e : PyError)
  | executor (msg : String)

/-- What an orchestrator is constructed with. -/
structure Setting (W : Type) where
  plan : FleetPlan W
  tables : ReportTables
  runOwner : String
  maxParallel : ℕ
  parallel_pos : 1 ≤ maxParallel
  timeout : Option ℚ
  /-- The owner and the bound of the scheduler. -/
  owner : String
  slots : ℤ
  executor : Parallel.Executor
  copyValue : Value → Option Value
  backoffSeconds : String → Json
  /-- The first reason of a reconciliation that is not valid. -/
  obstruction : Option String

/-- The answers to a run, by its rounds. -/
structure Answers where
  readyAt : ℕ → Option String
  claimAt : ℕ → Option String
  /-- `_adapter_run` of a task. -/
  work : ℕ → String → Parallel.Outcome Value
  pool : ℕ → Parallel.Environment
  turns : ℕ → ℕ

/-- The variables of the loop. -/
structure State where
  waves : List (List String)
  reports : List Obj
  statuses : Dict String TaskStatus
  terminalIds : List String
  poisoned : Bool
  /-- The tasks of the terminal commits that were refused (`committed = False`). -/
  refused : List String

structure OrchestrationResult where
  statuses : Dict String TaskStatus
  reports : List Obj
  waves : List (List String)

inductive Ended where
  | returned (result : OrchestrationResult) (refused : List String)
  | raised (e : RunError)
  /-- The executor has not returned. -/
  | waiting
  /-- The loop has made its rounds and goes on. -/
  | unfinished (y : State)

/-! ## Programs of sections -/

/-- A script that gives nothing where its process has stopped. -/
abbrev Prog (α : Type) := StoreScript (Option α)

def ret {α : Type} (a : α) : Prog α := .done (some a)

def snapshotOf : Reply → Except PyError Snapshot
  | .state s => .ok s
  | _ => .error .typeError

def tokensOf : Reply → Except PyError (List LeaseToken)
  | .tokens ks => .ok ks
  | _ => .error .typeError

/-- `store.load`. -/
def loaded : Prog (Except PyError Snapshot) :=
  (oneSection .load).andThen (fun r => ret (r >>= snapshotOf))

/-- `scheduler.ready_ids`. -/
def readyIdsAt (now : Option String) : Prog (Except PyError (List String)) :=
  loaded.andThen (fun r => ret (r >>= fun s => readyIds s now))

section

variable {W : Type} (S : Setting W)

/-- `scheduler.claim`. -/
def claimed (now : Option String) (limit : ℕ) : Prog (Except PyError (List LeaseToken)) :=
  (schedulerClaim S.owner S.slots now S.runOwner (some limit) (.int 60)).andThen
    (fun r => ret (r >>= tokensOf))

/-! ## Reports -/

def RUNTIME_ERROR : String := "[RUNTIME ERROR]"

/-- `a or b`, of texts. -/
def orText (a b : String) : String := if a = "" then b else a

def attemptsOf (s : Snapshot) (taskId : String) : ℕ := (s.attempts.lookup taskId).getD 1

def allowedFields : List String :=
  ["status", "outputs", "evidence", "tests", "validation", "decision", "started_at",
    "completed_at", "reason", "error", "blocker"]

/-- `_store_report_projection`. -/
def storeReportProjection (parsed : AgentReportV2) (status : ReportStatus) : Except String Obj := do
  match ← parsed.toDict S.tables with
  | .obj source =>
    let kept := (allowedFields.filter (Obj.has source)).map (fun k =>
      (k,sanitizePayload S.tables ((Obj.field source k).getD .null)))
    return Obj.put kept "status" (.str status.text)
  | _ => throw "invalid AgentReport projection"

/-- `_failure_projection`. -/
def failureProjection (taskId : String) (attempt : ℕ) (reason : String) (status : ReportStatus)
    (error : String) : Obj :=
  let safeReason := orText (sanitizeText S.tables reason) "terminal execution failure"
  let safeError := orText (sanitizeText S.tables error) safeReason
  [("status",.str status.text),
    ("evidence",.obj [("task_id",.str taskId), ("attempt",.int attempt), ("terminal",.bool true)]),
    ("reason",.str safeReason), ("error",.str safeError),
    ("started_at",.str "1970-01-01T00:00:00Z"), ("completed_at",.str "1970-01-01T00:00:00Z")]

/-- The error of a report that its agent gave as failed. -/
def reportedError (parsed : AgentReportV2) : String :=
  let text := fun k => (sanitizeOr S.tables (some "") (parsed.payload k)).getD ""
  orText (text "error") (orText (text "reason") "provider execution failed")

/-- What a report is kept with where its event could not be appended. -/
def eventWarning : String :=
  orText (sanitizeText S.tables "event persistence failed") "event persistence failed"

/-! ## One result -/

/-- What a result of the executor comes to: it is settled, or it is a failure. -/
inductive Reading where
  | settled (y : State)
  | failure (status : String) (error : Option String) (report : Option Obj)

def runtimeFailure : Reading := .failure "failed" (some RUNTIME_ERROR) none

/-- `append_terminal_event_if_absent`, as far as it returns. -/
def appended (taskId : String) : Prog Bool :=
  (oneSection (.appendTerminalEventIfAbsent taskId S.runOwner .null)).andThen
    (fun r => ret r.toBool)

def committed (k : LeaseToken) (report : Obj) (status : ReportStatus) : Prog Bool :=
  (oneSection (.commit k.taskId k.toJson S.runOwner (.obj report) (.str status.text))).andThen
    (fun r => ret r.toBool)

/-- A report that was committed, with its event or a warning. -/
def State.accept (y : State) (taskId : String) (status : ReportStatus) (report : Obj)
    (event : Bool) : State :=
  let report := Obj.put report "task_id" (.str taskId)
  { y with
    statuses := y.statuses.insert taskId status.task
    terminalIds := if status = .blocked then y.terminalIds++[taskId] else y.terminalIds
    reports := y.reports++[if event then report else
      Obj.put report "event_persistence_warning" (.str (eventWarning S))] }

/-- A report of the agent that is completed or blocked. -/
def acceptReport (k : LeaseToken) (report : Obj) (status : ReportStatus) (y : State) :
    Prog Reading :=
  (committed S k report status).andThen (fun done =>
    if done then
      (appended S k.taskId).andThen (fun event =>
        ret (.settled (y.accept S k.taskId status report event)))
    else ret runtimeFailure)

/-- A report under its own status, which is one of the lifecycle. -/
def readReport (k : LeaseToken) (parsed : AgentReportV2) (y : State) : Prog Reading :=
  match ReportStatus.ofText parsed.status with
  | none => ret runtimeFailure
  | some status =>
    match storeReportProjection S parsed status with
    | .error _ => ret runtimeFailure
    | .ok report =>
      if status = .failed then ret (.failure "failed" (some (reportedError S parsed)) (some report))
      else acceptReport S k report status y

/-- A result whose invocation completed. -/
def readCompleted (k : LeaseToken) (value : Option Value) (y : State) : Prog Reading :=
  match parseAgentReportV2 S.tables true (value.elim (.data .null) Value.candidate) with
  | .error _ => ret runtimeFailure
  | .ok parsed =>
    loaded.andThen (fun r =>
      match r with
      | .error _ => ret runtimeFailure
      | .ok s =>
        if parsed.taskId = k.taskId ∧ parsed.attempt = attemptsOf s k.taskId then
          readReport S k parsed y
        else ret runtimeFailure)

/-! ## Failures -/

def isCancelled (status : String) : Bool := status = "cancelled" || status = "canceled"

/-- `can_retry`. -/
def canRetry (t : TaskSpec W) (attempt : ℕ) (status cause : String) : Bool :=
  !isCancelled status && attempt < t.retryPolicy.maxAttempts &&
    (t.retryPolicy.retryableErrors.isEmpty || retryErrorMatches S.tables
      (String.ofList (safeText cause)) t.retryPolicy.retryableErrors)

def retryEvent (taskId : String) (attempt : ℕ) (cause : String) : Obj :=
  let name := "retry-" ++ taskId ++ "-" ++ toString attempt
  [("event_id",.str name), ("ordering_key",.str name), ("task_id",.str taskId),
    ("status",.str "retry_scheduled"), ("attempt",.int attempt), ("next_attempt",.int (attempt+1)),
    ("error",.str (String.ofList (safeText cause))),
    ("backoff_seconds",S.backoffSeconds taskId)]

/-- `scheduler.release`, whatever comes of it. -/
def released (k : LeaseToken) : Prog Unit :=
  (oneSection (.release k.toJson S.owner)).andThen (fun _ => ret ())

/-- The status of a task after a failure, with the entry of its report. -/
def State.mark (y : State) (taskId : String) (status : TaskStatus) (cause : String) : State :=
  { y with
    statuses := y.statuses.insert taskId status
    reports := y.reports++[[("task_id",.str taskId), ("status",.str status.text),
      ("error",.str cause)]] }

/-- The failure is not the last: the event of a retry, and the lease is given back. -/
def scheduleRetry (k : LeaseToken) (attempt : ℕ) (cause : String) (y : State) :
    Prog (Except RunError State) :=
  (oneSection (.appendEvent (.obj (retryEvent S k.taskId attempt cause)) S.runOwner .null)).andThen
    (fun r =>
      match r with
      | .error e => ret (.error (.store e))
      | .ok _ => (released S k).andThen (fun _ => ret (.ok (y.mark k.taskId .pending cause))))

/-- The failure is the last: its report is committed, or the commit is refused. -/
def commitFailure (k : LeaseToken) (attempt : ℕ) (status cause : String) (report : Option Obj)
    (y : State) : Prog (Except RunError State) :=
  let terminal := if isCancelled status then ReportStatus.blocked else .failed
  let reason := if isCancelled status then "cancelled" else cause
  let made := failureProjection S k.taskId attempt reason terminal cause
  let report := if isCancelled status then made else report.getD made
  let y := { y with terminalIds := y.terminalIds++[k.taskId] }
  (committed S k report terminal).andThen (fun done =>
    (if done then appended S k.taskId else ret true).andThen (fun _ =>
      let y := if done then y else { y with refused := y.refused++[k.taskId] }
      (released S k).andThen (fun _ => ret (.ok (y.mark k.taskId terminal.task cause)))))

def handleFailure (k : LeaseToken) (status : String) (error : Option String) (report : Option Obj)
    (y : State) : Prog (Except RunError State) :=
  let cause := orText (error.getD "") status
  loaded.andThen (fun r =>
    let attempt := (r.toOption.map (fun s => attemptsOf s k.taskId)).getD 1
    match (byId S.plan).lookup k.taskId with
    | none => ret (.error (.store .keyError))
    | some t =>
      if canRetry S t attempt status cause then scheduleRetry S k attempt cause y
      else commitFailure S k attempt status cause report y)

/-! ## The results of a wave -/

/-- One result; the tokens of a wave have distinct tasks. -/
def settleResult (tokens : List LeaseToken) (r : Parallel.TaskResult Value) (y : State) :
    Prog (Except RunError State) :=
  match tokens.find? (fun k => k.taskId = r.taskId) with
  | none => ret (.ok y)
  | some k =>
    if r.status = "completed" then
      (readCompleted S k r.value y).andThen (fun o =>
        match o with
        | .settled y => ret (.ok y)
        | .failure status error report => handleFailure S k status error report y)
    else handleFailure S k r.status r.error none y

def settleAll (tokens : List LeaseToken) :
    List (Parallel.TaskResult Value) → State → Prog (Except RunError State)
  | [], y => ret (.ok y)
  | r :: rs, y =>
    (settleResult S tokens r y).andThen (fun o =>
      match o with
      | .error e => ret (.error e)
      | .ok y => settleAll tokens rs y)

/-! ## The loop -/

/-- `worker`. A task that is not in the plan is not found. -/
def worker (A : Answers) (n : ℕ) : Parallel.Program Unit Value where
  copy := some
  copyValue := S.copyValue
  runner task := (task.id.text?).elim .raises (fun id =>
    if id ∈ byId S.plan then A.work n id else .raises)

/-- The executor on the tasks of a wave. Nothing cancels it. -/
def executed (A : Answers) (n : ℕ) (poisoned : Bool) (taskIds : List String) :
    Option (Parallel.Ended Value) :=
  Parallel.run { S.executor with poisoned := poisoned } (worker S A n)
    { A.pool n with cancelled := fun _ => false } S.timeout (taskIds.map .text) (A.turns n)

def sortTokens (tokens : List LeaseToken) : List LeaseToken :=
  tokens.insertionSort (fun a b => a.taskId ≤ b.taskId)

def sortResults (results : List (Parallel.TaskResult Value)) : List (Parallel.TaskResult Value) :=
  results.insertionSort (fun a b => a.taskId ≤ b.taskId)

/-- What is pending after the loop is blocked. -/
def closePending (statuses : Dict String TaskStatus) : Dict String TaskStatus :=
  statuses.keys.foldl (fun d id =>
    if d.lookup id = some .pending then d.insert id .blocked else d) statuses

def reportKey (report : Obj) : String := (((Obj.field report "task_id").bind Json.text?).getD "")

def State.finish (y : State) : OrchestrationResult where
  statuses := closePending y.statuses
  reports := y.reports.insertionSort (fun a b => reportKey a ≤ reportKey b)
  waves := y.waves

/-- The wave of a claim: it runs, and its results are settled in order. -/
def runWave (A : Answers) (tokens : List LeaseToken) (y : State)
    (next : State → Prog Ended) : Prog Ended :=
  let taskIds := tokens.map LeaseToken.taskId
  match executed S A y.waves.length y.poisoned taskIds with
  | none => ret .waiting
  | some (.raised msg) => ret (.raised (.executor msg))
  | some (.returned output _ poisoned) =>
    (settleAll S tokens (sortResults output)
      { y with waves := y.waves++[taskIds], poisoned := poisoned }).andThen (fun o =>
        match o with
        | .error e => ret (.raised e)
        | .ok y => next y)

/-- The `while` loop, for so many rounds. -/
def loop (A : Answers) : ℕ → State → Prog Ended
  | 0, y => ret (.unfinished y)
  | fuel+1, y =>
    (readyIdsAt (A.readyAt y.waves.length)).andThen (fun r =>
      match r with
      | .error e => ret (.raised (.store e))
      | .ok ready =>
        let ready := ready.filter (fun id => id ∉ y.terminalIds)
        if ready = [] then ret (.returned y.finish y.refused)
        else
          (claimed S (A.claimAt y.waves.length) (min S.maxParallel ready.length)).andThen (fun r =>
            match r with
            | .error e => ret (.raised (.store e))
            | .ok [] => ret (.returned y.finish y.refused)
            | .ok tokens => runWave S A (sortTokens tokens) y (loop A fuel)))

/-! ## The start -/

/-- `statuses` at the start. -/
def pendingAll (plan : FleetPlan W) : Dict String TaskStatus :=
  plan.tasks.foldl (fun d t => d.insert t.id .pending) ∅

/-- A report that the run holds already. -/
def State.restore (y : State) (e : String × ReportRecord) : State :=
  { y with
    statuses := y.statuses.insert e.1 e.2.status.task
    terminalIds := y.terminalIds++[e.1]
    reports := y.reports++[Obj.put (Obj.putDefault e.2.report "task_id" (.str e.1)) "status"
      (.str e.2.status.text)] }

def startState (s : Snapshot) : State :=
  ((Dict.toFields s.reports).filter (fun e => e.1 ∈ byId S.plan)).foldl State.restore
    { waves := [], reports := [], statuses := pendingAll S.plan, terminalIds := [],
      poisoned := S.executor.poisoned, refused := [] }

/-- The events of the reports that the run holds already. -/
def appendMissing : List String → Prog (Except PyError Unit)
  | [] => ret (.ok ())
  | id :: ids =>
    (oneSection (.appendTerminalEventIfAbsent id S.runOwner .null)).andThen (fun r =>
      match r with
      | .error e => ret (.error e)
      | .ok _ => appendMissing ids)

def blockedResult (plan : FleetPlan W) (reason : String) : OrchestrationResult where
  statuses := plan.tasks.foldl (fun d t => d.insert t.id .blocked) ∅
  reports := [[("status",.str "blocked"), ("reason",.str reason)]]
  waves := []

/-- `_run_v2_integration`, with so many rounds of its loop. -/
def runV2Integration (A : Answers) (fuel : ℕ) : Prog Ended :=
  match S.obstruction with
  | some reason => ret (.returned (blockedResult S.plan reason) [])
  | none =>
    loaded.andThen (fun r =>
      match r with
      | .error e => ret (.raised (.store e))
      | .ok s =>
        let y := startState S s
        (appendMissing S (sortIds y.terminalIds)).andThen (fun r =>
          match r with
          | .error e => ret (.raised (.store e))
          | .ok _ => loop S A fuel y))

end

end PdFleet.Integration
