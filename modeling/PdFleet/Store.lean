import PdFleet.Disk

/-!
# The operations of the run store

Each operation checks its arguments before it takes the lock. What it does under
the lock is a body: from the state that was read it gives the reply, and the
state to write if there is one. The clock and the random tokens that the body
draws are arguments.
-/

set_option autoImplicit false

namespace PdFleet

/-- `secrets.token_hex(16)`: any thirty-two hexadecimal digits. -/
structure HexToken where
  text : String
  digits : text.toList.length = 32 ∧ text.toList.all Sha256.isHexDigit = true

/-- What one section under the lock draws: the clock for the leases, the clock for
the written state, and the tokens in turn. -/
structure Draws where
  now : Json
  stamp : Json
  token : ℕ → HexToken

/-- The mapping that `claim`, `claim_many` and `renew` return. -/
structure LeaseToken where
  runId : String
  taskId : String
  leaseId : String
  generation : ℕ
  expiresAt : String
  deriving DecidableEq, Repr

def LeaseToken.toJson (t : LeaseToken) : Json :=
  .obj [("run_id", .str t.runId), ("task_id", .str t.taskId), ("lease_id", .str t.leaseId),
    ("generation", .int t.generation), ("expires_at", .str t.expiresAt)]

inductive Reply where
  | state (s : Snapshot)
  | token (t : LeaseToken)
  | tokens (ts : List LeaseToken)
  | terminalEvent (appended : Bool) (generation : ℕ) (event : Obj)
  | nothing

abbrev Body := Snapshot → Except PyError (Option Snapshot × Reply)

/-! ## Shared checks -/

/-- The mappings among the tasks of a plan. -/
def planTasks (plan : Obj) : Except PyError (List Obj) := do
  let items ← ((plan.field "tasks").getD (.arr [])).iter
  return items.filterMap Json.object?

/-- `{item.get("id") for item in tasks if isinstance(item, Mapping)}`: the ids that
are texts; building the set hashes every id. -/
def knownIds (plan : Obj) : Except PyError (List String) := do
  let tasks ← planTasks plan
  let ids := tasks.map (fun t => (t.field "id").getD .null)
  if ids.all Json.hashable then return ids.filterMap Json.text? else throw .typeError

def taskStatus (task : Obj) : Option TaskStatus := do
  let v ← task.field "status"
  TaskStatus.ofText (← v.text?)

/-- The task has a terminal status or a report; every report's status is terminal. -/
def Snapshot.closed (s : Snapshot) (taskId : String) : Bool :=
  (s.tasks.lookup taskId).any (fun t => (taskStatus t).any TaskStatus.terminal) ||
    (s.reports.lookup taskId).isSome

def checkOwner (s : Snapshot) (owner : String) : Except PyError Unit :=
  if s.owner = owner then .ok () else .error (.ownerMismatch "run owner mismatch")

def checkGeneration (s : Snapshot) (expected : Json) : Except PyError Unit :=
  match expected with
  | .null => .ok ()
  | .int n =>
    if n = s.generation then .ok () else .error (.generationConflict "generation mismatch")
  | _ => .error (.generationConflict "generation mismatch")

/-- `_mutate`. -/
def mutate (owner : String) (expected : Json) (fn : Snapshot → Except PyError Snapshot)
    (x : Draws) (s : Snapshot) : Except PyError Snapshot := do
  checkOwner s owner
  checkGeneration s expected
  let c ← fn s
  let stamp ← clockValue x.stamp
  return { c with generation := c.generation+1, updatedAt := stamp }

def stateReply (c : Snapshot) : Option Snapshot × Reply := (some c, .state c)

/-- `list.append`; a mapping has no `append`. -/
def Rows.push (r : Rows) (row : Obj) : Except PyError Rows :=
  match r with
  | .list rows => .ok (.list (rows++[row]))
  | .dict => .error .attributeError

/-! ## Status and events -/

def transition (status : Json) (owner : String) (expected : Json) (x : Draws) :
    Except PyError Body :=
  .ok (fun s => do
    let c ← mutate owner expected (fun s =>
      match status.text?.bind RunStatus.ofText with
      | none => .error (.runStore "invalid status")
      | some st =>
        if s.status.terminal ∧ s.status ≠ st then
          .error (.runStore ("run is terminal (" ++ s.status.text ++ "); " ++ s.status.text ++
            " -> " ++ st.text ++ " is not allowed"))
        else .ok { s with status := st }) x s
    return stateReply c)

/-- `tasks.setdefault(task_id, {})["status"] = status`. -/
def setTaskStatus (tasks : Dict String Obj) (taskId : String) (st : TaskStatus) :
    Dict String Obj :=
  tasks.insert taskId (((tasks.lookup taskId).getD []).put "status" (.str st.text))

def updateTaskStatus (taskId : String) (status : Json) (owner : String) (expected : Json)
    (x : Draws) : Except PyError Body := do
  let task ← safeIdText taskId
  match status.text?.bind TaskStatus.ofText with
  | none => throw (.runStore "invalid task status")
  | some st =>
    return fun s => do
      let c ← mutate owner expected (fun s => do
        let known ← knownIds s.plan
        if task ∉ known then throw (.runStore "unknown task id")
        else if (s.reports.lookup task).isSome then
          throw (.runStore "cannot invalidate committed task")
        else return { s with tasks := setTaskStatus s.tasks task st,
                             leases := s.leases.erase task }) x s
      return stateReply c

def terminalEvent (taskId : String) (status : ReportStatus) (sequence : ℕ) : Obj :=
  [("event_id", .str taskId), ("ordering_key", .str taskId), ("task_id", .str taskId),
    ("status", .str status.text), ("sequence", .int sequence)]

def hasText (o : Obj) (k s : String) : Bool := (o.field k).any (fun v => v.isStr s)

def appendTerminalEventIfAbsent (taskId owner : String) (expected : Json) (x : Draws) :
    Except PyError Body := do
  let task ← safeIdText taskId
  return fun s => do
    checkOwner s owner
    checkGeneration s expected
    match s.reports.lookup task with
    | none => throw (.runStore "terminal report required")
    | some record =>
      let canonical := s.events.items.filter
        (fun e => hasText e "event_id" task && hasText e "ordering_key" task)
      match canonical with
      | first :: rest =>
        if (first :: rest).any
            (fun e => hasText e "task_id" task && hasText e "status" record.status.text) then
          return (none, .terminalEvent false s.generation first)
        else throw (.runStore "conflicting terminal event")
      | [] =>
        let event := terminalEvent task record.status (s.eventSequence+1)
        let events ← s.events.push event
        let stamp ← clockValue x.stamp
        return (some { s with events := events, eventSequence := s.eventSequence+1,
                              generation := s.generation+1, updatedAt := stamp },
          .terminalEvent true (s.generation+1) event)

def isNull : Json → Bool
  | .null => true
  | _ => false

def nonemptyText : Json → Bool
  | .str s => s ≠ ""
  | _ => false

/-- The item that `append_event` stores for a redacted event, short of its sequence. -/
def eventItem (item : Obj) : Except PyError Obj :=
  let supplied := (item.field "ordering_key").getD ((item.field "event_id").getD .null)
  if (item.field "event_id").any (fun v => !nonemptyText v) then
    .error (.runStore "event event_id must be a nonempty string")
  else if !isNull supplied && !nonemptyText supplied then
    .error (.runStore "event ordering_key must be a nonempty string")
  else
    let body := item.without ["sequence", "event_id", "ordering_key"]
    let supplied := if isNull supplied then .str (sha256Hex (dumps (.obj body))) else supplied
    .ok ((item.putDefault "event_id" supplied).put "ordering_key" supplied)

def appendEvent (D : Deps) (event : Json) (owner : String) (expected : Json) (x : Draws) :
    Except PyError Body :=
  match event with
  | .obj event =>
    .ok (fun s => do
      let c ← mutate owner expected (fun s => do
        let item ← eventItem (redactFields D event)
        let item := item.put "sequence" (.int (s.eventSequence+1))
        let events ← s.events.push item
        return { s with events := events, eventSequence := s.eventSequence+1 }) x s
      return stateReply c)
  | _ => .error (.runStore "event must be an object")

/-! ## Leases -/

/-- `lease["expires_at"] > now`. -/
def Lease.activeAt (l : Lease) (now : String) : Bool := now < l.expiresAt

/-- `attempts[task_id] = attempts.get(task_id, 0) + 1`. -/
def bumpAttempt (attempts : Dict String ℕ) (taskId : String) : Dict String ℕ :=
  attempts.insert taskId ((attempts.lookup taskId).getD 0+1)

/-- The leases of the chosen tasks, with the tokens in turn. -/
def grants (owner expiry : String) (generation : ℕ) (token : ℕ → HexToken)
    (chosen : List String) : List (String × Lease) :=
  chosen.zipIdx.map (fun e => (e.1, ⟨owner, (token e.2).text, expiry, generation⟩))

def leaseToken (runId taskId : String) (l : Lease) : LeaseToken :=
  ⟨runId, taskId, l.leaseId, l.generation, l.expiresAt⟩

/-- Leases are installed over those that stand, and every attempt counts. -/
def install (s : Snapshot) (granted : List (String × Lease)) : Snapshot :=
  { s with leases := s.leases.insertAll granted,
           attempts := (granted.map Prod.fst).foldl bumpAttempt s.attempts }

def claim (taskId owner : String) (seconds : Seconds) (expected : Json) (x : Draws) :
    Except PyError Body := do
  let task ← safeIdText taskId
  return fun s => do
    let granted := fun expiry => grants owner expiry (s.generation+1) x.token [task]
    let c ← mutate owner expected (fun s => do
      let known ← knownIds s.plan
      if task ∉ known then throw (.runStore "unknown task id")
      else if s.closed task then throw (.runStore "cannot claim terminal task")
      else
        let now ← clockValue x.now
        if (s.leases.lookup task).any (fun l => l.activeAt now) then
          throw (.lease "task already leased")
        else
          let expiry ← plusSeconds now seconds
          return install s (granted expiry)) x s
    match c.leases.lookup task with
    | some l => return (some c, .token (leaseToken c.runId task l))
    | none => throw .keyError

/-- A selector of `claim_many`. It sees the state after expired leases are gone,
the available tasks and the capacity, and may take the time of the lock. -/
inductive Selector where
  | none
  | plain (f : Snapshot → List String → ℕ → Except PyError Json)
  | timed (f : Snapshot → List String → ℕ → String → Except PyError Json)

def Selector.select (sel : Selector) (s : Snapshot) (available : List String) (capacity : ℕ)
    (now : String) : Except PyError Json :=
  match sel with
  | none => .ok (.arr ((available.take capacity).map Json.str))
  | plain f => f s available capacity
  | timed f => f s available capacity now

/-- The chosen tasks, all of them available. -/
def availableIds (available : List String) : List Json → Except PyError (Option (List String))
  | [] => .ok (some [])
  | v :: vs => do
    if ← v.inSet available then
      let rest ← availableIds available vs
      return rest.map (fun l => v.text?.toList++l)
    else return Option.none

def checkChosen (available : List String) (capacity : ℕ) (chosen : Json) :
    Except PyError (List String) := do
  match chosen with
  | .arr vs =>
    if capacity < vs.length then throw (.runStore "invalid claim selection")
    else
      match ← availableIds available vs with
      | some ids => if ids.Nodup then return ids else throw (.runStore "invalid claim selection")
      | Option.none => throw (.runStore "invalid claim selection")
  | _ => throw (.runStore "invalid claim selection")

/-- The state without its expired leases. -/
def reclaim (s : Snapshot) (now : String) : Snapshot :=
  { s with leases := s.leases.keep (fun _ l => l.activeAt now) }

def claimMany (taskIds : List String) (owner : String) (maxParallel : ℤ) (seconds : Seconds)
    (sel : Selector) (x : Draws) : Except PyError Body := do
  if maxParallel < 1 then throw (.runStore "max_parallel must be positive")
  else if !seconds.positive then throw (.lease "lease duration must be positive")
  else if !(taskIds.all isId && taskIds.Nodup) then throw (.runStore "invalid task id")
  else
    return fun s => do
      checkOwner s owner
      let known ← knownIds s.plan
      if !taskIds.all (· ∈ known) then throw (.runStore "unknown task id")
      else if taskIds.any s.closed then throw (.runStore "cannot claim terminal task")
      else
        let now ← clockValue x.now
        let r := reclaim s now
        let reclaimed := s.leases.toFields.any (fun e => !e.2.activeAt now)
        if maxParallel-r.leases.size ≤ 0 then throw (.runStore "bounded capacity exceeded")
        else
          let capacity := (maxParallel-r.leases.size).toNat
          let available := taskIds.filter (fun t => (r.leases.lookup t).isNone)
          let chosen ← sel.select r available capacity now
          let ids ← checkChosen available capacity chosen
          match ids with
          | [] =>
            if reclaimed then
              return (some { r with generation := s.generation+1, updatedAt := now }, .tokens [])
            else return (none, .tokens [])
          | ids =>
            let expiry ← plusSeconds now seconds
            let granted := grants owner expiry (s.generation+1) x.token ids
            let stamp ← clockValue x.stamp
            return (some { install r granted with generation := s.generation+1,
                                                  updatedAt := stamp },
              .tokens (granted.map (fun e => leaseToken s.runId e.1 e.2)))

/-! ## Tokens -/

/-- The shape of a token, apart from the task it names. -/
def tokenShape (s : Snapshot) (token : Obj) : Bool :=
  token.hasExactly ["run_id", "task_id", "lease_id", "generation", "expires_at"] &&
  hasText token "run_id" s.runId &&
  (token.field "generation").any (fun v => match v with | .int _ => true | _ => false) &&
  (token.field "lease_id").any Json.isText &&
  (token.field "expires_at").any isClock

/-- `_validate_token_shape`. -/
def validateTokenShape (s : Snapshot) (taskId : String) (token : Json) :
    Except PyError Obj :=
  match token with
  | .obj o =>
    if tokenShape s o && hasText o "task_id" taskId then .ok o
    else .error (.lease "invalid lease")
  | _ => .error (.lease "invalid lease")

/-- The token names the lease's own id, generation and expiry. -/
def tokenNames (token : Obj) (l : Lease) : Bool :=
  hasText token "lease_id" l.leaseId &&
  (token.field "generation").any
    (fun v => match v with | .int n => n = l.generation | _ => false) &&
  hasText token "expires_at" l.expiresAt

/-- `_check_token`, with the clock value that it compares with. -/
def checkToken (s : Snapshot) (taskId : String) (token now : Json) : Except PyError Lease := do
  let o ← validateTokenShape s taskId token
  let now ← clockValue now
  match s.leases.lookup taskId with
  | some l =>
    if tokenNames o l && l.activeAt now then return l
    else throw (.lease "stale or expired lease")
  | none => throw (.lease "stale or expired lease")

def use (taskId : String) (token : Json) (owner : String) (x : Draws) : Except PyError Body :=
  .ok (fun s => do
    checkOwner s owner
    let _ ← checkToken s taskId token x.now
    return (none, .state s))

/-- `lease.update(lease_id=…, expires_at=…, generation=…)`. -/
def Lease.refreshed (l : Lease) (leaseId expiry : String) (generation : ℕ) : Lease :=
  { l with leaseId := leaseId, expiresAt := expiry, generation := generation }

def renew (taskId : String) (token : Json) (owner : String) (seconds : Seconds) (x : Draws) :
    Except PyError Body :=
  if !seconds.positive then .error (.lease "lease duration must be positive")
  else .ok (fun s => do
    let c ← mutate owner .null (fun s => do
      let now ← clockValue x.now
      let l ← checkToken s taskId token (.str now)
      let expiry ← plusSeconds now seconds
      let l := l.refreshed (x.token 0).text expiry (s.generation+1)
      return { s with leases := s.leases.insert taskId l }) x s
    match c.leases.lookup taskId with
    | some l => return (some c, .token (leaseToken s.runId taskId l))
    | none => throw .keyError)

/-- The record of a terminal report under the lease of a token. -/
def reportRecord (status : ReportStatus) (report : Obj) (attempt : ℕ) (l : Lease) :
    ReportRecord :=
  ⟨status, report, reportDigest report, attempt, l.leaseId, l.generation⟩

/-- A repeated commit: the same report under the same lease is answered again. -/
def recommit (s : Snapshot) (token : Obj) (existing : ReportRecord) (status : ReportStatus)
    (digest : String) : Except PyError (Option Snapshot × Reply) :=
  if !(hasText token "lease_id" existing.leaseId &&
      (token.field "generation").any
        (fun v => match v with | .int n => n = existing.leaseGeneration | _ => false)) then
    .error (.lease "stale or invalid lease")
  else if existing.digest = digest ∧ existing.status = status then .ok (none, .state s)
  else .error (.duplicateCommit "task already committed")

def commit (D : Deps) (taskId : String) (token : Json) (owner : String) (report status : Json)
    (x : Draws) : Except PyError Body := do
  match status.text?.bind ReportStatus.ofText with
  | none => throw (.runStore "commit status must be terminal")
  | some st =>
    match report with
    | .obj report =>
      let safe := redactFields D report
      if !validReport safe st then throw (.runStore "incomplete or invalid terminal report")
      else
        return fun s => do
          checkOwner s owner
          let o ← validateTokenShape s taskId token
          match s.reports.lookup taskId with
          | some existing => recommit s o existing st (reportDigest safe)
          | none =>
            let l ← checkToken s taskId token x.now
            let attempt := (s.attempts.lookup taskId).getD 1
            let stamp ← clockValue x.stamp
            return stateReply
              { s with reports := s.reports.insert taskId (reportRecord st safe attempt l),
                       tasks := setTaskStatus s.tasks taskId st.task,
                       leases := s.leases.erase taskId,
                       generation := s.generation+1, updatedAt := stamp }
    | _ => throw (.runStore "report must be an object")

end PdFleet
