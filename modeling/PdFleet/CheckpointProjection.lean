import PdFleet.Checkpoint
import PdFleet.LogBudget
import PdFleet.Printed

/-!
# Checkpoints in the event log

The recorder writes a summary of a checkpoint into the log: which tasks are completed, and
which may be resumed. A checkpoint says both itself. Where it says that there is none, the
recorder works the list out from the records, by rules of its own.
-/

set_option autoImplicit false

namespace PdFleet

namespace Checkpoint

variable (c : Checkpoint)

/-- `lifecycle.get(task_id, task)`. -/
def recordOf (id : String) (task : Json) : Json := (c.lifecycle.field id).getD task

/-- `snapshot.get("status", snapshot.get("state"))`, of a mapping. -/
def ownStatus : Json → Json
  | .obj o => recordStatus o
  | _ => .null

/-- The keys of the tasks, then those that only the lifecycle has. -/
def taskIds : List String := (c.tasks.map Prod.fst++c.lifecycle.map Prod.fst).eraseDups

/-- `completed_tasks`. -/
def completedTasks : List String :=
  c.taskIds.filter (fun id =>
    (ownStatus (c.recordOf id ((c.tasks.field id).getD (.obj [])))).isStr "completed")

/-- The status that decides on resumption; a record without any is pending. -/
def resumeStatus : Json → Json
  | .obj o => (Obj.field o "status").getD ((Obj.field o "state").getD (.str "pending"))
  | _ => .str "pending"

/-- `status not in {"blocked", "skipped"}`; lists and mappings cannot be looked up. -/
def resumable : Json → Option Bool
  | .arr _ | .obj _ => none
  | v => some (!(v.isStr "blocked" || v.isStr "skipped"))

/-- The loop of `resume_tasks` over the tasks. -/
def resumeFrom (completed : List String) : Obj → Option (List String)
  | [] => some []
  | (id,task) :: tasks =>
    if id ∈ completed then resumeFrom completed tasks
    else do
      let b ← resumable (resumeStatus (c.recordOf id task))
      let ids ← resumeFrom completed tasks
      return if b then id :: ids else ids

/-- `resume_tasks`, or nothing where it raises. -/
def resumeTasks : Option (List String) := c.resumeFrom c.completedTasks c.tasks

end Checkpoint

namespace Journal

open Pattern

def MAX_IDS : ℕ := 128

def fail {α : Type} (msg : String) : Except EventFault α := .error (.event msg)

/-- `_UNSAFE_REASON.search`. -/
def unsafeReason (text : List Char) : Bool :=
  search (oneOf [word foldCase "secret", word foldCase "token", word foldCase "password",
    word foldCase "passwd", apiKeyDashed, word foldCase "authorization",
    word foldCase "credential", word foldCase "prompt", word foldCase "cot", chainOfThought,
    word foldCase "pid", processId, word foldCase "handle", word foldCase "native", urlStart,
    char isControl]) text

/-- `_safe_text`. -/
def safeText : Json → Bool
  | .str s => s ≠ "" && (Json.str s).nonblank && s.length ≤ 256 &&
      s.toList.all (fun c => c ≠ ':' && c ≠ '=') && !unsafeReason s.toList
  | _ => false

def safeTaskId (s : String) : Bool := isEventId s && !unsafeReason s.toList

/-- The loop of `_safe_ids`: how many values it may still read. -/
def safeItems : ℕ → List Json → Except EventFault (List String)
  | 0, _ => fail "ids excedem o limite de coleção"
  | _+1, [] => .ok []
  | fuel+1, .str s :: vs =>
    if safeTaskId s then do
      let ids ← safeItems fuel vs
      return s :: ids
    else fail "id inválido"
  | _+1, _ :: _ => fail "id inválido"

/-- What iterating over a value gives. -/
def itemsOf : Json → Option (List Json)
  | .null => some []
  | .arr xs => some xs
  | .obj o => some (o.map (fun e => .str e.1))
  | .str s => some (s.toList.map (fun c => .str (String.singleton c)))
  | _ => none

/-- `_safe_ids`. -/
def safeIds (v : Json) : Except EventFault (List String) :=
  match itemsOf v with
  | none => fail "ids não puderam ser lidos"
  | some vs => safeItems (MAX_IDS+1) vs

def asMapping : Json → Except EventFault Obj
  | .obj o => .ok o
  | _ => fail "checkpoint mapping inválido"

/-- `_bounded_keys`. -/
def boundedKeys (v : Json) : Except EventFault (List String) := do
  let o ← asMapping v
  if MAX_IDS < o.length then fail "checkpoint mapping excede o limite de coleção"
  else return o.map Prod.fst

/-- `_safe_ids` of `_bounded_keys`. -/
def safeKeys (v : Json) : Except EventFault (List String) := do
  let ids ← boundedKeys v
  safeItems (MAX_IDS+1) (ids.map .str)

/-- `_snapshot`. -/
def snapshotIn (mapping : Obj) (id : String) : Json := (mapping.field id).getD (.obj [])

/-- `_valid_state` of a value that may be missing. -/
def validStatus (name : String) : Json → Except EventFault (Option String)
  | .null => .ok none
  | .str s => if s ∈ lifecycleStates then .ok (some s) else fail (name ++ " inválido")
  | _ => fail (name ++ " inválido")

/-- `_status`. -/
def statusOf (snapshot : Json) (default : Json) : Except EventFault (Option String) := do
  let (status,state) := match snapshot with
    | .obj o => ((Obj.field o "status").getD .null,(Obj.field o "state").getD .null)
    | _ => (default,.null)
  let status ← validStatus "checkpoint status" status
  let state ← validStatus "checkpoint state" state
  return status <|> state

/-- `_validate_statuses`. -/
def validateStatuses (tasks lifecycle : Json) : Except EventFault Unit :=
  [tasks,lifecycle].forM (fun mapping => do
    let ids ← safeKeys mapping
    let o ← asMapping mapping
    ids.forM (fun id => do
      let _ ← statusOf (snapshotIn o id) .null))

/-- `_bounded_task_ids`. -/
def boundedTaskIds (tasks lifecycle : Json) : Except EventFault (List String) := do
  let taskKeys ← safeKeys tasks
  let lifecycleKeys ← safeKeys lifecycle
  let ids := taskKeys++lifecycleKeys.eraseDups.filter (· ∉ taskKeys)
  if MAX_IDS < ids.length then fail "checkpoint excede o limite de tasks" else return ids

/-- The record that the recorder looks at: an empty one gives way to that of the task. -/
def shown (tasks lifecycle : Obj) (id : String) : Json :=
  match snapshotIn lifecycle id with
  | .obj [] => snapshotIn tasks id
  | v => v

/-- The ids of which the status of the shown record is as wanted. -/
def withStatus (tasks lifecycle : Obj) (default : Json) (wanted : String → Option String → Bool) :
    List String → Except EventFault (List String)
  | [] => .ok []
  | id :: ids => do
    let status ← statusOf (shown tasks lifecycle id) default
    let rest ← withStatus tasks lifecycle default wanted ids
    return if wanted id status then id :: rest else rest

/-- `_completed_from`. -/
def completedFrom (tasks lifecycle : Json) : Except EventFault (List String) := do
  let ids ← boundedTaskIds tasks lifecycle
  let tasks ← asMapping tasks
  let lifecycle ← asMapping lifecycle
  withStatus tasks lifecycle .null (fun _ status => status = some "completed") ids

/-- `_resume_from`. -/
def resumeFrom (tasks lifecycle completed : Json) : Except EventFault (List String) := do
  let done ← safeIds completed
  let ids ← boundedKeys tasks
  let tasks ← asMapping tasks
  let lifecycle ← asMapping lifecycle
  withStatus tasks lifecycle (.str "pending")
    (fun id status => id ∉ done && status ≠ some "blocked" && status ≠ some "skipped") ids

/-- `_count`. -/
def count : Json → Except EventFault ℤ
  | .arr xs => .ok (min xs.length MAX_IDS)
  | .obj o => .ok (min o.length MAX_IDS)
  | .str s => .ok (min s.length MAX_IDS)
  | _ => fail "coleção não pôde ser contada"

/-- What `record_checkpoint` accepts: data, or a checkpoint. -/
inductive Given where
  | mapping (o : Obj)
  | checkpoint (c : Checkpoint)

structure Parts where
  feature : Json
  wave : Json
  tasks : Json
  lifecycle : Json
  reports : Json
  evidence : Json
  blockers : Json
  completed : Json
  resume : Json

def textsOf (ids : List String) : Json := .arr (ids.map .str)

/-- The values that are read first. -/
def Given.parts : Given → Except EventFault Parts
  | .mapping o =>
    let get key default := (o.field key).getD default
    .ok ⟨get "feature" .null,get "wave" .null,get "tasks" (.obj []),get "lifecycle" (.obj []),
      get "reports" (.arr []),get "evidence" (.arr []),get "blockers" (.arr []),
      get "completed_task_ids" (.arr []),get "resume_task_ids" (.arr [])⟩
  | .checkpoint c =>
    match c.resumeTasks with
    | none => fail "checkpoint derivação não pôde ser lida"
    | some resume => .ok ⟨c.feature,c.wave,.obj c.tasks,.obj c.lifecycle,c.reports,c.evidence,
        c.blockers,textsOf c.completedTasks,textsOf resume⟩

/-- An empty list of completed tasks counts as a missing one. -/
def completedOf (p : Parts) (derived : List String) : Json :=
  if p.completed.truth then p.completed else textsOf derived

/-- So does one of tasks to resume. -/
def resumeOf (p : Parts) (completed : Json) : Except EventFault Json :=
  if p.resume.truth then .ok p.resume
  else do
    let ids ← resumeFrom p.tasks p.lifecycle completed
    return textsOf ids

/-- The two lists of the summary. -/
def projections (p : Parts) : Except EventFault (List String × List String) := do
  validateStatuses p.tasks p.lifecycle
  let derived ← completedFrom p.tasks p.lifecycle
  let resume ← resumeOf p (completedOf p derived)
  deny (!safeText p.feature || !p.wave.isIntFrom 0) "checkpoint summary inválido"
  let completed ← safeIds (completedOf p derived)
  let resume ← safeIds resume
  return (completed,resume)

def summaryFields (p : Parts) (completed resume : List String) (blockers reports evidence : ℤ) :
    Obj :=
  [("feature",p.feature), ("wave",p.wave), ("completed_task_ids",textsOf completed),
    ("resume_task_ids",textsOf resume), ("blocker_count",.int blockers),
    ("report_count",.int reports), ("evidence_count",.int evidence)]

def withDigest (summary : Obj) : Obj :=
  summary++[("digest",.str (sha256Hex (canonical summary)))]

/-- The summary, with its digest. -/
def summaryOf (p : Parts) : Except EventFault Json := do
  let (completed,resume) ← projections p
  let blockers ← count p.blockers
  let reports ← count p.reports
  let evidence ← count p.evidence
  return .obj (withDigest (summaryFields p completed resume blockers reports evidence))

section

variable (E : EventTables) (iso : String)

/-- `_created_at`, of the recorder. -/
def createdAt : Option String → Except EventFault String
  | none => .ok "1970-01-01T00:00:00+00:00"
  | some s => do
    deny (s = "" || !isTimestamp E s.toList || (fromisoformat (replaceZ s.toList)).isNone)
      "created_at inválido"
    return s

structure LifecycleEventRecorder where
  eventLog : EventLog
  ownerEpoch : Json

/-- `_identity` of a checkpoint. -/
def identity (runId : String) (sequence : Json) : String :=
  "e2-" ++ sha256Hex (dumps (.arr [.str runId,.null,sequence,.str "checkpoint.committed"]))

/-- The event of a checkpoint, before it is appended. -/
def LifecycleEventRecorder.checkpointEvent (r : LifecycleEventRecorder) (given : Given)
    (sequence : Json) (created : Option String) : Except EventFault (FleetEvent E) := do
  let p ← given.parts
  let summary ← summaryOf p
  let time ← createdAt E created
  FleetEvent.make E iso
    { schemaVersion := .int 1, eventId := .str (identity r.eventLog.runId sequence),
      runId := .str r.eventLog.runId, taskId := .null, kind := .str "checkpoint.committed",
      orderingKey := .str "checkpoint", sequence := sequence, ownerEpoch := r.ownerEpoch,
      payload := summary, createdAt := .str time }

/-- `record_checkpoint`. -/
def LifecycleEventRecorder.recordCheckpoint (r : LifecycleEventRecorder) (given : Given)
    (sequence : Json) (created : Option String) (f : LogFile) :
    Except EventFault (FleetEvent E × LogFile) := do
  let event ← r.checkpointEvent E iso given sequence created
  append E iso r.eventLog event f

end

/-! ## What the lists are read from -/

section

variable {fuel : ℕ} {v : Json} {vs : List Json} {ids ids' : List String} {o tasks lifecycle : Obj}

theorem safeItems_ok (h : safeItems fuel vs = .ok ids) : vs = ids.map .str := by
  induction fuel generalizing vs ids with
  | zero => cases h
  | succ fuel ih =>
    match vs, h with
    | [], h =>
      cases h
      rfl
    | .str s :: vs, h =>
      rw [safeItems] at h
      split_ifs at h
      · obtain ⟨rest,hrest,h⟩ := ok_of_bind h
        cases h
        rw [ih hrest, List.map_cons]
      · cases h

theorem map_str_inj (h : ids.map Json.str = ids'.map Json.str) : ids = ids' :=
  List.map_injective_iff.mpr (fun _ _ => Json.str.inj) h

theorem safeIds_texts (h : safeIds (textsOf ids) = .ok ids') : ids' = ids :=
  (map_str_inj (safeItems_ok h)).symm

theorem boundedKeys_obj (h : boundedKeys (.obj o) = .ok ids) : ids = o.map Prod.fst := by
  obtain ⟨_,ho,h⟩ := ok_of_bind h
  cases ho
  split_ifs at h
  · cases h
  · exact (Except.ok.inj h).symm

theorem safeKeys_obj (h : safeKeys (.obj o) = .ok ids) : ids = o.map Prod.fst := by
  obtain ⟨keys,hkeys,h⟩ := ok_of_bind h
  rw [← boundedKeys_obj hkeys]
  exact (map_str_inj (safeItems_ok h)).symm

/-- The tasks of either mapping, each once. -/
theorem mem_boundedTaskIds (h : boundedTaskIds (.obj tasks) (.obj lifecycle) = .ok ids)
    (id : String) : id ∈ ids ↔ id ∈ tasks.map Prod.fst ∨ id ∈ lifecycle.map Prod.fst := by
  obtain ⟨keys,hkeys,h⟩ := ok_of_bind h
  obtain ⟨keys',hkeys',h⟩ := ok_of_bind h
  dsimp only at h
  split_ifs at h
  · cases h
  · cases h
    rw [safeKeys_obj hkeys, safeKeys_obj hkeys', List.mem_append, List.mem_filter,
      List.mem_eraseDups, decide_eq_true_iff]
    by_cases hid : id ∈ tasks.map Prod.fst <;> simp [hid]

/-- The status that the recorder finds in a record: `null` counts as none. -/
def shownStatus (o : Obj) : Json :=
  match o.field "status" with
  | none | some .null => (o.field "state").getD .null
  | some v => v

theorem validStatus_ok {name : String} {status : Option String}
    (h : validStatus name v = .ok status) (s : String) : status = some s ↔ v = .str s := by
  cases v with
  | null =>
    cases h
    simp
  | str t =>
    rw [validStatus] at h
    split_ifs at h
    · cases h
      simp
    · cases h
  | _ => cases h

theorem validStatus_none {name : String} (h : validStatus name v = .ok none) : v = .null := by
  cases v with
  | null => rfl
  | str t =>
    rw [validStatus] at h
    split_ifs at h
    · cases h
    · cases h
  | _ => cases h

theorem statusOf_ok {default : Json} {status : Option String}
    (h : statusOf (.obj o) default = .ok status) (s : String) :
    status = some s ↔ shownStatus o = .str s := by
  obtain ⟨first,hfirst,h⟩ := ok_of_bind h
  obtain ⟨second,hsecond,h⟩ := ok_of_bind h
  cases h
  rw [shownStatus]
  cases hs : Obj.field o "status" with
  | none =>
    rw [hs] at hfirst
    cases hfirst
    exact validStatus_ok hsecond s
  | some v =>
    rw [hs] at hfirst
    cases first with
    | none =>
      obtain rfl := validStatus_none hfirst
      exact validStatus_ok hsecond s
    | some t =>
      have hv := (validStatus_ok hfirst t).mp rfl
      simp only [Option.getD_some] at hv
      subst hv
      simp

/-- Nothing is kept exactly if no id has a wanted status. -/
theorem withStatus_nil {default : Json} {wanted : String → Option String → Bool}
    (h : withStatus tasks lifecycle default wanted ids = .ok ids') :
    ids' = [] ↔ ∀ id ∈ ids, ∀ status,
      statusOf (shown tasks lifecycle id) default = .ok status → wanted id status = false := by
  induction ids generalizing ids' with
  | nil =>
    cases h
    simp
  | cons id ids ih =>
    obtain ⟨status,hstatus,h⟩ := ok_of_bind h
    obtain ⟨rest,hrest,h⟩ := ok_of_bind h
    cases h
    rw [List.forall_mem_cons, ← ih hrest, hstatus]
    cases hw : wanted id status with
    | true => simp [hw]
    | false => simp [hw]

theorem exists_status {default : Json} {wanted : String → Option String → Bool}
    (h : withStatus tasks lifecycle default wanted ids = .ok ids') :
    ∀ id ∈ ids, ∃ status, statusOf (shown tasks lifecycle id) default = .ok status := by
  induction ids generalizing ids' with
  | nil => exact fun id hid => absurd hid List.not_mem_nil
  | cons id ids ih =>
    obtain ⟨status,hstatus,h⟩ := ok_of_bind h
    obtain ⟨rest,hrest,-⟩ := ok_of_bind h
    rw [List.forall_mem_cons]
    exact ⟨⟨status,hstatus⟩,ih hrest⟩

end

end Journal

/-! ## The two readings of a checkpoint -/

namespace Checkpoint

open Journal

variable (c : Checkpoint)

/-- The record that the checkpoint itself looks at. -/
def ownRecord (id : String) : Json := c.recordOf id ((c.tasks.field id).getD (.obj []))

/-- A record whose status is `null` hides its state from the checkpoint. -/
def HidesCompleted (o : Obj) : Prop :=
  o.field "status" = some .null ∧ o.field "state" = some (.str "completed")

/-- A task that only the recorder takes for completed: its lifecycle record is empty and the
record of the task is that of a completed one, or a `null` status hides its state. -/
def Overlooked (id : String) : Prop :=
  (c.lifecycle.field id = some (.obj []) ∧ ∃ t, c.tasks.field id = some (.obj t) ∧
    (recordStatus t = .str "completed" ∨ HidesCompleted t)) ∨
  ∃ o, c.ownRecord id = .obj o ∧ HidesCompleted o

/-- Some task is completed by its own record, or none is overlooked. -/
def Settled : Prop :=
  (∃ id ∈ c.taskIds, ownStatus (c.ownRecord id) = .str "completed") ∨ ∀ id, ¬c.Overlooked id

variable {c} {id : String} {o t : Obj} {v : Json}

theorem mem_taskIds : id ∈ c.taskIds ↔
    id ∈ c.tasks.map Prod.fst ∨ id ∈ c.lifecycle.map Prod.fst := by
  rw [taskIds, List.mem_eraseDups, List.mem_append]

theorem mem_completedTasks : id ∈ c.completedTasks ↔
    id ∈ c.taskIds ∧ ownStatus (c.ownRecord id) = .str "completed" := by
  rw [completedTasks, List.mem_filter, isStr_iff, ownRecord]

theorem mem_of_lookup (h : Obj.field o id = some v) : (id,v) ∈ o := by
  obtain ⟨l,l',hl,-⟩ := List.lookup_eq_some_iff.mp h
  rw [hl]
  exact List.mem_append_right l List.mem_cons_self

theorem obj_of_task (hc : c.validate = .ok ()) (h : c.tasks.field id = some v) :
    ∃ t, v = .obj t := by
  have htask := (validate_ok.mp hc).2.2.2.2.2.1 _ (mem_of_lookup h)
  obtain ⟨-,t,ht,-⟩ := validateTask_ok.mp htask
  exact ⟨t,ht⟩

theorem obj_of_lifecycle (hc : c.validate = .ok ()) (h : c.lifecycle.field id = some v) :
    ∃ o, v = .obj o := by
  have hrecord := (validate_ok.mp hc).2.2.2.2.2.2 _ (mem_of_lookup h)
  obtain ⟨-,o,ho,-⟩ := validateLifecycle_ok.mp hrecord
  exact ⟨o,ho⟩

theorem shownStatus_iff {s : String} : shownStatus o = .str s ↔ recordStatus o = .str s ∨
    (o.field "status" = some .null ∧ o.field "state" = some (.str s)) := by
  rw [shownStatus, recordStatus]
  cases Obj.field o "status" with
  | none => simp
  | some v =>
    cases v with
    | null => cases Obj.field o "state" <;> simp
    | _ => simp

theorem shown_missing (h : c.lifecycle.field id = none) :
    shown c.tasks c.lifecycle id = c.ownRecord id := by
  simp [shown, snapshotIn, ownRecord, recordOf, h]

theorem shown_full (h : c.lifecycle.field id = some (.obj o)) (ho : o ≠ []) :
    shown c.tasks c.lifecycle id = .obj o ∧ c.ownRecord id = .obj o := by
  obtain ⟨e,o',rfl⟩ := List.exists_cons_of_ne_nil ho
  constructor
  · rw [shown, snapshotIn, h, Option.getD_some]
  · rw [ownRecord, recordOf, h, Option.getD_some]

/-- The record that the recorder looks at shows a completed task if the checkpoint's own does,
or if the task is overlooked. -/
theorem shown_completed (hc : c.validate = .ok ()) (id : String) :
    ∃ o, shown c.tasks c.lifecycle id = .obj o ∧ (shownStatus o = .str "completed" ↔
      ownStatus (c.ownRecord id) = .str "completed" ∨ c.Overlooked id) := by
  have htask : ∃ t, snapshotIn c.tasks id = .obj t := by
    rw [snapshotIn]
    cases ht : c.tasks.field id with
    | none => exact ⟨[],rfl⟩
    | some v => exact obj_of_task hc ht
  obtain ⟨t,ht⟩ := htask
  cases hl : c.lifecycle.field id with
  | none =>
    have hown : c.ownRecord id = .obj t := by rw [ownRecord, recordOf, hl, ← ht]; rfl
    refine ⟨t,(shown_missing hl).trans hown,?_⟩
    rw [shownStatus_iff, Overlooked, hl, hown]
    simp [ownStatus, HidesCompleted]
  | some v =>
    obtain ⟨o,rfl⟩ := obj_of_lifecycle hc hl
    by_cases ho : o = []
    · subst ho
      have hown : c.ownRecord id = .obj [] := by rw [ownRecord, recordOf, hl]; rfl
      refine ⟨t,?_,?_⟩
      · rw [shown, snapshotIn, hl]
        exact ht
      · have hnone : ¬HidesCompleted [] := fun h => nomatch h.1
        have hempty : ownStatus (.obj []) ≠ .str "completed" := nofun
        rw [shownStatus_iff, Overlooked, hl, hown]
        simp only [Json.obj.injEq, exists_eq_left', hnone, hempty, or_false, false_or, true_and]
        rw [snapshotIn] at ht
        cases hf : c.tasks.field id with
        | none =>
          rw [hf] at ht
          cases ht
          simp [recordStatus, Obj.field]
        | some v =>
          rw [hf] at ht
          cases ht
          simp [HidesCompleted]
    · obtain ⟨hshown,hown⟩ := shown_full hl ho
      refine ⟨o,hshown,?_⟩
      rw [shownStatus_iff, Overlooked, hl, hown]
      simp [ownStatus, HidesCompleted, ho]

/-- Where a checkpoint resumes nothing, each task is completed, or kept back by its record. -/
theorem resumeFrom_nil {completed : List String} {l : Obj} (h : c.resumeFrom completed l = some []) :
    ∀ e ∈ l, e.1 ∈ completed ∨ resumable (resumeStatus (c.recordOf e.1 e.2)) = some false := by
  induction l with
  | nil => exact fun e he => absurd he List.not_mem_nil
  | cons e l ih =>
    obtain ⟨id,task⟩ := e
    rw [resumeFrom] at h
    rw [List.forall_mem_cons]
    split_ifs at h with hid
    · exact ⟨Or.inl hid,ih h⟩
    · obtain ⟨b,hb,h⟩ := Option.bind_eq_some_iff.mp h
      obtain ⟨ids,hids,h⟩ := Option.bind_eq_some_iff.mp h
      cases b with
      | true => cases h
      | false =>
        obtain rfl : ids = [] := Option.some.inj h
        exact ⟨Or.inr hb,ih hids⟩

theorem resumable_false (h : resumable v = some false) : v = .str "blocked" ∨ v = .str "skipped" := by
  cases v with
  | str s => simpa [resumable, Json.isStr, or_iff_not_imp_left] using h
  | _ => simp [resumable, Json.isStr] at h

theorem shown_kept (h : resumeStatus (.obj o) = .str id) (hid : id ≠ "pending") :
    shownStatus o = .str id ∧ o ≠ [] := by
  have hne : o ≠ [] := by
    rintro rfl
    exact hid (Json.str.inj h).symm
  refine ⟨?_,hne⟩
  rw [resumeStatus] at h
  rw [shownStatus_iff, recordStatus]
  cases hs : Obj.field o "status" with
  | none =>
    cases ht : Obj.field o "state" with
    | none => simp [hs, ht, hid.symm] at h
    | some v => simpa [hs, ht] using h
  | some v =>
    left
    simpa [hs] using h

/-- A task that the checkpoint keeps back is shown so to the recorder. -/
theorem shown_of_resumable (hc : c.validate = .ok ()) (ht : c.tasks.field id = some v)
    (h : resumable (resumeStatus (c.recordOf id v)) = some false) :
    ∃ o, shown c.tasks c.lifecycle id = .obj o ∧
      (shownStatus o = .str "blocked" ∨ shownStatus o = .str "skipped") := by
  have hown : c.ownRecord id = c.recordOf id v := by rw [ownRecord, ht, Option.getD_some]
  have hrecord : ∃ o, c.recordOf id v = .obj o ∧ (o ≠ [] → shown c.tasks c.lifecycle id = .obj o) := by
    cases hl : c.lifecycle.field id with
    | none =>
      obtain ⟨t,rfl⟩ := obj_of_task hc ht
      have hself : c.recordOf id (.obj t) = .obj t := by rw [recordOf, hl, Option.getD_none]
      exact ⟨t,hself,fun _ => (shown_missing hl).trans (hown.trans hself)⟩
    | some w =>
      obtain ⟨o,rfl⟩ := obj_of_lifecycle hc hl
      exact ⟨o,by rw [recordOf, hl, Option.getD_some],fun ho => (shown_full hl ho).1⟩
  obtain ⟨o,ho,hshown⟩ := hrecord
  rw [ho] at h
  rcases resumable_false h with hs | hs
  · obtain ⟨h1,hne⟩ := shown_kept hs (by decide)
    exact ⟨o,hshown hne,Or.inl h1⟩
  · obtain ⟨h1,hne⟩ := shown_kept hs (by decide)
    exact ⟨o,hshown hne,Or.inr h1⟩

theorem truth_texts (ids : List String) : (textsOf ids).truth = !ids.isEmpty := by
  cases ids <;> rfl

/-- What the recorder derives is empty exactly if no task is shown as completed. -/
theorem derived_nil (hc : c.validate = .ok ()) {derived : List String}
    (h : completedFrom (.obj c.tasks) (.obj c.lifecycle) = .ok derived) :
    derived = [] ↔ ∀ id ∈ c.taskIds,
      ¬(ownStatus (c.ownRecord id) = .str "completed" ∨ c.Overlooked id) := by
  obtain ⟨ids,hids,h⟩ := ok_of_bind h
  obtain ⟨_,h1,h⟩ := ok_of_bind h
  cases h1
  obtain ⟨_,h2,h⟩ := ok_of_bind h
  cases h2
  have hmem : ∀ id, id ∈ ids ↔ id ∈ c.taskIds := fun id => by
    rw [mem_boundedTaskIds hids, mem_taskIds]
  have hstatus := exists_status h
  rw [withStatus_nil h]
  constructor
  · intro hall id hid hno
    obtain ⟨status,hs⟩ := hstatus id ((hmem id).mpr hid)
    obtain ⟨o,ho,hiff⟩ := shown_completed hc id
    have hw := hall id ((hmem id).mpr hid) status hs
    rw [ho] at hs
    rw [(statusOf_ok hs "completed").mpr (hiff.mpr hno)] at hw
    cases hw
  · intro hall id hid status hs
    obtain ⟨o,ho,hiff⟩ := shown_completed hc id
    rw [ho] at hs
    apply decide_eq_false
    intro hw
    exact hall id ((hmem id).mp hid) (hiff.mp ((statusOf_ok hs "completed").mp hw))

theorem overlooked_mem (h : c.Overlooked id) : id ∈ c.taskIds := by
  rw [mem_taskIds]
  rcases h with ⟨hl,-⟩ | ⟨o,ho,hs,-⟩
  · exact Or.inr (List.mem_map_of_mem (mem_of_lookup hl))
  · cases hl : c.lifecycle.field id with
    | some v => exact Or.inr (List.mem_map_of_mem (mem_of_lookup hl))
    | none =>
      cases ht : c.tasks.field id with
      | some v => exact Or.inl (List.mem_map_of_mem (mem_of_lookup ht))
      | none =>
        rw [ownRecord, recordOf, hl, ht] at ho
        cases ho
        cases hs

theorem completedTasks_nil : c.completedTasks = [] ↔
    ∀ id ∈ c.taskIds, ownStatus (c.ownRecord id) ≠ .str "completed" := by
  rw [List.eq_nil_iff_forall_not_mem]
  exact forall_congr' fun id => by rw [mem_completedTasks, not_and]

/-- Either list of a checkpoint that is not empty is used as it is. -/
theorem settled_iff (hc : c.validate = .ok ()) {derived : List String}
    (h : completedFrom (.obj c.tasks) (.obj c.lifecycle) = .ok derived) :
    c.completedTasks ≠ [] ∨ derived = [] ↔ c.Settled := by
  rw [derived_nil hc h, Settled, ne_eq, completedTasks_nil]
  push Not
  constructor
  · rintro (hsome | hnone)
    · exact Or.inl hsome
    · exact Or.inr fun id ho => (hnone id (overlooked_mem ho)).2 ho
  · rintro (hsome | hnone)
    · exact Or.inl hsome
    · by_cases hsome : ∃ id ∈ c.taskIds, ownStatus (c.ownRecord id) = .str "completed"
      · exact Or.inl hsome
      · push Not at hsome
        exact Or.inr fun id hid => ⟨hsome id hid,hnone id⟩

/-- The recorder never finds a task to resume where the checkpoint has none. -/
theorem resume_nil (hc : c.validate = .ok ()) (hr : c.resumeTasks = some []) {completed : Json}
    {resume : List String} (hcompleted : c.completedTasks ≠ [] → completed = textsOf c.completedTasks)
    (h : Journal.resumeFrom (.obj c.tasks) (.obj c.lifecycle) completed = .ok resume) :
    resume = [] := by
  obtain ⟨done,hdone,h⟩ := ok_of_bind h
  obtain ⟨ids,hids,h⟩ := ok_of_bind h
  obtain ⟨_,h1,h⟩ := ok_of_bind h
  cases h1
  obtain ⟨_,h2,h⟩ := ok_of_bind h
  cases h2
  rw [withStatus_nil h, boundedKeys_obj hids]
  intro id hid status hs
  obtain ⟨v,hv⟩ : ∃ v, c.tasks.field id = some v := by
    obtain ⟨e,he,rfl⟩ := List.mem_map.mp hid
    cases hv : c.tasks.field e.1 with
    | some v => exact ⟨v,rfl⟩
    | none => simpa using List.lookup_eq_none_iff.mp hv e he
  rcases resumeFrom_nil hr _ (mem_of_lookup hv) with hdone' | hkept
  · have hne : c.completedTasks ≠ [] := List.ne_nil_of_mem hdone'
    rw [hcompleted hne] at hdone
    rw [safeIds_texts hdone]
    simp [show id ∈ c.completedTasks from hdone']
  · obtain ⟨o,ho,hstatus⟩ := shown_of_resumable hc hv hkept
    rw [ho] at hs
    rcases hstatus with hb | hb
    · simp [(statusOf_ok hs "blocked").mpr hb]
    · simp [(statusOf_ok hs "skipped").mpr hb]

/-- The two lists of the summary of a valid checkpoint. -/
theorem projections_ok (hc : c.validate = .ok ()) {p : Parts} {completed resume : List String}
    (hp : (Given.checkpoint c).parts = .ok p) (h : projections p = .ok (completed,resume)) :
    c.resumeTasks = some resume ∧ (completed = c.completedTasks ↔ c.Settled) := by
  rw [Given.parts] at hp
  cases hr : c.resumeTasks with
  | none =>
    rw [hr] at hp
    cases hp
  | some own =>
    rw [hr] at hp
    cases hp
    obtain ⟨_,-,h⟩ := ok_of_bind h
    obtain ⟨derived,hderived,h⟩ := ok_of_bind h
    obtain ⟨resumed,hresumed,h⟩ := ok_of_bind h
    obtain ⟨_,-,h⟩ := ok_of_bind h
    obtain ⟨first,hfirst,h⟩ := ok_of_bind h
    obtain ⟨second,hsecond,h⟩ := ok_of_bind h
    cases h
    rw [completedOf, truth_texts] at hfirst
    rw [resumeOf, truth_texts] at hresumed
    constructor
    · cases own with
      | nil =>
        obtain ⟨found,hfound,h⟩ := ok_of_bind hresumed
        cases h
        have hnil : found = [] := by
          apply resume_nil hc hr _ hfound
          intro hne
          rw [completedOf, truth_texts, if_pos (by simpa using hne)]
        rw [safeIds_texts hsecond, hnil]
      | cons id ids =>
        cases hresumed
        rw [safeIds_texts hsecond]
    · rw [← settled_iff hc hderived]
      by_cases hne : c.completedTasks = []
      · simp only [hne, List.isEmpty_nil, Bool.not_true, Bool.false_eq_true, if_false] at hfirst
        rw [safeIds_texts hfirst, hne]
        simp
      · have hfull : c.completedTasks.isEmpty = false := by simpa using hne
        simp only [hfull, Bool.not_false, if_true] at hfirst
        rw [safeIds_texts hfirst]
        simp [hne]

section

variable {E : EventTables} {iso : String} {r : LifecycleEventRecorder} {sequence : Json}
  {created : Option String} {built : FleetEvent E}

/-- The event has the two lists as the checkpoint itself gives them. -/
def Projects (c : Checkpoint) (e : FleetEvent E) : Prop :=
  ∃ p resume, e.fields.payload = .obj p ∧ c.resumeTasks = some resume ∧
    Obj.field p "completed_task_ids" = some (textsOf c.completedTasks) ∧
    Obj.field p "resume_task_ids" = some (textsOf resume)

theorem textsOf_inj {ids ids' : List String} : textsOf ids = textsOf ids' ↔ ids = ids' := by
  rw [textsOf, textsOf, Json.arr.injEq]
  exact ⟨map_str_inj,fun h => by rw [h]⟩

theorem make_payload {fields : EventFields} (h : FleetEvent.make E iso fields = .ok built) :
    built.fields.payload = fields.payload := by
  rw [FleetEvent.make] at h
  split at h
  · cases h
    show (fields.stamped iso).payload = fields.payload
    rw [EventFields.stamped, apply_ite EventFields.payload, ite_self]
  · cases h

/-- The payload of the event of a checkpoint. -/
theorem payload_of {given : Given} (h : r.checkpointEvent E iso given sequence created = .ok built) :
    ∃ p o completed resume, given.parts = .ok p ∧ projections p = .ok (completed,resume) ∧
      built.fields.payload = .obj o ∧ Obj.field o "completed_task_ids" = some (textsOf completed) ∧
      Obj.field o "resume_task_ids" = some (textsOf resume) := by
  obtain ⟨p,hp,h⟩ := ok_of_bind h
  obtain ⟨summary,hsummary,h⟩ := ok_of_bind h
  obtain ⟨time,-,h⟩ := ok_of_bind h
  obtain ⟨⟨completed,resume⟩,hlists,hsummary⟩ := ok_of_bind hsummary
  obtain ⟨blockers,-,hsummary⟩ := ok_of_bind hsummary
  obtain ⟨reports,-,hsummary⟩ := ok_of_bind hsummary
  obtain ⟨evidence,-,hsummary⟩ := ok_of_bind hsummary
  cases hsummary
  exact ⟨p,_,completed,resume,hp,hlists,make_payload h,rfl,rfl⟩

theorem projects_iff (hc : c.validate = .ok ())
    (h : r.checkpointEvent E iso (.checkpoint c) sequence created = .ok built) :
    Projects c built ↔ c.Settled := by
  obtain ⟨p,o,completed,resume,hp,hlists,hpayload,hfirst,hsecond⟩ := payload_of h
  obtain ⟨hresume,hcompleted⟩ := projections_ok hc hp hlists
  rw [← hcompleted]
  constructor
  · rintro ⟨o',_,ho',-,hfield,-⟩
    obtain rfl := Json.obj.inj (hpayload.symm.trans ho')
    exact textsOf_inj.mp (Option.some.inj (hfirst.symm.trans hfield))
  · intro he
    exact ⟨o,resume,hpayload,hresume,by rw [hfirst, he],hsecond⟩

/-- The log has the event, as far as its text tells. -/
def Recorded (E : EventTables) (iso : String) (f : LogFile) (e : FleetEvent E) : Prop :=
  ∃ rs, Wellformed E iso f rs ∧ ∃ record ∈ rs, record.2 = e.canonical

/-- **Checkpoint projections**: what is recorded of a valid checkpoint is what it says itself
exactly if it is settled. -/
theorem projections_agree_iff (E : EventTables) (iso : String) (r : LifecycleEventRecorder)
    (c : Checkpoint) (sequence : Json) (created : Option String) (f f' : LogFile)
    (e : FleetEvent E) (hc : c.validate = .ok ())
    (h : r.recordCheckpoint E iso (.checkpoint c) sequence created f = .ok (e,f')) :
    (∃ built, r.checkpointEvent E iso (.checkpoint c) sequence created = .ok built ∧
      Recorded E iso f' built ∧ Projects c built) ↔ c.Settled := by
  obtain ⟨built,hbuilt,happend⟩ := ok_of_bind h
  have hrecorded : Recorded E iso f' built := by
    obtain ⟨rs,hrs,⟨-,rfl,hknown⟩ | ⟨-,rfl,hlen,hline⟩⟩ := append_ok happend
    · exact ⟨rs,(records_ok.mp hrs).2,hknown⟩
    · exact ⟨_,(records_ok.mp hrs).2.snoc hlen hline,_,List.mem_append_right _ (List.mem_singleton.mpr rfl),rfl⟩
  rw [← projects_iff hc hbuilt]
  constructor
  · rintro ⟨built',hbuilt',-,hprojects⟩
    cases hbuilt.symm.trans hbuilt'
    exact hprojects
  · exact fun hprojects => ⟨built,hbuilt,hrecorded,hprojects⟩

end

def plainCheckpoint (tasks lifecycle : Obj) : Checkpoint where
  schemaVersion := .int 1
  feature := .str "f"
  wave := .int 0
  tasks := tasks
  lifecycle := lifecycle
  reports := .arr []
  evidence := .arr []
  blockers := .arr []
  createdAt := .str "2026-01-01T00:00:00Z"

/-- A task that is done, and one that is not. -/
def doneCheckpoint : Checkpoint :=
  plainCheckpoint [("a",.obj [("status",.str "completed")]),("b",.obj [])] []

/-- A task that is done, with an empty lifecycle record. -/
def emptiedCheckpoint : Checkpoint :=
  plainCheckpoint [("a",.obj [("status",.str "completed")])] [("a",.obj [])]

def sampleRecorder : LifecycleEventRecorder := ⟨⟨"run",.null⟩,.null⟩

def sampleParts (c : Checkpoint) (resume : List String) : Parts :=
  ⟨c.feature,c.wave,.obj c.tasks,.obj c.lifecycle,c.reports,c.evidence,c.blockers,
    textsOf c.completedTasks,textsOf resume⟩

/-- The fields of the event of a sample whose summary has the given digest. -/
def sampleFields (resume : List String) (digest : String) : EventFields where
  schemaVersion := .int 1
  eventId := .str "e2-5796900369cfcc0670234a683e0e60fc5df66f0dd5600c9059d68304a72ca8ba"
  runId := .str "run"
  taskId := .null
  kind := .str "checkpoint.committed"
  orderingKey := .str "checkpoint"
  sequence := .int 1
  ownerEpoch := .null
  payload := .obj (summaryFields (sampleParts doneCheckpoint resume) ["a"] resume 0 0 0++
    [("digest",.str digest)])
  createdAt := .str "1970-01-01T00:00:00+00:00"

def doneDigest : String := "c64a0cb2ca2ce7dada25700b7ec74b044d90d6940f2fc36e76159cdc8d4a81ef"

def emptiedDigest : String := "12fb8b0a68f3f71b7f78d3f2f5d84a3094d176512d8892c86297a2c6a317d041"

theorem sample_digests :
    identity "run" (.int 1) =
      "e2-5796900369cfcc0670234a683e0e60fc5df66f0dd5600c9059d68304a72ca8ba" ∧
    sha256Hex (canonical (summaryFields (sampleParts doneCheckpoint ["b"]) ["a"] ["b"] 0 0 0)) =
      doneDigest ∧
    sha256Hex (canonical (summaryFields (sampleParts emptiedCheckpoint ["a"]) ["a"] ["a"] 0 0 0)) =
      emptiedDigest := by
  rw [identity, canonical, canonical]
  -- the digests are worked out from the characters, which is cheaper than from the text
  simp only [sha256Hex_chars (toList_dumps _)]
  constructor
  · decide +kernel
  · constructor
    · decide +kernel
    · decide +kernel

theorem sample_checked : checkEvent plainTables (sampleFields ["b"] doneDigest) = .ok () ∧
    checkEvent plainTables (sampleFields ["a"] emptiedDigest) = .ok () ∧
    (canonical (sampleFields ["b"] doneDigest).toDict).utf8ByteSize ≤ 1000 ∧
    (canonical (sampleFields ["a"] emptiedDigest).toDict).utf8ByteSize ≤ 1000 := by
  decide +kernel

def doneEvent : FleetEvent plainTables := ⟨sampleFields ["b"] doneDigest,sample_checked.1⟩

def emptiedEvent : FleetEvent plainTables := ⟨sampleFields ["a"] emptiedDigest,sample_checked.2.1⟩

/-- The recorder makes the event, and appends it to an empty log. -/
theorem sample_recorded {tasks lifecycle : Obj} {resume : List String} {digest : String}
    {e : FleetEvent plainTables}
    (hp : (Given.checkpoint (plainCheckpoint tasks lifecycle)).parts =
      .ok (sampleParts (plainCheckpoint tasks lifecycle) resume))
    (hl : projections (sampleParts (plainCheckpoint tasks lifecycle) resume) = .ok (["a"],resume))
    (hd : sha256Hex (canonical (summaryFields (sampleParts (plainCheckpoint tasks lifecycle) resume)
      ["a"] resume 0 0 0)) = digest) (he : e.fields = sampleFields resume digest)
    (hsize : (canonical (sampleFields resume digest).toDict).utf8ByteSize ≤ 1000) :
    sampleRecorder.recordCheckpoint plainTables "now" (.checkpoint (plainCheckpoint tasks lifecycle))
      (.int 1) none [] = .ok (e,[e.line]) := by
  have hsummary : summaryOf (sampleParts (plainCheckpoint tasks lifecycle) resume) =
      .ok (sampleFields resume digest).payload := by
    rw [summaryOf, hl]
    show Except.ok (Json.obj (withDigest (summaryFields
      (sampleParts (plainCheckpoint tasks lifecycle) resume) ["a"] resume 0 0 0))) = _
    rw [withDigest, hd]
    rfl
  have hmake : FleetEvent.make plainTables "now" (sampleFields resume digest) = .ok e := by
    rw [← he]
    exact make_fields e
  have hevent : sampleRecorder.checkpointEvent plainTables "now"
      (.checkpoint (plainCheckpoint tasks lifecycle)) (.int 1) none = .ok e := by
    rw [LifecycleEventRecorder.checkpointEvent, hp]
    show (summaryOf _ >>= _) = _
    rw [hsummary, ← hmake]
    show FleetEvent.make plainTables "now" { eventId := .str (identity "run" (.int 1)), .. } = _
    rw [sample_digests.1]
    rfl
  have hbytes : e.line.bytes ≤ MAX_LOG_LINE_BYTES := by
    rw [line_bytes, FleetEvent.canonical, he]
    exact le_trans (Nat.add_le_add_right hsize 79) (by decide)
  rw [LifecycleEventRecorder.recordCheckpoint, hevent]
  have hread : records plainTables "now" [] = .ok [] := rfl
  exact append_returns hread (by rw [he]; rfl) rfl rfl rfl (by decide) hbytes

theorem done_recorded : sampleRecorder.recordCheckpoint plainTables "now"
    (.checkpoint doneCheckpoint) (.int 1) none [] = .ok (doneEvent,[doneEvent.line]) :=
  sample_recorded rfl (by decide +kernel) sample_digests.2.1 rfl sample_checked.2.2.1

/-- What is recorded of a checkpoint of which one task is done. -/
theorem done_projected : ∃ built, sampleRecorder.checkpointEvent plainTables "now"
      (.checkpoint doneCheckpoint) (.int 1) none = .ok built ∧
    Recorded plainTables "now" [doneEvent.line] built ∧ Projects doneCheckpoint built :=
  (projections_agree_iff plainTables "now" sampleRecorder doneCheckpoint (.int 1) none []
    [doneEvent.line] doneEvent rfl done_recorded).mpr
      (Or.inl ⟨"a",by decide,rfl⟩)

/-- A task with an empty lifecycle record is recorded as completed and as one to resume, where the
checkpoint itself only resumes it. -/
theorem emptied_projected : emptiedCheckpoint.validate = .ok () ∧
    emptiedCheckpoint.completedTasks = [] ∧ emptiedCheckpoint.resumeTasks = some ["a"] ∧
    sampleRecorder.recordCheckpoint plainTables "now" (.checkpoint emptiedCheckpoint) (.int 1) none
      [] = .ok (emptiedEvent,[emptiedEvent.line]) ∧
    ∃ p, emptiedEvent.fields.payload = .obj p ∧
      Obj.field p "completed_task_ids" = some (textsOf ["a"]) ∧
      Obj.field p "resume_task_ids" = some (textsOf ["a"]) :=
  ⟨rfl,by decide,by decide,
    sample_recorded rfl (by decide +kernel) sample_digests.2.2 rfl sample_checked.2.2.2,
    _,rfl,rfl,rfl⟩

end Checkpoint

end PdFleet
