import PdFleet.Redact
import PdFleet.Validation

/-!
# Checkpoints

The snapshot of a fleet task execution: what makes a checkpoint valid, how one is read
from a mapping, and the two passes of the durable envelope over it, the redaction that
the writer applies and the closed list of fields that the reader demands. The data are
JSON values. `iso` is the time that a checkpoint without one is given.
-/

set_option autoImplicit false

namespace PdFleet

/-- A `CheckpointError`, with its message. -/
structure CheckpointError where
  text : String
  deriving DecidableEq, Repr

namespace Json

/-- `isinstance(value, str) and value.strip()`. -/
def nonblank : Json → Bool
  | .str s => s.toList.any (fun c => !isSpace c)
  | _ => false

def isInt : Json → Bool
  | .int _ => true
  | _ => false

def isBool : Json → Bool
  | .bool _ => true
  | _ => false

/-- A number, and not a bool, or `None`. -/
def isNumberOrNull : Json → Bool
  | .int _ | .float _ | .null => true
  | _ => false

def isList : Json → Bool
  | .arr _ => true
  | _ => false

end Json

/-- `safe_repr`. -/
def reprValue : Json → String
  | .str s => safeRepr s
  | _ => "'[UNSUPPORTED TYPE]'"

def refuse (b : Bool) (msg : String) : Except CheckpointError Unit :=
  if b then .error ⟨msg⟩ else .ok ()

@[simp] theorem refuse_ok {b : Bool} {msg : String} {u : Unit} :
    refuse b msg = .ok u ↔ b = false := by
  cases b <;> simp [refuse]

theorem forM_ok {α : Type} {f : α → Except CheckpointError Unit} {l : List α} :
    l.forM f = .ok () ↔ ∀ x ∈ l, f x = .ok () := by
  induction l with
  | nil => simp [List.forM_nil, pure, Except.pure]
  | cons x l ih =>
    rw [List.forall_mem_cons, ← ih]
    constructor
    · intro h
      obtain ⟨_,h1,h2⟩ := ok_of_bind h
      exact ⟨h1,h2⟩
    · rintro ⟨h1,h2⟩
      show (f x >>= fun _ => l.forM f) = .ok ()
      rw [h1]
      exact h2

def blankKey (k : String) : Bool := !(Json.str k).nonblank

structure Checkpoint where
  schemaVersion : Json
  feature : Json
  wave : Json
  tasks : Obj
  lifecycle : Obj
  reports : Json
  evidence : Json
  blockers : Json
  createdAt : Json

/-- `LifecycleState`. -/
def lifecycleStates : List String :=
  ["pending", "ready", "running", "blocked", "failed", "completed", "skipped"]

/-! ## Validation -/

/-- A record may repeat the key under which it stands, and nothing else. -/
def validateName (place key id : String) (o : Obj) : Except CheckpointError Unit :=
  match o.field key with
  | none => pure ()
  | some v => do
    refuse (!v.nonblank) (place ++ "." ++ key ++ " deve ser string não vazia")
    refuse (!v.isStr id) (place ++ "." ++ key ++ " inconsistente")

def validateTask (id : String) (task : Json) : Except CheckpointError Unit := do
  refuse (blankKey id) "tasks contém task id inválido"
  match task with
  | .obj t => validateName ("tasks." ++ id) "id" id t
  | _ => .error ⟨"tasks." ++ id ++ " deve ser objeto"⟩

def attemptRange (o : Obj) : Bool :=
  match o.field "attempt", o.field "max_attempts" with
  | some (.int a), some (.int m) => a ≤ m
  | _, _ => true

/-- `_validate_lifecycle_fields`. -/
def validateLifecycleFields (id : String) (o : Obj) : Except CheckpointError Unit := do
  let field name := "lifecycle." ++ id ++ "." ++ name
  refuse ((o.field "attempt").any (!·.isInt)) (field "attempt deve ser inteiro")
  refuse ((o.field "max_attempts").any (!·.isInt)) (field "max_attempts deve ser inteiro")
  refuse ((o.field "attempt").any (!·.isIntFrom 0)) (field "attempt deve ser >= 0")
  refuse ((o.field "max_attempts").any (!·.isIntFrom 1)) (field "max_attempts deve ser >= 1")
  refuse (!attemptRange o) (field "attempt fora dos limites")
  refuse ((o.field "retryable").any (!·.isBool)) (field "retryable deve ser booleano")
  ["heartbeat", "started_at", "finished_at"].forM (fun name =>
    refuse ((o.field name).any (!·.isNumberOrNull))
      (field name ++ " deve ser número ou null"))

/-- `snapshot.get("status", snapshot.get("state"))`, `null` if there is neither. -/
def recordStatus (o : Obj) : Json := (o.field "status").getD ((o.field "state").getD .null)

def validState (v : Json) : Bool :=
  match v with
  | .null => true
  | .str s => s ∈ lifecycleStates
  | _ => false

def validateLifecycle (id : String) (snapshot : Json) : Except CheckpointError Unit := do
  refuse (blankKey id) "lifecycle contém task id inválido"
  match snapshot with
  | .obj o =>
    validateName ("lifecycle." ++ id) "task_id" id o
    refuse (!validState (recordStatus o))
      ("estado inválido para task " ++ id ++ ": " ++ reprValue (recordStatus o))
    validateLifecycleFields id o
  | _ => .error ⟨"lifecycle." ++ id ++ " deve ser objeto"⟩

namespace Checkpoint

/-- `validate`. -/
def validate (c : Checkpoint) : Except CheckpointError Unit := do
  refuse (!(c.schemaVersion matches .int 1))
    ("schema_version incompatível: " ++ reprValue c.schemaVersion)
  refuse (!c.feature.nonblank) "feature deve ser string não vazia"
  refuse (!c.wave.isIntFrom 0) "wave deve ser inteiro >= 0"
  refuse (!c.createdAt.nonblank) "created_at deve ser string não vazia"
  refuse (!(c.reports.isList && c.evidence.isList && c.blockers.isList))
    "reports, evidence e blockers devem ser listas"
  c.tasks.forM (fun e => validateTask e.1 e.2)
  c.lifecycle.forM (fun e => validateLifecycle e.1 e.2)

/-- The mapping that `to_dict` builds. -/
def fields (c : Checkpoint) : Obj :=
  [("schema_version",c.schemaVersion), ("feature",c.feature), ("wave",c.wave),
    ("tasks",.obj c.tasks), ("lifecycle",.obj c.lifecycle), ("reports",c.reports),
    ("evidence",c.evidence), ("blockers",c.blockers), ("created_at",c.createdAt)]

/-- `to_dict`. -/
def toDict (c : Checkpoint) : Except CheckpointError Json := do
  c.validate
  return .obj c.fields

end Checkpoint

section

variable {id : String} {v : Json} {t o : Obj} {c : Checkpoint}

theorem isStr_iff {k : String} : v.isStr k = true ↔ v = .str k := by
  cases v <;> simp [Json.isStr]

theorem validateName_ok (place : String) {key : String} (hid : blankKey id = false) :
    validateName place key id o = .ok () ↔ ∀ w, o.field key = some w → w = .str id := by
  rw [validateName]
  cases o.field key with
  | none => simp [pure, Except.pure]
  | some w =>
    constructor
    · intro h u hu
      obtain ⟨_,-,h⟩ := ok_of_bind h
      cases hu
      simpa [isStr_iff] using h
    · intro h
      obtain rfl := h w rfl
      have hn : (Json.str id).nonblank = true := by simpa [blankKey] using hid
      simp [hn, refuse, Json.isStr, bind, Except.bind]

theorem validateTask_ok : validateTask id v = .ok () ↔
    blankKey id = false ∧ ∃ t, v = .obj t ∧ ∀ w, Obj.field t "id" = some w → w = .str id := by
  constructor
  · intro h
    obtain ⟨_,h1,h⟩ := ok_of_bind h
    rw [refuse_ok] at h1
    cases v with
    | obj t => exact ⟨h1,t,rfl,(validateName_ok _ h1).mp h⟩
    | _ => cases h
  · rintro ⟨h1,t,rfl,h⟩
    simp only [validateTask, h1]
    exact (validateName_ok _ h1).mpr h

theorem validateLifecycle_ok : validateLifecycle id v = .ok () ↔
    blankKey id = false ∧ ∃ o, v = .obj o ∧
      (∀ w, Obj.field o "task_id" = some w → w = .str id) ∧
      validState (recordStatus o) = true ∧ validateLifecycleFields id o = .ok () := by
  constructor
  · intro h
    obtain ⟨_,h1,h⟩ := ok_of_bind h
    rw [refuse_ok] at h1
    cases v with
    | obj o =>
      obtain ⟨_,h2,h⟩ := ok_of_bind h
      obtain ⟨_,h3,h⟩ := ok_of_bind h
      exact ⟨h1,o,rfl,(validateName_ok _ h1).mp h2,by simpa using h3,h⟩
    | _ => cases h
  · rintro ⟨h1,o,rfl,h2,h3,h4⟩
    have hname := (validateName_ok ("lifecycle." ++ id) h1).mpr h2
    simp only [validateLifecycle, h1, hname, h3, h4]
    rfl

theorem validate_ok : c.validate = .ok () ↔
    c.schemaVersion = .int 1 ∧ c.feature.nonblank = true ∧ c.wave.isIntFrom 0 = true ∧
      c.createdAt.nonblank = true ∧
      (c.reports.isList && c.evidence.isList && c.blockers.isList) = true ∧
      (∀ e ∈ c.tasks, validateTask e.1 e.2 = .ok ()) ∧
      ∀ e ∈ c.lifecycle, validateLifecycle e.1 e.2 = .ok () := by
  rw [← forM_ok, ← forM_ok]
  constructor
  · intro h
    obtain ⟨_,h1,h⟩ := ok_of_bind h
    obtain ⟨_,h2,h⟩ := ok_of_bind h
    obtain ⟨_,h3,h⟩ := ok_of_bind h
    obtain ⟨_,h4,h⟩ := ok_of_bind h
    obtain ⟨_,h5,h⟩ := ok_of_bind h
    obtain ⟨_,h6,h7⟩ := ok_of_bind h
    rw [refuse_ok] at h1 h2 h3 h4 h5
    refine ⟨?_,by simpa using h2,by simpa using h3,by simpa using h4,by simpa using h5,h6,h7⟩
    revert h1
    split <;> simp_all
  · rintro ⟨h1,h2,h3,h4,h5,h6,h7⟩
    simp only [Checkpoint.validate, h1, h2, h3, h4, h5, h6, h7]
    rfl

end

/-! ## Reading a mapping -/

/-- `_task_mapping`. -/
def taskMapping : Option Json → Except CheckpointError Obj
  | none | some .null => .ok []
  | some (.obj kvs) => do
    refuse (kvs.any (fun e => blankKey e.1)) "tasks contém task id inválido"
    return kvs
  | some (.arr xs) => xs.foldlM (fun result item =>
      match item with
      | .obj o =>
        match Obj.field o "id" with
        | none | some .null => .error ⟨"tasks contém registro sem id"⟩
        | some (.str id) => do
          refuse (blankKey id) "tasks contém id inválido"
          return Obj.put result id (.obj o)
        | some _ => .error ⟨"tasks contém id inválido"⟩
      | .str id => do
        refuse (blankKey id) "tasks contém registro sem id"
        return Obj.put result id (.obj [("id",.str id)])
      | _ => .error ⟨"tasks contém registro sem id"⟩) []
  | some _ => .error ⟨"tasks deve ser objeto ou lista"⟩

/-- `_lifecycle_mapping`. -/
def lifecycleMapping : Option Json → Except CheckpointError Obj
  | none | some .null => .ok []
  | some (.obj kvs) => do
    kvs.forM (fun e => do
      refuse (blankKey e.1) "lifecycle contém task id inválido"
      refuse (!e.2.isDict) ("lifecycle." ++ e.1 ++ " deve ser objeto"))
    return kvs
  | some (.arr xs) => xs.foldlM (fun result item =>
      match item with
      | .obj o =>
        match (Obj.field o "task_id").getD ((Obj.field o "id").getD .null) with
        | .null => .error ⟨"lifecycle contém registro sem task_id"⟩
        | .str id => do
          refuse (blankKey id) "lifecycle contém task_id inválido"
          return Obj.put result id (.obj o)
        | _ => .error ⟨"lifecycle contém task_id inválido"⟩
      | _ => .error ⟨"lifecycle contém registro sem task_id"⟩) []
  | some _ => .error ⟨"lifecycle deve ser objeto ou lista"⟩

/-- `_snapshot`, of a mapping. -/
def snapshotOf (id : String) (o : Obj) : Obj :=
  let result := o.putDefault "task_id" (.str id)
  match result.field "state" with
  | some st => if result.has "status" then result else result.put "status" st
  | none => result

/-- The lifecycle that older producers carried in their task records. -/
def inlineLifecycle (tasks : Obj) : Obj :=
  tasks.filterMap (fun e => match e.2 with
    | .obj t => if Obj.has t "status" || Obj.has t "state" then some (e.1,.obj (snapshotOf e.1 t)) else none
    | _ => none)

namespace Checkpoint

variable (iso : String)

/-- `__post_init__`. -/
def postInit (c : Checkpoint) : Except CheckpointError Checkpoint := do
  let tasks ← taskMapping (some (.obj c.tasks))
  let lifecycle ← lifecycleMapping (some (.obj c.lifecycle))
  let c := { c with tasks := tasks, lifecycle := lifecycle,
                    createdAt := if c.createdAt.truth then c.createdAt else .str iso }
  c.validate
  return c

/-- `from_dict`. -/
def fromDict (value : Json) : Except CheckpointError Checkpoint := do
  match value with
  | .obj data =>
    let data : Obj := data
    let tasks ← taskMapping (data.field "tasks")
    let lifecycle ← lifecycleMapping (data.field "lifecycle")
    postInit iso
      { schemaVersion := (data.field "schema_version").getD (.int 1)
        feature := (data.field "feature").getD (.str "")
        wave := (data.field "wave").getD (.int 0)
        tasks := tasks
        lifecycle := if lifecycle.isEmpty then inlineLifecycle tasks else lifecycle
        reports := (data.field "reports").getD (.arr [])
        evidence := (data.field "evidence").getD (.arr [])
        blockers := (data.field "blockers").getD (.arr [])
        createdAt := (data.field "created_at").getD (.str "") }
  | _ => .error ⟨"checkpoint deve ser um objeto JSON"⟩

end Checkpoint

section

variable {iso : String} {kvs r : Obj} {c : Checkpoint}

theorem taskMapping_obj : taskMapping (some (.obj kvs)) = .ok r ↔
    (∀ e ∈ kvs, blankKey e.1 = false) ∧ r = kvs := by
  have hany : kvs.any (fun e => blankKey e.1) = false ↔ ∀ e ∈ kvs, blankKey e.1 = false := by
    simp
  rw [taskMapping, ← hany]
  constructor
  · intro h
    obtain ⟨_,h1,h⟩ := ok_of_bind h
    cases h
    exact ⟨refuse_ok.mp h1,rfl⟩
  · rintro ⟨h,rfl⟩
    rw [h]
    rfl

theorem lifecycleMapping_obj : lifecycleMapping (some (.obj kvs)) = .ok r ↔
    (∀ e ∈ kvs, blankKey e.1 = false ∧ e.2.isDict = true) ∧ r = kvs := by
  have hall : (kvs.forM (fun e => do
      refuse (blankKey e.1) "lifecycle contém task id inválido"
      refuse (!e.2.isDict) ("lifecycle." ++ e.1 ++ " deve ser objeto"))) = .ok () ↔
      ∀ e ∈ kvs, blankKey e.1 = false ∧ e.2.isDict = true := by
    rw [forM_ok]
    apply forall₂_congr
    intro e _
    constructor
    · intro h
      obtain ⟨_,h1,h2⟩ := ok_of_bind h
      exact ⟨refuse_ok.mp h1,by simpa using h2⟩
    · rintro ⟨h1,h2⟩
      rw [h1, h2]
      rfl
  rw [lifecycleMapping, ← hall]
  constructor
  · intro h
    obtain ⟨_,h1,h⟩ := ok_of_bind h
    cases h
    exact ⟨h1,rfl⟩
  · rintro ⟨h,rfl⟩
    rw [h]
    rfl

/-- The checkpoint that is made of its own mapping. -/
def Checkpoint.withInline (c : Checkpoint) : Checkpoint :=
  { c with lifecycle := if c.lifecycle.isEmpty then inlineLifecycle c.tasks else c.lifecycle }

theorem truth_of_nonblank {v : Json} (h : v.nonblank = true) : v.truth = true := by
  cases v with
  | str s =>
    simp only [Json.truth, decide_eq_true_eq]
    rintro rfl
    cases h
  | _ => cases h

/-- The keys of a valid checkpoint pass the two mappings. -/
theorem mappings_of_validate (h : c.validate = .ok ()) :
    taskMapping (some (.obj c.tasks)) = .ok c.tasks ∧
      lifecycleMapping (some (.obj c.lifecycle)) = .ok c.lifecycle := by
  obtain ⟨-,-,-,-,-,ht,hl⟩ := validate_ok.mp h
  constructor
  · rw [taskMapping_obj]
    exact ⟨fun e he => (validateTask_ok.mp (ht e he)).1,rfl⟩
  · rw [lifecycleMapping_obj]
    refine ⟨fun e he => ?_,rfl⟩
    obtain ⟨h1,o,h2,-⟩ := validateLifecycle_ok.mp (hl e he)
    exact ⟨h1,by rw [h2]; rfl⟩

theorem postInit_ok (iso : String) (hc : c.createdAt.nonblank = true) :
    (∃ u, c.postInit iso = .ok u) ↔ c.validate = .ok () := by
  constructor
  · rintro ⟨u,h⟩
    obtain ⟨tasks,h1,h⟩ := ok_of_bind h
    obtain ⟨lifecycle,h2,h⟩ := ok_of_bind h
    obtain ⟨_,h3,-⟩ := ok_of_bind h
    obtain ⟨-,rfl⟩ := taskMapping_obj.mp h1
    obtain ⟨-,rfl⟩ := lifecycleMapping_obj.mp h2
    rw [truth_of_nonblank hc, if_pos rfl] at h3
    exact h3
  · intro h
    obtain ⟨h1,h2⟩ := mappings_of_validate h
    refine ⟨c,?_⟩
    simp only [Checkpoint.postInit, h1, h2, truth_of_nonblank hc, if_true, bind, Except.bind]
    rw [h]
    rfl

/-- A mapping that a checkpoint has built is read if and only if the checkpoint is valid
with the lifecycle of its task records in it. -/
theorem fromDict_fields (iso : String) (hc : c.createdAt.nonblank = true) :
    (∃ u, Checkpoint.fromDict iso (.obj c.fields) = .ok u) ↔ c.withInline.validate = .ok () := by
  have hread : Checkpoint.fromDict iso (.obj c.fields) = (do
      let tasks ← taskMapping (some (.obj c.tasks))
      let lifecycle ← lifecycleMapping (some (.obj c.lifecycle))
      Checkpoint.postInit iso { c with
        tasks := tasks
        lifecycle := if lifecycle.isEmpty then inlineLifecycle tasks else lifecycle }) := rfl
  rw [hread, ← postInit_ok iso (c := c.withInline) hc]
  constructor
  · rintro ⟨u,h⟩
    obtain ⟨tasks,h1,h⟩ := ok_of_bind h
    obtain ⟨lifecycle,h2,h⟩ := ok_of_bind h
    obtain ⟨-,rfl⟩ := taskMapping_obj.mp h1
    obtain ⟨-,rfl⟩ := lifecycleMapping_obj.mp h2
    exact ⟨u,h⟩
  · rintro ⟨u,h⟩
    obtain ⟨h1,h2⟩ := mappings_of_validate ((postInit_ok iso (c := c.withInline) hc).mp ⟨u,h⟩)
    have h3 : lifecycleMapping (some (.obj c.lifecycle)) = .ok c.lifecycle := by
      cases hl : c.lifecycle with
      | nil => rfl
      | cons e l => simpa [Checkpoint.withInline, hl] using h2
    refine ⟨u,?_⟩
    have h1' : taskMapping (some (.obj c.tasks)) = .ok c.tasks := h1
    rw [h1', h3]
    exact h

end

end PdFleet
