import PdFleet.Lib.Verdict
import PdFleet.Snapshot

/-!
# The reader's checks

`_validate` with its helpers, as a reader that returns the typed snapshot it
accepts. A check that raises outside the `try` of the source raises here. The
accepted snapshots are exactly the valid ones, and a sealed valid snapshot is
read back as itself.
-/

set_option autoImplicit false

namespace PdFleet

open Verdict

/-- What the run store calls outside its own module: the canonical form of a
plan, and the word characters beyond ASCII that the pattern `\w` matches. -/
structure Deps where
  canonicalize : Obj → Except PyError Obj
  isWord : Char → Bool

def planHashDomain : String := "pd-fleet-plan:v2\x00"

/-- `contracts.plan_hash`. -/
def planHash (D : Deps) (plan : Obj) : Except PyError String :=
  match D.canonicalize plan with
  | .ok c => .ok (sha256Hex (planHashDomain ++ dumps (.obj c)))
  | .error .typeError | .error .valueError => .error .valueError
  | .error e => .error e

/-! ## Reading values -/

namespace Json

def object? : Json → Option Obj
  | .obj kvs => some kvs
  | _ => none

def text? : Json → Option String
  | .str s => some s
  | _ => none

def nat? : Json → Option ℕ
  | .int n => if 0 ≤ n then some n.toNat else none
  | _ => none

end Json

def readObject (v : Json) : Verdict PyError Obj := ofOption v.object?

def readText (v : Json) : Verdict PyError String := ofOption v.text?

def readNat (v : Json) : Verdict PyError ℕ := ofOption v.nat?

/-- A status that hashes and belongs to the set of names that `read` knows. -/
def readStatus {α : Type} (read : String → Option α) (v : Json) : Verdict PyError α :=
  match v with
  | .str s => ofOption (read s)
  | .arr _ | .obj _ => raise .typeError
  | _ => reject

def readRows : Json → Verdict PyError Rows
  | .arr xs => do
    let rows ← each readObject xs
    return .list rows
  | .obj [] => accept .dict
  | .obj _ => reject
  | _ => raise .typeError

/-- The entries of a mapping; a list has no `items`. -/
def readDict {α : Type} (read : String → Json → Verdict PyError α) :
    Json → Verdict PyError (Dict String α)
  | .obj kvs => do
    let l ← each (fun e => do
      let a ← read e.1 e.2
      return (e.1,a)) kvs
    return Dict.ofFields l
  | _ => raise .attributeError

/-! ## Records -/

def reportFields : List String :=
  ["status", "outputs", "evidence", "tests", "validation", "decision", "started_at",
    "completed_at", "reason", "error", "blocker"]

/-- `report.get(key) not in (None, "", [], {})`. -/
def supplied (report : Obj) (key : String) : Bool := (report.field key).any Json.present

/-- `_valid_report`. -/
def validReport (report : Obj) (status : ReportStatus) : Bool :=
  report.all (fun e => e.1 ∈ reportFields) &&
  (report.field "status").any (fun v => v.isStr status.text) &&
  ["started_at", "completed_at"].all (fun k => (report.field k).all isClock) &&
  (if status = .completed then
    supplied report "outputs" && supplied report "evidence" &&
    (supplied report "tests" || supplied report "validation") && supplied report "decision" &&
    ["started_at", "completed_at"].all report.has
  else ["reason", "error", "blocker"].any (supplied report))

def reportDigest (report : Obj) : String := sha256Hex (dumps (.obj report))

/-- `_valid_report_record`. -/
def readReportRecord (v : Json) : Verdict PyError ReportRecord := do
  let o ← readObject v
  require (o.hasExactly ["status", "report", "digest", "attempt", "lease_id",
    "lease_generation"])
  let get := fun k => (o.field k).getD .null
  let status ← readStatus ReportStatus.ofText (get "status")
  let report ← readObject (get "report")
  require (report.all (fun e => e.1 ∈ reportFields))
  let attempt ← readNat (get "attempt")
  require (1 ≤ attempt)
  let leaseId ← readText (get "lease_id")
  require (isId leaseId)
  let leaseGeneration ← readNat (get "lease_generation")
  let digest ← readText (get "digest")
  require (isHex64 digest)
  require (reportDigest report = digest && validReport report status)
  return ⟨status, report, digest, attempt, leaseId, leaseGeneration⟩

/-- `_valid_event`, of a mapping. -/
def validEvent (event : Obj) : Bool :=
  (event.field "sequence").any (Json.isIntFrom 1) &&
  (event.field "event_id").any (fun v => v.text?.any isId) &&
  (event.field "ordering_key").any (fun v => v.text?.any (· ≠ "")) &&
  (event.field "generation").all (Json.isIntFrom 0) &&
  (event.field "metadata").all Json.isDict

def sequence (event : Obj) : ℤ :=
  match event.field "sequence" with
  | some (.int n) => n
  | _ => 0

/-- `list(range(1, n + 1))`. -/
def sequencesTo (n : ℕ) : List ℤ := (List.range n).map (fun i : ℕ => (i:ℤ)+1)

def readTask (v : Json) : Verdict PyError Obj := do
  let o ← readObject v
  match o.field "status" with
  | none => return o
  | some w =>
    let _ ← readStatus TaskStatus.ofText w
    return o

def readLease (taskId : String) (v : Json) : Verdict PyError Lease := do
  require (isId taskId)
  let o ← readObject v
  require (o.hasExactly ["owner", "lease_id", "expires_at", "generation"])
  let get := fun k => (o.field k).getD .null
  let owner ← readText (get "owner")
  require (isId owner)
  let leaseId ← readText (get "lease_id")
  require (isId leaseId)
  let expiresAt ← readText (get "expires_at")
  let generation ← readNat (get "generation")
  require (isClock (.str expiresAt))
  return ⟨owner, leaseId, expiresAt, generation⟩

def readReport (taskId : String) (v : Json) : Verdict PyError ReportRecord := do
  require (isId taskId)
  readReportRecord v

/-- The exceptions that `_validate` turns into a refusal. -/
def refused : PyError → Bool
  | .typeError | .valueError | .keyError | .jsonDecode => true
  | e => e.runStoreText.isSome

def orRefuse {α : Type} : Except PyError α → Verdict PyError α
  | .ok a => accept a
  | .error e => if refused e then reject else raise e

/-- `_validate`. -/
def validate (D : Deps) (data : Json) (rid : String) : Verdict PyError Snapshot := do
  let o ← readObject data
  let d ← ofOption (Document.ofObj o)
  require (d.schemaVersion.isStr schemaVersion && d.runId.isStr rid)
  let generation ← readNat d.generation
  let eventSequence ← readNat d.eventSequence
  let owner ← readText d.owner
  require (isId owner)
  let status ← readStatus RunStatus.ofText d.status
  let updatedAt ← readText d.updatedAt
  let plan ← readObject d.plan
  let storedHash ← readText d.planHash
  require ([d.waves, d.tasks, d.leases, d.attempts, d.checkpoints, d.reports, d.events,
    d.gates, d.metrics, d.audit].all Json.isContainer)
  let hash ← orRefuse (planHash D plan)
  require (hash = storedHash)
  require (isClock (.str updatedAt))
  require ((o.field "checksum").any (fun v => v.isStr (checksum o)))
  let waves ← readRows d.waves
  let tasks ← readDict (fun _ => readTask) d.tasks
  let leases ← readDict readLease d.leases
  let attempts ← readDict (fun _ => readNat) d.attempts
  let checkpoints ← readDict (fun _ => readObject) d.checkpoints
  let reports ← readDict readReport d.reports
  let events ← readRows d.events
  require (events.items.all validEvent)
  require (events.items.map sequence = sequencesTo eventSequence)
  return { runId := rid, planHash := hash, plan := plan, generation := generation,
           owner := owner, status := status, waves := waves, tasks := tasks,
           leases := leases, attempts := attempts, checkpoints := checkpoints,
           reports := reports, events := events, gates := d.gates, metrics := d.metrics,
           audit := d.audit, eventSequence := eventSequence, updatedAt := updatedAt }

/-! ## Valid snapshots -/

def Lease.Valid (l : Lease) : Prop :=
  isId l.owner ∧ isId l.leaseId ∧ (utcInstant l.expiresAt).isSome

structure ReportRecord.Valid (r : ReportRecord) : Prop where
  attempt : 1 ≤ r.attempt
  leaseId : isId r.leaseId
  digest : r.digest = reportDigest r.report
  report : validReport r.report r.status

/-- The status of a task, if it has one, is a status of tasks. -/
def TaskValid (task : Obj) : Prop :=
  ∀ v, task.field "status" = some v → ∃ st : TaskStatus, v = .str st.text

/-- Everything that the reader asks of a snapshot but its events. -/
structure Snapshot.Sound (D : Deps) (rid : String) (s : Snapshot) : Prop where
  run : s.runId = rid
  owner : isId s.owner
  hash : PdFleet.planHash D s.plan = .ok s.planHash
  updated : (utcInstant s.updatedAt).isSome
  gates : s.gates.isContainer
  metrics : s.metrics.isContainer
  audit : s.audit.isContainer
  tasks : ∀ k t, s.tasks.lookup k = some t → TaskValid t
  leases : ∀ k l, s.leases.lookup k = some l → isId k ∧ l.Valid
  reports : ∀ k r, s.reports.lookup k = some r → isId k ∧ r.Valid

def Snapshot.logged (s : Snapshot) : Bool :=
  s.events.items.all validEvent && s.events.items.map sequence = sequencesTo s.eventSequence

structure Snapshot.Valid (D : Deps) (rid : String) (s : Snapshot) : Prop extends
    Snapshot.Sound D rid s where
  logged : s.logged

/-! ## What is written is read back -/

@[simp] theorem readObject_obj (o : Obj) : readObject (.obj o) = accept o := rfl

theorem readObject_eq_accept {v : Json} {o : Obj} : readObject v = accept o ↔ v = .obj o := by
  rw [readObject, ofOption_eq_accept]
  cases v <;> simp [Json.object?]

@[simp] theorem readText_str (t : String) : readText (.str t) = accept t := rfl

@[simp] theorem readNat_int (n : ℕ) : readNat (.int n) = accept n := by
  simp [readNat, Json.nat?, ofOption]

theorem isClock_str (s : String) : isClock (.str s) = (utcInstant s).isSome := by
  cases h : utcInstant s <;> simp [isClock, clockValue, h]

theorem readRows_json (r : Rows) : readRows r.json = accept r := by
  cases r with
  | dict => rfl
  | list rows =>
    have h : each (ε := PyError) readObject (rows.map Json.obj) = accept rows := by
      rw [each_eq_accept, List.forall₂_map_left_iff]
      exact List.forall₂_same.mpr (fun o _ => readObject_obj o)
    rw [Rows.json, readRows, h]
    rfl

theorem readDict_encodeDict {α : Type} {read : String → Json → Verdict PyError α}
    {f : α → Json} {d : Dict String α}
    (h : ∀ k a, d.lookup k = some a → read k (f a) = accept a) :
    readDict read (encodeDict f d) = accept d := by
  have he : each (fun e : String × Json => do
      let a ← read e.1 e.2
      return (e.1,a)) (d.toFields.map (fun e => (e.1, f e.2))) = accept d.toFields := by
    rw [each_eq_accept, List.forall₂_map_left_iff]
    refine List.forall₂_same.mpr ?_
    rintro ⟨k,a⟩ hm
    simp only [h k a ((Dict.mem_toFields d k a).mp hm), accept_bind, pure_eq]
  rw [encodeDict, readDict, he]
  simp only [accept_bind, pure_eq, Dict.ofFields_toFields]

theorem readTask_obj {t : Obj} (h : TaskValid t) : readTask (.obj t) = accept t := by
  simp only [readTask, readObject_obj, accept_bind]
  cases hf : t.field "status" with
  | none => rfl
  | some v =>
    obtain ⟨st,rfl⟩ := h v hf
    simp [readStatus, ofOption]

theorem readLease_toObj {k : String} {l : Lease} (hk : isId k) (h : l.Valid) :
    readLease k (.obj l.toObj) = accept l := by
  obtain ⟨ho,hl,he⟩ := h
  have hx : l.toObj.hasExactly ["owner", "lease_id", "expires_at", "generation"] = true := rfl
  have h₁ : l.toObj.field "owner" = some (.str l.owner) := rfl
  have h₂ : l.toObj.field "lease_id" = some (.str l.leaseId) := rfl
  have h₃ : l.toObj.field "expires_at" = some (.str l.expiresAt) := rfl
  have h₄ : l.toObj.field "generation" = some (.int l.generation) := rfl
  simp only [readLease, hk, readObject_obj, hx, h₁, h₂, h₃, h₄, Option.getD_some, readText_str,
    readNat_int, ho, hl, isClock_str, he, require_true, accept_bind, pure_eq]

theorem readReport_toObj {k : String} {r : ReportRecord} (hk : isId k) (h : r.Valid) :
    readReport k (.obj r.toObj) = accept r := by
  have hx : r.toObj.hasExactly ["status", "report", "digest", "attempt", "lease_id",
    "lease_generation"] = true := rfl
  have h₁ : r.toObj.field "status" = some (.str r.status.text) := rfl
  have h₂ : r.toObj.field "report" = some (.obj r.report) := rfl
  have h₃ : r.toObj.field "digest" = some (.str r.digest) := rfl
  have h₄ : r.toObj.field "attempt" = some (.int r.attempt) := rfl
  have h₅ : r.toObj.field "lease_id" = some (.str r.leaseId) := rfl
  have h₆ : r.toObj.field "lease_generation" = some (.int r.leaseGeneration) := rfl
  have hf : r.report.all (fun e => e.1 ∈ reportFields) = true := by
    have hr := h.report
    simp only [validReport, Bool.and_eq_true] at hr
    exact hr.1.1.1
  have hd : isHex64 (reportDigest r.report) = true := sha256_hex64 _
  have ha : decide (1 ≤ r.attempt) = true := decide_eq_true h.attempt
  simp only [readReport, readReportRecord, hk, readObject_obj, hx, h₁, h₂, h₃, h₄, h₅, h₆,
    Option.getD_some, readStatus, ReportStatus.ofText_text, readText_str, readNat_int, ofOption,
    hf, h.leaseId, h.digest, h.report, hd, ha, decide_true, Bool.and_self, require_true,
    accept_bind, pure_eq]
  rw [← h.digest]

theorem isContainer_encodeDict {α : Type} (f : α → Json) (d : Dict String α) :
    (encodeDict f d).isContainer = true := rfl

theorem isContainer_rows (r : Rows) : r.json.isContainer = true := by
  cases r <;> rfl

/-- A sealed snapshot that is sound up to its events is read back as itself,
or refused for its events. -/
theorem validate_sealed {D : Deps} {rid : String} {s : Snapshot} (h : s.Sound D rid) :
    validate D (.obj s.document.sealed) rid = if s.logged then accept s else reject := by
  have hstatus : readStatus RunStatus.ofText s.document.status = accept s.status := by
    simp [Snapshot.document, readStatus, ofOption]
  have hcontainers : [s.document.waves, s.document.tasks, s.document.leases,
      s.document.attempts, s.document.checkpoints, s.document.reports, s.document.events,
      s.document.gates, s.document.metrics, s.document.audit].all Json.isContainer = true := by
    simp [Snapshot.document, isContainer_encodeDict, isContainer_rows, h.gates, h.metrics,
      h.audit]
  have htasks : readDict (fun _ => readTask) s.document.tasks = accept s.tasks :=
    readDict_encodeDict (fun k t ht => readTask_obj (h.tasks k t ht))
  have hleases : readDict readLease s.document.leases = accept s.leases :=
    readDict_encodeDict (fun k l hl =>
      readLease_toObj (h.leases k l hl).1 (h.leases k l hl).2)
  have hattempts : readDict (fun _ => readNat) s.document.attempts =
      accept s.attempts :=
    readDict_encodeDict (fun _ n _ => readNat_int n)
  have hcheckpoints : readDict (fun _ => readObject) s.document.checkpoints =
      accept s.checkpoints :=
    readDict_encodeDict (fun _ o _ => readObject_obj o)
  have hreports : readDict readReport s.document.reports = accept s.reports :=
    readDict_encodeDict (fun k r hr =>
      readReport_toObj (h.reports k r hr).1 (h.reports k r hr).2)
  have hevents : readRows s.document.events = accept s.events := readRows_json _
  have hwaves : readRows s.document.waves = accept s.waves := readRows_json _
  have hhead : (s.document.schemaVersion.isStr schemaVersion && s.document.runId.isStr rid) =
      true := by
    simp [Snapshot.document, Json.isStr, h.run]
  have hsum : (Option.any (fun v : Json => v.isStr (checksum s.document.sealed))
      (s.document.sealed.field "checksum")) = true := by
    rw [field_sealed_checksum, checksum_sealed]
    simp [Json.isStr]
  have hgen : readNat s.document.generation = accept s.generation := readNat_int _
  have hseq : readNat s.document.eventSequence = accept s.eventSequence := readNat_int _
  have howner : readText s.document.owner = accept s.owner := rfl
  have hupdated : readText s.document.updatedAt = accept s.updatedAt := rfl
  have hplan : readObject s.document.plan = accept s.plan := rfl
  have hstored : readText s.document.planHash = accept s.planHash := rfl
  have hhash : orRefuse (planHash D s.plan) = accept s.planHash := by rw [h.hash]; rfl
  simp only [validate, readObject_obj, ofObj_sealed, hhead, hgen, hseq, howner, h.owner,
    hstatus, hupdated, hplan, hstored, hcontainers, hhash, isClock_str, h.updated, hsum,
    hwaves, htasks, hleases, hattempts, hcheckpoints, hreports, hevents, ofOption,
    decide_true, require_true, accept_bind, pure_eq, Snapshot.logged]
  by_cases he : s.events.items.all validEvent = true
  · by_cases hq : s.events.items.map sequence = sequencesTo s.eventSequence
    · simp only [he, hq, decide_true, Bool.and_self, require_true, accept_bind, if_true]
      rw [← h.run]
      rfl
    · simp [he, hq]
  · simp [he]

theorem validate_sealed_of_valid {D : Deps} {rid : String} {s : Snapshot}
    (h : s.Valid D rid) : validate D (.obj s.document.sealed) rid = accept s := by
  rw [validate_sealed h.toSound, if_pos h.logged]

/-! ## What is accepted is valid -/

theorem of_readStatus {α : Type} {read : String → Option α} {v : Json} {a : α}
    (h : readStatus read v = accept a) : ∃ t, v = .str t ∧ read t = some a := by
  cases v with
  | str t => exact ⟨t,rfl,ofOption_eq_accept.mp h⟩
  | null => cases h
  | bool b => cases h
  | int n => cases h
  | float r => cases h
  | arr xs => cases h
  | obj kvs => cases h

theorem TaskStatus.text_of_ofText {t : String} {st : TaskStatus} (h : ofText t = some st) :
    st.text = t := by
  simpa using List.find?_some h

theorem of_readDict {α : Type} {read : String → Json → Verdict PyError α} {v : Json}
    {d : Dict String α} (h : readDict read v = accept d) (k : String) (a : α)
    (hk : d.lookup k = some a) : ∃ w, read k w = accept a := by
  cases v with
  | obj kvs =>
    obtain ⟨l,hl,hd⟩ := bind_eq_accept.mp h
    cases hd
    obtain ⟨e,-,he⟩ := exists_of_mem_each hl (Dict.mem_of_lookup_ofFields hk)
    obtain ⟨b,hb,hp⟩ := bind_eq_accept.mp he
    simp only [pure_eq, accept.injEq, Prod.mk.injEq] at hp
    obtain ⟨rfl,rfl⟩ := hp
    exact ⟨e.2,hb⟩
  | null => cases h
  | bool b => cases h
  | int n => cases h
  | float r => cases h
  | str t => cases h
  | arr xs => cases h

theorem of_readTask {v : Json} {t : Obj} (h : readTask v = accept t) : TaskValid t := by
  obtain ⟨o,ho,h⟩ := bind_eq_accept.mp h
  cases hf : o.field "status" with
  | none =>
    rw [hf] at h
    cases h
    intro v hv
    rw [hf] at hv
    cases hv
  | some w =>
    rw [hf] at h
    obtain ⟨st,hst,h⟩ := bind_eq_accept.mp h
    cases h
    obtain ⟨text,rfl,hr⟩ := of_readStatus hst
    intro v hv
    rw [hf, Option.some.injEq] at hv
    exact ⟨st,by rw [← hv, TaskStatus.text_of_ofText hr]⟩

theorem of_readLease {k : String} {v : Json} {l : Lease} (h : readLease k v = accept l) :
    isId k ∧ l.Valid := by
  obtain ⟨_,hk,h⟩ := bind_eq_accept.mp h
  obtain ⟨o,-,h⟩ := bind_eq_accept.mp h
  obtain ⟨_,-,h⟩ := bind_eq_accept.mp h
  obtain ⟨owner,-,h⟩ := bind_eq_accept.mp h
  obtain ⟨_,ho,h⟩ := bind_eq_accept.mp h
  obtain ⟨leaseId,-,h⟩ := bind_eq_accept.mp h
  obtain ⟨_,hl,h⟩ := bind_eq_accept.mp h
  obtain ⟨expiresAt,-,h⟩ := bind_eq_accept.mp h
  obtain ⟨generation,-,h⟩ := bind_eq_accept.mp h
  obtain ⟨_,hc,h⟩ := bind_eq_accept.mp h
  cases h
  rw [require_eq_accept] at hk ho hl hc
  exact ⟨hk,ho,hl,by rw [← isClock_str]; exact hc⟩

theorem of_readReport {k : String} {v : Json} {r : ReportRecord}
    (h : readReport k v = accept r) : isId k ∧ r.Valid := by
  obtain ⟨_,hk,h⟩ := bind_eq_accept.mp h
  obtain ⟨o,-,h⟩ := bind_eq_accept.mp h
  obtain ⟨_,-,h⟩ := bind_eq_accept.mp h
  obtain ⟨status,-,h⟩ := bind_eq_accept.mp h
  obtain ⟨report,-,h⟩ := bind_eq_accept.mp h
  obtain ⟨_,-,h⟩ := bind_eq_accept.mp h
  obtain ⟨attempt,-,h⟩ := bind_eq_accept.mp h
  obtain ⟨_,ha,h⟩ := bind_eq_accept.mp h
  obtain ⟨leaseId,-,h⟩ := bind_eq_accept.mp h
  obtain ⟨_,hl,h⟩ := bind_eq_accept.mp h
  obtain ⟨leaseGeneration,-,h⟩ := bind_eq_accept.mp h
  obtain ⟨digest,-,h⟩ := bind_eq_accept.mp h
  obtain ⟨_,-,h⟩ := bind_eq_accept.mp h
  obtain ⟨_,hr,h⟩ := bind_eq_accept.mp h
  cases h
  rw [require_eq_accept] at hk ha hl hr
  simp only [Bool.and_eq_true, decide_eq_true_eq] at ha hr
  exact ⟨hk,ha,hl,hr.1.symm,hr.2⟩

theorem orRefuse_eq_accept {α : Type} {x : Except PyError α} {a : α}
    (h : orRefuse x = accept a) : x = .ok a := by
  cases x with
  | ok b => cases h; rfl
  | error e =>
    rw [orRefuse] at h
    split at h <;> cases h

theorem readText_eq_accept {v : Json} {t : String} : readText v = accept t ↔ v = .str t := by
  rw [readText, ofOption_eq_accept]
  cases v <;> simp [Json.text?]

/-- An accepted snapshot is valid and has the plan and the hash of the document. -/
theorem of_validate {D : Deps} {data : Json} {rid : String} {s : Snapshot}
    (h : validate D data rid = accept s) :
    s.Valid D rid ∧ ∃ o d, data = .obj o ∧ Document.ofObj o = some d ∧ d.plan = .obj s.plan ∧
      d.planHash = .str s.planHash := by
  obtain ⟨o,ho,h⟩ := bind_eq_accept.mp h
  obtain ⟨d,hd,h⟩ := bind_eq_accept.mp h
  obtain ⟨_,-,h⟩ := bind_eq_accept.mp h
  obtain ⟨generation,-,h⟩ := bind_eq_accept.mp h
  obtain ⟨eventSequence,-,h⟩ := bind_eq_accept.mp h
  obtain ⟨owner,-,h⟩ := bind_eq_accept.mp h
  obtain ⟨_,howner,h⟩ := bind_eq_accept.mp h
  obtain ⟨status,-,h⟩ := bind_eq_accept.mp h
  obtain ⟨updatedAt,-,h⟩ := bind_eq_accept.mp h
  obtain ⟨plan,hplan,h⟩ := bind_eq_accept.mp h
  obtain ⟨storedHash,hstored,h⟩ := bind_eq_accept.mp h
  obtain ⟨_,hcontainers,h⟩ := bind_eq_accept.mp h
  obtain ⟨hash,hhash,h⟩ := bind_eq_accept.mp h
  obtain ⟨_,hsame,h⟩ := bind_eq_accept.mp h
  obtain ⟨_,hclock,h⟩ := bind_eq_accept.mp h
  obtain ⟨_,-,h⟩ := bind_eq_accept.mp h
  obtain ⟨waves,-,h⟩ := bind_eq_accept.mp h
  obtain ⟨tasks,htasks,h⟩ := bind_eq_accept.mp h
  obtain ⟨leases,hleases,h⟩ := bind_eq_accept.mp h
  obtain ⟨attempts,-,h⟩ := bind_eq_accept.mp h
  obtain ⟨checkpoints,-,h⟩ := bind_eq_accept.mp h
  obtain ⟨reports,hreports,h⟩ := bind_eq_accept.mp h
  obtain ⟨events,-,h⟩ := bind_eq_accept.mp h
  obtain ⟨_,hevents,h⟩ := bind_eq_accept.mp h
  obtain ⟨_,hsequences,h⟩ := bind_eq_accept.mp h
  cases h
  rw [require_eq_accept] at howner hcontainers hsame hclock hevents hsequences
  simp only [List.all_cons, List.all_nil, Bool.and_true, Bool.and_eq_true] at hcontainers
  refine ⟨?_,o,d,readObject_eq_accept.mp ho,ofOption_eq_accept.mp hd,
    readObject_eq_accept.mp hplan,?_⟩
  swap
  · rw [readText_eq_accept.mp hstored, ← of_decide_eq_true hsame]
  exact {
    run := rfl
    owner := howner
    hash := orRefuse_eq_accept hhash
    updated := by rw [← isClock_str]; exact hclock
    gates := hcontainers.2.2.2.2.2.2.2.1
    metrics := hcontainers.2.2.2.2.2.2.2.2.1
    audit := hcontainers.2.2.2.2.2.2.2.2.2
    tasks := fun k t ht => by
      obtain ⟨w,hw⟩ := of_readDict htasks k t ht
      exact of_readTask hw
    leases := fun k l hl => by
      obtain ⟨w,hw⟩ := of_readDict hleases k l hl
      exact of_readLease hw
    reports := fun k r hr => by
      obtain ⟨w,hw⟩ := of_readDict hreports k r hr
      exact of_readReport hw
    logged := by
      rw [Snapshot.logged, hevents, hsequences, Bool.and_self] }

theorem valid_of_validate {D : Deps} {data : Json} {rid : String} {s : Snapshot}
    (h : validate D data rid = accept s) : s.Valid D rid := (of_validate h).1

/-! ## A sealed snapshot is read as itself or not at all -/

theorem eq_of_readDict_encodeDict {α : Type} {read : String → Json → Verdict PyError α}
    {f : α → Json} {d m : Dict String α} (hr : ∀ k a b, read k (f a) = accept b → b = a)
    (h : readDict read (encodeDict f d) = accept m) : m = d := by
  obtain ⟨l,hl,hm⟩ := bind_eq_accept.mp h
  cases hm
  rw [each_eq_accept, List.forall₂_map_left_iff] at hl
  have hl' : List.Forall₂ Eq d.toFields l := by
    refine hl.imp ?_
    rintro ⟨k,a⟩ e he
    obtain ⟨b,hb,he⟩ := bind_eq_accept.mp he
    cases he
    rw [hr k a b hb]
  rw [List.forall₂_eq_eq_eq] at hl'
  rw [← hl', Dict.ofFields_toFields]

theorem eq_of_readTask {t u : Obj} (h : readTask (.obj t) = accept u) : u = t := by
  simp only [readTask, readObject_obj, accept_bind] at h
  split at h
  · cases h
    rfl
  · obtain ⟨_,-,h⟩ := bind_eq_accept.mp h
    cases h
    rfl

theorem eq_of_readNat {n m : ℕ} (h : readNat (.int n) = accept m) : m = n := by
  rw [readNat_int] at h
  cases h
  rfl

theorem eq_of_readLease {k : String} {l l' : Lease} (h : readLease k (.obj l.toObj) = accept l') :
    l' = l := by
  have h₁ : l.toObj.field "owner" = some (.str l.owner) := rfl
  have h₂ : l.toObj.field "lease_id" = some (.str l.leaseId) := rfl
  have h₃ : l.toObj.field "expires_at" = some (.str l.expiresAt) := rfl
  have h₄ : l.toObj.field "generation" = some (.int l.generation) := rfl
  simp only [readLease, readObject_obj, h₁, h₂, h₃, h₄, Option.getD_some, readText_str,
    readNat_int, accept_bind] at h
  obtain ⟨_,-,h⟩ := bind_eq_accept.mp h
  obtain ⟨_,-,h⟩ := bind_eq_accept.mp h
  obtain ⟨_,-,h⟩ := bind_eq_accept.mp h
  obtain ⟨_,-,h⟩ := bind_eq_accept.mp h
  obtain ⟨_,-,h⟩ := bind_eq_accept.mp h
  cases h
  rfl

theorem eq_of_readReport {k : String} {r r' : ReportRecord}
    (h : readReport k (.obj r.toObj) = accept r') : r' = r := by
  have h₁ : r.toObj.field "status" = some (.str r.status.text) := rfl
  have h₂ : r.toObj.field "report" = some (.obj r.report) := rfl
  have h₃ : r.toObj.field "digest" = some (.str r.digest) := rfl
  have h₄ : r.toObj.field "attempt" = some (.int r.attempt) := rfl
  have h₅ : r.toObj.field "lease_id" = some (.str r.leaseId) := rfl
  have h₆ : r.toObj.field "lease_generation" = some (.int r.leaseGeneration) := rfl
  simp only [readReport, readReportRecord, readObject_obj, h₁, h₂, h₃, h₄, h₅, h₆, readStatus,
    ReportStatus.ofText_text, ofOption, Option.getD_some, readText_str, readNat_int,
    accept_bind] at h
  obtain ⟨_,-,h⟩ := bind_eq_accept.mp h
  obtain ⟨_,-,h⟩ := bind_eq_accept.mp h
  obtain ⟨_,-,h⟩ := bind_eq_accept.mp h
  obtain ⟨_,-,h⟩ := bind_eq_accept.mp h
  obtain ⟨_,-,h⟩ := bind_eq_accept.mp h
  obtain ⟨_,-,h⟩ := bind_eq_accept.mp h
  obtain ⟨_,-,h⟩ := bind_eq_accept.mp h
  cases h
  rfl

theorem eq_of_validate_sealed {D : Deps} {rid : String} {s s' : Snapshot}
    (h : validate D (.obj s.document.sealed) rid = accept s') : s' = s := by
  have hv := (of_validate h).1
  rw [validate] at h
  simp only [readObject_obj, ofObj_sealed, accept_bind, ofOption] at h
  obtain ⟨_,hrun,h⟩ := bind_eq_accept.mp h
  obtain ⟨generation,hgen,h⟩ := bind_eq_accept.mp h
  obtain ⟨eventSequence,hseq,h⟩ := bind_eq_accept.mp h
  obtain ⟨owner,howner,h⟩ := bind_eq_accept.mp h
  obtain ⟨_,-,h⟩ := bind_eq_accept.mp h
  obtain ⟨status,hstatus,h⟩ := bind_eq_accept.mp h
  obtain ⟨updatedAt,hupdated,h⟩ := bind_eq_accept.mp h
  obtain ⟨plan,hplan,h⟩ := bind_eq_accept.mp h
  obtain ⟨storedHash,hstored,h⟩ := bind_eq_accept.mp h
  obtain ⟨_,-,h⟩ := bind_eq_accept.mp h
  obtain ⟨hash,hhash,h⟩ := bind_eq_accept.mp h
  obtain ⟨_,hsame,h⟩ := bind_eq_accept.mp h
  obtain ⟨_,-,h⟩ := bind_eq_accept.mp h
  obtain ⟨_,-,h⟩ := bind_eq_accept.mp h
  obtain ⟨waves,hwaves,h⟩ := bind_eq_accept.mp h
  obtain ⟨tasks,htasks,h⟩ := bind_eq_accept.mp h
  obtain ⟨leases,hleases,h⟩ := bind_eq_accept.mp h
  obtain ⟨attempts,hattempts,h⟩ := bind_eq_accept.mp h
  obtain ⟨checkpoints,hcheckpoints,h⟩ := bind_eq_accept.mp h
  obtain ⟨reports,hreports,h⟩ := bind_eq_accept.mp h
  obtain ⟨events,hevents,h⟩ := bind_eq_accept.mp h
  obtain ⟨_,-,h⟩ := bind_eq_accept.mp h
  obtain ⟨_,-,h⟩ := bind_eq_accept.mp h
  cases h
  rw [require_eq_accept] at hrun hsame
  have h₁ : rid = s.runId := by
    simp only [Snapshot.document, Json.isStr, Bool.and_eq_true, decide_eq_true_eq] at hrun
    exact hrun.2.symm
  have h₂ : generation = s.generation := eq_of_readNat hgen
  have h₃ : eventSequence = s.eventSequence := eq_of_readNat hseq
  have h₄ : owner = s.owner := by cases howner; rfl
  have h₅ : status = s.status := by
    simp only [Snapshot.document, readStatus, RunStatus.ofText_text, ofOption] at hstatus
    cases hstatus
    rfl
  have h₆ : updatedAt = s.updatedAt := by cases hupdated; rfl
  have h₇ : plan = s.plan := by cases hplan; rfl
  have h₈ : hash = s.planHash := by
    cases hstored
    exact of_decide_eq_true hsame
  have h₉ : waves = s.waves := by
    rw [show s.document.waves = s.waves.json from rfl, readRows_json] at hwaves
    cases hwaves
    rfl
  have h₁₀ : tasks = s.tasks :=
    eq_of_readDict_encodeDict (fun _ _ _ hb => eq_of_readTask hb) htasks
  have h₁₁ : leases = s.leases :=
    eq_of_readDict_encodeDict (fun _ _ _ hb => eq_of_readLease hb) hleases
  have h₁₂ : attempts = s.attempts :=
    eq_of_readDict_encodeDict (fun _ _ _ hb => eq_of_readNat hb) hattempts
  have h₁₃ : checkpoints = s.checkpoints :=
    eq_of_readDict_encodeDict (fun _ _ _ hb => by cases hb; rfl) hcheckpoints
  have h₁₄ : reports = s.reports :=
    eq_of_readDict_encodeDict (fun _ _ _ hb => eq_of_readReport hb) hreports
  have h₁₅ : events = s.events := by
    rw [show s.document.events = s.events.json from rfl, readRows_json] at hevents
    cases hevents
    rfl
  rw [h₁, h₂, h₃, h₄, h₅, h₆, h₇, h₈, h₉, h₁₀, h₁₁, h₁₂, h₁₃, h₁₄, h₁₅]
  rfl

theorem validate_sealed_iff {D : Deps} {rid : String} {s s' : Snapshot} :
    validate D (.obj s.document.sealed) rid = accept s' ↔ s' = s ∧ s.Valid D rid := by
  constructor
  · intro h
    have he := eq_of_validate_sealed h
    exact ⟨he,he ▸ valid_of_validate h⟩
  · rintro ⟨rfl,h⟩
    exact validate_sealed_of_valid h

/-! ## A sealed snapshot does not make the reader raise -/

/-- The plan has a hash and the task statuses are statuses of tasks: then no check
of the reader raises. -/
structure Snapshot.Plain (D : Deps) (s : Snapshot) : Prop where
  hash : PdFleet.planHash D s.plan = .ok s.planHash
  tasks : ∀ k t, s.tasks.lookup k = some t → TaskValid t

theorem calm_readObject (v : Json) : (readObject v).Calm := calm_ofOption _

theorem calm_readText (v : Json) : (readText v).Calm := calm_ofOption _

theorem calm_readNat (v : Json) : (readNat v).Calm := calm_ofOption _

theorem calm_readTask {t : Obj} (h : TaskValid t) : (readTask (.obj t)).Calm := by
  rw [readTask_obj h]
  exact calm_accept _

theorem calm_readLease (k : String) (v : Json) : (readLease k v).Calm := by
  refine calm_bind (calm_require _) (fun _ _ => ?_)
  refine calm_bind (calm_readObject _) (fun o _ => ?_)
  refine calm_bind (calm_require _) (fun _ _ => ?_)
  refine calm_bind (calm_readText _) (fun _ _ => ?_)
  refine calm_bind (calm_require _) (fun _ _ => ?_)
  refine calm_bind (calm_readText _) (fun _ _ => ?_)
  refine calm_bind (calm_require _) (fun _ _ => ?_)
  refine calm_bind (calm_readText _) (fun _ _ => ?_)
  refine calm_bind (calm_readNat _) (fun _ _ => ?_)
  exact calm_bind (calm_require _) (fun _ _ => calm_accept _)

theorem calm_readReport (k : String) (r : ReportRecord) :
    (readReport k (.obj r.toObj)).Calm := by
  have hs : (readStatus ReportStatus.ofText
      ((r.toObj.field "status").getD .null)).Calm := calm_ofOption _
  refine calm_bind (calm_require _) (fun _ _ => ?_)
  refine calm_bind (calm_readObject _) (fun o ho => ?_)
  cases ho
  refine calm_bind (calm_require _) (fun _ _ => ?_)
  refine calm_bind hs (fun _ _ => ?_)
  refine calm_bind (calm_readObject _) (fun _ _ => ?_)
  refine calm_bind (calm_require _) (fun _ _ => ?_)
  refine calm_bind (calm_readNat _) (fun _ _ => ?_)
  refine calm_bind (calm_require _) (fun _ _ => ?_)
  refine calm_bind (calm_readText _) (fun _ _ => ?_)
  refine calm_bind (calm_require _) (fun _ _ => ?_)
  refine calm_bind (calm_readNat _) (fun _ _ => ?_)
  refine calm_bind (calm_readText _) (fun _ _ => ?_)
  refine calm_bind (calm_require _) (fun _ _ => ?_)
  exact calm_bind (calm_require _) (fun _ _ => calm_accept _)

theorem calm_readDict {α β : Type} {read : String → Json → Verdict PyError β} {f : α → Json}
    {d : Dict String α} (h : ∀ k a, d.lookup k = some a → (read k (f a)).Calm) :
    (readDict read (encodeDict f d)).Calm := by
  refine calm_bind (calm_each ?_) (fun _ _ => calm_accept _)
  intro e he
  obtain ⟨⟨k,a⟩,hm,rfl⟩ := List.mem_map.mp he
  exact calm_bind (h k a ((Dict.mem_toFields d k a).mp hm)) (fun _ _ => calm_accept _)

theorem calm_readRows (r : Rows) : (readRows r.json).Calm := by
  rw [readRows_json]
  exact calm_accept _

theorem calm_validate_sealed {D : Deps} {rid : String} {s : Snapshot} (h : s.Plain D) :
    (validate D (.obj s.document.sealed) rid).Calm := by
  have hhash : (orRefuse (planHash D s.plan)).Calm := by
    rw [h.hash]
    exact calm_accept _
  have hleases : (readDict readLease s.document.leases).Calm :=
    calm_readDict (fun k (l : Lease) _ => calm_readLease k (.obj l.toObj))
  have hattempts : (readDict (fun _ => readNat) s.document.attempts).Calm :=
    calm_readDict (fun _ (n : ℕ) _ => calm_readNat (.int n))
  rw [validate]
  refine calm_bind (calm_readObject _) (fun o ho => ?_)
  cases ho
  refine calm_bind (calm_ofOption _) (fun d hd => ?_)
  rw [ofObj_sealed] at hd
  cases hd
  refine calm_bind (calm_require _) (fun _ _ => ?_)
  refine calm_bind (calm_readNat _) (fun _ _ => ?_)
  refine calm_bind (calm_readNat _) (fun _ _ => ?_)
  refine calm_bind (calm_readText _) (fun _ _ => ?_)
  refine calm_bind (calm_require _) (fun _ _ => ?_)
  refine calm_bind (calm_ofOption _) (fun _ _ => ?_)
  refine calm_bind (calm_readText _) (fun _ _ => ?_)
  refine calm_bind (calm_readObject _) (fun p hp => ?_)
  cases hp
  refine calm_bind (calm_readText _) (fun _ _ => ?_)
  refine calm_bind (calm_require _) (fun _ _ => ?_)
  refine calm_bind hhash (fun _ _ => ?_)
  refine calm_bind (calm_require _) (fun _ _ => ?_)
  refine calm_bind (calm_require _) (fun _ _ => ?_)
  refine calm_bind (calm_require _) (fun _ _ => ?_)
  refine calm_bind (calm_readRows s.waves) (fun _ _ => ?_)
  refine calm_bind (calm_readDict (fun k t ht => calm_readTask (h.tasks k t ht))) (fun _ _ => ?_)
  refine calm_bind hleases (fun _ _ => ?_)
  refine calm_bind hattempts (fun _ _ => ?_)
  refine calm_bind (calm_readDict (fun _ _ _ => calm_readObject _)) (fun _ _ => ?_)
  refine calm_bind (calm_readDict (fun k r _ => calm_readReport k r)) (fun _ _ => ?_)
  refine calm_bind (calm_readRows s.events) (fun _ _ => ?_)
  refine calm_bind (calm_require _) (fun _ _ => ?_)
  exact calm_bind (calm_require _) (fun _ _ => calm_accept _)

end PdFleet
