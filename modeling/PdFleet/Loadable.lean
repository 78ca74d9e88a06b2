import PdFleet.Rotation

/-!
# Which saved checkpoints can be loaded

The writer seals what it has redacted, without asking the reader. Redaction keeps the
shape of a checkpoint, so that what the reader demands of the envelope can be read off
the checkpoint before it is saved.
-/

set_option autoImplicit false

namespace PdFleet.CheckpointV2

open Pattern

variable {D : Deps}

/-! ## The closed list of fields does not see the redaction -/

mutual

theorem walk_redact (place : String) (allowed : Option (List String)) (ext : Bool) (v : Json) :
    walk place allowed ext (redact D v) = walk place allowed ext v := by
  cases v with
  | obj kvs => exact walkFields_redact place allowed ext kvs
  | arr xs => exact walkItems_redact place ext 0 xs
  | null => simp only [redact]
  | bool b => simp only [redact]
  | int n => simp only [redact]
  | float r => simp only [redact]
  | str s => simp only [redact, walk]

theorem walkItems_redact (place : String) (ext : Bool) (i : ℕ) (xs : List Json) :
    walkItems place ext i (redactItems D xs) = walkItems place ext i xs := by
  cases xs with
  | nil => simp only [redactItems]
  | cons x xs =>
    simp only [redactItems, walkItems, walk_redact, walkItems_redact place ext (i+1) xs]

theorem walkFields_redact (place : String) (allowed : Option (List String)) (ext : Bool)
    (kvs : List (String × Json)) :
    walkFields place allowed ext (redactFields D kvs) = walkFields place allowed ext kvs := by
  cases kvs with
  | nil => simp only [redactFields]
  | cons e kvs =>
    obtain ⟨k,v⟩ := e
    simp only [redactFields, walkFields]
    cases hs : search sensitive k.toList with
    | true => simp [refuse, bind, Except.bind]
    | false =>
      simp only [Bool.false_eq_true, if_false, walk_redact,
        walkFields_redact place allowed ext kvs]

end

theorem field_redactFields (o : Obj) (k : String) : Obj.field (redactFields D o) k =
    (Obj.field o k).map (fun v => if search sensitive k.toList then .str "[REDACTED]"
      else redact D v) := by
  induction o with
  | nil => rfl
  | cons e o ih =>
    obtain ⟨a,v⟩ := e
    simp only [redactFields, Obj.field, List.lookup_cons] at ih ⊢
    cases h : k == a with
    | true =>
      obtain rfl : k = a := by simpa using h
      simp only [Option.map_some]
    | false => exact ih

@[simp] theorem isDict_redact (v : Json) : (redact D v).isDict = v.isDict := by
  cases v <;> simp only [redact, Json.isDict]

theorem redactItems_eq_map (xs : List Json) : redactItems D xs = xs.map (redact D) := by
  induction xs with
  | nil => simp only [redactItems, List.map_nil]
  | cons x xs ih => simp only [redactItems, ih, List.map_cons]

theorem redactFields_of_plain {kvs : List (String × Json)}
    (h : ∀ e ∈ kvs, search sensitive e.1.toList = false) :
    redactFields D kvs = kvs.map (Prod.map id (redact D)) := by
  induction kvs with
  | nil => simp only [redactFields, List.map_nil]
  | cons e kvs ih =>
    obtain ⟨k,v⟩ := e
    have hk : search sensitive k.toList = false := h (k,v) List.mem_cons_self
    simp only [redactFields, hk, ih (fun e he => h e (List.mem_cons_of_mem _ he)), List.map_cons,
      Bool.false_eq_true, if_false, Prod.map, id]

/-- What a walk without an error has seen of the fields of an object. -/
theorem walkFields_ok {place : String} {allowed : Option (List String)} {ext : Bool}
    {kvs : List (String × Json)} : walkFields place allowed ext kvs = .ok () ↔
      ∀ e ∈ kvs, search sensitive e.1.toList = false ∧ (allowed.any (e.1 ∉ ·) && !ext) = false ∧
        walk (place ++ "." ++ e.1) none (ext || e.1 ∈ extensionFields) e.2 = .ok () := by
  induction kvs with
  | nil => simp [walkFields]
  | cons e kvs ih =>
    obtain ⟨k,v⟩ := e
    rw [List.forall_mem_cons, ← ih]
    simp only [walkFields]
    constructor
    · intro h
      obtain ⟨_,h1,h⟩ := ok_of_bind h
      obtain ⟨_,h2,h⟩ := ok_of_bind h
      obtain ⟨_,h3,h⟩ := ok_of_bind h
      exact ⟨⟨refuse_ok.mp h1,refuse_ok.mp h2,h3⟩,h⟩
    · rintro ⟨⟨h1,h2,h3⟩,h⟩
      rw [(refuse_ok (u := ())).mpr h1, (refuse_ok (u := ())).mpr h2, h3, h]
      rfl

theorem nestedTask_redact (id : String) (v : Json) :
    nestedTask id (redact D v) = nestedTask id v := by
  simp only [nestedTask, isDict_redact, walk_redact]

theorem indexed_redactItems (xs : List Json) :
    indexed (redactItems D xs) = (indexed xs).map (Prod.map id (redact D)) := by
  rw [redactItems_eq_map, indexed, indexed, List.length_map, List.zip_map_right]

theorem nestedHistory_redact (task : String) (v : Json) :
    nestedHistory task (redact D v) = nestedHistory task v := by
  cases v with
  | arr xs =>
    simp only [redact, nestedHistory, indexed_redactItems, List.forM_eq_forM, List.forM_map,
      Prod.map, isDict_redact, walk_redact, id]
  | _ => simp only [redact, nestedHistory]

/-- The keys of a checkpoint and of its records that are looked up again. -/
def lookedUp : List String := checkpointFields ++ lifecycleFields ++ ["history", "id", "task_id"]

/-- None of them is sensitive. -/
theorem plain_lookedUp {k : String} (h : k ∈ lookedUp) : search sensitive k.toList = false := by
  revert k
  decide +kernel

theorem plain_checkpointField {k : String} (h : k ∈ checkpointFields) :
    search sensitive k.toList = false :=
  plain_lookedUp (by simp [lookedUp, h])

theorem nestedLifecycle_redact (task : String) (v : Json) :
    nestedLifecycle task (redact D v) = nestedLifecycle task v := by
  simp only [nestedLifecycle, isDict_redact, walk_redact]
  cases v with
  | obj o =>
    have hplain : search sensitive "history".toList = false := plain_lookedUp (by simp [lookedUp])
    have hfield : nestedHistory task ((Obj.field (redactFields D o) "history").getD (.arr [])) =
        nestedHistory task ((Obj.field o "history").getD (.arr [])) := by
      rw [field_redactFields, hplain]
      cases Obj.field o "history" with
      | none => simp only [Option.map_none, Option.getD_none]
      | some h =>
        simp only [Option.map_some, Option.getD_some, Bool.false_eq_true, if_false,
          nestedHistory_redact]
    simp only [redact, hfield]
  | _ => simp only [redact]

theorem nestedRecords_redact (name : String) (allowed : List String) (v : Option Json) :
    nestedRecords name allowed (v.map (redact D)) = nestedRecords name allowed v := by
  cases v with
  | none => simp only [Option.map_none]
  | some v =>
    cases v with
    | arr xs =>
      simp only [Option.map_some, redact, nestedRecords, indexed_redactItems, List.forM_eq_forM,
        List.forM_map, Prod.map, isDict_redact, walk_redact, id]
    | _ => simp only [Option.map_some, redact, nestedRecords]

theorem field_redact_plain {o : Obj} {k : String} (h : search sensitive k.toList = false) :
    Obj.field (redactFields D o) k = (Obj.field o k).map (redact D) := by
  rw [field_redactFields, h]
  simp only [Bool.false_eq_true, if_false]

theorem mem_of_field {o : Obj} {k : String} {v : Json} (h : Obj.field o k = some v) :
    (k,v) ∈ o := by
  induction o with
  | nil => cases h
  | cons e o ih =>
    obtain ⟨a,w⟩ := e
    simp only [Obj.field, List.lookup_cons] at h ih
    cases hk : k == a with
    | true =>
      obtain rfl : k = a := by simpa using hk
      rw [hk] at h
      cases h
      exact List.mem_cons_self
    | false =>
      rw [hk] at h
      exact List.mem_cons_of_mem _ (ih h)

/-- An object below an object that was walked through has no sensitive keys. -/
theorem plain_of_walk {place : String} {allowed : Option (List String)} {ext : Bool} {o : Obj}
    {k : String} {kvs : List (String × Json)}
    (h : walk place allowed ext (.obj o) = .ok ()) (hf : Obj.field o k = some (.obj kvs)) :
    ∀ e ∈ kvs, search sensitive e.1.toList = false := by
  rw [walk] at h
  have hw := (walkFields_ok.mp h (k,.obj kvs) (mem_of_field hf)).2.2
  rw [walk] at hw
  intro e he
  exact (walkFields_ok.mp hw e he).1

theorem nestedEntries_redact {o : Obj} {k name : String}
    {f : String → Json → Except CheckpointError Unit} (hf : ∀ k v, f k (redact D v) = f k v)
    (h : ∀ kvs, Obj.field o k = some (.obj kvs) → ∀ e ∈ kvs, search sensitive e.1.toList = false) :
    nestedEntries name f ((Obj.field o k).map (redact D)) = nestedEntries name f (Obj.field o k) := by
  cases hv : Obj.field o k with
  | none => simp only [Option.map_none]
  | some v =>
    cases v with
    | obj kvs =>
      simp only [Option.map_some, redact, nestedEntries, redactFields_of_plain (h kvs hv),
        List.forM_eq_forM, List.forM_map, Prod.map, hf, id]
    | _ => simp only [Option.map_some, redact, nestedEntries]

/-- The closed list of fields holds of a checkpoint if and only if it holds of the redacted
one. -/
theorem validateNested_redact (v : Json) :
    validateNested (redact D v) = validateNested v := by
  cases v with
  | obj c =>
    have hobj : redact D (.obj c) = .obj (redactFields D c) := by simp only [redact]
    have hw := walk_redact (D := D) "checkpoint" (some checkpointFields) false (.obj c)
    have hfield : ∀ k ∈ checkpointFields,
        Obj.field (redactFields D c) k = (Obj.field c k).map (redact D) :=
      fun k hk => field_redact_plain (plain_checkpointField hk)
    rw [hobj] at hw ⊢
    simp only [validateNested, hw, hfield "tasks" (by decide), hfield "lifecycle" (by decide),
      hfield "reports" (by decide), hfield "evidence" (by decide), hfield "blockers" (by decide),
      nestedRecords_redact]
    cases hok : walk "checkpoint" (some checkpointFields) false (.obj c) with
    | error e => rfl
    | ok u =>
      rw [nestedEntries_redact nestedTask_redact (fun _ => plain_of_walk hok),
        nestedEntries_redact nestedLifecycle_redact (fun _ => plain_of_walk hok)]
  | _ => simp only [redact, validateNested]

/-! ## The redacted checkpoint -/

/-- What the writer seals, as a checkpoint. -/
def redacted (D : Deps) (c : Checkpoint) : Checkpoint where
  schemaVersion := redact D c.schemaVersion
  feature := redact D c.feature
  wave := redact D c.wave
  tasks := redactFields D c.tasks
  lifecycle := redactFields D c.lifecycle
  reports := redact D c.reports
  evidence := redact D c.evidence
  blockers := redact D c.blockers
  createdAt := redact D c.createdAt

theorem redact_fields (c : Checkpoint) :
    redact D (.obj c.fields) = .obj (redacted D c).fields := by
  have hplain : ∀ e ∈ c.fields, search sensitive e.1.toList = false := by
    intro e he
    have hkeys : c.fields.map Prod.fst = checkpointFields := rfl
    apply plain_checkpointField
    rw [← hkeys]
    exact List.mem_map_of_mem he
  have hobj : redact D (.obj c.fields) = .obj (redactFields D c.fields) := by simp only [redact]
  rw [hobj, redactFields_of_plain hplain]
  simp only [Checkpoint.fields, redacted, List.map_cons, List.map_nil, Prod.map, redact, id]

theorem bracket_mem_path : '[' ∈ (pathRule D).text.toList :=
  show '[' ∈ "[PATH REDACTED]".toList by decide

theorem redactText_eq_or (s : String) :
    redactText D s = s ∨ '[' ∈ (redactText D s).toList := by
  rcases Pattern.sub_eq_or urlRule s with hu | hu
  · rw [redactText, hu]
    rcases Pattern.sub_eq_or (pathRule D) s with hp | hp
    · exact Or.inl hp
    · exact Or.inr (hp '[' bracket_mem_path)
  · right
    obtain ⟨c,hc,rfl⟩ := Pattern.sub_keeps (r := pathRule D) (p := (· = '['))
      ⟨'[',bracket_mem_path,rfl⟩
      ⟨'[',hu '[' (by decide),rfl⟩
    exact hc

theorem redactText_state {s : String} (h : s ∈ lifecycleStates) : redactText D s = s := by
  simp only [lifecycleStates, List.mem_cons, List.not_mem_nil, or_false] at h
  rcases h with rfl | rfl | rfl | rfl | rfl | rfl | rfl <;> rfl

theorem validState_redact (v : Json) : validState (redact D v) = validState v := by
  cases v with
  | str s =>
    simp only [redact, validState, decide_eq_decide]
    constructor
    · intro h
      rcases redactText_eq_or (D := D) s with he | he
      · rwa [he] at h
      · have hno : ∀ t ∈ lifecycleStates, '[' ∉ t.toList := by decide
        exact absurd he (hno _ h)
    · intro h
      rwa [redactText_state h]
  | _ => simp only [redact, validState]

theorem nonblank_redact {v : Json} (h : v.nonblank = true) : (redact D v).nonblank = true := by
  cases v with
  | str s =>
    have hs : ∃ c ∈ s.toList, isSpace c = false := by simpa [Json.nonblank] using h
    have hbracket : isSpace '[' = false := by decide
    have hurl := Pattern.sub_keeps (r := urlRule) ⟨'[',by decide,hbracket⟩ hs
    have hpath := Pattern.sub_keeps (r := pathRule D) ⟨'[',bracket_mem_path,hbracket⟩ hurl
    simpa [redact, redactText, Json.nonblank] using hpath
  | _ => cases h

theorem plain_lifecycleField {k : String} (h : k ∈ lifecycleFields) :
    search sensitive k.toList = false :=
  plain_lookedUp (by simp [lookedUp, h])

/-- The field `key` of a redacted record. -/
theorem field_lifecycle {o : Obj} {k : String} (h : k ∈ lifecycleFields) :
    Obj.field (redactFields D o) k = (Obj.field o k).map (redact D) :=
  field_redact_plain (plain_lifecycleField h)

theorem any_redact {p : Json → Bool} (hp : ∀ v, p (redact D v) = p v) (v : Option Json) :
    (v.map (redact D)).any p = v.any p := by
  cases v with
  | none => simp only [Option.map_none]
  | some v => simp only [Option.map_some, Option.any_some, hp]

theorem attemptRange_redact (o : Obj) : attemptRange (redactFields D o) = attemptRange o := by
  rw [attemptRange, attemptRange, field_lifecycle (k := "attempt") (by decide),
    field_lifecycle (k := "max_attempts") (by decide)]
  cases Obj.field o "attempt" with
  | none => simp only [Option.map_none]
  | some a =>
    cases Obj.field o "max_attempts" with
    | none => cases a <;> simp only [Option.map_some, Option.map_none, redact]
    | some m => cases a <;> cases m <;> simp only [Option.map_some, redact]

/-- A check of a field that looks at the kind of the value, and at numbers, does not see
the redaction. -/
theorem refuse_redact {o : Obj} {k msg : String} {p : Json → Bool} (hk : k ∈ lifecycleFields)
    (hp : ∀ v, p (redact D v) = p v) :
    refuse ((Obj.field (redactFields D o) k).any (fun v => !p v)) msg =
      refuse ((Obj.field o k).any (fun v => !p v)) msg := by
  have hany := any_redact (p := fun v => !p v) (fun v => by rw [hp]) (Obj.field o k)
  rw [field_lifecycle hk, hany]

theorem validateLifecycleFields_redact (id : String) (o : Obj) :
    validateLifecycleFields id (redactFields D o) = validateLifecycleFields id o := by
  have hint : ∀ v, (redact D v).isInt = v.isInt := by
    intro v
    cases v <;> simp only [redact, Json.isInt]
  have hfrom : ∀ (n : ℤ) v, (redact D v).isIntFrom n = v.isIntFrom n := by
    intro n v
    cases v <;> simp only [redact, Json.isIntFrom]
  have hbool : ∀ v, (redact D v).isBool = v.isBool := by
    intro v
    cases v <;> simp only [redact, Json.isBool]
  have hnum : ∀ v, (redact D v).isNumberOrNull = v.isNumberOrNull := by
    intro v
    cases v <;> simp only [redact, Json.isNumberOrNull]
  have htimes : ∀ k ∈ ["heartbeat", "started_at", "finished_at"], k ∈ lifecycleFields := by
    decide
  unfold validateLifecycleFields
  dsimp only
  rw [refuse_redact (k := "attempt") (by decide) hint,
    refuse_redact (k := "max_attempts") (by decide) hint,
    refuse_redact (k := "attempt") (by decide) (hfrom 0),
    refuse_redact (k := "max_attempts") (by decide) (hfrom 1), attemptRange_redact,
    refuse_redact (k := "retryable") (by decide) hbool]
  simp only [List.forM_eq_forM, List.forM_cons, List.forM_nil,
    refuse_redact (htimes "heartbeat" (by decide)) hnum,
    refuse_redact (htimes "started_at" (by decide)) hnum,
    refuse_redact (htimes "finished_at" (by decide)) hnum]

theorem recordStatus_redact (o : Obj) : recordStatus (redactFields D o) = redact D (recordStatus o) := by
  rw [recordStatus, recordStatus, field_lifecycle (k := "status") (by decide),
    field_lifecycle (k := "state") (by decide)]
  cases Obj.field o "status" with
  | some v => simp only [Option.map_some, Option.getD_some]
  | none =>
    cases Obj.field o "state" with
    | some v => simp only [Option.map_some, Option.map_none, Option.getD_some, Option.getD_none]
    | none => simp only [Option.map_none, Option.getD_none, redact]

/-! ## The records of the checkpoint -/

/-- The records that repeat their key are under a key that the redaction keeps. -/
def StableKeys (D : Deps) (key : String) (records : Obj) : Prop :=
  ∀ e ∈ records, ∀ o, e.2 = .obj o → (Obj.field o key).isSome = true → redactText D e.1 = e.1

theorem nameField_redact {o : Obj} {id key : String} (hk : search sensitive key.toList = false)
    (h : ∀ w, Obj.field o key = some w → w = .str id) :
    (∀ w, Obj.field (redactFields D o) key = some w → w = .str id) ↔
      ((Obj.field o key).isSome = true → redactText D id = id) := by
  rw [field_redact_plain hk]
  cases hf : Obj.field o key with
  | none => simp
  | some w =>
    obtain rfl := h w hf
    simp [redact]

theorem validateTask_redact {id : String} {v : Json} (h : validateTask id v = .ok ()) :
    validateTask id (redact D v) = .ok () ↔
      ∀ t, v = .obj t → (Obj.field t "id").isSome = true → redactText D id = id := by
  obtain ⟨hid,t,rfl,hname⟩ := validateTask_ok.mp h
  have hkey : search sensitive "id".toList = false := plain_lookedUp (by simp [lookedUp])
  rw [validateTask_ok]
  constructor
  · rintro ⟨-,t',ht',hname'⟩ u hu
    cases hu
    simp only [redact, Json.obj.injEq] at ht'
    subst ht'
    exact (nameField_redact hkey hname).mp hname'
  · intro hs
    exact ⟨hid,_,by simp only [redact],(nameField_redact hkey hname).mpr (hs t rfl)⟩

theorem validateLifecycle_redact {id : String} {v : Json} (h : validateLifecycle id v = .ok ()) :
    validateLifecycle id (redact D v) = .ok () ↔
      ∀ o, v = .obj o → (Obj.field o "task_id").isSome = true → redactText D id = id := by
  obtain ⟨hid,o,rfl,hname,hstate,hfields⟩ := validateLifecycle_ok.mp h
  have hkey : search sensitive "task_id".toList = false := plain_lookedUp (by simp [lookedUp])
  rw [validateLifecycle_ok]
  constructor
  · rintro ⟨-,o',ho',hname',-⟩ u hu
    cases hu
    simp only [redact, Json.obj.injEq] at ho'
    subst ho'
    exact (nameField_redact hkey hname).mp hname'
  · intro hs
    refine ⟨hid,_,by simp only [redact],(nameField_redact hkey hname).mpr (hs o rfl),?_,?_⟩
    · rw [recordStatus_redact, validState_redact]
      exact hstate
    · rw [validateLifecycleFields_redact]
      exact hfields

theorem forall_redactFields {kvs : List (String × Json)} {f : String → Json → Prop}
    (h : ∀ e ∈ kvs, search sensitive e.1.toList = false) :
    (∀ e ∈ redactFields D kvs, f e.1 e.2) ↔ ∀ e ∈ kvs, f e.1 (redact D e.2) := by
  rw [redactFields_of_plain h]
  simp only [List.forall_mem_map, Prod.map, id]

/-! ## A lifecycle read off the task records -/

theorem field_snapshotOf {id k : String} {t : Obj} (h1 : k ≠ "task_id") (h2 : k ≠ "status") :
    Obj.field (snapshotOf id t) k = Obj.field t k := by
  rw [snapshotOf]
  split
  · split
    · exact Obj.field_putDefault_ne _ _ _ _ h1
    · rw [Obj.field_put_ne _ _ _ _ h2, Obj.field_putDefault_ne _ _ _ _ h1]
  · exact Obj.field_putDefault_ne _ _ _ _ h1

theorem taskId_snapshotOf {id : String} {t : Obj} (h : Obj.field t "task_id" = none) :
    Obj.field (snapshotOf id t) "task_id" = some (.str id) := by
  have hput : Obj.field (Obj.putDefault t "task_id" (.str id)) "task_id" = some (.str id) := by
    rw [Obj.field_putDefault_self, h, Option.getD_none]
  rw [snapshotOf]
  split
  · split
    · exact hput
    · rw [Obj.field_put_ne _ _ _ _ (by decide)]
      exact hput
  · exact hput

theorem recordStatus_snapshotOf (id : String) (t : Obj) : recordStatus (snapshotOf id t) = recordStatus t := by
  have hstatus : Obj.field (Obj.putDefault t "task_id" (.str id)) "status" = Obj.field t "status" :=
    Obj.field_putDefault_ne _ _ _ _ (by decide)
  have hstate : Obj.field (Obj.putDefault t "task_id" (.str id)) "state" = Obj.field t "state" :=
    Obj.field_putDefault_ne _ _ _ _ (by decide)
  rw [recordStatus, field_snapshotOf (k := "state") (by decide) (by decide), snapshotOf, hstate, recordStatus]
  cases hv : Obj.field t "state" with
  | none => rw [hstatus]
  | some st =>
    simp only [Obj.has, hstatus]
    split
    · rw [hstatus]
    · rename_i hno
      rw [Obj.field_put_self]
      simp only [Bool.not_eq_true, Option.isSome_eq_false_iff, Option.isNone_iff_eq_none] at hno
      rw [hno]
      rfl

/-- A record with the fields of a task only. -/
def TaskShaped (t : Obj) : Prop := ∀ k, (Obj.field t k).isSome = true → k ∈ taskFields

theorem TaskShaped.none {t : Obj} (h : TaskShaped t) {k : String} (hk : k ∉ taskFields) :
    Obj.field t k = none := by
  cases hf : Obj.field t k with
  | none => rfl
  | some v => exact absurd (h k (by rw [hf]; rfl)) hk

theorem TaskShaped.redact {t : Obj} (h : TaskShaped t) : TaskShaped (redactFields D t) := by
  intro k hk
  rw [field_redactFields, Option.isSome_map] at hk
  exact h k hk

/-- The lifecycle of a task record is as good as its status. -/
theorem validateLifecycle_snapshotOf {id : String} {t : Obj} (hid : blankKey id = false)
    (ht : TaskShaped t) : validateLifecycle id (.obj (snapshotOf id t)) = .ok () ↔
      validState (recordStatus t) = true := by
  have hnone : ∀ k, k ∉ taskFields → k ≠ "task_id" → k ≠ "status" →
      Obj.field (snapshotOf id t) k = none := by
    intro k h1 h2 h3
    rw [field_snapshotOf h2 h3]
    exact ht.none h1
  have hfields : validateLifecycleFields id (snapshotOf id t) = .ok () := by
    simp only [validateLifecycleFields, attemptRange,
      hnone "attempt" (by decide) (by decide) (by decide),
      hnone "max_attempts" (by decide) (by decide) (by decide),
      hnone "retryable" (by decide) (by decide) (by decide), List.forM_eq_forM, List.forM_cons,
      List.forM_nil, hnone "heartbeat" (by decide) (by decide) (by decide),
      hnone "started_at" (by decide) (by decide) (by decide),
      hnone "finished_at" (by decide) (by decide) (by decide)]
    rfl
  rw [validateLifecycle_ok]
  constructor
  · rintro ⟨-,o,ho,-,hs,-⟩
    cases ho
    rwa [recordStatus_snapshotOf] at hs
  · intro hs
    refine ⟨hid,_,rfl,?_,by rwa [recordStatus_snapshotOf],hfields⟩
    intro w hw
    rw [taskId_snapshotOf (ht.none (by decide))] at hw
    exact (Option.some.inj hw).symm

theorem forall_inlineLifecycle {tasks : Obj} (hid : ∀ e ∈ tasks, blankKey e.1 = false)
    (ht : ∀ e ∈ tasks, ∀ t, e.2 = .obj t → TaskShaped t) :
    (∀ e ∈ inlineLifecycle tasks, validateLifecycle e.1 e.2 = .ok ()) ↔
      ∀ e ∈ tasks, ∀ t, e.2 = .obj t → validState (recordStatus t) = true := by
  constructor
  · rintro h ⟨id,v⟩ he t rfl
    by_cases hs : Obj.has t "status" || Obj.has t "state"
    · have hmem : (id,Json.obj (snapshotOf id t)) ∈ inlineLifecycle tasks := by
        rw [inlineLifecycle, List.mem_filterMap]
        exact ⟨_,he,if_pos hs⟩
      exact (validateLifecycle_snapshotOf (hid _ he) (ht _ he t rfl)).mp (h _ hmem)
    · simp only [Obj.has, Bool.or_eq_true, not_or, Bool.not_eq_true, Option.isSome_eq_false_iff,
        Option.isNone_iff_eq_none] at hs
      rw [recordStatus, hs.1, hs.2]
      rfl
  · intro h e he
    rw [inlineLifecycle, List.mem_filterMap] at he
    obtain ⟨⟨id,v⟩,hv,he⟩ := he
    cases v with
    | obj t =>
      dsimp only at he
      split at he
      · cases he
        exact (validateLifecycle_snapshotOf (hid _ hv) (ht _ hv t rfl)).mpr (h _ hv t rfl)
      · cases he
    | _ => cases he

/-! ## Loadable checkpoints -/

/-- What the reader will accept of a valid checkpoint once it is sealed: only fields that
it knows and none that reads as a secret, no id repeated in a record that the redaction
changes, and a known status in each task record if these are all there is of a lifecycle. -/
structure Loadable (D : Deps) (c : Checkpoint) : Prop where
  nested : validateNested (.obj c.fields) = .ok ()
  taskIds : StableKeys D "id" c.tasks
  lifecycleIds : StableKeys D "task_id" c.lifecycle
  inline : c.lifecycle = [] → ∀ e ∈ c.tasks, ∀ t, e.2 = .obj t → validState (recordStatus t) = true

section

variable {c : Checkpoint}

/-- What the closed list of fields says of a checkpoint's tasks and lifecycle. -/
theorem of_validateNested (h : validateNested (.obj c.fields) = .ok ()) :
    (∀ e ∈ c.tasks, search sensitive e.1.toList = false) ∧
      (∀ e ∈ c.lifecycle, search sensitive e.1.toList = false) ∧
      ∀ e ∈ c.tasks, ∀ t, e.2 = .obj t → TaskShaped t := by
  obtain ⟨⟨⟩,hw,h⟩ := ok_of_bind h
  obtain ⟨_,ht,-⟩ := ok_of_bind h
  refine ⟨plain_of_walk (k := "tasks") hw rfl,plain_of_walk (k := "lifecycle") hw rfl,?_⟩
  rintro e he t htask k hk
  have hforM : c.tasks.forM (fun e => nestedTask e.1 e.2) = .ok () := ht
  have htask' := forM_ok.mp hforM e he
  obtain ⟨_,-,hwalk⟩ := ok_of_bind htask'
  obtain ⟨v,hv⟩ := Option.isSome_iff_exists.mp hk
  rw [htask, walk] at hwalk
  have hok := (walkFields_ok.mp hwalk (k,v) (mem_of_field hv)).2.1
  simpa using hok

theorem redacted_validate (hv : c.validate = .ok ())
    (hn : validateNested (.obj c.fields) = .ok ()) :
    (redacted D c).withInline.validate = .ok () ↔
      StableKeys D "id" c.tasks ∧ StableKeys D "task_id" c.lifecycle ∧
        (c.lifecycle = [] → ∀ e ∈ c.tasks, ∀ t, e.2 = .obj t → validState (recordStatus t) = true) := by
  obtain ⟨h1,h2,h3,h4,h5,htasks,hlife⟩ := validate_ok.mp hv
  obtain ⟨hpt,hpl,hshape⟩ := of_validateNested hn
  have htask : (∀ e ∈ redactFields D c.tasks, validateTask e.1 e.2 = .ok ()) ↔
      StableKeys D "id" c.tasks := by
    rw [forall_redactFields (f := fun k v => validateTask k v = .ok ()) hpt]
    exact forall₂_congr (fun e he => validateTask_redact (htasks e he))
  have hlifecycle : (∀ e ∈ redactFields D c.lifecycle, validateLifecycle e.1 e.2 = .ok ()) ↔
      StableKeys D "task_id" c.lifecycle := by
    rw [forall_redactFields (f := fun k v => validateLifecycle k v = .ok ()) hpl]
    exact forall₂_congr (fun e he => validateLifecycle_redact (hlife e he))
  have hinline : (∀ e ∈ inlineLifecycle (redactFields D c.tasks),
      validateLifecycle e.1 e.2 = .ok ()) ↔
      ∀ e ∈ c.tasks, ∀ t, e.2 = .obj t → validState (recordStatus t) = true := by
    have hobj : ∀ e ∈ c.tasks, ∃ t, e.2 = .obj t := fun e he => by
      obtain ⟨-,t,ht,-⟩ := validateTask_ok.mp (htasks e he)
      exact ⟨t,ht⟩
    rw [forall_inlineLifecycle]
    · rw [forall_redactFields (f := fun _ v => ∀ t, v = .obj t → validState (recordStatus t) = true) hpt]
      apply forall₂_congr
      intro e he
      obtain ⟨t,ht⟩ := hobj e he
      simp only [ht, redact, Json.obj.injEq, forall_eq']
      rw [recordStatus_redact, validState_redact]
    · rw [forall_redactFields (f := fun k _ => blankKey k = false) hpt]
      exact fun e he => (validateTask_ok.mp (htasks e he)).1
    · rw [forall_redactFields (f := fun _ v => ∀ t, v = .obj t → TaskShaped t) hpt]
      intro e he t' ht'
      obtain ⟨t,ht⟩ := hobj e he
      simp only [ht, redact, Json.obj.injEq] at ht'
      subst ht'
      exact (hshape e he t ht).redact
  have hempty : (redactFields D c.lifecycle).isEmpty = true ↔ c.lifecycle = [] := by
    rw [redactFields_of_plain hpl, List.isEmpty_iff, List.map_eq_nil_iff]
  have hlists : ((redact D c.reports).isList && (redact D c.evidence).isList &&
      (redact D c.blockers).isList) = true := by
    have hlist : ∀ v, (redact D v).isList = v.isList := by
      intro v
      cases v <;> simp only [redact, Json.isList]
    rw [hlist, hlist, hlist]
    exact h5
  have hwave : (redact D c.wave).isIntFrom 0 = true := by
    cases hw : c.wave with
    | int n =>
      rw [hw] at h3
      simpa only [redact] using h3
    | _ => rw [hw] at h3; cases h3
  have hversion : redact D c.schemaVersion = .int 1 := by
    rw [h1]
    simp only [redact]
  have hrest : (redacted D c).withInline.validate = .ok () ↔
      (∀ e ∈ redactFields D c.tasks, validateTask e.1 e.2 = .ok ()) ∧
        ∀ e ∈ (redacted D c).withInline.lifecycle, validateLifecycle e.1 e.2 = .ok () := by
    rw [validate_ok]
    constructor
    · intro h
      exact h.2.2.2.2.2
    · intro h
      exact ⟨hversion,nonblank_redact h2,hwave,nonblank_redact h4,hlists,h⟩
  rw [hrest, htask]
  apply and_congr_right
  intro _
  by_cases hl : c.lifecycle = []
  · have hin : (redacted D c).withInline.lifecycle = inlineLifecycle (redactFields D c.tasks) :=
      if_pos (hempty.mpr hl)
    rw [hin, hinline]
    simp [hl, StableKeys]
  · have hin : (redacted D c).withInline.lifecycle = redactFields D c.lifecycle :=
      if_neg (fun h => hl (hempty.mp h))
    rw [hin, hlifecycle]
    simp [hl]

/-- The reader accepts a sealed checkpoint if and only if it is loadable. -/
theorem valid_sealed_iff (iso : String) {rid hash : String} {generation : ℤ} {envelope : Obj}
    {expected : Option String} (h : sealed D rid c hash generation = .ok envelope)
    (he : ∀ e ∈ expected, e = hash) :
    valid iso rid expected envelope = true ↔ Loadable D c := by
  obtain ⟨dict,hd,-,-,-⟩ := field_sealed h
  obtain ⟨_,hv,hdict⟩ := ok_of_bind hd
  cases hdict
  have hcreated : (redacted D c).createdAt.nonblank = true :=
    nonblank_redact (validate_ok.mp hv).2.2.2.1
  have hfrom := fromDict_fields iso hcreated
  have haccepts : accepts ((Checkpoint.fromDict iso (.obj (redacted D c).fields)).map
      (fun _ => ())) = true ↔ ∃ u, Checkpoint.fromDict iso (.obj (redacted D c).fields) = .ok u := by
    cases Checkpoint.fromDict iso (.obj (redacted D c).fields) with
    | ok u => simp [accepts, Except.map]
    | error e => simp [accepts, Except.map]
  have hnested : accepts (validateNested (redact D (.obj c.fields))) = true ↔
      validateNested (.obj c.fields) = .ok () := by
    rw [validateNested_redact]
    cases validateNested (.obj c.fields) with
    | ok u => simp [accepts]
    | error e => simp [accepts]
  rw [valid_sealed h hd he, Bool.and_eq_true, hnested, redact_fields, haccepts, hfrom]
  constructor
  · rintro ⟨hn,hr⟩
    obtain ⟨h1,h2,h3⟩ := (redacted_validate hv hn).mp hr
    exact ⟨hn,h1,h2,h3⟩
  · rintro ⟨hn,h1,h2,h3⟩
    exact ⟨hn,(redacted_validate hv hn).mpr ⟨h1,h2,h3⟩⟩

theorem of_candidate {iso rid : String} {expected : Option String} {n : Node} {v : Obj}
    (h : candidate iso rid expected n = some v) :
    n = .document (.obj v) ∧ valid iso rid expected v = true := by
  unfold candidate at h
  split at h
  · split_ifs at h with hv
    cases h
    exact ⟨rfl,hv⟩
  · cases h

theorem valid_hash {iso rid hash : String} {v : Obj} (h : valid iso rid (some hash) v = true) :
    v.field "plan_hash" = some (.str hash) ∧ valid iso rid none v = true := by
  unfold valid at h ⊢
  simp only [Bool.and_eq_true] at h ⊢
  obtain ⟨⟨⟨⟨⟨⟨h1,h2⟩,h3⟩,h4⟩,h5⟩,h6⟩,h7⟩ := h
  split at h4
  · rename_i k hk
    simp only [Bool.and_eq_true, Option.all_some, decide_eq_true_eq] at h4
    obtain ⟨hhex,rfl⟩ := h4
    simp only [hk, hhex]
    exact ⟨trivial,⟨⟨⟨⟨⟨h1,h2⟩,h3⟩,by simp⟩,h5⟩,h6⟩,h7⟩
  · cases h4

theorem load_hash_ok {iso rid hash : String} {d : Dir} {v : Obj} (hid : unsafeId rid = false)
    (hhex : isHex64 hash = true) :
    load iso rid (some hash) none d = .ok v ↔ newest iso rid (some hash) d = some v := by
  have h1 : refuse ((some hash).any (!isHex64 ·)) "plan hash drift" = .ok () := by
    simp [hhex]
  have h2 : refuse (unsafeId rid) "run_id/path traversal inválido" = .ok () := by
    simp [hid]
  rw [load, h1, h2]
  cases hn : newest iso rid (some hash) d with
  | none =>
    cases newest iso rid none d <;> simp [refuse, bind, Except.bind]
  | some w =>
    have hvalid : valid iso rid (some hash) w = true := by
      rcases TwoSlot.newest_mem hn with h | h
      · exact (of_candidate h).2
      · exact (of_candidate h).2
    have hplan : (w.field "plan_hash").any (·.isStr hash) = true := by
      rw [(valid_hash hvalid).1]
      simp [Json.isStr]
    simp [hplan, refuse, bind, Except.bind, pure, Except.pure]

/-- Once the new envelope is the primary it is what a load finds, if it is valid at all. -/
theorem newest_installed {iso rid hash : String} {generation : ℤ} {d d' : Dir} {envelope : Obj}
    (ha : Admitted D iso rid c hash generation d envelope)
    (hl : Leaves d (.document (.obj envelope)) d'.target d'.backup)
    (ht : d'.target = .document (.obj envelope)) :
    newest iso rid (some hash) d' = some envelope ↔ valid iso rid (some hash) envelope = true := by
  constructor
  · intro h
    rcases TwoSlot.newest_mem h with h | h
    · exact (of_candidate h).2
    · exact (of_candidate h).2
  · intro h
    have hp : candidate iso rid (some hash) d'.target = some envelope := by
      rw [ht, candidate, if_pos h]
    rw [newest, hp]
    apply TwoSlot.newest_replaced
    intro y hy
    obtain ⟨hdoc,hvy⟩ := of_candidate hy
    have hback : d'.backup = d.target ∨ d'.backup = d.backup := by
      generalize d'.target = t at hl
      generalize d'.backup = b at hl
      cases hl with
      | untouched => exact Or.inr rfl
      | moved _ => exact Or.inl rfl
      | installed _ => exact Or.inl rfl
      | placed _ => exact Or.inr rfl
    have hy' : candidate iso rid none d'.backup = some y := by
      rw [hdoc, candidate, if_pos (valid_hash hvy).2]
    have hsome : (newest iso rid none d).isSome := by
      apply TwoSlot.newest_isSome
      rcases hback with hb | hb
      · exact Or.inl (by rw [← hb, hy']; rfl)
      · exact Or.inr (by rw [← hb, hy']; rfl)
    obtain ⟨s,hs⟩ := Option.isSome_iff_exists.mp hsome
    have hle := TwoSlot.le_newest hs
    have hlt := ha.newer s hs
    have heq := generationOf_sealed ha.sealed
    rcases hback with hb | hb
    · have hys := hle.1 y (by rw [← hb]; exact hy')
      omega
    · have hys := hle.2 y (by rw [← hb]; exact hy')
      omega

/-- A save that returns has stored what a load with the same plan hash finds, of the new
generation, if and only if the checkpoint was loadable. -/
theorem saved_loads_iff (D : Deps) (iso : String) (fate : Stage → Fate) (rid : String)
    (c : Checkpoint) (hash : String) (generation : ℤ) (d : Dir) {envelope : Obj} {d' : Dir}
    (hsave : save D iso fate rid c hash generation d = (.ok envelope,d')) :
    (load iso rid (some hash) none d' = .ok envelope ∧
      envelope.field "generation" = some (.int generation)) ↔ Loadable D c := by
  have hend := save_end D iso fate rid c hash generation d
  rw [hsave] at hend
  rcases hend with ⟨hno,-⟩ | ⟨e,ha,hl,hok⟩
  · exact absurd rfl (hno envelope)
  obtain ⟨rfl,ht⟩ := hok envelope rfl
  obtain ⟨dict,-,hhex,-,henv⟩ := field_sealed ha.sealed
  have hgen : envelope.field "generation" = some (.int generation) := by
    rw [henv]
    exact sealed_generation ..
  rw [load_hash_ok ha.safe hhex, newest_installed ha hl ht,
    valid_sealed_iff iso ha.sealed (by rintro _ ⟨⟩; rfl), and_iff_left hgen]

end

/-! ## Two first saves -/

/-- The first save of a run. -/
theorem save_first {c : Checkpoint} (hc : c.validate = .ok ()) :
    save plainDeps "now" (fun _ => .ok) "r" c sampleHash 0 Dir.empty =
      (.ok (sampleEnvelope c 0),⟨.document (.obj (sampleEnvelope c 0)),.absent,.absent⟩) := by
  have hid : unsafeId "r" = false := by decide
  simp [save, hid, sample_sealed hc, newest, candidate, Dir.empty, TwoSlot.newest, Node.isSymlink,
    Node.exists, stage, Faulty.call, Faulty.bind_apply, install, rotate, Faulty.handle, Faulty.get,
    Pure.pure, Faulty.pure]

theorem saved_loads_iff_first :
    load "now" "r" (some sampleHash) none
        ⟨.document (.obj (sampleEnvelope sampleCheckpoint 0)),.absent,.absent⟩ =
      .ok (sampleEnvelope sampleCheckpoint 0) := by
  have h : Loadable plainDeps sampleCheckpoint := by
    constructor
    · decide +kernel
    · intro e he o ho _
      simp only [sampleCheckpoint, List.mem_singleton] at he
      subst he
      decide +kernel
    · intro e he
      cases he
    · intro _ e he t ht
      simp only [sampleCheckpoint, List.mem_singleton] at he
      subst he
      cases ht
      rfl
  exact ((saved_loads_iff plainDeps "now" (fun _ => .ok) "r" sampleCheckpoint sampleHash 0 Dir.empty
    (save_first sample_validate)).mpr h).1

/-- A task record with a field that the reader does not know. -/
def strangeCheckpoint : Checkpoint :=
  { sampleCheckpoint with tasks := [("t",.obj [("id",.str "t"),("retry_policy",.str "none")])] }

/-- It is sealed and saved, and nothing can be loaded afterwards. -/
theorem saved_not_loaded :
    strangeCheckpoint.validate = .ok () ∧
    save plainDeps "now" (fun _ => .ok) "r" strangeCheckpoint sampleHash 0 Dir.empty =
      (.ok (sampleEnvelope strangeCheckpoint 0),
        ⟨.document (.obj (sampleEnvelope strangeCheckpoint 0)),.absent,.absent⟩) ∧
    load "now" "r" (some sampleHash) none
        ⟨.document (.obj (sampleEnvelope strangeCheckpoint 0)),.absent,.absent⟩ =
      .error ⟨"checkpoint inválido ou ilegível"⟩ := by
  have hv : strangeCheckpoint.validate = .ok () := rfl
  have hno : ¬ Loadable plainDeps strangeCheckpoint := by
    intro h
    have hn : validateNested (.obj strangeCheckpoint.fields) =
        .error ⟨"campo desconhecido em tasks.t"⟩ := by
      decide +kernel
    rw [h.nested] at hn
    cases hn
  have hvalid : ∀ expected : Option String, (∀ e ∈ expected, e = sampleHash) →
      valid "now" "r" expected (sampleEnvelope strangeCheckpoint 0) = false := by
    intro expected he
    have hiff := valid_sealed_iff "now" (sample_sealed hv (le_refl 0)) he
    simpa using fun h => hno (hiff.mp h)
  refine ⟨hv,save_first hv,?_⟩
  have hnone : ∀ expected : Option String, (∀ e ∈ expected, e = sampleHash) →
      newest "now" "r" expected
        ⟨.document (.obj (sampleEnvelope strangeCheckpoint 0)),.absent,.absent⟩ = none := by
    intro expected he
    simp [newest, candidate, hvalid expected he, TwoSlot.newest]
  have hhex : refuse ((some sampleHash).any (!isHex64 ·)) "plan hash drift" = .ok () :=
    refuse_ok.mpr (by decide)
  rw [load, hhex, hnone _ (by rintro _ ⟨⟩; rfl), hnone none (by simp)]
  rfl

end PdFleet.CheckpointV2
