import PdFleet.LogBudget
import PdFleet.Runs

/-!
# The snapshot and the log

What a run's snapshot says of its events is compared with what a replay of the event log
hands out. The replay is the beginning of a log that may be ten times as long.
-/

set_option autoImplicit false

namespace PdFleet.Journal

/-! ## The report -/

inductive ReconciliationStatus where
  | consistent | degraded | unknown
  deriving DecidableEq, Repr

inductive Mismatch where
  | eventSequence | eventCount | missingStoreSnapshot | missingEventLog | runId | ownerContext
  deriving DecidableEq, Repr

def Mismatch.text : Mismatch → String
  | eventSequence => "event_sequence_mismatch"
  | eventCount => "event_count_mismatch"
  | missingStoreSnapshot => "missing_store_snapshot"
  | missingEventLog => "missing_event_log"
  | runId => "run_id_mismatch"
  | ownerContext => "owner_context_mismatch"

/-- `_REASONS`. -/
def mismatches : List Mismatch :=
  [.eventSequence, .eventCount, .missingStoreSnapshot, .missingEventLog, .runId, .ownerContext]

structure ReportFields where
  status : ReconciliationStatus
  runId : String
  snapshotStatus : Option String
  snapshotGeneration : Option ℕ
  storeEventSequence : Option ℕ
  eventLogCount : ℕ
  eventLogLastSequence : Json
  reasons : List Mismatch

/-- `_ID.fullmatch`, of at most 128 characters here. -/
def isReconciledId (s : String) : Bool := isId s && s.length ≤ 128

section

variable (E : EventTables) (iso : String)

/-- `__post_init__`. -/
def checkReport (f : ReportFields) : Except ReportFault Unit := do
  refuse (!isReconciledId f.runId) "invalid reconciliation run id"
  refuse (f.snapshotStatus.any (fun s => 256 < s.length)) "invalid snapshot status"
  refuse (MAX_QUERY < f.eventLogCount) "invalid reconciliation event count"
  checkReported E "invalid reconciliation last sequence" f.eventLogLastSequence
  refuse (mismatches.length < f.reasons.length || !f.reasons.Nodup) "invalid reconciliation reasons"
  refuse (f.status = .consistent && !f.reasons.isEmpty)
    "consistent reconciliation cannot have reasons"
  refuse (f.status = .unknown && !f.reasons.isEmpty) "unknown reconciliation cannot have reasons"

structure RunEventReconciliationReport where
  fields : ReportFields
  valid : checkReport E fields = .ok ()

def RunEventReconciliationReport.make (f : ReportFields) :
    Except ReportFault (RunEventReconciliationReport E) :=
  match h : checkReport E f with
  | .ok () => .ok ⟨f,h⟩
  | .error e => .error e

/-! ## The comparison -/

/-- A log object and the file at its path, if there is one. -/
structure LogSource where
  log : EventLog
  file : Option LogFile

def LogSource.lines (l : LogSource) : LogFile := l.file.getD []

/-- `events[-1].sequence if events else (0 if log_exists else None)`. -/
def lastSequence (l : LogSource) (events : List (FleetEvent E)) : Json :=
  match events.getLast? with
  | some e => e.fields.sequence
  | none => if l.file.isSome then .int 0 else .null

def identityMismatch (l : LogSource) (runId : String) (events : List (FleetEvent E)) : Bool :=
  l.log.runId ≠ runId || events.any (fun e => !e.fields.runId.isStr runId)

def ownerMismatch (l : LogSource) (events : List (FleetEvent E)) : Bool :=
  !(l.log.ownerEpoch matches .null) &&
    events.any (fun e => !sameNumber E e.fields.ownerEpoch l.log.ownerEpoch)

/-- Whether each of the reasons is given. -/
def given (snapshot : Option Snapshot) (l : LogSource) (runId : String)
    (events : List (FleetEvent E)) : Mismatch → Bool
  | .missingStoreSnapshot => snapshot.isNone
  | .missingEventLog => l.file.isNone
  | .runId => snapshot.any (fun s => s.runId ≠ runId) || identityMismatch E l runId events
  | .ownerContext => ownerMismatch E l events
  | .eventSequence => l.file.isSome &&
      snapshot.any (fun s => !sameNumber E (.int s.eventSequence) (lastSequence E l events))
  | .eventCount => l.file.isSome && snapshot.any (fun s => s.events.items.length ≠ events.length)

/-- `store.load`, where a missing run is no snapshot. -/
def loadedOrNone : Except PyError Snapshot → Except ReportFault (Option Snapshot)
  | .ok s => .ok (some s)
  | .error (.runNotFound _) => .ok none
  | .error e => .error (.store e)

/-- `event_log.replay`. -/
def replayed (limit : ℤ) (l : LogSource) : Except ReportFault (List (FleetEvent E)) :=
  (replay E iso limit l.lines).mapError .event

/-- `reconcile_run_events`, of what the store loads for the run. -/
def reconcileRunEvents (loaded : Except PyError Snapshot) (l : LogSource) (runId : String)
    (limit : ℤ) : Except ReportFault (RunEventReconciliationReport E) := do
  refuse (!isReconciledId runId) "run_id inválido"
  refuse (limit < 1 || MAX_QUERY < limit) "limit fora dos limites"
  let snapshot ← loadedOrNone loaded
  let events ← replayed E iso limit l
  if snapshot.isNone && l.file.isNone && !identityMismatch E l runId events then
    RunEventReconciliationReport.make E ⟨.unknown,runId,none,none,none,0,.null,[]⟩
  else
    let reasons := mismatches.filter (given E snapshot l runId events)
    RunEventReconciliationReport.make E
      { status := if reasons.isEmpty then .consistent else .degraded
        runId := runId
        snapshotStatus := snapshot.map (·.status.text)
        snapshotGeneration := snapshot.map (·.generation)
        storeEventSequence := snapshot.map (·.eventSequence)
        eventLogCount := events.length
        eventLogLastSequence := lastSequence E l events
        reasons := reasons }

/-! ## When the verdict is right -/

/-- As many events in the snapshot as in the list, and the same last sequence number. -/
def Agrees (s : Snapshot) (l : LogSource) (events : List (FleetEvent E)) : Prop :=
  s.events.items.length = events.length ∧
    sameNumber E (.int s.eventSequence) (lastSequence E l events) = true

/-- The event at the place `k` of the list, from one, bears the number of its place. -/
def Numbered (events : List (FleetEvent E)) (k : ℕ) : Prop :=
  ∃ e, events[k-1]? = some e ∧ number E e.fields.sequence = k

/-- A snapshot that the store loads, and a readable log of the same run and owner. -/
structure SameRun (D : Deps) (runId : String) (d : RunDir) (s : Snapshot) (l : LogSource)
    (events : List (FleetEvent E)) : Prop where
  id : isReconciledId runId = true
  loads : load D runId d = .ok s
  readable : ∃ rs, records E iso l.lines = .ok rs ∧ events = rs.map Prod.fst
  run : l.log.runId = runId
  sameRun : ∀ e ∈ events, e.fields.runId.isStr runId = true
  sameOwner : l.log.ownerEpoch ≠ .null →
    ∀ e ∈ events, sameNumber E e.fields.ownerEpoch l.log.ownerEpoch = true

end

variable {E : EventTables} {iso : String} {D : Deps} {runId : String} {d : RunDir} {s : Snapshot}
  {l : LogSource} {events : List (FleetEvent E)}

theorem lastSequence_reported {msg : String} :
    checkReported E msg (lastSequence E l events) = .ok () := by
  rw [lastSequence]
  split
  · exact checkReported_of_checkNumber (sequence_checked _)
  · split_ifs
    · have hlimit : ¬floatLimit ≤ 0 := by decide +kernel
      rw [checkReported, Int.natAbs_zero, if_neg hlimit, refuse_ok]
      rfl
    · rfl

theorem status_length (r : RunStatus) : r.text.length ≤ 256 := by
  cases r <;> decide

theorem SameRun.valid (h : SameRun E iso D runId d s l events) : s.Valid D runId :=
  reads_valid (load_eq_ok.mp h.loads)

/-- A valid snapshot numbers its events from one on. -/
theorem length_of_valid (h : s.Valid D runId) :
    s.events.items.length = s.eventSequence := by
  have hlog := h.logged
  rw [Snapshot.logged, Bool.and_eq_true, decide_eq_true_eq] at hlog
  have hlen := congrArg List.length hlog.2
  rwa [List.length_map, sequencesTo, List.length_map, List.length_range] at hlen

theorem SameRun.replayed (h : SameRun E iso D runId d s l events) :
    replayed E iso MAX_QUERY l = .ok (events.take MAX_QUERY) := by
  obtain ⟨rs,hrs,rfl⟩ := h.readable
  rw [Journal.replayed, replay_ok hrs, List.map_take]
  rfl

/-- The reasons that a snapshot and a log of the same run can be given. -/
theorem SameRun.given_iff (h : SameRun E iso D runId d s l events) (m : Mismatch) :
    given E (some s) l runId (events.take MAX_QUERY) m = true ↔
      match m with
      | .missingEventLog => l.file = none
      | .eventSequence => l.file.isSome = true ∧
          sameNumber E (.int s.eventSequence) (lastSequence E l (events.take MAX_QUERY)) = false
      | .eventCount => l.file.isSome = true ∧
          s.events.items.length ≠ (events.take MAX_QUERY).length
      | _ => False := by
  have hmem : ∀ e ∈ events.take MAX_QUERY, e ∈ events := fun e he => List.mem_of_mem_take he
  cases m with
  | missingStoreSnapshot => simp [given]
  | missingEventLog => simp [given]
  | eventSequence => simp [given]
  | eventCount => simp [given]
  | runId =>
    simp only [given, identityMismatch, Option.any_some, h.valid.run, h.run, ne_eq,
      not_true_eq_false, decide_false, Bool.false_or, List.any_eq_true, Bool.not_eq_true',
      iff_false, not_exists, not_and, Bool.not_eq_false]
    exact fun e he => h.sameRun e (hmem e he)
  | ownerContext =>
    simp only [given, ownerMismatch, Bool.and_eq_true, List.any_eq_true, Bool.not_eq_true',
      iff_false, not_and, not_exists, Bool.not_eq_false]
    intro hnull e he
    apply h.sameOwner ?_ e (hmem e he)
    intro heq
    rw [heq] at hnull
    cases hnull

theorem make_of_valid {f : ReportFields} (h : checkReport E f = .ok ()) :
    RunEventReconciliationReport.make E f = .ok ⟨f,h⟩ := by
  unfold RunEventReconciliationReport.make
  split
  · rfl
  · rename_i e he
    rw [h] at he
    cases he

theorem mismatches_filter (p : Mismatch → Bool) :
    (mismatches.filter p).length ≤ mismatches.length ∧ (mismatches.filter p).Nodup :=
  ⟨List.length_filter_le _ _,List.Nodup.filter _ (by decide)⟩

/-- The report is made, and its verdict is about the first thousand events. -/
theorem SameRun.reconciled (h : SameRun E iso D runId d s l events) :
    ∃ report, reconcileRunEvents E iso (load D runId d) l runId MAX_QUERY = .ok report ∧
      (report.fields.status = .consistent ↔ Agrees E s l (events.take MAX_QUERY)) := by
  let reasons := mismatches.filter (given E (some s) l runId (events.take MAX_QUERY))
  let fields : ReportFields :=
    { status := if reasons.isEmpty then .consistent else .degraded
      runId := runId
      snapshotStatus := some s.status.text
      snapshotGeneration := some s.generation
      storeEventSequence := some s.eventSequence
      eventLogCount := (events.take MAX_QUERY).length
      eventLogLastSequence := lastSequence E l (events.take MAX_QUERY)
      reasons := reasons }
  have hvalid : checkReport E fields = .ok () := by
    have hcount : (events.take MAX_QUERY).length ≤ MAX_QUERY := List.length_take_le _ _
    have hstatus := status_length s.status
    obtain ⟨hfew,hnodup⟩ :=
      mismatches_filter (given E (some s) l runId (events.take MAX_QUERY))
    have hreasons : (mismatches.length < reasons.length || !reasons.Nodup) = false := by
      simp only [Bool.or_eq_false_iff, decide_eq_false_iff_not, not_lt, Bool.not_eq_false',
        decide_eq_true_eq]
      exact ⟨hfew,hnodup⟩
    have hplain : (fields.status = .consistent && !reasons.isEmpty) = false := by
      cases hr : reasons.isEmpty <;> simp [fields, hr]
    have hknown : (fields.status = .unknown && !reasons.isEmpty) = false := by
      cases hr : reasons.isEmpty <;> simp [fields, hr]
    have hlast : checkReported E "invalid reconciliation last sequence"
        fields.eventLogLastSequence = .ok () := lastSequence_reported
    have h1 : refuse (!isReconciledId fields.runId) "invalid reconciliation run id" = .ok () := by
      rw [refuse_ok, h.id]
      rfl
    have h2 : refuse (fields.snapshotStatus.any (fun s => 256 < s.length))
        "invalid snapshot status" = .ok () := by
      simpa [refuse_ok, fields] using hstatus
    have h3 : refuse (MAX_QUERY < fields.eventLogCount)
        "invalid reconciliation event count" = .ok () := by
      rw [refuse_ok, decide_eq_false_iff_not, not_lt]
      exact hcount
    rw [checkReport, h1, h2, h3, hlast]
    simp only [fields] at hplain hknown ⊢
    rw [hreasons, hplain, hknown]
    rfl
  refine ⟨⟨fields,hvalid⟩,?_,?_⟩
  · have h1 : refuse (!isReconciledId runId) "run_id inválido" = .ok () := by
      rw [refuse_ok, h.id]
      rfl
    have h2 : refuse ((MAX_QUERY : ℤ) < 1 || (MAX_QUERY : ℤ) < MAX_QUERY)
        "limit fora dos limites" = .ok () := by
      rw [refuse_ok]
      rfl
    rw [reconcileRunEvents, h1, h2, h.loads, h.replayed]
    exact make_of_valid hvalid
  · have hstatus : fields.status = .consistent ↔ reasons = [] := by
      cases hr : reasons with
      | nil => simp [fields, hr]
      | cons m ms => simp [fields, hr]
    rw [hstatus, List.filter_eq_nil_iff]
    constructor
    · intro hnone
      have hno : ∀ m, given E (some s) l runId (events.take MAX_QUERY) m ≠ true :=
        fun m => hnone m (by cases m <;> decide)
      have hfile : l.file.isSome = true := by
        rw [← Option.ne_none_iff_isSome]
        exact fun he => hno .missingEventLog ((h.given_iff .missingEventLog).mpr he)
      constructor
      · by_contra hne
        exact hno .eventCount ((h.given_iff .eventCount).mpr ⟨hfile,hne⟩)
      · by_contra hne
        rw [Bool.not_eq_true] at hne
        exact hno .eventSequence ((h.given_iff .eventSequence).mpr ⟨hfile,hne⟩)
    · rintro ⟨hcount,hseq⟩ m - hm
      have hm' := (h.given_iff m).mp hm
      cases m with
      | missingEventLog =>
        have hnil : events = [] := by
          obtain ⟨rs,hrs,rfl⟩ := h.readable
          have hlen := (records_ok.mp hrs).2.reads.length_eq
          rw [LogSource.lines, hm', Option.getD_none, List.length_nil] at hlen
          rw [List.length_eq_zero_iff.mp hlen.symm]
          rfl
        rw [hnil, List.take_nil, lastSequence, List.getLast?_nil, hm'] at hseq
        cases hseq
      | eventSequence =>
        rw [hseq] at hm'
        cases hm'.2
      | eventCount => exact hm'.2 hcount
      | missingStoreSnapshot => exact hm'
      | runId => exact hm'
      | ownerContext => exact hm'

/-- Of a valid snapshot and a log with events, the verdict compares the number that the
last event bears with its place. -/
theorem agrees_iff (hs : s.Valid D runId) (hne : events ≠ []) :
    Agrees E s l events ↔ s.eventSequence = events.length ∧ Numbered E events s.eventSequence := by
  have hlast : events[events.length-1]? = some (events.getLast hne) := by
    rw [← List.getLast?_eq_getElem?, List.getLast?_eq_some_getLast hne]
  have hseq : lastSequence E l events = (events.getLast hne).fields.sequence := by
    rw [lastSequence, List.getLast?_eq_some_getLast hne]
  have hnull : Json.int s.eventSequence ≠ .null := by simp
  have hint : number E (.int s.eventSequence) = s.eventSequence := by
    simp [number]
  rw [Agrees, length_of_valid hs, hseq, sameNumber_eq hnull (sequence_ne_null _),
    decide_eq_true_eq, hint]
  constructor
  · rintro ⟨hlen,hnum⟩
    refine ⟨hlen,events.getLast hne,?_,?_⟩
    · rw [hlen]
      exact hlast
    · exact hnum.symm
  · rintro ⟨hlen,e,he,hnum⟩
    rw [hlen, hlast, Option.some.injEq] at he
    refine ⟨hlen,?_⟩
    rw [he, hnum]

/-- The reconciliation reports `consistent` exactly for an agreeing log if and only if the
log has no more events than a replay hands out, or the snapshot can be mistaken for neither
its beginning nor the whole of it. -/
theorem consistent_iff (E : EventTables) (iso : String) (D : Deps) (runId : String) (d : RunDir)
    (s : Snapshot) (l : LogSource) (events : List (FleetEvent E))
    (h : SameRun E iso D runId d s l events) :
    (∃ report, reconcileRunEvents E iso (load D runId d) l runId MAX_QUERY = .ok report ∧
        (report.fields.status = .consistent ↔ Agrees E s l events)) ↔
      events.length ≤ MAX_QUERY ∨
        ¬((s.eventSequence = MAX_QUERY ∨ s.eventSequence = events.length) ∧
          Numbered E events s.eventSequence) := by
  obtain ⟨report,hreport,hstatus⟩ := h.reconciled
  have hexact : (∃ report, reconcileRunEvents E iso (load D runId d) l runId MAX_QUERY = .ok report ∧
      (report.fields.status = .consistent ↔ Agrees E s l events)) ↔
        (Agrees E s l (events.take MAX_QUERY) ↔ Agrees E s l events) := by
    rw [← hstatus]
    constructor
    · rintro ⟨report',hreport',hiff⟩
      rw [hreport, Except.ok.injEq] at hreport'
      rwa [hreport']
    · exact fun hiff => ⟨report,hreport,hiff⟩
  rw [hexact]
  rcases le_or_gt events.length MAX_QUERY with hle | hgt
  · rw [List.take_of_length_le hle]
    exact iff_of_true Iff.rfl (Or.inl hle)
  · have hne : events ≠ [] := by
      rintro rfl
      cases hgt
    have hlen : (events.take MAX_QUERY).length = MAX_QUERY := by
      rw [List.length_take]
      omega
    have hnet : events.take MAX_QUERY ≠ [] := by
      intro he
      rw [he] at hlen
      cases hlen
    have hplace : Numbered E (events.take MAX_QUERY) MAX_QUERY ↔ Numbered E events MAX_QUERY := by
      rw [Numbered, Numbered, List.getElem?_take_of_lt (by decide)]
    have htake : Agrees E s l (events.take MAX_QUERY) ↔
        s.eventSequence = MAX_QUERY ∧ Numbered E events s.eventSequence := by
      rw [agrees_iff h.valid hnet, hlen]
      refine and_congr_right (fun hk => ?_)
      rw [hk, hplace]
    rw [htake, agrees_iff h.valid hne]
    constructor
    · rintro hiff
      right
      rintro ⟨hk | hk,hnum⟩
      · have := (hiff.mp ⟨hk,hnum⟩).1
        omega
      · have := (hiff.mpr ⟨hk,hnum⟩).1
        omega
    · rintro (hle | hno)
      · omega
      · exact iff_of_false (fun ha => hno ⟨Or.inl ha.1,ha.2⟩) (fun ha => hno ⟨Or.inr ha.1,ha.2⟩)

/-! ## A log longer than a replay -/

def tally (k : ℕ) : List Char := List.replicate (k/100) 'x'++List.replicate (k%100+1) 'y'

theorem idle_tally (k : ℕ) : Idle (tally k) := by
  intro c hc
  rcases List.mem_append.mp hc with hc | hc
  · exact Or.inl (List.eq_of_mem_replicate hc)
  · exact Or.inr (List.eq_of_mem_replicate hc)

theorem tally_length (k : ℕ) : (tally k).length = k/100+(k%100+1) := by
  rw [tally, List.length_append, List.length_replicate, List.length_replicate]

theorem tally_injective {k m : ℕ} (h : tally k = tally m) : k = m := by
  have hx := congrArg (List.count 'x') h
  have hlen := congrArg List.length h
  rw [tally_length, tally_length] at hlen
  simp only [tally, List.count_append, List.count_replicate] at hx
  simp at hx
  omega

/-- The event of the place `k+1`. -/
def tick (k : ℕ) : EventFields where
  schemaVersion := .int 1
  eventId := .str (String.ofList (tally k))
  runId := .str "run"
  taskId := .null
  kind := .str "step"
  orderingKey := .str "a"
  sequence := .int (k+1 : ℕ)
  ownerEpoch := .null
  payload := .null
  createdAt := .str "2026-01-01T00:00:00Z"

theorem tickSequence_size : ∀ k < 1001, textSize (.int (k+1 : ℕ)) ≤ 4 := by decide +kernel

theorem tick_size {k : ℕ} (hk : k < 1001) : (canonical (tick k).toDict).utf8ByteSize ≤ 400 := by
  have hid : textSize (tick k).eventId = (tally k).length+2 := (idle_tally k).size
  have hsequence : textSize (tick k).sequence ≤ 4 := tickSequence_size k hk
  have hconstant : textSize (tick k).schemaVersion+textSize (tick k).runId+
      textSize (tick k).taskId+textSize (tick k).kind+textSize (tick k).orderingKey+
      textSize (tick k).ownerEpoch+textSize (tick k).payload+textSize (tick k).createdAt = 49 := by
    obtain ⟨hone,hrun,hnull,hstep,hstamp⟩ := text_sizes
    have hkey : textSize (.str "a") = 3 := by decide +kernel
    simp only [tick, hone, hrun, hnull, hstep, hkey, hstamp]
  rw [tally_length] at hid
  rw [toDict_size]
  omega

theorem tick_checked {k : ℕ} (hk : k < 1001) : checkEvent plainTables (tick k) = .ok () := by
  have hid : checkString plainTables "event_id" true (tick k).eventId = .ok () := by
    apply (idle_tally k).checkString
    · rw [← List.length_pos_iff, tally_length]
      omega
    · rw [tally_length]
      omega
  obtain ⟨hrun,hkind,htime⟩ := plain_texts
  have hkey : checkString plainTables "ordering_key" false (.str "a") = .ok () := by
    decide +kernel
  have hsequence : checkNumber plainTables "sequence" (tick k).sequence = .ok () :=
    checkNumber_small (by omega)
  have hsize : deny (MAX_PAYLOAD_BYTES < (canonical (tick k).toDict).utf8ByteSize)
      "evento excede o limite de payload" = .ok () := by
    have := tick_size hk
    rw [deny_ok, decide_eq_false_iff_not, not_lt, MAX_PAYLOAD_BYTES]
    omega
  rw [checkEvent, hid, hsequence, hsize]
  simp only [tick, hrun, hkind, hkey, htime]
  rfl

def tickEvent (k : ℕ) : FleetEvent plainTables :=
  ⟨tick (k%1001),tick_checked (Nat.mod_lt k (by decide))⟩

def ticks (n : ℕ) : List (FleetEvent plainTables) := (List.range n).map tickEvent

def tickFile (n : ℕ) : LogFile := (ticks n).map FleetEvent.line

theorem ticks_length (n : ℕ) : (ticks n).length = n := by
  rw [ticks, List.length_map, List.length_range]

theorem tickEvent_bytes (k : ℕ) : (tickEvent k).line.bytes ≤ 479 := by
  rw [line_bytes, FleetEvent.canonical]
  exact Nat.add_le_add_right (tick_size (Nat.mod_lt k (by decide))) 79

theorem tickEvent_sequence {k : ℕ} (hk : k < 1001) :
    number plainTables (tickEvent k).fields.sequence = k+1 := by
  have hmod : k%1001 = k := Nat.mod_eq_of_lt hk
  simp [tickEvent, tick, number, hmod]

theorem ticks_orderly {n : ℕ} (hn : n ≤ 1001) : Orderly bulkLog (ticks n) where
  sameRun := by
    intro e he
    obtain ⟨k,-,rfl⟩ := List.mem_map.mp he
    rfl
  distinct := by
    rw [ticks, List.map_map]
    apply List.Nodup.map_on ?_ List.nodup_range
    intro k hk m hm h
    rw [List.mem_range] at hk hm
    have := tally_injective (String.ofList_injective h)
    omega
  numbered := by
    intro e he
    obtain ⟨k,-,rfl⟩ := List.mem_map.mp he
    simp [tickEvent, tick]
  increasing := by
    rw [ticks, List.pairwise_map]
    refine List.Pairwise.imp_of_mem ?_ List.pairwise_lt_range
    intro k m hk hm hlt
    rw [List.mem_range] at hk hm
    rw [tickEvent_sequence (by omega), tickEvent_sequence (by omega)]
    exact_mod_cast Nat.add_lt_add_right hlt 1
  short := by
    intro e he
    obtain ⟨k,-,rfl⟩ := List.mem_map.mp he
    exact le_trans (tickEvent_bytes k) (by decide)

theorem tickFile_bytes {n : ℕ} (hn : n ≤ 1001) : (tickFile n).bytes ≤ MAX_LOG_BYTES := by
  have hle : ∀ m ∈ (tickFile n).map Line.bytes, m ≤ 479 := by
    intro m hm
    simp only [tickFile, ticks, List.map_map, List.mem_map] at hm
    obtain ⟨k,-,rfl⟩ := hm
    exact tickEvent_bytes k
  have hsum := List.sum_le_card_nsmul _ _ hle
  have hmax : MAX_LOG_BYTES = 4194304 := by decide
  rw [List.length_map, tickFile, List.length_map, ticks_length, smul_eq_mul] at hsum
  rw [tickFile, LogFile.bytes]
  omega

theorem ticks_appended {n : ℕ} (hn : n ≤ 1001) :
    appendAll plainTables "now" bulkLog (ticks n) [] = .ok (tickFile n) := by
  have hcount : MAX_EVENTS = 10000 := rfl
  apply appendAll_orderly rfl (ticks_orderly hn)
  · rw [ticks_length]
    omega
  · refine le_trans ?_ (tickFile_bytes hn)
    apply List.Sublist.sum_le_sum
    · exact ((List.dropLast_sublist (ticks n)).map _).map _
    · exact fun _ _ => Nat.zero_le _

def keptDeps : Deps := ⟨.ok,fun _ => false⟩

def eventRow (k : ℕ) : Obj :=
  [("sequence",.int ((k : ℤ)+1)), ("event_id",.str "e"), ("ordering_key",.str "a")]

theorem eventRow_valid (k : ℕ) : validEvent (eventRow k) = true := by
  have hsequence : (Json.int ((k : ℤ)+1)).isIntFrom 1 = true := by
    simp [Json.isIntFrom]
  have hfields : (eventRow k).field "sequence" = some (.int ((k : ℤ)+1)) ∧
      (eventRow k).field "event_id" = some (.str "e") ∧
      (eventRow k).field "ordering_key" = some (.str "a") ∧
      (eventRow k).field "generation" = none ∧ (eventRow k).field "metadata" = none :=
    ⟨rfl,rfl,rfl,rfl,rfl⟩
  obtain ⟨h1,h2,h3,h4,h5⟩ := hfields
  rw [validEvent, h1, h2, h3, h4, h5, Option.any_some, hsequence]
  decide

/-- A run of `n` events. -/
def longRun (n : ℕ) : Snapshot where
  runId := "run"
  planHash := sha256Hex (planHashDomain++dumps (.obj []))
  plan := []
  generation := n
  owner := "owner"
  status := .running
  waves := .list []
  tasks := ∅
  leases := ∅
  attempts := ∅
  checkpoints := ∅
  reports := ∅
  events := .list ((List.range n).map eventRow)
  gates := .obj []
  metrics := .obj []
  audit := .arr []
  eventSequence := n
  updatedAt := "2026-01-01T00:00:00Z"

theorem longRun_valid (n : ℕ) : (longRun n).Valid keptDeps "run" where
  run := rfl
  owner := (by decide : isId "owner" = true)
  hash := rfl
  updated := (by decide +kernel : (utcInstant "2026-01-01T00:00:00Z").isSome = true)
  gates := rfl
  metrics := rfl
  audit := rfl
  tasks := fun k t h => by simp [longRun] at h
  leases := fun k l h => by simp [longRun] at h
  reports := fun k r h => by simp [longRun] at h
  logged := by
    have hvalid : ((List.range n).map eventRow).all validEvent = true := by
      rw [List.all_map]
      exact List.all_eq_true.mpr (fun k _ => eventRow_valid k)
    have hsequences : ((List.range n).map eventRow).map sequence = sequencesTo n := by
      rw [List.map_map, sequencesTo]
      exact List.map_congr_left (fun k _ => rfl)
    show (((List.range n).map eventRow).all validEvent &&
      decide (((List.range n).map eventRow).map sequence = sequencesTo n)) = true
    rw [hvalid, hsequences]
    simp

def longDir (n : ℕ) : RunDir :=
  { RunDir.empty with snapshot := .document (.obj (longRun n).document.sealed) }

theorem longRun_loads (n : ℕ) : load keptDeps "run" (longDir n) = .ok (longRun n) := by
  have hread : readNode keptDeps "run" (longDir n).snapshot = .accept (longRun n) :=
    validate_sealed_of_valid (longRun_valid n)
  rw [load_eq_ok, PdFleet.Reads, validSnapshot, hread]
  rfl

def tickSource (n : ℕ) : LogSource := ⟨bulkLog,some (tickFile n)⟩

theorem ticks_sameRun {n : ℕ} (hn : n ≤ 1001) (m : ℕ) :
    SameRun plainTables "now" keptDeps "run" (longDir m) (longRun m) (tickSource n) (ticks n) where
  id := by decide
  loads := longRun_loads m
  readable := by
    have hcount : (ticks n).length ≤ MAX_EVENTS := by
      rw [ticks_length, MAX_EVENTS]
      omega
    have hread : Wellformed plainTables "now" (tickFile n)
        ((ticks n).map (fun e => (e,e.canonical))) :=
      wellformed_lines hcount (ticks_orderly hn).short
    refine ⟨(ticks n).map (fun e => (e,e.canonical)),?_,?_⟩
    · exact records_ok.mpr ⟨tickFile_bytes hn,hread⟩
    · rw [List.map_map]
      exact (List.map_id (ticks n)).symm
  run := rfl
  sameRun := (ticks_orderly hn).sameRun
  sameOwner := fun h => absurd rfl h

/-- A log of one event and a snapshot of one. -/
theorem one_event_reconciled :
    SameRun plainTables "now" keptDeps "run" (longDir 1) (longRun 1) (tickSource 1) (ticks 1) ∧
      ∃ report, reconcileRunEvents plainTables "now" (load keptDeps "run" (longDir 1)) (tickSource 1)
          "run" MAX_QUERY = .ok report ∧
        (report.fields.status = .consistent ↔
          Agrees plainTables (longRun 1) (tickSource 1) (ticks 1)) := by
  have hsame := ticks_sameRun (by decide : 1 ≤ 1001) 1
  refine ⟨hsame,(consistent_iff plainTables "now" keptDeps "run" (longDir 1) (longRun 1) (tickSource 1)
    (ticks 1) hsame).mpr (Or.inl ?_)⟩
  rw [ticks_length]
  decide

/-- A log of a thousand and one events, numbered from one, whose appends all returned, is
reported to be consistent with a snapshot of a thousand. -/
theorem longer_log_consistent :
    appendAll plainTables "now" ⟨"run",.null⟩ (ticks 1001) [] = .ok (tickFile 1001) ∧
      SameRun plainTables "now" keptDeps "run" (longDir 1000) (longRun 1000) (tickSource 1001)
        (ticks 1001) ∧
      (∃ report, reconcileRunEvents plainTables "now" (load keptDeps "run" (longDir 1000))
          (tickSource 1001) "run" MAX_QUERY = .ok report ∧ report.fields.status = .consistent) ∧
      ¬Agrees plainTables (longRun 1000) (tickSource 1001) (ticks 1001) := by
  have hsame := ticks_sameRun (le_refl 1001) 1000
  obtain ⟨report,hreport,hstatus⟩ := hsame.reconciled
  have hseq : (longRun 1000).eventSequence = 1000 := rfl
  refine ⟨ticks_appended (le_refl 1001),hsame,⟨report,hreport,hstatus.mpr ?_⟩,?_⟩
  · have htake : ((ticks 1001).take MAX_QUERY).length = 1000 := by
      rw [List.length_take, ticks_length]
      rfl
    have hne : (ticks 1001).take MAX_QUERY ≠ [] := by
      intro he
      rw [he] at htake
      cases htake
    have hget : ((ticks 1001).take MAX_QUERY)[999]? = some (tickEvent 999) := by
      rw [List.getElem?_take_of_lt (by decide), ticks, List.getElem?_map,
        List.getElem?_range (by decide)]
      rfl
    rw [agrees_iff hsame.valid hne, htake]
    refine ⟨hseq,tickEvent 999,hget,?_⟩
    rw [tickEvent_sequence (by decide), hseq]
    norm_num
  · rintro ⟨hcount,-⟩
    rw [length_of_valid hsame.valid, ticks_length, hseq] at hcount
    omega

end PdFleet.Journal
