import PdFleet.ReportAgain

/-!
# The second parse of a report

What the parser makes of the mapping of a report that it made, and when that is the report.
-/

set_option autoImplicit false

namespace PdFleet.Contracts

open Pattern

section

variable {T : ReportTables}

/-- A report that the parser made: its checks hold, and its instants are written in UTC. -/
structure Parsed (T : ReportTables) (r : AgentReportV2) : Prop extends Checked T r where
  started : ∃ t ≤ maxInstant, r.startedAt = clockText t
  completed : ∃ t ≤ maxInstant, r.completedAt = clockText t

theorem identityOf_fields {r : AgentReportV2} (h : Checked T r) :
    identityOf (redactEntries T.toPlanTables r.fields) =
      .ok (shownText T.toPlanTables r.taskId,shownText T.toPlanTables r.agentId,
        shownText T.toPlanTables r.role) := by
  have hagent : Obj.field (redactEntries T.toPlanTables r.fields) "agent" = none :=
    field_unknown (by decide +kernel)
  have hagentId := field_header (T := T) (r := r) (k := "agent_id") (v := .str r.agentId)
    (by simp [AgentReportV2.header])
  have htask := field_header (T := T) (r := r) (k := "task_id") (v := .str r.taskId)
    (by simp [AgentReportV2.header])
  have hrole := field_header (T := T) (r := r) (k := "role") (v := .str r.role)
    (by simp [AgentReportV2.header])
  simp only [identityOf, hagent, hagentId, htask, hrole, Option.all_some, Option.all_none,
    Option.getD_some, Option.orElse_some, asText_shown h.taskId, asText_shown h.agentId,
    asText_shown h.role, require, if_true, bind, Except.bind, pure, Except.pure]

theorem instantsOf_fields {r : AgentReportV2} (h : Parsed T r) :
    ∃ t u, instantsOf T (redactEntries T.toPlanTables r.fields) = .ok (t,u) ∧
      clockText t = r.startedAt ∧ clockText u = r.completedAt := by
  obtain ⟨t,ht,hstarted⟩ := h.started
  obtain ⟨u,hu,hcompleted⟩ := h.completed
  obtain ⟨t',u',hread,hread',-⟩ := h.instants
  rw [hstarted] at hread
  rw [hcompleted] at hread'
  obtain ⟨-,htext,hparse⟩ := read_clockText ht hread
  obtain ⟨-,htext',hparse'⟩ := read_clockText hu hread'
  have htimes : Obj.field (redactEntries T.toPlanTables r.fields) "timestamps" = none :=
    field_unknown (by decide +kernel)
  have hs := field_header (T := T) (r := r) (k := "started_at") (v := .str r.startedAt)
    (by simp [AgentReportV2.header])
  have hc := field_header (T := T) (r := r) (k := "completed_at") (v := .str r.completedAt)
    (by simp [AgentReportV2.header])
  rw [hstarted, redactValue_clockText] at hs
  rw [hcompleted, redactValue_clockText] at hc
  refine ⟨t,u,?_,hstarted.symm,hcompleted.symm⟩
  have hnone : ∀ k : String, (Obj.field ([] : Obj) k).getD .null = .null := fun _ => rfl
  simp only [instantsOf, htimes, hs, hc, Option.getD_none, Option.getD_some, timestampsOf, absent,
    hnone, require, if_true, Bool.not_false, Bool.and_self, Bool.false_eq_true, if_false,
    htext, htext', hparse, hparse', sameInstants, Bool.or_true, bind, Except.bind, pure, Except.pure]

theorem schema_shown : (redactValue T.toPlanTables (.str agentReportV2SchemaVersion)).isStr
    agentReportV2SchemaVersion = true := by
  have hplain : redactReportText T.toPlanTables agentReportV2SchemaVersion.toList =
      agentReportV2SchemaVersion.toList := redactReportText_literal rfl
  rw [redactValue, hplain, String.ofList_toList]
  rfl

theorem attemptOf_shown {n : ℤ} (h : 1 ≤ n) : attemptOf (.int n) = .ok n := if_neg (not_lt.mpr h)

/-- The second parse is the construction of the report that was shown. -/
theorem parseData_fields (flag : Bool) {r : AgentReportV2} (h : Parsed T r) :
    parseData T flag (.obj (redactEntries T.toPlanTables r.fields)) = makeReport T (r.again T) := by
  obtain ⟨t,u,hinstants,hstarted,hcompleted⟩ := instantsOf_fields h
  have hagain := h.toChecked.again
  have hschema := field_header (T := T) (r := r) (k := "schema_version")
    (v := .str agentReportV2SchemaVersion) (by simp [AgentReportV2.header])
  have hstatus := field_header (T := T) (r := r) (k := "status") (v := .str r.status)
    (by simp [AgentReportV2.header])
  have htask := field_header (T := T) (r := r) (k := "task_id") (v := .str r.taskId)
    (by simp [AgentReportV2.header])
  have hattempt := field_header (T := T) (r := r) (k := "attempt") (v := .int r.attempt)
    (by simp [AgentReportV2.header])
  have hrole := field_header (T := T) (r := r) (k := "role") (v := .str r.role)
    (by simp [AgentReportV2.header])
  have hcaps := field_header (T := T) (r := r) (k := "capabilities")
    (v := .arr (r.capabilities.map .str)) (by simp [AgentReportV2.header])
  have hagent : Obj.field (redactEntries T.toPlanTables r.fields) "agent" = none :=
    field_unknown (by decide +kernel)
  have hrequired : ["task_id", "attempt", "role", "capabilities"].all (fun k =>
      !absent ((Obj.field (redactEntries T.toPlanTables r.fields) k).getD .null)) = true := by
    simp only [List.all_cons, List.all_nil, htask, hattempt, hrole, hcaps, Option.getD_some,
      absent_redactValue]
    rfl
  have hkeys : ((redactEntries T.toPlanTables r.fields).filter
      (fun e => e.1 ∈ reportV2Fields ∧ e.1 ≠ "timestamps")).all
        (fun e => keysInOrder T.toPlanTables e.2) = true := by
    refine List.all_eq_true.mpr fun e he => ?_
    rw [redactEntries_eq] at he
    obtain ⟨d,hd,rfl⟩ := List.mem_map.mp (List.mem_of_mem_filter he)
    rw [keysInOrder_redactValue]
    exact h.fields_keysInOrder d hd
  have hint : redactValue T.toPlanTables (.int r.attempt) = .int r.attempt := rfl
  have houtcome : checkOutcome (r.again T).status (fun k => "completed missing " ++ k)
      (r.again T).payload = .ok () := again_outcome h.outcome
  have hretry := again_retry (T := T) h.retry
  rw [AgentReportV2.again] at houtcome hretry
  dsimp only at houtcome hretry
  simp only [parseData, withExtensions_fields, hschema, hstatus, hattempt, hcaps, hagent,
    Option.getD_some, Option.getD_none, schema_shown, statusOf_shown h.status, hrequired, hkeys,
    identityOf_fields h.toChecked, hint, attemptOf_shown h.attempt, capabilitiesOf_shown h.capabilities,
    hinstants, houtcome, hretry, require, if_true, bind, Except.bind]
  have ht : String.ofList (shortFormat t) = r.startedAt := hstarted
  have hu : String.ofList (shortFormat u) = r.completedAt := hcompleted
  rw [ht, hu, AgentReportV2.again]
  rfl

/-! ## Reports that the parser made -/

theorem parseInstant_le {name : String} {text : List Char} {t : ℕ}
    (h : parseInstant name text = .ok t) : t ≤ maxInstant := by
  rw [parseInstant] at h
  split at h
  next t' ht =>
    cases h
    exact le_of_instantOf ht
  next => cases h

theorem instantsOf_le {data : Obj} {t u : ℕ} (h : instantsOf T data = .ok (t,u)) :
    t ≤ maxInstant ∧ u ≤ maxInstant := by
  simp only [instantsOf, bind_ok] at h
  obtain ⟨-,-,-,-,text,-,text',-,-,-,-,-,t',ht,u',hu,h⟩ := h
  cases h
  exact ⟨parseInstant_le ht,parseInstant_le hu⟩

theorem parsed_of_parse {flag : Bool} {m : Json} {r : AgentReportV2}
    (h : parseData T flag m = .ok r) : Parsed T r := by
  cases m with
  | obj o =>
    simp only [parseData, bind_ok] at h
    obtain ⟨data,-,-,-,status,-,-,-,⟨taskId,agentId,role⟩,-,attempt,-,caps,-,⟨t,u⟩,hinstants,-,-,-,-,-,-,
      hmake⟩ := h
    obtain ⟨hchecked,-,rfl⟩ := makeReport_ok.mp hmake
    obtain ⟨ht,hu⟩ := instantsOf_le hinstants
    exact ⟨hchecked.settled,⟨t,ht,rfl⟩,⟨u,hu,rfl⟩⟩
  | null | bool | int | float | str | arr => cases h

/-! ## When the report comes back -/

/-- A field of the payload as `to_dict` shows it. -/
def AgentReportV2.shownField (T : PlanTables) (r : AgentReportV2) (k : String) : Json :=
  redactValue T (r.payload k)

/-- The second report has the identity of the first and shows the same mapping. -/
structure SameReport (T : ReportTables) (r r' : AgentReportV2) : Prop where
  taskId : r'.taskId = r.taskId
  attempt : r'.attempt = r.attempt
  agentId : r'.agentId = r.agentId
  role : r'.role = r.role
  status : r'.status = r.status
  toDict : r'.toDict T = r.toDict T

/-- A field goes through the parser and `to_dict` and comes back. -/
def FieldComesBack (T : ReportTables) (r : AgentReportV2) (k : String) : Prop :=
  redactValue T.toPlanTables (settle T k (settle T k (r.shownField T.toPlanTables k))) =
      r.shownField T.toPlanTables k ∧
    noSecrets T.toPlanTables (settle T k (r.shownField T.toPlanTables k)) = true

/-- The redactions leave what the report shows as it is. -/
structure Stable (T : ReportTables) (r : AgentReportV2) : Prop where
  identity : ∀ s ∈ [r.taskId, r.agentId, r.role],
    stripSpace (redactReportText T.toPlanTables s.toList) = s.toList
  capabilities :
    (sortedTexts (r.capabilities.map (shownText T.toPlanTables))).map (shownText T.toPlanTables) =
      r.capabilities.map (shownText T.toPlanTables)
  payload : ∀ k ∈ payloadFields, k ≠ "error" → k ≠ "diagnostics" →
    redactValue T.toPlanTables (r.shownField T.toPlanTables k) = r.shownField T.toPlanTables k ∧
      noSecrets T.toPlanTables (r.shownField T.toPlanTables k) = true
  sanitized : ∀ k ∈ ["error", "diagnostics"], FieldComesBack T r k

theorem settle_plain {k : String} (he : k ≠ "error") (hd : k ≠ "diagnostics") (v : Json) :
    settle T k v = redactValue T.toPlanTables v := by
  rw [settle, sanitizeField, if_neg he, if_neg hd]

theorem fields_come_back {r : AgentReportV2} :
    (∀ k ∈ payloadFields, FieldComesBack T r k) ↔
      (∀ k ∈ payloadFields, k ≠ "error" → k ≠ "diagnostics" →
        redactValue T.toPlanTables (r.shownField T.toPlanTables k) = r.shownField T.toPlanTables k ∧
          noSecrets T.toPlanTables (r.shownField T.toPlanTables k) = true) ∧
      ∀ k ∈ ["error", "diagnostics"], FieldComesBack T r k := by
  have hplain : ∀ k : String, k ≠ "error" → k ≠ "diagnostics" → (FieldComesBack T r k ↔
      redactValue T.toPlanTables (r.shownField T.toPlanTables k) = r.shownField T.toPlanTables k ∧
        noSecrets T.toPlanTables (r.shownField T.toPlanTables k) = true) := by
    intro k he hd
    rw [FieldComesBack, settle_plain he hd, settle_plain he hd]
    exact cycle_iff _
  constructor
  · intro h
    refine ⟨fun k hk he hd => (hplain k he hd).mp (h k hk),fun k hk => h k ?_⟩
    simp only [List.mem_cons, List.not_mem_nil, or_false] at hk
    rcases hk with rfl | rfl <;> decide
  · rintro ⟨h,hs⟩ k hk
    by_cases he : k = "error"
    · exact hs k (by simp [he])
    · by_cases hd : k = "diagnostics"
      · exact hs k (by simp [hd])
      · exact (hplain k he hd).mpr (h k hk he hd)

theorem absent_eq_true {v : Json} : absent v = true ↔ v = .null := by
  cases v <;> simp [absent]

theorem redactEntries_split (r : AgentReportV2) : redactEntries T.toPlanTables r.fields =
    redactEntries T.toPlanTables r.header ++
      (payloadFields.filter (fun k => k ∈ requiredPayload || !absent (r.shownField T.toPlanTables k))).map
        (fun k => (k,r.shownField T.toPlanTables k)) := by
  have habsent : ∀ k, absent (r.shownField T.toPlanTables k) = absent (r.payload k) :=
    fun k => absent_redactValue _
  simp only [habsent]
  rw [redactEntries_eq, redactEntries_eq, AgentReportV2.fields, List.map_append, List.map_map]
  rfl

theorem lookup_shownField (r : AgentReportV2) {k : String} (hk : k ∈ payloadFields) :
    (Obj.field (redactEntries T.toPlanTables r.fields) k).getD .null =
      r.shownField T.toPlanTables k := by
  rw [AgentReportV2.shownField, ← field_payload r hk, field_redactEntries]
  cases Obj.field r.fields k <;> rfl

/-- Two reports show the same mapping if they show the same header and the same payload. -/
theorem redactEntries_fields {r r' : AgentReportV2} :
    redactEntries T.toPlanTables r'.fields = redactEntries T.toPlanTables r.fields ↔
      redactEntries T.toPlanTables r'.header = redactEntries T.toPlanTables r.header ∧
        ∀ k ∈ payloadFields, r'.shownField T.toPlanTables k = r.shownField T.toPlanTables k := by
  constructor
  · intro h
    constructor
    · rw [redactEntries_split r', redactEntries_split r] at h
      refine List.append_inj_left h ?_
      rw [redactEntries_eq, redactEntries_eq, List.length_map, List.length_map]
      rfl
    · intro k hk
      rw [← lookup_shownField r' hk, h, lookup_shownField r hk]
  · rintro ⟨hheader,h⟩
    rw [redactEntries_split r', redactEntries_split r, hheader,
      List.filter_congr (fun k hk => by rw [h k hk])]
    refine congrArg _ (List.map_congr_left fun k hk => ?_)
    rw [h k (List.mem_of_mem_filter hk)]

theorem redactEntries_header {r r' : AgentReportV2} (htask : r'.taskId = r.taskId)
    (hattempt : r'.attempt = r.attempt) (hagent : r'.agentId = r.agentId) (hrole : r'.role = r.role)
    (hstatus : r'.status = r.status) (hstarted : r'.startedAt = r.startedAt)
    (hcompleted : r'.completedAt = r.completedAt) :
    redactEntries T.toPlanTables r'.header = redactEntries T.toPlanTables r.header ↔
      r'.capabilities.map (shownText T.toPlanTables) = r.capabilities.map (shownText T.toPlanTables) := by
  have hcaps : ∀ l : List String, redactValue T.toPlanTables (.arr (l.map .str)) =
      .arr ((l.map (shownText T.toPlanTables)).map .str) := by
    intro l
    rw [redactValue, redactAll_eq, List.map_map, List.map_map]
    rfl
  have hinj : Function.Injective (List.map Json.str) := List.map_injective_iff.mpr (fun _ _ => Json.str.inj)
  rw [redactEntries_eq, redactEntries_eq, AgentReportV2.header, AgentReportV2.header, htask, hattempt,
    hagent, hrole, hstatus, hstarted, hcompleted]
  simp only [List.map_cons, List.map_nil, hcaps, List.cons.injEq, Prod.mk.injEq, true_and, and_true,
    Json.arr.injEq]
  exact hinj.eq_iff

theorem readText_eq_iff {s : String} : readText T.toPlanTables s = s ↔
    stripSpace (redactReportText T.toPlanTables s.toList) = s.toList := by
  rw [readText, shownText, String.toList_ofList]
  constructor
  · intro h
    rw [← String.toList_ofList (l := stripSpace _), h]
  · intro h
    rw [h, String.ofList_toList]

theorem again_shownField {r : AgentReportV2} {k : String} (hk : k ∈ payloadFields) :
    ((r.again T).settled T).shownField T.toPlanTables k =
      redactValue T.toPlanTables (settle T k (settle T k (r.shownField T.toPlanTables k))) := by
  rw [AgentReportV2.shownField, AgentReportV2.settled]
  dsimp only
  rw [again_payload hk]
  rfl

theorem clean_again {r : AgentReportV2} : clean T (r.again T) ↔
    ∀ k ∈ payloadFields, noSecrets T.toPlanTables (settle T k (r.shownField T.toPlanTables k)) = true := by
  refine forall_congr' fun k => forall_congr' fun hk => ?_
  rw [again_payload hk]
  rfl

/-- The second parse makes the same report exactly of a stable one. -/
theorem comes_back_iff {r : AgentReportV2} (h : Checked T r) :
    (clean T (r.again T) ∧ SameReport T r ((r.again T).settled T)) ↔ Stable T r := by
  have hdict : ((r.again T).settled T).toDict T = r.toDict T ↔
      redactEntries T.toPlanTables ((r.again T).settled T).fields = redactEntries T.toPlanTables r.fields := by
    rw [h.toDict, h.again.settled.toDict, Except.ok.injEq, Json.obj.injEq]
  have htask : ((r.again T).settled T).taskId = readText T.toPlanTables r.taskId := by
    rw [AgentReportV2.settled, AgentReportV2.again]
  have hagentId : ((r.again T).settled T).agentId = readText T.toPlanTables r.agentId := by
    rw [AgentReportV2.settled, AgentReportV2.again]
  have hrole : ((r.again T).settled T).role = readText T.toPlanTables r.role := by
    rw [AgentReportV2.settled, AgentReportV2.again]
  have hattempt : ((r.again T).settled T).attempt = r.attempt := by
    rw [AgentReportV2.settled, AgentReportV2.again]
  have hstatus : ((r.again T).settled T).status = r.status := by
    rw [AgentReportV2.settled, AgentReportV2.again]
  have hstarted : ((r.again T).settled T).startedAt = r.startedAt := by
    rw [AgentReportV2.settled, AgentReportV2.again]
  have hcompleted : ((r.again T).settled T).completedAt = r.completedAt := by
    rw [AgentReportV2.settled, AgentReportV2.again]
  have hcaps : ((r.again T).settled T).capabilities =
      sortedTexts (r.capabilities.map (shownText T.toPlanTables)) := by
    rw [AgentReportV2.settled, AgentReportV2.again]
  have hfields := fields_come_back (T := T) (r := r)
  constructor
  · rintro ⟨hclean,hsame⟩
    have hshown := redactEntries_fields.mp (hdict.mp hsame.toDict)
    have hheader := (redactEntries_header hsame.taskId hattempt hsame.agentId hsame.role hstatus
      hstarted hcompleted).mp hshown.1
    have hback : ∀ k ∈ payloadFields, FieldComesBack T r k := by
      intro k hk
      refine ⟨?_,clean_again.mp hclean k hk⟩
      rw [← again_shownField hk]
      exact hshown.2 k hk
    obtain ⟨hplain,hsanitized⟩ := hfields.mp hback
    rw [hcaps] at hheader
    refine ⟨?_,hheader,hplain,hsanitized⟩
    simp only [List.forall_mem_cons, List.not_mem_nil, false_implies, implies_true, and_true]
    exact ⟨readText_eq_iff.mp (htask ▸ hsame.taskId),readText_eq_iff.mp (hagentId ▸ hsame.agentId),
      readText_eq_iff.mp (hrole ▸ hsame.role)⟩
  · intro hstable
    have hback := hfields.mpr ⟨hstable.payload,hstable.sanitized⟩
    have hid := hstable.identity
    simp only [List.forall_mem_cons, List.not_mem_nil, false_implies, implies_true, and_true] at hid
    have htask' := htask.trans (readText_eq_iff.mpr hid.1)
    have hagentId' := hagentId.trans (readText_eq_iff.mpr hid.2.1)
    have hrole' := hrole.trans (readText_eq_iff.mpr hid.2.2)
    refine ⟨clean_again.mpr (fun k hk => (hback k hk).2),htask',hattempt,hagentId',hrole',hstatus,?_⟩
    refine hdict.mpr (redactEntries_fields.mpr ⟨?_,fun k hk => ?_⟩)
    · refine (redactEntries_header htask' hattempt hagentId' hrole' hstatus hstarted hcompleted).mpr ?_
      rw [hcaps]
      exact hstable.capabilities
    · rw [again_shownField hk]
      exact (hback k hk).1

/-- A report that the parser made survives a second parse, of itself or of its JSON text,
exactly if the redactions leave what it shows as it is. -/
theorem parse_again_iff {flag flag' : Bool} {m : Json} {r : AgentReportV2}
    (h : parseAgentReportV2 T flag (.data m) = .ok r) :
    (∃ r', parseAgentReportV2 T flag' (.report r) = .ok r' ∧
      r.toJson T >>= fromJson T flag' = .ok r' ∧ SameReport T r r') ↔ Stable T r := by
  have hparsed : Parsed T r := parsed_of_parse h
  have hreport : parseAgentReportV2 T flag' (.report r) = makeReport T (r.again T) := by
    rw [parseAgentReportV2, hparsed.toDict]
    exact parseData_fields flag' hparsed
  have hjson : r.toJson T >>= fromJson T flag' = makeReport T (r.again T) := by
    rw [AgentReportV2.toJson, hparsed.toDict]
    exact parseData_fields flag' hparsed
  rw [hreport, hjson, ← comes_back_iff hparsed.toChecked]
  constructor
  · rintro ⟨r',hmake,-,hsame⟩
    obtain ⟨-,hclean,rfl⟩ := makeReport_ok.mp hmake
    exact ⟨hclean,hsame⟩
  · rintro ⟨hclean,hsame⟩
    have hmake := makeReport_ok.mpr ⟨hparsed.toChecked.again,hclean,rfl⟩
    exact ⟨_,hmake,hmake,hsame⟩

end

/-! ## Two reports -/

/-- Tables that are right for texts of ASCII. -/
def asciiReports : ReportTables := ⟨⟨fun _ => false,id⟩,fun _ => false⟩

def failedReport (taskId : String) : Json :=
  .obj [("schema_version",.str agentReportV2SchemaVersion), ("task_id",.str taskId),
    ("attempt",.int 1), ("agent_id",.str "builder"), ("role",.str "worker"),
    ("capabilities",.arr [.str "build"]), ("status",.str "failed"),
    ("started_at",.str "2026-01-01T00:00:00Z"), ("completed_at",.str "2026-01-01T01:00:00+00:00"),
    ("reason",.str "no disk"), ("evidence",.arr [.str "log"])]

theorem failed_again : ∃ r, parseAgentReportV2 asciiReports true (.data (failedReport "t1")) = .ok r ∧
    ((∃ r', parseAgentReportV2 asciiReports true (.report r) = .ok r' ∧
      r.toJson asciiReports >>= fromJson asciiReports true = .ok r' ∧ SameReport asciiReports r r') ↔
        Stable asciiReports r) := by
  have hok : (parseAgentReportV2 asciiReports true (.data (failedReport "t1"))).isOk = true := by
    decide +kernel
  cases hr : parseAgentReportV2 asciiReports true (.data (failedReport "t1")) with
  | error e =>
    rw [hr] at hok
    cases hok
  | ok r => exact ⟨r,rfl,parse_again_iff hr⟩

/-- A task id that looks like an assignment of a token is redacted when the report is shown,
and the second parse reads another id. -/
theorem token_id_changes : ¬ ∀ (T : ReportTables) (flag : Bool) (m : Json) (r : AgentReportV2),
    parseAgentReportV2 T flag (.data m) = .ok r →
      ∃ r', parseAgentReportV2 T true (.report r) = .ok r' ∧
        r.toJson T >>= fromJson T true = .ok r' ∧ SameReport T r r' := by
  intro h
  have hfirst : (parseAgentReportV2 asciiReports true (.data (failedReport "token=a1"))).map
      (fun r => r.taskId) = .ok "token=a1" := by decide +kernel
  have hsecond : (parseAgentReportV2 asciiReports true (.data (failedReport "token=a1")) >>= fun r =>
      (parseAgentReportV2 asciiReports true (.report r)).map (fun r' => r'.taskId)) =
        .ok "token=[REDACTED]" := by decide +kernel
  cases hr : parseAgentReportV2 asciiReports true (.data (failedReport "token=a1")) with
  | error e =>
    rw [hr] at hfirst
    cases hfirst
  | ok r =>
    obtain ⟨r',hr',-,hsame⟩ := h _ _ _ r hr
    rw [hr, Except.map, Except.ok.injEq] at hfirst
    rw [hr] at hsecond
    simp only [bind, Except.bind, hr', Except.map, Except.ok.injEq] at hsecond
    have hids := hsame.taskId
    rw [hfirst, hsecond] at hids
    exact absurd hids (by decide)

end PdFleet.Contracts
