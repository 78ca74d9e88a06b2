import PdFleet.ReportValues

/-!
# Reports parsed again

A report that the parser made passes every check of the parser a second time but one: what
`to_dict` redacts may look like a secret again. Its texts come back exactly if the redactions
leave them as they are.
-/

set_option autoImplicit false

namespace PdFleet.Contracts

open Pattern

section

variable {T : ReportTables}

theorem bind_ok {α β : Type} {x : Except String α} {f : α → Except String β} {y : β} :
    x >>= f = .ok y ↔ ∃ a, x = .ok a ∧ f a = .ok y := by
  cases x <;> simp [bind, Except.bind]

/-- The checks of `__post_init__` short of the one for secrets. -/
structure Checked (T : ReportTables) (r : AgentReportV2) : Prop where
  taskId : isBlank r.taskId.toList = false
  agentId : isBlank r.agentId.toList = false
  role : isBlank r.role.toList = false
  agent : r.agent.all (fun a => !isBlank a.toList && stripSpace a.toList = stripSpace r.agentId.toList)
  attempt : 1 ≤ r.attempt
  status : r.status ∈ reportStatuses
  capabilities : ∀ c ∈ r.capabilities, isBlank c.toList = false
  instants : ∃ t u, reportInstant T "started_at" (.str r.startedAt) = .ok t ∧
    reportInstant T "completed_at" (.str r.completedAt) = .ok u ∧ t ≤ u
  outcome : checkOutcome r.status (fun _ => "completed missing required field") r.payload = .ok ()
  retry : validateReportRetry (r.payload "retry") = .ok ()
  keys : ∀ k ∈ payloadFields, keysInOrder T.toPlanTables (r.payload k) = true

def AgentReportV2.settled (T : ReportTables) (r : AgentReportV2) : AgentReportV2 :=
  { r with payload := fun k => settle T k (r.payload k) }

def clean (T : ReportTables) (r : AgentReportV2) : Prop :=
  ∀ k ∈ payloadFields, noSecrets T.toPlanTables (r.payload k) = true

theorem makeReport_ok {q r : AgentReportV2} :
    makeReport T q = .ok r ↔ Checked T q ∧ clean T q ∧ r = q.settled T := by
  have hinstant : ∀ {x : Except String ℕ} {f : ℕ → Except String AgentReportV2},
      x >>= f = .ok r ↔ ∃ a, x = .ok a ∧ f a = .ok r := bind_ok
  simp only [makeReport, bind_unit, require_ok, hinstant, Bool.and_eq_true, Bool.not_eq_true',
    decide_eq_true_eq, List.all_eq_true]
  constructor
  · rintro ⟨⟨⟨htask,hagentId⟩,hrole⟩,hagent,hattempt,hstatus,hcaps,t,ht,u,hu,hle,houtcome,hretry,
      hclean,hkeys,hr⟩
    exact ⟨⟨htask,hagentId,hrole,hagent,hattempt,hstatus,hcaps,⟨t,u,ht,hu,hle⟩,houtcome,hretry,hkeys⟩,
      hclean,(Except.ok.inj hr).symm⟩
  · rintro ⟨h,hclean,rfl⟩
    obtain ⟨t,u,ht,hu,hle⟩ := h.instants
    exact ⟨⟨⟨h.taskId,h.agentId⟩,h.role⟩,h.agent,h.attempt,h.status,h.capabilities,t,ht,u,hu,hle,
      h.outcome,h.retry,hclean,h.keys,rfl⟩

theorem settle_retry (v : Json) : settle T "retry" v = redactValue T.toPlanTables v := by
  rw [settle, sanitizeField, if_neg (by decide), if_neg (by decide)]

theorem Checked.settled {r : AgentReportV2} (h : Checked T r) : Checked T (r.settled T) where
  taskId := h.taskId
  agentId := h.agentId
  role := h.role
  agent := h.agent
  attempt := h.attempt
  status := h.status
  capabilities := h.capabilities
  instants := h.instants
  outcome := checkOutcome_of_meaningful h.outcome (fun _ _ => meaningful_settle)
  retry := by
    show validateReportRetry (settle T "retry" (r.payload "retry")) = .ok ()
    rw [settle_retry]
    exact validateReportRetry_redactValue h.retry
  keys := fun k hk => keysInOrder_settle (h.keys k hk)

/-! ## The mapping of a report -/

def headerFields : List String :=
  ["schema_version", "task_id", "attempt", "agent_id", "role", "capabilities", "status",
    "started_at", "completed_at"]

theorem header_names (r : AgentReportV2) : r.header.map Prod.fst = headerFields := rfl

theorem header_lookup (r : AgentReportV2) {k : String} (hk : k ∉ headerFields) :
    r.header.lookup k = none := by
  rw [List.lookup_eq_none_iff]
  intro e he
  refine bne_iff_ne.mpr ?_
  rintro rfl
  exact hk (header_names r ▸ List.mem_map_of_mem he)

theorem fields_keys (r : AgentReportV2) : ∀ e ∈ r.fields, e.1 ∈ headerFields ++ payloadFields := by
  intro e he
  rcases List.mem_append.mp he with he | he
  · exact List.mem_append_left _ (header_names r ▸ List.mem_map_of_mem he)
  · obtain ⟨k,hk,rfl⟩ := List.mem_map.mp he
    exact List.mem_append_right _ (List.mem_filter.mp hk).1

theorem lookup_map_mem {f : String → Json} {l : List String} {k : String} :
    (l.map (fun k => (k,f k))).lookup k = if k ∈ l then some (f k) else none := by
  induction l with
  | nil => rfl
  | cons a l ih =>
    rw [List.map_cons, List.lookup_cons]
    by_cases h : k = a
    · subst h
      rw [beq_self_eq_true, if_pos List.mem_cons_self]
    · rw [beq_eq_false_iff_ne.mpr h, ih]
      simp only [List.mem_cons, h, false_or]

/-- What the mapping gives for the name of a field of the payload. -/
theorem field_payload (r : AgentReportV2) {k : String} (hk : k ∈ payloadFields) :
    (Obj.field r.fields k).getD .null = r.payload k := by
  have hhead : k ∉ headerFields := by
    revert k
    decide +kernel
  rw [AgentReportV2.fields, Obj.field, List.lookup_append, header_lookup r hhead, lookup_map_mem]
  simp only [Option.none_or, List.mem_filter, hk, true_and]
  split_ifs with h
  · rfl
  · simp only [Bool.or_eq_true, not_or, Bool.not_eq_true, Bool.not_eq_false'] at h
    cases hp : r.payload k with
    | null => rfl
    | bool | int | float | str | arr | obj =>
      rw [hp] at h
      simp [absent] at h

theorem safe_names (T : PlanTables) : ∀ k ∈ headerFields ++ payloadFields,
    (k ≠ "" && !isSensitiveLabel T k.toList) = true :=
  List.all_eq_true.mp (rfl : (headerFields ++ payloadFields).all
    (fun k => k ≠ "" && !isSensitiveLabel T k.toList) = true)

theorem keysOfEntries_of {T : PlanTables} {o : Obj}
    (h : ∀ e ∈ o, (e.1 ≠ "" && !isSensitiveLabel T e.1.toList) = true ∧ keysInOrder T e.2 = true) :
    keysOfEntries T o = true := by
  induction o with
  | nil => rfl
  | cons e o ih =>
    obtain ⟨k,v⟩ := e
    obtain ⟨hk,hv⟩ := h (k,v) List.mem_cons_self
    rw [keysOfEntries, hk, hv, ih (fun e he => h e (List.mem_cons_of_mem _ he))]
    rfl

theorem keysInOrder_texts (T : PlanTables) (l : List String) :
    keysInOrder T (.arr (l.map .str)) = true := by
  rw [keysInOrder]
  induction l with
  | nil => rfl
  | cons s l ih => rw [List.map_cons, keysOfAll, ih]; rfl

theorem Checked.fields_keysInOrder {r : AgentReportV2} (h : Checked T r) :
    ∀ e ∈ r.fields, keysInOrder T.toPlanTables e.2 = true := by
  intro e he
  rcases List.mem_append.mp he with he | he
  · simp only [AgentReportV2.header, List.mem_cons, List.not_mem_nil, or_false] at he
    rcases he with rfl | rfl | rfl | rfl | rfl | rfl | rfl | rfl | rfl
    all_goals first | rfl | exact keysInOrder_texts _ _
  · obtain ⟨k,hk,rfl⟩ := List.mem_map.mp he
    exact h.keys k (List.mem_filter.mp hk).1

/-- A checked report is shown. -/
theorem Checked.toDict {r : AgentReportV2} (h : Checked T r) :
    r.toDict T = .ok (.obj (redactEntries T.toPlanTables r.fields)) := by
  have hkeys : keysInOrder T.toPlanTables (.obj r.fields) = true :=
    keysOfEntries_of (fun e he => ⟨safe_names _ _ (fields_keys r e he),h.fields_keysInOrder e he⟩)
  rw [AgentReportV2.toDict, redactReportValue, if_pos hkeys, redactValue]

/-! ## The second parse -/

/-- A text as `to_dict` shows it. -/
def shownText (T : PlanTables) (s : String) : String := String.ofList (redactReportText T s.toList)

/-- A text as it is read from what `to_dict` shows. -/
def readText (T : PlanTables) (s : String) : String := String.ofList (stripSpace (shownText T s).toList)

/-- What the parser makes of the mapping of a report, before its checks. -/
def AgentReportV2.again (T : ReportTables) (r : AgentReportV2) : AgentReportV2 where
    taskId := readText T.toPlanTables r.taskId
    attempt := r.attempt
    agentId := readText T.toPlanTables r.agentId
    role := readText T.toPlanTables r.role
    capabilities := sortedTexts (r.capabilities.map (shownText T.toPlanTables))
    status := r.status
    startedAt := r.startedAt
    completedAt := r.completedAt
    agent := none
    payload := fun k => settle T k ((Obj.field (redactEntries T.toPlanTables r.fields) k).getD .null)

theorem again_payload {r : AgentReportV2} {k : String} (hk : k ∈ payloadFields) :
    (r.again T).payload k = settle T k (redactValue T.toPlanTables (r.payload k)) := by
  show settle T k ((Obj.field (redactEntries T.toPlanTables r.fields) k).getD .null) = _
  rw [← field_payload r hk, field_redactEntries]
  cases Obj.field r.fields k <;> rfl

theorem isBlank_readText {s : String} (h : isBlank s.toList = false) :
    isBlank (readText T.toPlanTables s).toList = false := by
  rw [readText, shownText, String.toList_ofList, String.toList_ofList, Handoff.isBlank_stripSpace]
  exact isBlank_redactReportText h

@[simp] theorem again_status (r : AgentReportV2) : (r.again T).status = r.status := by
  rw [AgentReportV2.again]

@[simp] theorem again_attempt (r : AgentReportV2) : (r.again T).attempt = r.attempt := by
  rw [AgentReportV2.again]

@[simp] theorem again_startedAt (r : AgentReportV2) : (r.again T).startedAt = r.startedAt := by
  rw [AgentReportV2.again]

@[simp] theorem again_completedAt (r : AgentReportV2) : (r.again T).completedAt = r.completedAt := by
  rw [AgentReportV2.again]

theorem again_capabilities {r : AgentReportV2} (h : ∀ c ∈ r.capabilities, isBlank c.toList = false) :
    ∀ c ∈ (r.again T).capabilities, isBlank c.toList = false := by
  intro c hc
  have hmem := (List.perm_insertionSort (· ≤ ·) _).mem_iff.mp hc
  obtain ⟨d,hd,rfl⟩ := List.mem_map.mp hmem
  rw [shownText, String.toList_ofList]
  exact isBlank_redactReportText (h d hd)

theorem again_outcome {r : AgentReportV2} {code code' : String → String}
    (h : checkOutcome r.status code r.payload = .ok ()) :
    checkOutcome (r.again T).status code' (r.again T).payload = .ok () := by
  rw [again_status]
  refine checkOutcome_of_meaningful h (fun k hk hm => ?_)
  rw [again_payload hk]
  exact meaningful_settle (meaningful_redactValue _ hm)

theorem again_retry {r : AgentReportV2} (h : validateReportRetry (r.payload "retry") = .ok ()) :
    validateReportRetry ((r.again T).payload "retry") = .ok () := by
  have hk : "retry" ∈ payloadFields := by decide
  rw [again_payload hk, settle_retry]
  exact validateReportRetry_redactValue (validateReportRetry_redactValue h)

theorem again_keys {r : AgentReportV2}
    (h : ∀ k ∈ payloadFields, keysInOrder T.toPlanTables (r.payload k) = true) :
    ∀ k ∈ payloadFields, keysInOrder T.toPlanTables ((r.again T).payload k) = true := by
  intro k hk
  rw [again_payload hk]
  refine keysInOrder_settle ?_
  rw [keysInOrder_redactValue]
  exact h k hk

theorem Checked.again {r : AgentReportV2} (h : Checked T r) : Checked T (r.again T) where
  taskId := isBlank_readText h.taskId
  agentId := isBlank_readText h.agentId
  role := isBlank_readText h.role
  agent := rfl
  attempt := by rw [again_attempt]; exact h.attempt
  status := by rw [again_status]; exact h.status
  capabilities := again_capabilities h.capabilities
  instants := by rw [again_startedAt, again_completedAt]; exact h.instants
  outcome := again_outcome h.outcome
  retry := again_retry h.retry
  keys := again_keys h.keys

/-! ## Clock texts -/

/-- The characters of clock texts, folded. -/
def clockChars : List Char :=
  ['0', '1', '2', '3', '4', '5', '6', '7', '8', '9', '-', 't', ':', '.', 'z']

theorem shortFormat_plain (t : ℕ) :
    ∀ c ∈ shortFormat t, isForeign clockChars c = false ∧ isSpace c = false := by
  refine forall_mem_shortFormat t (fun n hn => ?_) ?_
  · interval_cases n <;> decide
  · simp only [List.forall_mem_cons, List.not_mem_nil, false_implies, implies_true, and_true]
    decide

theorem stripSpace_eq {t : List Char} (h : ∀ c ∈ t, isSpace c = false) : stripSpace t = t := by
  have hright : t.rdropWhile isSpace = t := by
    rw [List.rdropWhile_eq_self_iff]
    intro hne
    rw [h _ (List.getLast_mem hne)]
    decide
  rw [stripSpace, hright, List.dropWhile_eq_self_iff]
  intro hl
  rw [h _ (List.getElem_mem hl)]
  decide

/-- The text of an instant, as the parser writes it. -/
def clockText (t : ℕ) : String := String.ofList (shortFormat t)

theorem redactValue_clockText (T : PlanTables) (t : ℕ) :
    redactValue T (.str (clockText t)) = .str (clockText t) := by
  rw [redactValue, clockText, String.toList_ofList,
    redactReportText_foreign (rfl : lacksWords clockChars = true)
      (fun c hc => (shortFormat_plain t c hc).1)]

/-- A clock text that passes the check is read as its own instant. -/
theorem read_clockText {name : String} {t t' : ℕ} (ht : t ≤ maxInstant)
    (h : reportInstant T name (.str (clockText t)) = .ok t') :
    t' = t ∧ reportTimestamp T name (.str (clockText t)) = .ok (shortFormat t) ∧
      parseInstant name (shortFormat t) = .ok t := by
  have hparse : parseInstant name (shortFormat t) = .ok t := by
    rw [parseInstant, instantOf_shortFormat ht]
  obtain ⟨text,htext,hread⟩ := bind_ok.mp h
  have hstrip := stripSpace_eq (fun c hc => (shortFormat_plain t c hc).2)
  have hsame : text = shortFormat t := by
    rw [reportTimestamp, clockText, String.toList_ofList, hstrip] at htext
    split_ifs at htext
    exact (Except.ok.inj htext).symm
  subst hsame
  rw [hparse] at hread
  exact ⟨(Except.ok.inj hread).symm,htext,hparse⟩

/-! ## The fields of the mapping -/

theorem field_header {r : AgentReportV2} {k : String} {v : Json} (h : (k,v) ∈ r.header) :
    Obj.field (redactEntries T.toPlanTables r.fields) k = some (redactValue T.toPlanTables v) := by
  have hfield : Obj.field r.fields k = some v := by
    simp only [AgentReportV2.header, List.mem_cons, List.not_mem_nil, or_false, Prod.mk.injEq] at h
    rcases h with ⟨rfl,rfl⟩ | ⟨rfl,rfl⟩ | ⟨rfl,rfl⟩ | ⟨rfl,rfl⟩ | ⟨rfl,rfl⟩ | ⟨rfl,rfl⟩ |
      ⟨rfl,rfl⟩ | ⟨rfl,rfl⟩ | ⟨rfl,rfl⟩ <;> rfl
  rw [field_redactEntries, hfield]
  rfl

theorem field_unknown {r : AgentReportV2} {k : String} (h : k ∉ headerFields ++ payloadFields) :
    Obj.field (redactEntries T.toPlanTables r.fields) k = none := by
  rw [field_redactEntries, Option.map_eq_none_iff, Obj.field, List.lookup_eq_none_iff]
  intro e he
  refine bne_iff_ne.mpr ?_
  rintro rfl
  exact h (fields_keys r e he)

theorem withExtensions_fields (flag : Bool) (r : AgentReportV2) :
    withExtensions T flag (redactEntries T.toPlanTables r.fields) =
      .ok (redactEntries T.toPlanTables r.fields) := by
  have hnames : ∀ k ∈ headerFields ++ payloadFields, k ∈ reportV2Fields := by decide +kernel
  have hunknown : (redactEntries T.toPlanTables r.fields).filter (fun e => e.1 ∉ reportV2Fields) = [] := by
    rw [List.filter_eq_nil_iff, redactEntries_eq]
    intro e he
    obtain ⟨d,hd,rfl⟩ := List.mem_map.mp he
    have := hnames _ (fields_keys r d hd)
    simp [this]
  rw [withExtensions, hunknown]
  rfl

theorem capabilitiesOf_shown {l : List String} (h : ∀ c ∈ l, isBlank c.toList = false) :
    capabilitiesOf (redactValue T.toPlanTables (.arr (l.map .str))) =
      .ok (l.map (shownText T.toPlanTables)) := by
  rw [redactValue, redactAll_eq, List.map_map, capabilitiesOf]
  induction l with
  | nil => rfl
  | cons c l ih =>
    have hc : asText "invalid capabilities" (redactValue T.toPlanTables (.str c)) =
        .ok (shownText T.toPlanTables c) := by
      rw [redactValue, asText, String.toList_ofList,
        isBlank_redactReportText (h c List.mem_cons_self)]
      rfl
    rw [List.map_cons, List.mapM_cons, Function.comp_apply, hc,
      ih (fun d hd => h d (List.mem_cons_of_mem c hd))]
    rfl

theorem asText_shown {s code : String} (h : isBlank s.toList = false) :
    asText code (redactValue T.toPlanTables (.str s)) = .ok (shownText T.toPlanTables s) := by
  rw [redactValue, asText, String.toList_ofList, isBlank_redactReportText h]
  rfl

theorem statusOf_shown {s : String} (h : s ∈ reportStatuses) :
    statusOf (redactValue T.toPlanTables (.str s)) = .ok s := by
  simp only [reportStatuses, List.mem_cons, List.not_mem_nil, or_false] at h
  have hplain : redactReportText T.toPlanTables s.toList = s.toList := by
    rcases h with rfl | rfl | rfl
    · exact redactReportText_literal rfl
    · exact redactReportText_literal rfl
    · exact redactReportText_literal rfl
  rw [redactValue, hplain, String.ofList_toList, statusOf, if_pos]
  rcases h with rfl | rfl | rfl <;> decide

end

end PdFleet.Contracts
