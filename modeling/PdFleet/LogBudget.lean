import PdFleet.EventLog

/-!
# What the budgets of the log let through

Every line that the writer admits is read back as the event that it was written for, so
that a log stays readable as long as the file stays within the budget of its bytes. That
budget is the one the writer does not know.
-/

set_option autoImplicit false

namespace PdFleet.Journal

open Pattern

variable {E : EventTables} {iso : String} {f f' : LogFile} {log : EventLog}
  {rs rs' : List (FleetEvent E × String)} {es : List (FleetEvent E)} {e : FleetEvent E}

/-! ## Lines -/

theorem readLine_line (e : FleetEvent E) : readLine E iso e.line = .ok (e,e.canonical) := by
  have hbody : e.record.without ["checksum"] = e.fields.toDict := rfl
  have hexact : e.record.hasExactly (eventFields++["checksum"]) = true := rfl
  have hsum : (e.record.field "checksum").any (·.isStr (sha256Hex e.canonical)) = true := by
    rw [FleetEvent.record, Obj.field_put_self]
    simp [Json.isStr]
  simp only [readLine, FleetEvent.line, hexact, hbody, hsum, FleetEvent.canonical] at hsum ⊢
  rw [fromDict_toDict]
  rfl

/-- A line within its budget, and the record that it holds. -/
def Reads (E : EventTables) (iso : String) (l : Line) (r : FleetEvent E × String) : Prop :=
  l.bytes ≤ MAX_LOG_LINE_BYTES ∧ l.terminated = true ∧ readLine E iso l = .ok r

theorem readLines_ok {fuel consumed : ℕ} (h : consumed+f.bytes ≤ MAX_LOG_BYTES) :
    readLines E iso fuel consumed f = .ok rs ↔
      f.length < fuel ∧ List.Forall₂ (Reads E iso) f rs := by
  induction fuel generalizing consumed f rs with
  | zero => simp [readLines]
  | succ fuel ih =>
    cases f with
    | nil =>
      simp only [readLines, Except.ok.injEq, List.length_nil, Nat.zero_lt_succ, true_and,
        List.forall₂_nil_left_iff]
      exact eq_comm
    | cons l f =>
      have hsum : LogFile.bytes (l :: f) = l.bytes+LogFile.bytes f := by
        simp [LogFile.bytes]
      rw [hsum] at h
      have hrest : consumed+l.bytes+LogFile.bytes f ≤ MAX_LOG_BYTES := by omega
      rw [readLines]
      constructor
      · intro hr
        obtain ⟨_,h1,hr⟩ := ok_of_bind hr
        obtain ⟨r,h2,hr⟩ := ok_of_bind hr
        obtain ⟨rest,h3,hr⟩ := ok_of_bind hr
        cases hr
        simp only [deny_ok, Bool.or_eq_false_iff, decide_eq_false_iff_not, not_lt,
          Bool.not_eq_false'] at h1
        obtain ⟨hlen,hall⟩ := (ih hrest).mp h3
        exact ⟨by simpa using hlen,.cons ⟨h1.1.2,h1.2,h2⟩ hall⟩
      · rintro ⟨hlen,hall⟩
        cases hall with
        | @cons _ r _ rest hr hall =>
          have h3 := (ih hrest).mpr ⟨by simpa using hlen,hall⟩
          have h1 : (MAX_LOG_BYTES < consumed+l.bytes || MAX_LOG_LINE_BYTES < l.bytes ||
              !l.terminated) = false := by
            simp only [Bool.or_eq_false_iff, decide_eq_false_iff_not, not_lt, Bool.not_eq_false']
            exact ⟨⟨by omega,hr.1⟩,hr.2.1⟩
          rw [h1, hr.2.2, h3]
          rfl

/-- All that the reader asks of a log but the size of the file. -/
structure Wellformed (E : EventTables) (iso : String) (f : LogFile)
    (rs : List (FleetEvent E × String)) : Prop where
  short : f.length ≤ MAX_EVENTS
  reads : List.Forall₂ (Reads E iso) f rs

theorem records_ok : records E iso f = .ok rs ↔
    f.bytes ≤ MAX_LOG_BYTES ∧ Wellformed E iso f rs := by
  constructor
  · intro h
    obtain ⟨_,h1,h⟩ := ok_of_bind h
    have hb : f.bytes ≤ MAX_LOG_BYTES := by simpa using h1
    obtain ⟨hlen,hall⟩ := (readLines_ok (by omega)).mp h
    exact ⟨hb,by omega,hall⟩
  · rintro ⟨hb,hlen,hall⟩
    have h1 : deny (MAX_LOG_BYTES < f.bytes) "log excede o limite de bytes" = .ok () := by
      simpa using hb
    rw [records, h1]
    exact (readLines_ok (by omega)).mpr ⟨by omega,hall⟩

/-! ## Appends -/

def ids (rs : List (FleetEvent E × String)) : List String := rs.map (·.1.eventId)

/-- An append that returns found the event in the log, or wrote its line at the end. -/
theorem append_ok {e' : FleetEvent E} (h : append E iso log e f = .ok (e',f')) :
    ∃ rs, records E iso f = .ok rs ∧
      ((e.eventId ∈ ids rs ∧ f' = f ∧ ∃ r ∈ rs, r.2 = e.canonical) ∨
        (e.eventId ∉ ids rs ∧ f' = f++[e.line] ∧ rs.length < MAX_EVENTS ∧
          e.line.bytes ≤ MAX_LOG_LINE_BYTES)) := by
  obtain ⟨_,-,h⟩ := ok_of_bind h
  obtain ⟨rs,hrs,h⟩ := ok_of_bind h
  refine ⟨rs,hrs,?_⟩
  cases hfind : rs.find? (clash E e) with
  | some r =>
    rw [hfind] at h
    dsimp only at h
    have hmem := List.mem_of_find?_eq_some hfind
    split_ifs at h with hid hsame
    · cases h
      left
      exact ⟨by rw [← hid]; exact List.mem_map_of_mem hmem,rfl,r,hmem,hsame⟩
  | none =>
    rw [hfind] at h
    obtain ⟨_,-,h⟩ := ok_of_bind h
    obtain ⟨_,h2,h⟩ := ok_of_bind h
    cases h
    right
    simp only [deny_ok, Bool.or_eq_false_iff, decide_eq_false_iff_not, not_le, not_lt] at h2
    refine ⟨?_,rfl,h2.1,h2.2⟩
    intro hmem
    obtain ⟨r,hr,hid⟩ := List.mem_map.mp hmem
    have hno := List.find?_eq_none.mp hfind r hr
    simp [clash, hid] at hno

/-- The events of a list that no record and no earlier event bears the id of. -/
def fresh (known : List String) : List (FleetEvent E) → List (FleetEvent E)
  | [] => []
  | e :: es => if e.eventId ∈ known then fresh known es else e :: fresh (known++[e.eventId]) es

theorem Wellformed.snoc (h : Wellformed E iso f rs) (hlen : rs.length < MAX_EVENTS)
    (hline : e.line.bytes ≤ MAX_LOG_LINE_BYTES) :
    Wellformed E iso (f++[e.line]) (rs++[(e,e.canonical)]) := by
  have hsame := h.reads.length_eq
  constructor
  · rw [List.length_append, List.length_singleton]
    omega
  · exact List.rel_append h.reads (.cons ⟨hline,rfl,readLine_line e⟩ .nil)

/-- Appends that all return add the lines of the fresh events to a log that stays
readable, the size of the file apart. -/
theorem appendAll_wellformed (hf : Wellformed E iso f rs)
    (h : appendAll E iso log es f = .ok f') :
    ∃ rs', Wellformed E iso f' rs' ∧ (∀ r ∈ rs, r ∈ rs') ∧ (∀ e ∈ es, ∃ r ∈ rs', r.2 = e.canonical) ∧
      f' = f++(fresh (ids rs) es).map FleetEvent.line := by
  induction es generalizing f rs with
  | nil =>
    cases h
    exact ⟨rs,hf,fun _ h => h,by simp,by simp [fresh]⟩
  | cons e es ih =>
    obtain ⟨⟨e',g⟩,happ,hrest⟩ := ok_of_bind h
    obtain ⟨rs1,hrs1,hcase⟩ := append_ok happ
    have hsame : rs1 = rs := by
      apply List.right_unique_forall₂' ?_ (records_ok.mp hrs1).2.reads hf.reads
      intro l r r' hr hr'
      exact Except.ok.inj (hr.2.2.symm.trans hr'.2.2)
    subst hsame
    rcases hcase with ⟨hid,rfl,r,hr,hc⟩ | ⟨hid,rfl,hlen,hline⟩
    · obtain ⟨rs',hw,hkeep,hall,hfile⟩ := ih hf hrest
      refine ⟨rs',hw,hkeep,?_,?_⟩
      · intro x hx
        rcases List.mem_cons.mp hx with rfl | hx
        · exact ⟨r,hkeep r hr,hc⟩
        · exact hall x hx
      · rw [fresh, if_pos hid]
        exact hfile
    · obtain ⟨rs',hw,hkeep,hall,hfile⟩ := ih (hf.snoc hlen hline) hrest
      refine ⟨rs',hw,fun r hr => hkeep r (by simp [hr]),?_,?_⟩
      · intro x hx
        rcases List.mem_cons.mp hx with rfl | hx
        · exact ⟨_,hkeep (x,x.canonical) (by simp),rfl⟩
        · exact hall x hx
      · have hids : ids (rs1++[(e,e.canonical)]) = ids rs1++[e.eventId] := by simp [ids]
        rw [hids] at hfile
        rw [hfile, fresh, if_neg hid]
        simp

/-! ## What stays readable -/

section

variable (E : EventTables) (iso : String)

/-- The log can be read, each event of `es` has its record in it, and a replay and every
query with the largest limit hand out the whole of what they are asked for. -/
def AllSeen (f : LogFile) (es : List (FleetEvent E)) : Prop :=
  ∃ rs, records E iso f = .ok rs ∧ (∀ e ∈ es, ∃ r ∈ rs, r.2 = e.canonical) ∧
    replay E iso MAX_QUERY f = .ok (rs.map Prod.fst) ∧
    ∀ orderingKey taskId, checkFilter E orderingKey taskId = .ok () →
      ∃ seen, query E iso orderingKey taskId MAX_QUERY f = .ok seen ∧
        ∀ r ∈ rs, selects E orderingKey taskId r.1 = true → r.1 ∈ seen

/-- The ids in a log, as far as it can be read. -/
def idsOf (f : LogFile) : List String :=
  match records E iso f with
  | .ok rs => ids rs
  | .error _ => []

end

theorem limit_ok : checkLimit MAX_QUERY = .ok () := by
  rw [checkLimit, deny_ok]
  decide

theorem replay_ok (h : records E iso f = .ok rs) :
    replay E iso MAX_QUERY f = .ok ((rs.take MAX_QUERY).map Prod.fst) := by
  rw [replay, limit_ok, h]
  rfl

theorem query_ok {orderingKey taskId : Option String} (h : records E iso f = .ok rs)
    (hf : checkFilter E orderingKey taskId = .ok ()) :
    query E iso orderingKey taskId MAX_QUERY f =
      .ok ((((rs.map Prod.fst).filter (selects E orderingKey taskId)).insertionSort
        (notAfter E)).take MAX_QUERY) := by
  rw [query, limit_ok, hf, h]
  rfl

/-- After appends that all returned, everything is seen if and only if the file is within
the budget of the reader, and the log within the limit of a replay. -/
theorem appended_seen_iff (E : EventTables) (iso : String) (log : EventLog)
    (es : List (FleetEvent E)) (f : LogFile) {f' : LogFile} (hes : es ≠ [])
    (h : appendAll E iso log es f = .ok f') :
    AllSeen E iso f' es ↔
      f.bytes+((fresh (idsOf E iso f) es).map (·.line.bytes)).sum ≤ MAX_LOG_BYTES ∧
        f.length+(fresh (idsOf E iso f) es).length ≤ MAX_QUERY := by
  have hread : ∃ rs, records E iso f = .ok rs := by
    cases es with
    | nil => exact absurd rfl hes
    | cons e es =>
      obtain ⟨⟨e',g⟩,happ,-⟩ := ok_of_bind h
      obtain ⟨rs,hrs,-⟩ := append_ok happ
      exact ⟨rs,hrs⟩
  obtain ⟨rs,hrs⟩ := hread
  have hids : idsOf E iso f = ids rs := by rw [idsOf, hrs]
  obtain ⟨rs',hw,-,hall,hfile⟩ := appendAll_wellformed (records_ok.mp hrs).2 h
  have hbytes : f'.bytes = f.bytes+((fresh (ids rs) es).map (·.line.bytes)).sum := by
    rw [hfile, LogFile.bytes, List.map_append, List.sum_append, List.map_map]
    rfl
  have hcount : rs'.length = f.length+(fresh (ids rs) es).length := by
    rw [← hw.reads.length_eq, hfile, List.length_append, List.length_map]
  rw [hids, ← hbytes, ← hcount]
  constructor
  · rintro ⟨seen,hseen,-,hreplay,-⟩
    obtain ⟨hb,hw'⟩ := records_ok.mp hseen
    have hlen : seen.length = rs'.length := by
      rw [← hw'.reads.length_eq, hw.reads.length_eq]
    rw [replay_ok hseen, Except.ok.injEq] at hreplay
    have htake := congrArg List.length hreplay
    rw [List.length_map, List.length_map, List.length_take] at htake
    exact ⟨hb,by omega⟩
  · rintro ⟨hb,hlen⟩
    have hrecords := records_ok.mpr ⟨hb,hw⟩
    refine ⟨rs',hrecords,hall,?_,?_⟩
    · rw [replay_ok hrecords, List.take_of_length_le hlen]
    · intro orderingKey taskId hfilter
      refine ⟨_,query_ok hrecords hfilter,?_⟩
      intro r hr hsel
      rw [List.take_of_length_le, List.mem_insertionSort, List.mem_filter]
      · exact ⟨List.mem_map_of_mem hr,hsel⟩
      · rw [List.length_insertionSort]
        have hle := List.length_filter_le (selects E orderingKey taskId) (rs'.map Prod.fst)
        rw [List.length_map] at hle
        exact le_trans hle hlen

/-! ## A log that outgrows the reader -/

/-- An append that passes the checks of the writer returns. -/
theorem append_returns (hrs : records E iso f = .ok rs)
    (hrun : e.fields.runId.isStr log.runId = true) (howner : log.ownerEpoch = .null)
    (hclash : rs.find? (clash E e) = none)
    (hlast : rs.getLast?.any (fun r => number E e.fields.sequence ≤ number E r.1.fields.sequence) =
      false) (hlen : rs.length < MAX_EVENTS) (hline : e.line.bytes ≤ MAX_LOG_LINE_BYTES) :
    append E iso log e f = .ok (e,f++[e.line]) := by
  have hfull : (MAX_EVENTS ≤ rs.length || MAX_LOG_LINE_BYTES < e.line.bytes) = false := by
    simp only [Bool.or_eq_false_iff, decide_eq_false_iff_not, not_le, not_lt]
    exact ⟨hlen,hline⟩
  rw [append, hrun, howner, hrs]
  simp only [bind, Except.bind, deny, hclash, hlast, hfull]
  rfl

theorem appendAll_snoc : appendAll E iso log (es++[e]) f =
    (appendAll E iso log es f >>= fun g => (append E iso log e g).map Prod.snd) := by
  induction es generalizing f with
  | nil =>
    show (append E iso log e f >>= fun r => appendAll E iso log [] r.2) =
      (append E iso log e f).map Prod.snd
    cases append E iso log e f with
    | error _ => rfl
    | ok r => rfl
  | cons x es ih =>
    rw [List.cons_append, appendAll, appendAll]
    cases append E iso log x f with
    | error _ => rfl
    | ok r => exact ih

theorem wellformed_lines (hlen : es.length ≤ MAX_EVENTS)
    (hline : ∀ e ∈ es, e.line.bytes ≤ MAX_LOG_LINE_BYTES) :
    Wellformed E iso (es.map FleetEvent.line) (es.map (fun e => (e,e.canonical))) := by
  constructor
  · rwa [List.length_map]
  · rw [List.forall₂_map_left_iff, List.forall₂_map_right_iff]
    exact List.forall₂_same.mpr (fun e he => ⟨hline e he,rfl,readLine_line e⟩)

/-- Events that the reader can tell apart, in the order of their numbers. -/
structure Orderly (log : EventLog) (es : List (FleetEvent E)) : Prop where
  sameRun : ∀ e ∈ es, e.fields.runId.isStr log.runId = true
  distinct : (es.map FleetEvent.eventId).Nodup
  numbered : ∀ e ∈ es, e.fields.sequence ≠ .null
  increasing : es.Pairwise
    (fun a b => number E a.fields.sequence < number E b.fields.sequence)
  short : ∀ e ∈ es, e.line.bytes ≤ MAX_LOG_LINE_BYTES

theorem Orderly.init {a : FleetEvent E} (h : Orderly log (es++[a])) : Orderly log es where
  sameRun := fun e he => h.sameRun e (by simp [he])
  distinct := by
    have hd := h.distinct
    rw [List.map_append] at hd
    exact hd.of_append_left
  numbered := fun e he => h.numbered e (by simp [he])
  increasing := (List.pairwise_append.mp h.increasing).1
  short := fun e he => h.short e (by simp [he])

theorem sameNumber_eq {a b : Json} (ha : a ≠ .null) (hb : b ≠ .null) :
    sameNumber E a b = decide (number E a = number E b) := by
  cases a <;> cases b <;> first | rfl | contradiction

/-- Such events are all appended, as long as the file can be read before the last one. -/
theorem appendAll_orderly (howner : log.ownerEpoch = .null) (h : Orderly log es)
    (hcount : es.length ≤ MAX_EVENTS)
    (hbytes : LogFile.bytes (es.dropLast.map FleetEvent.line) ≤ MAX_LOG_BYTES) :
    appendAll E iso log es [] = .ok (es.map FleetEvent.line) := by
  induction es using List.reverseRecOn with
  | nil => rfl
  | append_singleton es a ih =>
    rw [List.dropLast_concat] at hbytes
    rw [List.length_append, List.length_singleton] at hcount
    have hinit : LogFile.bytes (es.dropLast.map FleetEvent.line) ≤ MAX_LOG_BYTES := by
      refine le_trans ?_ hbytes
      apply List.Sublist.sum_le_sum
      · exact ((List.dropLast_sublist es).map _).map _
      · exact fun _ _ => Nat.zero_le _
    have hread : records E iso (es.map FleetEvent.line) =
        .ok (es.map (fun e => (e,e.canonical))) :=
      records_ok.mpr ⟨hbytes,wellformed_lines (by omega) h.init.short⟩
    have happend : append E iso log a (es.map FleetEvent.line) =
        .ok (a,es.map FleetEvent.line++[a.line]) := by
      apply append_returns hread (h.sameRun a (by simp)) howner ?_ ?_ ?_ (h.short a (by simp))
      · rw [List.find?_eq_none]
        intro r hr
        obtain ⟨e,he,rfl⟩ := List.mem_map.mp hr
        have hid : e.eventId ≠ a.eventId := by
          have hd := h.distinct
          rw [List.map_append, List.nodup_append] at hd
          exact hd.2.2 _ (List.mem_map_of_mem he) _ (by simp)
        have hlt := (List.pairwise_append.mp h.increasing).2.2 e he a (by simp)
        rw [clash, sameNumber_eq (h.numbered e (by simp [he])) (h.numbered a (by simp))]
        simp [hid, hlt.ne]
      · cases hlast : es.getLast? with
        | none => simp [hlast]
        | some e =>
          have hlt := (List.pairwise_append.mp h.increasing).2.2 e
            (List.mem_of_getLast? hlast) a (by simp)
          simp [hlast, hlt]
      · rw [List.length_map]
        omega
    rw [appendAll_snoc, ih h.init (by omega) hinit]
    show (append E iso log a (es.map FleetEvent.line)).map Prod.snd = _
    rw [happend, List.map_append]
    rfl

theorem freezeItems_replicate {depth n : ℕ} {v : Json} (h : freeze E (depth+1) v = .ok ()) :
    freezeItems E depth (List.replicate n v) = .ok () := by
  induction n with
  | zero => rfl
  | succ n ih =>
    rw [List.replicate_succ, freezeItems, h]
    exact ih

def plainTables : EventTables := { ascii with isWord := fun _ => false, float := fun _ => 0 }

def xText (n : ℕ) : List Char := List.replicate n 'x'

/-- Letters that none of the patterns of the checks begins with. -/
def Idle (text : List Char) : Prop := ∀ c ∈ text, c = 'x' ∨ c = 'y'

theorem idle_xText (n : ℕ) : Idle (xText n) := fun _ hc => Or.inl (List.eq_of_mem_replicate hc)

theorem Idle.all {p : Char → Bool} {text : List Char} (h : Idle text) (hx : p 'x' = true)
    (hy : p 'y' = true) : text.all p = true := by
  rw [List.all_eq_true]
  intro c hc
  rcases h c hc with rfl | rfl <;> assumption

theorem Idle.none {p : Char → Bool} {text : List Char} (h : Idle text) (hx : p 'x' = false)
    (hy : p 'y' = false) : text.any p = false := by
  rw [List.any_eq_false]
  intro c hc
  rcases h c hc with rfl | rfl <;> simp [hx, hy]

theorem Idle.size {text : List Char} (h : Idle text) :
    (dumps (.str (String.ofList text))).utf8ByteSize = text.length+2 := by
  have hx : ∀ c ∈ (String.ofList text).toList, (escapeChar c).utf8ByteSize = 1 := by
    intro c hc
    rw [String.toList_ofList] at hc
    rcases h c hc with rfl | rfl <;> decide
  rw [dumps, size_quote hx, String.toList_ofList]

theorem xText_size (n : ℕ) :
    (dumps (.str (String.ofList (xText n)))).utf8ByteSize = n+2 := by
  rw [(idle_xText n).size, xText, List.length_replicate]

theorem Idle.search {p : Pattern} {text : List Char} (h : Idle text) (hend : rests p [] = [])
    (hx : ∀ t, rests p ('x' :: t) = []) (hy : ∀ t, rests p ('y' :: t) = []) :
    search p text = false := by
  induction text with
  | nil => simp [Pattern.search, hend]
  | cons c text ih =>
    have hc : rests p (c :: text) = [] := by
      rcases h c (by simp) with rfl | rfl
      · exact hx text
      · exact hy text
    rw [Pattern.search, hc, ih (fun c' hc' => h c' (by simp [hc']))]
    rfl

theorem Idle.hasWord {w : String} {text : List Char} (h : Idle text)
    (hx : ∀ t, rests (word foldCase w) ('x' :: t) = [])
    (hy : ∀ t, rests (word foldCase w) ('y' :: t) = []) :
    hasWord plainTables w text = false := by
  have hno : ∀ last, searchWord plainTables w last text = false := by
    induction text with
    | nil => exact fun last => rfl
    | cons c text ih =>
      intro last
      have hc : rests (word foldCase w) (c :: text) = [] := by
        rcases h c (by simp) with rfl | rfl
        · exact hx text
        · exact hy text
      rw [searchWord, hc, ih (fun c' hc' => h c' (by simp [hc']))]
      simp
  exact hno .none

theorem Idle.sensitiveField {text : List Char} (h : Idle text) :
    sensitiveField plainTables text = false := by
  have hword : (["token", "password", "passwd", "credential", "authorization", "prompt", "cot",
      "pid", "handle"].any (fun w => Journal.hasWord plainTables w text)) = false := by
    rw [List.any_eq_false]
    intro w hw
    rw [Bool.not_eq_true]
    apply h.hasWord
    all_goals
      intro t
      fin_cases hw <;> rfl
  rw [Journal.sensitiveField, hword, h.search]
  · rfl
  · rfl
  · exact fun t => rfl
  · exact fun t => rfl

/-- A short text of such letters passes the check of every name. -/
theorem Idle.checkString {name : String} {identifier : Bool} {text : List Char} (h : Idle text)
    (hne : text ≠ []) (hlen : text.length ≤ 128) :
    checkString plainTables name identifier (.str (String.ofList text)) = .ok () := by
  obtain ⟨c,t,rfl⟩ := List.exists_cons_of_ne_nil hne
  have hc : c = 'x' ∨ c = 'y' := h c (by simp)
  have ht : Idle t := fun c' hc' => h c' (by simp [hc'])
  have hlist : (String.ofList (c :: t)).toList = c :: t := String.toList_ofList
  have hempty : String.ofList (c :: t) ≠ "" := by
    intro he
    have := congrArg String.toList he
    rw [hlist] at this
    cases this
  have hid : isEventId (String.ofList (c :: t)) = true := by
    have hsafe : t.all (fun d => d.isAlphanum || d ∈ ['_', '.', ':', '-']) = true :=
      ht.all (by decide) (by decide)
    rw [isEventId, hlist]
    simp only [hsafe, Bool.and_true, Bool.and_eq_true, decide_eq_true_eq]
    rw [List.length_cons] at hlen
    exact ⟨by rcases hc with rfl | rfl <;> decide,by omega⟩
  have hdot : String.ofList (c :: t) ≠ "." ∧ String.ofList (c :: t) ≠ ".." := by
    constructor
    all_goals
      intro he
      have := congrArg String.toList he
      rw [hlist] at this
      rcases hc with rfl | rfl <;> cases this
  have habs : isAbsolute (c :: t) = false := by
    cases t with
    | nil => rcases hc with rfl | rfl <;> rfl
    | cons b t =>
      have hb : b = 'x' ∨ b = 'y' := h b (by simp)
      rcases hc with rfl | rfl <;> rcases hb with rfl | rfl <;> rfl
  have hurl : Pattern.search urlStart (c :: t) = false :=
    h.search rfl (fun t => rfl) (fun t => rfl)
  have hcontrol : (c :: t).any isControl = false := h.none (by decide) (by decide)
  have hmark : (c :: t).any (fun c => c = ':' || c = '=') = false := h.none (by decide) (by decide)
  have hsensitive := h.sensitiveField
  generalize String.ofList (c :: t) = s at *
  have hlength : ¬MAX_STRING < s.length := by
    rw [MAX_STRING, ← String.length_toList, hlist]
    omega
  rw [← hlist] at habs hurl hcontrol hmark hsensitive
  simp [Journal.checkString, hempty, hid, hdot, habs, hurl, hcontrol, hmark, hsensitive, deny,
    bind, Except.bind, hlength]

theorem checkString_xText {name : String} {identifier : Bool} {n : ℕ} (hn : 0 < n)
    (hm : n ≤ 128) :
    checkString plainTables name identifier (.str (String.ofList (xText n))) = .ok () := by
  apply (idle_xText n).checkString
  · rw [xText, ne_eq, List.replicate_eq_nil_iff]
    omega
  · rwa [xText, List.length_replicate]

def filler : String := "xxxxxxxxxxxxxxxxxxxx"

/-- `m` lists of `n` copies of a text. -/
def block (m n : ℕ) (s : String) : Json :=
  .arr (List.replicate m (.arr (List.replicate n (.str s))))

theorem block_freeze {m n : ℕ} {s : String} (hm : m ≤ MAX_COLLECTION) (hn : n ≤ MAX_COLLECTION)
    (hs : freeze E 2 (.str s) = .ok ()) : freeze E 0 (block m n s) = .ok () := by
  have hinner : freeze E 1 (.arr (List.replicate n (.str s))) = .ok () := by
    rw [freeze, if_neg (by decide), List.length_replicate, if_neg (by omega)]
    exact freezeItems_replicate hs
  rw [block, freeze, if_neg (by decide), List.length_replicate, if_neg (by omega)]
  exact freezeItems_replicate hinner

theorem block_size {m n : ℕ} {s : String} (hm : 0 < m) (hn : 0 < n) :
    (dumps (block m n s)).utf8ByteSize =
      1+m*(1+n*((dumps (.str s)).utf8ByteSize+1)+1) := by
  have hne : ∀ {k : ℕ} {v : Json}, 0 < k → List.replicate k v ≠ [] := by
    intro k v hk he
    rw [List.replicate_eq_nil_iff] at he
    omega
  rw [block, size_dumps_arr (hne hm), List.map_replicate, List.sum_replicate,
    size_dumps_arr (hne hn), List.map_replicate, List.sum_replicate, smul_eq_mul, smul_eq_mul]

/-- One of eighty events with a payload of some fifty kilobytes. What the id gains in
length, the ordering key loses. -/
def bulk (k : ℕ) : EventFields where
  schemaVersion := .int 1
  eventId := .str (String.ofList (xText (k+1)))
  runId := .str "run"
  taskId := .null
  kind := .str "step"
  orderingKey := .str (String.ofList (xText (80-k)))
  sequence := .int (100+k : ℕ)
  ownerEpoch := .null
  payload := block 9 256 filler
  createdAt := .str "2026-01-01T00:00:00Z"

theorem bulkPayload_size : (dumps (block 9 256 filler)).utf8ByteSize = 53011 := by
  have hfiller : (dumps (.str filler)).utf8ByteSize = 22 := by decide +kernel
  rw [block_size (by decide) (by decide), hfiller]

theorem bulkSequence_size :
    ∀ k < 80, (dumps (.int (100+k : ℕ))).utf8ByteSize = 3 := by decide +kernel

theorem names_size : eventFields.map (fun k => (quote k).utf8ByteSize) =
    [16, 10, 8, 9, 6, 14, 10, 13, 9, 12] := by
  decide +kernel

def textSize (v : Json) : ℕ := (dumps v).utf8ByteSize

theorem toDict_size (f : EventFields) : (canonical f.toDict).utf8ByteSize = 128+
    (textSize f.schemaVersion+textSize f.eventId+textSize f.runId+textSize f.taskId+textSize f.kind+
      textSize f.orderingKey+textSize f.sequence+textSize f.ownerEpoch+textSize f.payload+
      textSize f.createdAt) := by
  have hne : f.toDict ≠ [] := List.cons_ne_nil _ _
  have hnames := names_size
  simp only [eventFields, List.map_cons, List.map_nil, List.cons.injEq] at hnames
  rw [canonical, size_dumps_obj hne]
  simp only [EventFields.toDict, List.map_cons, List.map_nil, List.sum_cons, List.sum_nil, hnames,
    textSize]
  omega

/-- The checksum and the newline add seventy-nine bytes. -/
theorem line_bytes (e : FleetEvent E) : e.line.bytes = e.canonical.utf8ByteSize+79 := by
  have hne : e.fields.toDict ≠ [] := List.cons_ne_nil _ _
  have hsize : e.canonical = canonical e.fields.toDict := rfl
  have hput : e.record = e.fields.toDict++[("checksum",.str (sha256Hex e.canonical))] := rfl
  have hname : (quote "checksum").utf8ByteSize = 10 := by decide +kernel
  show (canonical e.record).utf8ByteSize+1 = _
  rw [hput, canonical, size_dumps_obj (by simp), List.map_append, List.sum_append,
    List.map_singleton, List.sum_singleton, hname, dumps, size_sha256Hex, hsize, canonical,
    size_dumps_obj hne]
  omega

theorem text_sizes : textSize (.int 1) = 1 ∧ textSize (.str "run") = 5 ∧ textSize .null = 4 ∧
    textSize (.str "step") = 6 ∧ textSize (.str "2026-01-01T00:00:00Z") = 22 := by
  decide +kernel

theorem bulk_size {k : ℕ} (hk : k < 80) : (canonical (bulk k).toDict).utf8ByteSize = 53269 := by
  have hid : textSize (bulk k).eventId = k+1+2 := xText_size (k+1)
  have hkey : textSize (bulk k).orderingKey = 80-k+2 := xText_size (80-k)
  have hsequence : textSize (bulk k).sequence = 3 := bulkSequence_size k hk
  have hpayload : textSize (bulk k).payload = 53011 := bulkPayload_size
  obtain ⟨hone,hname,hnull,hstep,hstamp⟩ := text_sizes
  have hversion : textSize (bulk k).schemaVersion = 1 := hone
  have hrun : textSize (bulk k).runId = 5 := hname
  have htask : textSize (bulk k).taskId = 4 := hnull
  have hkind : textSize (bulk k).kind = 6 := hstep
  have howner : textSize (bulk k).ownerEpoch = 4 := hnull
  have htime : textSize (bulk k).createdAt = 22 := hstamp
  rw [toDict_size, hversion, hid, hrun, htask, hkind, hkey, hsequence, howner, hpayload, htime]
  omega

/-- The texts that the events of a sample share. -/
theorem plain_texts : checkString plainTables "run_id" true (.str "run") = .ok () ∧
    checkString plainTables "kind" false (.str "step") = .ok () ∧
    checkCreatedAt plainTables (.str "2026-01-01T00:00:00Z") = .ok () := by
  decide +kernel

theorem checkNumber_small {n : ℕ} (hn : n < 2000) :
    checkNumber plainTables "sequence" (.int n) = .ok () := by
  have hlimit : 2000 < floatLimit := by decide +kernel
  have hcast : (n : ℤ).natAbs = n := Int.natAbs_natCast _
  rw [checkNumber, hcast, if_neg (by omega), deny_ok, decide_eq_false_iff_not, not_lt]
  exact Int.natCast_nonneg _

theorem bulk_checked {k : ℕ} (hk : k < 80) : checkEvent plainTables (bulk k) = .ok () := by
  have hid : checkString plainTables "event_id" true (bulk k).eventId = .ok () :=
    checkString_xText (by omega) (by omega)
  have hkey : checkString plainTables "ordering_key" false (bulk k).orderingKey = .ok () :=
    checkString_xText (by omega) (by omega)
  obtain ⟨hrun,hkind,htime⟩ := plain_texts
  have hsequence : checkNumber plainTables "sequence" (bulk k).sequence = .ok () :=
    checkNumber_small (by omega)
  have hpayload : freeze plainTables 0 (bulk k).payload = .ok () :=
    block_freeze (by decide) (by decide) (by decide +kernel)
  have hsize : deny (MAX_PAYLOAD_BYTES < (canonical (bulk k).toDict).utf8ByteSize)
      "evento excede o limite de payload" = .ok () := by
    rw [bulk_size hk]
    decide
  rw [checkEvent, hid, hkey, hsequence, hpayload, hsize]
  simp only [bulk, hrun, hkind, htime]
  rfl

def bulkEvent (k : ℕ) : FleetEvent plainTables :=
  ⟨bulk (k%80),bulk_checked (Nat.mod_lt k (by decide))⟩

theorem bulkEvent_bytes (k : ℕ) : (bulkEvent k).line.bytes = 53348 := by
  rw [line_bytes, FleetEvent.canonical]
  exact congrArg (·+79) (bulk_size (Nat.mod_lt k (by decide)))

theorem bulkEvent_sequence {k : ℕ} (hk : k < 80) :
    number plainTables (bulkEvent k).fields.sequence = 100+k := by
  have hmod : k%80 = k := Nat.mod_eq_of_lt hk
  simp [bulkEvent, bulk, number, hmod]

theorem bulkEvent_eventId {k n : ℕ} (hk : k < 80) (hn : n < 80)
    (h : (bulkEvent k).eventId = (bulkEvent n).eventId) : k = n := by
  have hlen : (xText (k%80+1)).length = (xText (n%80+1)).length :=
    congrArg List.length (String.ofList_injective h)
  rw [xText, xText, List.length_replicate, List.length_replicate] at hlen
  omega

def bulkLog : EventLog := ⟨"run",.null⟩

def bulkFile (n : ℕ) : LogFile := ((List.range n).map bulkEvent).map FleetEvent.line

theorem bulkFile_bytes (n : ℕ) : (bulkFile n).bytes = n*53348 := by
  rw [LogFile.bytes, bulkFile, List.map_map, List.map_map]
  have hbytes : (Line.bytes ∘ FleetEvent.line) ∘ bulkEvent = fun _ => 53348 := by
    funext k
    exact bulkEvent_bytes k
  rw [hbytes, List.map_const', List.sum_replicate, List.length_range, smul_eq_mul]

theorem bulk_orderly {n : ℕ} (hn : n ≤ 80) : Orderly bulkLog ((List.range n).map bulkEvent) where
  sameRun := by
    intro e he
    obtain ⟨k,-,rfl⟩ := List.mem_map.mp he
    rfl
  distinct := by
    rw [List.map_map]
    apply List.Nodup.map_on ?_ List.nodup_range
    intro k hk m hm h
    rw [List.mem_range] at hk hm
    exact bulkEvent_eventId (by omega) (by omega) h
  numbered := by
    intro e he
    obtain ⟨k,-,rfl⟩ := List.mem_map.mp he
    simp [bulkEvent, bulk]
  increasing := by
    rw [List.pairwise_map]
    refine List.Pairwise.imp_of_mem ?_ List.pairwise_lt_range
    intro k m hk hm hlt
    rw [List.mem_range] at hk hm
    rw [bulkEvent_sequence (by omega), bulkEvent_sequence (by omega)]
    exact_mod_cast Nat.add_lt_add_left hlt 100
  short := by
    intro e he
    obtain ⟨k,-,rfl⟩ := List.mem_map.mp he
    rw [bulkEvent_bytes]
    decide

/-- The events are written as long as the file can be read. -/
theorem bulk_appended {n : ℕ} (hn : n ≤ 79) :
    appendAll plainTables "now" bulkLog ((List.range n).map bulkEvent) [] = .ok (bulkFile n) := by
  apply appendAll_orderly rfl (bulk_orderly (by omega))
  · have hcount : MAX_EVENTS = 10000 := rfl
    rw [List.length_map, List.length_range]
    omega
  · have hmax : MAX_LOG_BYTES = 4194304 := by decide
    cases n with
    | zero => exact Nat.zero_le _
    | succ n =>
      rw [List.range_succ, List.map_append, List.map_singleton, List.dropLast_concat, ← bulkFile,
        bulkFile_bytes]
      omega

/-- Seventy-nine events of some fifty kilobytes: the appends all return, and what they
leave cannot be read. -/
theorem appended_not_seen :
    ∃ (es : List (FleetEvent plainTables)) (f' : LogFile),
      appendAll plainTables "now" ⟨"run",.null⟩ es [] = .ok f' ∧
        records plainTables "now" f' = .error (.event "log excede o limite de bytes") ∧
        ¬AllSeen plainTables "now" f' es := by
  have herror : records plainTables "now" (bulkFile 79) =
      .error (.event "log excede o limite de bytes") := by
    have hmax : MAX_LOG_BYTES < (bulkFile 79).bytes := by
      rw [bulkFile_bytes]
      decide
    rw [records, deny, if_pos (decide_eq_true hmax)]
    rfl
  refine ⟨(List.range 79).map bulkEvent,bulkFile 79,bulk_appended (by decide),herror,?_⟩
  rintro ⟨rs,hrs,-⟩
  rw [herror] at hrs
  cases hrs

/-- The first of the events, in a log without a file. -/
theorem appended_seen_first :
    appendAll plainTables "now" ⟨"run",.null⟩ [bulkEvent 0] [] = .ok [(bulkEvent 0).line] ∧
      AllSeen plainTables "now" [(bulkEvent 0).line] [bulkEvent 0] := by
  have h : appendAll plainTables "now" ⟨"run",.null⟩ [bulkEvent 0] [] =
      .ok [(bulkEvent 0).line] := bulk_appended (by decide : 1 ≤ 79)
  refine ⟨h,(appended_seen_iff plainTables "now" ⟨"run",.null⟩ [bulkEvent 0] [] (by simp) h).mpr ?_⟩
  have hfresh : fresh (idsOf plainTables "now" []) [bulkEvent 0] = [bulkEvent 0] := rfl
  rw [hfresh]
  simp only [List.map_singleton, List.sum_singleton, bulkEvent_bytes]
  decide

end PdFleet.Journal
