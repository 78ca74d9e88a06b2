import PdFleet.Json
import Mathlib.Data.List.AList

/-!
# The status of an agent on the cockpit

The cockpit folds the last lines of the activity bus into a row for each agent. The most
recent event is to win, and the rank of its status to break ties only. This holds in every
order of the lines if and only if no older status outranks the latest one, the events that
share its time agree, and no later event without a status can hide one without a rank.
-/

set_option autoImplicit false

namespace PdFleet.Cockpit

def MAX_LINES : ℕ := 1000

structure AgentRow where
  ts : String
  status : Json
  action : Json
  metadata : Json
  count : ℕ
  runs : List String

variable (inner : Json → String)

/-- `str(value)`; what a list or a dict prints after its bracket is a parameter. -/
def pyStr : Json → String
  | .null => "None"
  | .bool b => if b then "True" else "False"
  | .int n => toString n
  | .float r => r
  | .str s => s
  | .arr xs => "[" ++ inner (.arr xs)
  | .obj kvs => "\x7b" ++ inner (.obj kvs)

def get (ev : Obj) (k : String) : Json := (ev.field k).getD .null

/-- `value or default`. -/
def either (v default : Json) : Json := if v.truth then v else default

/-- `str(ev.get(k) or default)`. -/
def textAt (ev : Obj) (k default : String) : String := pyStr inner (either (get ev k) (.str default))

/-- `rank.get(str(status), -1)`: only a text prints as one of the names. -/
def rank : Json → ℤ
  | .str s =>
    if s = "failed" then 5 else if s = "blocked" then 4 else if s = "waiting" then 3
    else if s = "running" then 2 else if s = "done" then 1 else -1
  | _ => -1

def addRun (runs : List String) (run : String) : List String :=
  if run ∈ runs then runs else runs++[run]

def firstRow (ev : Obj) : AgentRow where
  ts := textAt inner ev "ts" ""
  status := get ev "status"
  action := get ev "action"
  metadata := either (get ev "meta") (.obj [])
  count := 1
  runs := [textAt inner ev "run_id" ""]

/-- A further event of an agent. -/
def update (cur : AgentRow) (ev : Obj) : AgentRow :=
  let ts := textAt inner ev "ts" ""
  let status := get ev "status"
  let later := cur.ts < ts
  let newer := cur.ts ≤ ts
  { ts := if later then ts else cur.ts
    status := if status.truth ∧ (newer ∨ rank cur.status < rank status) then status else cur.status
    action := if later ∧ (get ev "action").truth then get ev "action" else cur.action
    metadata := if later then either (get ev "meta") cur.metadata else cur.metadata
    count := cur.count+1
    runs := addRun cur.runs (textAt inner ev "run_id" "") }

abbrev Rows := AList (fun _ : String => AgentRow)

/-- The rows after an event of the agent `aid`. -/
def advance (agg : Rows) (aid : String) (ev : Obj) : Rows :=
  match agg.lookup aid with
  | none => agg.insert aid (firstRow inner ev)
  | some cur => agg.insert aid (update inner cur ev)

/-- One line of the bus; `none` is a line that is no JSON. -/
def step (agg : Rows) : Option Json → Except PyError Rows
  | none => .ok agg
  | some (.obj kvs) =>
    let ev : Obj := kvs
    if (ev.field "source").any (·.isStr "hermes") then
      .ok (advance inner agg (textAt inner ev "agent_id" "hermes:?") ev)
    else .ok agg
  | some _ => .error .attributeError

/-- The rows of `_hermes_agents_from_events`, before their display. -/
def hermesAgents (lines : List (Option Json)) : Except PyError Rows :=
  (lines.drop (lines.length-MAX_LINES)).foldlM (step inner) ∅

/-- The status of an agent, from the events on the bus. -/
def statusOf (aid : String) (events : List Obj) : Option Json :=
  match hermesAgents inner (events.map (fun ev => some (.obj ev))) with
  | .ok agg => (agg.lookup aid).map (·.status)
  | .error _ => none

/-- An event of the agent that the fold looks at. -/
def IsEvent (aid : String) (ev : Obj) : Prop :=
  (ev.field "source").any (·.isStr "hermes") = true ∧ textAt inner ev "agent_id" "hermes:?" = aid

def ts (ev : Obj) : String := textAt inner ev "ts" ""

def Carries (ev : Obj) : Prop := (get ev "status").truth = true

instance (ev : Obj) : Decidable (Carries ev) := inferInstanceAs (Decidable (_ = true))

/-- The events that carry a status and are as late as any that does. -/
def Latest (events : List Obj) (ev : Obj) : Prop :=
  ev ∈ events ∧ Carries ev ∧ ∀ f ∈ events, Carries f → ts inner f ≤ ts inner ev

/-- The events whose status should be shown. -/
def Best (events : List Obj) (ev : Obj) : Prop :=
  Latest inner events ev ∧ ∀ f, Latest inner events f → rank (get f "status") ≤ rank (get ev "status")

/-- In every order of the lines the status is that of a best event, and the same one. -/
def MostRecentWins (aid : String) (events : List Obj) : Prop :=
  ∀ events', events'.Perm events → (∃ ev ∈ events, Carries ev) →
    (∃ ev, Best inner events ev ∧ statusOf inner aid events' = some (get ev "status")) ∧
      statusOf inner aid events' = statusOf inner aid events

variable {inner} {aid : String} {events : List Obj} {ev : Obj} {cur : AgentRow}

/-! ## The fold of one agent -/

theorem step_event (h : IsEvent inner aid ev) (agg : Rows) :
    step inner agg (some (.obj ev)) = .ok (advance inner agg aid ev) := by
  obtain ⟨hsource,haid⟩ := h
  rw [step, if_pos hsource, haid]

theorem foldlM_events (hev : ∀ ev ∈ events, IsEvent inner aid ev) (agg : Rows) :
    (events.map (fun ev => some (Json.obj ev))).foldlM (step inner) agg =
      .ok (events.foldl (fun agg ev => advance inner agg aid ev) agg) := by
  induction events generalizing agg with
  | nil => rfl
  | cons ev events ih =>
    rw [List.map_cons, List.foldlM_cons, step_event (hev ev List.mem_cons_self)]
    exact ih (fun f hf => hev f (List.mem_cons_of_mem ev hf)) _

theorem lookup_advance {agg : Rows} (h : agg.lookup aid = some cur) :
    (advance inner agg aid ev).lookup aid = some (update inner cur ev) := by
  rw [advance, h]
  exact AList.lookup_insert agg

theorem lookup_fold {agg : Rows} (h : agg.lookup aid = some cur) :
    (events.foldl (fun agg ev => advance inner agg aid ev) agg).lookup aid =
      some (events.foldl (update inner) cur) := by
  induction events generalizing agg cur with
  | nil => exact h
  | cons ev events ih => exact ih (lookup_advance h)

theorem statusOf_of {agg : Rows}
    (h : hermesAgents inner (events.map (fun ev => some (.obj ev))) = .ok agg) :
    statusOf inner aid events = (agg.lookup aid).map (·.status) := by
  unfold statusOf
  rw [h]

/-- The row of the agent is the fold of its events over the first of them. -/
theorem statusOf_cons (hev : ∀ f ∈ ev :: events, IsEvent inner aid f)
    (hlen : (ev :: events).length ≤ MAX_LINES) :
    statusOf inner aid (ev :: events) =
      some (events.foldl (update inner) (firstRow inner ev)).status := by
  have hfirst : (advance inner ∅ aid ev).lookup aid = some (firstRow inner ev) :=
    AList.lookup_insert (∅ : Rows)
  have hagents : hermesAgents inner ((ev :: events).map (fun ev => some (.obj ev))) =
      .ok (events.foldl (fun agg ev => advance inner agg aid ev) (advance inner ∅ aid ev)) := by
    rw [hermesAgents, List.length_map, Nat.sub_eq_zero_of_le hlen, List.drop_zero]
    exact foldlM_events hev ∅
  rw [statusOf_of hagents, lookup_fold hfirst, Option.map_some]

/-- The row of an agent after its events. -/
def rowOf (inner : Json → String) (events : List Obj) : Option AgentRow :=
  events.foldl (fun row ev => some (row.elim (firstRow inner ev) (update inner · ev))) none

theorem rowOf_snoc : rowOf inner (events++[ev]) =
    some ((rowOf inner events).elim (firstRow inner ev) (update inner · ev)) := by
  rw [rowOf, List.foldl_append]
  rfl

theorem statusOf_eq (hev : ∀ f ∈ events, IsEvent inner aid f) (hlen : events.length ≤ MAX_LINES) :
    statusOf inner aid events = (rowOf inner events).map (·.status) := by
  cases events with
  | nil => rfl
  | cons ev events =>
    have hfold : ∀ (l : List Obj) (cur : AgentRow),
        l.foldl (fun row ev => some (row.elim (firstRow inner ev) (update inner · ev))) (some cur) =
          some (l.foldl (update inner) cur) := by
      intro l
      induction l with
      | nil => exact fun cur => rfl
      | cons f l ih => exact fun cur => ih _
    rw [statusOf_cons hev hlen, rowOf, List.foldl_cons]
    exact (congrArg (Option.map (·.status)) (hfold events (firstRow inner ev))).symm

/-! ## What the fold keeps -/

theorem update_ts : (update inner cur ev).ts = max cur.ts (ts inner ev) := by
  show (if cur.ts < ts inner ev then ts inner ev else cur.ts) = _
  split_ifs with h
  · exact (max_eq_right h.le).symm
  · exact (max_eq_left (not_lt.mp h)).symm

/-- The status after an event, where the event is taken and where it is not. -/
theorem update_status : (update inner cur ev).status =
    if Carries ev ∧ (cur.ts ≤ ts inner ev ∨ rank cur.status < rank (get ev "status")) then
      get ev "status" else cur.status := rfl

theorem rank_text {s : String} (h : rank (.str s) ≠ -1) :
    s ∈ ["failed", "blocked", "waiting", "running", "done"] := by
  by_contra hs
  simp only [List.mem_cons, List.not_mem_nil, or_false, not_or] at hs
  apply h
  simp [rank, hs]

theorem rank_inj {v w : Json} (h : rank v = rank w) (hv : rank v ≠ -1) : v = w := by
  have hw : rank w ≠ -1 := h ▸ hv
  cases v with
  | str s =>
    cases w with
    | str t =>
      have hs := rank_text hv
      have ht := rank_text hw
      fin_cases hs <;> fin_cases ht <;> first | rfl | exact absurd h (by decide)
    | _ => exact absurd rfl hw
  | _ => exact absurd rfl hv

theorem rank_falsy {v : Json} (h : v.truth ≠ true) : rank v = -1 := by
  by_contra hv
  cases v with
  | str s =>
    have hs := rank_text hv
    fin_cases hs <;> exact h rfl
  | _ => exact hv rfl

theorem neg_one_le_rank (v : Json) : -1 ≤ rank v := by
  by_cases hv : rank v = -1
  · exact hv.ge
  · cases v with
    | str s =>
      have hs := rank_text hv
      fin_cases hs <;> decide
    | _ => exact absurd rfl hv

theorem rowOf_eq_none (h : rowOf inner events = none) : events = [] := by
  cases events using List.reverseRecOn with
  | nil => rfl
  | append_singleton events f _ =>
    rw [rowOf_snoc] at h
    cases h

/-- The time of a row is that of its latest event. -/
theorem rowOf_ts {row : AgentRow} (h : rowOf inner events = some row) :
    (∀ f ∈ events, ts inner f ≤ row.ts) ∧ ∃ f ∈ events, row.ts = ts inner f := by
  induction events using List.reverseRecOn generalizing row with
  | nil => cases h
  | append_singleton events ev ih =>
    rw [rowOf_snoc, Option.some.injEq] at h
    subst h
    cases hrow : rowOf inner events with
    | none =>
      obtain rfl := rowOf_eq_none hrow
      refine ⟨?_,ev,by simp,rfl⟩
      intro f hf
      rw [List.nil_append, List.mem_singleton] at hf
      rw [hf]
      exact le_refl _
    | some cur =>
      obtain ⟨hle,g,hg,hgt⟩ := ih hrow
      show (∀ f ∈ events++[ev], ts inner f ≤ (update inner cur ev).ts) ∧
        ∃ f ∈ events++[ev], (update inner cur ev).ts = ts inner f
      rw [update_ts]
      constructor
      · intro f hf
        rcases List.mem_append.mp hf with hf | hf
        · exact le_max_of_le_left (hle f hf)
        · rw [List.mem_singleton.mp hf]
          exact le_max_right _ _
      · rcases max_choice cur.ts (ts inner ev) with hmax | hmax
        · exact ⟨g,by simp [hg],hmax.trans hgt⟩
        · exact ⟨ev,by simp,hmax⟩

/-- An event with a status leaves none of lower rank. -/
theorem rank_le_update (hc : Carries ev) :
    rank (get ev "status") ≤ rank (update inner cur ev).status := by
  rw [update_status]
  split_ifs with h
  · exact le_refl _
  · exact not_lt.mp (fun hlt => h ⟨hc,.inr hlt⟩)

/-- Events without a status leave the status as it is. -/
theorem rowOf_append_statusless {rest : List Obj} (hne : events ≠ [])
    (hrest : ∀ f ∈ rest, ¬Carries f) :
    (rowOf inner (events++rest)).map (·.status) = (rowOf inner events).map (·.status) := by
  induction rest using List.reverseRecOn with
  | nil => rw [List.append_nil]
  | append_singleton rest f ih =>
    rw [← List.append_assoc, rowOf_snoc, ← ih (fun g hg => hrest g (List.mem_append_left _ hg))]
    cases hrow : rowOf inner (events++rest) with
    | none => exact absurd (List.append_eq_nil_iff.mp (rowOf_eq_none hrow)).1 hne
    | some cur =>
      show some (update inner cur f).status = some cur.status
      rw [update_status, if_neg (fun h => hrest f (by simp) h.1)]

/-! ## When the most recent event wins -/

/-- The latest events with a status agree on it, no older status outranks it, and where a
later event has no status, it has a rank. -/
structure Unmasked (inner : Json → String) (events : List Obj) : Prop where
  agree : ∀ e f, Latest inner events e → Latest inner events f → get e "status" = get f "status"
  outrank : ∀ e f, Latest inner events e → f ∈ events → Carries f →
    rank (get f "status") ≤ rank (get e "status")
  hidden : ∀ e f, Latest inner events e → f ∈ events → ts inner e < ts inner f →
    rank (get e "status") ≠ -1

theorem Latest.of_perm {events' : List Obj} (h : events'.Perm events)
    (he : Latest inner events' ev) : Latest inner events ev :=
  ⟨h.mem_iff.mp he.1,he.2.1,fun f hf hc => he.2.2 f (h.mem_iff.mpr hf) hc⟩

theorem exists_latest (inner : Json → String) (h : ∃ ev ∈ events, Carries ev) : ∃ ev, Latest inner events ev := by
  classical
  obtain ⟨ev,hev,hc⟩ := h
  obtain ⟨m,hm,hmax⟩ := (events.filter (fun ev => Carries ev)).toFinset.exists_max_image
    (ts inner) ⟨ev,by simp [hev,hc]⟩
  rw [List.mem_toFinset, List.mem_filter, decide_eq_true_iff] at hm
  refine ⟨m,hm.1,hm.2,fun f hf hcf => hmax f ?_⟩
  rw [List.mem_toFinset, List.mem_filter, decide_eq_true_iff]
  exact ⟨hf,hcf⟩

/-- What a prefix of the events leaves as the status, when the most recent event wins. -/
structure Shown (inner : Json → String) (events seen : List Obj) (row : AgentRow) : Prop where
  carried : row.status.truth ≠ true ∨ ∃ f ∈ seen, Carries f ∧ row.status = get f "status"
  latest : ∀ e, Latest inner events e → e ∈ seen → row.status = get e "status"

theorem shown_first : Shown inner events [ev] (firstRow inner ev) := by
  constructor
  · by_cases hc : Carries ev
    · exact .inr ⟨ev,List.mem_singleton.mpr rfl,hc,rfl⟩
    · exact .inl hc
  · intro e _ he
    rw [List.mem_singleton.mp he]
    rfl

/-- One more event: the latest ones are taken, unless the row already shows their status. -/
theorem Unmasked.shown_update {seen : List Obj} (h : Unmasked inner events)
    (hseen : ∀ f ∈ seen, f ∈ events) (hev : ev ∈ events) {row : AgentRow}
    (hrow : rowOf inner seen = some row) (hs : Shown inner events seen row) :
    Shown inner events (seen++[ev]) (update inner row ev) := by
  have hstatus := @update_status inner ev row
  constructor
  · rw [hstatus]
    split_ifs with hif
    · exact .inr ⟨ev,by simp,hif.1,rfl⟩
    · rcases hs.carried with hf | ⟨f,hf,hc,hfs⟩
      · exact .inl hf
      · exact .inr ⟨f,by simp [hf],hc,hfs⟩
  · intro e he hmem
    rw [hstatus]
    split_ifs with hif
    · rcases List.mem_append.mp hmem with hmem | hmem
      · obtain ⟨hc,hlater | hhigher⟩ := hif
        · -- as late as the one shown, so a latest one itself
          refine h.agree ev e ⟨hev,hc,fun f hf hcf => ?_⟩ he
          calc ts inner f ≤ ts inner e := he.2.2 f hf hcf
            _ ≤ row.ts := (rowOf_ts hrow).1 e hmem
            _ ≤ ts inner ev := hlater
        · rw [hs.latest e he hmem] at hhigher
          exact absurd (h.outrank e ev he hev hc) (not_le.mpr hhigher)
      · rw [List.mem_singleton.mp hmem]
    · rcases List.mem_append.mp hmem with hmem | hmem
      · exact hs.latest e he hmem
      · rw [List.mem_singleton.mp hmem] at he ⊢
        obtain ⟨hnewer,hhigher⟩ := not_or.mp (fun hor => hif ⟨he.2.1,hor⟩)
        obtain ⟨f,hf,hts⟩ := (rowOf_ts hrow).2
        have hrank : rank (get ev "status") ≠ -1 :=
          h.hidden ev f he (hseen f hf) (hts ▸ not_le.mp hnewer)
        have hle : rank (get ev "status") ≤ rank row.status := not_lt.mp hhigher
        have hnone : rank row.status ≠ -1 := by
          have := neg_one_le_rank (get ev "status")
          omega
        rcases hs.carried with hfalsy | ⟨g,hg,hcg,hgs⟩
        · exact absurd (rank_falsy hfalsy) hnone
        · have hge : rank row.status ≤ rank (get ev "status") :=
            hgs ▸ h.outrank ev g he (hseen g hg) hcg
          exact rank_inj (le_antisymm hge hle) hnone

/-- Where nothing masks them, a list of the events leaves the status of the latest. -/
theorem Unmasked.shown (h : Unmasked inner events) {seen : List Obj}
    (hseen : ∀ f ∈ seen, f ∈ events) {row : AgentRow} (hrow : rowOf inner seen = some row) :
    Shown inner events seen row := by
  induction seen using List.reverseRecOn generalizing row with
  | nil => cases hrow
  | append_singleton seen ev ih =>
    rw [rowOf_snoc, Option.some.injEq] at hrow
    subst hrow
    have hpre : ∀ f ∈ seen, f ∈ events := fun f hf => hseen f (List.mem_append_left _ hf)
    cases hcur : rowOf inner seen with
    | none =>
      rw [rowOf_eq_none hcur]
      exact shown_first
    | some cur => exact h.shown_update hpre (hseen ev (by simp)) hcur (ih hpre hcur)

theorem exists_row (inner : Json → String) (h : ev ∈ events) : ∃ row, rowOf inner events = some row := by
  cases hrow : rowOf inner events with
  | none =>
    rw [rowOf_eq_none hrow] at h
    exact absurd h List.not_mem_nil
  | some row => exact ⟨row,rfl⟩

theorem Unmasked.statusOf_latest (h : Unmasked inner events)
    (hev : ∀ f ∈ events, IsEvent inner aid f) (hlen : events.length ≤ MAX_LINES)
    (he : Latest inner events ev) {events' : List Obj} (hperm : events'.Perm events) :
    statusOf inner aid events' = some (get ev "status") := by
  have hmem : ev ∈ events' := hperm.mem_iff.mpr he.1
  obtain ⟨row,hrow⟩ := exists_row inner hmem
  rw [statusOf_eq (fun f hf => hev f (hperm.mem_iff.mp hf)) (hperm.length_eq ▸ hlen), hrow,
    Option.map_some, (h.shown (fun f hf => hperm.mem_iff.mp hf) hrow).latest ev he hmem]

theorem Unmasked.mostRecentWins (h : Unmasked inner events)
    (hev : ∀ f ∈ events, IsEvent inner aid f) (hlen : events.length ≤ MAX_LINES) :
    MostRecentWins inner aid events := by
  intro events' hperm hcarry
  obtain ⟨e,he⟩ := exists_latest inner hcarry
  have hstatus := h.statusOf_latest hev hlen he hperm
  have hbest : Best inner events e := ⟨he,fun f hf => (h.agree f e hf he ▸ le_refl _)⟩
  refine ⟨⟨e,hbest,hstatus⟩,?_⟩
  rw [hstatus, h.statusOf_latest hev hlen he (List.Perm.refl events)]

/-! ## The orders that show what is masked -/

/-- A latest event after every other that is no later: its status is the one shown. -/
theorem shown_last (he : Latest inner events ev) :
    ∃ events', events'.Perm events ∧
      (rowOf inner events').map (·.status) = some (get ev "status") := by
  obtain ⟨s,t,hsplit⟩ := List.append_of_mem he.1
  let early := (s++t).filter (fun f => ts inner f ≤ ts inner ev)
  let late := (s++t).filter (fun f => !decide (ts inner f ≤ ts inner ev))
  have hperm : ((early++[ev])++late).Perm events := by
    rw [hsplit, List.append_assoc, List.singleton_append]
    refine List.perm_middle.trans (.trans (.cons ev ?_) List.perm_middle.symm)
    exact List.filter_append_perm _ (s++t)
  refine ⟨_,hperm,?_⟩
  have hlate : ∀ f ∈ late, ¬Carries f := by
    intro f hf hcf
    have hmem := hperm.mem_iff.mp (List.mem_append_right (early++[ev]) hf)
    have hts := (List.mem_filter.mp hf).2
    rw [decide_eq_true (he.2.2 f hmem hcf)] at hts
    cases hts
  rw [rowOf_append_statusless (by simp) hlate, rowOf_snoc]
  cases hrow : rowOf inner early with
  | none => rfl
  | some row =>
    obtain ⟨f,hf,hts⟩ := (rowOf_ts hrow).2
    have hle : row.ts ≤ ts inner ev := hts ▸ of_decide_eq_true (List.mem_filter.mp hf).2
    show some (update inner row ev).status = _
    rw [update_status, if_pos ⟨he.2.1,.inl hle⟩]

/-- An event with a status after every other: none of a lower rank is shown. -/
theorem rank_last (inner : Json → String) (hev : ev ∈ events) (hc : Carries ev) :
    ∃ events' v, events'.Perm events ∧ (rowOf inner events').map (·.status) = some v ∧
      rank (get ev "status") ≤ rank v := by
  obtain ⟨s,t,hsplit⟩ := List.append_of_mem hev
  have hperm : ((s++t)++[ev]).Perm events := by
    rw [hsplit]
    exact (List.perm_append_singleton ev (s++t)).trans List.perm_middle.symm
  have hsnoc := @rowOf_snoc inner (s++t) ev
  cases hrow : rowOf inner (s++t) with
  | none =>
    rw [hrow] at hsnoc
    exact ⟨_,_,hperm,by rw [hsnoc]; rfl,le_refl _⟩
  | some row =>
    rw [hrow] at hsnoc
    exact ⟨_,_,hperm,by rw [hsnoc]; rfl,rank_le_update hc⟩

/-- An event before the others, later than any with a status: a status without a rank is
never taken. -/
theorem hidden_first {rest : List Obj} (hfirst : ¬Carries ev)
    (hrest : ∀ f ∈ rest, Carries f → ts inner f < ts inner ev ∧ rank (get f "status") = -1)
    {row : AgentRow} (hrow : rowOf inner (ev :: rest) = some row) : row.status.truth ≠ true := by
  induction rest using List.reverseRecOn generalizing row with
  | nil =>
    obtain rfl : firstRow inner ev = row := Option.some.inj hrow
    exact hfirst
  | append_singleton rest f ih =>
    obtain ⟨cur,hcur⟩ := exists_row inner (List.mem_cons_self (a := ev) (l := rest))
    have hfalsy := ih (fun g hg => hrest g (List.mem_append_left _ hg)) hcur
    rw [← List.cons_append, rowOf_snoc, hcur, Option.some.injEq] at hrow
    obtain rfl : update inner cur f = row := hrow
    rw [update_status, if_neg]
    · exact hfalsy
    · rintro ⟨hc,hts | hrank⟩
      · have hle := (rowOf_ts hcur).1 ev List.mem_cons_self
        exact absurd (hle.trans hts) (not_le.mpr (hrest f (by simp) hc).1)
      · rw [(hrest f (by simp) hc).2] at hrank
        exact absurd (neg_one_le_rank cur.status) (not_le.mpr hrank)

theorem MostRecentWins.unmasked (h : MostRecentWins inner aid events)
    (hev : ∀ f ∈ events, IsEvent inner aid f) (hlen : events.length ≤ MAX_LINES) :
    Unmasked inner events := by
  have hstatus : ∀ (e : Obj) (events' : List Obj) (v : Json), Latest inner events e →
      events'.Perm events → (rowOf inner events').map (·.status) = some v →
      statusOf inner aid events = some v ∧ ∃ b, Best inner events b ∧ v = get b "status" := by
    intro e events' v he hperm hrow
    obtain ⟨⟨b,hb,hbest⟩,hsame⟩ := h events' hperm ⟨e,he.1,he.2.1⟩
    rw [← statusOf_eq (fun f hf => hev f (hperm.mem_iff.mp hf)) (hperm.length_eq ▸ hlen)] at hrow
    exact ⟨hsame ▸ hrow,b,hb,Option.some.inj (hrow.symm.trans hbest)⟩
  have hlatest : ∀ e, Latest inner events e → statusOf inner aid events = some (get e "status") := by
    intro e he
    obtain ⟨events',hperm,hrow⟩ := shown_last he
    exact (hstatus e events' _ he hperm hrow).1
  have hagree : ∀ e f, Latest inner events e → Latest inner events f →
      get e "status" = get f "status" := by
    intro e f he hf
    exact Option.some.inj ((hlatest e he).symm.trans (hlatest f hf))
  have houtrank : ∀ e f, Latest inner events e → f ∈ events → Carries f →
      rank (get f "status") ≤ rank (get e "status") := by
    intro e f he hf hcf
    obtain ⟨events',v,hperm,hrow,hrank⟩ := rank_last inner hf hcf
    rwa [Option.some.inj ((hstatus e events' v he hperm hrow).1.symm.trans (hlatest e he))] at hrank
  refine ⟨hagree,houtrank,?_⟩
  intro e f he hf hlater hrank
  have hfirst : ¬Carries f := fun hcf => absurd (he.2.2 f hf hcf) (not_le.mpr hlater)
  obtain ⟨s,t,hsplit⟩ := List.append_of_mem hf
  have hperm : (f :: (s++t)).Perm events := hsplit ▸ List.perm_middle.symm
  obtain ⟨row,hrow⟩ := exists_row inner (List.mem_cons_self (a := f) (l := s++t))
  have hrest : ∀ g ∈ s++t, Carries g → ts inner g < ts inner f ∧ rank (get g "status") = -1 := by
    intro g hg hcg
    have hmem := hperm.mem_iff.mp (List.mem_cons_of_mem f hg)
    exact ⟨(he.2.2 g hmem hcg).trans_lt hlater,
      le_antisymm (hrank ▸ houtrank e g he hmem hcg) (neg_one_le_rank _)⟩
  obtain ⟨-,b,hb,hv⟩ := hstatus e _ row.status he hperm (by rw [hrow, Option.map_some])
  exact hidden_first hfirst hrest hrow (hv ▸ hb.1.2.1)

/-- **The most recent status wins, whatever the order of the lines**, if and only if no
older status outranks it, those that share its time are one, and no later event without a
status hides one without a rank. -/
theorem mostRecentWins_iff (hev : ∀ f ∈ events, IsEvent inner aid f)
    (hlen : events.length ≤ MAX_LINES) :
    MostRecentWins inner aid events ↔ Unmasked inner events :=
  ⟨fun h => h.unmasked hev hlen,fun h => h.mostRecentWins hev hlen⟩

def eventAt (time status : String) : Obj :=
  [("source",.str "hermes"),("agent_id",.str "hermes:cli"),("ts",.str time),("status",.str status)]

theorem eventAt_isEvent (time status : String) :
    IsEvent inner "hermes:cli" (eventAt time status) :=
  ⟨rfl,rfl⟩

theorem ts_eventAt (time status : String) (h : time ≠ "") :
    ts inner (eventAt time status) = time := by
  have htruth : (get (eventAt time status) "ts").truth = true := by
    have hget : get (eventAt time status) "ts" = .str time := rfl
    simp [hget, Json.truth, h]
  rw [ts, textAt, either, if_pos htruth]
  rfl

theorem mostRecentWins_started : MostRecentWins (fun _ => "") "hermes:cli"
      [eventAt "2026-07-01T10:00" "running", eventAt "2026-07-01T11:00" "done"] ↔
    Unmasked (fun _ => "")
      [eventAt "2026-07-01T10:00" "running", eventAt "2026-07-01T11:00" "done"] :=
  mostRecentWins_iff
    (List.forall_mem_cons.mpr ⟨eventAt_isEvent _ _,List.forall_mem_singleton.mpr (eventAt_isEvent _ _)⟩)
    (by decide)

/-- An agent that failed and then runs again stays failed. -/
theorem failed_outlives_running : ¬MostRecentWins (fun _ => "") "hermes:cli"
    [eventAt "2026-07-01T10:00" "failed", eventAt "2026-07-01T11:00" "running"] := by
  intro h
  have hmask := h.unmasked
    (List.forall_mem_cons.mpr ⟨eventAt_isEvent _ _,List.forall_mem_singleton.mpr (eventAt_isEvent _ _)⟩)
    (by decide)
  have hlatest : Latest (fun _ => "")
      [eventAt "2026-07-01T10:00" "failed", eventAt "2026-07-01T11:00" "running"]
      (eventAt "2026-07-01T11:00" "running") := by
    refine ⟨by simp,by decide,?_⟩
    intro f hf _
    rw [List.mem_pair] at hf
    rcases hf with rfl | rfl
    · rw [ts_eventAt _ _ (by decide), ts_eventAt _ _ (by decide)]
      decide
    · exact le_refl _
  have hrank := hmask.outrank _ (eventAt "2026-07-01T10:00" "failed") hlatest (by simp) (by decide)
  revert hrank
  decide

end PdFleet.Cockpit
