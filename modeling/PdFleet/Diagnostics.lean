import PdFleet.LogBudget
import PdFleet.Orchestrator

/-!
# Diagnostics of an event log

One pass over the replayed events keeps the state of each task and the reasons to doubt
the log; a second pass compares the sequence numbers of neighbours. The report checks its
counts and collections once more, against bounds of its own.
-/

set_option autoImplicit false

namespace PdFleet.Journal

/-! ## The report -/

inductive HealthStatus where
  | healthy | degraded | blocked | unknown
  deriving DecidableEq, Repr

inductive Anomaly where
  | malformed | inconsistent | gap | nonInteger | duplicate | nonMonotonic
  deriving DecidableEq, Repr

def Anomaly.text : Anomaly → String
  | malformed => "malformed_transition"
  | inconsistent => "inconsistent_transition"
  | gap => "sequence_gap"
  | nonInteger => "non_integer_sequence"
  | duplicate => "duplicate_sequence"
  | nonMonotonic => "non_monotonic_sequence"

def MAX_REASONS : ℕ := 32
def MAX_GAPS : ℕ := 32
def MAX_TASK_STATES : ℕ := 256

structure DiagnosticsFields where
  status : HealthStatus
  eventCount : ℕ
  transitionCount : ℕ
  checkpointCount : ℕ
  firstSequence : Json
  lastSequence : Json
  sequenceGaps : List ℤ
  taskStates : Dict String LifecycleState
  reasons : List Anomaly

section

variable (E : EventTables) (iso : String)

/-- `__post_init__`. -/
def checkDiagnostics (f : DiagnosticsFields) : Except ReportFault Unit := do
  refuse (MAX_QUERY < f.eventCount || f.eventCount < f.transitionCount ||
    f.eventCount < f.checkpointCount) "diagnostics counts out of bounds"
  checkReported E "invalid diagnostics sequence" f.firstSequence
  checkReported E "invalid diagnostics sequence" f.lastSequence
  refuse (MAX_GAPS < f.sequenceGaps.length || f.sequenceGaps.any (· < 0))
    "invalid diagnostics sequence gaps"
  refuse (MAX_TASK_STATES < f.taskStates.size || f.taskStates.keys.any (!isEventId ·))
    "invalid diagnostics task states"
  refuse (MAX_REASONS < f.reasons.length) "invalid diagnostics reasons"

structure EventDiagnosticsReport where
  fields : DiagnosticsFields
  valid : checkDiagnostics E fields = .ok ()

def EventDiagnosticsReport.make (f : DiagnosticsFields) :
    Except ReportFault (EventDiagnosticsReport E) :=
  match h : checkDiagnostics E f with
  | .ok () => .ok ⟨f,h⟩
  | .error e => .error e

/-- `_empty_report`. -/
def emptyReport : Except ReportFault (EventDiagnosticsReport E) :=
  EventDiagnosticsReport.make E ⟨.unknown,0,0,0,.null,.null,[],∅,[]⟩

/-! ## The pass over the events -/

/-- `_reason_add`. -/
def reasonAdd (reasons : List Anomaly) (r : Anomaly) : List Anomaly :=
  if r ∈ reasons then reasons else reasons++[r]

/-- A transition that names its task and two states. -/
structure Move where
  task : String
  source : LifecycleState
  target : LifecycleState
  deriving DecidableEq, Repr

/-- `_state`, of a value of the payload. -/
def stateOf (v : Option Json) : Option LifecycleState := do
  let s ← (← v).text?
  LifecycleState.ofText s

def moveOf {E : EventTables} (e : FleetEvent E) : Option Move := do
  let task ← e.fields.taskId.text?
  let payload ← e.fields.payload.object?
  let source ← stateOf (payload.field "from")
  let target ← stateOf (payload.field "to")
  if task = "" then none else some ⟨task,source,target⟩

structure Tally where
  states : Dict String LifecycleState
  reasons : List Anomaly
  transitions : ℕ
  checkpoints : ℕ

def Tally.start : Tally := ⟨∅,[],0,0⟩

/-- `_transition`, of an event that counts as one. -/
def Tally.transition {E : EventTables} (t : Tally) (e : FleetEvent E) : Tally :=
  match moveOf e with
  | none => { t with reasons := reasonAdd t.reasons .malformed, transitions := t.transitions+1 }
  | some m =>
    { t with
      states := t.states.insert m.task m.target
      reasons := if (t.states.lookup m.task).any (· ≠ m.source) then
          reasonAdd t.reasons .inconsistent else t.reasons
      transitions := t.transitions+1 }

def isTransition {E : EventTables} (e : FleetEvent E) : Bool :=
  e.fields.kind.isStr "lifecycle.transition"

def isCheckpoint {E : EventTables} (e : FleetEvent E) : Bool :=
  e.fields.kind.isStr "checkpoint.committed"

def foreign (log : EventLog) (e : FleetEvent E) : Bool :=
  !sameNumber E e.fields.ownerEpoch log.ownerEpoch && !(log.ownerEpoch matches .null)

def Tally.event (log : EventLog) (t : Tally) (e : FleetEvent E) : Except ReportFault Tally :=
  if foreign E log e then .error (.event (.event "evento stale ou fora da ownership"))
  else if isTransition e then .ok (t.transition e)
  else if isCheckpoint e then .ok { t with checkpoints := t.checkpoints+1 }
  else .ok t

def Tally.events (log : EventLog) : Tally → List (FleetEvent E) → Except ReportFault Tally
  | t, [] => .ok t
  | t, e :: es => do
    let t ← t.event E log e
    Tally.events log t es

/-! ## The pass over the sequences -/

def isInt : Json → Bool
  | .int _ => true
  | _ => false

def toInt : Json → ℤ
  | .int n => n
  | _ => 0

def isNumeric : Json → Bool
  | .int n => 0 ≤ n
  | .float r => 0 ≤ E.float r
  | _ => false

/-- The reasons so far and whether the replay has an anomaly, after two neighbours. -/
def orderStep (acc : List Anomaly × Bool) (pair : Json × Json) : List Anomaly × Bool :=
  if number E pair.2 = number E pair.1 then (reasonAdd acc.1 .duplicate,true)
  else if number E pair.2 < number E pair.1 then (reasonAdd acc.1 .nonMonotonic,true)
  else acc

/-- The numbers of a range, as long as fewer than the bound are collected. -/
def addMissing : ℕ → ℤ → List ℤ → List ℤ
  | 0, _, missing => missing
  | n+1, value, missing =>
    if missing.length < MAX_GAPS then addMissing n (value+1) (missing++[value]) else missing

def findGaps : List ℤ → List ℤ → List ℤ
  | lower :: upper :: rest, missing =>
    let missing := if lower+1 < upper then addMissing (upper-lower-1).toNat (lower+1) missing
      else missing
    if MAX_GAPS ≤ missing.length then missing else findGaps (upper :: rest) missing
  | _, missing => missing

/-- What the sequences add to the reasons, and the gaps. -/
def sequenceFindings (reasons : List Anomaly) (sequences : List Json) : List Anomaly × List ℤ :=
  let order := if 1 < sequences.length && sequences.all (isNumeric E) then
      (sequences.zip sequences.tail).foldl (orderStep E) (reasons,false) else (reasons,false)
  if !sequences.all isInt then (reasonAdd order.1 .nonInteger,[])
  else if order.2 then (order.1,[])
  else
    let gaps := findGaps (sequences.map toInt) []
    (if gaps = [] then order.1 else reasonAdd order.1 .gap,gaps)

/-- `min(sequences)`. -/
def minSequence (first : Json) (rest : List Json) : Json :=
  rest.foldl (fun best v => if number E v < number E best then v else best) first

/-- `max(sequences)`. -/
def maxSequence (first : Json) (rest : List Json) : Json :=
  rest.foldl (fun best v => if number E best < number E v then v else best) first

/-! ## The diagnosis -/

/-- The check of `active_owner_epoch`. -/
def checkActive (log : EventLog) : Json → Except ReportFault Unit
  | .null => .ok ()
  | v =>
    match checkNumber E "active_owner_epoch" v with
    | .error .overflow => .error .overflow
    | .error _ => .error (.event (.event "active_owner_epoch inválido"))
    | .ok () =>
      if sameNumber E v log.ownerEpoch then .ok ()
      else .error (.event (.event "owner_epoch stale ou fora da ownership"))

/-- `diagnose_event_log`. -/
def diagnoseEventLog (log : EventLog) (active : Json) (limit : ℤ) (f : LogFile) :
    Except ReportFault (EventDiagnosticsReport E) := do
  checkActive E log active
  let events ← (replay E iso limit f).mapError .event
  match events.map (·.fields.sequence) with
  | [] => emptyReport E
  | first :: rest =>
    let t ← Tally.events E log .start events
    let findings := sequenceFindings E t.reasons (first :: rest)
    EventDiagnosticsReport.make E
      { status := if findings.1 = [] then .healthy else .degraded
        eventCount := events.length
        transitionCount := t.transitions
        checkpointCount := t.checkpoints
        firstSequence := minSequence E first rest
        lastSequence := maxSequence E first rest
        sequenceGaps := findings.2
        taskStates := t.states
        reasons := findings.1 }

end

variable {E : EventTables} {iso : String} {log : EventLog} {f : LogFile} {t : Tally}
  {events past : List (FleetEvent E)} {e : FleetEvent E} {reasons : List Anomaly}

/-! ## What the tally says of the events -/

/-- The well-formed transitions, in their order. -/
def moves (events : List (FleetEvent E)) : List Move :=
  (events.filter isTransition).filterMap moveOf

/-- The state that the last well-formed transition of the task leads to. -/
def lastTarget (events : List (FleetEvent E)) (task : String) : Option LifecycleState :=
  ((moves events).filter (fun m => m.task = task)).getLast?.map Move.target

/-- Every transition is well formed and begins where the task was left, if it was. -/
def Coherent (events : List (FleetEvent E)) : Prop :=
  ∀ past e rest, events = past++e :: rest → isTransition e = true →
    ∃ m, moveOf e = some m ∧ ∀ st, lastTarget past m.task = some st → m.source = st

theorem coherent_snoc : Coherent (past++[e]) ↔ Coherent past ∧
    (isTransition e = true →
      ∃ m, moveOf e = some m ∧ ∀ st, lastTarget past m.task = some st → m.source = st) := by
  constructor
  · intro h
    constructor
    · intro pre x rest hsplit
      apply h pre x (rest++[e])
      rw [hsplit, List.append_assoc, List.cons_append]
    · exact h past e [] rfl
  · rintro ⟨hpast,he⟩ pre x rest hsplit
    rcases List.eq_nil_or_concat rest with rfl | ⟨init,y,rfl⟩
    · obtain ⟨rfl,hx⟩ := List.append_inj' hsplit rfl
      cases hx
      exact he
    · have hsplit' : past++[e] = (pre++x :: init)++[y] := by
        rw [hsplit]
        simp
      obtain ⟨rfl,-⟩ := List.append_inj' hsplit' rfl
      exact hpast pre x init rfl

theorem lastTarget_snoc_move {m : Move} (he : isTransition e = true) (hm : moveOf e = some m)
    (task : String) :
    lastTarget (past++[e]) task = if m.task = task then some m.target else lastTarget past task := by
  have hmoves : moves (past++[e]) = moves past++[m] := by
    simp [moves, he, hm]
  rw [lastTarget, hmoves, List.filter_append, lastTarget]
  split_ifs with h <;> simp [h]

theorem lastTarget_snoc_none (he : isTransition e = true → moveOf e = none) (task : String) :
    lastTarget (past++[e]) task = lastTarget past task := by
  have hmoves : moves (past++[e]) = moves past := by
    cases h : isTransition e with
    | true => simp [moves, h, he h]
    | false => simp [moves, h]
  rw [lastTarget, hmoves, lastTarget]

theorem mem_reasonAdd {r x : Anomaly} : x ∈ reasonAdd reasons r ↔ x ∈ reasons ∨ x = r := by
  rw [reasonAdd]
  split_ifs with h
  · constructor
    · exact Or.inl
    · rintro (hx | rfl)
      · exact hx
      · exact h
  · simp

theorem reasonAdd_ne_nil {r : Anomaly} : reasonAdd reasons r ≠ [] := by
  intro h
  have hr : r ∈ reasonAdd reasons r := mem_reasonAdd.mpr (Or.inr rfl)
  rw [h] at hr
  cases hr

theorem nodup_reasonAdd {r : Anomaly} (h : reasons.Nodup) : (reasonAdd reasons r).Nodup := by
  rw [reasonAdd]
  split_ifs with hr
  · exact h
  · exact List.nodup_append.mpr ⟨h,by simp,fun a ha b hb => by
      rw [List.mem_singleton] at hb
      rintro rfl
      exact hr (hb ▸ ha)⟩

/-- What the pass has found out after the events `past`. -/
structure Tally.After (past : List (FleetEvent E)) (t : Tally) : Prop where
  states : ∀ task, t.states.lookup task = lastTarget past task
  safe : ∀ task ∈ t.states.keys, isEventId task = true
  coherent : t.reasons = [] ↔ Coherent past
  nodup : t.reasons.Nodup
  transitions : t.transitions ≤ past.length
  checkpoints : t.checkpoints ≤ past.length

theorem Tally.after_start : Tally.After ([] : List (FleetEvent E)) .start where
  states := fun _ => rfl
  safe := fun task h => by cases h
  coherent := by
    refine iff_of_true rfl ?_
    intro past e rest h
    cases past <;> cases h
  nodup := List.nodup_nil
  transitions := Nat.le_refl 0
  checkpoints := Nat.le_refl 0

/-- The task of a transition is an identifier that the event was checked for. -/
theorem moveOf_task {m : Move} (h : moveOf e = some m) : isEventId m.task = true := by
  simp only [moveOf, Option.bind_eq_bind, Option.bind_eq_some_iff] at h
  obtain ⟨task,htask,_,-,_,-,_,-,h⟩ := h
  split_ifs at h
  cases h
  have htext : e.fields.taskId = .str task := by
    cases hv : e.fields.taskId <;> simp [hv, Json.text?] at htask
    rw [htask]
  obtain ⟨_,-,h⟩ := ok_of_bind e.valid
  obtain ⟨_,-,h⟩ := ok_of_bind h
  obtain ⟨_,-,h⟩ := ok_of_bind h
  obtain ⟨_,-,h⟩ := ok_of_bind h
  obtain ⟨_,-,h⟩ := ok_of_bind h
  obtain ⟨_,ht,-⟩ := ok_of_bind h
  rw [htext] at ht
  obtain ⟨_,-,ht⟩ := ok_of_bind ht
  obtain ⟨_,hid,-⟩ := ok_of_bind ht
  rw [deny_ok, Bool.and_eq_false_iff] at hid
  rcases hid with hid | hid
  · cases hid
  · simp only [Bool.or_eq_false_iff, Bool.not_eq_false'] at hid
    exact hid.1.1

theorem Tally.After.transition (h : t.After past) (he : isTransition e = true) :
    (t.transition e).After (past++[e]) := by
  have hlen : (past++[e]).length = past.length+1 := by simp
  have htransitions := h.transitions
  have hcheckpoints := h.checkpoints
  cases hm : moveOf e with
  | none =>
    rw [Tally.transition, hm]
    refine ⟨?_,h.safe,?_,nodup_reasonAdd h.nodup,?_,?_⟩
    · intro task
      rw [lastTarget_snoc_none (fun _ => hm)]
      exact h.states task
    · refine iff_of_false reasonAdd_ne_nil ?_
      intro hc
      obtain ⟨m,hsome,-⟩ := (coherent_snoc.mp hc).2 he
      rw [hm] at hsome
      cases hsome
    · dsimp only
      omega
    · dsimp only
      omega
  | some m =>
    rw [Tally.transition, hm]
    refine ⟨?_,?_,?_,?_,?_,?_⟩
    · intro task
      rw [lastTarget_snoc_move he hm, Dict.lookup_insert_eq, h.states task]
      by_cases hk : m.task = task
      · rw [if_pos hk, if_pos hk.symm]
      · rw [if_neg hk, if_neg (Ne.symm hk)]
    · intro task htask
      dsimp only at htask
      rw [AList.keys_insert, List.mem_cons] at htask
      rcases htask with rfl | htask
      · exact moveOf_task hm
      · exact h.safe task (List.mem_of_mem_erase htask)
    · have hleft : (t.states.lookup m.task).any (· ≠ m.source) = true ↔
          ¬∀ st, lastTarget past m.task = some st → m.source = st := by
        rw [← h.states m.task]
        cases t.states.lookup m.task with
        | none => simp
        | some st =>
          have hsymm : ¬st = m.source ↔ ¬m.source = st := not_congr eq_comm
          simpa using hsymm
      have hnext : Coherent (past++[e]) ↔ Coherent past ∧
          ∀ st, lastTarget past m.task = some st → m.source = st := by
        rw [coherent_snoc]
        refine and_congr_right (fun _ => ?_)
        simp [he, hm]
      dsimp only
      rw [hnext, ← h.coherent]
      split_ifs with hany
      · exact iff_of_false reasonAdd_ne_nil (fun hc => hleft.mp hany hc.2)
      · have hfine := not_not.mp (fun hn => hany (hleft.mpr hn))
        exact (and_iff_left hfine).symm
    · dsimp only
      split_ifs
      · exact nodup_reasonAdd h.nodup
      · exact h.nodup
    · dsimp only
      omega
    · dsimp only
      omega

/-- An event of the log's owner. -/
theorem Tally.After.event (h : t.After past) (he : foreign E log e = false) :
    ∃ t', t.event E log e = .ok t' ∧ t'.After (past++[e]) := by
  have hlen : (past++[e]).length = past.length+1 := by simp
  have htransitions := h.transitions
  have hcheckpoints := h.checkpoints
  rw [Tally.event, he, if_neg (by decide)]
  by_cases ht : isTransition e = true
  · rw [if_pos ht]
    exact ⟨_,rfl,h.transition ht⟩
  · have hstates : ∀ task, lastTarget (past++[e]) task = lastTarget past task :=
      lastTarget_snoc_none (fun h => absurd h ht)
    have hcoherent : Coherent (past++[e]) ↔ Coherent past := by
      rw [coherent_snoc]
      exact and_iff_left (fun h => absurd h ht)
    rw [if_neg ht]
    by_cases hc : isCheckpoint e = true
    · rw [if_pos hc]
      refine ⟨_,rfl,?_,h.safe,?_,h.nodup,?_,?_⟩
      · exact fun task => (h.states task).trans (hstates task).symm
      · rw [hcoherent]
        exact h.coherent
      · dsimp only
        omega
      · dsimp only
        omega
    · rw [if_neg hc]
      refine ⟨_,rfl,?_,h.safe,?_,h.nodup,by omega,by omega⟩
      · exact fun task => (h.states task).trans (hstates task).symm
      · rw [hcoherent]
        exact h.coherent

theorem Tally.After.all (h : t.After past)
    (hall : ∀ e ∈ events, foreign E log e = false) :
    ∃ t', t.events E log events = .ok t' ∧ t'.After (past++events) := by
  induction events generalizing t past with
  | nil =>
    rw [List.append_nil]
    exact ⟨t,rfl,h⟩
  | cons e events ih =>
    obtain ⟨t1,h1,hafter⟩ := h.event (hall e (by simp))
    obtain ⟨t2,h2,hafter⟩ := ih hafter (fun x hx => hall x (by simp [hx]))
    refine ⟨t2,?_,?_⟩
    · rw [Tally.events, h1]
      exact h2
    · rw [List.append_assoc, List.singleton_append] at hafter
      exact hafter

/-- A foreign event ends the pass. -/
theorem Tally.events_foreign (hsome : ∃ e ∈ events, foreign E log e = true) :
    t.events E log events = .error (.event (.event "evento stale ou fora da ownership")) := by
  induction events generalizing t with
  | nil =>
    obtain ⟨e,he,-⟩ := hsome
    cases he
  | cons e events ih =>
    rw [Tally.events, Tally.event]
    by_cases he : foreign E log e = true
    · rw [if_pos he]
      rfl
    · have hrest : ∃ x ∈ events, foreign E log x = true := by
        obtain ⟨x,hx,hf⟩ := hsome
        rcases List.mem_cons.mp hx with rfl | hx
        · exact absurd hf he
        · exact ⟨x,hx,hf⟩
      rw [if_neg he]
      split_ifs
      · exact ih hrest
      · exact ih hrest
      · exact ih hrest

/-! ## What the sequences say -/

/-- The integers from the first on, without a gap. -/
def Consecutive (sequences : List Json) : Prop :=
  ∃ first : ℤ, sequences = (List.range sequences.length).map (fun i : ℕ => .int (first+i))

theorem consecutive_int {a : ℤ} {rest : List Json} : Consecutive (.int a :: rest) ↔
    rest = (List.range rest.length).map (fun i : ℕ => .int (a+1+i)) := by
  have hcount : ∀ first : ℤ, (List.range (rest.length+1)).map (fun i : ℕ => Json.int (first+i)) =
      .int first :: (List.range rest.length).map (fun i : ℕ => .int (first+1+i)) := by
    intro first
    rw [List.range_succ_eq_map, List.map_cons, List.map_map]
    congr 1
    · simp
    · apply List.map_congr_left
      intro i _
      simp only [Function.comp_apply, Nat.cast_succ, Json.int.injEq]
      ring
  constructor
  · rintro ⟨first,h⟩
    rw [List.length_cons, hcount] at h
    obtain ⟨hfirst,hrest⟩ := List.cons.inj h
    cases hfirst
    exact hrest
  · intro h
    refine ⟨a,?_⟩
    rw [List.length_cons, hcount, ← h]

theorem consecutive_cons {a b : ℤ} {rest : List Json} :
    Consecutive (.int a :: .int b :: rest) ↔ b = a+1 ∧ Consecutive (.int b :: rest) := by
  have htail : Consecutive (.int (a+1) :: rest) ↔
      .int (a+1) :: rest = (List.range (rest.length+1)).map (fun i : ℕ => .int (a+1+i)) := by
    rw [consecutive_int, List.range_succ_eq_map, List.map_cons, List.map_map]
    have hshift : ((fun i : ℕ => Json.int (a+1+i)) ∘ Nat.succ) =
        fun i : ℕ => .int (a+1+1+i) := by
      funext i
      simp only [Function.comp_apply, Nat.cast_succ, Json.int.injEq]
      ring
    rw [hshift]
    simp
  rw [consecutive_int, List.length_cons]
  constructor
  · intro h
    have hb : b = a+1 := by
      have hhead := congrArg List.head? h
      rw [List.range_succ_eq_map] at hhead
      simpa using hhead
    subst hb
    exact ⟨rfl,htail.mpr h⟩
  · rintro ⟨rfl,h⟩
    exact htail.mp h

/-- Integers each of which is greater than the one before. -/
def Rising (ints : List ℤ) : Prop := ints.IsChain (· < ·)

theorem addMissing_length {n : ℕ} {value : ℤ} {missing : List ℤ}
    (h : missing.length ≤ MAX_GAPS) : (addMissing n value missing).length ≤ MAX_GAPS := by
  induction n generalizing value missing with
  | zero => exact h
  | succ n ih =>
    rw [addMissing]
    split_ifs with hlt
    · apply ih
      rw [List.length_append, List.length_singleton]
      omega
    · exact h

theorem addMissing_nonneg {n : ℕ} {value : ℤ} {missing : List ℤ} (hv : 0 ≤ value)
    (h : ∀ x ∈ missing, 0 ≤ x) : ∀ x ∈ addMissing n value missing, 0 ≤ x := by
  induction n generalizing value missing with
  | zero => exact h
  | succ n ih =>
    rw [addMissing]
    split_ifs
    · apply ih (by omega)
      intro x hx
      rcases List.mem_append.mp hx with hx | hx
      · exact h x hx
      · rw [List.mem_singleton] at hx
        omega
    · exact h

theorem addMissing_grows {n : ℕ} {value : ℤ} {missing : List ℤ} :
    missing.length ≤ (addMissing n value missing).length := by
  induction n generalizing value missing with
  | zero => exact le_refl _
  | succ n ih =>
    rw [addMissing]
    split_ifs
    · refine le_trans ?_ ih
      rw [List.length_append]
      omega
    · exact le_refl _

theorem findGaps_bounded {ints missing : List ℤ} (hints : ∀ x ∈ ints, 0 ≤ x)
    (hlen : missing.length ≤ MAX_GAPS) (h : ∀ x ∈ missing, 0 ≤ x) :
    (findGaps ints missing).length ≤ MAX_GAPS ∧ ∀ x ∈ findGaps ints missing, 0 ≤ x := by
  induction ints generalizing missing with
  | nil => exact ⟨hlen,h⟩
  | cons lower ints ih =>
    cases ints with
    | nil => exact ⟨hlen,h⟩
    | cons upper rest =>
      have hlower : 0 ≤ lower := hints lower (by simp)
      have hrest : ∀ x ∈ upper :: rest, 0 ≤ x := fun x hx => hints x (by simp [hx])
      have hadd := @addMissing_length (upper-lower-1).toNat (lower+1) missing hlen
      have hpos := @addMissing_nonneg (upper-lower-1).toNat (lower+1) missing (by omega) h
      rw [findGaps]
      split_ifs
      · exact ⟨hadd,hpos⟩
      · exact ih hrest hadd hpos
      · exact ⟨hlen,h⟩
      · exact ih hrest hlen h

theorem findGaps_grows {ints missing : List ℤ} :
    missing.length ≤ (findGaps ints missing).length := by
  induction ints generalizing missing with
  | nil => exact le_refl _
  | cons lower ints ih =>
    cases ints with
    | nil => exact le_refl _
    | cons upper rest =>
      have hadd := @addMissing_grows (upper-lower-1).toNat (lower+1) missing
      rw [findGaps]
      split_ifs
      · exact hadd
      · exact le_trans hadd ih
      · exact le_refl _
      · exact ih

/-- No gap is found between rising integers exactly if each is the next one. -/
theorem findGaps_nil {ints : List ℤ} (hrising : Rising ints) :
    findGaps ints [] = [] ↔ Consecutive (ints.map .int) := by
  induction ints with
  | nil => exact iff_of_true rfl ⟨0,rfl⟩
  | cons lower ints ih =>
    cases ints with
    | nil =>
      refine iff_of_true rfl ?_
      rw [List.map_cons, consecutive_int]
      rfl
    | cons upper rest =>
      obtain ⟨hlt,hrest⟩ := List.isChain_cons_cons.mp hrising
      rw [List.map_cons, List.map_cons, consecutive_cons, findGaps]
      by_cases hgap : lower+1 < upper
      · obtain ⟨n,hn⟩ : ∃ n, (upper-lower-1).toNat = n+1 := ⟨(upper-lower-1).toNat-1,by omega⟩
        have hsome : 1 ≤ (addMissing (upper-lower-1).toNat (lower+1) []).length := by
          rw [hn, addMissing, if_pos (by decide)]
          exact @addMissing_grows n (lower+1+1) [lower+1]
        refine iff_of_false ?_ (fun h => by omega)
        rw [if_pos hgap]
        split_ifs
        · exact List.ne_nil_of_length_pos hsome
        · exact List.ne_nil_of_length_pos (lt_of_lt_of_le hsome findGaps_grows)
      · have hnext : upper = lower+1 := by omega
        rw [if_neg hgap, if_neg (by decide), ih hrest, List.map_cons]
        exact (and_iff_right hnext).symm

theorem rising_of_consecutive {ints : List ℤ} (h : Consecutive (ints.map .int)) :
    Rising ints := by
  induction ints with
  | nil => exact .nil
  | cons a ints ih =>
    cases ints with
    | nil => exact .singleton a
    | cons b rest =>
      obtain ⟨hb,hrest⟩ := consecutive_cons.mp h
      exact List.isChain_cons_cons.mpr ⟨by omega,ih hrest⟩

/-- Neighbours that do not rise are noted. -/
theorem orderSteps_of_not {pairs : List (Json × Json)} {acc : List Anomaly × Bool}
    (hacc : acc.2 = true → acc.1 ≠ [])
    (h : acc.2 = true ∨ ∃ p ∈ pairs, ¬number E p.1 < number E p.2) :
    (pairs.foldl (orderStep E) acc).2 = true ∧ (pairs.foldl (orderStep E) acc).1 ≠ [] := by
  induction pairs generalizing acc with
  | nil =>
    have hbad : acc.2 = true := by
      rcases h with h | ⟨p,hp,-⟩
      · exact h
      · cases hp
    exact ⟨hbad,hacc hbad⟩
  | cons p pairs ih =>
    rw [List.foldl_cons]
    apply ih
    · rw [orderStep]
      split_ifs
      · exact fun _ => reasonAdd_ne_nil
      · exact fun _ => reasonAdd_ne_nil
      · exact hacc
    · rw [orderStep]
      split_ifs with heq hlt
      · exact Or.inl rfl
      · exact Or.inl rfl
      · rcases h with h | ⟨q,hq,hno⟩
        · exact Or.inl h
        · rcases List.mem_cons.mp hq with rfl | hq
          · exact absurd (lt_of_le_of_ne (not_lt.mp hlt) (Ne.symm heq)) hno
          · exact Or.inr ⟨q,hq,hno⟩

theorem orderSteps_of_rising {pairs : List (Json × Json)} {acc : List Anomaly × Bool}
    (h : ∀ p ∈ pairs, number E p.1 < number E p.2) : pairs.foldl (orderStep E) acc = acc := by
  induction pairs with
  | nil => rfl
  | cons p pairs ih =>
    have hp := h p (by simp)
    rw [List.foldl_cons, orderStep, if_neg hp.ne', if_neg hp.not_gt]
    exact ih (fun q hq => h q (by simp [hq]))

theorem orderSteps_nodup {pairs : List (Json × Json)} {acc : List Anomaly × Bool}
    (h : acc.1.Nodup) : (pairs.foldl (orderStep E) acc).1.Nodup := by
  induction pairs generalizing acc with
  | nil => exact h
  | cons p pairs ih =>
    rw [List.foldl_cons]
    apply ih
    rw [orderStep]
    split_ifs
    · exact nodup_reasonAdd h
    · exact nodup_reasonAdd h
    · exact h

theorem rising_iff_pairs {ints : List ℤ} : Rising ints ↔
    ∀ p ∈ (ints.map Json.int).zip (ints.map Json.int).tail, number E p.1 < number E p.2 := by
  induction ints with
  | nil => exact iff_of_true .nil (fun p hp => by cases hp)
  | cons a ints ih =>
    cases ints with
    | nil => exact iff_of_true (.singleton a) (fun p hp => by cases hp)
    | cons b rest =>
      rw [Rising, List.isChain_cons_cons]
      simp only [List.map_cons, List.tail_cons, List.zip_cons_cons, List.forall_mem_cons] at ih ⊢
      have hnum : number E (.int a) < number E (.int b) ↔ a < b := by
        simp [number]
      rw [hnum]
      exact and_congr_right (fun _ => ih)

variable {sequences : List Json}

/-- The pass over neighbours, of sequences that are numbers. -/
theorem order_eq (hnum : ∀ v ∈ sequences, isNumeric E v = true) :
    (if 1 < sequences.length && sequences.all (isNumeric E) then
      (sequences.zip sequences.tail).foldl (orderStep E) (reasons,false) else (reasons,false)) =
      (sequences.zip sequences.tail).foldl (orderStep E) (reasons,false) := by
  have hall : sequences.all (isNumeric E) = true := List.all_eq_true.mpr hnum
  rw [hall, Bool.and_true]
  split_ifs with hlen
  · rfl
  · match sequences with
    | [] => rfl
    | [v] => rfl
    | v :: w :: rest => simp at hlen

theorem map_toInt (h : sequences.all isInt = true) : (sequences.map toInt).map .int = sequences := by
  rw [List.map_map]
  rw [List.all_eq_true] at h
  have hid : ∀ v ∈ sequences, (Json.int ∘ toInt) v = v := by
    intro v hv
    have hi := h v hv
    cases v <;> first | rfl | cases hi
  rw [List.map_congr_left hid]
  exact List.map_id _

/-- Nothing is found exactly if there was no reason before and the sequences are
consecutive integers. -/
theorem findings_nil (hnum : ∀ v ∈ sequences, isNumeric E v = true) :
    (sequenceFindings E reasons sequences).1 = [] ↔ reasons = [] ∧ Consecutive sequences := by
  rw [sequenceFindings, order_eq hnum]
  by_cases hint : sequences.all isInt = true
  · have hback := map_toInt hint
    generalize hints : sequences.map toInt = ints at hback ⊢
    subst hback
    rw [hint, Bool.not_true, if_neg (by decide)]
    by_cases hrising : Rising ints
    · rw [orderSteps_of_rising (rising_iff_pairs.mp hrising), if_neg Bool.false_ne_true]
      have hgaps := findGaps_nil hrising
      dsimp only
      split_ifs with hnil
      · exact (and_iff_left (hgaps.mp hnil)).symm
      · exact iff_of_false reasonAdd_ne_nil (fun h => hnil (hgaps.mpr h.2))
    · have hpair : ∃ p ∈ (ints.map Json.int).zip (ints.map Json.int).tail,
          ¬number E p.1 < number E p.2 := by
        by_contra hno
        push Not at hno
        exact hrising (rising_iff_pairs.mpr hno)
      obtain ⟨hbad,hsome⟩ := @orderSteps_of_not E _ (reasons,false)
        (fun h => by cases h) (Or.inr hpair)
      rw [if_pos hbad]
      exact iff_of_false hsome (fun h => hrising (rising_of_consecutive h.2))
  · rw [Bool.not_eq_true] at hint
    rw [hint, Bool.not_false, if_pos rfl]
    refine iff_of_false reasonAdd_ne_nil ?_
    rintro ⟨-,first,hseq⟩
    have htrue : sequences.all isInt = true := by
      rw [hseq, List.all_map]
      exact List.all_eq_true.mpr (fun _ _ => rfl)
    rw [hint] at htrue
    cases htrue

theorem findings_bounded (hnum : ∀ v ∈ sequences, isNumeric E v = true) (hn : reasons.Nodup) :
    (sequenceFindings E reasons sequences).1.Nodup ∧
      (sequenceFindings E reasons sequences).2.length ≤ MAX_GAPS ∧
      ∀ x ∈ (sequenceFindings E reasons sequences).2, 0 ≤ x := by
  have horder := @orderSteps_nodup E (sequences.zip sequences.tail) (reasons,false) hn
  rw [sequenceFindings, order_eq hnum]
  split_ifs with hint hbad
  · exact ⟨nodup_reasonAdd horder,Nat.zero_le _,by simp⟩
  · exact ⟨horder,Nat.zero_le _,by simp⟩
  · have hpos : ∀ x ∈ sequences.map toInt, 0 ≤ x := by
      intro x hx
      obtain ⟨v,hv,rfl⟩ := List.mem_map.mp hx
      have hi := hnum v hv
      cases v with
      | int n => simpa [isNumeric, toInt] using hi
      | _ => exact le_refl 0
    have hgaps := @findGaps_bounded _ [] hpos (Nat.zero_le _) (fun x hx => by cases hx)
    refine ⟨?_,hgaps⟩
    dsimp only
    split_ifs
    · exact horder
    · exact nodup_reasonAdd horder

/-! ## The diagnosis -/

theorem isNumeric_of_checked {v : Json} {name : String} (h : checkNumber E name v = .ok ()) :
    isNumeric E v = true := by
  cases v with
  | int n =>
    rw [checkNumber] at h
    split_ifs at h
    simpa [isNumeric] using h
  | float r =>
    rw [checkNumber] at h
    simpa [isNumeric] using h
  | _ => cases h

/-- `min` and `max` hand out one of the sequences. -/
theorem foldl_mem {better : Json → Json → Prop} [DecidableRel better] {first : Json}
    {rest : List Json} :
    rest.foldl (fun best v => if better v best then v else best) first ∈ first :: rest := by
  induction rest generalizing first with
  | nil => simp
  | cons v rest ih =>
    rw [List.foldl_cons]
    have h := @ih (if better v first then v else first)
    split_ifs at h with hb
    · rw [if_pos hb]
      exact List.mem_cons_of_mem _ h
    · rw [if_neg hb]
      rcases List.mem_cons.mp h with h | h
      · rw [h]
        simp
      · exact List.mem_cons_of_mem _ (List.mem_cons_of_mem _ h)

theorem diagnostics_made {f : DiagnosticsFields} (h : checkDiagnostics E f = .ok ()) :
    EventDiagnosticsReport.make E f = .ok ⟨f,h⟩ := by
  unfold EventDiagnosticsReport.make
  split
  · rfl
  · rename_i e he
    rw [h] at he
    cases he

theorem anomalies_few {reasons : List Anomaly} (h : reasons.Nodup) :
    reasons.length ≤ MAX_REASONS := by
  have hsub : reasons ⊆ [.malformed, .inconsistent, .gap, .nonInteger, .duplicate,
      .nonMonotonic] := by
    intro r _
    cases r <;> decide
  exact le_trans (List.subperm_of_subset h hsub).length_le (by decide)

/-- The tasks with a well-formed transition. -/
def movedTasks (events : List (FleetEvent E)) : Finset String :=
  ((moves events).map Move.task).toFinset

theorem mem_movedTasks {task : String} :
    task ∈ movedTasks events ↔ (lastTarget events task).isSome = true := by
  rw [movedTasks, List.mem_toFinset, List.mem_map, lastTarget, Option.isSome_map,
    List.getLast?_isSome]
  constructor
  · rintro ⟨m,hm,rfl⟩ hnil
    have hmem : m ∈ (moves events).filter (fun x => x.task = m.task) := by
      rw [List.mem_filter]
      exact ⟨hm,by simp⟩
    rw [hnil] at hmem
    cases hmem
  · intro hne
    obtain ⟨m,hm⟩ := List.exists_mem_of_ne_nil _ hne
    rw [List.mem_filter, decide_eq_true_eq] at hm
    exact ⟨m,hm⟩

theorem Tally.After.size (h : t.After past) : t.states.size = (movedTasks past).card := by
  have hkeys : t.states.keys.toFinset = movedTasks past := by
    ext task
    rw [List.mem_toFinset, mem_movedTasks, ← h.states task, AList.lookup_isSome]
    exact Iff.rfl
  rw [← hkeys, List.toFinset_card_of_nodup t.states.keys_nodup, Dict.size, AList.keys, List.keys,
    List.length_map]

/-- Up to the tasks, the report passes its checks. -/
theorem checkDiagnostics_eq {t : Tally} {first : Json} {rest : List Json} {status : HealthStatus}
    (h : t.After events) (hseq : events.map (·.fields.sequence) = first :: rest)
    (hcount : events.length ≤ MAX_QUERY) :
    checkDiagnostics E
      { status := status
        eventCount := events.length
        transitionCount := t.transitions
        checkpointCount := t.checkpoints
        firstSequence := minSequence E first rest
        lastSequence := maxSequence E first rest
        sequenceGaps := (sequenceFindings E t.reasons (first :: rest)).2
        taskStates := t.states
        reasons := (sequenceFindings E t.reasons (first :: rest)).1 } =
      refuse (MAX_TASK_STATES < (movedTasks events).card) "invalid diagnostics task states" := by
  have hchecked : ∀ v ∈ first :: rest, checkNumber E "sequence" v = .ok () := by
    rw [← hseq]
    intro v hv
    obtain ⟨e,-,rfl⟩ := List.mem_map.mp hv
    exact sequence_checked e
  obtain ⟨hnodup,hgaps,hpos⟩ := findings_bounded
    (fun v hv => isNumeric_of_checked (hchecked v hv)) h.nodup
  have hmin : checkReported E "invalid diagnostics sequence" (minSequence E first rest) = .ok () :=
    checkReported_of_checkNumber (hchecked _ (@foldl_mem (fun v best => number E v < number E best)
      _ first rest))
  have hmax : checkReported E "invalid diagnostics sequence" (maxSequence E first rest) = .ok () :=
    checkReported_of_checkNumber (hchecked _ (@foldl_mem (fun v best => number E best < number E v)
      _ first rest))
  have h1 : refuse (MAX_QUERY < events.length || events.length < t.transitions ||
      events.length < t.checkpoints) "diagnostics counts out of bounds" = .ok () := by
    simp only [refuse_ok, Bool.or_eq_false_iff, decide_eq_false_iff_not, not_lt]
    exact ⟨⟨hcount,h.transitions⟩,h.checkpoints⟩
  have h2 : refuse (MAX_GAPS < (sequenceFindings E t.reasons (first :: rest)).2.length ||
      (sequenceFindings E t.reasons (first :: rest)).2.any (· < 0))
      "invalid diagnostics sequence gaps" = .ok () := by
    simp only [refuse_ok, Bool.or_eq_false_iff, decide_eq_false_iff_not, not_lt,
      List.any_eq_false, decide_eq_true_eq]
    exact ⟨hgaps,hpos⟩
  have h3 : refuse (MAX_REASONS < (sequenceFindings E t.reasons (first :: rest)).1.length)
      "invalid diagnostics reasons" = .ok () := by
    rw [refuse_ok, decide_eq_false_iff_not, not_lt]
    exact anomalies_few hnodup
  have hsafe : t.states.keys.any (!isEventId ·) = false := by
    rw [List.any_eq_false]
    intro task htask
    rw [h.safe task htask]
    decide
  rw [checkDiagnostics, h1, hmin, hmax, h2, h3, h.size, hsafe, Bool.or_false]
  cases refuse (MAX_TASK_STATES < (movedTasks events).card) "invalid diagnostics task states" <;> rfl

theorem replay_length {limit : ℤ} (h : replay E iso limit f = .ok events) :
    events.length ≤ MAX_QUERY := by
  obtain ⟨_,hlimit,h⟩ := ok_of_bind h
  obtain ⟨rs,-,h⟩ := ok_of_bind h
  cases h
  rw [checkLimit, deny_ok, Bool.or_eq_false_iff, decide_eq_false_iff_not,
    decide_eq_false_iff_not] at hlimit
  rw [List.length_map, List.length_take]
  omega

/-- The report of replayed events that are all the log's own. -/
theorem diagnose_own {active : Json} {limit : ℤ} {first : Json} {rest : List Json}
    (hreplay : replay E iso limit f = .ok events) (hactive : checkActive E log active = .ok ())
    (hown : ∀ e ∈ events, foreign E log e = false)
    (hseq : events.map (·.fields.sequence) = first :: rest) :
    ∃ t : Tally, t.After events ∧ diagnoseEventLog E iso log active limit f =
      EventDiagnosticsReport.make E
        { status := if (sequenceFindings E t.reasons (first :: rest)).1 = [] then .healthy
            else .degraded
          eventCount := events.length
          transitionCount := t.transitions
          checkpointCount := t.checkpoints
          firstSequence := minSequence E first rest
          lastSequence := maxSequence E first rest
          sequenceGaps := (sequenceFindings E t.reasons (first :: rest)).2
          taskStates := t.states
          reasons := (sequenceFindings E t.reasons (first :: rest)).1 } := by
  obtain ⟨t,ht,hafter⟩ := (@Tally.after_start E).all hown
  refine ⟨t,hafter,?_⟩
  rw [diagnoseEventLog, hactive, hreplay]
  show (match events.map (·.fields.sequence) with
    | [] => emptyReport E
    | first :: rest => (Tally.events E log .start events >>= _)) = _
  rw [hseq]
  dsimp only
  rw [ht]
  rfl

/-- More tasks than the report has room for: the diagnosis raises. -/
theorem diagnose_overfull {active : Json} {limit : ℤ} (hreplay : replay E iso limit f = .ok events)
    (hactive : checkActive E log active = .ok ()) (hown : ∀ e ∈ events, foreign E log e = false)
    (hfull : MAX_TASK_STATES < (movedTasks events).card) :
    diagnoseEventLog E iso log active limit f =
      .error (.valueError "invalid diagnostics task states") := by
  cases hseq : events.map (·.fields.sequence) with
  | nil =>
    rw [List.map_eq_nil_iff] at hseq
    rw [hseq] at hfull
    cases hfull
  | cons first rest =>
    obtain ⟨t,hafter,hdiagnose⟩ := diagnose_own hreplay hactive hown hseq
    rw [hdiagnose]
    unfold EventDiagnosticsReport.make
    split
    · rename_i h
      rw [checkDiagnostics_eq hafter hseq (replay_length hreplay), refuse_ok,
        decide_eq_false_iff_not] at h
      exact absurd hfull h
    · rename_i e h
      rw [checkDiagnostics_eq hafter hseq (replay_length hreplay), refuse,
        if_pos (decide_eq_true hfull)] at h
      cases h
      rfl

/-- A replayed event of another owner ends the diagnosis. Otherwise, while the tasks that
move fit the report, the diagnosis returns one: it says `healthy` exactly of a coherent log
of consecutive events, and gives each task the target of its last well-formed transition. -/
theorem diagnosed (E : EventTables) (iso : String) (log : EventLog) (active : Json) (limit : ℤ)
    (f : LogFile) (events : List (FleetEvent E)) (hreplay : replay E iso limit f = .ok events)
    (hactive : checkActive E log active = .ok ()) :
    ((∃ e ∈ events, foreign E log e = true) → diagnoseEventLog E iso log active limit f =
      .error (.event (.event "evento stale ou fora da ownership"))) ∧
    ((∀ e ∈ events, foreign E log e = false) → (movedTasks events).card ≤ MAX_TASK_STATES →
      ∃ report, diagnoseEventLog E iso log active limit f = .ok report ∧
        (report.fields.status = .healthy ↔ events ≠ [] ∧
          Consecutive (events.map (·.fields.sequence)) ∧ Coherent events) ∧
        ∀ task, report.fields.taskStates.lookup task = lastTarget events task) := by
  constructor
  · intro hforeign
    rw [diagnoseEventLog, hactive, hreplay]
    show (match events.map (·.fields.sequence) with
      | [] => emptyReport E
      | first :: rest => (Tally.events E log .start events >>= _)) = _
    cases hseq : events.map (·.fields.sequence) with
    | nil =>
      rw [List.map_eq_nil_iff] at hseq
      rw [hseq] at hforeign
      obtain ⟨e,he,-⟩ := hforeign
      cases he
    | cons first rest =>
      dsimp only
      rw [Tally.events_foreign hforeign]
      rfl
  · intro hown hfits
    cases hseq : events.map (·.fields.sequence) with
    | nil =>
      have hnil : events = [] := List.map_eq_nil_iff.mp hseq
      subst hnil
      have hvalid : checkDiagnostics E ⟨.unknown,0,0,0,.null,.null,[],∅,[]⟩ = .ok () := rfl
      refine ⟨⟨_,hvalid⟩,?_,?_,fun task => rfl⟩
      · rw [diagnoseEventLog, hactive, hreplay]
        exact diagnostics_made hvalid
      · simp
    | cons first rest =>
      obtain ⟨t,hafter,hdiagnose⟩ := diagnose_own hreplay hactive hown hseq
      have hchecks := fun status => @checkDiagnostics_eq E events t first rest status hafter hseq
        (replay_length hreplay)
      have hroom : refuse (MAX_TASK_STATES < (movedTasks events).card)
          "invalid diagnostics task states" = .ok () := by
        rw [refuse_ok, decide_eq_false_iff_not, not_lt]
        exact hfits
      refine ⟨_,hdiagnose.trans (diagnostics_made ((hchecks _).trans hroom)),?_,hafter.states⟩
      have hnum : ∀ v ∈ first :: rest, isNumeric E v = true := by
        rw [← hseq]
        intro v hv
        obtain ⟨e,-,rfl⟩ := List.mem_map.mp hv
        exact isNumeric_of_checked (sequence_checked e)
      have hne : events ≠ [] := by
        rintro rfl
        cases hseq
      have hfound := @findings_nil E t.reasons _ hnum
      rw [hafter.coherent] at hfound
      dsimp only
      split_ifs with hnone
      · exact iff_of_true rfl ⟨hne,(hfound.mp hnone).2,(hfound.mp hnone).1⟩
      · refine iff_of_false (by simp) ?_
        rintro ⟨-,hc,hcoherent⟩
        exact hnone (hfound.mpr ⟨hcoherent,hc⟩)

/-- An event that the owner of the epoch one wrote. -/
def moved : FleetEvent plainTables where
  fields :=
    { schemaVersion := .int 1
      eventId := .str "e1"
      runId := .str "run"
      taskId := .str "t1"
      kind := .str "lifecycle.transition"
      orderingKey := .str "t1"
      sequence := .int 1
      ownerEpoch := .int 1
      payload := .obj [("from",.str "pending"), ("to",.str "ready")]
      createdAt := .str "2026-01-01T00:00:00Z" }
  valid := by decide +kernel

theorem moved_replayed : replay plainTables "now" MAX_QUERY [moved.line] = .ok [moved] := by
  have hsize : moved.canonical.utf8ByteSize ≤ 400 := by decide +kernel
  have hbytes : moved.line.bytes ≤ 479 := by
    rw [line_bytes]
    omega
  have hread : records plainTables "now" [moved.line] = .ok [(moved,moved.canonical)] := by
    refine records_ok.mpr ⟨?_,?_⟩
    · rw [LogFile.bytes, List.map_singleton, List.sum_singleton]
      exact le_trans hbytes (by decide)
    · apply @wellformed_lines plainTables "now" [moved] (by decide)
      intro e he
      rw [List.mem_singleton.mp he]
      exact le_trans hbytes (by decide)
  rw [replay_ok hread]
  rfl

/-- Read by its owner, the log of this event is healthy. -/
theorem moved_diagnosed :
    ∃ report, diagnoseEventLog plainTables "now" ⟨"run",.int 1⟩ (.int 1) MAX_QUERY [moved.line] =
        .ok report ∧
      (report.fields.status = .healthy ↔ [moved] ≠ [] ∧
        Consecutive ([moved].map (·.fields.sequence)) ∧ Coherent [moved]) ∧
      ∀ task, report.fields.taskStates.lookup task = lastTarget [moved] task :=
  (diagnosed plainTables "now" ⟨"run",.int 1⟩ (.int 1) MAX_QUERY [moved.line] [moved] moved_replayed
    (by decide +kernel)).2 (by decide +kernel) (by decide +kernel)

/-- A log object of the next epoch replays the event, and the diagnosis raises. -/
theorem stale_not_diagnosed :
    replay plainTables "now" MAX_QUERY [moved.line] = .ok [moved] ∧
      diagnoseEventLog plainTables "now" ⟨"run",.int 2⟩ .null MAX_QUERY [moved.line] =
        .error (.event (.event "evento stale ou fora da ownership")) := by
  refine ⟨moved_replayed,?_⟩
  rw [diagnoseEventLog, moved_replayed]
  rfl

end PdFleet.Journal
