import PdFleet.FakeAdapter
import PdFleet.Printed
import PdFleet.Lib.Guarded

/-!
# What the replay table answers

A result is stored once, by a call whose body has the fingerprint that it claims. A call that
the table answers has claimed that fingerprint too, but its own body was not asked for it: the
table answers for the body of the first call exactly if no call comes with a claim that is
not its own.
-/

set_option autoImplicit false

namespace PdFleet.FakeAdapter

open Guarded

/-! ## Runs with their answers -/

/-- The request of a step that brings a call in. -/
def asked (s : System) : Step → Option Request
  | .prepare request => (validateEnvelope .prepare request).toOption
  | .cancel request _ => (validateEnvelope .cancel request).toOption
  | .handoff request => (validateEnvelope .handoff request).toOption
  | .cleanup request _ => (validateEnvelope .cleanup request).toOption
  | .begin _ request => (validateEnvelope .execute request).toOption
  | .reserve t =>
    match s.threads t with
    | some (.checked r) => some r
    | _ => none
  | _ => none

/-- The request that a step answers. -/
def requestOf (s : System) : Step → Option Request
  | .dispatch t =>
    match s.threads t with
    | some (.reserved r) => some r
    | _ => none
  | c => asked s c

/-- A system with the answers that it has given. -/
structure Log where
  system : System
  answers : List (Request × Answer)

def Log.start : Log := ⟨System.start,[]⟩

/-- The entry for a request that is answered. -/
def noted : Option Request → Option Answer → List (Request × Answer)
  | some r, some a => [(r,a)]
  | _, _ => []

def advance (outcome : RunOutcome) (l : Log) (c : Step) : Log where
  system := (step outcome l.system c).1
  answers := l.answers++noted (requestOf l.system c) (step outcome l.system c).2

/-! ## What the claim says of a step -/

/-- Two calls with one operation, one key and bodies of one fingerprint. -/
def SameCall (r r' : Request) : Prop :=
  r.slot = r'.slot ∧ canonicalRequestFingerprint r.body = canonicalRequestFingerprint r'.body

/-- What the table answers was given to the same call, and nothing changes. -/
def Replays (outcome : RunOutcome) (l : Log) (c : Step) : Prop :=
  ∀ r result, asked l.system c = some r → (step outcome l.system c).2 = some (.replayed result) →
    (step outcome l.system c).1.runtime = l.system.runtime ∧
      ∃ r', (r',.given result) ∈ l.answers ∧ SameCall r r'

/-- A call with an operation and a key that are stored or in flight gets no new result and
changes nothing. -/
def Refuses (outcome : RunOutcome) (l : Log) (c : Step) : Prop :=
  ∀ r, asked l.system c = some r →
    ((stored l.system.runtime r.slot).isSome ∨ r.slot ∈ l.system.runtime.inflight) →
    (step outcome l.system c).1.runtime = l.system.runtime ∧
      ∀ result, (step outcome l.system c).2 ≠ some (.given result)

/-- The stored fingerprint is claimed only for a body that has it. -/
def Honest (l : Log) (c : Step) : Prop :=
  ∀ r e, presented l.system c = some r → stored l.system.runtime r.slot = some e →
    e.fingerprint = r.claimed → canonicalRequestFingerprint r.body = .ok r.claimed

def dispatches (rt : Runtime) : ℕ := (rt.record.map Record.dispatchCount).getD 0

def ready (rt : Runtime) : Bool := rt.record.any (fun record => record.status = .ready)

/-! ## One call -/

variable {rt rt' : Runtime} {r : Request} {record : Record} {result : Obj} {op : Operation}
  {request : Json}

/-- What a new result does to the runtime. -/
structure Gives (rt : Runtime) (r : Request) (result : Obj) (rt' : Runtime) : Prop where
  table : ∀ k, stored rt' k = if k = r.slot then some ⟨r.claimed,result⟩ else stored rt k
  inflight : rt'.inflight = rt.inflight
  dispatches : dispatches rt' = dispatches rt+if r.operation = .execute then 1 else 0
  ready : ready rt' = true →
    r.operation ≠ .execute ∧ (ready rt = true ∨ FakeAdapter.dispatches rt = 0)
  first : r.operation = .execute → FakeAdapter.ready rt = true

/-- A call for which nothing is stored is refused or gets a new result. -/
def Fresh (rt : Runtime) (r : Request) (x : Runtime × Answer) : Prop :=
  (∃ code, x = (rt,.raised code)) ∨ ∃ rt' result, x = (rt',.given result) ∧ Gives rt r result rt'

theorem require_ok {b : Bool} {code : Code} {u : Unit} : require b code = .ok u ↔ b = true := by
  cases b <;> simp [require]

theorem stored_some (h : rt.record = some record) (k : Key) :
    stored rt k = record.replay.lookup k := by
  rw [stored,h,Option.bind_some]

theorem give_gives {record' : Record} (hop : r.operation ≠ .execute)
    (h : rt.record = some record) (hr : record'.replay = record.replay)
    (hd : record'.dispatchCount = record.dispatchCount)
    (hs : record'.status = .ready → record.status = .ready) :
    Gives rt r result (give rt record' r result).1 := by
  constructor
  · intro k
    rw [stored_some h]
    simp only [give,stored,Option.bind_some,reserve,hr]
    exact Dict.lookup_insert_eq record.replay r.slot k ⟨r.claimed,result⟩
  · rfl
  · simp [dispatches,give,reserve,h,hd,hop]
  · intro hready
    apply And.intro hop
    left
    simp only [ready,give,reserve,h,Option.any_some,decide_eq_true_eq] at hready ⊢
    exact hs hready
  · exact fun he => absurd he hop

theorem give_fresh {record' : Record} (hop : r.operation ≠ .execute)
    (h : rt.record = some record) (hr : record'.replay = record.replay)
    (hd : record'.dispatchCount = record.dispatchCount)
    (hs : record'.status = .ready → record.status = .ready) :
    Fresh rt r (give rt record' r result) :=
  Or.inr ⟨_,result,rfl,give_gives hop h hr hd hs⟩

theorem cancel_fresh (hop : r.operation ≠ .execute) (h : rt.record = some record) (confirm : Bool) :
    Fresh rt r (if record.status ∈ terminal then cancelEnded rt r record
      else cancelLive rt confirm r record) := by
  split_ifs with ht
  · rw [cancelEnded]
    cases record.status with
    | cancelled => exact give_fresh hop h rfl rfl id
    | failed => exact give_fresh hop h rfl rfl id
    | timedOut => exact give_fresh hop h rfl rfl id
    | _ => exact Or.inl ⟨_,rfl⟩
  · cases confirm with
    | true => exact give_fresh hop h rfl rfl (by simp [event])
    | false => exact give_fresh hop h rfl rfl (by simp [event])

theorem handoff_fresh (hop : r.operation ≠ .execute) (h : rt.record = some record) :
    Fresh rt r (if rt.inflight ≠ ∅ then (rt,.raised .replayInProgress)
      else give rt record r (handoffResult record)) := by
  split_ifs
  · exact Or.inl ⟨_,rfl⟩
  · exact give_fresh hop h rfl rfl id

theorem cleanup_fresh (hop : r.operation ≠ .execute) (h : rt.record = some record)
    (succeed : Bool) :
    Fresh rt r (cleanupFresh rt succeed r record) := by
  by_cases ht : record.status ∈ terminal
  · rw [cleanupFresh,if_neg (not_not.mpr ht)]
    cases record.cleanupResult with
    | some result => exact give_fresh hop h rfl rfl id
    | none => exact give_fresh hop h rfl rfl id
  · rw [cleanupFresh,if_pos ht]
    exact Or.inl ⟨_,rfl⟩

theorem prepareFirst_fresh (hop : r.operation ≠ .execute) (h : rt.record = none) :
    Fresh rt r (prepareFirst rt r) := by
  rw [prepareFirst]
  cases lineageOf r.body with
  | error code => exact Or.inl ⟨code,rfl⟩
  | ok lineage =>
    dsimp only
    split_ifs
    · exact Or.inl ⟨_,rfl⟩
    · right
      use { record := some (reserve (prepared rt r lineage).1 r (prepared rt r lineage).2)
            inflight := rt.inflight
            nextHandle := rt.nextHandle+1 }, (prepared rt r lineage).2
      have hd : dispatches rt = 0 := by simp [dispatches,h]
      constructor
      · rfl
      · constructor
        · intro k
          simp only [stored,h,Option.bind_some,Option.bind_none,reserve]
          exact Dict.lookup_insert_eq (prepared rt r lineage).1.replay r.slot k ⟨r.claimed,_⟩
        · rfl
        · rw [hd,if_neg hop]
          rfl
        · exact fun _ => ⟨hop,Or.inr hd⟩
        · exact fun he => absurd he hop

/-- The three ways of a call at the table. -/
theorem settle_cases (h : rt.record = some record) (fresh : Runtime × Answer) :
    (∃ code, settle rt record r fresh = (rt,.raised code) ∧
        ∃ e, stored rt r.slot = some e ∧ e.fingerprint ≠ r.claimed) ∨
      (∃ e, settle rt record r fresh = (rt,.replayed e.result) ∧ stored rt r.slot = some e ∧
        e.fingerprint = r.claimed) ∨
      settle rt record r fresh = fresh ∧ stored rt r.slot = none := by
  rw [stored_some h,settle,replay]
  cases record.replay.lookup r.slot with
  | none => exact Or.inr (Or.inr ⟨rfl,rfl⟩)
  | some e =>
    by_cases he : e.fingerprint = r.claimed
    · right
      left
      use e
      simp [he]
    · left
      use .idempotencyConflict
      simp [he]

/-! ## What the checks have seen -/

theorem operation_of_validateEnvelope (h : validateEnvelope op request = .ok r) :
    r.operation = op := by
  cases request with
  | obj o =>
    obtain ⟨_,-,h⟩ := ok_of_bind h
    obtain ⟨_,-,h⟩ := ok_of_bind h
    obtain ⟨_,-,h⟩ := ok_of_bind h
    obtain ⟨_,-,h⟩ := ok_of_bind h
    obtain ⟨_,-,h⟩ := ok_of_bind h
    obtain ⟨_,-,h⟩ := ok_of_bind h
    obtain ⟨_,-,h⟩ := ok_of_bind h
    obtain ⟨_,-,h⟩ := ok_of_bind h
    cases h
    rfl
  | _ => cases h

/-- A claim that passes is the body's own, or the key is stored. -/
def Claims (rt : Runtime) (r : Request) : Prop :=
  canonicalRequestFingerprint r.body = .ok r.claimed ∨ (stored rt r.slot).isSome

theorem claims_of_validate {u : Unit} (h : validateRequestFingerprint rt r = .ok u) :
    Claims rt r := by
  obtain ⟨derived,hd,h⟩ := ok_of_bind h
  rw [require_ok,Bool.or_eq_true,decide_eq_true_eq] at h
  rcases h with h | h
  · left
    rw [hd,h]
  · exact Or.inr h

theorem record_of_validateIdentity {b : Bool} (h : validateIdentity rt r b = .ok record) :
    rt.record = some record := by
  rw [validateIdentity] at h
  cases hrt : rt.record with
  | none =>
    rw [hrt] at h
    cases h
  | some found =>
    rw [hrt] at h
    obtain ⟨_,-,h⟩ := ok_of_bind h
    obtain ⟨_,-,h⟩ := ok_of_bind h
    obtain ⟨_,-,h⟩ := ok_of_bind h
    obtain ⟨_,-,h⟩ := ok_of_bind h
    obtain ⟨_,-,h⟩ := ok_of_bind h
    cases h
    rfl

theorem of_enter (h : enter rt op request = .ok r) :
    validateEnvelope op request = .ok r ∧ Claims rt r := by
  obtain ⟨r',hr,h⟩ := ok_of_bind h
  obtain ⟨_,hf,h⟩ := ok_of_bind h
  cases h
  exact ⟨hr,claims_of_validate hf⟩

theorem of_checkCall (h : checkCall rt op request = .ok (r,record)) :
    validateEnvelope op request = .ok r ∧ Claims rt r ∧ rt.record = some record := by
  obtain ⟨r',hr,h⟩ := ok_of_bind h
  obtain ⟨record',hrec,h⟩ := ok_of_bind h
  cases h
  exact ⟨(of_enter hr).1,(of_enter hr).2,record_of_validateIdentity hrec⟩

theorem of_checkAgain (h : checkAgain rt r = .ok record) : rt.record = some record := by
  obtain ⟨_,-,h⟩ := ok_of_bind h
  obtain ⟨_,-,h⟩ := ok_of_bind h
  exact record_of_validateIdentity h

theorem of_executeChecks (h : executeChecks rt request = .ok r) :
    validateEnvelope .execute request = .ok r ∧ Claims rt r := by
  obtain ⟨r',hr,h⟩ := ok_of_bind h
  obtain ⟨_,-,h⟩ := ok_of_bind h
  obtain ⟨_,hf,h⟩ := ok_of_bind h
  obtain ⟨_,-,h⟩ := ok_of_bind h
  cases h
  exact ⟨hr,claims_of_validate hf⟩

/-! ## A call that takes the lock once -/

/-- How such a call can go: `presented` is the request that it brings to the table. -/
inductive Went (rt : Runtime) (op : Operation) (request : Json) :
    Option Request → Runtime × Answer → Prop
  | refused (brought : Option Request) (code : Code)
      (h : ∀ r, brought = some r → validateEnvelope op request = .ok r ∧
        ∀ e, stored rt r.slot = some e → e.fingerprint ≠ r.claimed) :
      Went rt op request brought (rt,.raised code)
  | replayed (r : Request) (e : Stored) (hr : validateEnvelope op request = .ok r)
      (hs : stored rt r.slot = some e) (he : e.fingerprint = r.claimed) :
      Went rt op request (some r) (rt,.replayed e.result)
  | gave (brought : Option Request) (r : Request) (rt' : Runtime) (result : Obj)
      (hr : validateEnvelope op request = .ok r) (hb : ∀ r', brought = some r' → r' = r)
      (hn : stored rt r.slot = none)
      (hc : canonicalRequestFingerprint r.body = .ok r.claimed) (hg : Gives rt r result rt') :
      Went rt op request brought (rt',.given result)

theorem own_of_unstored (h : Claims rt r) (hn : stored rt r.slot = none) :
    canonicalRequestFingerprint r.body = .ok r.claimed := by
  rcases h with h | h
  · exact h
  · rw [hn] at h
    cases h

theorem settle_went {fresh : Runtime × Answer} (h : rt.record = some record)
    (hr : validateEnvelope op request = .ok r) (hc : Claims rt r) (hf : Fresh rt r fresh) :
    Went rt op request (some r) (settle rt record r fresh) := by
  rcases settle_cases h fresh with ⟨code,hs,e,he,hne⟩ | ⟨e,hs,he,heq⟩ | ⟨hs,hn⟩
  · rw [hs]
    apply Went.refused
    intro r' hr'
    cases hr'
    constructor
    · exact hr
    · intro e' he'
      rw [he] at he'
      cases he'
      exact hne
  · rw [hs]
    exact Went.replayed r e hr he heq
  · rw [hs]
    rcases hf with ⟨code,rfl⟩ | ⟨rt',result,rfl,hg⟩
    · apply Went.refused
      intro r' hr'
      cases hr'
      constructor
      · exact hr
      · intro e he
        rw [hn] at he
        cases he
    · apply Went.gave (some r) r rt' result hr
      · intro r' hr'
        exact (Option.some.inj hr').symm
      · exact hn
      · exact own_of_unstored hc hn
      · exact hg

theorem answered_went {fresh : Request → Record → Runtime × Answer} (hop : op ≠ .execute)
    (hf : ∀ r record, r.operation ≠ .execute → rt.record = some record →
      Fresh rt r (fresh r record)) :
    Went rt op request ((checkCall rt op request).toOption.map Prod.fst)
      (answered rt op request fresh) := by
  rw [answered]
  cases h : checkCall rt op request with
  | error code => exact Went.refused none code (by simp)
  | ok x =>
    obtain ⟨r,record⟩ := x
    obtain ⟨hr,hc,hrec⟩ := of_checkCall h
    have hne : r.operation ≠ .execute := by
      rw [operation_of_validateEnvelope hr]
      exact hop
    exact settle_went hrec hr hc (hf r record hne hrec)

theorem prepare_went (s : System) :
    Went s.runtime .prepare request (presented s (.prepare request))
      (prepare s.runtime request) := by
  rw [prepare,presented]
  cases h : enter s.runtime .prepare request with
  | error code => exact Went.refused none code (by simp)
  | ok r =>
    obtain ⟨hr,hc⟩ := of_enter h
    have hop : r.operation ≠ .execute := by
      rw [operation_of_validateEnvelope hr]
      simp
    dsimp only
    cases hrec : s.runtime.record with
    | none =>
      have hn : stored s.runtime r.slot = none := by rw [stored,hrec,Option.bind_none]
      simp only [Option.isNone_none,if_true,Option.isSome_none,Bool.false_and,Bool.false_eq_true,
        if_false]
      rcases prepareFirst_fresh hop hrec with ⟨code,hf⟩ | ⟨rt',result,hf,hg⟩
      · rw [hf]
        exact Went.refused none code (by simp)
      · rw [hf]
        exact Went.gave none r rt' result hr (by simp) hn (own_of_unstored hc hn) hg
    | some record =>
      simp only [Option.isNone_some,Bool.false_eq_true,if_false,Option.isSome_some,Bool.true_and]
      cases hre : checkAgain s.runtime r with
      | error code => exact Went.refused none code (by simp)
      | ok record' => exact settle_went (of_checkAgain hre) hr hc (Or.inl ⟨_,rfl⟩)

/-! ## The execution -/

theorem executeDispatch_cases (outcome : RunOutcome) (hop : r.operation = .execute) :
    (∃ code, executeDispatch outcome rt r = (rt,.raised code)) ∨
      ∃ rt' result, executeDispatch outcome rt r = (rt',.given result) ∧ Gives rt r result rt' := by
  rw [executeDispatch]
  cases hrec : rt.record with
  | none => exact Or.inl ⟨_,rfl⟩
  | some record =>
    dsimp only
    by_cases hs : record.status = .ready
    · rw [if_neg (not_not.mpr hs)]
      right
      use { rt with record := some (reserve (dispatched outcome record).1 r
              (dispatched outcome record).2) }, (dispatched outcome record).2
      constructor
      · rfl
      · constructor
        · intro k
          rw [stored_some hrec]
          exact Dict.lookup_insert_eq record.replay r.slot k ⟨r.claimed,_⟩
        · rfl
        · rw [if_pos hop]
          simp [dispatches,hrec,reserve,dispatched,event]
        · intro hready
          cases outcome <;>
            simp [ready,reserve,dispatched,event,RunOutcome.status] at hready
        · intro _
          simp [ready,hrec,hs]
    · rw [if_pos hs]
      exact Or.inl ⟨_,rfl⟩

/-- The ways of an execution with the lock for the first time. -/
theorem executeReserve_cases :
    (∃ code, executeReserve rt r = (rt,some (.raised code)) ∧
        ∀ e, stored rt r.slot = some e → e.fingerprint ≠ r.claimed) ∨
      (∃ e, executeReserve rt r = (rt,some (.replayed e.result)) ∧ stored rt r.slot = some e ∧
        e.fingerprint = r.claimed) ∨
      executeReserve rt r = ({ rt with inflight := insert r.slot rt.inflight },none) ∧
        stored rt r.slot = none ∧ r.slot ∉ rt.inflight := by
  rw [executeReserve]
  cases hrec : rt.record with
  | none =>
    left
    use .invalidLineage
    simp [stored,hrec]
  | some record =>
    rw [stored_some hrec]
    dsimp only
    rw [replay]
    cases record.replay.lookup r.slot with
    | none =>
      by_cases hin : r.slot ∈ rt.inflight
      · left
        use .replayInProgress
        simp [hin]
      · by_cases hs : record.status = .ready
        · right
          right
          simp [hin,hs]
        · left
          use .invalidTransition
          simp [hin,hs]
    | some e =>
      by_cases he : e.fingerprint = r.claimed
      · right
        left
        use e
        simp [he]
      · left
        use .idempotencyConflict
        simp [he]

/-! ## The invariant -/

/-- The executions that were dispatched. -/
def executions (answers : List (Request × Answer)) : ℕ :=
  answers.countP (fun x => x.1.operation = .execute && x.2 matches .given _)

/-- The table holds the results that were given, each to a call that claims its own
fingerprint. -/
structure Recorded (rt : Runtime) (answers : List (Request × Answer)) : Prop where
  stored : ∀ k e, stored rt k = some e → ∃ r, (r,.given e.result) ∈ answers ∧ r.slot = k ∧
    r.claimed = e.fingerprint ∧ canonicalRequestFingerprint r.body = .ok r.claimed
  given : ∀ r result, (r,.given result) ∈ answers →
    FakeAdapter.stored rt r.slot = some ⟨r.claimed,result⟩ ∧
      canonicalRequestFingerprint r.body = .ok r.claimed
  count : executions answers = dispatches rt
  once : dispatches rt ≤ 1
  idle : ready rt = true → dispatches rt = 0

/-- An answer that is no new result leaves the table as it is. -/
theorem Recorded.quiet {answers : List (Request × Answer)} (h : Recorded rt answers)
    (brought : Option Request) {a : Option Answer} (ha : ∀ result, a ≠ some (.given result)) :
    Recorded rt (answers++noted brought a) := by
  have hm : ∀ r result, (r,.given result) ∉ noted brought a := by
    intro r result hr
    cases brought with
    | none => exact absurd hr List.not_mem_nil
    | some r' =>
      cases a with
      | none => exact absurd hr List.not_mem_nil
      | some a =>
        cases List.mem_singleton.mp hr
        exact ha result rfl
  have hc : executions (noted brought a) = 0 := by
    rw [executions,List.countP_eq_zero]
    intro y hy
    obtain ⟨r,a'⟩ := y
    cases a' with
    | given result => exact absurd hy (hm r result)
    | replayed result => simp
    | raised code => simp
  constructor
  · intro k e hs
    obtain ⟨r,hr,hrest⟩ := h.stored k e hs
    exact ⟨r,List.mem_append_left _ hr,hrest⟩
  · intro r result hr
    exact h.given r result ((List.mem_append.mp hr).resolve_right (hm r result))
  · rw [executions,List.countP_append]
    exact (congrArg₂ (· + ·) h.count hc).trans (Nat.add_zero _)
  · exact h.once
  · exact h.idle

theorem Recorded.gives {answers : List (Request × Answer)} (h : Recorded rt answers)
    (hg : Gives rt r result rt') (hn : FakeAdapter.stored rt r.slot = none)
    (hc : canonicalRequestFingerprint r.body = .ok r.claimed) :
    Recorded rt' (answers++[(r,.given result)]) := by
  constructor
  · intro k e hs
    rw [hg.table k] at hs
    split_ifs at hs with hk
    · cases hs
      exact ⟨r,List.mem_append_right answers (List.mem_singleton_self _),hk.symm,rfl,hc⟩
    · obtain ⟨r',hr',hrest⟩ := h.stored k e hs
      exact ⟨r',List.mem_append_left _ hr',hrest⟩
  · intro r' result' hr'
    rcases List.mem_append.mp hr' with hr' | hr'
    · obtain ⟨hs,hown⟩ := h.given r' result' hr'
      rw [hg.table,if_neg]
      · exact ⟨hs,hown⟩
      · intro hk
        rw [hk,hn] at hs
        cases hs
    · cases List.mem_singleton.mp hr'
      rw [hg.table,if_pos rfl]
      exact ⟨rfl,hc⟩
  · have hcount := h.count
    have hd := hg.dispatches
    rw [executions] at hcount
    rw [executions,List.countP_append,List.countP_singleton,hcount,hd]
    by_cases hop : r.operation = .execute <;> simp [hop]
  · rw [hg.dispatches]
    by_cases hop : r.operation = .execute
    · rw [h.idle (hg.first hop),if_pos hop]
    · rw [if_neg hop]
      exact h.once
  · intro hready
    obtain ⟨hop,hr⟩ := hg.ready hready
    rw [hg.dispatches,if_neg hop,Nat.add_zero]
    exact hr.elim h.idle id

/-- The thread holds a key in flight. -/
def Holds (s : System) (t : ℕ) (r : Request) : Prop :=
  s.threads t = some (.reserved r) ∨ s.threads t = some (.ending r)

/-- The keys in flight belong to one execution each, and nothing is stored for one that was
reserved. -/
structure Threaded (s : System) : Prop where
  executes : ∀ k ∈ s.runtime.inflight, k.1 = .execute
  checked : ∀ t r, s.threads t = some (.checked r) → r.operation = .execute ∧ Claims s.runtime r
  reserved : ∀ t r, s.threads t = some (.reserved r) → r.operation = .execute ∧
    stored s.runtime r.slot = none ∧ canonicalRequestFingerprint r.body = .ok r.claimed
  held : ∀ t r, Holds s t r → r.slot ∈ s.runtime.inflight
  alone : ∀ t t' r r', Holds s t r → Holds s t' r' → r.slot = r'.slot → t = t'

variable {s : System} {t : ℕ}

theorem threads_phase (s : System) (t t' : ℕ) (p : Option Phase) :
    (s.phase t p).threads t' = if t' = t then p else s.threads t' :=
  Function.update_apply s.threads t p t'

theorem Claims.gives (h : Claims rt r) {r' : Request} (hg : Gives rt r' result rt') :
    Claims rt' r := by
  rcases h with h | h
  · exact Or.inl h
  · right
    rw [hg.table]
    split_ifs
    · rfl
    · exact h

theorem Threaded.gives (h : Threaded s) (hg : Gives s.runtime r result rt')
    (hne : ∀ t r', s.threads t = some (.reserved r') → r'.slot ≠ r.slot) :
    Threaded (s.with rt') := by
  constructor
  · intro k hk
    rw [System.with,hg.inflight] at hk
    exact h.executes k hk
  · intro t r' ht
    exact ⟨(h.checked t r' ht).1,(h.checked t r' ht).2.gives hg⟩
  · intro t r' ht
    obtain ⟨hop,hn,hc⟩ := h.reserved t r' ht
    apply And.intro hop
    apply And.intro _ hc
    rw [System.with,hg.table,if_neg (hne t r' ht)]
    exact hn
  · intro t r' ht
    rw [System.with,hg.inflight]
    exact h.held t r' ht
  · exact h.alone

/-- A thread that leaves its phase holds nothing. -/
theorem Threaded.leave (h : Threaded s) : Threaded (s.phase t none) := by
  have hsub : ∀ t' p, (s.phase t none).threads t' = some p → s.threads t' = some p := by
    intro t' p hp
    rw [threads_phase] at hp
    split_ifs at hp
    exact hp
  have hholds : ∀ t' r, Holds (s.phase t none) t' r → Holds s t' r :=
    fun t' r hr => hr.imp (hsub t' _) (hsub t' _)
  constructor
  · exact h.executes
  · exact fun t' r hr => h.checked t' r (hsub t' _ hr)
  · exact fun t' r hr => h.reserved t' r (hsub t' _ hr)
  · exact fun t' r hr => h.held t' r (hholds t' r hr)
  · exact fun t' t'' r r' hr hr' => h.alone t' t'' r r' (hholds t' r hr) (hholds t'' r' hr')

theorem Threaded.begin (h : Threaded s) (hop : r.operation = .execute)
    (hc : Claims s.runtime r) : Threaded (s.phase t (some (.checked r))) := by
  have hholds : ∀ t' r', Holds (s.phase t (some (.checked r))) t' r' → Holds s t' r' := by
    intro t' r' hr
    simp only [Holds,threads_phase] at hr
    by_cases ht : t' = t
    · simp [ht] at hr
    · simpa [ht,Holds] using hr
  constructor
  · exact h.executes
  · intro t' r' hr
    rw [threads_phase] at hr
    split_ifs at hr with ht
    · cases hr
      exact ⟨hop,hc⟩
    · exact h.checked t' r' hr
  · intro t' r' hr
    rw [threads_phase] at hr
    split_ifs at hr with ht
    · cases hr
    · exact h.reserved t' r' hr
  · exact fun t' r' hr => h.held t' r' (hholds t' r' hr)
  · exact fun t' t'' r' r'' hr hr' =>
      h.alone t' t'' r' r'' (hholds t' r' hr) (hholds t'' r'' hr')

theorem Threaded.ending (h : Threaded s) (ht : s.threads t = some (.reserved r)) :
    Threaded (s.phase t (some (.ending r))) := by
  have hholds : ∀ t' r', Holds (s.phase t (some (.ending r))) t' r' → Holds s t' r' := by
    intro t' r' hr
    simp only [Holds,threads_phase] at hr
    by_cases htt : t' = t
    · left
      simp only [htt,if_true,Option.some.injEq,reduceCtorEq,Phase.ending.injEq,false_or] at hr
      rw [htt,← hr]
      exact ht
    · simpa [htt,Holds] using hr
  constructor
  · exact h.executes
  · intro t' r' hr
    rw [threads_phase] at hr
    split_ifs at hr with htt
    · cases hr
    · exact h.checked t' r' hr
  · intro t' r' hr
    rw [threads_phase] at hr
    split_ifs at hr with htt
    · cases hr
    · exact h.reserved t' r' hr
  · exact fun t' r' hr => h.held t' r' (hholds t' r' hr)
  · exact fun t' t'' r' r'' hr hr' =>
      h.alone t' t'' r' r'' (hholds t' r' hr) (hholds t'' r'' hr')

theorem Threaded.hold (h : Threaded s) (ht : s.threads t = some (.checked r))
    (hn : stored s.runtime r.slot = none) (hin : r.slot ∉ s.runtime.inflight) :
    Threaded ((s.with { s.runtime with
      inflight := insert r.slot s.runtime.inflight }).phase t (some (.reserved r))) := by
  obtain ⟨hop,hc⟩ := h.checked t r ht
  have hholds : ∀ t' r', Holds ((s.with { s.runtime with
      inflight := insert r.slot s.runtime.inflight }).phase t (some (.reserved r))) t' r' →
      t' = t ∧ r' = r ∨ Holds s t' r' := by
    intro t' r' hr
    simp only [Holds,threads_phase] at hr
    by_cases htt : t' = t
    · left
      simp only [htt,if_true,Option.some.injEq,reduceCtorEq,Phase.reserved.injEq,or_false] at hr
      exact ⟨htt,hr.symm⟩
    · right
      simpa [htt,Holds,System.with] using hr
  constructor
  · intro k hk
    rcases Finset.mem_insert.mp hk with rfl | hk
    · exact hop
    · exact h.executes k hk
  · intro t' r' hr
    rw [threads_phase] at hr
    split_ifs at hr with htt
    · cases hr
    · exact h.checked t' r' hr
  · intro t' r' hr
    rw [threads_phase] at hr
    split_ifs at hr with htt
    · cases hr
      exact ⟨hop,hn,own_of_unstored hc hn⟩
    · exact h.reserved t' r' hr
  · intro t' r' hr
    apply Finset.mem_insert.mpr
    rcases hholds t' r' hr with ⟨-,rfl⟩ | hr
    · exact Or.inl rfl
    · exact Or.inr (h.held t' r' hr)
  · intro t' t'' r' r'' hr hr' hslot
    rcases hholds t' r' hr with ⟨rfl,rfl⟩ | hold
    · rcases hholds t'' r'' hr' with ⟨rfl,-⟩ | hold'
      · rfl
      · rw [hslot] at hin
        exact absurd (h.held t'' r'' hold') hin
    · rcases hholds t'' r'' hr' with ⟨rfl,rfl⟩ | hold'
      · rw [← hslot] at hin
        exact absurd (h.held t' r' hold) hin
      · exact h.alone t' t'' r' r'' hold hold' hslot

theorem Threaded.release (h : Threaded s) (ht : s.threads t = some (.ending r)) :
    Threaded ((s.with (executeRelease s.runtime r)).phase t none) := by
  have hsub : ∀ t' p, ((s.with (executeRelease s.runtime r)).phase t none).threads t' = some p →
      t' ≠ t ∧ s.threads t' = some p := by
    intro t' p hp
    rw [threads_phase] at hp
    split_ifs at hp with htt
    exact ⟨htt,hp⟩
  have hholds : ∀ t' r', Holds ((s.with (executeRelease s.runtime r)).phase t none) t' r' →
      t' ≠ t ∧ Holds s t' r' := by
    intro t' r' hr
    rcases hr with hr | hr
    · exact ⟨(hsub t' _ hr).1,Or.inl (hsub t' _ hr).2⟩
    · exact ⟨(hsub t' _ hr).1,Or.inr (hsub t' _ hr).2⟩
  constructor
  · exact fun k hk => h.executes k (Finset.mem_of_mem_erase hk)
  · exact fun t' r' hr => h.checked t' r' (hsub t' _ hr).2
  · exact fun t' r' hr => h.reserved t' r' (hsub t' _ hr).2
  · intro t' r' hr
    obtain ⟨hne,hold⟩ := hholds t' r' hr
    apply Finset.mem_erase.mpr
    constructor
    · intro hslot
      exact hne (h.alone t' t r' r hold (Or.inr ht) hslot)
    · exact h.held t' r' hold
  · exact fun t' t'' r' r'' hr hr' =>
      h.alone t' t'' r' r'' (hholds t' r' hr).2 (hholds t'' r'' hr').2

/-! ## Steps -/

structure Inv (l : Log) : Prop where
  recorded : Recorded l.system.runtime l.answers
  threaded : Threaded l.system

theorem start_inv : Inv Log.start := by
  constructor
  · constructor
    · exact fun k e h => by cases h
    · exact fun r result h => absurd h List.not_mem_nil
    · rfl
    · exact Nat.zero_le 1
    · exact fun h => by cases h
  · constructor
    · exact fun k hk => absurd hk (Finset.notMem_empty k)
    · exact fun t r h => by cases h
    · exact fun t r h => by cases h
    · exact fun t r h => by rcases h with h | h <;> cases h
    · exact fun t t' r r' h => by rcases h with h | h <;> cases h

/-- A claim of the stored fingerprint is honest exactly if the stored result was given to the
same call. -/
theorem honest_iff {answers : List (Request × Answer)} {e : Stored} (h : Recorded rt answers)
    (hs : stored rt r.slot = some e) (he : e.fingerprint = r.claimed) :
    canonicalRequestFingerprint r.body = .ok r.claimed ↔
      ∃ r', (r',.given e.result) ∈ answers ∧ SameCall r r' := by
  constructor
  · intro hc
    obtain ⟨r',hr',hslot,hclaim,hc'⟩ := h.stored r.slot e hs
    use r'
    apply And.intro hr'
    apply And.intro hslot.symm
    rw [hc,hc',hclaim,he]
  · rintro ⟨r',hr',hslot,hsame⟩
    obtain ⟨hs',hc'⟩ := h.given r' e.result hr'
    rw [← hslot,hs] at hs'
    rw [hsame,hc',← he,Option.some.inj hs']

variable {brought : Option Request} {x : Runtime × Answer} {answers : List (Request × Answer)}

theorem went_inv (h : Inv ⟨s,answers⟩) (hop : op ≠ .execute)
    (hw : Went s.runtime op request brought x) :
    Inv ⟨s.with x.1,answers++noted (validateEnvelope op request).toOption (some x.2)⟩ := by
  cases hw with
  | refused _ code _ => exact ⟨h.recorded.quiet _ (by simp),h.threaded⟩
  | replayed r e hr _ _ => exact ⟨h.recorded.quiet _ (by simp),h.threaded⟩
  | gave _ r rt' result hr _ hn hc hg =>
    rw [hr]
    constructor
    · exact h.recorded.gives hg hn hc
    · apply h.threaded.gives hg
      intro t r' ht hslot
      have h1 := (h.threaded.reserved t r' ht).1
      have h2 : r'.operation = r.operation := congrArg Prod.fst hslot
      rw [operation_of_validateEnvelope hr,h1] at h2
      exact hop h2.symm

theorem went_guard (h : Inv ⟨s,answers⟩) (hop : op ≠ .execute)
    (hw : Went s.runtime op request brought x) :
    (∀ r e, brought = some r → stored s.runtime r.slot = some e → e.fingerprint = r.claimed →
      canonicalRequestFingerprint r.body = .ok r.claimed) ↔
    (∀ r result, (validateEnvelope op request).toOption = some r →
      some x.2 = some (.replayed result) →
      x.1 = s.runtime ∧ ∃ r', (r',.given result) ∈ answers ∧ SameCall r r') ∧
    (∀ r, (validateEnvelope op request).toOption = some r →
      ((stored s.runtime r.slot).isSome ∨ r.slot ∈ s.runtime.inflight) →
      x.1 = s.runtime ∧ ∀ result, some x.2 ≠ some (.given result)) := by
  cases hw with
  | refused _ code hb =>
    constructor
    · intro _
      exact ⟨by simp,by simp⟩
    · intro _ r e hr hs he
      exact absurd he ((hb r hr).2 e hs)
  | replayed r e hr hs he =>
    have hi := honest_iff h.recorded hs he
    constructor
    · intro hall
      constructor
      · intro r' result hr' hres
        rw [hr] at hr'
        cases hr'
        cases hres
        exact ⟨rfl,hi.mp (hall r e rfl hs he)⟩
      · exact fun r' _ _ => ⟨rfl,by simp⟩
    · rintro ⟨hrep,-⟩ r' e' hr' _ _
      cases hr'
      exact hi.mpr (hrep r e.result (by rw [hr]; rfl) rfl).2
  | gave _ r rt' result hr hb hn hc hg =>
    constructor
    · intro _
      constructor
      · simp
      · intro r' hr' hused
        rw [hr] at hr'
        cases hr'
        rcases hused with hused | hused
        · rw [hn] at hused
          cases hused
        · have h1 := h.threaded.executes r.slot hused
          exact absurd ((operation_of_validateEnvelope hr).symm.trans h1) hop
    · intro _ r' e hr' hs _
      rw [hb r' hr',hn] at hs
      cases hs

theorem advance_inv (outcome : RunOutcome) {l : Log} (h : Inv l) (c : Step) :
    Inv (advance outcome l c) := by
  obtain ⟨s,answers⟩ := l
  cases c with
  | prepare request => exact went_inv h (by simp) (prepare_went s)
  | cancel request confirm =>
    exact went_inv h (by simp) (answered_went (by simp)
      (fun r record hop hrec => cancel_fresh hop hrec confirm))
  | handoff request =>
    exact went_inv h (by simp) (answered_went (by simp)
      (fun r record hop hrec => handoff_fresh hop hrec))
  | cleanup request succeed =>
    exact went_inv h (by simp) (answered_went (by simp)
      (fun r record hop hrec => cleanup_fresh hop hrec succeed))
  | begin t request =>
    simp only [advance,step]
    cases s.threads t with
    | some p => exact ⟨h.recorded.quiet _ (by simp),h.threaded⟩
    | none =>
      dsimp only
      cases hc : executeChecks s.runtime request with
      | error code => exact ⟨h.recorded.quiet _ (by simp),h.threaded⟩
      | ok r =>
        obtain ⟨hr,hclaims⟩ := of_executeChecks hc
        exact ⟨h.recorded.quiet _ (by simp),
          h.threaded.begin (operation_of_validateEnvelope hr) hclaims⟩
  | reserve t =>
    simp only [advance,step]
    cases ht : s.threads t with
    | none => exact ⟨h.recorded.quiet _ (by simp),h.threaded⟩
    | some p =>
      cases p with
      | checked r =>
        dsimp only
        rcases executeReserve_cases with ⟨code,hx,-⟩ | ⟨e,hx,-,-⟩ | ⟨hx,hn,hin⟩
        · rw [hx]
          exact ⟨h.recorded.quiet _ (by simp),h.threaded.leave⟩
        · rw [hx]
          exact ⟨h.recorded.quiet _ (by simp),h.threaded.leave⟩
        · rw [hx]
          have hrec : Recorded { s.runtime with
              inflight := insert r.slot s.runtime.inflight } answers :=
            ⟨h.recorded.stored,h.recorded.given,h.recorded.count,h.recorded.once,h.recorded.idle⟩
          exact ⟨hrec.quiet _ (by simp),h.threaded.hold ht hn hin⟩
      | reserved r => exact ⟨h.recorded.quiet _ (by simp),h.threaded⟩
      | ending r => exact ⟨h.recorded.quiet _ (by simp),h.threaded⟩
  | dispatch t =>
    simp only [advance,step,requestOf]
    cases ht : s.threads t with
    | none => exact ⟨h.recorded.quiet _ (by simp),h.threaded⟩
    | some p =>
      cases p with
      | reserved r =>
        obtain ⟨hop,hn,hc⟩ := h.threaded.reserved t r ht
        have hend := h.threaded.ending ht
        dsimp only
        rcases executeDispatch_cases outcome hop with ⟨code,hx⟩ | ⟨rt',result,hx,hg⟩
        · rw [hx]
          exact ⟨h.recorded.quiet _ (by simp),hend⟩
        · rw [hx]
          constructor
          · exact h.recorded.gives hg hn hc
          · apply hend.gives hg
            intro t' r' ht' hslot
            rw [threads_phase] at ht'
            split_ifs at ht' with htt
            · cases ht'
            · exact htt (h.threaded.alone t' t r' r (Or.inl ht') (Or.inl ht) hslot)
      | checked r => exact ⟨h.recorded.quiet _ (by simp),h.threaded⟩
      | ending r => exact ⟨h.recorded.quiet _ (by simp),h.threaded⟩
  | release t =>
    simp only [advance,step]
    cases ht : s.threads t with
    | none => exact ⟨h.recorded.quiet _ (by simp),h.threaded⟩
    | some p =>
      cases p with
      | ending r =>
        have hrec : Recorded (executeRelease s.runtime r) answers :=
          ⟨h.recorded.stored,h.recorded.given,h.recorded.count,h.recorded.once,h.recorded.idle⟩
        exact ⟨hrec.quiet _ (by simp),h.threaded.release ht⟩
      | checked r => exact ⟨h.recorded.quiet _ (by simp),h.threaded⟩
      | reserved r => exact ⟨h.recorded.quiet _ (by simp),h.threaded⟩

/-- A step that brings nothing to the table and leaves the runtime is honest, and answers
nothing from it. -/
theorem guard_idle (outcome : RunOutcome) {l : Log} {c : Step} (hb : presented l.system c = none)
    (hrt : (asked l.system c).isSome → (step outcome l.system c).1.runtime = l.system.runtime)
    (ha : ∀ result, (step outcome l.system c).2 ≠ some (.replayed result))
    (hg : (asked l.system c).isSome → ∀ result,
      (step outcome l.system c).2 ≠ some (.given result)) :
    Honest l c ↔ Replays outcome l c ∧ Refuses outcome l c := by
  constructor
  · intro _
    constructor
    · exact fun r result _ hres => absurd hres (ha result)
    · intro r hr _
      have hsome : (asked l.system c).isSome := by rw [hr]; rfl
      exact ⟨hrt hsome,hg hsome⟩
  · intro _ r e hr
    rw [hb] at hr
    cases hr

theorem reserve_guard (outcome : RunOutcome) (h : Inv ⟨s,answers⟩) (t : ℕ) :
    Honest ⟨s,answers⟩ (.reserve t) ↔
      Replays outcome ⟨s,answers⟩ (.reserve t) ∧ Refuses outcome ⟨s,answers⟩ (.reserve t) := by
  simp only [Honest,Replays,Refuses,presented,asked,step]
  cases ht : s.threads t with
  | none => simp
  | some p =>
    cases p with
    | reserved r => simp
    | ending r => simp
    | checked r =>
      dsimp only
      rcases executeReserve_cases with ⟨code,hx,hne⟩ | ⟨e,hx,hs,he⟩ | ⟨hx,hn,hin⟩
      · rw [hx]
        constructor
        · intro _
          exact ⟨by simp,fun r' _ _ => ⟨rfl,by simp⟩⟩
        · intro _ r' e hr' hs he
          cases hr'
          exact absurd he (hne e hs)
      · rw [hx]
        have hi := honest_iff h.recorded hs he
        constructor
        · intro hall
          constructor
          · intro r' result hr' hres
            cases hr'
            cases hres
            exact ⟨rfl,hi.mp (hall r e rfl hs he)⟩
          · exact fun r' _ _ => ⟨rfl,by simp⟩
        · rintro ⟨hrep,-⟩ r' e' hr' _ _
          cases hr'
          exact hi.mpr (hrep r e.result rfl rfl).2
      · rw [hx]
        constructor
        · intro _
          constructor
          · simp
          · intro r' hr' hused
            cases hr'
            rcases hused with hused | hused
            · rw [hn] at hused
              cases hused
            · exact absurd hused hin
        · intro _ r' e hr' hs _
          cases hr'
          rw [hn] at hs
          cases hs

theorem advance_guard (outcome : RunOutcome) {l : Log} (h : Inv l) (c : Step) :
    Honest l c ↔ Replays outcome l c ∧ Refuses outcome l c := by
  obtain ⟨s,answers⟩ := l
  cases c with
  | prepare request => exact went_guard h (by simp) (prepare_went s)
  | cancel request confirm =>
    exact went_guard h (by simp) (answered_went (by simp)
      (fun r record hop hrec => cancel_fresh hop hrec confirm))
  | handoff request =>
    exact went_guard h (by simp) (answered_went (by simp)
      (fun r record hop hrec => handoff_fresh hop hrec))
  | cleanup request succeed =>
    exact went_guard h (by simp) (answered_went (by simp)
      (fun r record hop hrec => cleanup_fresh hop hrec succeed))
  | begin t request =>
    apply guard_idle outcome rfl
    · intro _
      simp only [step]
      cases s.threads t <;> cases executeChecks s.runtime request <;> rfl
    · intro result
      simp only [step]
      cases s.threads t <;> cases executeChecks s.runtime request <;> simp
    · intro _ result
      simp only [step]
      cases s.threads t <;> cases executeChecks s.runtime request <;> simp
  | reserve t => exact reserve_guard outcome h t
  | dispatch t =>
    apply guard_idle outcome rfl
    · exact fun ha => by cases ha
    · intro result
      simp only [step]
      cases ht : s.threads t with
      | none => simp
      | some p =>
        cases p with
        | checked r => simp
        | ending r => simp
        | reserved r =>
          dsimp only
          have hx : (∃ code, executeDispatch outcome s.runtime r = (s.runtime,.raised code)) ∨ _ :=
            executeDispatch_cases outcome (h.threaded.reserved t r ht).1
          rcases hx with ⟨code,hx⟩ | ⟨rt',result',hx,-⟩
          · simp [hx]
          · simp [hx]
    · exact fun ha => by cases ha
  | release t =>
    apply guard_idle outcome rfl
    · exact fun ha => by cases ha
    · intro result
      simp only [step]
      cases s.threads t with
      | none => simp
      | some p => cases p <;> simp
    · exact fun ha => by cases ha

/-! ## Runs -/

/-- **Replay is bound to the body** in a run exactly if its calls are honest: what the table
answers was given to a call with the same operation, key and fingerprint, and changes
nothing; other calls with a key that is stored or in flight are refused and change nothing.
In every run at most one execution is dispatched. -/
theorem replay_bound_iff (outcome : RunOutcome) (steps : List Step) :
    (EachStep (advance outcome) Honest Log.start steps ↔
      EachStep (advance outcome) (fun l c => Replays outcome l c ∧ Refuses outcome l c)
        Log.start steps) ∧
    EachState (advance outcome) (fun l => dispatches l.system.runtime = executions l.answers ∧
      executions l.answers ≤ 1) Log.start steps := by
  have hinv : EachState (advance outcome) Inv Log.start steps := by
    apply eachState
    · exact fun l c h => advance_inv outcome h c
    · exact start_inv
  have hguard : EachStep (advance outcome) Honest Log.start steps ↔
      EachState (advance outcome) Inv Log.start steps ∧
        EachStep (advance outcome) (fun l c => Replays outcome l c ∧ Refuses outcome l c)
          Log.start steps := by
    apply guarded_iff
    · intro l c h
      rw [advance_guard outcome h c]
      exact (and_iff_right (advance_inv outcome h c)).symm
    · exact start_inv
  constructor
  · rw [hguard]
    exact and_iff_right hinv
  · intro before hb
    have h := (hinv before hb).recorded
    apply And.intro h.count.symm
    rw [h.count]
    exact h.once

/-! ## A claim that is not the body's own -/

/-- A `prepare` that claims the fingerprint of the one with the root "a". -/
def samplePrepare (root : String) : Json :=
  .obj [("schema_version",.str SCHEMA_VERSION),("operation",.str "prepare"),
    ("lineage",.obj [("run_id",.str "r"),("task_id",.str "t"),("attempt_id",.str "a"),
      ("session_handle_id",.null),("workspace_id",.str "w")]),
    ("owner",.str "o"),("expected_generation",.int 0),("idempotency_key",.str "k"),
    ("request_fingerprint",
      .str "sha256:1089e811fa2bc014a5b0ae31779820a44f33b216102afcbdab9133df859e0edc"),
    ("workspace",.obj [("workspace_id",.str "w"),("root_ref",.str root),
      ("isolation",.str "dedicated"),("cleanup_policy",.str "always")])]

theorem fields_of_validateEnvelope {o : Obj} (h : validateEnvelope op (.obj o) = .ok r) :
    r = ⟨op,o,r.owner,r.generation,r.key,r.claimed⟩ := by
  obtain ⟨_,-,h⟩ := ok_of_bind h
  obtain ⟨_,-,h⟩ := ok_of_bind h
  obtain ⟨_,-,h⟩ := ok_of_bind h
  obtain ⟨_,-,h⟩ := ok_of_bind h
  obtain ⟨_,-,h⟩ := ok_of_bind h
  obtain ⟨_,-,h⟩ := ok_of_bind h
  obtain ⟨_,-,h⟩ := ok_of_bind h
  obtain ⟨_,-,h⟩ := ok_of_bind h
  cases h
  rfl

theorem enter_ok {derived : String} (hr : validateEnvelope op request = .ok r)
    (hd : canonicalRequestFingerprint r.body = .ok derived)
    (hc : r.claimed = derived ∨ (stored rt r.slot).isSome) : enter rt op request = .ok r := by
  have hv : validateRequestFingerprint rt r = .ok () := by
    rw [validateRequestFingerprint,hd]
    apply require_ok.mpr
    rw [Bool.or_eq_true,decide_eq_true_eq]
    exact hc
  rw [enter,hr]
  show (validateRequestFingerprint rt r >>= fun _ => .ok r) = _
  rw [hv]
  rfl

theorem prepare_first (h : rt.record = none) (he : enter rt .prepare request = .ok r) :
    prepare rt request = prepareFirst rt r := by
  rw [prepare,he]
  exact if_pos (by rw [h]; rfl)

theorem runtime_prepare (outcome : RunOutcome) (l : Log) :
    (advance outcome l (.prepare request)).system.runtime =
      (prepare l.system.runtime request).1 := rfl

/-- The fingerprint, worked out from characters. -/
theorem canonicalRequestFingerprint_chars (o : Obj) : canonicalRequestFingerprint o =
    (redacted 0 (.obj (o.without ["request_fingerprint"]))).map (fun body =>
      "sha256:" ++ String.ofList (Sha256.hexdigest
        (("pd-fleet-hermes-adapter:v0\x00request\x00".toList ++ dumpsChars body).flatMap
          String.utf8EncodeChar))) := by
  rw [canonicalRequestFingerprint]
  cases redacted 0 (.obj (o.without ["request_fingerprint"])) with
  | error code => rfl
  | ok body =>
    have hchars : ("pd-fleet-hermes-adapter:v0\x00request\x00" ++ dumps body).toList =
        "pd-fleet-hermes-adapter:v0\x00request\x00".toList ++ dumpsChars body := by
      rw [String.toList_append,toList_dumps]
    exact congrArg (fun d => Except.ok ("sha256:" ++ d)) (sha256Hex_chars hchars)

theorem eq_ok_iff {ε α : Type} {y : Except ε α} {a : α} : y.toOption = some a ↔ y = .ok a := by
  cases y <;> simp [Except.toOption]

def sampleClaim : String :=
  "sha256:1089e811fa2bc014a5b0ae31779820a44f33b216102afcbdab9133df859e0edc"

/-- What is read of the request with a root. -/
def sampleRequest (root : String) : Request where
  operation := .prepare
  body := [("schema_version",.str SCHEMA_VERSION),("operation",.str "prepare"),
    ("lineage",.obj [("run_id",.str "r"),("task_id",.str "t"),("attempt_id",.str "a"),
      ("session_handle_id",.null),("workspace_id",.str "w")]),
    ("owner",.str "o"),("expected_generation",.int 0),("idempotency_key",.str "k"),
    ("request_fingerprint",.str sampleClaim),
    ("workspace",.obj [("workspace_id",.str "w"),("root_ref",.str root),
      ("isolation",.str "dedicated"),("cleanup_policy",.str "always")])]
  owner := "o"
  generation := 0
  key := "k"
  claimed := sampleClaim

theorem sample_read {root : String}
    (h : (validateEnvelope .prepare (samplePrepare root)).toOption.map (fun r =>
      (r.owner,r.generation,r.key,r.claimed)) = some ("o",0,"k",sampleClaim)) :
    validateEnvelope .prepare (samplePrepare root) = .ok (sampleRequest root) := by
  cases hr : validateEnvelope .prepare (samplePrepare root) with
  | error code =>
    rw [hr] at h
    cases h
  | ok r =>
    rw [hr] at h
    have hfields : (r.owner,r.generation,r.key,r.claimed) = ("o",(0 : ℤ),"k",sampleClaim) :=
      Option.some.inj h
    simp only [Prod.mk.injEq] at hfields
    obtain ⟨howner,hgeneration,hkey,hclaimed⟩ := hfields
    rw [fields_of_validateEnvelope hr,howner,hgeneration,hkey,hclaimed]
    rfl

theorem sample_fingerprint_first :
    canonicalRequestFingerprint (sampleRequest "a").body = .ok sampleClaim := by
  rw [← eq_ok_iff,canonicalRequestFingerprint_chars]
  decide +kernel

theorem sample_fingerprint_second : canonicalRequestFingerprint (sampleRequest "b").body =
    .ok "sha256:e4794b11d49e2fa7532780362c6fbab3513868da9468122e7da83fae48fe5446" := by
  rw [← eq_ok_iff,canonicalRequestFingerprint_chars]
  decide +kernel

/-- The runtime after the first call. -/
def sampleRuntime : Runtime := (prepareFirst System.start.runtime (sampleRequest "a")).1

theorem sample_prepared :
    (advance .succeeded Log.start (.prepare (samplePrepare "a"))).system.runtime =
      sampleRuntime := by
  have hr : validateEnvelope .prepare (samplePrepare "a") = .ok (sampleRequest "a") :=
    sample_read (by decide +kernel)
  have he : enter System.start.runtime .prepare (samplePrepare "a") = .ok (sampleRequest "a") :=
    enter_ok hr sample_fingerprint_first (Or.inl rfl)
  rw [runtime_prepare]
  exact congrArg Prod.fst (prepare_first rfl he)

theorem sample_stored :
    (stored sampleRuntime (sampleRequest "b").slot).map Stored.fingerprint = some sampleClaim ∧
      (sampleRuntime.record.isSome && (checkAgain sampleRuntime (sampleRequest "b")).isOk) =
        true := by
  decide +kernel

/-- The second call has another root and claims the fingerprint of the first. -/
theorem other_root_replayed : ¬EachStep (advance .succeeded)
    (fun l c => Replays .succeeded l c ∧ Refuses .succeeded l c) Log.start
    [.prepare (samplePrepare "a"),.prepare (samplePrepare "b")] := by
  intro h
  have hstep := h [.prepare (samplePrepare "a")] (.prepare (samplePrepare "b")) List.prefix_rfl
  have hinv := advance_inv .succeeded start_inv (.prepare (samplePrepare "a"))
  have hhonest := (advance_guard .succeeded hinv (.prepare (samplePrepare "b"))).mpr hstep
  obtain ⟨e,hs,hclaim⟩ := Option.map_eq_some_iff.mp sample_stored.1
  have hr : validateEnvelope .prepare (samplePrepare "b") = .ok (sampleRequest "b") :=
    sample_read (by decide +kernel)
  have he : enter sampleRuntime .prepare (samplePrepare "b") = .ok (sampleRequest "b") :=
    enter_ok hr sample_fingerprint_second (Or.inr (by rw [hs]; rfl))
  have hp : presented (advance .succeeded Log.start (.prepare (samplePrepare "a"))).system
      (.prepare (samplePrepare "b")) = some (sampleRequest "b") := by
    rw [presented,sample_prepared,he]
    show (if _ then _ else _) = _
    rw [if_pos sample_stored.2]
  rw [← sample_prepared] at hs
  have hbody := hhonest (sampleRequest "b") e hp hs hclaim
  rw [sample_fingerprint_second] at hbody
  revert hbody
  decide +kernel

end PdFleet.FakeAdapter
