import PdFleet.Parallel

/-!
# Runs of the executor without timeout and cancellation

The loop keeps one invariant: the submitted ids and the pending ones are the jobs in their
order, the collected ids and the live futures are the submitted ones, a pending job means
that all slots are taken, and the results are those of the collected ids. Each future that
is collected makes the rest of the work smaller, in whatever order the futures complete.
-/

set_option autoImplicit false

namespace PdFleet.Parallel

/-! ## What happened to the pool -/

def Event.submittedId : Event → Option String
  | .submitted id => some id
  | _ => none

def Event.finishedId : Event → Option String
  | .submitted _ => none
  | .collected id | .dropped id => some id

def submittedIds (events : List Event) : List String := events.filterMap Event.submittedId

def finishedIds (events : List Event) : List String := events.filterMap Event.finishedId

/-- The submissions that were neither collected nor dropped. -/
def outstanding (events : List Event) : ℕ :=
  (submittedIds events).length-(finishedIds events).length

/-- Nothing else than completed futures ends a wait for ever. -/
def Environment.Completes (W : Environment) : Prop :=
  ∀ n fs, fs ≠ [] → ∃ m ≥ n, W.done m fs ≠ []

theorem submittedIds_submitted (events : List Event) (id : String) :
    submittedIds (events++[.submitted id]) = submittedIds events++[id] := by
  simp [submittedIds,Event.submittedId]

theorem submittedIds_collected (events : List Event) (id : String) :
    submittedIds (events++[.collected id]) = submittedIds events := by
  simp [submittedIds,Event.submittedId]

theorem finishedIds_submitted (events : List Event) (id : String) :
    finishedIds (events++[.submitted id]) = finishedIds events := by
  simp [finishedIds,Event.finishedId]

theorem finishedIds_collected (events : List Event) (id : String) :
    finishedIds (events++[.collected id]) = finishedIds events++[id] := by
  simp [finishedIds,Event.finishedId]

/-- At most `k` submissions are outstanding at any time. -/
def Bounded (k : ℕ) (events : List Event) : Prop :=
  ∀ before, before <+: events → outstanding before ≤ k

theorem bounded_nil (k : ℕ) : Bounded k [] := by
  intro before h
  rw [List.prefix_nil.mp h]
  exact Nat.zero_le k

theorem bounded_append {k : ℕ} {events : List Event} {e : Event} (h : Bounded k events)
    (he : outstanding (events++[e]) ≤ k) : Bounded k (events++[e]) := by
  intro before hp
  by_cases hb : before = events++[e]
  · rw [hb]
    exact he
  · exact h before ((List.prefix_concat_iff.mp hp).resolve_left hb)

section

variable {α β : Type}

/-! ## The invariant -/

/-- The ids of the tasks that can be copied. -/
def jobs (P : Program α β) (entries : List (String × Task α)) : List String :=
  (orderedIds entries).filter (fun id => (copied P entries id).isSome)

/-- The result of a task, whichever tasks run beside it. -/
def resultOf (E : Executor) (P : Program α β) (entries : List (String × Task α)) (id : String) :
    TaskResult β :=
  match copied P entries id with
  | none => failedResult id
  | some t => outcomeResult E P id (P.runner t)

structure Kept (E : Executor) (P : Program α β) (entries : List (String × Task α))
    (st : State β) : Prop where
  running : st.cancelled = false
  ontime : st.timedOut = false
  unfenced : st.fenced = false
  order : submittedIds st.events++st.pending = jobs P entries
  live : (finishedIds st.events++st.futures.map Prod.snd).Perm (submittedIds st.events)
  numbers : (st.futures.map Prod.fst).Nodup
  fresh : ∀ k ∈ st.futures.map Prod.fst, k < st.submissions
  results : ∀ id, st.results id =
    if id ∈ finishedIds st.events ∨ (copied P entries id).isNone then
      some (resultOf E P entries id)
    else none
  bounded : Bounded E.maxWorkers st.events

/-- A pending job waits for a slot. -/
def Full (E : Executor) (st : State β) : Prop :=
  st.pending ≠ [] → st.futures.length = E.maxWorkers

def rest (st : State β) : ℕ := st.pending.length+st.futures.length

variable {E : Executor} {P : Program α β} {entries : List (String × Task α)} {W : Environment}
  {st : State β}

theorem Kept.outstanding_eq (h : Kept E P entries st) :
    outstanding st.events = st.futures.length := by
  have hl := h.live.length_eq
  simp only [List.length_append,List.length_map] at hl
  simp only [outstanding]
  omega

theorem Kept.slots (h : Kept E P entries st) : st.futures.length ≤ E.maxWorkers := by
  rw [← h.outstanding_eq]
  exact h.bounded st.events List.prefix_rfl

theorem Kept.finished_le (h : Kept E P entries st) :
    (finishedIds st.events).length ≤ (submittedIds st.events).length := by
  have hl := h.live.length_eq
  simp only [List.length_append,List.length_map] at hl
  omega

theorem Kept.submitted_job (h : Kept E P entries st) {id : String}
    (hid : id ∈ submittedIds st.events) : id ∈ jobs P entries := by
  rw [← h.order]
  exact List.mem_append_left _ hid

theorem isSome_of_mem_jobs {id : String} (h : id ∈ jobs P entries) :
    (copied P entries id).isSome = true :=
  (List.mem_filter.mp h).2

/-! ## Submitting -/

theorem submitOne_of_cons {id : String} {ids : List String} (h : st.pending = id :: ids) :
    submitOne st = { st with
      pending := ids
      futures := st.futures++[(st.submissions,id)]
      submissions := st.submissions+1
      events := st.events++[.submitted id] } := by
  simp only [submitOne,h]

theorem submitOne_of_nil (h : st.pending = []) : submitOne st = st := by
  simp only [submitOne,h]

theorem submitOne_kept (h : Kept E P entries st) (hs : st.futures.length < E.maxWorkers) :
    Kept E P entries (submitOne st) := by
  cases hp : st.pending with
  | nil =>
    rw [submitOne_of_nil hp]
    exact h
  | cons id ids =>
    rw [submitOne_of_cons hp]
    have hlen := h.outstanding_eq
    have hle := h.finished_le
    constructor
    · exact h.running
    · exact h.ontime
    · exact h.unfenced
    · simpa [submittedIds_submitted,hp] using h.order
    · simp only [submittedIds_submitted,finishedIds_submitted,List.map_append,← List.append_assoc]
      exact h.live.append_right _
    · simp only [List.map_append,List.map_cons,List.map_nil]
      apply h.numbers.append (List.nodup_singleton st.submissions)
      intro k hk hk'
      have hlt := h.fresh k hk
      rw [List.mem_singleton.mp hk'] at hlt
      omega
    · intro k hk
      simp only [List.map_append,List.map_cons,List.map_nil,List.mem_append,
        List.mem_singleton] at hk
      rcases hk with hk | hk
      · exact Nat.lt_succ_of_lt (h.fresh k hk)
      · rw [hk]
        exact Nat.lt_succ_self st.submissions
    · intro i
      simpa only [finishedIds_submitted] using h.results i
    · apply bounded_append h.bounded
      simp only [outstanding,submittedIds_submitted,finishedIds_submitted,
        List.length_append,List.length_singleton] at hlen ⊢
      omega

theorem submitOne_rest : rest (submitOne st) = rest st := by
  cases hp : st.pending with
  | nil => rw [submitOne_of_nil hp]
  | cons id ids =>
    rw [submitOne_of_cons hp]
    simp only [rest,hp,List.length_append,List.length_cons,List.length_nil]
    omega

theorem submitOne_futures : st.futures.map Prod.fst ⊆ (submitOne st).futures.map Prod.fst := by
  cases hp : st.pending with
  | nil =>
    rw [submitOne_of_nil hp]
    exact List.Subset.refl _
  | cons id ids =>
    rw [submitOne_of_cons hp]
    simp

theorem submitOne_full (h : st.pending ≠ [] → st.futures.length+1 = E.maxWorkers) :
    Full E (submitOne st) := by
  cases hp : st.pending with
  | nil =>
    rw [submitOne_of_nil hp]
    exact fun hn => absurd hp hn
  | cons id ids =>
    rw [submitOne_of_cons hp]
    intro _
    simpa using h (by simp [hp])

theorem submitMany_kept (n : ℕ) (h : Kept E P entries st)
    (hs : st.futures.length+n ≤ E.maxWorkers) : Kept E P entries (submitMany n st) := by
  induction n generalizing st with
  | zero => exact h
  | succ n ih =>
    apply ih (submitOne_kept h (by omega))
    cases hp : st.pending with
    | nil =>
      rw [submitOne_of_nil hp]
      omega
    | cons id ids =>
      rw [submitOne_of_cons hp]
      simp only [List.length_append,List.length_singleton]
      omega

theorem submitMany_rest (n : ℕ) : rest (submitMany n st) = rest st := by
  induction n generalizing st with
  | zero => rfl
  | succ n ih => rw [submitMany,ih,submitOne_rest]

theorem submitMany_nil (n : ℕ) (h : st.pending = []) : submitMany n st = st := by
  induction n with
  | zero => rfl
  | succ n ih => rw [submitMany,submitOne_of_nil h,ih]

/-- A job is left over only if each submission took a slot. -/
theorem submitMany_slots (n : ℕ) (h : (submitMany n st).pending ≠ []) :
    (submitMany n st).futures.length = st.futures.length+n := by
  induction n generalizing st with
  | zero => rfl
  | succ n ih =>
    rw [submitMany] at h ⊢
    rw [ih h]
    cases hp : st.pending with
    | nil =>
      rw [submitOne_of_nil hp] at h
      rw [submitMany_nil n hp] at h
      exact absurd hp h
    | cons id ids =>
      rw [submitOne_of_cons hp]
      simp only [List.length_append,List.length_singleton]
      omega

/-! ## Collecting -/

/-- A completed future leaves its slot. -/
def taken (E : Executor) (P : Program α β) (entries : List (String × Task α)) (st : State β)
    (k : ℕ) (id : String) : State β :=
  { st with
    futures := st.futures.filter (fun f => f.1 ≠ k)
    results := Function.update st.results id (some
      (outcomeResult E P id (((copied P entries id).map P.runner).getD .raises)))
    events := st.events++[.collected id] }

theorem collect_of_lookup {k : ℕ} {id : String} (h : Kept E P entries st)
    (hk : st.futures.lookup k = some id) :
    collect E P entries W none st k = submitOne (taken E P entries st k id) := by
  simp [collect,hk,intime,taken,h.running]

theorem lookup_isSome {κ γ : Type} [BEq κ] [LawfulBEq κ] {l : List (κ × γ)} {k : κ} :
    (l.lookup k).isSome = true ↔ k ∈ l.map Prod.fst := by
  rw [List.lookup_isSome_iff,List.mem_map]
  constructor
  · rintro ⟨f,hf,hk⟩
    exact ⟨f,hf,(eq_of_beq hk).symm⟩
  · rintro ⟨f,hf,rfl⟩
    exact ⟨f,hf,beq_self_eq_true f.1⟩

/-- The future of a number, among the others. -/
theorem split_futures {fs : Futures} {k : ℕ} (hn : (fs.map Prod.fst).Nodup)
    (hk : k ∈ fs.map Prod.fst) :
    ∃ id before after, fs = before++(k,id) :: after ∧ fs.lookup k = some id ∧
      fs.filter (fun f => f.1 ≠ k) = before++after := by
  obtain ⟨id,hid⟩ := Option.isSome_iff_exists.mp (lookup_isSome.mpr hk)
  obtain ⟨before,after,rfl,hb⟩ := List.lookup_eq_some_iff.mp hid
  have ha : ∀ f ∈ after, f.1 ≠ k := by
    intro f hf hfk
    rw [List.map_append,List.map_cons] at hn
    apply (List.nodup_cons.mp hn.of_append_right).1
    exact List.mem_map.mpr ⟨f,hf,hfk⟩
  use id, before, after
  constructor
  · rfl
  · constructor
    · exact hid
    · rw [List.filter_append,List.filter_cons_of_neg (by simp)]
      congr 1
      · apply List.filter_eq_self.mpr
        intro f hf
        have hfk := hb f hf
        simp only [bne_iff_ne] at hfk
        simpa using hfk.symm
      · apply List.filter_eq_self.mpr
        intro f hf
        simpa using ha f hf

theorem taken_kept {k : ℕ} {id : String} (h : Kept E P entries st) {before after : Futures}
    (hs : st.futures = before++(k,id) :: after)
    (hf : st.futures.filter (fun f => f.1 ≠ k) = before++after) :
    Kept E P entries (taken E P entries st k id) := by
  have hsub : (before++after).Sublist st.futures := by
    rw [hs]
    exact (List.sublist_cons_self (k,id) after).append_left before
  have hp : (id :: (before++after).map Prod.snd).Perm (st.futures.map Prod.snd) := by
    rw [hs,List.map_append,List.map_append,List.map_cons]
    exact List.perm_middle.symm
  have hjob : id ∈ jobs P entries := by
    apply h.submitted_job
    apply h.live.mem_iff.mp
    apply List.mem_append_right
    exact hp.mem_iff.mp List.mem_cons_self
  obtain ⟨t,ht⟩ := Option.isSome_iff_exists.mp (isSome_of_mem_jobs hjob)
  constructor
  · exact h.running
  · exact h.ontime
  · exact h.unfenced
  · simpa [taken,submittedIds_collected] using h.order
  · simp only [taken,submittedIds_collected,finishedIds_collected,hf]
    rw [List.append_assoc,List.singleton_append]
    exact (hp.append_left _).trans h.live
  · simp only [taken,hf]
    exact h.numbers.sublist (hsub.map Prod.fst)
  · intro i hi
    simp only [taken,hf] at hi
    exact h.fresh i ((hsub.map Prod.fst).subset hi)
  · intro i
    simp only [taken,finishedIds_collected]
    by_cases hi : i = id
    · subst hi
      simp [resultOf,ht]
    · simp [hi,h.results i]
  · apply bounded_append h.bounded
    have hb := h.bounded st.events List.prefix_rfl
    simp only [outstanding,submittedIds_collected,finishedIds_collected,
      List.length_append,List.length_singleton] at hb ⊢
    omega

/-- A step of the loop over the completed futures: the slot is taken again. -/
theorem collect_kept {k : ℕ} (h : Kept E P entries st) (hfull : Full E st)
    (hk : k ∈ st.futures.map Prod.fst) :
    Kept E P entries (collect E P entries W none st k) ∧
      Full E (collect E P entries W none st k) ∧
      rest (collect E P entries W none st k)+1 = rest st ∧
      ∀ i ∈ st.futures.map Prod.fst, i ≠ k →
        i ∈ (collect E P entries W none st k).futures.map Prod.fst := by
  obtain ⟨id,before,after,hs,hl,hf⟩ := split_futures h.numbers hk
  have hlen : (taken E P entries st k id).futures.length+1 = st.futures.length := by
    simp only [taken,hf]
    rw [hs,List.length_append,List.length_append,List.length_cons]
    omega
  rw [collect_of_lookup h hl]
  constructor
  · apply submitOne_kept (taken_kept h hs hf)
    have hm := h.slots
    omega
  · constructor
    · apply submitOne_full
      intro hp
      rw [hlen]
      exact hfull hp
    · constructor
      · rw [submitOne_rest,rest,rest,← hlen]
        simp only [taken]
        omega
      · intro i hi hik
        apply submitOne_futures
        obtain ⟨f,hf',rfl⟩ := List.mem_map.mp hi
        exact List.mem_map_of_mem (List.mem_filter.mpr ⟨hf',by simpa using hik⟩)

theorem collects_kept {ks : List ℕ} (hn : ks.Nodup) (h : Kept E P entries st) (hfull : Full E st)
    (hk : ∀ k ∈ ks, k ∈ st.futures.map Prod.fst) :
    Kept E P entries (ks.foldl (collect E P entries W none) st) ∧
      Full E (ks.foldl (collect E P entries W none) st) ∧
      rest (ks.foldl (collect E P entries W none) st)+ks.length = rest st := by
  induction ks generalizing st with
  | nil => exact ⟨h,hfull,rfl⟩
  | cons k ks ih =>
    obtain ⟨hkept,hf,hr,hstay⟩ := collect_kept (W := W) h hfull (hk k List.mem_cons_self)
    have hnd := List.nodup_cons.mp hn
    have hks : ∀ i ∈ ks, i ∈ (collect E P entries W none st k).futures.map Prod.fst := by
      intro i hi
      apply hstay i (hk i (List.mem_cons_of_mem k hi))
      intro he
      exact hnd.1 (he ▸ hi)
    obtain ⟨h1,h2,h3⟩ := ih hnd.2 hkept hf hks
    rw [List.foldl_cons,List.length_cons]
    exact ⟨h1,h2,by omega⟩

/-! ## The loop -/

/-- The state with which a turn waits. -/
def asked (st : State β) : State β := { st with polls := st.polls+1 }

theorem asked_kept (h : Kept E P entries st) : Kept E P entries (asked st) :=
  ⟨h.running,h.ontime,h.unfenced,h.order,h.live,h.numbers,h.fresh,h.results,h.bounded⟩

theorem turn_eq (hW : ∀ n, W.cancelled n = false) (h : Kept E P entries st) :
    turn E P entries W none st =
      (W.done st.polls st.futures).foldl (collect E P entries W none) (asked st) := by
  have ha : ({ st with
      cancelled := st.cancelled || W.cancelled (st.polls+2)
      polls := st.polls+1 } : State β) = asked st := by
    simp only [hW,h.running,Bool.or_false,asked]
  have hc : (asked st).cancelled = false := h.running
  have hp : (asked st).polls-1 = st.polls := Nat.add_sub_cancel st.polls 1
  have hf : (asked st).futures = st.futures := rfl
  rw [turn,ha]
  simp only [intime,hc,hp,hf,Bool.false_eq_true,if_false,Bool.not_true,if_true]
  cases W.done st.polls st.futures with
  | nil => rfl
  | cons k ks => rfl

/-- A turn that collects a future makes the rest of the work smaller. -/
theorem turn_progress (hW : ∀ n, W.cancelled n = false) (hd : W.done st.polls st.futures ≠ [])
    (h : Kept E P entries st) (hfull : Full E st) :
    Kept E P entries (turn E P entries W none st) ∧ Full E (turn E P entries W none st) ∧
      rest (turn E P entries W none st) < rest st := by
  obtain ⟨h1,h2,h3⟩ := collects_kept (W := W) (W.done_nodup st.polls st.futures) (asked_kept h)
    hfull (W.done_mem st.polls st.futures)
  have hpos := List.length_pos_iff.mpr hd
  have hr : rest (asked st) = rest st := rfl
  rw [turn_eq hW h]
  exact ⟨h1,h2,by omega⟩

/-- The loop comes from `st` to a state with less work. -/
def Advances (E : Executor) (P : Program α β) (entries : List (String × Task α))
    (W : Environment) (st : State β) : Prop :=
  ∃ n st', Kept E P entries st' ∧ Full E st' ∧ rest st' < rest st ∧
    ∀ fuel, loop E P entries W none (fuel+n) st = loop E P entries W none fuel st'

theorem advances_now (hW : ∀ n, W.cancelled n = false) (hd : W.done st.polls st.futures ≠ [])
    (h : Kept E P entries st) (hfull : Full E st) (hf : st.futures ≠ []) :
    Advances E P entries W st := by
  obtain ⟨h1,h2,h3⟩ := turn_progress hW hd h hfull
  use 1, turn E P entries W none st
  have hl : ∀ fuel, loop E P entries W none (fuel+1) st =
      loop E P entries W none fuel (turn E P entries W none st) := by
    intro fuel
    rw [loop,if_neg hf]
  exact ⟨h1,h2,h3,hl⟩

/-- Some turn collects a future, and the turns before it only ask. -/
theorem loop_advances (hW : ∀ n, W.cancelled n = false) (j : ℕ)
    (hd : W.done (st.polls+j) st.futures ≠ []) (h : Kept E P entries st) (hfull : Full E st)
    (hf : st.futures ≠ []) : Advances E P entries W st := by
  induction j generalizing st with
  | zero => exact advances_now hW hd h hfull hf
  | succ j ih =>
    by_cases hnow : W.done st.polls st.futures = []
    · have ht : turn E P entries W none st = asked st := by
        rw [turn_eq hW h,hnow]
        rfl
      have hd' : W.done ((asked st).polls+j) (asked st).futures ≠ [] := by
        simp only [asked]
        rwa [Nat.add_assoc,Nat.add_comm 1 j]
      obtain ⟨n,st',h1,h2,h3,h4⟩ := ih hd' (asked_kept h) hfull hf
      use n+1, st'
      have hl : ∀ fuel, loop E P entries W none (fuel+(n+1)) st =
          loop E P entries W none fuel st' := by
        intro fuel
        rw [← Nat.add_assoc,loop,if_neg hf,ht,h4]
      exact ⟨h1,h2,h3,hl⟩
    · exact advances_now hW hnow h hfull hf

/-- The loop ends, without live futures. -/
theorem loop_ends (hW : ∀ n, W.cancelled n = false) (hc : W.Completes) (h : Kept E P entries st)
    (hfull : Full E st) :
    ∃ n st', Kept E P entries st' ∧ Full E st' ∧ st'.futures = [] ∧
      ∀ fuel ≥ n, loop E P entries W none fuel st = some st' := by
  induction hr : rest st using Nat.strong_induction_on generalizing st with
  | h r ih =>
    by_cases hf : st.futures = []
    · use 1, st
      have hl : ∀ fuel ≥ 1, loop E P entries W none fuel st = some st := by
        intro fuel hfuel
        obtain ⟨k,rfl⟩ := Nat.exists_eq_add_of_le' hfuel
        rw [loop,if_pos hf]
      exact ⟨h,hfull,hf,hl⟩
    · obtain ⟨m,hm,hd⟩ := hc st.polls st.futures hf
      obtain ⟨j,rfl⟩ := Nat.exists_eq_add_of_le hm
      obtain ⟨n,next,h1,h2,h3,h4⟩ := loop_advances hW j hd h hfull hf
      obtain ⟨n',st',h5,h6,h7,h8⟩ := ih (rest next) (by omega) h1 h2 rfl
      use n'+n, st'
      have hl : ∀ fuel ≥ n'+n, loop E P entries W none fuel st = some st' := by
        intro fuel hfuel
        obtain ⟨k,rfl⟩ := Nat.exists_eq_add_of_le hfuel
        rw [show n'+n+k = (n'+k)+n by omega,h4]
        exact h8 (n'+k) (Nat.le_add_right n' k)
      exact ⟨h5,h6,h7,hl⟩

/-! ## The whole run -/

/-- The state before the first submission. -/
def unsubmitted (P : Program α β) (entries : List (String × Task α)) (readings : ℕ) : State β where
  pending := jobs P entries
  futures := []
  results := fun id => if (copied P entries id).isNone then some (failedResult id) else none
  cancelled := false
  timedOut := false
  fenced := false
  submissions := 0
  polls := 0
  readings := readings
  events := []

theorem unsubmitted_kept (readings : ℕ) :
    Kept E P entries (unsubmitted P entries readings) := by
  constructor
  · rfl
  · rfl
  · rfl
  · exact List.nil_append _
  · exact List.Perm.refl _
  · exact List.nodup_nil
  · intro k hk
    exact absurd hk List.not_mem_nil
  · intro id
    cases hc : copied P entries id <;> simp [unsubmitted,finishedIds,resultOf,hc]
  · exact bounded_nil E.maxWorkers

theorem startState_kept (readings : ℕ) :
    Kept E P entries (startState E P entries false readings) ∧
      Full E (startState E P entries false readings) := by
  have hs : startState E P entries false readings =
      submitMany (min E.maxWorkers (jobs P entries).length) (unsubmitted P entries readings) := rfl
  have hlen : (unsubmitted P entries readings).futures.length = 0 := rfl
  rw [hs]
  constructor
  · apply submitMany_kept
    · exact unsubmitted_kept readings
    · omega
  · intro hp
    have hslots := submitMany_slots _ hp
    have hrest : rest (submitMany (min E.maxWorkers (jobs P entries).length)
        (unsubmitted P entries readings)) = rest (unsubmitted P entries readings) :=
      submitMany_rest (min E.maxWorkers (jobs P entries).length)
    have hstart : rest (unsubmitted P entries readings) = (jobs P entries).length := rfl
    have hpos := List.length_pos_iff.mpr hp
    rw [rest] at hrest
    omega

/-- Without live futures every job was submitted and its result is there. -/
theorem Kept.ended (h : Kept E P entries st) (hfull : Full E st) (hf : st.futures = []) :
    submittedIds st.events = jobs P entries ∧
      ∀ id ∈ orderedIds entries, st.results id = some (resultOf E P entries id) := by
  have hp : st.pending = [] := by
    by_contra hp
    have hs := hfull hp
    rw [hf,List.length_nil] at hs
    exact absurd E.workers_pos (by omega)
  have hsub : submittedIds st.events = jobs P entries := by
    rw [← h.order,hp,List.append_nil]
  constructor
  · exact hsub
  · intro id hid
    rw [h.results id]
    apply if_pos
    cases hc : (copied P entries id).isSome with
    | true =>
      left
      have hl := h.live
      rw [hf,List.map_nil,List.append_nil,hsub] at hl
      exact hl.mem_iff.mpr (List.mem_filter.mpr ⟨hid,hc⟩)
    | false =>
      right
      simpa using hc

/-- The first task with an id. -/
def firstTask (tasks : List (Task α)) (id : String) : Option (Task α) :=
  tasks.find? (fun t => taskId t = some id)

/-- What a task gives, by its copy and its runner's outcome. -/
def expected (E : Executor) (P : Program α β) (tasks : List (Task α)) (id : String) :
    TaskResult β :=
  match (firstTask tasks id).bind P.copy with
  | none => failedResult id
  | some t => outcomeResult E P id (P.runner t)

/-- The distinct ids in ascending order. -/
def distinctIds (tasks : List (Task α)) : List String :=
  (tasks.filterMap taskId).toFinset.sort

theorem firstTask_cons_self {t : Task α} {ts : List (Task α)} {id : String}
    (h : taskId t = some id) : firstTask (t :: ts) id = some t := by
  simp [firstTask,h]

theorem firstTask_cons_ne {t : Task α} {ts : List (Task α)} {id i : String}
    (h : taskId t = some id) (hi : i ≠ id) : firstTask (t :: ts) i = firstTask ts i := by
  simp [firstTask,h,hi.symm]

theorem firstTask_isSome {tasks : List (Task α)} {id : String} :
    (firstTask tasks id).isSome ↔ id ∈ tasks.filterMap taskId := by
  simp [firstTask]

theorem entriesFrom_error {tasks : List (Task α)} (h : ∃ t ∈ tasks, taskId t = none)
    (entries : List (String × Task α)) :
    entriesFrom entries tasks = .error "tasks must have non-empty string IDs" := by
  induction tasks generalizing entries with
  | nil =>
    obtain ⟨t,ht,-⟩ := h
    exact absurd ht List.not_mem_nil
  | cons t ts ih =>
    rw [entriesFrom]
    cases ht : taskId t with
    | none => rfl
    | some id =>
      apply ih
      obtain ⟨u,hu,hnone⟩ := h
      rcases List.mem_cons.mp hu with rfl | hu
      · rw [ht] at hnone
        exact absurd hnone (by simp)
      · exact ⟨u,hu,hnone⟩

/-- The entries hold each id once, with the first of its tasks. -/
theorem entriesFrom_ok {tasks : List (Task α)} (h : ∀ t ∈ tasks, taskId t ≠ none)
    (entries : List (String × Task α)) (hn : (entries.map Prod.fst).Nodup) :
    ∃ all, entriesFrom entries tasks = .ok all ∧ (all.map Prod.fst).Nodup ∧
      ∀ id, all.lookup id = (entries.lookup id).or (firstTask tasks id) := by
  induction tasks generalizing entries with
  | nil =>
    use entries
    exact ⟨rfl,hn,fun id => by simp [firstTask]⟩
  | cons t ts ih =>
    have hts : ∀ u ∈ ts, taskId u ≠ none := fun u hu => h u (List.mem_cons_of_mem t hu)
    obtain ⟨id,ht⟩ := Option.ne_none_iff_exists'.mp (h t List.mem_cons_self)
    rw [entriesFrom,ht]
    by_cases hid : id ∈ entries.map Prod.fst
    · obtain ⟨all,h1,h2,h3⟩ := ih hts entries hn
      use all
      have hl : ∀ i, all.lookup i = (entries.lookup i).or (firstTask (t :: ts) i) := by
        intro i
        rw [h3 i]
        by_cases hi : i = id
        · have hsome : (entries.lookup i).isSome = true := lookup_isSome.mpr (hi ▸ hid)
          obtain ⟨u,hu⟩ := Option.isSome_iff_exists.mp hsome
          rw [hu,Option.some_or,Option.some_or]
        · rw [firstTask_cons_ne ht hi]
      simp only [if_pos hid]
      exact ⟨h1,h2,hl⟩
    · have hn' : ((entries++[(id,t)]).map Prod.fst).Nodup := by
        rw [List.map_append]
        apply hn.append (List.nodup_singleton id)
        intro i hi hi'
        rw [List.mem_singleton.mp hi'] at hi
        exact hid hi
      obtain ⟨all,h1,h2,h3⟩ := ih hts (entries++[(id,t)]) hn'
      use all
      have hl : ∀ i, all.lookup i = (entries.lookup i).or (firstTask (t :: ts) i) := by
        intro i
        rw [h3 i,List.lookup_append]
        by_cases hi : i = id
        · rw [hi,List.lookup_cons_self,firstTask_cons_self ht,Option.or_assoc,Option.some_or]
        · have hl : List.lookup i [(id,t)] = none := List.lookup_eq_none_iff.mpr (by simpa using hi)
          rw [firstTask_cons_ne ht hi,hl,Option.or_none]
      simp only [if_neg hid]
      exact ⟨h1,h2,hl⟩

theorem entriesFrom_start {tasks : List (Task α)} (h : ∀ t ∈ tasks, taskId t ≠ none) :
    ∃ entries, entriesFrom [] tasks = .ok entries ∧ orderedIds entries = distinctIds tasks ∧
      (∀ id, entries.lookup id = firstTask tasks id) ∧ (orderedIds entries).Nodup := by
  obtain ⟨entries,h1,h2,h3⟩ := entriesFrom_ok h [] List.nodup_nil
  have hl : ∀ id, entries.lookup id = firstTask tasks id := by
    intro id
    rw [h3 id,List.lookup_nil,Option.none_or]
  have hperm : (orderedIds entries).Perm (entries.map Prod.fst) := List.perm_insertionSort _ _
  have hn : (orderedIds entries).Nodup := hperm.nodup_iff.mpr h2
  have hset : (tasks.filterMap taskId).toFinset = (orderedIds entries).toFinset := by
    ext id
    rw [List.mem_toFinset,List.mem_toFinset,hperm.mem_iff,← lookup_isSome,hl id,firstTask_isSome]
  use entries
  have ho : orderedIds entries = distinctIds tasks := by
    rw [distinctIds,hset]
    symm
    apply (List.toFinset_sort (· ≤ ·) hn).mpr
    exact List.pairwise_insertionSort _ _
  exact ⟨h1,ho,hl,hn⟩

/-- Open and not poisoned, with no timeout and no cancellation, the executor refuses a list
with a bad id; it runs each other list to its end. Then the output is fixed by the tasks,
whatever order the futures complete in; the ids whose first task can be copied are submitted
once each, and never more of them are outstanding than there are workers. -/
theorem output_unscheduled (hopen : E.closed = false) (hclean : E.poisoned = false)
    (hW : ∀ n, W.cancelled n = false) (hc : W.Completes) (tasks : List (Task α)) :
    ((∃ t ∈ tasks, taskId t = none) →
      ∀ fuel, run E P W none tasks fuel =
        some (.raised "tasks must have non-empty string IDs")) ∧
    ((∀ t ∈ tasks, taskId t ≠ none) →
      ∃ n events,
        (∀ fuel ≥ n, run E P W none tasks fuel =
          some (.returned ((distinctIds tasks).map (expected E P tasks)) events false)) ∧
        submittedIds events = (distinctIds tasks).filter
          (fun id => ((firstTask tasks id).bind P.copy).isSome) ∧
        Bounded E.maxWorkers events) := by
  constructor
  · intro hbad fuel
    simp [run,hopen,hclean,entriesFrom_error hbad]
  · intro hgood
    obtain ⟨entries,h1,h2,h3,h4⟩ := entriesFrom_start hgood
    have hcopied : ∀ id, copied P entries id = (firstTask tasks id).bind P.copy := by
      intro id
      rw [copied,h3 id]
    have hresult : ∀ id, resultOf E P entries id = expected E P tasks id := by
      intro id
      rw [resultOf,expected,hcopied id]
    have hjobs : jobs P entries = (distinctIds tasks).filter
        (fun id => ((firstTask tasks id).bind P.copy).isSome) := by
      simp only [jobs,h2,hcopied]
    cases entries with
    | nil =>
      have hids : distinctIds tasks = [] := by
        rw [← h2]
        rfl
      use 0, []
      rw [hids]
      constructor
      · intro fuel _
        simp [run,hopen,hclean,h1]
      · exact ⟨rfl,bounded_nil E.maxWorkers⟩
    | cons e es =>
      have hstart : Kept E P (e :: es) (startState E P (e :: es) false 0) ∧
          Full E (startState E P (e :: es) false 0) := startState_kept 0
      obtain ⟨hkept,hfull⟩ := hstart
      obtain ⟨n,st,h5,h6,h7,h8⟩ := loop_ends hW hc hkept hfull
      obtain ⟨hsub,hres⟩ := h5.ended h6 h7
      have hout : outputOf E P (e :: es) st = (distinctIds tasks).map (expected E P tasks) := by
        rw [outputOf,← h2]
        apply List.map_congr_left
        intro id hid
        rw [hres id hid,hresult id,Option.getD_some]
      use n, st.events
      constructor
      · intro fuel hfuel
        simp [run,hopen,hclean,h1,hW,h8 fuel hfuel,hout,h5.ontime,h5.unfenced]
      · rw [hsub,hjobs]
        exact ⟨rfl,h5.bounded⟩

end

/-- Two workers. -/
def pair : Executor where
  maxWorkers := 2
  maxOutput := 65536
  poisoned := false
  closed := false
  workers_pos := Nat.le_succ 1
  output_pos := by decide

/-- Only texts can be copied, and the task "b" raises. -/
def texts : Program Unit String where
  copy
    | .text s => some (.text s)
    | _ => none
  copyValue v := some v
  runner
    | .text s => if s = "b" then .raises else .value s
    | _ => .raises

/-- The future that was submitted last completes first. -/
def lastFirst : Environment where
  cancelled _ := false
  clock _ := 0
  done _ fs := (fs.getLast?.map Prod.fst).toList
  stubborn _ := false
  done_mem := by
    intro n fs k hk
    simp only [Option.mem_toList,Option.map_eq_some_iff] at hk
    obtain ⟨f,hf,rfl⟩ := hk
    exact List.mem_map_of_mem (List.mem_of_getLast? hf)
  done_nodup := by
    intro n fs
    cases fs.getLast? <;> simp

theorem lastFirst_completes : lastFirst.Completes := by
  intro n fs hfs
  use n
  simp [lastFirst,List.getLast?_eq_some_getLast hfs]

theorem output_unscheduled_lastFirst :
    ∃ n events,
      (∀ fuel ≥ n, run pair texts lastFirst none [.text "b",.object (.str "c") (),.text "a"] fuel =
        some (.returned
          ((distinctIds [.text "b",.object (.str "c") (),.text "a"]).map
            (expected pair texts [.text "b",.object (.str "c") (),.text "a"])) events false)) ∧
      submittedIds events =
        (distinctIds [.text "b",.object (.str "c") (),.text "a"]).filter (fun id =>
          ((firstTask [.text "b",.object (.str "c") (),.text "a"] id).bind texts.copy).isSome) ∧
      Bounded pair.maxWorkers events :=
  (output_unscheduled (E := pair) (P := texts) rfl rfl (fun _ => rfl) lastFirst_completes
    [.text "b",.object (.str "c") (),.text "a"]).2 (by decide)

/-- A task that cannot be copied is never submitted. -/
theorem uncopied_not_submitted :
    run pair texts lastFirst none [.object (.str "c") ()] 1 =
        some (.returned [⟨"c","failed",none,some PARALLEL_ERROR⟩] [] false) ∧
      distinctIds [Task.object (Json.str "c") ()] = ["c"] := by
  constructor
  · rfl
  · simp [distinctIds,taskId,Task.id]

end PdFleet.Parallel
