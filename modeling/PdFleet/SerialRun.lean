import PdFleet.Batch
import PdFleet.Json
import PdFleet.Orchestrator
import PdFleet.Lib.Sweep

/-!
# Serial runs and what they leave

A serial run visits each wave label once. It leaves no task that is ready, whatever the
dispatcher answers, exactly if every chain of waiting tasks meets the visits in its
order. Readiness and the visits read a label in different ways, so this can fail.
-/

set_option autoImplicit false

namespace PdFleet

section

variable {W : Type} [Label W] {T : Tables} {plan : FleetPlan W} {E : Setting W}

/-! ## Tasks and chains -/

/-- The plan itself calls the task done. -/
def Finished (t : TaskSpec W) : Prop := t.status = "completed" ∨ t.status = "skipped"

/-- `t` waits for `u`, as a dependency or as a task of an earlier wave. -/
def Waits (T : Tables) (t u : TaskSpec W) : Prop :=
  u.id ∈ t.dependsOn ∨ (u.waveId T).before (t.waveId T) = true

/-- What a task can start with, but for the tasks that it waits for. -/
structure Able (T : Tables) (plan : FleetPlan W) (E : Setting W) (t : TaskSpec W) : Prop where
  mem : t ∈ plan.tasks
  open_ : t.status = "pending" ∨ t.status = "ready"
  gates : ∀ gate ∈ requiredGates T plan t, gate ∈ E.passed
  agent : agentBlock plan t = false

/-- The task can start, given that what can be executed is completed. -/
inductive Starts (T : Tables) (plan : FleetPlan W) (E : Setting W) : TaskSpec W → Prop
  | intro (t : TaskSpec W) (able : Able T plan E t)
      (free : ∀ u ∈ plan.tasks, Waits T t u → ¬ Finished u → E.obstructed u = false)
      (starts : ∀ u ∈ plan.tasks, Waits T t u → ¬ Finished u → Starts T plan E u) :
      Starts T plan E t

theorem Starts.able {t : TaskSpec W} (h : Starts T plan E t) : Able T plan E t := by
  cases h
  assumption

theorem Starts.waits {t u : TaskSpec W} (h : Starts T plan E t) (hu : u ∈ plan.tasks)
    (hw : Waits T t u) (hf : ¬ Finished u) : Starts T plan E u ∧ E.obstructed u = false := by
  cases h with
  | intro _ able free starts => exact ⟨starts u hu hw hf,free u hu hw hf⟩

/-- The key that a task is visited under. -/
def TaskSpec.key (T : Tables) (t : TaskSpec W) : List Char := waveKey T t.label

/-- A chain of tasks, each of which waits for the next. -/
def Chain (T : Tables) (plan : FleetPlan W) (c : List (TaskSpec W)) : Prop :=
  c.IsChain (fun t u => u ∈ plan.tasks ∧ Waits T t u ∧ ¬ Finished u)

/-- Every chain of waiting tasks up to one that can start meets the visits in its order. -/
def Followed (T : Tables) (plan : FleetPlan W) (E : Setting W)
    (visits : List (List Char)) : Prop :=
  ∀ t c, Starts T plan E t → Chain T plan (t :: c) →
    Sweep.Met (TaskSpec.key T) (t :: c) (visits.map (waveKey T))

/-! ## States -/

abbrev States := String → LifecycleState

def isDone (st : LifecycleState) : Prop := st = .completed ∨ st = .skipped

def isWaiting (st : LifecycleState) : Prop := st = .pending ∨ st = .ready

theorem not_done_of_waiting {st : LifecycleState} (h : isWaiting st) : ¬ isDone st := by
  rintro (rfl | rfl) <;> rcases h with h | h <;> cases h

/-- The id of a task that is done, or that the plan calls done. -/
def TerminalId (plan : FleetPlan W) (f : States) (id : String) : Prop :=
  ∃ u ∈ plan.tasks, u.id = id ∧ (isDone (f id) ∨ Finished u)

/-- The task is ready as `_ready_ids` sees it. -/
structure Can (T : Tables) (plan : FleetPlan W) (E : Setting W) (f : States) (t : TaskSpec W) :
    Prop where
  able : Able T plan E t
  waiting : isWaiting (f t.id)
  deps : ∀ dep ∈ t.dependsOn, TerminalId plan f dep
  barrier : ∀ u ∈ plan.tasks, (u.waveId T).before (t.waveId T) = true →
    TerminalId plan f u.id

omit [Label W] in
theorem mem_withState {s : SerialState} {p : LifecycleState → Bool} {id : String} :
    id ∈ s.withState plan p ↔ (∃ u ∈ plan.tasks, u.id = id) ∧ p (s.states id) = true := by
  simp [SerialState.withState]

omit [Label W] in
theorem mem_terminalIds_done {s : SerialState} {id : String} :
    id ∈ terminalIds plan (s.withState plan (fun st => st = .completed || st = .skipped) ++
      s.withState plan (· = .skipped)) ↔ TerminalId plan s.states id := by
  rw [mem_terminalIds, List.mem_append, mem_withState, mem_withState]
  simp only [Bool.or_eq_true, decide_eq_true_eq]
  constructor
  · rintro ((⟨⟨u,hu,rfl⟩,hs⟩ | ⟨⟨u,hu,rfl⟩,hs⟩) | ⟨u,hu,hf,rfl⟩)
    · exact ⟨u,hu,rfl,Or.inl hs⟩
    · exact ⟨u,hu,rfl,Or.inl (Or.inr hs)⟩
    · exact ⟨u,hu,rfl,Or.inr hf⟩
  · rintro ⟨u,hu,rfl,hd | hf⟩
    · exact Or.inl (Or.inl ⟨⟨u,hu,rfl⟩,hd⟩)
    · exact Or.inr ⟨u,hu,hf,rfl⟩

theorem readyIds_ok {ids : List String} (hv : validatePlan T plan = .ok ids) (s : SerialState) :
    ∃ ready, Orchestrator.readyIds T plan E s = .ok ready := by
  obtain ⟨ready,hr⟩ := computeReadyTasks_ok hv
    (s.withState plan (fun st => st = .completed || st = .skipped))
    (s.withState plan (· = .skipped)) E.passed
  exact ⟨_,by rw [Orchestrator.readyIds, hr]; rfl⟩

/-- What `_ready_ids` returns, where the ids of the plan are distinct. -/
theorem mem_readyIds (hn : (plan.tasks.map TaskSpec.id).Nodup) {s : SerialState}
    {ready : List String} (h : Orchestrator.readyIds T plan E s = .ok ready) {id : String} :
    id ∈ ready ↔ ∃ t, Can T plan E s.states t ∧ t.id = id := by
  obtain ⟨found,hfound,h⟩ := ok_of_bind h
  cases h
  rw [List.mem_filter, mem_computeReadyTasks hfound]
  simp only [SerialState.isOpen, Bool.and_eq_true, Bool.or_eq_true, decide_eq_true_eq]
  constructor
  · rintro ⟨⟨t,ht,hr,rfl⟩,hopen,hagent⟩
    rw [lookup_byId_of_nodup hn ht, Option.any_some, Bool.not_eq_true'] at hagent
    exact ⟨t,⟨⟨ht,hr.open_,hr.gates,hagent⟩,hopen,
      fun dep hd => mem_terminalIds_done.mp (hr.deps dep hd),
      fun u hu hb => mem_terminalIds_done.mp (hr.barrier u hu hb)⟩,rfl⟩
  · rintro ⟨t,ht,rfl⟩
    refine ⟨⟨t,ht.able.mem,⟨ht.able.open_,fun dep hd => mem_terminalIds_done.mpr (ht.deps dep hd),
      fun u hu hb => mem_terminalIds_done.mpr (ht.barrier u hu hb),ht.able.gates⟩,rfl⟩,ht.waiting,?_⟩
    rw [lookup_byId_of_nodup hn ht.able.mem, Option.any_some, ht.able.agent]
    rfl

/-! ## What a run does to the states -/

/-- A task that is not done is blocked: no agent fits it, a dependency has failed or is
blocked, or gates of its wave do not pass. -/
inductive Stops (T : Tables) (plan : FleetPlan W) (E : Setting W) (f : States) : States → Prop
  | intro (t : TaskSpec W) (mem : t ∈ plan.tasks) (undone : ¬ isDone (f t.id))
      (reason : agentBlock plan t = true ∨
        (∃ dep ∈ t.dependsOn, f dep = .failed ∨ f dep = .blocked) ∨
        missingGates T plan E t.label ≠ []) :
      Stops T plan E f (Function.update f t.id .blocked)

/-- A ready task with the key `k` is executed. With `good`, every attempt is completed. -/
inductive Executes (T : Tables) (plan : FleetPlan W) (E : Setting W) (good : Prop)
    (k : List Char) (f : States) : States → Prop
  | intro (t : TaskSpec W) (st : LifecycleState) (can : Can T plan E f t) (key : t.key T = k)
      (outcome : (st = .completed ∧ E.obstructed t = false) ∨ (st = .failed ∧ ¬ good) ∨
        (st = .blocked ∧ E.obstructed t = true)) :
      Executes T plan E good k f (Function.update f t.id st)

/-- What is done can be done. -/
structure Sound (T : Tables) (plan : FleetPlan W) (E : Setting W) (f : States) : Prop where
  finished : ∀ t ∈ plan.tasks, Finished t → isDone (f t.id)
  live : ∀ t ∈ plan.tasks, isDone (f t.id) →
    Finished t ∨ (Starts T plan E t ∧ E.obstructed t = false)

/-- What holds of the states after `visits`: a task that is ready comes at the end of a
chain that has not met them. -/
structure Swept (T : Tables) (plan : FleetPlan W) (E : Setting W) (visits : List (List Char))
    (f : States) : Prop extends Sound T plan E f where
  late : ∀ t, Can T plan E f t → ∃ c, Chain T plan (t :: c) ∧
    ¬ Sweep.Met (TaskSpec.key T) (t :: c) visits

theorem done_of_terminalId {f : States} (h : Sound T plan E f) {t : TaskSpec W} (ht : TerminalId plan f t.id) :
    isDone (f t.id) := by
  obtain ⟨u,hu,hid,hd | hf⟩ := ht
  · exact hd
  · exact hid ▸ h.finished u hu hf

/-- What a ready task waits for is done. -/
theorem Can.done {f : States} (h : Sound T plan E f) {t u : TaskSpec W} (ht : Can T plan E f t) (hu : u ∈ plan.tasks) (hw : Waits T t u) :
    isDone (f u.id) := by
  apply done_of_terminalId h
  rcases hw with hd | hb
  · exact ht.deps u.id hd
  · exact ht.barrier u hu hb

/-- A ready task can start. -/
theorem Can.starts {f : States} (h : Sound T plan E f) {t : TaskSpec W} (ht : Can T plan E f t) : Starts T plan E t := by
  have hdone : ∀ u ∈ plan.tasks, Waits T t u → ¬ Finished u →
      Starts T plan E u ∧ E.obstructed u = false :=
    fun u hu hw hf => (h.live u hu (ht.done h hu hw)).resolve_left hf
  exact .intro t ht.able (fun u hu hw hf => (hdone u hu hw hf).2)
    (fun u hu hw hf => (hdone u hu hw hf).1)

omit [Label W] in
/-- A task stays terminal while no done task changes. -/
theorem TerminalId.update {f : States} {id id' : String} {st : LifecycleState}
    (h : TerminalId plan f id') (hst : isDone (f id) → isDone st) :
    TerminalId plan (Function.update f id st) id' := by
  obtain ⟨u,hu,hid,hd | hf⟩ := h
  · refine ⟨u,hu,hid,Or.inl ?_⟩
    by_cases he : id' = id
    · subst he
      rw [Function.update_self]
      exact hst hd
    · rwa [Function.update_of_ne he]
  · exact ⟨u,hu,hid,Or.inr hf⟩

omit [Label W] in
theorem TerminalId.of_update {f : States} {id id' : String} {st : LifecycleState}
    (h : TerminalId plan (Function.update f id st) id') (hne : id' ≠ id ∨ ¬ isDone st) :
    TerminalId plan f id' := by
  obtain ⟨u,hu,hid,hd | hf⟩ := h
  · refine ⟨u,hu,hid,?_⟩
    by_cases he : id' = id
    · subst he
      rw [Function.update_self] at hd
      exact absurd hd (hne.resolve_left (by simp))
    · rw [Function.update_of_ne he] at hd
      exact Or.inl hd
  · exact ⟨u,hu,hid,Or.inr hf⟩

/-- A ready task other than the one that changes stays ready. -/
theorem Can.update {f : States} {t : TaskSpec W} (h : Can T plan E f t) {id : String}
    {st : LifecycleState} (hne : t.id ≠ id) (hst : isDone (f id) → isDone st) :
    Can T plan E (Function.update f id st) t where
  able := h.able
  waiting := by rw [Function.update_of_ne hne]; exact h.waiting
  deps dep hd := (h.deps dep hd).update hst
  barrier u hu hb := (h.barrier u hu hb).update hst

theorem not_done_blocked : ¬ isDone .blocked := by
  rintro (h | h) <;> cases h

theorem Sound.stop {f f' : States} (h : Sound T plan E f) (hs : Stops T plan E f f') :
    Sound T plan E f' := by
  obtain ⟨t,ht,hundone,-⟩ := hs
  constructor
  · intro u hu hf
    have hold := h.finished u hu hf
    have hne : u.id ≠ t.id := fun he => hundone (he ▸ hold)
    rwa [Function.update_of_ne hne]
  · intro u hu hd
    by_cases he : u.id = t.id
    · rw [he, Function.update_self] at hd
      exact absurd hd not_done_blocked
    · rw [Function.update_of_ne he] at hd
      exact h.live u hu hd

theorem Swept.stop {visits : List (List Char)} {f f' : States} (h : Swept T plan E visits f)
    (hs : Stops T plan E f f') : Swept T plan E visits f' := by
  refine ⟨h.toSound.stop hs,?_⟩
  obtain ⟨t,-,-,-⟩ := hs
  intro u hu
  have hne : u.id ≠ t.id := by
    intro he
    have hw := hu.waiting
    rw [he, Function.update_self] at hw
    rcases hw with hw | hw <;> cases hw
  have hw := hu.waiting
  rw [Function.update_of_ne hne] at hw
  exact h.late u ⟨hu.able,hw,fun dep hd => (hu.deps dep hd).of_update (Or.inr not_done_blocked),
    fun v hv hb => (hu.barrier v hv hb).of_update (Or.inr not_done_blocked)⟩

theorem Sound.execute (hn : (plan.tasks.map TaskSpec.id).Nodup) {good : Prop} {k : List Char}
    {f f' : States} (h : Sound T plan E f) (hx : Executes T plan E good k f f') :
    Sound T plan E f' := by
  obtain ⟨t,st,hcan,-,hout⟩ := hx
  have hundone : ¬ isDone (f t.id) := not_done_of_waiting hcan.waiting
  constructor
  · intro u hu hf
    have hold := h.finished u hu hf
    have hne : u.id ≠ t.id := fun he => hundone (he ▸ hold)
    rwa [Function.update_of_ne hne]
  · intro u hu hd
    by_cases he : u.id = t.id
    · obtain rfl : u = t := List.inj_on_of_nodup_map hn hu hcan.able.mem he
      rw [Function.update_self] at hd
      rcases hout with ⟨-,hfree⟩ | ⟨rfl,-⟩ | ⟨rfl,-⟩
      · exact Or.inr ⟨hcan.starts h,hfree⟩
      · rcases hd with hd | hd <;> cases hd
      · exact absurd hd not_done_blocked
    · rw [Function.update_of_ne he] at hd
      exact h.live u hu hd

/-- A task that an execution makes ready waited for the executed one, and so ends a chain
that is as late as the one of that task. -/
theorem Swept.execute (hn : (plan.tasks.map TaskSpec.id).Nodup) {good : Prop} {k : List Char}
    {visits : List (List Char)} {f f' : States} (h : Swept T plan E visits f)
    (hx : Executes T plan E good k f f') : Swept T plan E visits f' := by
  refine ⟨h.toSound.execute hn hx,?_⟩
  obtain ⟨t,st,hcan,-,hout⟩ := hx
  have ht := hcan.able.mem
  have hwaiting : ¬ isWaiting st := by
    rcases hout with ⟨rfl,-⟩ | ⟨rfl,-⟩ | ⟨rfl,-⟩ <;> rintro (h | h) <;> cases h
  intro u hu
  have hne : u.id ≠ t.id := by
    intro he
    have hw := hu.waiting
    rw [he, Function.update_self] at hw
    exact hwaiting hw
  have hw := hu.waiting
  rw [Function.update_of_ne hne] at hw
  by_cases hwaits : Waits T u t
  · obtain ⟨c,hc,hmet⟩ := h.late t hcan
    have hf : ¬ Finished t :=
      fun hf => not_done_of_waiting hcan.waiting (h.finished t ht hf)
    exact ⟨t :: c,List.isChain_cons_cons.mpr ⟨⟨ht,hwaits,hf⟩,hc⟩,fun hm => hmet hm.tail⟩
  · simp only [Waits, not_or] at hwaits
    refine h.late u ⟨hu.able,hw,fun dep hd => ?_,fun v hv hb => ?_⟩
    · exact (hu.deps dep hd).of_update (Or.inl (fun he => hwaits.1 (he ▸ hd)))
    · refine (hu.barrier v hv hb).of_update (Or.inl (fun he => hwaits.2 ?_))
      rwa [← List.inj_on_of_nodup_map hn hv ht he]

/-- A visit ends when no task with its key is ready. -/
theorem Swept.visit {k : List Char} {visits : List (List Char)} {f : States}
    (h : Swept T plan E visits f) (hk : ∀ t, Can T plan E f t → t.key T ≠ k) :
    Swept T plan E (visits++[k]) f where
  toSound := h.toSound
  late t ht := by
    obtain ⟨c,hc,hmet⟩ := h.late t ht
    exact ⟨c,hc,fun hm => hmet (hm.of_append (hk t ht))⟩

/-! ## Runs in which every attempt is completed -/

/-- What holds besides where every attempt is completed: a task that can start has been
executed or is waiting, and what has been executed was met by the visits. -/
structure Maintained (T : Tables) (plan : FleetPlan W) (E : Setting W) (visits : List (List Char))
    (f : States) : Prop where
  state : ∀ t, Starts T plan E t → isWaiting (f t.id) ∨
    (if E.obstructed t then f t.id = .blocked else f t.id = .completed)
  met : ∀ t, Starts T plan E t → ¬ isWaiting (f t.id) → ∀ c, Chain T plan (t :: c) →
    Sweep.Met (TaskSpec.key T) (t :: c) visits

theorem Maintained.visit {visits : List (List Char)} {f : States} (h : Maintained T plan E visits f)
    (k : List Char) : Maintained T plan E (visits++[k]) f where
  state := h.state
  met t ht hw c hc := (h.met t ht hw c hc).append [k]

theorem missingGates_of_able {t : TaskSpec W} (h : Able T plan E t) :
    missingGates T plan E t.label = [] := by
  rw [missingGates, List.filter_eq_nil_iff]
  intro gate hg
  obtain ⟨w,hw,hmem⟩ := List.mem_flatMap.mp hg
  simp only [List.mem_filter, decide_eq_true_eq] at hw
  have hwave : canonicalWaveId T w.id.toList = t.waveId T := by
    have hkey : waveText T w.id.toList = waveText T (Label.text t.wave) := hw.2
    rw [TaskSpec.waveId, canonicalWaveId, canonicalWaveId, hkey]
  have hreq : gate ∈ requiredGates T plan t :=
    List.mem_flatMap.mpr ⟨w,List.mem_filter.mpr ⟨hw.1,decide_eq_true hwave⟩,hmem⟩
  simpa using h.gates gate hreq

/-- No task that can start is blocked. -/
theorem Maintained.stop (hn : (plan.tasks.map TaskSpec.id).Nodup) (hdag : validateDag plan = [])
    {visits : List (List Char)} {f f' : States} (hs : Sound T plan E f)
    (h : Maintained T plan E visits f) (hstop : Stops T plan E f f') : Maintained T plan E visits f' := by
  obtain ⟨t,ht,-,hreason⟩ := hstop
  have hstarts : ¬ Starts T plan E t := by
    intro hst
    rcases hreason with hagent | ⟨dep,hd,hbad⟩ | hgates
    · rw [hst.able.agent] at hagent
      cases hagent
    · obtain ⟨u,hu,rfl⟩ := mem_byId.mp (known_of_validateDag hdag ht hd)
      by_cases hf : Finished u
      · rcases hs.finished u hu hf with hdone | hdone <;> rw [hdone] at hbad <;>
          rcases hbad with hbad | hbad <;> cases hbad
      · obtain ⟨hust,hfree⟩ := hst.waits hu (Or.inl hd) hf
        have hstate := h.state u hust
        rw [hfree] at hstate
        rcases hstate with (hstate | hstate) | hstate <;> rw [hstate] at hbad <;>
          rcases hbad with hbad | hbad <;> cases hbad
    · exact hgates (missingGates_of_able hst.able)
  have hnot : ∀ u, Starts T plan E u → u.id ≠ t.id := by
    intro u hu he
    obtain rfl : u = t := List.inj_on_of_nodup_map hn hu.able.mem ht he
    exact hstarts hu
  constructor
  · intro u hu
    rw [Function.update_of_ne (hnot u hu)]
    exact h.state u hu
  · intro u hu hw
    rw [Function.update_of_ne (hnot u hu)] at hw
    exact h.met u hu hw

/-- What is executed ends only chains that have met the visits. -/
theorem Maintained.execute (hn : (plan.tasks.map TaskSpec.id).Nodup) {k : List Char}
    {visits : List (List Char)} {f f' : States} (hs : Sound T plan E f)
    (h : Maintained T plan E (visits++[k]) f) (hx : Executes T plan E True k f f') :
    Maintained T plan E (visits++[k]) f' := by
  obtain ⟨t,st,hcan,hkey,hout⟩ := hx
  have ht := hcan.able.mem
  constructor
  · intro u hu
    by_cases he : u.id = t.id
    · obtain rfl : u = t := List.inj_on_of_nodup_map hn hu.able.mem ht he
      rw [Function.update_self]
      rcases hout with ⟨rfl,hfree⟩ | ⟨-,hbad⟩ | ⟨rfl,hobs⟩
      · simp [hfree]
      · exact absurd trivial hbad
      · simp [hobs]
    · rw [Function.update_of_ne he]
      exact h.state u hu
  · intro u hu hw c hc
    by_cases he : u.id = t.id
    · obtain rfl : u = t := List.inj_on_of_nodup_map hn hu.able.mem ht he
      cases c with
      | nil => exact Sweep.met_single hkey
      | cons v c =>
        obtain ⟨⟨hv,hwaits,hf⟩,hrest⟩ := List.isChain_cons_cons.mp hc
        have hvdone : ¬ isWaiting (f v.id) :=
          fun hwait => not_done_of_waiting hwait (hcan.done hs hv hwaits)
        exact (h.met v (hu.waits hv hwaits hf).1 hvdone c hrest).cons hkey
    · rw [Function.update_of_ne he] at hw
      exact h.met u hu hw c hc

/-! ## The functions of the run -/

/-- One change of the states while a wave with the key `k` is visited. -/
def Acts (T : Tables) (plan : FleetPlan W) (E : Setting W) (good : Prop) (k : List Char) :
    States → States → Prop :=
  Relation.ReflTransGen (fun f f' => Stops T plan E f f' ∨ Executes T plan E good k f f')

omit [Label W] in
theorem of_mem_tasksById {t : TaskSpec W} (h : t ∈ tasksById plan) : t ∈ plan.tasks := by
  obtain ⟨id,-,hid⟩ := List.mem_filterMap.mp h
  exact (of_lookup_byId hid).1

theorem stops_foldl {blocks : SerialState → TaskSpec W → Bool}
    (hb : ∀ s, ∀ t ∈ plan.tasks, blocks s t = true →
      Stops T plan E s.states (s.set t.id .blocked).states)
    {l : List (TaskSpec W)} (hl : ∀ t ∈ l, t ∈ plan.tasks) (s : SerialState) :
    Relation.ReflTransGen (Stops T plan E) s.states
      (l.foldl (fun s t => if blocks s t then s.set t.id .blocked else s) s).states := by
  induction l generalizing s with
  | nil => exact .refl
  | cons t l ih =>
    rw [List.foldl_cons]
    have hrest := ih (fun u hu => hl u (List.mem_cons_of_mem t hu))
    by_cases h : blocks s t = true
    · rw [if_pos h]
      exact .head (hb s t (hl t (by simp)) h) (hrest _)
    · rw [if_neg h]
      exact hrest s

theorem stops_blockUnresolvable (s : SerialState) :
    Relation.ReflTransGen (Stops T plan E) s.states (blockUnresolvable plan s).states := by
  apply stops_foldl _ (fun t => of_mem_tasksById)
  intro s t ht h
  simp only [unresolvable, isResolved, Bool.and_eq_true, Bool.not_eq_true', Bool.or_eq_false_iff,
    decide_eq_false_iff_not, Bool.or_eq_true, List.any_eq_true, decide_eq_true_eq] at h
  obtain ⟨⟨⟨⟨hcompleted,-⟩,-⟩,hskipped⟩,hreason⟩ := h
  refine .intro t ht (by rintro (h | h); exacts [hcompleted h,hskipped h]) ?_
  rcases hreason with hagent | hdep
  · exact Or.inl hagent
  · exact Or.inr (Or.inl hdep)

theorem stops_blockWaveStalls (wave : List Char) (s : SerialState) :
    Relation.ReflTransGen (Stops T plan E) s.states
      (blockWaveStalls T plan E wave s).states := by
  apply stops_foldl _ (fun t => of_mem_tasksById)
  intro s t ht h
  simp only [SerialState.isOpen, Bool.and_eq_true, decide_eq_true_eq, Bool.or_eq_true] at h
  obtain ⟨⟨hkey,hopen⟩,hmissing⟩ := h
  refine .intro t ht (not_done_of_waiting hopen) (Or.inr (Or.inr ?_))
  rwa [missingGates, hkey]

theorem attempts_state (answers : ℕ → Attempt) (retries n : ℕ) :
    (attempts answers retries n).1 = .completed ∨
      ((attempts answers retries n).1 = .failed ∧ ¬ ∀ m, answers m = .completed) := by
  induction retries generalizing n with
  | zero =>
    rw [attempts]
    cases h : answers n with
    | completed => exact Or.inl rfl
    | failed r => exact Or.inr ⟨rfl,fun hall => by rw [hall] at h; cases h⟩
  | succ retries ih =>
    rw [attempts]
    cases h : answers n with
    | completed => exact Or.inl rfl
    | failed r =>
      cases r with
      | true => exact ih (n+1)
      | false => exact Or.inr ⟨rfl,fun hall => by rw [hall] at h; cases h⟩

/-- A ready task is executed. -/
theorem executes_executeTask (answers : ℕ → Attempt) {s : SerialState} {t : TaskSpec W}
    (h : Can T plan E s.states t) :
    ∃ st, (executeTask plan E answers s t).states = Function.update s.states t.id st ∧
      Executes T plan E (∀ n, answers n = .completed) (t.key T) s.states
        (executeTask plan E answers s t).states := by
  have hne : s.states t.id ≠ .completed :=
    fun he => not_done_of_waiting h.waiting (Or.inl he)
  rw [executeTask, if_neg hne, if_neg (by simp [h.able.agent])]
  cases hobs : E.obstructed t with
  | true =>
    rw [if_pos rfl]
    exact ⟨.blocked,rfl,.intro t .blocked h rfl (Or.inr (Or.inr ⟨rfl,hobs⟩))⟩
  | false =>
    rw [if_neg (by simp)]
    refine ⟨_,rfl,.intro t _ h rfl ?_⟩
    rcases attempts_state answers (t.retryPolicy.maxAttempts-1) s.dispatched with hc | hf
    · exact Or.inl ⟨hc,hobs⟩
    · exact Or.inr (Or.inl hf)

theorem acts_of_stops {good : Prop} {k : List Char} {f f' : States}
    (h : Relation.ReflTransGen (Stops T plan E) f f') : Acts T plan E good k f f' :=
  Relation.ReflTransGen.mono (fun _ _ => Or.inl) _ _ h

/-! ## A visit ends -/

instance : DecidablePred isWaiting := fun st =>
  inferInstanceAs (Decidable (st = .pending ∨ st = .ready))

/-- The ids of the tasks that wait. -/
def waitingIds (plan : FleetPlan W) (f : States) : Finset String :=
  (plan.tasks.map TaskSpec.id).toFinset.filter (fun id => isWaiting (f id))

theorem waitingIds_stops {f f' : States} (h : Stops T plan E f f') :
    waitingIds plan f' ⊆ waitingIds plan f := by
  obtain ⟨t,-,-,-⟩ := h
  intro id hid
  simp only [waitingIds, Finset.mem_filter] at hid ⊢
  refine ⟨hid.1,?_⟩
  by_cases he : id = t.id
  · subst he
    rw [Function.update_self] at hid
    rcases hid.2 with h | h <;> cases h
  · rw [Function.update_of_ne he] at hid
    exact hid.2

theorem waitingIds_executes {good : Prop} {k : List Char} {f f' : States}
    (h : Executes T plan E good k f f') : waitingIds plan f' ⊂ waitingIds plan f := by
  obtain ⟨t,st,hcan,-,hout⟩ := h
  have hst : ¬ isWaiting st := by
    rcases hout with ⟨rfl,-⟩ | ⟨rfl,-⟩ | ⟨rfl,-⟩ <;> rintro (h | h) <;> cases h
  rw [Finset.ssubset_iff_of_subset]
  · refine ⟨t.id,?_,?_⟩
    · simp only [waitingIds, Finset.mem_filter, List.mem_toFinset]
      exact ⟨List.mem_map_of_mem hcan.able.mem,hcan.waiting⟩
    · simp only [waitingIds, Finset.mem_filter, Function.update_self]
      exact fun h => hst h.2
  · intro id hid
    simp only [waitingIds, Finset.mem_filter] at hid ⊢
    refine ⟨hid.1,?_⟩
    by_cases he : id = t.id
    · subst he
      exact hcan.waiting
    · rw [Function.update_of_ne he] at hid
      exact hid.2

theorem waitingIds_acts {good : Prop} {k : List Char} {f f' : States}
    (h : Acts T plan E good k f f') : waitingIds plan f' ⊆ waitingIds plan f := by
  induction h with
  | refl => exact subset_rfl
  | tail _ hstep ih =>
    rcases hstep with hs | hx
    · exact (waitingIds_stops hs).trans ih
    · exact (waitingIds_executes hx).subset.trans ih

/-- The tasks of a batch are executed one after the other; each stays ready until then. -/
theorem acts_executeBatch (hn : (plan.tasks.map TaskSpec.id).Nodup) (answers : ℕ → Attempt)
    {k : List Char} {batch : List String} (hb : batch.Nodup) {s : SerialState}
    (h : ∀ id ∈ batch, ∃ t, Can T plan E s.states t ∧ t.id = id ∧ t.key T = k) :
    Acts T plan E (∀ n, answers n = .completed) k s.states
      (executeBatch plan E answers s batch).states ∧
    (batch ≠ [] → waitingIds plan (executeBatch plan E answers s batch).states ⊂
      waitingIds plan s.states) := by
  induction batch generalizing s with
  | nil => exact ⟨.refl,fun h => absurd rfl h⟩
  | cons id batch ih =>
    obtain ⟨t,hcan,rfl,rfl⟩ := h id (by simp)
    obtain ⟨hid,hb⟩ := List.nodup_cons.mp hb
    obtain ⟨st,hst,hx⟩ := executes_executeTask answers hcan
    have hrest := ih hb (s := executeTask plan E answers s t) (fun id' hid' => by
      obtain ⟨u,hu,rfl,hkey⟩ := h id' (List.mem_cons_of_mem _ hid')
      refine ⟨u,?_,rfl,hkey⟩
      rw [hst]
      exact hu.update (fun he => hid (he ▸ hid'))
        (fun hd => absurd hd (not_done_of_waiting hcan.waiting)))
    rw [executeBatch, List.foldl_cons, lookup_byId_of_nodup hn hcan.able.mem]
    refine ⟨.head (Or.inr hx) hrest.1,fun _ => ?_⟩
    exact (waitingIds_acts hrest.1).trans_ssubset (waitingIds_executes hx)

omit [Label W] in
theorem waitingIds_card_le (f : States) : (waitingIds plan f).card ≤ plan.tasks.length := by
  refine (Finset.card_filter_le _ _).trans ((List.toFinset_card_le _).trans ?_)
  rw [List.length_map]

theorem nodup_readyIds (hn : (plan.tasks.map TaskSpec.id).Nodup) {s : SerialState}
    {ready : List String} (h : Orchestrator.readyIds T plan E s = .ok ready) : ready.Nodup := by
  obtain ⟨found,hfound,h⟩ := ok_of_bind h
  cases h
  obtain ⟨ids,-,hfound⟩ := ok_of_bind hfound
  cases hfound
  apply List.Nodup.filter
  have hsorted : ((sortTasks plan.tasks).map TaskSpec.id).Nodup :=
    ((List.perm_insertionSort _ plan.tasks).map TaskSpec.id).nodup_iff.mpr hn
  exact hsorted.sublist (List.filter_sublist.map TaskSpec.id)

theorem mem_readyInWave (hn : (plan.tasks.map TaskSpec.id).Nodup) {s : SerialState}
    {ready : List String} (h : Orchestrator.readyIds T plan E s = .ok ready) {wave : List Char} {id : String} :
    id ∈ readyInWave T plan wave ready ↔
      ∃ t, Can T plan E s.states t ∧ t.id = id ∧ t.key T = waveKey T wave := by
  rw [readyInWave, List.mem_filter, mem_readyIds hn h]
  constructor
  · rintro ⟨⟨t,ht,rfl⟩,hkey⟩
    rw [lookup_byId_of_nodup hn ht.able.mem, Option.any_some, decide_eq_true_eq] at hkey
    exact ⟨t,ht,rfl,hkey⟩
  · rintro ⟨t,ht,rfl,hkey⟩
    refine ⟨⟨t,ht,rfl⟩,?_⟩
    rw [lookup_byId_of_nodup hn ht.able.mem, Option.any_some]
    exact decide_eq_true hkey

/-- A visit ends with no ready task of its wave. -/
theorem runWave_ok {ids : List String} (hv : validatePlan T plan = .ok ids)
    (hn : (plan.tasks.map TaskSpec.id).Nodup) (hp : 0 < E.maxParallel)
    (answers : ℕ → Attempt) (wave : List Char) (fuel : ℕ) (s : SerialState)
    (hf : (waitingIds plan s.states).card ≤ fuel) :
    ∃ s', runWave T plan E answers wave fuel s = .ok s' ∧
      Acts T plan E (∀ n, answers n = .completed) (waveKey T wave) s.states s'.states ∧
      ∀ t, Can T plan E s'.states t → t.key T ≠ waveKey T wave := by
  induction fuel generalizing s with
  | zero =>
    refine ⟨s,rfl,.refl,fun t ht _ => ?_⟩
    have hmem : t.id ∈ waitingIds plan s.states := by
      simp only [waitingIds, Finset.mem_filter, List.mem_toFinset]
      exact ⟨List.mem_map_of_mem ht.able.mem,ht.waiting⟩
    rw [Finset.card_eq_zero.mp (Nat.le_zero.mp hf)] at hmem
    simp at hmem
  | succ fuel ih =>
    obtain ⟨ready,hready⟩ := readyIds_ok (E := E) hv s
    rw [runWave, hready]
    by_cases hbatch : (readyInWave T plan wave ready).take E.maxParallel = []
    · refine ⟨s,by simp [hbatch,bind,Except.bind,pure,Except.pure],.refl,fun t ht hkey => ?_⟩
      have hnil : readyInWave T plan wave ready = [] := by
        rw [List.take_eq_nil_iff] at hbatch
        exact hbatch.resolve_left hp.ne'
      have hmem := (mem_readyInWave hn hready).mpr ⟨t,ht,rfl,hkey⟩
      rw [hnil] at hmem
      simp at hmem
    · have hin := List.take_sublist E.maxParallel (readyInWave T plan wave ready)
      have hnodup := ((nodup_readyIds hn hready).filter _).sublist hin
      obtain ⟨hacts,hless⟩ := acts_executeBatch hn answers hnodup
        (fun id hid => (mem_readyInWave hn hready).mp (hin.subset hid))
      have hstops : Acts T plan E (∀ n, answers n = .completed) (waveKey T wave) _
          (blockUnresolvable plan ((executeBatch plan E answers s
            ((readyInWave T plan wave ready).take E.maxParallel)).record
              ((readyInWave T plan wave ready).take E.maxParallel))).states :=
        acts_of_stops (stops_blockUnresolvable _)
      have hcard := Finset.card_lt_card ((waitingIds_acts hstops).trans_ssubset (hless hbatch))
      obtain ⟨s',hs',hrest,hend⟩ := ih _ (Nat.le_of_lt_succ (hcard.trans_le hf))
      refine ⟨s',?_,hacts.trans (hstops.trans hrest),hend⟩
      simp only [bind, Except.bind, if_neg hbatch]
      exact hs'

/-! ## Runs -/

theorem Sound.acts (hn : (plan.tasks.map TaskSpec.id).Nodup) {good : Prop} {k : List Char}
    {f f' : States} (h : Sound T plan E f) (ha : Acts T plan E good k f f') :
    Sound T plan E f' := by
  induction ha with
  | refl => exact h
  | tail _ hstep ih =>
    rcases hstep with hs | hx
    · exact ih.stop hs
    · exact ih.execute hn hx

theorem Swept.acts (hn : (plan.tasks.map TaskSpec.id).Nodup) {good : Prop} {k : List Char}
    {visits : List (List Char)} {f f' : States} (h : Swept T plan E visits f)
    (ha : Acts T plan E good k f f') : Swept T plan E visits f' := by
  induction ha with
  | refl => exact h
  | tail _ hstep ih =>
    rcases hstep with hs | hx
    · exact ih.stop hs
    · exact ih.execute hn hx

theorem Maintained.acts (hn : (plan.tasks.map TaskSpec.id).Nodup) (hdag : validateDag plan = [])
    {good : Prop} (hg : good) {k : List Char} {visits : List (List Char)} {f f' : States}
    (hs : Sound T plan E f) (h : Maintained T plan E (visits++[k]) f)
    (ha : Acts T plan E good k f f') : Maintained T plan E (visits++[k]) f' := by
  induction ha with
  | refl => exact h
  | tail hrest hstep ih =>
    rcases hstep with hst | hx
    · exact ih.stop hn hdag (hs.acts hn hrest) hst
    · refine ih.execute hn (hs.acts hn hrest) ?_
      rwa [eq_true hg] at hx

theorem Swept.stops {visits : List (List Char)} {f f' : States} (h : Swept T plan E visits f)
    (hs : Relation.ReflTransGen (Stops T plan E) f f') : Swept T plan E visits f' := by
  induction hs with
  | refl => exact h
  | tail _ hstep ih => exact ih.stop hstep

theorem Maintained.stops (hn : (plan.tasks.map TaskSpec.id).Nodup) (hdag : validateDag plan = [])
    {visits : List (List Char)} {f f' : States} (hw : Swept T plan E visits f)
    (h : Maintained T plan E visits f) (hs : Relation.ReflTransGen (Stops T plan E) f f') :
    Maintained T plan E visits f' := by
  induction hs with
  | refl => exact h
  | tail hrest hstep ih => exact ih.stop hn hdag (hw.stops hrest).toSound hstep

/-- What holds after some visits, and what holds besides where every attempt is
completed. -/
def Made (T : Tables) (plan : FleetPlan W) (E : Setting W) (good : Prop)
    (visits : List (List Char)) (f : States) : Prop :=
  Swept T plan E visits f ∧ (good → Maintained T plan E visits f)

theorem runWaves_ok {ids : List String} (hv : validatePlan T plan = .ok ids)
    (hn : (plan.tasks.map TaskSpec.id).Nodup) (hp : 0 < E.maxParallel) (answers : ℕ → Attempt)
    (waves made : List (List Char)) {s : SerialState}
    (h : Made T plan E (∀ n, answers n = .completed) made s.states) :
    ∃ s', runWaves T plan E answers waves s = .ok s' ∧
      Made T plan E (∀ n, answers n = .completed) (made++waves.map (waveKey T)) s'.states := by
  have hdag := (validatePlan_ok hv).dag
  induction waves generalizing made s with
  | nil => exact ⟨s,rfl,by simpa using h⟩
  | cons wave waves ih =>
    obtain ⟨s₁,hs₁,hacts,hend⟩ :=
      runWave_ok hv hn hp answers wave plan.tasks.length s (waitingIds_card_le s.states)
    have hstalls : Relation.ReflTransGen (Stops T plan E) s₁.states
        (blockWaveStalls T plan E wave s₁).states := stops_blockWaveStalls wave s₁
    have hswept := ((h.1.acts hn hacts).visit hend).stops hstalls
    have hkept : (∀ n, answers n = .completed) → Maintained T plan E (made++[waveKey T wave])
        (blockWaveStalls T plan E wave s₁).states := by
      intro hg
      have hvisit := (h.2 hg).visit (waveKey T wave)
      exact (hvisit.acts hn hdag hg h.1.toSound hacts).stops hn hdag
        ((h.1.acts hn hacts).visit hend) hstalls
    obtain ⟨s',hs',hmade⟩ := ih (made++[waveKey T wave]) ⟨hswept,hkept⟩
    refine ⟨s',?_,by simpa using hmade⟩
    rw [runWaves, hs₁]
    exact hs'

omit [Label W] in
theorem initial_state (hn : (plan.tasks.map TaskSpec.id).Nodup) {t : TaskSpec W}
    (ht : t ∈ plan.tasks) : (initialState plan).states t.id = resumedState t.status := by
  simp only [initialState, lookup_byId_of_nodup hn ht, Option.elim_some]

omit [Label W] in
theorem finished_of_initial (hn : (plan.tasks.map TaskSpec.id).Nodup) {t : TaskSpec W}
    (ht : t ∈ plan.tasks) : isDone ((initialState plan).states t.id) ↔ Finished t := by
  rw [initial_state hn ht, Finished]
  unfold resumedState LifecycleState.ofText
  split_ifs with h₁ h₂ h₃ h₄ h₅ h₆ h₇ <;> simp_all [isDone]

theorem made_initial (hn : (plan.tasks.map TaskSpec.id).Nodup) (good : Prop) :
    Made T plan E good [] (initialState plan).states := by
  refine ⟨⟨⟨fun t ht => (finished_of_initial hn ht).mpr,
    fun t ht hd => Or.inl ((finished_of_initial hn ht).mp hd)⟩,?_⟩,fun _ => ?_⟩
  · intro t _
    exact ⟨[],by simp [Chain],Sweep.not_met_nil⟩
  · have hwait : ∀ t, Starts T plan E t → isWaiting ((initialState plan).states t.id) := by
      intro t ht
      rw [initial_state hn ht.able.mem]
      rcases ht.able.open_ with h | h <;> rw [h]
      · exact Or.inl rfl
      · exact Or.inr rfl
    exact ⟨fun t ht => Or.inl (hwait t ht),fun t ht hw => absurd (hwait t ht) hw⟩

theorem runVisits_ok {ids : List String} (hv : validatePlan T plan = .ok ids)
    (hn : (plan.tasks.map TaskSpec.id).Nodup) (hp : 0 < E.maxParallel) (answers : ℕ → Attempt)
    (visits : List (List Char)) :
    ∃ s, runVisits T plan E answers visits = .ok s ∧
      Made T plan E (∀ n, answers n = .completed) (visits.map (waveKey T)) s.states := by
  have hdag := (validatePlan_ok hv).dag
  have hstart := made_initial (T := T) (E := E) hn (∀ n, answers n = .completed)
  have hfirst : Relation.ReflTransGen (Stops T plan E) (initialState plan).states
      (blockUnresolvable plan (initialState plan)).states := stops_blockUnresolvable _
  obtain ⟨s,hs,hmade⟩ := runWaves_ok hv hn hp answers visits []
    ⟨hstart.1.stops hfirst,fun hg => (hstart.2 hg).stops hn hdag hstart.1 hfirst⟩
  have hlast : Relation.ReflTransGen (Stops T plan E) s.states
      (blockUnresolvable plan s).states := stops_blockUnresolvable s
  refine ⟨blockUnresolvable plan s,?_,hmade.1.stops hlast,
    fun hg => (hmade.2 hg).stops hn hdag hmade.1 hlast⟩
  rw [runVisits, hs]
  rfl

/-- Where nothing that can start is left waiting, a task that can start is executed. -/
theorem not_waiting_of_starts (hdag : validateDag plan = []) {visits : List (List Char)}
    {f : States} (hk : Maintained T plan E visits f)
    (hno : ∀ t, ¬ Can T plan E f t) {t : TaskSpec W} (h : Starts T plan E t) :
    ¬ isWaiting (f t.id) := by
  induction h with
  | intro t able free starts ih =>
    intro hwait
    have hdone : ∀ u ∈ plan.tasks, Waits T t u → TerminalId plan f u.id := by
      intro u hu hw
      by_cases hf : Finished u
      · exact ⟨u,hu,rfl,Or.inr hf⟩
      · have hstate := (hk.state u (starts u hu hw hf)).resolve_left (ih u hu hw hf)
        rw [free u hu hw hf, if_neg (by simp)] at hstate
        exact ⟨u,hu,rfl,Or.inl (Or.inl hstate)⟩
    refine hno t ⟨able,hwait,fun dep hd => ?_,fun u hu hb => hdone u hu (Or.inr hb)⟩
    obtain ⟨u,hu,rfl⟩ := mem_byId.mp (known_of_validateDag hdag able.mem hd)
    exact hdone u hu (Or.inl hd)

/-- A serial run of a valid plan leaves no ready task, whatever the dispatcher answers,
exactly if every chain of waiting tasks meets the visits of the run in its order. -/
theorem serial_run_exhausts_iff {ids : List String} (hv : validatePlan T plan = .ok ids)
    (hn : (plan.tasks.map TaskSpec.id).Nodup) (hp : 0 < E.maxParallel)
    (labels : List (List Char)) :
    (∀ answers s, runSerial T plan E answers labels = some (.ok s) →
      Orchestrator.readyIds T plan E s = .ok []) ↔
    ∀ visits, orderedWaves T labels = some visits → Followed T plan E visits := by
  have hdag := (validatePlan_ok hv).dag
  have hempty : ∀ s, Orchestrator.readyIds T plan E s = .ok [] ↔ ∀ t, ¬ Can T plan E s.states t := by
    intro s
    obtain ⟨ready,hready⟩ := readyIds_ok (E := E) hv s
    rw [hready, Except.ok.injEq, List.eq_nil_iff_forall_not_mem]
    constructor
    · exact fun h t ht => h t.id ((mem_readyIds hn hready).mpr ⟨t,ht,rfl⟩)
    · intro h id hid
      obtain ⟨t,ht,-⟩ := (mem_readyIds hn hready).mp hid
      exact h t ht
  constructor
  · intro h visits hvisits t c ht hc
    obtain ⟨s,hs,hswept,hkept⟩ := runVisits_ok hv hn hp (fun _ => .completed) visits
    have hno := (hempty s).mp (h (fun _ => .completed) s (by rw [runSerial, hvisits, ← hs]; rfl))
    have hk := hkept (fun _ => rfl)
    exact hk.met t ht (not_waiting_of_starts hdag hk hno ht) c hc
  · intro h answers s hs
    rw [runSerial, Option.map_eq_some_iff] at hs
    obtain ⟨visits,hvisits,hs⟩ := hs
    obtain ⟨s',hs',hswept,-⟩ := runVisits_ok hv hn hp answers visits
    obtain rfl : s' = s := Except.ok.inj (hs'.symm.trans hs)
    refine (hempty s').mpr (fun t ht => ?_)
    obtain ⟨c,hc,hmet⟩ := hswept.late t ht
    exact hmet (h visits hvisits t c (ht.starts hswept.toSound) hc)

end

/-- Nothing but the plan decides what can start. -/
def openSetting {W : Type} : Setting W where
  passed := []
  obstructed _ := false
  maxParallel := 1

theorem waits_forward {t u : TaskSpec ℤ} (ht : t ∈ forwardPlan.tasks)
    (hu : u ∈ forwardPlan.tasks) (h : Waits ascii t u) :
    t = plainTask "b" 2 ["a"] [] ∧ u = plainTask "a" 1 [] [] := by
  simp only [forwardPlan, plainPlan, List.mem_cons, List.not_mem_nil, or_false] at ht hu
  rcases ht with rfl | rfl <;> rcases hu with rfl | rfl
  · exact absurd h (by unfold Waits; decide)
  · exact absurd h (by unfold Waits; decide)
  · exact ⟨rfl,rfl⟩
  · exact absurd h (by unfold Waits; decide)

theorem followed_forward : Followed ascii forwardPlan openSetting ["1".toList,"2".toList] := by
  intro t c ht hc
  have htm := ht.able.mem
  cases c with
  | nil =>
    simp only [forwardPlan, plainPlan, List.mem_cons, List.not_mem_nil, or_false] at htm
    rcases htm with rfl | rfl
    · exact ⟨[0],by simp,.cons (by decide) .nil⟩
    · exact ⟨[1],by simp,.cons (by decide) .nil⟩
  | cons u c =>
    obtain ⟨⟨hu,hw,-⟩,hrest⟩ := List.isChain_cons_cons.mp hc
    obtain ⟨rfl,rfl⟩ := waits_forward htm hu hw
    cases c with
    | nil => exact ⟨[1,0],by simp,.cons (by decide) (.cons (by decide) .nil)⟩
    | cons v c =>
      obtain ⟨⟨hv,hw',-⟩,-⟩ := List.isChain_cons_cons.mp hrest
      exact absurd (waits_forward hu hv hw').1 (by simp [plainTask])

theorem serial_run_exhausts_forward :
    (runSerial ascii forwardPlan openSetting (fun _ => .completed)
      ["1".toList,"2".toList]).map (· >>= Orchestrator.readyIds ascii forwardPlan openSetting) =
      some (.ok []) := by
  have hv : validatePlan ascii forwardPlan = .ok ["a","b"] := by decide
  have hall := (serial_run_exhausts_iff hv (by decide)
    (show 0 < (openSetting : Setting ℤ).maxParallel by decide) _).mpr (fun visits h => by
    obtain rfl : visits = ["1".toList,"2".toList] := by
      have hw : orderedWaves ascii ["1".toList,"2".toList] = some ["1".toList,"2".toList] := by
        decide
      exact Option.some.inj (h.symm.trans hw)
    exact followed_forward)
  have hends : (runSerial ascii forwardPlan openSetting (fun _ => .completed)
      ["1".toList,"2".toList]).any (fun o => o.toOption.isSome) = true := by decide
  cases hr : runSerial ascii forwardPlan openSetting (fun _ => .completed)
      ["1".toList,"2".toList] with
  | none =>
    rw [hr] at hends
    cases hends
  | some o =>
    cases o with
    | error e =>
      rw [hr] at hends
      cases hends
    | ok s => exact congrArg some (hall _ s hr)

def aliasTask (id wave : String) : TaskSpec String where
  id := id
  wave := wave
  role := "dev"
  objective := "objective"
  capabilities := []
  dependsOn := []
  allowedPaths := []
  forbiddenPaths := []
  outputs := ["output"]
  acceptanceCriteria := ["accepted"]
  validationCommands := ["test"]
  retryPolicy := ⟨1,[]⟩
  owner := none
  status := "pending"

/-- The tasks `a` and `b`, in waves with the labels `Wave-1` and `2`. -/
def aliasPlan : FleetPlan String := ⟨[],[],[aliasTask "a" "Wave-1",aliasTask "b" "2"],[]⟩

/-- The run visits `2` before `Wave-1`, and so leaves `b`. -/
theorem serial_run_leaves_ready : validatePlan ascii aliasPlan = .ok ["a","b"] ∧
    (runSerial ascii aliasPlan openSetting (fun _ => .completed)
      ["Wave-1".toList,"2".toList]).map (· >>= Orchestrator.readyIds ascii aliasPlan openSetting) =
      some (.ok ["b"]) :=
  ⟨by decide,by decide⟩

end PdFleet
