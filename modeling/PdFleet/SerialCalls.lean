import PdFleet.Dispatching
import PdFleet.ReportValues
import PdFleet.SerialRun

/-!
# The calls of a serial run

A run calls the dispatcher for a task that waits for nothing, no more often than its policy
lets it, and leaves every task that it called for completed or failed, unless an answer
cannot be judged.
-/

set_option autoImplicit false

namespace PdFleet.Serial

open Contracts

section

variable {W : Type} {plan : FleetPlan W}

/-! ## What changes -/

/-- What is done stays as it is, and nothing begins to wait. -/
structure Grows (s s' : Fleet W) : Prop where
  done : ∀ id, isDone (s.lives id).state → s'.lives id = s.lives id
  waiting : ∀ id, isWaiting (s'.lives id).state → s'.lives id = s.lives id

theorem Grows.refl (s : Fleet W) : Grows s s := ⟨fun _ _ => rfl,fun _ _ => rfl⟩

theorem Grows.trans {s s' s'' : Fleet W} (h : Grows s s') (h' : Grows s' s'') : Grows s s'' where
  done id hd := by
    have heq := h.done id hd
    rw [h'.done id (heq ▸ hd), heq]
  waiting id hw := by
    have heq := h'.waiting id hw
    rw [heq, h.waiting id (heq ▸ hw)]

/-- Only a task that waited has changed, and it waits no more. -/
structure Only (id : String) (s s' : Fleet W) : Prop where
  others : ∀ id', id' ≠ id → s'.lives id' = s.lives id'
  undone : ¬ isDone (s.lives id).state
  moved : ¬ isWaiting (s'.lives id).state

theorem Only.grows {id : String} {s s' : Fleet W} (h : Only id s s') : Grows s s' where
  done id' hd := h.others id' (fun he => h.undone (he ▸ hd))
  waiting id' hw := h.others id' (fun he => h.moved (he ▸ hw))

theorem mem_waitingIds {s : Fleet W} {id : String} : id ∈ waitingIds plan s.serial.states ↔
    id ∈ plan.tasks.map TaskSpec.id ∧ isWaiting (s.lives id).state := by
  rw [waitingIds, Finset.mem_filter, List.mem_toFinset]
  rfl

theorem waitingIds_grows {s s' : Fleet W} (h : Grows s s') :
    waitingIds plan s'.serial.states ⊆ waitingIds plan s.serial.states := by
  intro id hid
  rw [mem_waitingIds] at hid ⊢
  exact ⟨hid.1,h.waiting id hid.2 ▸ hid.2⟩

theorem waitingIds_only {t : TaskSpec W} (ht : t ∈ plan.tasks) {s s' : Fleet W}
    (h : Only t.id s s') (hw : isWaiting (s.lives t.id).state) :
    waitingIds plan s'.serial.states ⊂ waitingIds plan s.serial.states := by
  rw [Finset.ssubset_iff_of_subset (waitingIds_grows h.grows)]
  refine ⟨t.id,?_,?_⟩
  · exact mem_waitingIds.mpr ⟨List.mem_map_of_mem ht,hw⟩
  · exact fun hmem => h.moved (mem_waitingIds.mp hmem).2

end

section

variable {W : Type} [Label W] (T : Tables) (plan : FleetPlan W) (E : Environment W)

/-- What a call may be made for. -/
structure Allowed (c : Call W) : Prop where
  mem : c.task ∈ plan.tasks
  running : (c.lives c.task.id).state = .running
  deps : ∀ dep ∈ c.task.dependsOn, isDone (c.lives dep).state
  waves : ∀ u ∈ plan.tasks, (u.waveId T).before (c.task.waveId T) = true →
    isDone (c.lives u.id).state
  gates : ∀ gate ∈ requiredGates T plan c.task, gate ∈ E.passed

def callsOf (s : Fleet W) (id : String) : ℕ := s.calls.countP (fun c => c.task.id = id)

def judged (c : Call W) : Judgement := judge E c.task c.attempt c.answer

def Ended (s : Fleet W) (id : String) : Prop :=
  (s.lives id).state = .completed ∨ (s.lives id).state = .failed

/-- What holds of the calls whatever the dispatcher answers. -/
structure Safe (s : Fleet W) : Prop where
  allowed : ∀ c ∈ s.calls, Allowed T plan E c
  budget : ∀ t ∈ plan.tasks, callsOf s t.id ≤ t.retryPolicy.maxAttempts

/-- Every answer was judged, and its task has ended. -/
structure Quiet (s : Fleet W) : Prop extends Safe T plan E s where
  judged : ∀ c ∈ s.calls, judged E c ≠ .unhashable
  ended : ∀ c ∈ s.calls, Ended s c.task.id

/-- An answer could not be judged, and its task is left running. -/
structure Crashed (s : Fleet W) : Prop extends Safe T plan E s where
  crash : ∃ c ∈ s.calls, judged E c = .unhashable ∧ (s.lives c.task.id).state = .running

/-- A task between its attempts. -/
structure Counted (s : Fleet W) (t : TaskSpec W) : Prop where
  maxAttempts : (s.lives t.id).maxAttempts = t.retryPolicy.maxAttempts
  quiet : (s.lives t.id).state ≠ .running
  fresh : isWaiting (s.lives t.id).state → (s.lives t.id).attempt = 0
  count : callsOf s t.id = (s.lives t.id).attempt
  bound : (s.lives t.id).attempt ≤ t.retryPolicy.maxAttempts

/-- What holds between the executions of tasks. -/
structure Settled (s : Fleet W) : Prop where
  allowed : ∀ c ∈ s.calls, Allowed T plan E c
  judged : ∀ c ∈ s.calls, judged E c ≠ .unhashable
  ended : ∀ c ∈ s.calls, Ended s c.task.id
  tasks : ∀ t ∈ plan.tasks, Counted s t

/-- What an operation leads to: `P` if it returns, and otherwise a state of quiet, or of a
crash where the answer could not be judged. -/
def Leads (P : Fleet W → Prop) : Outcome W → Prop
  | (s,none) => P s
  | (s,some .unhashable) => Crashed T plan E s
  | (_,some .outOfFuel) => False
  | (s,some _) => Quiet T plan E s

variable {T plan E}

omit [Label W] in
theorem Counted.congr {s s' : Fleet W} {t : TaskSpec W} (h : Counted s t)
    (hl : s'.lives t.id = s.lives t.id) (hc : callsOf s' t.id = callsOf s t.id) : Counted s' t where
  maxAttempts := hl ▸ h.maxAttempts
  quiet := hl ▸ h.quiet
  fresh := hl ▸ h.fresh
  count := by rw [hc, hl, h.count]
  bound := hl ▸ h.bound

theorem Settled.quiet {s : Fleet W} (h : Settled T plan E s) : Quiet T plan E s where
  allowed := h.allowed
  budget t ht := by
    rw [(h.tasks t ht).count]
    exact (h.tasks t ht).bound
  judged := h.judged
  ended := h.ended

theorem Leads.andThen {P Q : Fleet W → Prop} {o : Outcome W} {f : Fleet W → Outcome W}
    (h : Leads T plan E P o) (hf : ∀ s, P s → Leads T plan E Q (f s)) :
    Leads T plan E Q (o.andThen f) := by
  obtain ⟨s,_ | e⟩ := o
  · exact hf s h
  · cases e <;> exact h

theorem Leads.mono {P Q : Fleet W → Prop} {o : Outcome W} (h : Leads T plan E P o)
    (hpq : ∀ s, P s → Q s) : Leads T plan E Q o := by
  obtain ⟨s,_ | e⟩ := o
  · exact hpq s h
  · cases e <;> exact h

/-! ## Steps -/

theorem leads_step {P : Fleet W → Prop} {s : Fleet W} {id : String}
    {f : TaskLifecycle → Except LifecycleError TaskLifecycle} {l : TaskLifecycle}
    (h : f (s.lives id) = .ok l) (hp : P (s.put id l)) :
    Leads T plan E P (s.step id f) := by
  rw [Fleet.step, h]
  exact hp

/-- A task that has no calls is given another life that does not wait. -/
theorem Settled.block (hn : (plan.tasks.map TaskSpec.id).Nodup) {s : Fleet W}
    (h : Settled T plan E s) {t : TaskSpec W} (ht : t ∈ plan.tasks) (hw : isWaiting (s.lives t.id).state)
    {reason : String} (hr : isBlank reason.toList = false) :
    Leads T plan E (fun s' => Settled T plan E s' ∧ Only t.id s s')
      (s.step t.id (fun l => l.block reason)) := by
  obtain ⟨l,hl,hstate,hattempt,hmax⟩ := TaskLifecycle.block_open hw hr
  refine leads_step hl ⟨?_,?_⟩
  · have hnone : ∀ c ∈ s.calls, c.task.id ≠ t.id := by
      intro c hc he
      rcases h.ended c hc with hc' | hc' <;> rw [he] at hc' <;> rw [hc'] at hw <;>
        rcases hw with hw | hw <;> cases hw
    refine ⟨h.allowed,h.judged,fun c hc => ?_,fun u hu => ?_⟩
    · have hended := h.ended c hc
      rw [Ended] at hended ⊢
      rwa [Fleet.put_of_ne (hnone c hc)]
    · have hcount := h.tasks u hu
      by_cases he : u.id = t.id
      · have hut : u = t := List.inj_on_of_nodup_map hn hu ht he
        subst hut
        constructor
        · rw [Fleet.put_self, hmax, hcount.maxAttempts]
        · rw [Fleet.put_self, hstate]
          decide
        · rw [Fleet.put_self, hstate]
          rintro (hb | hb) <;> cases hb
        · rw [Fleet.put_self, hattempt]
          exact hcount.count
        · rw [Fleet.put_self, hattempt]
          exact hcount.bound
      · exact hcount.congr (Fleet.put_of_ne he _ _) rfl
  · refine ⟨fun id hid => Fleet.put_of_ne hid _ _,not_done_of_waiting hw,?_⟩
    rw [Fleet.put_self, hstate]
    rintro (hb | hb) <;> cases hb

end

end PdFleet.Serial
