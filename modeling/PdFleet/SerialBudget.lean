import PdFleet.SerialAttempts

/-!
# The calls of a whole run

The batches of a wave, the passes that block tasks, and the waves of a run: each leaves
every task either as it was or settled, so that a run ends and every call is accounted for.
-/

set_option autoImplicit false

namespace PdFleet.Serial

open Contracts

section

variable {W : Type} [Label W] {T : Tables} {plan : FleetPlan W} {E : Environment W}
  {t : TaskSpec W} {s : Fleet W}

/-! ## Batches -/

theorem Grows.callable {u : TaskSpec W} {s' : Fleet W} (h : Only t.id s s')
    (hu : Startable T plan E s u) (hne : u.id ≠ t.id) : Startable T plan E s' u where
  mem := hu.mem
  undone := by
    rw [h.others u.id hne]
    exact hu.undone
  deps dep hd := by
    rw [h.grows.done dep (hu.deps dep hd)]
    exact hu.deps dep hd
  waves v hv hb := by
    rw [h.grows.done v.id (hu.waves v hv hb)]
    exact hu.waves v hv hb
  gates := hu.gates

/-- A task that a batch executes. -/
structure Due (T : Tables) (plan : FleetPlan W) (E : Environment W) (s : Fleet W)
    (t : TaskSpec W) : Prop extends Startable T plan E s t where
  waiting : isWaiting (s.lives t.id).state
  agent : agentBlock plan t = false
  attempts : 1 ≤ t.retryPolicy.maxAttempts

/-- What an operation between the executions does. -/
def Moves (T : Tables) (plan : FleetPlan W) (E : Environment W) (s s' : Fleet W) : Prop :=
  Settled T plan E s' ∧ Grows s s'

theorem Moves.trans {s' s'' : Fleet W} (h : Moves T plan E s s') (h' : Moves T plan E s' s'') :
    Moves T plan E s s'' := ⟨h'.1,h.2.trans h'.2⟩

theorem leads_batch (hn : (plan.tasks.map TaskSpec.id).Nodup) (answers : ℕ → Answer)
    (ts : List (TaskSpec W)) (hts : (ts.map TaskSpec.id).Nodup) :
    ∀ s, Settled T plan E s → (∀ t ∈ ts, Due T plan E s t) →
      Leads T plan E (fun s' => Moves T plan E s s' ∧ ∀ t ∈ ts, ¬ isWaiting (s'.lives t.id).state)
        (forTasks (executeTask plan E answers) ts s) := by
  induction ts with
  | nil =>
    intro s h _
    exact ⟨⟨h,Grows.refl s⟩,by simp⟩
  | cons t ts ih =>
    intro s h hdue
    rw [List.map_cons, List.nodup_cons] at hts
    have ht := hdue t List.mem_cons_self
    rw [forTasks]
    apply (leads_executeTask hn h ht.toStartable ht.waiting ht.agent ht.attempts answers).andThen
    rintro s' ⟨hs',honly⟩
    have hrest : ∀ u ∈ ts, Due T plan E s' u := by
      intro u hu
      have hue := hdue u (List.mem_cons_of_mem t hu)
      have hne : u.id ≠ t.id := fun he => hts.1 (he ▸ List.mem_map_of_mem hu)
      refine ⟨Grows.callable honly hue.toStartable hne,?_,hue.agent,hue.attempts⟩
      rw [honly.others u.id hne]
      exact hue.waiting
    apply (ih hts.2 s' hs' hrest).mono
    rintro s'' ⟨⟨hs'',hgrows⟩,hmoved⟩
    refine ⟨⟨hs'',honly.grows.trans hgrows⟩,fun u hu => ?_⟩
    rcases List.mem_cons.mp hu with rfl | hu
    · intro hw
      exact honly.moved (hgrows.waiting u.id hw ▸ hw)
    · exact hmoved u hu

/-- A pass over tasks that blocks some of those that wait. -/
theorem leads_blocking {f : Fleet W → TaskSpec W → Outcome W} {ts : List (TaskSpec W)}
    (hf : ∀ s, Settled T plan E s → ∀ t ∈ ts, Leads T plan E (Moves T plan E s) (f s t)) :
    ∀ s, Settled T plan E s → Leads T plan E (Moves T plan E s) (forTasks f ts s) := by
  induction ts with
  | nil =>
    intro s h
    exact ⟨h,Grows.refl s⟩
  | cons t ts ih =>
    intro s h
    rw [forTasks]
    apply (hf s h t List.mem_cons_self).andThen
    intro s' hs'
    apply (ih (fun s hs u hu => hf s hs u (List.mem_cons_of_mem t hu)) s' hs'.1).mono
    exact fun s'' hs'' => hs'.trans hs''

theorem leads_block (hn : (plan.tasks.map TaskSpec.id).Nodup) (h : Settled T plan E s)
    (ht : t ∈ plan.tasks) (hw : isWaiting (s.lives t.id).state) (reason : String)
    (hr : isBlank reason.toList = false) :
    Leads T plan E (Moves T plan E s) (s.step t.id (fun l => l.block reason)) := by
  apply (h.block hn ht hw hr).mono
  exact fun s' hs' => ⟨hs'.1,hs'.2.grows⟩

theorem isBlank_append {first rest : String} {c : Char} {l : List Char}
    (h : first.toList = c :: l) (hc : isSpace c = false) :
    isBlank (first ++ rest).toList = false := by
  rw [String.toList_append, h, List.cons_append]
  exact isBlank_cons hc

omit [Label W] in
theorem isBlank_agentReason (t : TaskSpec W) : isBlank (agentReason plan t).toList = false := by
  unfold agentReason
  split
  · split_ifs
    · rw [String.append_assoc]
      exact isBlank_append rfl (by decide)
    · rw [String.append_assoc]
      exact isBlank_append rfl (by decide)
  · rw [String.append_assoc, String.append_assoc, String.append_assoc]
    exact isBlank_append rfl (by decide)

theorem isBlank_dependencyReason : isBlank dependencyReason.toList = false := by decide

theorem leads_blockAll (hn : (plan.tasks.map TaskSpec.id).Nodup) (h : Settled T plan E s) :
    Leads T plan E (Moves T plan E s) (blockAll plan s) := by
  rw [blockAll]
  apply leads_blocking _ s h
  intro s h t ht
  have htm := of_mem_tasksById ht
  rw [blockTask]
  by_cases hres : isResolved (s.lives t.id).state = true
  · rw [if_pos hres]
    exact ⟨h,Grows.refl s⟩
  · have hw : isWaiting (s.lives t.id).state := by
      have hrun := (h.tasks t htm).quiet
      revert hres hrun
      cases (s.lives t.id).state <;> simp [isResolved, isWaiting]
    rw [if_neg hres]
    split_ifs
    · exact leads_block hn h htm hw (agentReason plan t) (isBlank_agentReason t)
    · exact leads_block hn h htm hw dependencyReason isBlank_dependencyReason
    · exact ⟨h,Grows.refl s⟩

theorem leads_stallAll (hn : (plan.tasks.map TaskSpec.id).Nodup) (h : Settled T plan E s)
    (wave : List Char) : Leads T plan E (Moves T plan E s) (stallAll T plan E wave s) := by
  rw [stallAll]
  apply leads_blocking _ s h
  intro s h t ht
  have htm := of_mem_tasksById ht
  rw [stallTask]
  split_ifs with hopen hfails hgates
  · exact h.quiet
  · exact ⟨h,Grows.refl s⟩
  · have hw : isWaiting (s.lives t.id).state := by
      simp only [Fleet.serial, SerialState.isOpen, Bool.and_eq_true, Bool.or_eq_true,
        decide_eq_true_eq] at hopen
      exact hopen.1.2.imp of_decide_eq_true of_decide_eq_true
    exact leads_block hn h htm hw _ (isBlank_append rfl (by decide))
  · exact ⟨h,Grows.refl s⟩

end

/-! ## Runs -/

section

variable {W : Type} [Label W] {T : Tables} {plan : FleetPlan W} {E : Environment W}

omit [Label W] in
theorem mem_tasksOf {ids : List String} {t : TaskSpec W} (h : t ∈ tasksOf plan ids) :
    t ∈ plan.tasks ∧ t.id ∈ ids := by
  obtain ⟨id,hid,ht⟩ := List.mem_filterMap.mp h
  obtain ⟨hmem,rfl⟩ := of_lookup_byId ht
  exact ⟨hmem,hid⟩

omit [Label W] in
theorem nodup_tasksOf {ids : List String} (h : ids.Nodup) :
    ((tasksOf plan ids).map TaskSpec.id).Nodup := by
  have hsub : ((tasksOf plan ids).map TaskSpec.id).Sublist ids := by
    clear h
    rw [tasksOf]
    induction ids with
    | nil => exact List.Sublist.refl _
    | cons id ids ih =>
      cases hl : (byId plan).lookup id with
      | none =>
        simp only [List.filterMap_cons, hl]
        exact ih.cons id
      | some t =>
        simp only [List.filterMap_cons, hl, List.map_cons, (of_lookup_byId hl).2]
        exact ih.cons_cons id
  exact h.sublist hsub

/-- Every task that the plan calls done is done, and every task may be tried once. -/
structure Begun (plan : FleetPlan W) (s : Fleet W) : Prop where
  finished : ∀ t ∈ plan.tasks, Finished t → isDone (s.lives t.id).state
  attempts : ∀ t ∈ plan.tasks, 1 ≤ t.retryPolicy.maxAttempts

omit [Label W] in
theorem Begun.grows {s s' : Fleet W} (h : Begun plan s) (hg : Grows s s') : Begun plan s' where
  finished t ht hf := by
    rw [hg.done t.id (h.finished t ht hf)]
    exact h.finished t ht hf
  attempts := h.attempts

/-- What is ready is due. -/
theorem due_of_can {s : Fleet W} (h : Begun plan s) {t : TaskSpec W}
    (hc : Can T plan E.toSetting s.serial.states t) : Due T plan E s t := by
  have hdone : ∀ id, TerminalId plan s.serial.states id → isDone (s.lives id).state := by
    rintro id ⟨u,hu,rfl,hd | hf⟩
    · exact hd
    · exact h.finished u hu hf
  refine ⟨⟨hc.able.mem,not_done_of_waiting hc.waiting,?_,?_,hc.able.gates⟩,hc.waiting,hc.able.agent,
    h.attempts t hc.able.mem⟩
  · exact fun dep hd => hdone dep (hc.deps dep hd)
  · exact fun u hu hb => hdone u.id (hc.barrier u hu hb)

theorem leads_runWave {ids : List String} (hv : validatePlan T plan = .ok ids)
    (hn : (plan.tasks.map TaskSpec.id).Nodup) (answers : ℕ → Answer) (wave : List Char) (fuel : ℕ) :
    ∀ s, Settled T plan E s → Begun plan s → (waitingIds plan s.serial.states).card < fuel →
      Leads T plan E (Moves T plan E s) (runWave T plan E answers wave fuel s) := by
  induction fuel with
  | zero =>
    intro s _ _ hlt
    omega
  | succ fuel ih =>
    intro s h hb hlt
    rw [runWave]
    cases hr : readyIds T plan E s with
    | error e =>
      dsimp only
      rw [readyIds] at hr
      split_ifs at hr with hscope
      · cases hr
        exact h.quiet
      · obtain ⟨ready,hready⟩ := readyIds_ok (E := E.toSetting) hv s.serial
        rw [hready] at hr
        cases hr
    | ok ready =>
      dsimp only
      have hready : Orchestrator.readyIds T plan E.toSetting s.serial = .ok ready := by
        rw [readyIds] at hr
        split_ifs at hr
        cases ho : Orchestrator.readyIds T plan E.toSetting s.serial with
        | error errors =>
          rw [ho] at hr
          cases hr
        | ok ready' =>
          rw [ho] at hr
          cases hr
          rfl
      by_cases hempty : (readyInWave T plan wave ready).take E.maxParallel = []
      · rw [if_pos hempty]
        exact ⟨h,Grows.refl s⟩
      · rw [if_neg hempty]
        have hnodup : ((readyInWave T plan wave ready).take E.maxParallel).Nodup :=
          ((nodup_readyIds hn hready).filter _).sublist (List.take_sublist _ _)
        have hcan : ∀ id ∈ (readyInWave T plan wave ready).take E.maxParallel,
            ∃ t, Can T plan E.toSetting s.serial.states t ∧ t.id = id := by
          intro id hid
          obtain ⟨t,ht,hid',-⟩ := (mem_readyInWave hn hready).mp (List.mem_of_mem_take hid)
          exact ⟨t,ht,hid'⟩
        have hrecord : Settled T plan E
            (s.record ((readyInWave T plan wave ready).take E.maxParallel)) :=
          ⟨h.allowed,h.judged,h.ended,fun t ht => (h.tasks t ht).congr rfl rfl⟩
        have hdue : ∀ t ∈ tasksOf plan ((readyInWave T plan wave ready).take E.maxParallel),
            Due T plan E (s.record ((readyInWave T plan wave ready).take E.maxParallel)) t := by
          intro t ht
          obtain ⟨hmem,hid⟩ := mem_tasksOf ht
          obtain ⟨u,hu,he⟩ := hcan t.id hid
          obtain rfl := List.inj_on_of_nodup_map hn hu.able.mem hmem he
          exact due_of_can (s := s.record _) ⟨hb.finished,hb.attempts⟩ hu
        -- the first id of the batch waits no more, so that fewer tasks are left
        obtain ⟨id,hid⟩ := List.exists_mem_of_ne_nil _ hempty
        obtain ⟨t,ht,rfl⟩ := hcan id hid
        have htm : t ∈ tasksOf plan ((readyInWave T plan wave ready).take E.maxParallel) :=
          List.mem_filterMap.mpr ⟨t.id,hid,lookup_byId_of_nodup hn ht.able.mem⟩
        apply Leads.andThen (P := fun s' => Moves T plan E s s' ∧
          ¬ isWaiting (s'.lives t.id).state)
        · apply (leads_batch hn answers _ (nodup_tasksOf hnodup) _ hrecord hdue).andThen
          rintro s₁ ⟨hs₁,hmoved⟩
          apply (leads_blockAll hn hs₁.1).mono
          intro s₂ hs₂
          have hgrows : Grows s s₁ := ⟨hs₁.2.done,hs₁.2.waiting⟩
          refine ⟨⟨hs₂.1,hgrows.trans hs₂.2⟩,fun hw => ?_⟩
          exact hmoved t htm (hs₂.2.waiting t.id hw ▸ hw)
        · rintro s' ⟨hs',hmoved⟩
          have hless : (waitingIds plan s'.serial.states).card <
              (waitingIds plan s.serial.states).card := by
            apply Finset.card_lt_card
            rw [Finset.ssubset_iff_of_subset (waitingIds_grows hs'.2)]
            use t.id
            exact ⟨mem_waitingIds.mpr ⟨List.mem_map_of_mem ht.able.mem,ht.waiting⟩,
              fun hmem => hmoved (mem_waitingIds.mp hmem).2⟩
          apply (ih s' hs'.1 (hb.grows hs'.2) (by omega)).mono
          exact fun s'' hs'' => hs'.trans hs''

theorem leads_runWaves {ids : List String} (hv : validatePlan T plan = .ok ids)
    (hn : (plan.tasks.map TaskSpec.id).Nodup) (answers : ℕ → Answer) (waves : List (List Char)) :
    ∀ s, Settled T plan E s → Begun plan s →
      Leads T plan E (Moves T plan E s) (runWaves T plan E answers waves s) := by
  induction waves with
  | nil =>
    intro s h _
    exact ⟨h,Grows.refl s⟩
  | cons wave waves ih =>
    intro s h hb
    rw [runWaves]
    have hcard : (waitingIds plan s.serial.states).card ≤ plan.tasks.length := waitingIds_card_le _
    have hvisit : Leads T plan E (Moves T plan E s)
        ((runWave T plan E answers wave (plan.tasks.length+1) s).andThen
          (stallAll T plan E wave)) := by
      apply (leads_runWave hv hn answers wave _ s h hb (by omega)).andThen
      intro s' hs'
      apply (leads_stallAll hn hs'.1 wave).mono
      exact fun s'' hs'' => hs'.trans hs''
    apply hvisit.andThen
    intro s' hs'
    apply (ih s' hs'.1 (hb.grows hs'.2)).mono
    exact fun s'' hs'' => hs'.trans hs''

theorem leads_run {ids : List String} (hv : validatePlan T plan = .ok ids)
    (hn : (plan.tasks.map TaskSpec.id).Nodup) (answers : ℕ → Answer) (labels : List (List Char))
    {s : Fleet W} (h : Settled T plan E s) (hb : Begun plan s) :
    Leads T plan E (Settled T plan E) (run T plan E answers labels s) := by
  rw [run]
  apply (leads_blockAll hn h).andThen
  intro s₁ hs₁
  cases orderedWaves T labels with
  | none => exact hs₁.1.quiet
  | some visits =>
    apply (leads_runWaves hv hn answers visits s₁ hs₁.1 (hb.grows hs₁.2)).andThen
    intro s₂ hs₂
    apply (leads_blockAll hn hs₂.1).mono
    exact fun s₃ hs₃ => hs₃.1

end

/-! ## The beginning -/

theorem ofText_finished {status : String} (h : status = "completed" ∨ status = "skipped") :
    ∃ st, LifecycleState.ofText (if status = "running" then "ready" else status) = some st ∧
      isDone st := by
  rcases h with rfl | rfl
  · exact ⟨.completed,by decide,Or.inl rfl⟩
  · exact ⟨.skipped,by decide,Or.inr rfl⟩

theorem ofText_not_running (status : String) :
    LifecycleState.ofText (if status = "running" then "ready" else status) ≠ some .running := by
  unfold LifecycleState.ofText
  split_ifs <;> simp_all

/-- What a life begins with. -/
structure NewLife (status : String) (limit : ℕ) (l : TaskLifecycle) : Prop where
  attempt : l.attempt = 0
  maxAttempts : l.maxAttempts = limit
  positive : 1 ≤ limit
  quiet : l.state ≠ .running
  finished : status = "completed" ∨ status = "skipped" → isDone l.state

theorem fresh_of_newLifecycle {taskId status : String} {maxAttempts : ℕ} {l : TaskLifecycle}
    (h : newLifecycle taskId status maxAttempts = .ok l) : NewLife status maxAttempts l := by
  rw [newLifecycle] at h
  cases hs : LifecycleState.ofText (if status = "running" then "ready" else status) with
  | none =>
    rw [hs] at h
    cases h
  | some st =>
    rw [hs] at h
    dsimp only at h
    split_ifs at h with hid hmax
    cases h
    refine ⟨rfl,rfl,by omega,?_,?_⟩
    · rintro rfl
      exact ofText_not_running status hs
    · intro hf
      obtain ⟨st',hst',hdone⟩ := ofText_finished hf
      rw [hst'] at hs
      cases hs
      exact hdone

section

variable {W : Type} {plan : FleetPlan W}

theorem lookup_lives {ts : List (TaskSpec W)} (hn : (ts.map TaskSpec.id).Nodup)
    {lives : List (String × TaskLifecycle)}
    (h : ts.mapM (fun t => (newLifecycle t.id t.status t.retryPolicy.maxAttempts).map
      (fun l => (t.id,l))) = .ok lives) {t : TaskSpec W} (ht : t ∈ ts) :
    ∃ l, lives.lookup t.id = some l ∧ NewLife t.status t.retryPolicy.maxAttempts l := by
  induction ts generalizing lives with
  | nil => cases ht
  | cons u ts ih =>
    rw [List.mapM_cons] at h
    obtain ⟨e,he,h⟩ := ok_of_bind h
    obtain ⟨rest,hrest,h⟩ := ok_of_bind h
    cases h
    rw [List.map_cons, List.nodup_cons] at hn
    cases hl : newLifecycle u.id u.status u.retryPolicy.maxAttempts with
    | error e' =>
      rw [hl] at he
      cases he
    | ok l =>
      rw [hl] at he
      cases he
      rcases List.mem_cons.mp ht with rfl | ht
      · exact ⟨l,List.lookup_cons_self,fresh_of_newLifecycle hl⟩
      · have hne : t.id ≠ u.id := fun he => hn.1 (he ▸ List.mem_map_of_mem ht)
        obtain ⟨l',hl',hfresh⟩ := ih hn.2 hrest ht
        refine ⟨l',?_,hfresh⟩
        rw [List.lookup_cons, beq_false_of_ne hne]
        exact hl'

theorem fresh_of_resume (hn : (plan.tasks.map TaskSpec.id).Nodup) {s : Fleet W}
    (h : resume plan = .ok s) : s.calls = [] ∧ ∀ t ∈ plan.tasks,
      NewLife t.status t.retryPolicy.maxAttempts (s.lives t.id) := by
  obtain ⟨lives,hlives,h⟩ := ok_of_bind h
  cases h
  refine ⟨rfl,fun t ht => ?_⟩
  obtain ⟨l,hl,hfresh⟩ := lookup_lives hn hlives ht
  show NewLife _ _ ((lives.lookup t.id).getD (noTask t.id))
  rw [hl]
  exact hfresh

end

section

variable {W : Type} [Label W] {T : Tables} {plan : FleetPlan W} {E : Environment W}

theorem settled_of_resume (hn : (plan.tasks.map TaskSpec.id).Nodup) {s : Fleet W}
    (h : resume plan = .ok s) : Settled T plan E s ∧ Begun plan s := by
  obtain ⟨hcalls,hfresh⟩ := fresh_of_resume hn h
  have hnone : ∀ id, callsOf s id = 0 := by
    intro id
    rw [callsOf, hcalls]
    rfl
  constructor
  · refine ⟨by simp [hcalls],by simp [hcalls],by simp [hcalls],fun t ht => ?_⟩
    have hf := hfresh t ht
    refine ⟨hf.maxAttempts,hf.quiet,fun _ => hf.attempt,?_,?_⟩
    · rw [hnone, hf.attempt]
    · rw [hf.attempt]
      exact Nat.zero_le _
  · exact ⟨fun t ht hf => (hfresh t ht).finished hf,fun t ht => (hfresh t ht).positive⟩

/-- The status that is read of an answer can be looked up among texts. -/
def Judgeable (E : Environment W) (c : Call W) : Prop :=
  (readAnswer E c.task c.attempt c.answer).1.status.hashable = true

/-- **The calls of a serial run**, whatever the dispatcher answers: the run ends, each call is
made while nothing that its task waits for is undone, no task is called more often than its
policy lets it, and every called task ends exactly if every answer has a status that can be
looked up. -/
theorem serial_calls {ids : List String} (hv : validatePlan T plan = .ok ids)
    (hn : (plan.tasks.map TaskSpec.id).Nodup) {s : Fleet W} (hs : resume plan = .ok s)
    (answers : ℕ → Answer) (labels : List (List Char)) :
    let o := run T plan E answers labels s
    o.2 ≠ some .outOfFuel ∧ (∀ c ∈ o.1.calls, Allowed T plan E c) ∧
      (∀ t ∈ plan.tasks, callsOf o.1 t.id ≤ t.retryPolicy.maxAttempts) ∧
      ((∀ c ∈ o.1.calls, Ended o.1 c.task.id) ↔ ∀ c ∈ o.1.calls, Judgeable E c) := by
  intro o
  obtain ⟨hsettled,hbegun⟩ := settled_of_resume (T := T) (E := E) hn hs
  have hleads : Leads T plan E (Settled T plan E) o :=
    leads_run hv hn answers labels hsettled hbegun
  have hjudge : ∀ c : Call W, judged E c = .unhashable ↔ ¬ Judgeable E c := by
    intro c
    rw [judged, judge_unhashable_iff, Judgeable, Bool.not_eq_true]
  have hquiet : ∀ s', Quiet T plan E s' →
      (∀ c ∈ s'.calls, Allowed T plan E c) ∧
      (∀ t ∈ plan.tasks, callsOf s' t.id ≤ t.retryPolicy.maxAttempts) ∧
      ((∀ c ∈ s'.calls, Ended s' c.task.id) ↔ ∀ c ∈ s'.calls, Judgeable E c) := by
    intro s' h
    have hall : ∀ c ∈ s'.calls, Judgeable E c := by
      intro c hc
      by_contra hno
      exact h.judged c hc ((hjudge c).mpr hno)
    exact ⟨h.allowed,h.budget,iff_of_true h.ended hall⟩
  clear_value o
  obtain ⟨s',_ | e⟩ := o
  · exact ⟨by simp,hquiet s' hleads.quiet⟩
  · cases e with
    | outOfFuel => exact absurd hleads id
    | unhashable =>
      have hcrash : Crashed T plan E s' := hleads
      obtain ⟨c,hc,hno,hrun⟩ := hcrash.crash
      refine ⟨by simp,hcrash.allowed,hcrash.budget,iff_of_false ?_ ?_⟩
      · intro hend
        rcases hend c hc with he | he <;> rw [hrun] at he <;> cases he
      · exact fun hall => (hjudge c).mp hno (hall c hc)
    | lifecycle e => exact ⟨by simp,hquiet s' hleads⟩
    | wave => exact ⟨by simp,hquiet s' hleads⟩
    | scope => exact ⟨by simp,hquiet s' hleads⟩
    | plan errors => exact ⟨by simp,hquiet s' hleads⟩

end

/-- Nothing but the plan decides what is called. -/
def plainEnvironment : Environment ℤ where
  passed := []
  obstructed _ := false
  maxParallel := 1
  gates := []
  scopeFails := false
  missesInputs _ := false
  timeout := none
  reports := false
  tables := asciiReports

theorem serial_calls_raised : ∃ s, resume forwardPlan = .ok s ∧
    callsOf (run ascii forwardPlan plainEnvironment (fun _ => ⟨.raised,0,true⟩)
      ["1".toList,"2".toList] s).1 "a" ≤ 1 := by
  have hv : validatePlan ascii forwardPlan = .ok ["a","b"] := by decide
  refine ⟨_,rfl,?_⟩
  exact (serial_calls (E := plainEnvironment) hv (by decide) rfl _ _).2.2.1 (plainTask "a" 1 [] [])
    List.mem_cons_self

end PdFleet.Serial
