import PdFleet.ReportReparse
import PdFleet.SerialCalls

/-!
# The attempts of a task

A task that can start is attempted until it is completed, or has failed for the last time.
Each attempt is one call, made while nothing that the task waits for is undone.
-/

set_option autoImplicit false

namespace PdFleet.Serial

open Contracts

/-! ## What is accepted is there -/

theorem present_of_meaningful {v : Json} (h : meaningful v = true) : v.present = true := by
  cases v with
  | str s =>
    simp only [meaningful, Bool.not_eq_true'] at h
    simp only [Json.present, decide_eq_true_eq]
    rintro rfl
    cases h
  | arr xs =>
    cases xs with
    | nil => cases h
    | cons x xs => rfl
  | obj kvs =>
    cases kvs with
    | nil => cases h
    | cons e kvs => rfl
  | null => cases h
  | bool b => rfl
  | int n => rfl
  | float r => rfl

theorem meaningful_of_completed {T : ReportTables} {r : AgentReportV2} (h : Checked T r)
    (hs : r.status = "completed") {k : String} (hk : k ∈ requiredPayload) :
    meaningful (r.payload k) = true := by
  have ho := h.outcome
  rw [checkOutcome, if_pos hs] at ho
  split at ho
  · cases ho
  next hnone =>
    have hfind := List.find?_eq_none.mp hnone k hk
    simpa using hfind

section

variable {W : Type} {E : Environment W} {t : TaskSpec W} {attempt : ℕ} {a : Answer}

theorem reportOf_checked {T : ReportTables} {output : Json} {r : AgentReportV2}
    (h : reportOf T t attempt output = some r) : Checked T r := by
  cases output with
  | obj o =>
    rw [reportOf] at h
    cases hp : parseAgentReportV2 T true (.data ((Obj.field o "report").getD .null)) with
    | error e =>
      rw [hp] at h
      cases h
    | ok r' =>
      rw [hp] at h
      simp only [Option.ite_none_right_eq_some, Option.some.injEq] at h
      rw [← h.2]
      exact (parsed_of_parse hp).toChecked
  | _ => cases h

/-- A report that is taken has its outputs and its evidence. -/
theorem withReport_valid {T : ReportTables} {commits : Bool} {r r' : Read}
    (h : withReport T t attempt commits r = (r',true)) :
    r'.output.present = true ∧ r'.evidence.present = true := by
  rw [withReport] at h
  cases hr : reportOf T t attempt r.output with
  | none =>
    rw [hr] at h
    cases h
  | some report =>
    rw [hr] at h
    dsimp only at h
    split_ifs at h with hs
    · cases h
      have hm := fun k hk => meaningful_of_completed (k := k) (reportOf_checked hr) hs hk
      exact ⟨present_of_meaningful (hm "outputs" (by decide)),
        present_of_meaningful (hm "evidence" (by decide))⟩
    · cases h
    · cases h

theorem readAnswer_valid {r : Read} (h : readAnswer E t attempt a = (r,true)) :
    r.output.present = true ∧ r.evidence.present = true := by
  rw [readAnswer] at h
  split_ifs at h
  · exact withReport_valid h
  · exact withReport_valid h
  · cases h
  · cases h

end

theorem sanitizeEntries_ne_nil (T : ReportTables) {result kvs : Obj} (h : result ≠ [] ∨ kvs ≠ []) :
    sanitizeEntries T result kvs ≠ [] := by
  induction kvs generalizing result with
  | nil =>
    rw [sanitizeEntries]
    exact h.resolve_right (by simp)
  | cons e kvs ih =>
    obtain ⟨k,v⟩ := e
    rw [sanitizeEntries]
    apply ih
    left
    cases result with
    | nil => simp [Obj.put]
    | cons e' result =>
      rw [Obj.put]
      split_ifs <;> simp

theorem sanitizePayload_present (T : ReportTables) {kvs : Obj} (h : kvs ≠ []) :
    (sanitizePayload T (.obj kvs)).present = true := by
  rw [sanitizePayload, Json.present]
  have hne : sanitizeEntries T [] kvs ≠ [] := sanitizeEntries_ne_nil T (Or.inr h)
  cases hs : sanitizeEntries T [] kvs with
  | nil => exact absurd hs hne
  | cons e rest => rfl

section

variable {W : Type} {t : TaskSpec W}

theorem normalizeOutput_obj {names : List String} {output v : Json} {evidence : Obj}
    (hn : names ≠ []) (h : normalizeOutput names output evidence = some v) :
    ∃ kvs : Obj, v = .obj kvs ∧ kvs ≠ [] := by
  unfold normalizeOutput at h
  cases output with
  | obj o =>
    dsimp only at h
    by_cases hx : Obj.hasExactly o names = true
    · rw [if_pos hx] at h
      cases h
      use names.dedup.map (fun name => (name,(Obj.field o name).getD .null))
      apply And.intro rfl
      simpa using hn
    · rw [if_neg hx] at h
      split at h
      · split_ifs at h
        cases h
        exact ⟨_,rfl,List.cons_ne_nil _ _⟩
      · cases h
  | null | bool | int | float | str | arr =>
    dsimp only at h
    split at h
    · cases h
      exact ⟨_,rfl,List.cons_ne_nil _ _⟩
    · cases h

theorem normalizeCompletion_present {T : ReportTables} {output evidence o e : Json}
    (h : normalizeCompletion T t output evidence = some (o,e)) :
    o.present = true ∧ e.present = true := by
  unfold normalizeCompletion at h
  by_cases hne : (decide (t.outputs = []) || absent output) = true
  · rw [if_pos hne] at h
    cases h
  · rw [if_neg hne] at h
    cases evidence with
    | obj kvs =>
      dsimp only at h
      cases hno : normalizeOutput t.outputs output kvs with
      | none =>
        rw [hno] at h
        cases h
      | some normalized =>
        rw [hno] at h
        dsimp only at h
        split_ifs at h with hany
        cases h
        simp only [Bool.or_eq_true, decide_eq_true_eq, not_or] at hne
        obtain ⟨kvs',rfl,hkvs'⟩ := normalizeOutput_obj hne.1 hno
        constructor
        · exact sanitizePayload_present T hkvs'
        · apply sanitizePayload_present T
          rintro rfl
          exact hany rfl
    | _ => cases h

end

/-! ## Judgements -/

section

variable {W : Type} {E : Environment W} {t : TaskSpec W} {attempt : ℕ} {a : Answer}

/-- What is completed has its outputs and its evidence. -/
theorem judge_completed {output evidence : Json}
    (h : judge E t attempt a = .completed output evidence) :
    output.present = true ∧ evidence.present = true := by
  cases hr : readAnswer E t attempt a with
  | mk r valid =>
    rw [judge, hr] at h
    dsimp only at h
    by_cases hs : r.status.isStr "completed" = true
    · rw [if_pos hs] at h
      cases valid with
      | true =>
        cases h
        exact readAnswer_valid hr
      | false =>
        rw [if_neg Bool.false_ne_true] at h
        cases hn : normalizeCompletion E.tables t r.output r.evidence with
        | none =>
          rw [hn] at h
          cases h
        | some p =>
          rw [hn] at h
          cases h
          exact normalizeCompletion_present hn
    · rw [if_neg hs] at h
      split_ifs at h

theorem hashable_of_isStr {v : Json} {s : String} (h : v.isStr s = true) : v.hashable = true := by
  cases v with
  | str s' => rfl
  | _ => cases h

/-- An answer cannot be judged if its status cannot be hashed. -/
theorem judge_unhashable_iff :
    judge E t attempt a = .unhashable ↔ (readAnswer E t attempt a).1.status.hashable = false := by
  cases hr : readAnswer E t attempt a with
  | mk r valid =>
    rw [judge, hr]
    dsimp only
    by_cases hs : r.status.isStr "completed" = true
    · rw [if_pos hs, hashable_of_isStr hs]
      apply iff_of_false
      · split <;> simp
      · simp
    · rw [if_neg hs]
      cases hh : r.status.hashable <;> simp

end

/-! ## The attempts of one task -/

section

variable {W : Type} [Label W] {T : Tables} {plan : FleetPlan W} {E : Environment W}
  {t : TaskSpec W} {s s₀ : Fleet W}

/-- A task that waits for nothing that is undone, and is not done itself. -/
structure Startable (T : Tables) (plan : FleetPlan W) (E : Environment W) (s : Fleet W)
    (t : TaskSpec W) : Prop where
  mem : t ∈ plan.tasks
  undone : ¬ isDone (s.lives t.id).state
  deps : ∀ dep ∈ t.dependsOn, isDone (s.lives dep).state
  waves : ∀ u ∈ plan.tasks, (u.waveId T).before (t.waveId T) = true → isDone (s.lives u.id).state
  gates : ∀ gate ∈ requiredGates T plan t, gate ∈ E.passed

/-- Only the task `t` has changed since `s₀`, and all calls but its own are as they were. -/
structure Trying (T : Tables) (plan : FleetPlan W) (E : Environment W) (s₀ : Fleet W)
    (t : TaskSpec W) (s : Fleet W) : Prop where
  others : ∀ id, id ≠ t.id → s.lives id = s₀.lives id
  allowed : ∀ c ∈ s.calls, Allowed T plan E c
  judged : ∀ c ∈ s.calls, Serial.judged E c ≠ .unhashable
  ended : ∀ c ∈ s.calls, c.task.id ≠ t.id → Ended s c.task.id
  counts : ∀ id, id ≠ t.id → callsOf s id = callsOf s₀ id
  maxAttempts : (s.lives t.id).maxAttempts = t.retryPolicy.maxAttempts

/-- A life of the task that is not tried any more. -/
theorem Trying.settled (hn : (plan.tasks.map TaskSpec.id).Nodup) (h₀ : Settled T plan E s₀)
    (ht : Startable T plan E s₀ t) (h : Trying T plan E s₀ t s) (he : Ended s t.id)
    (hcount : callsOf s t.id = (s.lives t.id).attempt)
    (hbound : (s.lives t.id).attempt ≤ t.retryPolicy.maxAttempts) :
    Settled T plan E s ∧ Only t.id s₀ s := by
  have hquiet : (s.lives t.id).state ≠ .running ∧ ¬ isWaiting (s.lives t.id).state := by
    rcases he with he | he <;> rw [he] <;> exact ⟨by decide,by rintro (h | h) <;> cases h⟩
  constructor
  · refine ⟨h.allowed,h.judged,fun c hc => ?_,fun u hu => ?_⟩
    · by_cases hid : c.task.id = t.id
      · rw [hid]
        exact he
      · exact h.ended c hc hid
    · by_cases hid : u.id = t.id
      · obtain rfl : u = t := List.inj_on_of_nodup_map hn hu ht.mem hid
        exact ⟨h.maxAttempts,hquiet.1,fun hw => absurd hw hquiet.2,hcount,hbound⟩
      · exact (h₀.tasks u hu).congr (h.others u.id hid) (h.counts u.id hid)
  · exact ⟨h.others,ht.undone,hquiet.2⟩

/-- Another life of the task. -/
theorem Trying.put (h : Trying T plan E s₀ t s) {l : TaskLifecycle}
    (hl : l.maxAttempts = (s.lives t.id).maxAttempts) : Trying T plan E s₀ t (s.put t.id l) where
  others id hid := by rw [Fleet.put_of_ne hid, h.others id hid]
  allowed := h.allowed
  judged := h.judged
  ended c hc hid := by
    rw [Ended, Fleet.put_of_ne hid]
    exact h.ended c hc hid
  counts := h.counts
  maxAttempts := by rw [Fleet.put_self, hl, h.maxAttempts]

omit [Label W] in
theorem callsOf_call (answers : ℕ → Answer) (id : String) :
    callsOf (s.call t answers) id = callsOf s id + if t.id = id then 1 else 0 := by
  rw [callsOf, Fleet.call, List.countP_append, List.countP_singleton]
  simp [callsOf]

theorem allowed_call (ht : Startable T plan E s₀ t)
    (hothers : ∀ id, id ≠ t.id → s.lives id = s₀.lives id)
    (hs : (s.lives t.id).state = .running) {attempt : ℕ} {a : Answer} :
    Allowed T plan E ⟨t,attempt,s.lives,a⟩ where
  mem := ht.mem
  running := hs
  deps dep hd := by
    have hdone := ht.deps dep hd
    show isDone (s.lives dep).state
    rwa [hothers dep (fun he => ht.undone (he ▸ hdone))]
  waves u hu hb := by
    have hdone := ht.waves u hu hb
    show isDone (s.lives u.id).state
    rwa [hothers u.id (fun he => ht.undone (he ▸ hdone))]
  gates := ht.gates

/-- A call for the task, with an answer that can be judged. -/
theorem Trying.call (ht : Startable T plan E s₀ t) (h : Trying T plan E s₀ t s)
    (hs : (s.lives t.id).state = .running) {answers : ℕ → Answer}
    (hj : judge E t (s.lives t.id).attempt (answers s.calls.length) ≠ .unhashable) :
    Trying T plan E s₀ t (s.call t answers) where
  others := h.others
  allowed c hc := by
    rcases List.mem_append.mp hc with hc | hc
    · exact h.allowed c hc
    · obtain rfl := List.mem_singleton.mp hc
      exact allowed_call ht h.others hs
  judged c hc := by
    rcases List.mem_append.mp hc with hc | hc
    · exact h.judged c hc
    · obtain rfl := List.mem_singleton.mp hc
      exact hj
  ended c hc hid := by
    rcases List.mem_append.mp hc with hc | hc
    · exact h.ended c hc hid
    · obtain rfl := List.mem_singleton.mp hc
      exact absurd rfl hid
  counts id hid := by
    rw [callsOf_call, if_neg (Ne.symm hid), Nat.add_zero]
    exact h.counts id hid
  maxAttempts := h.maxAttempts

/-- A call whose answer cannot be judged. -/
theorem Trying.crashed (hn : (plan.tasks.map TaskSpec.id).Nodup) (h₀ : Settled T plan E s₀)
    (ht : Startable T plan E s₀ t) (h : Trying T plan E s₀ t s)
    (hs : (s.lives t.id).state = .running) (hcount : callsOf s t.id + 1 ≤ t.retryPolicy.maxAttempts)
    {answers : ℕ → Answer}
    (hj : judge E t (s.lives t.id).attempt (answers s.calls.length) = .unhashable) :
    Crashed T plan E (s.call t answers) where
  allowed c hc := by
    rcases List.mem_append.mp hc with hc | hc
    · exact h.allowed c hc
    · obtain rfl := List.mem_singleton.mp hc
      exact allowed_call ht h.others hs
  budget u hu := by
    rw [callsOf_call]
    by_cases hid : u.id = t.id
    · obtain rfl : u = t := List.inj_on_of_nodup_map hn hu ht.mem hid
      rwa [if_pos rfl]
    · rw [if_neg (Ne.symm hid), Nat.add_zero, h.counts u.id hid, (h₀.tasks u hu).count]
      exact (h₀.tasks u hu).bound
  crash := by
    refine ⟨_,List.mem_append_right _ (List.mem_singleton_self _),hj,hs⟩

/-- The loop over the attempts ends, each of them one call. -/
theorem leads_attemptTask (hn : (plan.tasks.map TaskSpec.id).Nodup) (h₀ : Settled T plan E s₀)
    (ht : Startable T plan E s₀ t) (hagent : agentOf t ≠ "") (answers : ℕ → Answer) (fuel : ℕ) :
    ∀ s, Trying T plan E s₀ t s → (s.lives t.id).state = .ready →
      callsOf s t.id + 1 = (if (s.lives t.id).attempt = 0 then 1 else (s.lives t.id).attempt) →
      callsOf s t.id + 1 ≤ t.retryPolicy.maxAttempts →
      t.retryPolicy.maxAttempts ≤ fuel + callsOf s t.id →
      Leads T plan E (fun s' => Settled T plan E s' ∧ Only t.id s₀ s')
        (attemptTask E answers t fuel s) := by
  induction fuel with
  | zero =>
    intro s _ _ _ hle hfuel
    omega
  | succ fuel ih =>
    intro s h hready hattempt hle hfuel
    obtain ⟨l,hl,hstate,hnumber,hmax⟩ := TaskLifecycle.start_ready hready hagent
    rw [attemptTask]
    have hstart : Leads T plan E (fun s' => s' = s.put t.id l)
        (s.step t.id (fun l => l.start (agentOf t))) := leads_step hl rfl
    apply hstart.andThen
    rintro s' rfl
    dsimp only
    have hrun : ((s.put t.id l).lives t.id).state = .running := by rw [Fleet.put_self, hstate]
    have htry := h.put hmax
    have hcount : callsOf ((s.put t.id l).call t answers) t.id = l.attempt := by
      rw [callsOf_call, if_pos rfl, hnumber]
      exact hattempt
    have hbound : l.attempt ≤ t.retryPolicy.maxAttempts := by
      rw [hnumber, ← hattempt]
      exact hle
    cases hj : judge E t ((s.put t.id l).lives t.id).attempt
        (answers (s.put t.id l).calls.length) with
    | completed output evidence =>
      obtain ⟨ho,he⟩ := judge_completed hj
      obtain ⟨l',hl',hstate',hattempt',hmax'⟩ := TaskLifecycle.complete_running hrun ho he
      have hcalled : Trying T plan E s₀ t ((s.put t.id l).call t answers) :=
        htry.call ht hrun (by rw [hj]; exact Judgement.noConfusion)
      refine leads_step hl' ((hcalled.put hmax').settled hn h₀ ht ?_ ?_ ?_)
      · left
        rw [Fleet.put_self, hstate']
      · rw [Fleet.put_self, hattempt', Fleet.put_self]
        exact hcount
      · rw [Fleet.put_self, hattempt', Fleet.put_self]
        exact hbound
    | unhashable => exact htry.crashed hn h₀ ht hrun hle hj
    | failed error retryable =>
      dsimp only
      obtain ⟨l',hl',hstate',hattempt',hmax',hretry'⟩ :=
        TaskLifecycle.fail_running hrun error retryable
      have hcalled : Trying T plan E s₀ t ((s.put t.id l).call t answers) :=
        htry.call ht hrun (by rw [hj]; exact Judgement.noConfusion)
      have hfail : Leads T plan E (fun s' => s' = ((s.put t.id l).call t answers).put t.id l')
          (((s.put t.id l).call t answers).step t.id (fun l => l.fail error retryable)) :=
        leads_step hl' rfl
      apply hfail.andThen
      rintro s' rfl
      have hfailed := hcalled.put hmax'
      rw [Fleet.put_self] at hattempt'
      split_ifs with hagain
      · -- the policy lets the task be tried again
        rw [triesAgain, Bool.and_eq_true, Bool.and_eq_true, decide_eq_true_eq,
          Fleet.put_self] at hagain
        have hlt : l'.attempt < l'.maxAttempts := by
          have hm := hfailed.maxAttempts
          rw [Fleet.put_self] at hm
          rw [hm, hattempt']
          exact hagain.2
        have hlife : (((s.put t.id l).call t answers).put t.id l').lives t.id = l' :=
          Fleet.put_self _ _ _
        obtain ⟨l'',hl'',hstate'',hattempt'',hmax''⟩ :=
          TaskLifecycle.retry_failed hstate' hlt (hretry'.trans hagain.1.1)
        have hstep : Leads T plan E
            (fun s' => s' = (((s.put t.id l).call t answers).put t.id l').put t.id l'')
            ((((s.put t.id l).call t answers).put t.id l').step t.id TaskLifecycle.retry) :=
          leads_step (by rw [hlife]; exact hl'') rfl
        apply hstep.andThen
        rintro s' rfl
        have hcalls : callsOf ((((s.put t.id l).call t answers).put t.id l').put t.id l'') t.id =
            l.attempt := hcount
        apply ih _ (hfailed.put (by rw [hlife]; exact hmax''))
        · rw [Fleet.put_self, hstate'']
        · rw [hcalls, Fleet.put_self, hattempt'', hattempt', if_neg (by omega)]
        · rw [hcalls]
          exact hagain.2
        · have hbefore : callsOf s t.id + 1 = l.attempt := by rw [hnumber, ← hattempt]
          rw [hcalls]
          omega
      · refine hfailed.settled hn h₀ ht ?_ ?_ ?_
        · right
          rw [Fleet.put_self, hstate']
        · rw [Fleet.put_self, hattempt']
          exact hcount
        · rw [Fleet.put_self, hattempt']
          exact hbound

end

/-! ## The execution of a task -/

section

variable {W : Type} [Label W] {T : Tables} {plan : FleetPlan W} {E : Environment W}
  {t : TaskSpec W} {s : Fleet W}

theorem Settled.trying (h : Settled T plan E s) (ht : t ∈ plan.tasks) :
    Trying T plan E s t s where
  others _ _ := rfl
  allowed := h.allowed
  judged := h.judged
  ended c hc _ := h.ended c hc
  counts _ _ := rfl
  maxAttempts := (h.tasks t ht).maxAttempts

/-- A task that was not called is left as it is. -/
theorem Trying.quiet (hn : (plan.tasks.map TaskSpec.id).Nodup) {s₀ : Fleet W}
    (h₀ : Settled T plan E s₀) (ht : t ∈ plan.tasks) (h : Trying T plan E s₀ t s)
    (hzero : callsOf s t.id = 0) : Quiet T plan E s where
  allowed := h.allowed
  budget u hu := by
    by_cases hid : u.id = t.id
    · obtain rfl : u = t := List.inj_on_of_nodup_map hn hu ht hid
      rw [hzero]
      exact Nat.zero_le _
    · rw [h.counts u.id hid, (h₀.tasks u hu).count]
      exact (h₀.tasks u hu).bound
  judged := h.judged
  ended c hc := by
    apply h.ended c hc
    intro hid
    exact List.countP_eq_zero.mp hzero c hc (by simpa using hid)

theorem calls_of_waiting (h : Settled T plan E s) (ht : t ∈ plan.tasks)
    (hw : isWaiting (s.lives t.id).state) : callsOf s t.id = 0 := by
  rw [(h.tasks t ht).count, (h.tasks t ht).fresh hw]

/-- The attempts of a task that is ready. -/
theorem leads_attempts (hn : (plan.tasks.map TaskSpec.id).Nodup) {s₀ : Fleet W}
    (h₀ : Settled T plan E s₀) (ht : Startable T plan E s₀ t)
    (hmax : 1 ≤ t.retryPolicy.maxAttempts) (h : Trying T plan E s₀ t s)
    (hready : (s.lives t.id).state = .ready) (hattempt : (s.lives t.id).attempt = 0)
    (hzero : callsOf s t.id = 0) (answers : ℕ → Answer) :
    Leads T plan E (fun s' => Settled T plan E s' ∧ Only t.id s₀ s')
      (attemptTask E answers t t.retryPolicy.maxAttempts s) := by
  by_cases hagent : agentOf t = ""
  · -- without an agent the first start raises
    obtain ⟨fuel,hfuel⟩ : ∃ fuel, t.retryPolicy.maxAttempts = fuel+1 :=
      ⟨t.retryPolicy.maxAttempts-1,by omega⟩
    have hstart : s.step t.id (fun l => l.start (agentOf t)) = (s,some (.lifecycle .agent)) := by
      rw [Fleet.step, hagent]
      rfl
    rw [hfuel, attemptTask, hstart]
    exact h.quiet hn h₀ ht.mem hzero
  · apply leads_attemptTask hn h₀ ht hagent answers _ s h hready
    · rw [hzero, hattempt]
      rfl
    · rw [hzero]
      exact hmax
    · rw [hzero]
      exact Nat.le_refl _

theorem leads_executeTask (hn : (plan.tasks.map TaskSpec.id).Nodup) (h : Settled T plan E s)
    (ht : Startable T plan E s t) (hw : isWaiting (s.lives t.id).state)
    (hagent : agentBlock plan t = false) (hmax : 1 ≤ t.retryPolicy.maxAttempts)
    (answers : ℕ → Answer) :
    Leads T plan E (fun s' => Settled T plan E s' ∧ Only t.id s s')
      (executeTask plan E answers s t) := by
  have hopen : (s.lives t.id).state ≠ .completed := fun he => ht.undone (Or.inl he)
  rw [executeTask, if_neg hopen, hagent, if_neg Bool.false_ne_true]
  by_cases ho : E.obstructed t = true
  · rw [if_pos ho]
    apply h.block hn ht.mem hw
    split_ifs
    · decide
    · decide
  · rw [if_neg ho]
    have hzero := calls_of_waiting h ht.mem hw
    have hattempt := (h.tasks t ht.mem).fresh hw
    by_cases hp : (s.lives t.id).state = .pending
    · obtain ⟨l,hl,hstate,hsame,hl'⟩ := TaskLifecycle.markReady_pending hp
      rw [if_pos hp]
      have hstep : Leads T plan E (fun s' => s' = s.put t.id l)
          (s.step t.id TaskLifecycle.markReady) := leads_step hl rfl
      apply hstep.andThen
      rintro s' rfl
      apply leads_attempts hn h ht hmax ((h.trying ht.mem).put hl')
      · rw [Fleet.put_self, hstate]
      · rw [Fleet.put_self, hsame, hattempt]
      · exact hzero
    · rw [if_neg hp]
      exact leads_attempts hn h ht hmax (h.trying ht.mem) (hw.resolve_left hp) hattempt hzero
        answers

end

end PdFleet.Serial
