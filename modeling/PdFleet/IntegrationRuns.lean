import PdFleet.IntegrationSections
import PdFleet.Progress
import PdFleet.ReportReparse

/-!
# What a durable run returns

Amid any clients that commit no reports, a run of the loop reports for every task what the
store holds, but for the tasks whose terminal commits were refused, and it makes no more
waves than its retry policies and these refusals allow.
-/

set_option autoImplicit false

namespace PdFleet.Integration

open Dict

/-! ## Programs amid clients -/

section

variable {D : Deps} {rid : String} {s c : Snapshot} {α β : Type}

/-- Begun on a run that holds `s`, the program leaves one that holds a state which is in `Q`
with its result. -/
def Assures (D : Deps) (rid : String) (Q : α → Snapshot → Prop) (p : Prog α) (s : Snapshot) :
    Prop :=
  ∀ d, Held D rid d s → System.Gives (perform D allOk rid) Action.Quiet
    (fun r d' => ∃ c, Held D rid d' c ∧ Q r c) p d

variable {Q R : α → Snapshot → Prop} {p : Prog α}

theorem assures_ret {a : α} (h : ∀ c, Steady s c → Q a c) : Assures D rid Q (ret a) s := by
  intro d hd
  apply System.gives_some
  intro t ht
  obtain ⟨c,hc,hs⟩ := quiet_sections hd ht
  exact ⟨c,hc,h c hs⟩

theorem assures_stop : Assures D rid Q (.done none) s := by
  intro d hd t ht r hr
  cases hr

theorem Assures.andThen {f : α → Prog β} {T : β → Snapshot → Prop} (h : Assures D rid Q p s)
    (hf : ∀ r c, Q r c → Assures D rid T (f r) c) :
    Assures D rid T (Script.andThen p f) s := by
  intro d hd
  apply (h d hd).andThen
  rintro r u ⟨c,hc,hq⟩
  exact hf r c hq u hc

theorem Assures.mono (h : Assures D rid Q p s) (hq : ∀ r c, Q r c → R r c) :
    Assures D rid R p s := by
  intro d hd
  apply (h d hd).mono
  rintro r u ⟨c,hc,hr⟩
  exact ⟨c,hc,hq r c hr⟩

/-- The others run first, then the section. -/
theorem assures_step {a : Action} {next : Outcome PyError Reply → Prog α}
    (h : ∀ d c x, Held D rid d c → Steady s c → ∃ e, Held D rid (perform D allOk rid a x d).2 e ∧
      Assures D rid Q (next (perform D allOk rid a x d).1) e) :
    Assures D rid Q (.step a next) s := by
  intro d hd t ht x
  obtain ⟨c,hc,hs⟩ := quiet_sections hd ht
  obtain ⟨e,he,hn⟩ := h t c x hc hs
  exact hn _ he

theorem assures_received {Q : Result → Snapshot → Prop} {o : Outcome PyError Reply}
    (h : ∀ r, received o = some r → ∀ c, Steady s c → Q r c) :
    Assures D rid Q (.done (received o)) s := by
  cases hr : received o with
  | none => exact assures_stop
  | some r => exact assures_ret (h r hr)

theorem received_ok {o : Outcome PyError Reply} {r : Reply} (h : received o = some (.ok r)) :
    o = .ok r := by
  cases o with
  | ok r' =>
    cases h
    rfl
  | raised e => cases h
  | cut => cases h

theorem assures_quiet {a : Action} (ha : a.Quiet) :
    Assures D rid (fun _ c => Steady s c) (oneSection a) s := by
  apply assures_step
  intro d c x hd hs
  obtain ⟨e,he,hce⟩ := quiet_perform hd ha x
  exact ⟨e,he,assures_received (fun _ _ _ hs' => (hs.trans hce).trans hs')⟩

end

section

variable {D : Deps} {rid : String} {s c : Snapshot} {W : Type} {S : Setting W}

/-! ## The calls of the loop -/

theorem loaded_assures : Assures D rid (fun r c => ∃ e, r = .ok e ∧ Steady s e ∧ Steady e c)
    loaded s := by
  have hload : Assures D rid (fun (r : Result) c => ∃ e, r = .ok (.state e) ∧ Steady s e ∧
      Steady e c) (oneSection .load) s := by
    apply assures_step
    intro d c x hd hs
    rw [perform_load hd.reads]
    refine ⟨c,hd,assures_received ?_⟩
    intro r hr e he
    cases hr
    exact ⟨c,rfl,hs,he⟩
  apply hload.andThen
  rintro r c ⟨e,rfl,hse,hec⟩
  exact assures_ret (fun u hu => ⟨e,rfl,hse,hec.trans hu⟩)

theorem readyIdsAt_assures (now : Option String) :
    Assures D rid (fun _ c => Steady s c) (readyIdsAt now) s := by
  apply loaded_assures.andThen
  rintro r c ⟨e,rfl,hse,hec⟩
  exact assures_ret (fun u hu => (hse.trans hec).trans hu)

/-- The tokens of a claim are granted amid the sections of others. -/
def GrantsAmid (s : Snapshot) (ks : List LeaseToken) (c : Snapshot) : Prop :=
  ∃ e, Steady s e ∧ Granted e c ks

theorem claimed_assures (now : Option String) (limit : ℕ) :
    Assures D rid (fun r c => ∀ ks, r = .ok ks → GrantsAmid s ks c) (claimed S now limit) s := by
  have herror : ∀ (e : PyError) (c : Snapshot), Assures D rid (fun (r : Result) c =>
      ∀ ks, r = .ok (.tokens ks) → GrantsAmid s ks c) (.done (some (.error e))) c := by
    intro e c
    apply assures_ret
    intro _ _ ks hks
    cases hks
  have hclaim : Assures D rid (fun (r : Result) c =>
      ∀ ks, r = .ok (.tokens ks) → GrantsAmid s ks c)
      (schedulerClaim S.owner S.slots now S.runOwner (some (limit : ℤ)) (.int 60)) s := by
    rw [schedulerClaim]
    split
    · exact herror _ _
    split
    · exact herror _ _
    split
    · exact herror _ _
    apply assures_step
    intro d c x hd hs
    rw [perform_load hd.reads]
    refine ⟨c,hd,?_⟩
    dsimp only
    split
    · exact herror _ _
    apply assures_step
    intro d' e x' hd' hs'
    obtain ⟨u,hu,hsu,hk⟩ := claimMany_perform hd' x' rfl
    refine ⟨u,hu,?_⟩
    have hse := hs.trans hs'
    split
    · rename_i err _
      apply assures_ret
      intro v hv ks hks
      rw [claimError] at hks
      split_ifs at hks
      cases hks
      exact ⟨e,hse,granted_nil (hsu.trans hv)⟩
    · rename_i o _
      apply assures_received
      intro r hr v hv ks hks
      subst hks
      exact ⟨e,hse,(hk ks (received_ok hr)).later hv⟩
  apply hclaim.andThen
  intro r c hr
  apply assures_ret
  intro u hu ks hks
  cases r with
  | error e => cases hks
  | ok reply =>
    cases reply with
    | tokens ks' =>
      cases hks
      obtain ⟨e,hse,hg⟩ := hr ks rfl
      exact ⟨e,hse,hg.later hu⟩
    | state _ => cases hks
    | token _ => cases hks
    | terminalEvent _ _ _ => cases hks
    | nothing => cases hks

theorem appended_assures (t : String) : Assures D rid (fun _ c => Steady s c) (appended S t) s := by
  refine Assures.andThen (assures_quiet ?_) ?_
  · rfl
  exact fun r c hs => assures_ret (fun u hu => hs.trans hu)

theorem released_assures (k : LeaseToken) :
    Assures D rid (fun _ c => Steady s c) (released S k) s := by
  refine Assures.andThen (assures_quiet ?_) ?_
  · rfl
  exact fun r c hs => assures_ret (fun u hu => hs.trans hu)

/-- A commit is taken or it changes no report. -/
theorem committed_assures (k : LeaseToken) (report : Obj) (st : ReportStatus) :
    Assures D rid (fun done c => (done = true ∧ Took s c k.taskId st) ∨ (done = false ∧ Steady s c))
      (committed S k report st) s := by
  have hcommit : Assures D rid (fun (r : Result) c =>
      ((∃ y, r = .ok y) ∧ Took s c k.taskId st) ∨ ((∃ e, r = .error e) ∧ Steady s c))
      (oneSection (.commit k.taskId k.toJson S.runOwner (.obj report) (.str st.text))) s := by
    apply assures_step
    intro d c x hd hs
    obtain ⟨e,he,⟨r,ho,ht⟩ | ⟨err,ho,rfl⟩⟩ := commit_perform hd x rfl
    · rw [ho]
      refine ⟨e,he,assures_received ?_⟩
      intro r' hr u hu
      cases hr
      exact Or.inl ⟨⟨r,rfl⟩,(ht.after hs).steady hu⟩
    · rw [ho]
      refine ⟨e,he,assures_received ?_⟩
      intro r' hr u hu
      cases hr
      exact Or.inr ⟨⟨err,rfl⟩,hs.trans hu⟩
  apply hcommit.andThen
  rintro r c (⟨⟨y,rfl⟩,ht⟩ | ⟨⟨e,rfl⟩,hs⟩)
  · exact assures_ret (fun u hu => Or.inl ⟨rfl,ht.steady hu⟩)
  · exact assures_ret (fun u hu => Or.inr ⟨rfl,hs.trans hu⟩)

/-! ## One result -/

/-- A result whose invocation completed: its report is in the store, or it is a failure. -/
inductive ReadAs (S : Setting W) (s : Snapshot) (y : State) (t : String) :
    Reading → Snapshot → Prop
  | settled (st : ReportStatus) (report : Obj) (event : Bool) (c : Snapshot) (h : Took s c t st) :
      ReadAs S s y t (.settled (y.accept S t st report event)) c
  | failure (status : String) (error : Option String) (report : Option Obj) (c : Snapshot)
      (h : Steady s c) : ReadAs S s y t (.failure status error report) c

theorem runtimeFailure_assures {e : Snapshot} (y : State) (t : String) (h : Steady s e) :
    Assures D rid (ReadAs S s y t) (ret runtimeFailure) e :=
  assures_ret (fun _ hu => .failure _ _ _ _ (h.trans hu))

theorem acceptReport_assures {e : Snapshot} (k : LeaseToken) (report : Obj) (st : ReportStatus)
    (y : State) (h : Steady s e) :
    Assures D rid (ReadAs S s y k.taskId) (acceptReport S k report st y) e := by
  apply (committed_assures k report st).andThen
  rintro done c (⟨rfl,ht⟩ | ⟨rfl,hs⟩)
  · rw [if_pos rfl]
    apply (appended_assures k.taskId).andThen
    intro event u hu
    exact assures_ret (fun v hv => .settled st report event v
      ((ht.after h).steady (hu.trans hv)))
  · rw [if_neg (by decide)]
    exact runtimeFailure_assures y k.taskId (h.trans hs)

theorem readReport_assures {e : Snapshot} (k : LeaseToken) (parsed : Contracts.AgentReportV2)
    (y : State) (h : Steady s e) :
    Assures D rid (ReadAs S s y k.taskId) (readReport S k parsed y) e := by
  rw [readReport]
  split
  · exact runtimeFailure_assures y k.taskId h
  split
  · exact runtimeFailure_assures y k.taskId h
  split
  · exact assures_ret (fun u hu => .failure _ _ _ _ (h.trans hu))
  · exact acceptReport_assures k _ _ y h

theorem readCompleted_assures (k : LeaseToken) (value : Option Value) (y : State) :
    Assures D rid (ReadAs S s y k.taskId) (readCompleted S k value y) s := by
  rw [readCompleted]
  split
  · exact runtimeFailure_assures y k.taskId (Steady.refl s)
  apply loaded_assures.andThen
  rintro r c ⟨e,rfl,hse,hec⟩
  have hsc := hse.trans hec
  dsimp only
  split
  · exact readReport_assures k _ y hsc
  · exact runtimeFailure_assures y k.taskId hsc

/-! ## Failures -/

/-- What becomes of a task and its status where its result is settled. -/
inductive Settles (S : Setting W) (s : Snapshot) (y : State) (t : String) (c : Snapshot)
    (y' : State) : Prop
  | stored (st : ReportStatus) (h : Took s c t st)
      (hs : y'.statuses = y.statuses.insert t st.task) (hw : y'.waves = y.waves)
      (hr : y'.refused = y.refused)
  | retried (task : TaskSpec W) (h : Steady s c) (hl : (byId S.plan).lookup t = some task)
      (ha : (s.attempts.lookup t).getD 0 < task.retryPolicy.maxAttempts)
      (hs : y'.statuses = y.statuses.insert t .pending) (hw : y'.waves = y.waves)
      (hr : y'.refused = y.refused)
  | refused (st : ReportStatus) (hst : st ≠ .completed) (h : Steady s c)
      (hs : y'.statuses = y.statuses.insert t st.task) (hw : y'.waves = y.waves)
      (hr : y'.refused = y.refused++[t])

/-- The result of a task of the plan is settled, unless the run ends with an error. -/
def SettlesPlanned (S : Setting W) (s : Snapshot) (y : State) (t : String)
    (o : Except RunError State) (c : Snapshot) : Prop :=
  ∀ y', o = .ok y' → t ∈ byId S.plan ∧ Settles S s y t c y'

theorem settles_error {e : Snapshot} {y : State} {t : String} (err : RunError) :
    Assures D rid (SettlesPlanned S s y t) (ret (.error err)) e := by
  apply assures_ret
  intro _ _ y' hy
  cases hy

theorem scheduleRetry_assures {e : Snapshot} (k : LeaseToken) (attempt : ℕ) (cause : String)
    (y : State) {task : TaskSpec W} (h : Steady s e)
    (hl : (byId S.plan).lookup k.taskId = some task)
    (ha : (s.attempts.lookup k.taskId).getD 0 < task.retryPolicy.maxAttempts) :
    Assures D rid (SettlesPlanned S s y k.taskId) (scheduleRetry S k attempt cause y) e := by
  refine Assures.andThen (assures_quiet ?_) ?_
  · rfl
  intro r c hc
  cases r with
  | error err => exact settles_error _
  | ok reply =>
    apply (released_assures k).andThen
    intro _ u hu
    apply assures_ret
    intro v hv y' hy
    cases hy
    exact ⟨mem_of_lookup hl,.retried task (((h.trans hc).trans hu).trans hv) hl ha rfl rfl rfl⟩

theorem commitFailure_assures {e : Snapshot} (k : LeaseToken) (attempt : ℕ) (status cause : String)
    (report : Option Obj) (y : State) (h : Steady s e) (hl : k.taskId ∈ byId S.plan) :
    Assures D rid (SettlesPlanned S s y k.taskId)
      (commitFailure S k attempt status cause report y) e := by
  rw [commitFailure]
  dsimp only
  generalize hst : (if isCancelled status = true then ReportStatus.blocked else .failed) = st
  have hne : st ≠ .completed := by
    rw [← hst]
    split <;> decide
  apply (committed_assures k _ st).andThen
  rintro done c (⟨rfl,ht⟩ | ⟨rfl,hs⟩)
  · rw [if_pos rfl]
    apply (appended_assures k.taskId).andThen
    intro _ u hu
    apply (released_assures k).andThen
    intro _ v hv
    apply assures_ret
    intro w hw y' hy
    cases hy
    exact ⟨hl,.stored st ((ht.after h).steady ((hu.trans hv).trans hw)) rfl rfl rfl⟩
  · rw [if_neg (by decide)]
    apply (assures_ret (Q := fun _ u => Steady c u) (fun u hu => hu)).andThen
    intro _ u hu
    apply (released_assures k).andThen
    intro _ v hv
    apply assures_ret
    intro w hw y' hy
    cases hy
    exact ⟨hl,.refused st hne ((((h.trans hs).trans hu).trans hv).trans hw) rfl rfl rfl⟩

theorem handleFailure_assures {e : Snapshot} (k : LeaseToken) (status : String)
    (error : Option String) (report : Option Obj) (y : State) (h : Steady s e) :
    Assures D rid (SettlesPlanned S s y k.taskId) (handleFailure S k status error report y) e := by
  apply loaded_assures.andThen
  rintro r c ⟨u,rfl,heu,huc⟩
  dsimp only [Except.toOption, Option.map_some, Option.getD_some]
  have hsc : Steady s c := (h.trans heu).trans huc
  split
  · exact settles_error _
  rename_i task hl
  split
  · rename_i hretry
    apply scheduleRetry_assures k _ _ y hsc hl
    have hatt : attemptsOf u k.taskId < task.retryPolicy.maxAttempts := by
      rw [canRetry] at hretry
      simp only [Bool.and_eq_true, decide_eq_true_eq] at hretry
      exact hretry.1.2
    have hle := (h.trans heu).attempts_le k.taskId
    have hdef : (u.attempts.lookup k.taskId).getD 0 ≤ attemptsOf u k.taskId := by
      rw [attemptsOf]
      cases u.attempts.lookup k.taskId <;> simp
    omega
  · exact commitFailure_assures k _ _ _ report y hsc (mem_of_lookup hl)

theorem settleResult_assures {tokens : List LeaseToken} {r : Parallel.TaskResult Value} (y : State)
    (ht : r.taskId ∈ tokens.map LeaseToken.taskId)
    (hc : r.status = "completed" → r.taskId ∈ byId S.plan) :
    Assures D rid (SettlesPlanned S s y r.taskId) (settleResult S tokens r y) s := by
  rw [settleResult]
  split
  · rename_i hnone
    obtain ⟨k,hk,hkt⟩ := List.mem_map.mp ht
    have := List.find?_eq_none.mp hnone k hk
    simp [hkt] at this
  rename_i k hk
  have hkt : k.taskId = r.taskId := by simpa using List.find?_some hk
  rw [← hkt] at hc ⊢
  split
  · rename_i hdone
    apply (readCompleted_assures k r.value y).andThen
    intro o c ho
    cases ho with
    | settled st report event c hto =>
      apply assures_ret
      intro u hu y' hy
      cases hy
      exact ⟨hc hdone,.stored st (hto.steady hu) rfl rfl rfl⟩
    | failure status error report c hs => exact handleFailure_assures k _ _ _ y hs
  · exact handleFailure_assures k _ _ _ y (Steady.refl s)

/-! ## The invariant of the loop -/

/-- The waves that a task may be in before a commit of it is refused. -/
def budget (S : Setting W) (t : String) : ℕ :=
  ((byId S.plan).lookup t).elim 1 (fun task => max 1 task.retryPolicy.maxAttempts)

def inWaves (y : State) (t : String) : ℕ := y.waves.flatten.count t

/-- The statuses are those of the stored reports, or of tasks without one. -/
structure Agrees (S : Setting W) (y : State) (s : Snapshot) : Prop where
  stored : ∀ t ∈ byId S.plan, ∀ record, s.reports.lookup t = some record →
    y.statuses.lookup t = some record.status.task
  unstored : ∀ t ∈ byId S.plan, s.reports.lookup t = none →
    y.statuses.lookup t = some .pending ∨ (t ∈ y.refused ∧
      (y.statuses.lookup t = some .failed ∨ y.statuses.lookup t = some .blocked))

/-- The waves are within the budgets and the refusals. The tasks of `due` are in the last wave
and not settled yet. -/
structure Counted (S : Setting W) (y : State) (s : Snapshot) (due : List String) : Prop where
  known : ∀ t ∈ y.waves.flatten, t ∈ byId S.plan ∨ t ∈ due
  known_refused : ∀ t ∈ y.refused, t ∈ byId S.plan
  nonempty : ∀ w ∈ y.waves, w ≠ []
  attempted : ∀ t, inWaves y t ≤ (s.attempts.lookup t).getD 0
  total : ∀ t, inWaves y t ≤ budget S t+y.refused.count t
  spare : ∀ t, t ∉ due → s.reports.lookup t = none → inWaves y t < budget S t+y.refused.count t
  fresh : ∀ t ∈ due, s.reports.lookup t = none

theorem Agrees.later {y : State} (h : Agrees S y s) (hs : Steady s c) : Agrees S y c where
  stored := by
    rw [hs.reports]
    exact h.stored
  unstored := by
    rw [hs.reports]
    exact h.unstored

theorem Counted.later {y : State} {due : List String} (h : Counted S y s due) (hs : Steady s c) :
    Counted S y c due where
  known := h.known
  known_refused := h.known_refused
  nonempty := h.nonempty
  attempted := fun t => le_trans (h.attempted t) (hs.attempts_le t)
  total := h.total
  spare := by
    rw [hs.reports]
    exact h.spare
  fresh := by
    rw [hs.reports]
    exact h.fresh

theorem agrees_insert {y y' : State} {t : String} {st : TaskStatus} (h : Agrees S y s)
    (hs : y'.statuses = y.statuses.insert t st) (hr : ∀ u ∈ y.refused, u ∈ y'.refused)
    (ho : ∀ u, u ≠ t → c.reports.lookup u = s.reports.lookup u)
    (hstored : ∀ record, c.reports.lookup t = some record → st = record.status.task)
    (hun : c.reports.lookup t = none → st = .pending ∨
      (t ∈ y'.refused ∧ (st = .failed ∨ st = .blocked))) : Agrees S y' c where
  stored := by
    intro u hu record hrec
    rw [hs]
    by_cases hut : u = t
    · subst hut
      rw [AList.lookup_insert, hstored record hrec]
    · rw [AList.lookup_insert_ne hut]
      rw [ho u hut] at hrec
      exact h.stored u hu record hrec
  unstored := by
    intro u hu hnone
    rw [hs]
    by_cases hut : u = t
    · subst hut
      rw [AList.lookup_insert, Option.some.injEq, Option.some.injEq, Option.some.injEq]
      exact hun hnone
    · rw [AList.lookup_insert_ne hut]
      rw [ho u hut] at hnone
      exact (h.unstored u hu hnone).imp_right (fun hx => ⟨hr u hx.1,hx.2⟩)

theorem settles_agrees {y y' : State} {t : String} (h : Agrees S y s) (hf : s.reports.lookup t = none)
    (hs : Settles S s y t c y') : Agrees S y' c := by
  cases hs with
  | stored st ht hst hw hr =>
    apply agrees_insert h hst (fun u hu => by rw [hr]; exact hu) ht.others
    · intro record hrec
      obtain ⟨held,hl,hs⟩ := ht.held
      rw [hrec] at hl
      cases hl
      rw [hs]
    · intro hnone
      obtain ⟨held,hl,-⟩ := ht.held
      rw [hnone] at hl
      cases hl
  | retried task hst hl ha hstat hw hr =>
    apply agrees_insert h hstat (fun u hu => by rw [hr]; exact hu) (fun u _ => by rw [hst.reports])
    · intro record hrec
      rw [hst.reports, hf] at hrec
      cases hrec
    · exact fun _ => Or.inl rfl
  | refused st hne hst hstat hw hr =>
    apply agrees_insert h hstat (fun u hu => by rw [hr]; exact List.mem_append_left _ hu)
      (fun u _ => by rw [hst.reports])
    · intro record hrec
      rw [hst.reports, hf] at hrec
      cases hrec
    · intro _
      refine Or.inr ⟨by rw [hr]; exact List.mem_append_right _ (List.mem_singleton_self t),?_⟩
      cases st with
      | completed => exact absurd rfl hne
      | failed => exact Or.inl rfl
      | blocked => exact Or.inr rfl

theorem settles_counted {y y' : State} {t : String} {due : List String}
    (h : Counted S y s (t :: due)) (hn : t ∉ due) (hp : t ∈ byId S.plan)
    (hs : Settles S s y t c y') : Counted S y' c due := by
  have hknown : ∀ u ∈ y.waves.flatten, u ∈ byId S.plan ∨ u ∈ due := by
    intro u hu
    rcases h.known u hu with hu | hu
    · exact Or.inl hu
    · rcases List.mem_cons.mp hu with rfl | hu
      · exact Or.inl hp
      · exact Or.inr hu
  have hother : ∀ u, u ∉ due → u ≠ t → u ∉ t :: due := by
    intro u hu hut hm
    rcases List.mem_cons.mp hm with rfl | hm
    · exact hut rfl
    · exact hu hm
  have hne : ∀ u ∈ due, u ≠ t := by
    rintro u hu rfl
    exact hn hu
  cases hs with
  | stored st ht hst hw hr =>
    refine ⟨by rw [hw]; exact hknown,by rw [hr]; exact h.known_refused,by rw [hw]; exact h.nonempty,
      ?_,?_,?_,?_⟩
    · intro u
      rw [inWaves, hw]
      exact le_trans (h.attempted u) (attempts_le_of_grown ht.grown u)
    · intro u
      rw [inWaves, hw, hr]
      exact h.total u
    · intro u hu hnone
      rw [inWaves, hw, hr]
      by_cases hut : u = t
      · subst hut
        obtain ⟨held,hl,-⟩ := ht.held
        rw [hnone] at hl
        cases hl
      · rw [ht.others u hut] at hnone
        exact h.spare u (hother u hu hut) hnone
    · intro u hu
      rw [ht.others u (hne u hu)]
      exact h.fresh u (List.mem_cons_of_mem t hu)
  | retried task hst hl ha hstat hw hr =>
    have hc := h.later hst
    refine ⟨by rw [hw]; exact hknown,by rw [hr]; exact h.known_refused,by rw [hw]; exact h.nonempty,
      ?_,?_,?_,fun u hu => hc.fresh u (List.mem_cons_of_mem t hu)⟩
    · intro u
      rw [inWaves, hw]
      exact hc.attempted u
    · intro u
      rw [inWaves, hw, hr]
      exact hc.total u
    · intro u hu hnone
      rw [inWaves, hw, hr]
      by_cases hut : u = t
      · subst hut
        have hb : budget S u = max 1 task.retryPolicy.maxAttempts := by
          rw [budget, hl]
          rfl
        have hatt := h.attempted u
        rw [inWaves] at hatt
        omega
      · exact hc.spare u (hother u hu hut) hnone
  | refused st hnc hst hstat hw hr =>
    have hc := h.later hst
    refine ⟨by rw [hw]; exact hknown,?_,by rw [hw]; exact h.nonempty,?_,?_,?_,
      fun u hu => hc.fresh u (List.mem_cons_of_mem t hu)⟩
    · intro u hu
      rw [hr] at hu
      rcases List.mem_append.mp hu with hu | hu
      · exact h.known_refused u hu
      · rw [List.mem_singleton.mp hu]
        exact hp
    · intro u
      rw [inWaves, hw]
      exact hc.attempted u
    · intro u
      have := hc.total u
      rw [inWaves, hw, hr, List.count_append]
      rw [inWaves] at this
      omega
    · intro u hu hnone
      rw [inWaves, hw, hr, List.count_append]
      by_cases hut : u = t
      · subst hut
        have := hc.total u
        rw [inWaves] at this
        rw [List.count_singleton_self]
        omega
      · have := hc.spare u (hother u hu hut) hnone
        rw [inWaves] at this
        omega

/-! ## A wave -/

/-- The variables of the loop between two rounds. -/
structure Sound (S : Setting W) (y : State) (s : Snapshot) : Prop where
  agrees : Agrees S y s
  counted : Counted S y s []

theorem Sound.later {y : State} (h : Sound S y s) (hs : Steady s c) : Sound S y c :=
  ⟨h.agrees.later hs,h.counted.later hs⟩

theorem settleAll_assures {tokens : List LeaseToken} (rs : List (Parallel.TaskResult Value))
    (y : State) (hn : (rs.map Parallel.TaskResult.taskId).Nodup)
    (ht : ∀ r ∈ rs, r.taskId ∈ tokens.map LeaseToken.taskId)
    (hc : ∀ r ∈ rs, r.status = "completed" → r.taskId ∈ byId S.plan) (ha : Agrees S y s)
    (hb : Counted S y s (rs.map Parallel.TaskResult.taskId)) :
    Assures D rid (fun o c => ∀ y', o = .ok y' → Sound S y' c ∧ y'.waves = y.waves)
      (settleAll S tokens rs y) s := by
  induction rs generalizing y s with
  | nil =>
    apply assures_ret
    intro c hs y' hy
    cases hy
    exact ⟨⟨ha.later hs,hb.later hs⟩,rfl⟩
  | cons r rs ih =>
    rw [List.map_cons, List.nodup_cons] at hn
    rw [List.map_cons] at hb
    apply (settleResult_assures y (ht r List.mem_cons_self) (hc r List.mem_cons_self)).andThen
    intro o c ho
    cases o with
    | error e =>
      apply assures_ret
      intro _ _ y' hy
      cases hy
    | ok y' =>
      obtain ⟨hp,hs⟩ := ho y' rfl
      have hf := hb.fresh r.taskId List.mem_cons_self
      have hw : y'.waves = y.waves := by cases hs <;> assumption
      apply (ih y' hn.2 (fun u hu => ht u (List.mem_cons_of_mem r hu))
        (fun u hu => hc u (List.mem_cons_of_mem r hu)) (settles_agrees ha hf hs)
        (settles_counted hb hn.1 hp hs)).mono
      intro o u hu y'' hy
      obtain ⟨hsound,hwaves⟩ := hu y'' hy
      exact ⟨hsound,hwaves.trans hw⟩

/-- A wave of granted tokens is counted, and its tasks are due. -/
theorem counted_wave {y y' : State} {ks : List LeaseToken} {ids due : List String}
    (h : Counted S y s []) (hg : Granted s c ks) (hw : y'.waves = y.waves++[ids])
    (hr : y'.refused = y.refused) (hids : ids.Perm (ks.map LeaseToken.taskId)) (hne : ks ≠ [])
    (hdue : ∀ t, t ∈ due ↔ t ∈ ids) : Counted S y' c due := by
  have hcount : ∀ t, inWaves y' t = inWaves y t+ids.count t := by
    intro t
    rw [inWaves, inWaves, hw, List.flatten_append, List.count_append, List.flatten_singleton]
  have hone : ∀ t, ids.count t ≤ 1 :=
    fun t => List.nodup_iff_count_le_one.mp (hids.nodup_iff.mpr hg.distinct) t
  have hzero : ∀ t, t ∉ ids → ids.count t = 0 := fun t ht => List.count_eq_zero.mpr ht
  have hopen : ∀ t ∈ ids, s.reports.lookup t = none := by
    intro t ht
    rw [← hg.steady.reports]
    exact hg.unreported t (hids.mem_iff.mp ht)
  refine ⟨?_,by rw [hr]; exact h.known_refused,?_,?_,?_,?_,?_⟩
  · intro t ht
    rw [hw, List.flatten_append, List.flatten_singleton] at ht
    rcases List.mem_append.mp ht with ht | ht
    · exact Or.inl ((h.known t ht).resolve_right List.not_mem_nil)
    · exact Or.inr ((hdue t).mpr ht)
  · intro w hwm
    rw [hw] at hwm
    rcases List.mem_append.mp hwm with hwm | hwm
    · exact h.nonempty w hwm
    · rw [List.mem_singleton.mp hwm]
      rintro rfl
      exact hne (List.map_eq_nil_iff.mp (List.nil_perm.mp hids))
  · intro t
    rw [hcount t]
    by_cases ht : t ∈ ids
    · have hmore := hg.counted t (hids.mem_iff.mp ht)
      have hold := h.attempted t
      have := hone t
      omega
    · rw [hzero t ht]
      exact le_trans (h.attempted t) (hg.steady.attempts_le t)
  · intro t
    rw [hcount t, hr]
    by_cases ht : t ∈ ids
    · have hold := h.spare t List.not_mem_nil (hopen t ht)
      have := hone t
      omega
    · rw [hzero t ht]
      exact h.total t
  · intro t ht hnone
    have hmem : t ∉ ids := fun hm => ht ((hdue t).mpr hm)
    rw [hg.steady.reports] at hnone
    rw [hcount t, hzero t hmem, hr]
    exact h.spare t List.not_mem_nil hnone
  · intro t ht
    rw [hg.steady.reports]
    exact hopen t ((hdue t).mp ht)

theorem runWave_assures {A : Answers} {y : State} {ks : List LeaseToken} {next : State → Prog Ended}
    {T : Ended → Snapshot → Prop} (h : Sound S y s) (hg : Granted s c ks) (hne : ks ≠ [])
    (hraised : ∀ e u, T (.raised e) u) (hwaiting : ∀ u, T .waiting u)
    (hnext : ∀ y' u, Sound S y' u → y'.waves.length = y.waves.length+1 →
      Assures D rid T (next y') u) :
    Assures D rid T (runWave S A (sortTokens ks) y next) c := by
  have hperm : ((sortTokens ks).map LeaseToken.taskId).Perm (ks.map LeaseToken.taskId) :=
    (List.perm_insertionSort _ ks).map _
  rw [runWave]
  split
  · exact assures_ret (fun u _ => hwaiting u)
  · exact assures_ret (fun u _ => hraised _ u)
  rename_i output events poisoned hrun
  rw [executed] at hrun
  obtain ⟨hnodup,hids,hdone⟩ := Parallel.run_fits hrun
  have hsort : (sortResults output).Perm output := List.perm_insertionSort _ output
  have hnames := hsort.map Parallel.TaskResult.taskId
  have hplan : ∀ r ∈ sortResults output, r.status = "completed" → r.taskId ∈ byId S.plan := by
    intro r hr hs
    obtain ⟨v,hv⟩ := hdone r (hsort.mem_iff.mp hr) hs
    by_contra hout
    simp [worker, Parallel.Task.id, Json.text?, hout] at hv
  apply (settleAll_assures (sortResults output) _ (hnames.nodup_iff.mpr hnodup) ?_ hplan ?_ ?_).andThen
  · intro o u ho
    cases o with
    | error e => exact assures_ret (fun v _ => hraised e v)
    | ok y' =>
      obtain ⟨hs,hw⟩ := ho y' rfl
      apply hnext y' u hs
      rw [hw, List.length_append, List.length_singleton]
  · intro r hr
    exact (hids r.taskId).mp (hnames.mem_iff.mp (List.mem_map_of_mem hr))
  · exact ⟨(h.agrees.later hg.steady).stored,(h.agrees.later hg.steady).unstored⟩
  · refine counted_wave h.counted hg ?_ ?_ hperm hne ?_
    · rfl
    · rfl
    · intro t
      rw [hnames.mem_iff]
      exact hids t

/-! ## The end of the loop -/

theorem lookup_closePending (statuses : Dict String TaskStatus) (t : String) :
    (closePending statuses).lookup t =
      if statuses.lookup t = some .pending then some .blocked else statuses.lookup t := by
  have key : ∀ (ids : List String) (d : Dict String TaskStatus),
      (ids.foldl (fun d id => if d.lookup id = some .pending then d.insert id .blocked else d)
        d).lookup t = if t ∈ ids ∧ d.lookup t = some .pending then some .blocked else d.lookup t := by
    intro ids
    induction ids with
    | nil =>
      intro d
      simp
    | cons id ids ih =>
      intro d
      rw [List.foldl_cons, ih]
      by_cases hid : d.lookup id = some TaskStatus.pending
      · rw [if_pos hid, lookup_insert_eq]
        by_cases ht : t = id
        · subst ht
          simp [hid]
        · simp [ht]
      · rw [if_neg hid]
        by_cases ht : t = id
        · subst ht
          simp [hid]
        · simp [ht]
  rw [closePending, key]
  by_cases hp : statuses.lookup t = some TaskStatus.pending
  · rw [if_pos ⟨mem_of_lookup hp,hp⟩, if_pos hp]
  · rw [if_neg (fun hx => hp hx.2), if_neg hp]

/-- Each task has the status of its report in the store. One without a report is blocked, or
failed where a terminal commit of it was refused. -/
structure Reported (S : Setting W) (result : OrchestrationResult) (refused : List String)
    (s : Snapshot) : Prop where
  stored : ∀ t ∈ byId S.plan, ∀ record, s.reports.lookup t = some record →
    result.statuses.lookup t = some record.status.task
  unstored : ∀ t ∈ byId S.plan, s.reports.lookup t = none →
    result.statuses.lookup t = some .blocked ∨
      (t ∈ refused ∧ result.statuses.lookup t = some .failed)

theorem Agrees.finish {y : State} (h : Agrees S y s) : Reported S y.finish y.refused s where
  stored := by
    intro t ht record hr
    have hs := h.stored t ht record hr
    rw [State.finish, lookup_closePending, hs, if_neg]
    cases record.status <;> decide
  unstored := by
    intro t ht hnone
    rw [State.finish, lookup_closePending]
    rcases h.unstored t ht hnone with hp | ⟨hr,hf | hb⟩
    · rw [if_pos hp]
      exact Or.inl rfl
    · rw [hf, if_neg (by decide)]
      exact Or.inr ⟨hr,rfl⟩
    · rw [hb, if_neg (by decide)]
      exact Or.inl rfl

/-- The waves are few: each task is in as many as its budget and its refused commits. -/
structure FewWaves (S : Setting W) (waves : List (List String)) (refused : List String) : Prop where
  each : ∀ t, waves.flatten.count t ≤ budget S t+refused.count t
  all : waves.length ≤ ((byId S.plan).keys.map (budget S)).sum+refused.length

theorem length_eq_sum_count {l ks : List String} (hn : ks.Nodup) (h : ∀ t ∈ l, t ∈ ks) :
    l.length = (ks.map (fun t => l.count t)).sum := by
  have hcard : ∑ t ∈ ks.toFinset, (l : Multiset String).count t = (l : Multiset String).card :=
    Multiset.sum_count_eq_card (fun t ht => List.mem_toFinset.mpr (h t ht))
  rw [List.sum_toFinset _ hn] at hcard
  simpa using hcard.symm

theorem length_le_flatten {waves : List (List String)} (h : ∀ w ∈ waves, w ≠ []) :
    waves.length ≤ waves.flatten.length := by
  induction waves with
  | nil => exact le_refl _
  | cons w waves ih =>
    have hw := List.length_pos_of_ne_nil (h w List.mem_cons_self)
    have hrest := ih (fun v hv => h v (List.mem_cons_of_mem w hv))
    rw [List.length_cons, List.flatten_cons, List.length_append]
    omega

theorem Counted.few {y : State} (h : Counted S y s []) : FewWaves S y.waves y.refused where
  each := h.total
  all := by
    have hn := (byId S.plan).keys_nodup
    have hk : ∀ t ∈ y.waves.flatten, t ∈ (byId S.plan).keys :=
      fun t ht => (h.known t ht).resolve_right List.not_mem_nil
    calc y.waves.length
      _ ≤ y.waves.flatten.length := length_le_flatten h.nonempty
      _ = ((byId S.plan).keys.map (fun t => y.waves.flatten.count t)).sum :=
        length_eq_sum_count hn hk
      _ ≤ ((byId S.plan).keys.map (fun t => budget S t+y.refused.count t)).sum :=
        List.sum_le_sum (fun t _ => h.total t)
      _ = ((byId S.plan).keys.map (budget S)).sum+
          ((byId S.plan).keys.map (fun t => y.refused.count t)).sum := List.sum_map_add
      _ = ((byId S.plan).keys.map (budget S)).sum+y.refused.length := by
        rw [← length_eq_sum_count hn h.known_refused]

/-- What is left of a run where it returns, or where its rounds are over. -/
structure EndsWell (S : Setting W) (rounds : ℕ) (o : Ended) (s : Snapshot) : Prop where
  returned : ∀ result refused, o = .returned result refused →
    Reported S result refused s ∧ FewWaves S result.waves refused
  unfinished : ∀ y, o = .unfinished y → FewWaves S y.waves y.refused ∧ y.waves.length = rounds

theorem endsWell_returned {y : State} {rounds : ℕ} (h : Sound S y s) :
    EndsWell S rounds (.returned y.finish y.refused) s where
  returned := by
    intro result refused ho
    cases ho
    exact ⟨h.agrees.finish,h.counted.few⟩
  unfinished := by
    intro y ho
    cases ho

theorem endsWell_raised {rounds : ℕ} (e : RunError) : EndsWell S rounds (.raised e) s := by
  constructor
  · intro result refused ho
    cases ho
  · intro y ho
    cases ho

theorem endsWell_waiting {rounds : ℕ} : EndsWell S rounds .waiting s := by
  constructor
  · intro result refused ho
    cases ho
  · intro y ho
    cases ho

theorem raised_assures {rounds : ℕ} (e : RunError) :
    Assures D rid (EndsWell S rounds) (ret (.raised e)) s :=
  assures_ret (fun _ _ => endsWell_raised e)

theorem loop_assures {A : Answers} (fuel : ℕ) (y : State) (h : Sound S y s) :
    Assures D rid (EndsWell S (y.waves.length+fuel)) (loop S A fuel y) s := by
  induction fuel generalizing y s with
  | zero =>
    apply assures_ret
    intro c hs
    constructor
    · intro result refused ho
      cases ho
    · intro y' ho
      cases ho
      exact ⟨h.counted.few,rfl⟩
  | succ fuel ih =>
    rw [loop]
    apply (readyIdsAt_assures (A.readyAt y.waves.length)).andThen
    intro r c hc
    cases r with
    | error e => exact raised_assures _
    | ok ready =>
      have hreturn : ∀ u, Steady s u → Assures D rid (EndsWell S (y.waves.length+(fuel+1)))
          (ret (.returned y.finish y.refused)) u :=
        fun u hu => assures_ret (fun v hv => endsWell_returned (h.later (hu.trans hv)))
      dsimp only
      split
      · exact hreturn c hc
      apply (claimed_assures (A.claimAt y.waves.length) _).andThen
      intro r u hu
      cases r with
      | error e => exact raised_assures _
      | ok ks =>
        obtain ⟨e,hce,hg⟩ := hu ks rfl
        have hse := hc.trans hce
        cases ks with
        | nil => exact hreturn u (hse.trans hg.steady)
        | cons k ks =>
          apply runWave_assures (h.later hse) hg (List.cons_ne_nil k ks)
          · exact fun err v => endsWell_raised err
          · exact fun v => endsWell_waiting
          · intro y' v hs hw
            have hrest := ih y' hs
            rw [hw] at hrest
            rwa [show y.waves.length+(fuel+1) = y.waves.length+1+fuel by omega]

/-! ## The start -/

theorem lookup_pendingAll {t : String} (h : t ∈ byId S.plan) :
    (pendingAll S.plan).lookup t = some .pending := by
  have key : ∀ (tasks : List (TaskSpec W)) (d : Dict String TaskStatus),
      (d.lookup t = some .pending ∨ ∃ task ∈ tasks, task.id = t) →
        (tasks.foldl (fun d task => d.insert task.id TaskStatus.pending) d).lookup t
          = some .pending := by
    intro tasks
    induction tasks with
    | nil =>
      rintro d (hd | ⟨task,ht,-⟩)
      · exact hd
      · cases ht
    | cons task tasks ih =>
      intro d hd
      apply ih
      by_cases htask : t = task.id
      · exact Or.inl (by rw [htask, AList.lookup_insert])
      · rcases hd with hd | ⟨u,hu,hut⟩
        · exact Or.inl (by rw [AList.lookup_insert_ne htask, hd])
        · rcases List.mem_cons.mp hu with rfl | hu
          · exact absurd hut.symm htask
          · exact Or.inr ⟨u,hu,hut⟩
  exact key S.plan.tasks ∅ (Or.inr (mem_byId.mp h))

theorem startState_eq (l : List (String × ReportRecord)) (y : State) :
    (l.foldl State.restore y).statuses =
        insertAll y.statuses (l.map (fun e => (e.1,e.2.status.task))) ∧
      (l.foldl State.restore y).waves = y.waves ∧
      (l.foldl State.restore y).refused = y.refused := by
  induction l generalizing y with
  | nil => exact ⟨rfl,rfl,rfl⟩
  | cons e l ih => exact ih (y.restore e)

theorem startState_sound (s : Snapshot) : Sound S (startState S s) s := by
  let l := (toFields s.reports).filter (fun e => e.1 ∈ byId S.plan)
  obtain ⟨hst,hw,hr⟩ := startState_eq l
    { waves := [], reports := [], statuses := pendingAll S.plan, terminalIds := [],
      poisoned := S.executor.poisoned, refused := [] }
  have hnames : ((l.map (fun e => (e.1,e.2.status.task))).map Prod.fst).Nodup := by
    have hsub : (l.map Prod.fst).Sublist ((toFields s.reports).map Prod.fst) :=
      List.filter_sublist.map _
    have hkeys : (toFields s.reports).map Prod.fst = s.reports.keys := by
      rw [toFields, List.map_map]
      rfl
    rw [List.map_map]
    exact (hkeys ▸ hsub).nodup s.reports.keys_nodup
  have hmem : ∀ t record, t ∈ byId S.plan → s.reports.lookup t = some record →
      (t,record.status.task) ∈ l.map (fun e => (e.1,e.2.status.task)) := by
    intro t record ht hrec
    exact List.mem_map.mpr ⟨(t,record),List.mem_filter.mpr
      ⟨(mem_toFields _ _ _).mpr hrec,by simpa using ht⟩,rfl⟩
  have hagrees : Agrees S (startState S s) s := by
    constructor
    · intro t ht record hrec
      rw [startState, hst]
      exact lookup_insertAll_of_mem _ _ t _ hnames (hmem t record ht hrec)
    · intro t ht hnone
      left
      rw [startState, hst, lookup_insertAll_of_notMem]
      · exact lookup_pendingAll ht
      · intro hm
        rw [List.map_map] at hm
        obtain ⟨e,he,rfl⟩ := List.mem_map.mp hm
        have hrec := (mem_toFields _ _ _).mp (List.mem_filter.mp he).1
        simp only [Function.comp_apply] at hnone
        rw [hnone] at hrec
        cases hrec
  have hwaves : (startState S s).waves = [] := hw
  have hrefused : (startState S s).refused = [] := hr
  have hnone : ∀ t, inWaves (startState S s) t = 0 := by
    intro t
    rw [inWaves, hwaves]
    rfl
  refine ⟨hagrees,?_,?_,?_,?_,?_,?_,fun t ht => absurd ht List.not_mem_nil⟩
  · intro t ht
    rw [hwaves] at ht
    cases ht
  · intro t ht
    rw [hrefused] at ht
    cases ht
  · intro w hw'
    rw [hwaves] at hw'
    cases hw'
  · intro t
    rw [hnone t]
    exact Nat.zero_le _
  · intro t
    rw [hnone t]
    exact Nat.zero_le _
  · intro t _ _
    have hpos : 0 < budget S t := by
      rw [budget]
      cases (byId S.plan).lookup t with
      | none => exact Nat.one_pos
      | some task => exact lt_of_lt_of_le Nat.one_pos (le_max_left _ _)
    rw [hnone t]
    omega

theorem appendMissing_assures (ids : List String) :
    Assures D rid (fun _ c => Steady s c) (appendMissing S ids) s := by
  induction ids generalizing s with
  | nil => exact assures_ret (fun c hc => hc)
  | cons id ids ih =>
    refine Assures.andThen (assures_quiet ?_) ?_
    · rfl
    intro r c hc
    cases r with
    | error e => exact assures_ret (fun u hu => hc.trans hu)
    | ok reply => exact ih.mono (fun _ u hu => hc.trans hu)

theorem runV2Integration_assures {A : Answers} (fuel : ℕ) (hv : S.obstruction = none) :
    Assures D rid (EndsWell S fuel) (runV2Integration S A fuel) s := by
  rw [runV2Integration, hv]
  apply loaded_assures.andThen
  rintro r c ⟨e,rfl,-,hec⟩
  apply (appendMissing_assures _).andThen
  intro r u hu
  cases r with
  | error err => exact raised_assures _
  | ok _ =>
    have hs := (startState_sound (S := S) e).later (hec.trans hu)
    have hw : (startState S e).waves = [] := (startState_eq _ _).2.1
    have hloop : Assures D rid (EndsWell S ((startState S e).waves.length+fuel))
        (loop S A fuel (startState S e)) u := loop_assures fuel (startState S e) hs
    rwa [hw, List.length_nil, Nat.zero_add] at hloop

end

/-! ## An orchestrator among clients -/

/-- Clients of a run directory, with the results of orchestrators and of other calls. -/
abbrev Crew (ι : Type) :=
  System ι RunDir Action (Outcome PyError Reply) (Option Ended ⊕ Option Result)

/-- Clients take steps in any order; the calls that start commit no report. -/
def CrewRun {ι : Type} [DecidableEq ι] (D : Deps) (rid : String) : Crew ι → Crew ι → Prop :=
  System.Run (perform D allOk rid)
    (fun p => ∃ k : Call, k.script.All Action.Quiet ∧ p = k.script.map Sum.inr)

section

variable {D : Deps} {rid : String} {W : Type} {S : Setting W} {A : Answers} {fuel : ℕ} {ι : Type}
  [DecidableEq ι] {i : ι} {y z : Crew ι} {s : Snapshot}

/-- The client `i` begins a run of the loop on a run directory that is made with no initial
state, whatever clients have done to it since. The others are within calls that commit no
report. -/
structure Begins (D : Deps) (rid : String) (S : Setting W) (A : Answers) (fuel : ℕ) (i : ι)
    (y : Crew ι) (s : Snapshot) : Prop where
  created : ∃ d, Created D rid none d ∧
    System.Sections (perform D allOk rid) (fun _ => True) d y.shared
  reads : Reads D rid y.shared s
  reconciled : S.obstruction = none
  script : y.client i = some ((runV2Integration S A fuel).map Sum.inl)
  others : System.Others Action.Quiet (fun r => r.isRight = true) i y

theorem run_endsWell (h : Begins D rid S A fuel i y s) (hrun : CrewRun D rid y z) {o : Ended}
    (hz : z.client i = some (.done (.inl (some o)))) :
    ∃ c, Reads D rid z.shared c ∧ EndsWell S fuel o c := by
  obtain ⟨d,hd,hpast⟩ := h.created
  obtain ⟨hfiles,hcoherent⟩ := run_coherent hd hpast h.reads
  have hgives := runV2Integration_assures (A := A) fuel h.reconciled y.shared ⟨hfiles,hcoherent⟩
  have hens : System.Ensures (perform D allOk rid) Action.Quiet
      (fun (r : Option Ended ⊕ Option Result) d' => ∀ o, r = .inl (some o) →
        ∃ c, Held D rid d' c ∧ EndsWell S fuel o c)
      ((runV2Integration S A fuel).map Sum.inl) y.shared := by
    apply System.Ensures.map
    apply System.Ensures.mono hgives
    intro r u hr o ho
    exact hr o (Sum.inl.inj ho)
  have hstarts : ∀ p : Script Action (Outcome PyError Reply) (Option Ended ⊕ Option Result),
      (∃ k : Call, k.script.All Action.Quiet ∧ p = k.script.map Sum.inr) →
        p.Keeps Action.Quiet (fun r => r.isRight = true) := by
    rintro p ⟨k,hk,rfl⟩
    exact hk.keeps (fun r => rfl)
  obtain ⟨c,hc,he⟩ := System.run_ensures hstarts hens h.script h.others hrun (by simp) hz o rfl
  exact ⟨c,hc.reads,he⟩

end

/-! ## A run whose tasks are leased -/

/-- An orchestrator of two tasks. -/
def pairSetting : Setting ℤ where
  plan := plainPlan [plainTask "a" 0 [] [],plainTask "b" 0 [] []]
  tables := Contracts.asciiReports
  runOwner := "me"
  maxParallel := 2
  parallel_pos := by decide
  timeout := none
  owner := "me"
  slots := 2
  executor := Parallel.pair
  copyValue := some
  backoffSeconds _ := .int 0
  obstruction := none

/-- A scheduler without a clock, and an adapter that always fails. -/
def idleAnswers : Answers where
  readyAt _ := none
  claimAt _ := none
  work _ _ := .raises
  pool _ := Parallel.lastFirst
  turns _ := 9

/-- Both tasks of the run are leased. -/
def bothHeld : Snapshot :=
  { sampleState with
    leases := insertAll ∅ (grants "me" "2026-01-01T00:01:00.000000Z" 1 (fun _ => sampleToken)
      ["a","b"])
    attempts := ["a","b"].foldl bumpAttempt ∅
    generation := 1 }

theorem both_claimed : Writes sampleDeps
    (.claimMany ["a","b"] "me" 2 (.int 60) (.timed (select 2))) sampleDraws sampleState bothHeld
    (.tokens ((grants "me" "2026-01-01T00:01:00.000000Z" 1 (fun _ => sampleToken) ["a","b"]).map
      (fun e => leaseToken "run" e.1 e.2))) := ⟨_,rfl,rfl⟩

theorem both_ready : readyIds bothHeld none = .ok [] := rfl

/-- Nothing is ready, so that the run returns at once. -/
theorem pair_runs {d : RunDir} (h : Reads sampleDeps "run" d bothHeld) :
    System.Runs (perform sampleDeps allOk "run")
      ((runV2Integration pairSetting idleAnswers 1).map Sum.inl : Script _ _ (_ ⊕ Option Result)) d
      (.done (.inl (some (.returned (startState pairSetting bothHeld).finish [])))) d := by
  refine .step sampleDraws ?_
  rw [perform_load h]
  refine .step sampleDraws ?_
  rw [perform_load h]
  exact .refl _ _

theorem pair_begins : ∃ y z : Crew ℕ, Begins sampleDeps "run" pairSetting idleAnswers 1 0 y bothHeld ∧
    CrewRun sampleDeps "run" y z ∧ z.client 0 =
      some (.done (.inl (some (.returned (startState pairSetting bothHeld).finish [])))) := by
  have hv : bothHeld.Valid sampleDeps "run" :=
    writes_valid sample_valid sample_coherent rfl both_claimed
  obtain ⟨d,hp,-,hf⟩ := files_moves sample_files sample_regular both_claimed hv
  let p : Script Action (Outcome PyError Reply) (Option Ended ⊕ Option Result) :=
    (runV2Integration pairSetting idleAnswers 1).map Sum.inl
  let y : Crew ℕ := (System.idle d).setClient 0 (some p) d
  have hpast : System.Section (perform sampleDeps allOk "run") (fun _ => True) sampleDir d :=
    ⟨_,sampleDraws,trivial,by rw [hp]⟩
  have hothers : System.Others Action.Quiet (fun r => r.isRight = true) 0 y := by
    intro j q hj hq
    rw [System.client_setClient_ne hj] at hq
    cases hq
  refine ⟨y,_,⟨⟨sampleDir,sample_created,.single hpast⟩,files_reads hf,rfl,
    System.client_setClient ..,hothers⟩,System.run_client (pair_runs (files_reads hf))
      (System.client_setClient ..) rfl,System.client_setClient ..⟩

end PdFleet.Integration
