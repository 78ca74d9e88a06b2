import PdFleet.Bounds
import PdFleet.Integration
import PdFleet.ParallelRun

/-!
# The sections and the pool of the loop

What each section of the loop does to a run that other clients work on too, as long as they
commit no reports, and what the executor hands back.
-/

set_option autoImplicit false

namespace PdFleet

open Dict

/-! ## Reports come from commits -/

section

variable {D : Deps} {rid : String} {a : Action} {x : Draws} {s c : Snapshot} {r : Reply}
  {d d' : RunDir}

def Action.commits : Action → Bool
  | commit _ _ _ _ _ => true
  | _ => false

/-- The section is not a commit. -/
def Action.Quiet (a : Action) : Prop := a.commits = false

/-- The reports are the same, and nothing of the history is lost. -/
structure Steady (s c : Snapshot) : Prop where
  grown : Extends s c
  reports : c.reports = s.reports

theorem Steady.refl (s : Snapshot) : Steady s s := ⟨Extends.refl s,rfl⟩

theorem Steady.trans {e : Snapshot} (h : Steady s c) (h' : Steady c e) : Steady s e :=
  ⟨h.grown.trans h'.grown,h'.reports.trans h.reports⟩

theorem attempts_le_of_grown (h : Extends s c) (t : String) :
    (s.attempts.lookup t).getD 0 ≤ (c.attempts.lookup t).getD 0 := by
  cases hs : s.attempts.lookup t with
  | none => exact Nat.zero_le _
  | some n =>
    obtain ⟨m,hm,hc⟩ := h.attempts t n hs
    rw [hc]
    exact hm

theorem Steady.attempts_le (h : Steady s c) (t : String) :
    (s.attempts.lookup t).getD 0 ≤ (c.attempts.lookup t).getD 0 :=
  attempts_le_of_grown h.grown t

theorem quiet_reports (ha : a.Quiet) (h : Writes D a x s c r) : c.reports = s.reports := by
  obtain ⟨body,hb,h⟩ := h
  cases a with
  | load =>
    cases hb
    cases h
  | use t k o =>
    cases hb
    obtain ⟨_,-,h⟩ := ok_of_bind h
    obtain ⟨_,-,h⟩ := ok_of_bind h
    cases h
  | transition st o g =>
    obtain ⟨st,stamp,-,-,-,hc,-⟩ := of_transition hb h
    cases hc
    rfl
  | updateTaskStatus t st o g =>
    obtain ⟨st,known,stamp,-,-,-,-,-,hc,-⟩ := of_updateTaskStatus hb h
    cases hc
    rfl
  | appendTerminalEventIfAbsent t o g =>
    obtain ⟨-,record,-,⟨-,-,-,hc,-⟩ | ⟨-,rows,stamp,-,-,hc,-⟩⟩ := of_appendTerminal hb h <;>
      cases hc
    rfl
  | appendEvent e o g =>
    obtain ⟨given,rfl,rows,item,stamp,-,-,-,rfl⟩ := appendEvent_next hb h
    rfl
  | claim t o n g =>
    obtain ⟨now,expiry,stamp,-,-,-,-,-,-,-,hc,-⟩ := of_claim hb h
    cases hc
    rfl
  | claimMany ts o m n f =>
    obtain ⟨now,available,ids,-,-,-,⟨-,-,hc⟩ | ⟨-,expiry,stamp,-,-,-,hc,-⟩⟩ := of_claimMany hb h
    · rcases hc with ⟨hc,-⟩ | hc <;> cases hc
      rfl
    · cases hc
      rfl
  | renew t k o n =>
    obtain ⟨l,now,expiry,stamp,-,-,-,-,-,-,hc,-⟩ := of_renew hb h
    cases hc
    rfl
  | commit t k o report st => cases ha
  | release k o =>
    obtain ⟨t,l,stamp,-,-,hc,-⟩ := of_release hb h
    cases hc
    rfl
  | dropStale t now o g =>
    obtain ⟨leases,stamp,-,-,hc,-⟩ := of_dropStale hb h
    cases hc
    rfl

theorem quiet_steady (ha : a.Quiet) (h : Writes D a x s c r) : Steady s c :=
  ⟨(writes_extends h).1,quiet_reports ha h⟩

/-- The files are in order and hold the coherent state `s`. -/
structure Held (D : Deps) (rid : String) (d : RunDir) (s : Snapshot) : Prop where
  files : Files D rid s d
  coherent : Coherent s

theorem Held.reads (h : Held D rid d s) : Reads D rid d s := files_reads h.files

/-- The state that a section which writes leaves behind; the reader may refuse it. -/
theorem held_after (h : Held D rid d s) (hw : Writes D a x s c r)
    (hf : Files D rid (after D rid s c) d') :
    Held D rid d' (after D rid s c) ∧ (after D rid s c = c ∨ after D rid s c = s) := by
  by_cases hv : c.Valid D rid
  · rw [after_valid hv] at hf ⊢
    exact ⟨⟨hf,writes_coherent h.coherent hw⟩,Or.inl rfl⟩
  · rw [after_refused hv] at hf ⊢
    exact ⟨⟨hf,h.coherent⟩,Or.inr rfl⟩

/-- A section that is not a commit keeps the reports. -/
theorem quiet_perform (h : Held D rid d s) (ha : a.Quiet) (x : Draws) :
    ∃ c, Held D rid (perform D allOk rid a x d).2 c ∧ Steady s c := by
  have hend := files_perform h.files a x
  generalize (perform D allOk rid a x d).1 = o at hend
  generalize (perform D allOk rid a x d).2 = e at hend
  cases hend with
  | refused e d' hf => exact ⟨s,⟨hf,h.coherent⟩,Steady.refl s⟩
  | answered r hr => exact ⟨s,h,Steady.refl s⟩
  | wrote c r hw d' hp hf =>
    obtain ⟨hh,hc | hc⟩ := held_after h hw hf
    · exact ⟨_,hh,by rw [hc]; exact quiet_steady ha hw⟩
    · exact ⟨_,hh,by rw [hc]; exact Steady.refl s⟩

theorem quiet_section (h : Held D rid d s)
    (hd : System.Section (perform D allOk rid) Action.Quiet d d') :
    ∃ c, Held D rid d' c ∧ Steady s c := by
  obtain ⟨a,x,ha,rfl⟩ := hd
  exact quiet_perform h ha x

theorem quiet_sections (h : Held D rid d s)
    (hd : System.Sections (perform D allOk rid) Action.Quiet d d') :
    ∃ c, Held D rid d' c ∧ Steady s c := by
  induction hd with
  | refl => exact ⟨s,h,Steady.refl s⟩
  | tail _ hd ih =>
    obtain ⟨c,hc,hs⟩ := ih
    obtain ⟨e,he,hs'⟩ := quiet_section hc hd
    exact ⟨e,he,hs.trans hs'⟩

/-! ## A commit -/

/-- The run now holds a report of the task with this status, and the other reports are the
same. -/
structure Took (s c : Snapshot) (t : String) (st : ReportStatus) : Prop where
  grown : Extends s c
  held : ∃ record, c.reports.lookup t = some record ∧ record.status = st
  others : ∀ u, u ≠ t → c.reports.lookup u = s.reports.lookup u

theorem Took.steady {e : Snapshot} {t : String} {st : ReportStatus} (h : Took s c t st)
    (h' : Steady c e) : Took s e t st where
  grown := h.grown.trans h'.grown
  held := by
    rw [h'.reports]
    exact h.held
  others := by
    intro u hu
    rw [h'.reports]
    exact h.others u hu

theorem Took.after {e : Snapshot} {t : String} {st : ReportStatus} (h : Took c e t st)
    (h' : Steady s c) : Took s e t st where
  grown := h'.grown.trans h.grown
  held := h.held
  others := by
    intro u hu
    rw [← h'.reports]
    exact h.others u hu

/-- A commit that returns repeats a report of its status or puts one in. -/
theorem of_commit_status {taskId owner : String} {token : Json} {report : Obj} {st : ReportStatus}
    {body : Body} {o : Option Snapshot}
    (hb : commit D taskId token owner (.obj report) (.str st.text) x = .ok body)
    (h : body s = .ok (o,r)) :
    (o = none ∧ ∃ record, s.reports.lookup taskId = some record ∧ record.status = st) ∨
      ∃ c record, o = some c ∧ record.status = st ∧
        c.reports = s.reports.insert taskId record := by
  simp only [commit, Json.text?, Option.bind_some, ReportStatus.ofText_text] at hb
  split at hb
  · cases hb
  cases hb
  obtain ⟨_,-,h⟩ := ok_of_bind h
  obtain ⟨k,-,h⟩ := ok_of_bind h
  split at h
  · rename_i record hr
    rw [recommit] at h
    split at h
    · cases h
    split at h
    · rename_i hsame
      cases h
      exact Or.inl ⟨rfl,record,hr,hsame.2⟩
    · cases h
  · obtain ⟨l,-,h⟩ := ok_of_bind h
    obtain ⟨stamp,-,h⟩ := ok_of_bind h
    cases h
    exact Or.inr ⟨_,_,rfl,rfl,rfl⟩

theorem commit_perform {taskId owner : String} {token : Json} {report : Obj} {st : ReportStatus}
    (h : Held D rid d s) (x : Draws)
    (ha : a = .commit taskId token owner (.obj report) (.str st.text)) :
    ∃ c, Held D rid (perform D allOk rid a x d).2 c ∧
      ((∃ r, (perform D allOk rid a x d).1 = .ok r ∧ Took s c taskId st) ∨
        ∃ e, (perform D allOk rid a x d).1 = .raised e ∧ c = s) := by
  have hend := files_perform h.files a x
  generalize (perform D allOk rid a x d).1 = o at hend
  generalize (perform D allOk rid a x d).2 = e at hend
  cases hend with
  | refused e d' hf => exact ⟨s,⟨hf,h.coherent⟩,Or.inr ⟨e,rfl,rfl⟩⟩
  | answered r hr =>
    obtain ⟨body,hb,hr⟩ := hr
    rw [ha] at hb
    rcases of_commit_status hb hr with ⟨-,hrec⟩ | ⟨c,record,hc,-⟩
    · exact ⟨s,h,Or.inl ⟨r,rfl,Extends.refl s,hrec,fun u _ => rfl⟩⟩
    · cases hc
  | wrote c r hw d' hp hf =>
    have hq : a.appendsEvent = false := by
      rw [ha]
      rfl
    have hv : c.Valid D rid := writes_valid (reads_valid h.reads) h.coherent hq hw
    rw [after_valid hv] at hf
    refine ⟨c,⟨hf,writes_coherent h.coherent hw⟩,Or.inl ⟨r,rfl,(writes_extends hw).1,?_,?_⟩⟩
    all_goals
      obtain ⟨body,hb,hbody⟩ := hw
      rw [ha] at hb
      rcases of_commit_status hb hbody with ⟨hn,-⟩ | ⟨c',record,hc,hst,hrep⟩
      · cases hn
      cases hc
      rw [hrep]
    · exact ⟨record,AList.lookup_insert _,hst⟩
    · exact fun u hu => AList.lookup_insert_ne hu

/-! ## A claim -/

/-- The tokens are of distinct tasks that have no report, each counted as one more attempt. -/
structure Granted (s c : Snapshot) (ks : List LeaseToken) : Prop where
  steady : Steady s c
  distinct : (ks.map LeaseToken.taskId).Nodup
  unreported : ∀ t ∈ ks.map LeaseToken.taskId, c.reports.lookup t = none
  counted : ∀ t ∈ ks.map LeaseToken.taskId,
    (s.attempts.lookup t).getD 0+1 ≤ (c.attempts.lookup t).getD 0

theorem bumpAttempts_count (l : List String) (d : Dict String ℕ) (t : String) (h : t ∈ l) :
    (d.lookup t).getD 0+1 ≤ ((l.foldl bumpAttempt d).lookup t).getD 0 := by
  induction l generalizing d with
  | nil => cases h
  | cons u l ih =>
    by_cases hu : t = u
    · subst hu
      obtain ⟨m,hm,hl⟩ := bumpAttempts_mono l (bumpAttempt d t) t ((d.lookup t).getD 0+1)
        (by simp [bumpAttempt])
      rw [List.foldl_cons, hl, Option.getD_some]
      exact hm
    · have hrest := ih (bumpAttempt d u) ((List.mem_cons.mp h).resolve_left hu)
      rwa [bumpAttempt, AList.lookup_insert_ne hu] at hrest

theorem granted_nil (h : Steady s c) : Granted s c [] where
  steady := h
  distinct := List.nodup_nil
  unreported := fun _ ht => absurd ht List.not_mem_nil
  counted := fun _ ht => absurd ht List.not_mem_nil

theorem Granted.later {e : Snapshot} {ks : List LeaseToken} (h : Granted s c ks)
    (h' : Steady c e) : Granted s e ks where
  steady := h.steady.trans h'
  distinct := h.distinct
  unreported := by
    intro t ht
    rw [h'.reports]
    exact h.unreported t ht
  counted := fun t ht => le_trans (h.counted t ht) (h'.attempts_le t)

/-- Whatever a `claim_many` answers, the tokens that it hands out are granted. -/
theorem claimMany_perform {taskIds : List String} {owner : String} {m : ℤ} {seconds : Seconds}
    {sel : Selector} (h : Held D rid d s) (x : Draws)
    (ha : a = .claimMany taskIds owner m seconds sel) :
    ∃ c, Held D rid (perform D allOk rid a x d).2 c ∧ Steady s c ∧
      ∀ ks, (perform D allOk rid a x d).1 = .ok (.tokens ks) → Granted s c ks := by
  have hq : a.Quiet := by
    rw [ha]
    rfl
  have hn : a.appendsEvent = false := by
    rw [ha]
    rfl
  have hend := files_perform h.files a x
  generalize (perform D allOk rid a x d).1 = o at hend
  generalize (perform D allOk rid a x d).2 = e at hend
  cases hend with
  | refused e d' hf =>
    refine ⟨s,⟨hf,h.coherent⟩,Steady.refl s,?_⟩
    intro ks hk
    cases hk
  | answered r hr =>
    refine ⟨s,h,Steady.refl s,?_⟩
    intro ks hk
    cases hk
    obtain ⟨body,hb,hr⟩ := hr
    rw [ha] at hb
    obtain ⟨now,available,ids,-,-,-,⟨-,hk,-⟩ | ⟨-,expiry,stamp,-,-,-,hc,-⟩⟩ := of_claimMany hb hr
    · cases hk
      exact granted_nil (Steady.refl s)
    · cases hc
  | wrote c r hw d' hp hf =>
    have hsteady := quiet_steady hq hw
    have hv : c.Valid D rid := writes_valid (reads_valid h.reads) h.coherent hn hw
    rw [after_valid hv] at hf
    refine ⟨c,⟨hf,writes_coherent h.coherent hw⟩,hsteady,?_⟩
    intro ks hk
    cases hk
    obtain ⟨body,hb,hbody⟩ := hw
    rw [ha] at hb
    obtain ⟨now,available,ids,hcl,-,-,⟨-,hk,-⟩ | ⟨-,expiry,stamp,-,-,-,hc,hk⟩⟩ :=
      of_claimMany hb hbody
    · cases hk
      exact granted_nil hsteady
    · cases hc
      cases hk
      have hids : ((grants owner expiry (s.generation+1) x.token ids).map
          (fun e => leaseToken s.runId e.1 e.2)).map LeaseToken.taskId = ids := by
        rw [List.map_map]
        exact map_fst_grants ..
      refine ⟨hsteady,by rw [hids]; exact hcl.nodup,?_,?_⟩
      · intro t ht
        rw [hids] at ht
        rw [hsteady.reports]
        exact closed_report (hcl.open_ t (hcl.available t ht)).2.1
      · intro t ht
        rw [hids] at ht
        have hcount := bumpAttempts_count ids s.attempts t ht
        simpa [stamped, install, reclaim] using hcount

end

/-! ## The results of the executor -/

namespace Parallel

variable {α β : Type} {E : Executor} {P : Program α β} {W : Environment}
  {entries : List (String × Task α)} {st : State β}

/-- The result is of the task, and a completed one has a value of its runner. -/
def Fits (P : Program α β) (entries : List (String × Task α)) (id : String)
    (r : TaskResult β) : Prop :=
  r.taskId = id ∧ (r.status = "completed" → ∃ v, (copied P entries id).map P.runner = some (.value v))

theorem fits_failed {id : String} : Fits P entries id (failedResult id) := by
  refine ⟨rfl,fun hs => ?_⟩
  exact absurd hs (show ("failed" : String) ≠ "completed" by decide)

theorem fits_result {id status : String} {value : Option β} {error : Option String}
    (h : status = "completed" → ∃ v, (copied P entries id).map P.runner = some (.value v)) :
    Fits P entries id (result E P id status value error) := by
  unfold result
  split
  · exact ⟨rfl,h⟩
  split
  · exact fits_failed
  · exact ⟨rfl,h⟩

theorem fits_outcome {id : String} :
    Fits P entries id (outcomeResult E P id (((copied P entries id).map P.runner).getD .raises)) := by
  cases ho : (copied P entries id).map P.runner with
  | none => exact fits_result (fun hs => absurd hs (by decide))
  | some o =>
    cases o with
    | value v => exact fits_result (fun _ => ⟨v,ho⟩)
    | timeout => exact fits_result (fun hs => absurd hs (by decide))
    | raises => exact fits_result (fun hs => absurd hs (by decide))

/-- Every result so far fits its task. -/
def AllFit (P : Program α β) (entries : List (String × Task α)) (st : State β) : Prop :=
  ∀ id r, st.results id = some r → Fits P entries id r

theorem submitOne_results : (submitOne st).results = st.results := by
  rw [submitOne]
  split <;> rfl

theorem submitMany_results (n : ℕ) : (submitMany n st).results = st.results := by
  induction n generalizing st with
  | zero => rfl
  | succ n ih => rw [submitMany, ih, submitOne_results]

theorem intime_results (deadline : Option ℚ) : (intime W deadline st).2.results = st.results := by
  cases deadline <;> rfl

theorem fits_update {id : String} {r : TaskResult β} (h : AllFit P entries st)
    (hr : Fits P entries id r) {st' : State β}
    (hst : st'.results = Function.update st.results id (some r)) : AllFit P entries st' := by
  intro i u hu
  rw [hst] at hu
  by_cases hi : i = id
  · subst hi
    rw [Function.update_self] at hu
    cases hu
    exact hr
  · rw [Function.update_of_ne hi] at hu
    exact h i u hu

theorem collect_fits {deadline : Option ℚ} (h : AllFit P entries st) (k : ℕ) :
    AllFit P entries (collect E P entries W deadline st k) := by
  rw [collect]
  split
  · exact h
  · rename_i id _
    have hfit : Fits P entries id (outcomeResult E P id
        (((copied P entries id).map P.runner).getD .raises)) := fits_outcome
    dsimp only
    split
    · exact fits_update h hfit rfl
    split
    · apply fits_update h hfit
      rw [submitOne_results, intime_results]
    · apply fits_update h hfit
      rw [intime_results]

theorem drop_fits {status : String} (hs : status ≠ "completed") (h : AllFit P entries st) :
    AllFit P entries (drop E P W status st) := by
  have key : ∀ (fs : Futures) (results : String → Option (TaskResult β)),
      (∀ i r, results i = some r → Fits P entries i r) →
      ∀ (i : String) (r : TaskResult β), fs.foldl (fun (results : String → Option (TaskResult β)) f =>
        Function.update results f.2 (some (result E P f.2 status none (some status)))) results i
          = some r → Fits P entries i r := by
    intro fs
    induction fs with
    | nil => exact fun _ h => h
    | cons f fs ih =>
      intro results hres
      apply ih
      intro id r hr
      dsimp only at hr
      by_cases hid : id = f.2
      · subst hid
        rw [Function.update_self] at hr
        cases hr
        exact fits_result (fun hc => absurd hc hs)
      · rw [Function.update_of_ne hid] at hr
        exact hres id r hr
  exact key st.futures st.results h

theorem collects_fit {deadline : Option ℚ} (h : AllFit P entries st) (ks : List ℕ) :
    AllFit P entries (ks.foldl (collect E P entries W deadline) st) := by
  induction ks generalizing st with
  | nil => exact h
  | cons k ks ih => exact ih (collect_fits h k)

theorem turn_fits {deadline : Option ℚ} (h : AllFit P entries st) :
    AllFit P entries (turn E P entries W deadline st) := by
  have hstart : AllFit P entries (intime W deadline { st with
      cancelled := st.cancelled || W.cancelled (st.polls+2), polls := st.polls+1 }).2 := by
    intro id r hr
    rw [intime_results] at hr
    exact h id r hr
  rw [turn]
  dsimp only
  split
  · exact drop_fits (by decide) hstart
  split
  · exact drop_fits (by decide) hstart
  split
  · have hpoll : AllFit P entries (intime W deadline (intime W deadline { st with
        cancelled := st.cancelled || W.cancelled (st.polls+2), polls := st.polls+1 }).2).2 := by
      intro id r hr
      rw [intime_results] at hr
      exact hstart id r hr
    split
    · exact hpoll
    · exact drop_fits (by decide) hpoll
  · exact collects_fit hstart _

theorem loop_fits {deadline : Option ℚ} {fuel : ℕ} {st' : State β} (h : AllFit P entries st)
    (hl : loop E P entries W deadline fuel st = some st') : AllFit P entries st' := by
  induction fuel generalizing st with
  | zero => cases hl
  | succ fuel ih =>
    rw [loop] at hl
    split at hl
    · cases hl
      exact h
    · exact ih (turn_fits h) hl

theorem startState_fits {cancelled : Bool} {readings : ℕ} :
    AllFit P entries (startState E P entries cancelled readings) := by
  intro id r hr
  have hres : (startState E P entries cancelled readings).results id =
      if (copied P entries id).isNone then some (failedResult id) else none := by
    unfold startState
    dsimp only
    split
    · rfl
    · rw [submitMany_results]
  rw [hres] at hr
  split at hr
  · cases hr
    exact fits_failed
  · cases hr

theorem taskId_text {t id : String} (h : taskId (α := α) (.text t) = some id) : t = id := by
  simp only [taskId, Task.id] at h
  split at h
  · cases h
  · exact Option.some.inj h

theorem firstTask_text {ids : List String} {id : String} (h : id ∈ ids)
    (hid : taskId (α := α) (.text id) = some id) :
    firstTask (ids.map (Task.text (α := α))) id = some (.text id) := by
  induction ids with
  | nil => cases h
  | cons i ids ih =>
    by_cases hi : i = id
    · subst hi
      exact firstTask_cons_self hid
    · have hne : taskId (α := α) (.text i) ≠ some id := fun ht => hi (taskId_text ht)
      have hrest := ih ((List.mem_cons.mp h).resolve_left (Ne.symm hi))
      simpa [firstTask, hne] using hrest

/-- An executor that returns hands back one result for each id, which fits it. -/
theorem run_fits {timeout : Option ℚ} {ids : List String} {fuel : ℕ}
    {output : List (TaskResult β)} {events : List Event} {poisoned : Bool}
    (h : run E P W timeout (ids.map Task.text) fuel = some (.returned output events poisoned)) :
    (output.map TaskResult.taskId).Nodup ∧ (∀ t, t ∈ output.map TaskResult.taskId ↔ t ∈ ids) ∧
      ∀ r ∈ output, r.status = "completed" → ∃ v, (P.copy (.text r.taskId)).map P.runner =
        some (.value v) := by
  rw [run] at h
  split at h
  · cases h
  split at h
  · cases h
  split at h
  · cases h
  by_cases hbad : ∃ t ∈ ids.map Task.text, taskId (α := α) t = none
  · rw [entriesFrom_error hbad] at h
    cases h
  have hgood : ∀ t ∈ ids.map Task.text, taskId (α := α) t ≠ none := by
    intro t ht hn
    exact hbad ⟨t,ht,hn⟩
  have htext : ∀ t ∈ ids, taskId (α := α) (.text t) = some t := by
    intro t ht
    obtain ⟨u,hu⟩ := Option.ne_none_iff_exists'.mp (hgood (.text t) (List.mem_map_of_mem ht))
    rw [hu, taskId_text hu]
  obtain ⟨entries,he,ho,hl,hn⟩ := entriesFrom_start hgood
  have hids : ∀ t, t ∈ orderedIds entries ↔ t ∈ ids := by
    intro t
    rw [ho, distinctIds, Finset.mem_sort, List.mem_toFinset, List.filterMap_map,
      List.mem_filterMap]
    constructor
    · rintro ⟨u,hu,ht⟩
      rw [← taskId_text ht]
      exact hu
    · exact fun ht => ⟨t,ht,htext t ht⟩
  rw [he] at h
  cases entries with
  | nil =>
    cases h
    refine ⟨List.nodup_nil,?_,fun r hr => absurd hr List.not_mem_nil⟩
    intro t
    rw [← hids t]
    exact Iff.rfl
  | cons e es =>
    dsimp only at h
    split at h
    · cases h
    · rename_i st hst
      cases h
      have hfit : ∀ id ∈ orderedIds (e :: es), Fits P (e :: es) id ((st.results id).getD
          (result E P id "cancelled" none (some "cancelled"))) := by
        intro id _
        cases hr : st.results id with
        | none =>
          rw [Option.getD_none]
          exact fits_result (fun hs => absurd hs (by decide))
        | some r => exact loop_fits startState_fits hst id r hr
      have hcopied : ∀ id ∈ ids, copied P (e :: es) id = P.copy (.text id) := by
        intro id hid
        rw [copied, hl id, firstTask_text hid (htext id hid), Option.bind_some]
      have hmap : (outputOf E P (e :: es) st).map TaskResult.taskId = orderedIds (e :: es) := by
        rw [outputOf, List.map_map]
        calc (orderedIds (e :: es)).map _
          _ = (orderedIds (e :: es)).map id :=
            List.map_congr_left (fun i hi => (hfit i hi).1)
          _ = orderedIds (e :: es) := List.map_id _
      refine ⟨by rw [hmap]; exact hn,by rw [hmap]; exact hids,?_⟩
      intro r hr hs
      obtain ⟨id,hid,rfl⟩ := List.mem_map.mp hr
      obtain ⟨hname,hval⟩ := hfit id hid
      obtain ⟨v,hv⟩ := hval hs
      refine ⟨v,?_⟩
      rw [hname, ← hv, hcopied id ((hids id).mp hid)]

end Parallel

end PdFleet
