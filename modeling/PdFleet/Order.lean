import PdFleet.Bounds

/-!
# Tasks in order

As long as tasks are leased and get their statuses in the order of the plan, the leased
tasks are open, with their dependencies completed and the earlier waves behind them.
-/

set_option autoImplicit false

namespace PdFleet

open Dict

section

variable {D : Deps} {rid : String} {x : Draws} {s c : Snapshot} {r : Reply} {t : String}
  {tasks : Dict String PlanTask} {task : PlanTask}

/-- An open task of the plan that may run. -/
structure Opened (s : Snapshot) (tasks : Dict String PlanTask) (t : String) (task : PlanTask) :
    Prop where
  found : tasks.lookup t = some task
  waits : isTerminal s t task = .ok false
  deps : ∀ dep ∈ task.deps, s.completed dep = true
  barrier : ∀ u other, tasks.lookup u = some other → other.wave < task.wave →
    isTerminal s u other = .ok true

/-- A terminal task of the plan with its dependencies completed. -/
structure Settled (s : Snapshot) (tasks : Dict String PlanTask) (t : String) (task : PlanTask) :
    Prop where
  found : tasks.lookup t = some task
  terminal : isTerminal s t task = .ok true
  deps : ∀ dep ∈ task.deps, s.completed dep = true

/-- The leased tasks may run, and the completed ones are settled. -/
structure Orderly (s : Snapshot) : Prop where
  leased : ∀ tasks, taskMap s = .ok tasks → ∀ t ∈ s.leases, ∃ task, Opened s tasks t task
  completed : ∀ tasks, taskMap s = .ok tasks → ∀ t, s.completed t = true →
    ∃ task, Settled s tasks t task

/-- The task may run, as far as the plan can be read. -/
def MayRun (s : Snapshot) (t : String) : Prop :=
  ∀ tasks, taskMap s = .ok tasks → ∃ task, Opened s tasks t task

/-! ## The same tasks under other leases -/

/-- The plan, the statuses and the reports are the same. -/
structure SameTasks (s c : Snapshot) : Prop where
  plan : c.plan = s.plan
  tasks : c.tasks = s.tasks
  reports : c.reports = s.reports

theorem SameTasks.taskMap (h : SameTasks s c) : taskMap c = taskMap s := by
  rw [PdFleet.taskMap, PdFleet.taskMap, h.plan]

theorem SameTasks.isTerminal (h : SameTasks s c) : isTerminal c t task = isTerminal s t task := by
  rw [PdFleet.isTerminal, PdFleet.isTerminal, statusOf, statusOf, h.tasks]

theorem SameTasks.completed (h : SameTasks s c) : c.completed t = s.completed t := by
  rw [Snapshot.completed, Snapshot.completed, h.tasks, h.reports]

theorem SameTasks.opened (h : SameTasks s c) (ho : Opened s tasks t task) :
    Opened c tasks t task where
  found := ho.found
  waits := by rw [h.isTerminal]; exact ho.waits
  deps := fun dep hd => by rw [h.completed]; exact ho.deps dep hd
  barrier := fun u other hu hw => by rw [h.isTerminal]; exact ho.barrier u other hu hw

theorem SameTasks.settled (h : SameTasks s c) (ho : Settled s tasks t task) :
    Settled c tasks t task where
  found := ho.found
  terminal := by rw [h.isTerminal]; exact ho.terminal
  deps := fun dep hd => by rw [h.completed]; exact ho.deps dep hd

/-- New leases of tasks that may run keep the tasks in order. -/
theorem orderly_of_leases (h : Orderly s) (hs : SameTasks s c)
    (hl : ∀ t ∈ c.leases, t ∈ s.leases ∨ MayRun s t) : Orderly c where
  leased := by
    intro tasks hm t ht
    rw [hs.taskMap] at hm
    rcases hl t ht with hold | hnew
    · obtain ⟨task,ho⟩ := h.leased tasks hm t hold
      exact ⟨task,hs.opened ho⟩
    · obtain ⟨task,ho⟩ := hnew tasks hm
      exact ⟨task,hs.opened ho⟩
  completed := by
    intro tasks hm t ht
    rw [hs.taskMap] at hm
    rw [hs.completed] at ht
    obtain ⟨task,ho⟩ := h.completed tasks hm t ht
    exact ⟨task,hs.settled ho⟩

theorem orderly_of_shrinks (h : Orderly s) (hs : SameTasks s c) (hl : Shrinks s c) : Orderly c :=
  orderly_of_leases h hs (fun t ht => Or.inl (hl t ht))

/-! ## A new status of one task -/

theorem isTerminal_set {st : TaskStatus} (h : c.tasks = setTaskStatus s.tasks t st) :
    isTerminal c t task = .ok st.terminal := by
  have hs : statusOf c t task = .str st.text := by
    simp only [statusOf, h, setTaskStatus, AList.lookup_insert, Obj.field_put_self,
      Option.getD_some]
  rw [isTerminal, hs]
  cases st <;> rfl

theorem isTerminal_set_ne {st : TaskStatus} {u : String} (hu : u ≠ t)
    (h : c.tasks = setTaskStatus s.tasks t st) : isTerminal c u task = isTerminal s u task := by
  rw [isTerminal, isTerminal, statusOf, statusOf, h, setTaskStatus_ne _ _ _ _ hu]

theorem completed_set {st : TaskStatus} (h : c.tasks = setTaskStatus s.tasks t st)
    (hst : st = .completed) : c.completed t = true := by
  simp only [Snapshot.completed, h, setTaskStatus, AList.lookup_insert, Option.any_some, hasText,
    Obj.field_put_self, hst, Bool.or_eq_true]
  exact Or.inl rfl

theorem completed_set_ne {st : TaskStatus} {u : String} (hu : u ≠ t)
    (h : c.tasks = setTaskStatus s.tasks t st) (hr : c.reports.lookup u = s.reports.lookup u) :
    c.completed u = s.completed u := by
  rw [Snapshot.completed, Snapshot.completed, h, hr, setTaskStatus_ne _ _ _ _ hu]

/-- Of a task whose new status is not `completed`, only a report tells that it is. -/
theorem of_completed_set {st : TaskStatus} (h : c.tasks = setTaskStatus s.tasks t st)
    (hc : c.completed t = true) :
    st = .completed ∨ (c.reports.lookup t).any (fun r => r.status = .completed) = true := by
  rw [Snapshot.completed, Bool.or_eq_true] at hc
  rcases hc with hc | hc
  · simp only [h, setTaskStatus, AList.lookup_insert, Option.any_some, hasText,
      Obj.field_put_self, Json.isStr, decide_eq_true_eq] at hc
    left
    cases st <;> first | rfl | exact absurd hc (by decide)
  · exact Or.inr hc

/-- The task with a report that its lease allows: its status is terminal, and nothing
that was completed ceases to be. -/
theorem orderly_of_report {st : ReportStatus} {record : ReportRecord} (h : Orderly s)
    (hl : t ∈ s.leases) (hp : c.plan = s.plan) (ht : c.tasks = setTaskStatus s.tasks t st.task)
    (hr : c.reports = s.reports.insert t record) (hc : c.leases = s.leases.erase t) :
    Orderly c := by
  have hmap : taskMap c = taskMap s := by rw [taskMap, taskMap, hp]
  have hne : ∀ u, u ≠ t → c.completed u = s.completed u := by
    intro u hu
    refine completed_set_ne hu ht ?_
    rw [hr, AList.lookup_insert_ne hu]
  have hwaits : ∀ tasks, taskMap s = .ok tasks → s.completed t = false := by
    intro tasks hm
    obtain ⟨task,ho⟩ := h.leased tasks hm t hl
    by_contra hn
    obtain ⟨task',hs⟩ := h.completed tasks hm t (by simpa using hn)
    obtain rfl : task = task' := Option.some.inj (ho.found.symm.trans hs.found)
    have heq := ho.waits.symm.trans hs.terminal
    cases heq
  have hdeps : ∀ tasks, taskMap s = .ok tasks → ∀ deps : List String,
      (∀ dep ∈ deps, s.completed dep = true) → ∀ dep ∈ deps, c.completed dep = true := by
    intro tasks hm deps hd dep hdep
    have hdone := hd dep hdep
    by_cases he : dep = t
    · rw [he, hwaits tasks hm] at hdone
      cases hdone
    · rw [hne dep he]
      exact hdone
  constructor
  · intro tasks hm u hu
    rw [hmap] at hm
    rw [hc, AList.mem_erase] at hu
    obtain ⟨hut,hu⟩ := hu
    obtain ⟨task,ho⟩ := h.leased tasks hm u hu
    refine ⟨task,ho.found,?_,hdeps tasks hm _ ho.deps,fun v other hv hw => ?_⟩
    · rw [isTerminal_set_ne hut ht]
      exact ho.waits
    · by_cases hvt : v = t
      · subst hvt
        rw [isTerminal_set ht, ReportStatus.terminal_task]
      · rw [isTerminal_set_ne hvt ht]
        exact ho.barrier v other hv hw
  · intro tasks hm u hu
    rw [hmap] at hm
    by_cases hut : u = t
    · subst hut
      obtain ⟨task,ho⟩ := h.leased tasks hm u hl
      refine ⟨task,ho.found,?_,hdeps tasks hm _ ho.deps⟩
      rw [isTerminal_set ht, ReportStatus.terminal_task]
    · rw [hne u hut] at hu
      obtain ⟨task,hs⟩ := h.completed tasks hm u hu
      refine ⟨task,hs.found,?_,hdeps tasks hm _ hs.deps⟩
      rw [isTerminal_set_ne hut ht]
      exact hs.terminal

/-- The status `st` of the task `t` keeps the tasks in order: a task is completed after
its dependencies, and none that a leased or a completed one waits for is opened again. -/
structure StatusInOrder (s : Snapshot) (tasks : Dict String PlanTask) (t : String)
    (st : TaskStatus) (task : PlanTask) : Prop where
  deps : st = .completed → ∀ dep ∈ task.deps, s.completed dep = true
  dependents : st ≠ .completed → s.completed t = true → ∀ u other,
    tasks.lookup u = some other → u ≠ t → u ∈ s.leases ∨ s.completed u = true → t ∉ other.deps
  barrier : st.terminal = false → ∀ u other, tasks.lookup u = some other → u ≠ t →
    u ∈ s.leases → other.wave ≤ task.wave

theorem orderly_of_status {st : TaskStatus} (h : Orderly s)
    (hf : ∀ tasks, taskMap s = .ok tasks → ∃ task, tasks.lookup t = some task ∧
      StatusInOrder s tasks t st task)
    (hn : s.reports.lookup t = none) (hp : c.plan = s.plan)
    (ht : c.tasks = setTaskStatus s.tasks t st) (hr : c.reports = s.reports)
    (hc : c.leases = s.leases.erase t) : Orderly c := by
  have hmap : taskMap c = taskMap s := by rw [taskMap, taskMap, hp]
  have hne : ∀ u, u ≠ t → c.completed u = s.completed u := fun u hu =>
    completed_set_ne hu ht (by rw [hr])
  have hself : c.completed t = true → st = .completed := by
    intro hcomp
    rcases of_completed_set ht hcomp with hst | hrep
    · exact hst
    · rw [hr, hn] at hrep
      cases hrep
  -- what a task other than `t` depends on stays completed
  have hdeps : ∀ tasks, taskMap s = .ok tasks → ∀ u other, tasks.lookup u = some other → u ≠ t →
      u ∈ s.leases ∨ s.completed u = true → (∀ dep ∈ other.deps, s.completed dep = true) →
      ∀ dep ∈ other.deps, c.completed dep = true := by
    intro tasks hm u other hu hut hheld hd dep hdep
    by_cases he : dep = t
    · subst he
      by_cases hst : st = .completed
      · exact completed_set ht hst
      · obtain ⟨task,-,hord⟩ := hf tasks hm
        exact absurd hdep (hord.dependents hst (hd dep hdep) u other hu hut hheld)
    · rw [hne dep he]
      exact hd dep hdep
  constructor
  · intro tasks hm u hu
    rw [hmap] at hm
    rw [hc, AList.mem_erase] at hu
    obtain ⟨hut,hu⟩ := hu
    obtain ⟨other,ho⟩ := h.leased tasks hm u hu
    refine ⟨other,ho.found,?_,hdeps tasks hm u other ho.found hut (Or.inl hu) ho.deps,
      fun v task hv hw => ?_⟩
    · rw [isTerminal_set_ne hut ht]
      exact ho.waits
    · by_cases hvt : v = t
      · subst hvt
        rw [isTerminal_set ht]
        obtain ⟨task',hv',hord⟩ := hf tasks hm
        obtain rfl : task = task' := Option.some.inj (hv.symm.trans hv')
        by_contra hopen
        have hle := hord.barrier (by simpa using hopen) u other ho.found hut hu
        omega
      · rw [isTerminal_set_ne hvt ht]
        exact ho.barrier v task hv hw
  · intro tasks hm u hu
    rw [hmap] at hm
    by_cases hut : u = t
    · subst hut
      obtain ⟨task,hfound,hord⟩ := hf tasks hm
      have hst := hself hu
      refine ⟨task,hfound,?_,fun dep hdep => ?_⟩
      · rw [isTerminal_set ht, hst]
        rfl
      · by_cases he : dep = u
        · rw [he]
          exact hu
        · rw [hne dep he]
          exact hord.deps hst dep hdep
    · rw [hne u hut] at hu
      obtain ⟨other,hs⟩ := h.completed tasks hm u hu
      refine ⟨other,hs.found,?_,hdeps tasks hm u other hs.found hut (Or.inr hu) hs.deps⟩
      rw [isTerminal_set_ne hut ht]
      exact hs.terminal

/-! ## The tasks of the plan -/

/-- A task of the map is read from a mapping of the plan. -/
structure ReadFrom (o : Obj) (t : String) (task : PlanTask) : Prop where
  raw : task.raw = o
  id : o.field "id" = some (.str t)
  deps : taskDependencies o = .ok task.deps
  wave : taskWave o = .ok task.wave

theorem of_addPlanTask {o : Obj} {tasks' : Dict String PlanTask}
    (h : addPlanTask tasks o = .ok tasks') :
    (∃ id task, ReadFrom o id task ∧ tasks' = tasks.insert id task) ∨
    ((∀ id, o.field "id" ≠ some (.str id)) ∧ tasks' = tasks) := by
  obtain ⟨deps,hd,h⟩ := ok_of_bind h
  obtain ⟨wave,hw,h⟩ := ok_of_bind h
  split at h
  · rename_i id hid
    cases h
    exact Or.inl ⟨id,⟨o,deps,wave⟩,⟨rfl,hid,hd,hw⟩,rfl⟩
  · rename_i hid
    cases h
    exact Or.inr ⟨hid,rfl⟩

theorem of_foldlM_addPlanTask {objs : List Obj} {tasks' : Dict String PlanTask}
    (h : objs.foldlM addPlanTask tasks = .ok tasks') :
    (∀ t task, tasks'.lookup t = some task → tasks.lookup t = some task ∨
      ∃ o ∈ objs, ReadFrom o t task) ∧
    (∀ t, t ∈ tasks ∨ (∃ o ∈ objs, o.field "id" = some (.str t)) → t ∈ tasks') := by
  induction objs generalizing tasks with
  | nil =>
    cases h
    simp
  | cons o objs ih =>
    rw [List.foldlM_cons] at h
    obtain ⟨mid,hmid,h⟩ := ok_of_bind h
    obtain ⟨hfrom,hin⟩ := ih h
    constructor
    · intro t task ht
      rcases hfrom t task ht with hold | ⟨o',ho',hr⟩
      · rcases of_addPlanTask hmid with ⟨id,task',hr,rfl⟩ | ⟨-,rfl⟩
        · rcases of_lookup_insert hold with ⟨rfl,rfl⟩ | ⟨-,hold⟩
          · exact Or.inr ⟨o,List.mem_cons_self,hr⟩
          · exact Or.inl hold
        · exact Or.inl hold
      · exact Or.inr ⟨o',List.mem_cons_of_mem _ ho',hr⟩
    · intro t ht
      apply hin
      rcases of_addPlanTask hmid with ⟨id,task',hr,rfl⟩ | ⟨hno,rfl⟩
      · rcases ht with ht | ⟨o',ho',ht⟩
        · exact Or.inl ((AList.mem_insert _).mpr (Or.inr ht))
        · rcases List.mem_cons.mp ho' with rfl | ho'
          · rw [hr.id] at ht
            cases ht
            exact Or.inl ((AList.mem_insert _).mpr (Or.inl rfl))
          · exact Or.inr ⟨o',ho',ht⟩
      · rcases ht with ht | ⟨o',ho',ht⟩
        · exact Or.inl ht
        · rcases List.mem_cons.mp ho' with rfl | ho'
          · exact absurd ht (hno t)
          · exact Or.inr ⟨o',ho',ht⟩

/-- The map holds the mappings of the plan under their ids. -/
theorem of_taskMap (h : taskMap s = .ok tasks) : ∃ objs, planTasks s.plan = .ok objs ∧
    (∀ t task, tasks.lookup t = some task → ∃ o ∈ objs, ReadFrom o t task) ∧
    ∀ o ∈ objs, ∀ t, o.field "id" = some (.str t) → t ∈ tasks := by
  obtain ⟨objs,ho,h⟩ := ok_of_bind h
  obtain ⟨hfrom,hin⟩ := of_foldlM_addPlanTask h
  refine ⟨objs,ho,fun t task ht => ?_,fun o hm t ht => hin t (Or.inr ⟨o,hm,ht⟩)⟩
  rcases hfrom t task ht with hold | hr
  · cases hold
  · exact hr

theorem found_of_known {known : List String} (hk : knownIds s.plan = .ok known) (ht : t ∈ known)
    (hm : taskMap s = .ok tasks) : ∃ task, tasks.lookup t = some task := by
  obtain ⟨objs,ho,hk⟩ := ok_of_bind hk
  obtain ⟨objs',ho',-,hin⟩ := of_taskMap hm
  obtain rfl : objs = objs' := Except.ok.inj (ho.symm.trans ho')
  dsimp only at hk
  split at hk
  · cases hk
    obtain ⟨v,hv,hid⟩ := List.mem_filterMap.mp ht
    obtain ⟨o,hom,rfl⟩ := List.mem_map.mp hv
    refine exists_lookup (hin o hom t ?_)
    cases hf : Obj.field o "id" with
    | none =>
      rw [hf] at hid
      cases hid
    | some w =>
      rw [hf] at hid
      cases w <;> cases hid
      rfl
  · cases hk

/-! ## Steps in order -/

/-- The section leases tasks that may run, and gives a status in order. A selection of a
scheduler needs no such promise. -/
def InOrderAt (s : Snapshot) : Action → Prop
  | .updateTaskStatus t status _ _ => ∀ tasks task st, taskMap s = .ok tasks →
      tasks.lookup t = some task → status.text?.bind TaskStatus.ofText = some st →
      StatusInOrder s tasks t st task
  | .claim t _ _ _ => MayRun s t
  | .claimMany _ _ _ _ sel => (∃ n, sel = .timed (select n)) ∨
      ∀ now available capacity (ids : List String), sel.select (reclaim s now) available capacity now =
        .ok (.arr (ids.map Json.str)) → ∀ t ∈ ids, MayRun s t
  | _ => True

theorem sameTasks_reclaim (s : Snapshot) (now : String) : SameTasks s (reclaim s now) :=
  ⟨rfl,rfl,rfl⟩

theorem opened_of_ready {o : Option String} {ready : List String}
    (h : readyIds s o = .ok ready) (ht : t ∈ ready) (hm : taskMap s = .ok tasks) :
    ∃ task, Opened s tasks t task ∧ leased s o t = false := by
  obtain ⟨tasks',hm',hall⟩ := of_readyIds h
  obtain rfl : tasks = tasks' := Except.ok.inj (hm.symm.trans hm')
  obtain ⟨task,hl,hf,hn,hd,hw⟩ := hall t ht
  exact ⟨task,⟨hl,hf,hd,hw⟩,hn⟩

/-- What a scheduler selects may run. -/
theorem mayRun_of_select {n capacity : ℕ} {available ids : List String} {now : String}
    (h : select n (reclaim s now) available capacity now = .ok (.arr (ids.map Json.str)))
    (ht : t ∈ ids) : MayRun s t := by
  intro tasks hm
  obtain ⟨-,tasks',ready,occupied,ps,hm',hr,-,hs⟩ := of_select h
  have hmap : taskMap (reclaim s now) = .ok tasks := hm
  obtain ⟨task,ho,-⟩ := opened_of_ready hr (hs.ready t ht) hmap
  have hback : SameTasks (reclaim s now) s := ⟨rfl,rfl,rfl⟩
  exact ⟨task,hback.opened ho⟩

/-- A section in order keeps the tasks in order. -/
theorem orderly_writes {a : Action} (ha : InOrderAt s a) (hw : Writes D a x s c r)
    (h : Orderly s) : Orderly c := by
  obtain ⟨body,hb,hbody⟩ := hw
  cases a with
  | load =>
    cases hb
    cases hbody
  | use t k o =>
    cases hb
    obtain ⟨_,-,hbody⟩ := ok_of_bind hbody
    obtain ⟨_,-,hbody⟩ := ok_of_bind hbody
    cases hbody
  | transition st o g =>
    obtain ⟨st,stamp,-,-,-,hc,-⟩ := of_transition hb hbody
    cases hc
    exact orderly_of_shrinks h ⟨rfl,rfl,rfl⟩ (fun _ ht => ht)
  | updateTaskStatus t status o g =>
    obtain ⟨st,known,stamp,hst,hk,ht,hn,-,hc,-⟩ := of_updateTaskStatus hb hbody
    cases hc
    refine orderly_of_status h (fun tasks hm => ?_) hn rfl rfl rfl rfl
    obtain ⟨task,hfound⟩ := found_of_known hk ht hm
    exact ⟨task,hfound,ha tasks task st hm hfound hst⟩
  | appendTerminalEventIfAbsent t o g =>
    obtain ⟨-,record,-,⟨-,-,-,hc,-⟩ | ⟨-,rows,stamp,-,-,hc,-⟩⟩ := of_appendTerminal hb hbody <;>
      cases hc
    exact orderly_of_shrinks h ⟨rfl,rfl,rfl⟩ (fun _ ht => ht)
  | appendEvent e o g =>
    obtain ⟨given,rfl,rows,item,stamp,-,-,-,rfl⟩ := appendEvent_next hb hbody
    exact orderly_of_shrinks h ⟨rfl,rfl,rfl⟩ (fun _ ht => ht)
  | claim t o n g =>
    obtain ⟨now,expiry,stamp,-,-,-,-,-,-,-,hc,-⟩ := of_claim hb hbody
    cases hc
    refine orderly_of_leases h ⟨rfl,rfl,rfl⟩ (fun u hu => ?_)
    obtain ⟨l,hl⟩ := exists_lookup hu
    rcases lookup_insertAll hl with hm | ⟨hold,-⟩
    · obtain ⟨hin,-⟩ := mem_grants hm
      rw [List.mem_singleton] at hin
      subst hin
      exact Or.inr ha
    · exact Or.inl (mem_of_lookup hold)
  | claimMany ts o m n sel =>
    obtain ⟨now,available,ids,hcl,-,-,⟨-,-,ho⟩ | ⟨-,expiry,stamp,-,-,-,ho,-⟩⟩ :=
      of_claimMany hb hbody
    · rcases ho with ⟨ho,-⟩ | ho <;> cases ho
      exact orderly_of_shrinks h ⟨rfl,rfl,rfl⟩ (shrinks_of_sub (reclaim_sub s now))
    · cases ho
      obtain ⟨capacity,-,hsel,-⟩ := hcl.chosen
      refine orderly_of_leases h ⟨rfl,rfl,rfl⟩ (fun u hu => ?_)
      obtain ⟨l,hl⟩ := exists_lookup hu
      rcases lookup_insertAll hl with hm | ⟨hold,-⟩
      · right
        have hin := (mem_grants hm).1
        rcases ha with ⟨n,rfl⟩ | hall
        · exact mayRun_of_select hsel hin
        · exact hall now available capacity ids hsel u hin
      · exact Or.inl ((reclaim_sub s now).mem (mem_of_lookup hold))
  | renew t k o n =>
    obtain ⟨l,now,expiry,stamp,hh,-,-,-,-,-,hc,-⟩ := of_renew hb hbody
    cases hc
    refine orderly_of_shrinks h ⟨rfl,rfl,rfl⟩ (fun u hu => ?_)
    rcases (AList.mem_insert _).mp hu with rfl | hu
    · exact mem_of_lookup hh.1
    · exact hu
  | commit t k o r st =>
    rcases of_commit hb hbody with ⟨-,hc,-⟩ | ⟨-,st,given,l,now,stamp,hh,-,-,-,-,-,hc,-⟩ <;>
      cases hc
    exact orderly_of_report h (mem_of_lookup hh.1) rfl rfl rfl rfl
  | release k o =>
    obtain ⟨t,l,stamp,-,-,hc,-⟩ := of_release hb hbody
    cases hc
    exact orderly_of_shrinks h ⟨rfl,rfl,rfl⟩ (shrinks_of_sub (sub_erase _ _))
  | dropStale t now o g =>
    obtain ⟨leases,stamp,hl,-,hc,-⟩ := of_dropStale hb hbody
    cases hc
    exact orderly_of_shrinks h ⟨rfl,rfl,rfl⟩ (shrinks_of_sub hl)

/-- A run that starts with no leases and no completed task is in order. -/
theorem fresh_orderly (h : Fresh s) : Orderly s := by
  obtain ⟨rid,hash,plan,owner,now,rfl⟩ := h
  exact ⟨fun _ _ t ht => (nomatch ht),fun _ _ t ht => (nomatch ht)⟩

end

end PdFleet
