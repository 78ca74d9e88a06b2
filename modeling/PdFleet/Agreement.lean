import PdFleet.Batch
import PdFleet.Order
import PdFleet.Ownership

/-!
# The validator and the scheduler

The tasks whose paths a scheduler compares are open tasks of one wave that no
dependency orders, as long as the tasks of the run are in order. The validator has
compared their paths too, by the spelling of the plan.
-/

set_option autoImplicit false

namespace PdFleet

open Dict

/-! ## Where a conflict comes from -/

section

variable {s : Snapshot} {now m : String} {tasks : Dict String PlanTask}

theorem pathValues_unconflicted {o : Obj} {key : String} :
    pathValues o key ≠ .error (.ownershipConflict m) := by
  intro h
  rw [pathValues] at h
  split at h <;> cases h

theorem declaredPath_unconflicted {v : Json} : declaredPath v ≠ .error (.ownershipConflict m) := by
  intro h
  cases v with
  | str text =>
    rw [declaredPath] at h
    split at h
    · cases h
    · split at h
      · cases h
      · dsimp only at h
        split at h <;> cases h
  | null => cases h
  | bool b => cases h
  | int n => cases h
  | float r => cases h
  | arr xs => cases h
  | obj kvs => cases h

theorem paths_unconflicted {o : Obj} : paths o ≠ .error (.ownershipConflict m) := by
  intro h
  rcases error_of_bind h with h | ⟨_,-,h⟩
  · rcases error_of_bind h with h | ⟨_,-,h⟩
    · exact pathValues_unconflicted h
    rcases error_of_bind h with h | ⟨_,-,h⟩
    · obtain ⟨v,-,h⟩ := error_of_mapM h
      exact declaredPath_unconflicted h
    rcases error_of_bind h with h | ⟨_,-,h⟩
    · exact pathValues_unconflicted h
    rcases error_of_bind h with h | ⟨_,-,h⟩
    · obtain ⟨v,-,h⟩ := error_of_mapM h
      exact declaredPath_unconflicted h
    · cases h
  · cases h

theorem taskDependencies_unconflicted {o : Obj} :
    taskDependencies o ≠ .error (.ownershipConflict m) := by
  intro h
  rw [taskDependencies] at h
  split at h
  · obtain ⟨v,-,h⟩ := error_of_mapM h
    split at h <;> cases h
  · cases h

theorem taskWave_unconflicted {o : Obj} : taskWave o ≠ .error (.ownershipConflict m) := by
  intro h
  rw [taskWave] at h
  split at h
  · split at h <;> cases h
  · cases h

theorem foldlM_addPlanTask_unconflicted {objs : List Obj} :
    objs.foldlM addPlanTask tasks ≠ .error (.ownershipConflict m) := by
  induction objs generalizing tasks with
  | nil => exact fun h => nomatch h
  | cons o objs ih =>
    intro h
    rw [List.foldlM_cons] at h
    rcases error_of_bind h with h | ⟨_,-,h⟩
    · rcases error_of_bind h with h | ⟨_,-,h⟩
      · exact taskDependencies_unconflicted h
      rcases error_of_bind h with h | ⟨_,-,h⟩
      · exact taskWave_unconflicted h
      · split at h <;> cases h
    · exact ih h

theorem taskMap_unconflicted : taskMap s ≠ .error (.ownershipConflict m) := by
  intro h
  rcases error_of_bind h with h | ⟨_,-,h⟩
  · rcases error_of_bind h with h | ⟨_,-,h⟩
    · rw [Json.iter.eq_def] at h
      split at h <;> cases h
    · cases h
  · exact foldlM_addPlanTask_unconflicted h

theorem openTasks_unconflicted {l : List (String × PlanTask)} :
    openTasks s l ≠ .error (.ownershipConflict m) := by
  induction l with
  | nil => exact fun h => nomatch h
  | cons e l ih =>
    intro h
    rcases error_of_bind h with h | ⟨_,-,h⟩
    · rw [isTerminal, Json.inSet.eq_def] at h
      split at h <;> cases h
    rcases error_of_bind h with h | ⟨_,-,h⟩
    · exact ih h
    · cases h

theorem readyIds_unconflicted {o : Option String} :
    readyIds s o ≠ .error (.ownershipConflict m) := by
  intro h
  rcases error_of_bind h with h | ⟨_,-,h⟩
  · exact taskMap_unconflicted h
  rcases error_of_bind h with h | ⟨_,-,h⟩
  · exact openTasks_unconflicted h
  · split at h <;> cases h

theorem filterMapM_unconflicted {α β : Type} {f : α → Except PyError (Option β)} {l : List α}
    (hf : ∀ a ∈ l, f a ≠ .error (.ownershipConflict m)) :
    l.filterMapM f ≠ .error (.ownershipConflict m) := by
  induction l with
  | nil => exact fun h => nomatch h
  | cons a l ih =>
    intro h
    have hrest := ih (fun b hb => hf b (List.mem_cons_of_mem _ hb))
    rw [List.filterMapM_cons] at h
    rcases error_of_bind h with h | ⟨o,-,h⟩
    · exact hf a List.mem_cons_self h
    cases o with
    | none => exact hrest h
    | some b =>
      rcases error_of_bind h with h | ⟨_,-,h⟩
      · exact hrest h
      · cases h

theorem occupiedPaths_unconflicted :
    occupiedPaths s tasks now ≠ .error (.ownershipConflict m) := by
  refine filterMapM_unconflicted (fun e _ h => ?_)
  split at h
  · rcases error_of_bind h with h | ⟨_,-,h⟩
    · exact paths_unconflicted h
    · cases h
  · cases h

theorem mem_of_filterMapM {α β : Type} {f : α → Except PyError (Option β)} {l : List α}
    {out : List β} (h : l.filterMapM f = .ok out) {b : β} (hb : b ∈ out) :
    ∃ a ∈ l, f a = .ok (some b) := by
  induction l generalizing out with
  | nil =>
    cases h
    cases hb
  | cons a l ih =>
    rw [List.filterMapM_cons] at h
    obtain ⟨o,ho,h⟩ := ok_of_bind h
    cases o with
    | none =>
      obtain ⟨a',ha',h'⟩ := ih h hb
      exact ⟨a',List.mem_cons_of_mem _ ha',h'⟩
    | some b' =>
      obtain ⟨rest,hr,h⟩ := ok_of_bind h
      cases h
      rcases List.mem_cons.mp hb with rfl | hb
      · exact ⟨a,List.mem_cons_self,ho⟩
      · obtain ⟨a',ha',h'⟩ := ih hr hb
        exact ⟨a',List.mem_cons_of_mem _ ha',h'⟩

/-- Occupied paths are those of a task with a lease. -/
theorem of_mem_occupiedPaths {occupied : List (List (List Char))} {qs : List (List Char)}
    (h : occupiedPaths s tasks now = .ok occupied) (hq : qs ∈ occupied) :
    ∃ u ∈ s.leases, HasPaths tasks u qs ∧ leased s (some now) u = true := by
  obtain ⟨e,he,hf⟩ := mem_of_filterMapM h hq
  rw [List.mem_filter] at he
  have hl := (mem_toFields s.leases e.1 e.2).mp he.1
  split at hf
  · rename_i task htask
    obtain ⟨ps,hp,hf⟩ := ok_of_bind hf
    cases hf
    refine ⟨e.1,mem_of_lookup hl,⟨task,htask,hp⟩,?_⟩
    rw [leased, hl]
    simpa using he.2
  · cases hf

/-- The loop raises where a ready task overlaps with paths that are taken, or with
another ready task before it. -/
theorem conflict_of_selectLoop {ready ids : List String} {requested : ℕ}
    {taken : List (List (List Char))} {selected : List String} (hn : ids.Nodup)
    (h : selectLoop tasks ready requested ids taken selected = .error (.ownershipConflict m)) :
    ∃ t ∈ ready, ∃ ps qs, HasPaths tasks t ps ∧ overlap ps qs = true ∧ t ∈ ids ∧
      (qs ∈ taken ∨ ∃ u ∈ ready, u ≠ t ∧ HasPaths tasks u qs) := by
  induction ids generalizing taken selected with
  | nil => cases h
  | cons id rest ih =>
    rw [List.nodup_cons] at hn
    rw [selectLoop] at h
    split at h
    · cases h
    split at h
    · obtain ⟨t,ht,ps,qs,hp,ho,hin,hq⟩ := ih hn.2 h
      exact ⟨t,ht,ps,qs,hp,ho,List.mem_cons_of_mem _ hin,hq⟩
    rename_i hready
    split at h
    · cases h
    rename_i task htask
    rcases error_of_bind h with h | ⟨ps,hp,h⟩
    · exact absurd h paths_unconflicted
    split at h
    · rename_i hany
      obtain ⟨qs,hq,ho⟩ := List.any_eq_true.mp hany
      exact ⟨id,not_not.mp hready,ps,qs,⟨task,htask,hp⟩,ho,List.mem_cons_self,Or.inl hq⟩
    · obtain ⟨t,ht,ps',qs,hp',ho,hin,hq⟩ := ih hn.2 h
      refine ⟨t,ht,ps',qs,hp',ho,List.mem_cons_of_mem _ hin,?_⟩
      rcases hq with hq | hq
      · rcases List.mem_append.mp hq with hq | hq
        · exact Or.inl hq
        · rw [List.mem_singleton] at hq
          subst hq
          refine Or.inr ⟨id,not_not.mp hready,?_,task,htask,hp⟩
          rintro rfl
          exact hn.1 hin
      · exact Or.inr hq

/-- A selection raises where two tasks of the plan, ready ones or a ready and a leased
one, have overlapping paths. -/
theorem conflict_of_select {n capacity : ℕ} {available : List String} (hn : available.Nodup)
    (h : select n s available capacity now = .error (.ownershipConflict m)) :
    ∃ tasks ready, taskMap s = .ok tasks ∧ readyIds s (some now) = .ok ready ∧
      ∃ t ∈ ready, ∃ u, u ≠ t ∧ (u ∈ ready ∨ u ∈ s.leases) ∧ ∃ ps qs, HasPaths tasks t ps ∧
        HasPaths tasks u qs ∧ overlap ps qs = true := by
  rw [select] at h
  split at h
  · cases h
  rcases error_of_bind h with h | ⟨tasks,hm,h⟩
  · exact absurd h taskMap_unconflicted
  rcases error_of_bind h with h | ⟨ready,hr,h⟩
  · exact absurd h readyIds_unconflicted
  rcases error_of_bind h with h | ⟨occupied,ho,h⟩
  · exact absurd h occupiedPaths_unconflicted
  rcases error_of_bind h with h | ⟨_,-,h⟩
  · have hsort : (sortIds available).Nodup :=
      (List.perm_insertionSort (· ≤ ·) available).nodup_iff.mpr hn
    obtain ⟨t,ht,ps,qs,hp,hov,-,hq⟩ := conflict_of_selectLoop hsort h
    refine ⟨tasks,ready,hm,hr,t,ht,?_⟩
    rcases hq with hq | ⟨u,hu,hut,hqs⟩
    · obtain ⟨u,hu,hqs,hlu⟩ := of_mem_occupiedPaths ho hq
      obtain ⟨-,-,hlt⟩ := opened_of_ready hr ht hm
      refine ⟨u,?_,Or.inr hu,ps,qs,hp,hqs,hov⟩
      rintro rfl
      rw [hlt] at hlu
      cases hlu
    · exact ⟨u,hut,Or.inl hu,ps,qs,hp,hqs,hov⟩
  · cases h

end

/-! ## The plan that the run stores -/

def stripText (T : Tables) (s : String) : String := String.ofList (strip T s.toList)

/-- `_string_list(value.get(key))`; `none` is a `FleetPlanError`. -/
def stringList (T : Tables) (value : Obj) (key : String) : Option (List String) :=
  match value.field key with
  | none | some .null => some []
  | some (.arr vs) => do
    let items ← vs.mapM Json.text?
    let normalized := items.map (stripText T)
    if normalized.all (· ≠ "") then return normalized else none
  | some _ => none

/-- `TaskSpec.from_dict` reads the task from the mapping, as far as the scheduler reads
the mapping too. Other names for dependencies and paths are unknown fields. -/
structure Encodes (T : Tables) (o : Obj) (t : TaskSpec ℤ) : Prop where
  id : ∃ id, o.field "id" = some (.str id) ∧ t.id = stripText T id
  wave : o.field "wave" = some (.int t.wave)
  dependsOn : stringList T o "depends_on" = some t.dependsOn
  allowedPaths : stringList T o "allowed_paths" = some t.allowedPaths
  known : o.field "dependencies" = none ∧ o.field "paths" = none

/-- The stored plan holds the mappings that the tasks of the plan are read from. -/
structure Stores (T : Tables) (stored : Obj) (plan : FleetPlan ℤ) : Prop where
  tasks : ∃ objs, planTasks stored = .ok objs ∧ List.Forall₂ (Encodes T) objs plan.tasks
  unique : (plan.tasks.map TaskSpec.id).Nodup

/-- Where two tasks may run in parallel and their stored paths overlap for the
scheduler, their allowed paths overlap for the validator. -/
def SameOverlaps (T : Tables) (stored : Obj) (plan : FleetPlan ℤ) : Prop :=
  ∀ objs, planTasks stored = .ok objs → ∀ o ∈ objs, ∀ o' ∈ objs, ∀ t ∈ plan.tasks,
    ∀ u ∈ plan.tasks, Encodes T o t → Encodes T o' u → t.id ≠ u.id →
      parallel plan t u = true → parallel plan u t = true →
        ∀ ps qs, paths o = .ok ps → paths o' = .ok qs → overlap ps qs = true → ¬ Apart t u

section

variable {T : Tables} {plan : FleetPlan ℤ} {o : Obj} {t : TaskSpec ℤ}

theorem of_mapM_texts {vs : List Json} {deps : List String} {e : PyError}
    (h : vs.mapM (fun v => match v with
      | .str s => Except.ok s
      | _ => .error e) = .ok deps) : vs = deps.map Json.str := by
  induction vs generalizing deps with
  | nil =>
    cases h
    rfl
  | cons v vs ih =>
    rw [List.mapM_cons] at h
    obtain ⟨d,hd,h⟩ := ok_of_bind h
    obtain ⟨ds,hds,h⟩ := ok_of_bind h
    cases h
    rw [ih hds, List.map_cons]
    cases v <;> cases hd
    rfl

theorem mapM_text_str (deps : List String) : (deps.map Json.str).mapM Json.text? = some deps := by
  induction deps with
  | nil => rfl
  | cons d deps ih => simp [ih, Json.text?]

theorem mem_of_mapM_text {vs : List Json} {items : List String}
    (h : vs.mapM Json.text? = some items) {p : String} (hp : .str p ∈ vs) : p ∈ items := by
  induction vs generalizing items with
  | nil => cases hp
  | cons v vs ih =>
    simp only [List.mapM_cons, Option.bind_eq_bind, Option.bind_eq_some_iff, Option.pure_def,
      Option.some.injEq] at h
    obtain ⟨i,hi,is,his,rfl⟩ := h
    rcases List.mem_cons.mp hp with rfl | hp
    · cases hi
      exact List.mem_cons_self
    · exact List.mem_cons_of_mem _ (ih his hp)

/-- The scheduler reads the dependencies that the plan holds, before their texts are
stripped. -/
theorem Encodes.deps (h : Encodes T o t) {deps : List String}
    (hd : taskDependencies o = .ok deps) : t.dependsOn = deps.map (stripText T) := by
  have hlist := h.dependsOn
  rw [stringList] at hlist
  rw [taskDependencies, h.known.1] at hd
  cases hf : o.field "depends_on" with
  | none =>
    rw [hf] at hlist hd
    cases hd
    exact (Option.some.inj hlist).symm
  | some v =>
    rw [hf] at hlist hd
    cases v with
    | arr vs =>
      have hvs := of_mapM_texts hd
      subst hvs
      simp only [mapM_text_str, Option.bind_eq_bind, Option.bind_some, Option.pure_def] at hlist
      split at hlist
      · exact (Option.some.inj hlist).symm
      · cases hlist
    | null => cases hd
    | bool b => cases hd
    | int n => cases hd
    | float r => cases hd
    | str s => cases hd
    | obj kvs => cases hd

theorem Encodes.wave_eq (h : Encodes T o t) {wave : ℕ} (hw : taskWave o = .ok wave) :
    t.wave = wave := by
  rw [taskWave, h.wave, Option.getD_some] at hw
  dsimp only at hw
  split at hw
  · cases hw
    omega
  · cases hw

/-! ## Tasks that are compared -/

variable {s : Snapshot} {objs : List Obj} {tasks : Dict String PlanTask}

/-- Two mappings of the plan are read as two tasks. -/
theorem encoded_apart (hf : List.Forall₂ (Encodes T) objs plan.tasks)
    (hn : (plan.tasks.map TaskSpec.id).Nodup) {o o' : Obj} (ho : o ∈ objs) (ho' : o' ∈ objs)
    (hne : o ≠ o') : ∃ t ∈ plan.tasks, ∃ u ∈ plan.tasks, Encodes T o t ∧ Encodes T o' u ∧
      t.id ≠ u.id := by
  have hpair : plan.tasks.Pairwise (fun t u => t ∈ plan.tasks ∧ u ∈ plan.tasks ∧ t.id ≠ u.id) :=
    (List.pairwise_map.mp hn).imp_of_mem (fun ht hu h => ⟨ht,hu,h⟩)
  obtain ⟨t,u,ht,hu,⟨htm,hum,h⟩ | ⟨hum,htm,h⟩⟩ := forall₂_pairwise hf hpair ho ho' hne
  · exact ⟨t,htm,u,hum,ht,hu,h⟩
  · exact ⟨t,htm,u,hum,ht,hu,h.symm⟩

/-- Ids that are the same once stripped are the same. -/
theorem id_eq_of_stripped (hf : List.Forall₂ (Encodes T) objs plan.tasks)
    (hn : (plan.tasks.map TaskSpec.id).Nodup) {o o' : Obj} (ho : o ∈ objs) (ho' : o' ∈ objs)
    {t u : String} (ht : o.field "id" = some (.str t)) (hu : o'.field "id" = some (.str u))
    (h : stripText T t = stripText T u) : t = u := by
  by_contra hne
  have hoo : o ≠ o' := by
    rintro rfl
    rw [ht] at hu
    cases hu
    exact hne rfl
  obtain ⟨tt,-,uu,-,het,heu,hid⟩ := encoded_apart hf hn ho ho' hoo
  obtain ⟨t',ht',hti⟩ := het.id
  obtain ⟨u',hu',hui⟩ := heu.id
  rw [ht] at ht'
  rw [hu] at hu'
  cases ht'
  cases hu'
  exact hid (by rw [hti, hui, h])

/-- What the completed tasks depend on is completed. -/
theorem completed_of_path (ho : Orderly s) (hm : taskMap s = .ok tasks)
    (hst : Stores T s.plan plan) {a b : String}
    (hp : Search.Path (dependsOn (byId plan)) a b)
    (ha : ∃ r, s.completed r = true ∧ a = stripText T r) :
    ∃ r, s.completed r = true ∧ b = stripText T r := by
  obtain ⟨objs,hobjs,hf⟩ := hst.tasks
  obtain ⟨objs',hobjs',hfrom,-⟩ := of_taskMap hm
  obtain rfl : objs = objs' := Except.ok.inj (hobjs.symm.trans hobjs')
  induction hp with
  | refl => exact ha
  | @tail c d _ hd ih =>
    obtain ⟨r,hr,rfl⟩ := ih
    obtain ⟨task,hsettled⟩ := ho.completed tasks hm r hr
    obtain ⟨o,hom,hread⟩ := hfrom r task hsettled.found
    obtain ⟨t,ht,he⟩ := forall₂_left hf o hom
    obtain ⟨id,hid,hti⟩ := he.id
    obtain rfl : id = r := by
      rw [hread.id] at hid
      cases hid
      rfl
    have hl := lookup_byId_of_nodup hst.unique ht
    rw [hti] at hl
    rw [dependsOn, hl, Option.elim_some, he.deps hread.deps, List.mem_map] at hd
    obtain ⟨dep,hdep,rfl⟩ := hd
    exact ⟨dep,hsettled.deps dep hdep,rfl⟩

/-- No dependencies lead from one open task, whose own are completed, to another. -/
theorem not_reaches (ho : Orderly s) (hm : taskMap s = .ok tasks) (hst : Stores T s.plan plan)
    {objs : List Obj} (hobjs : planTasks s.plan = .ok objs)
    (hf : List.Forall₂ (Encodes T) objs plan.tasks) {r r' : String} {task task' : PlanTask}
    (hr : Opened s tasks r task) (hr' : Opened s tasks r' task') {o o' : Obj}
    (hom' : o' ∈ objs) (hread : ReadFrom o r task) (hread' : ReadFrom o' r' task')
    {t u : TaskSpec ℤ} (ht : t ∈ plan.tasks) (he : Encodes T o t) (he' : Encodes T o' u)
    (hne : t.id ≠ u.id) : reaches plan t.id u.id = false := by
  by_contra hreach
  have hl := lookup_byId_of_nodup hst.unique ht
  have hpath := (reaches_iff (mem_of_lookup hl)).mp (by simpa using hreach)
  rcases Relation.ReflTransGen.cases_head hpath with heq | ⟨d,hd,hpath⟩
  · exact hne heq
  rw [dependsOn, hl, Option.elim_some, he.deps hread.deps, List.mem_map] at hd
  obtain ⟨dep,hdep,rfl⟩ := hd
  obtain ⟨q,hq,hqu⟩ := completed_of_path ho hm hst hpath ⟨dep,hr.deps dep hdep,rfl⟩
  obtain ⟨done,hsettled⟩ := ho.completed tasks hm q hq
  obtain ⟨objs',hobjs',hfrom,-⟩ := of_taskMap hm
  obtain rfl : objs = objs' := Except.ok.inj (hobjs.symm.trans hobjs')
  obtain ⟨oq,hoq,hreadq⟩ := hfrom q done hsettled.found
  obtain ⟨id,hid,hui⟩ := he'.id
  obtain rfl : id = r' := by
    rw [hread'.id] at hid
    cases hid
    rfl
  obtain rfl : q = id := id_eq_of_stripped hf hst.unique hoq hom' hreadq.id hread'.id
    (hqu.symm.trans hui)
  obtain rfl : done = task' := Option.some.inj (hsettled.found.symm.trans hr'.found)
  have heq := hsettled.terminal.symm.trans hr'.waits
  cases heq

/-- Two open tasks that may run are in one wave. -/
theorem wave_eq_of_opened {r r' : String} {task task' : PlanTask} (hr : Opened s tasks r task)
    (hr' : Opened s tasks r' task') : task.wave = task'.wave := by
  rcases Nat.lt_trichotomy task.wave task'.wave with h | h | h
  · have heq := (hr'.barrier r task hr.found h).symm.trans hr.waits
    cases heq
  · exact h
  · have heq := (hr.barrier r' task' hr'.found h).symm.trans hr'.waits
    cases heq

/-- Tasks that may run at one time have no overlapping paths, for the validator by its
spelling and so for the scheduler. -/
theorem opened_apart {ids : List String} (hv : validatePlan T plan = .ok ids)
    (hst : Stores T s.plan plan) (hsame : SameOverlaps T s.plan plan) (ho : Orderly s)
    (hm : taskMap s = .ok tasks) {r r' : String} {task task' : PlanTask}
    (hr : Opened s tasks r task) (hr' : Opened s tasks r' task') (hne : r ≠ r')
    {ps qs : List (List Char)} (hp : HasPaths tasks r ps) (hq : HasPaths tasks r' qs) :
    overlap ps qs = false := by
  obtain ⟨objs,hobjs,hf⟩ := hst.tasks
  obtain ⟨objs',hobjs',hfrom,-⟩ := of_taskMap hm
  obtain rfl : objs = objs' := Except.ok.inj (hobjs.symm.trans hobjs')
  obtain ⟨o,hom,hread⟩ := hfrom r task hr.found
  obtain ⟨o',hom',hread'⟩ := hfrom r' task' hr'.found
  have hoo : o ≠ o' := by
    rintro rfl
    have hid := hread.id.symm.trans hread'.id
    cases hid
    exact hne rfl
  obtain ⟨t,ht,u,hu,he,he',hid⟩ := encoded_apart hf hst.unique hom hom' hoo
  have hwave : t.wave = u.wave := by
    rw [he.wave_eq hread.wave, he'.wave_eq hread'.wave, wave_eq_of_opened hr hr']
  have htu := not_reaches ho hm hst hobjs hf hr hr' hom' hread hread' ht he he' hid
  have hut := not_reaches ho hm hst hobjs hf hr' hr hom hread' hread hu he' he hid.symm
  have hpar : parallel plan t u = true ∧ parallel plan u t = true := by
    simp [parallel, htu, hut, hwave, Label.same]
  have hpo : paths o = .ok ps := by
    obtain ⟨task₁,hl,hpaths⟩ := hp
    rw [hr.found] at hl
    cases hl
    rw [← hread.raw]
    exact hpaths
  have hqo : paths o' = .ok qs := by
    obtain ⟨task₁,hl,hpaths⟩ := hq
    rw [hr'.found] at hl
    cases hl
    rw [← hread'.raw]
    exact hpaths
  by_contra hov
  exact hsame objs hobjs o hom o' hom' t ht u hu he he' hid hpar.1 hpar.2 ps qs hpo hqo
    (by simpa using hov) (apart_of_valid hv ht hu hid hpar.1 hpar.2)

/-- The selection of a scheduler raises no conflict over tasks in order. -/
theorem select_unconflicted {ids available : List String} {n capacity : ℕ} {now m : String}
    (hv : validatePlan T plan = .ok ids) (hst : Stores T s.plan plan)
    (hsame : SameOverlaps T s.plan plan) (ho : Orderly s) (hn : available.Nodup) :
    select n (reclaim s now) available capacity now ≠ .error (.ownershipConflict m) := by
  intro h
  obtain ⟨tasks,ready,hm,hr,t,ht,u,hut,hu,ps,qs,hp,hq,hov⟩ := conflict_of_select hn h
  have hm' : taskMap s = .ok tasks := hm
  have hback : SameTasks (reclaim s now) s := ⟨rfl,rfl,rfl⟩
  obtain ⟨task,hopen,-⟩ := opened_of_ready hr ht hm
  have hother : ∃ other, Opened s tasks u other := by
    rcases hu with hu | hu
    · obtain ⟨other,hopen',-⟩ := opened_of_ready hr hu hm
      exact ⟨other,hback.opened hopen'⟩
    · exact ho.leased tasks hm' u ((reclaim_sub s now).mem hu)
  obtain ⟨other,hopen'⟩ := hother
  rw [opened_apart hv hst hsame ho hm' (hback.opened hopen) hopen' hut.symm hp hq] at hov
  cases hov

/-! ## Plain spellings -/

/-- The text is its own normal form, but for slashes at its ends. -/
def Written (p : String) : Prop := stripChar '/' p.toList = pathText (pathParts (unbackslash p))

theorem declaredPath_ok {v : Json} {w : List (List Char)} (h : declaredPath v = .ok w) :
    ∃ p, v = .str p ∧ w = pathParts (unbackslash p) := by
  cases v with
  | str p =>
    rw [declaredPath] at h
    split at h
    · cases h
    · split at h
      · cases h
      · dsimp only at h
        split at h
        · cases h
        · cases h
          exact ⟨p,rfl,rfl⟩
  | null => cases h
  | bool b => cases h
  | int n => cases h
  | float r => cases h
  | arr xs => cases h
  | obj kvs => cases h

/-- The scheduler's paths of a task are the normal forms of texts whose stripped forms
the plan declares. -/
theorem Encodes.of_paths (h : Encodes T o t) {ps : List (List Char)} (hp : paths o = .ok ps)
    {a : List Char} (ha : a ∈ ps) : ∃ vs p, o.field "allowed_paths" = some (.arr vs) ∧
      .str p ∈ vs ∧ stripText T p ∈ t.allowedPaths ∧ a = pathText (pathParts (unbackslash p)) := by
  obtain ⟨declared,hd,hp⟩ := ok_of_bind hp
  cases hp
  obtain ⟨w,hw,rfl⟩ := List.mem_map.mp ha
  obtain ⟨vs,hvs,hd⟩ := ok_of_bind hd
  obtain ⟨allowed,hall,hd⟩ := ok_of_bind hd
  obtain ⟨vs',hvs',hd⟩ := ok_of_bind hd
  obtain ⟨more,hmore,hd⟩ := ok_of_bind hd
  have hnone : vs' = [] := by
    rw [pathValues, h.known.2] at hvs'
    cases hvs'
    rfl
  subst hnone
  obtain rfl : more = [] := (Except.ok.inj hmore).symm
  obtain rfl : declared = allowed++[] := (Except.ok.inj hd).symm
  rw [List.append_nil] at hw
  obtain ⟨v,hv,hvw⟩ : ∃ v ∈ vs, declaredPath v = .ok w := by
    obtain ⟨v,hv,hvw⟩ := forall₂_left (mapM_ok.mp hall).flip w hw
    exact ⟨v,hv,hvw⟩
  obtain ⟨p,rfl,rfl⟩ := declaredPath_ok hvw
  have hlist := h.allowedPaths
  rw [stringList] at hlist
  rw [pathValues] at hvs
  cases hf : o.field "allowed_paths" with
  | none =>
    rw [hf] at hvs
    cases hvs
    cases hv
  | some u =>
    rw [hf] at hvs hlist
    cases u with
    | arr us =>
      cases hvs
      refine ⟨vs,p,rfl,hv,?_,rfl⟩
      cases hm : vs.mapM Json.text? with
      | none => simp [hm] at hlist
      | some items =>
        simp only [hm, Option.bind_eq_bind, Option.bind_some, Option.pure_def] at hlist
        split at hlist
        · rw [← Option.some.inj hlist]
          exact List.mem_map_of_mem (mem_of_mapM_text hm hv)
        · cases hlist
    | null =>
      cases hvs
      cases hv
    | bool b => cases hvs
    | int n => cases hvs
    | float r => cases hvs
    | str s => cases hlist
    | obj kvs => cases hvs

/-- Where every allowed path is written in its normal form, the scheduler and the
validator find the same overlaps. -/
theorem sameOverlaps_of_written {stored : Obj}
    (h : ∀ objs, planTasks stored = .ok objs → ∀ o ∈ objs, ∀ vs,
      o.field "allowed_paths" = some (.arr vs) → ∀ p, .str p ∈ vs →
        stripText T p = p ∧ Written p) : SameOverlaps T stored plan := by
  intro objs hobjs o ho o' ho' t _ u _ he he' _ _ _ ps qs hps hqs hov hapart
  simp only [overlap, List.any_eq_true] at hov
  obtain ⟨a,ha,b,hb,hab⟩ := hov
  obtain ⟨vs,p,hf,hpv,hpt,rfl⟩ := he.of_paths hps ha
  obtain ⟨vs',q,hf',hqv,hqu,rfl⟩ := he'.of_paths hqs hb
  obtain ⟨hp,hpw⟩ := h objs hobjs o ho vs hf p hpv
  obtain ⟨hq,hqw⟩ := h objs hobjs o' ho' vs' hf' q hqv
  rw [hp] at hpt
  rw [hq] at hqu
  have hfree := hapart p hpt q hqu
  simp only [pathOverlap, show stripChar '/' p.toList = _ from hpw,
    show stripChar '/' q.toList = _ from hqw, hab, Bool.true_eq_false] at hfree

/-! ## Claims of a run -/

variable {D : Deps} {rid : String} {d : RunDir} {a : Action} {x : Draws}

theorem regular_perform (h : d.Regular) : (perform D allOk rid a x d).2.Regular := by
  have hp := perform_performed D allOk rid x d a
  generalize (perform D allOk rid a x d).1 = o at hp
  generalize (perform D allOk rid a x d).2 = d' at hp
  cases hp with
  | refused e => exact h
  | answered s r body hr hb hbody => exact h
  | wrote s c r body hr hb hbody d' hw =>
    obtain ⟨d'',hw',hrep⟩ := write_allOk hr h c.document
    rw [hw] at hw'
    cases hw'
    refine ⟨by rw [hrep.1]; rfl,?_⟩
    rcases hrep.2 with ⟨hb,-⟩ | ⟨hb,-⟩ <;> rw [hb]
    · exact h.2
    · exact h.1
  | failed s c r body hr hb hbody e d' hw =>
    obtain ⟨d'',hw',-⟩ := write_allOk hr h c.document
    rw [hw] at hw'
    cases hw'
  | stopped s c r body hr hb hbody d' hw =>
    obtain ⟨d'',hw',-⟩ := write_allOk hr h c.document
    rw [hw] at hw'
    cases hw'

theorem created_regular {initial : Option Json} (h : Created D rid initial d) : d.Regular := by
  obtain ⟨hb,state,hs,-⟩ := created_document h
  exact ⟨by rw [hs]; rfl,by rw [hb]; rfl⟩

/-- A section that raises has refused its arguments or the state. -/
theorem of_perform_raised {e : PyError} (hr : Reads D rid d s) (hl : d.Regular)
    (h : (perform D allOk rid a x d).1 = .raised e) :
    a.prepare D x = .error e ∨ ∃ body, a.prepare D x = .ok body ∧ body s = .error e := by
  by_cases ha : a = .load
  · subst ha
    rw [perform_load hr] at h
    cases h
  cases hb : a.prepare D x with
  | error e' =>
    rw [perform_eq_locked ha, hb, Faulty.ofExcept_error_bind] at h
    cases h
    exact Or.inl rfl
  | ok body =>
    cases hbody : body s with
    | error e' =>
      rw [perform_refused ha hr hb hbody] at h
      cases h
      exact Or.inr ⟨body,rfl,hbody⟩
    | ok p =>
      obtain ⟨o,r⟩ := p
      cases o with
      | some c =>
        obtain ⟨d',hw,-⟩ := perform_writes hr hl ⟨body,hb,hbody⟩
        rw [hw] at h
        cases h
      | none =>
        rw [perform_answered ha hr ⟨body,hb,hbody⟩] at h
        cases h

theorem clockValue_unconflicted {v : Json} {m : String} :
    clockValue v ≠ .error (.ownershipConflict m) := by
  intro h
  rw [clockValue.eq_def] at h
  split at h
  · split at h <;> cases h
  · cases h

theorem plusSeconds_unconflicted {now m : String} {seconds : Seconds} :
    plusSeconds now seconds ≠ .error (.ownershipConflict m) := by
  intro h
  rw [plusSeconds] at h
  split at h
  · cases h
  split at h
  · cases h
  · split at h <;> cases h

theorem availableIds_unconflicted {available : List String} {vs : List Json} {m : String} :
    availableIds available vs ≠ .error (.ownershipConflict m) := by
  induction vs with
  | nil => exact fun h => nomatch h
  | cons v vs ih =>
    intro h
    rcases error_of_bind h with h | ⟨b,-,h⟩
    · rw [Json.inSet.eq_def] at h
      split at h <;> cases h
    split at h
    · rcases error_of_bind h with h | ⟨_,-,h⟩
      · exact ih h
      · cases h
    · cases h

theorem checkChosen_unconflicted {available : List String} {capacity : ℕ} {chosen : Json}
    {m : String} : checkChosen available capacity chosen ≠ .error (.ownershipConflict m) := by
  intro h
  rw [checkChosen.eq_def] at h
  split at h
  · split at h
    · cases h
    rcases error_of_bind h with h | ⟨o,-,h⟩
    · exact availableIds_unconflicted h
    split at h
    · split at h <;> cases h
    · cases h
  · cases h

/-- A `claim_many` raises a conflict only out of its selection. -/
theorem conflict_of_claimMany {taskIds : List String} {owner m : String} {maxParallel : ℤ}
    {seconds : Seconds} {sel : Selector} {body : Body}
    (hb : claimMany taskIds owner maxParallel seconds sel x = .ok body)
    (h : body s = .error (.ownershipConflict m)) :
    ∃ (now : String) (capacity : ℕ) (available : List String), available.Nodup ∧
      sel.select (reclaim s now) available capacity now = .error (.ownershipConflict m) := by
  rw [claimMany] at hb
  split at hb
  · cases hb
  split at hb
  · cases hb
  split at hb
  · cases hb
  rename_i hids
  cases hb
  have hn : taskIds.Nodup := by
    simp only [Bool.not_eq_true', Bool.and_eq_false_iff, not_or, Bool.not_eq_false,
      decide_eq_true_eq] at hids
    exact hids.2
  rcases error_of_bind h with h | ⟨_,-,h⟩
  · rw [checkOwner] at h
    split at h <;> cases h
  rcases error_of_bind h with h | ⟨known,-,h⟩
  · rcases error_of_bind h with h | ⟨_,-,h⟩
    · rcases error_of_bind h with h | ⟨_,-,h⟩
      · rw [Json.iter.eq_def] at h
        split at h <;> cases h
      · cases h
    · dsimp only at h
      split at h <;> cases h
  split at h
  · cases h
  split at h
  · cases h
  rcases error_of_bind h with h | ⟨now,-,h⟩
  · exact absurd h clockValue_unconflicted
  dsimp only at h
  split at h
  · cases h
  rcases error_of_bind h with h | ⟨chosen,-,h⟩
  · exact ⟨now,_,_,hn.filter _,h⟩
  rcases error_of_bind h with h | ⟨ids,-,h⟩
  · exact absurd h checkChosen_unconflicted
  split at h
  · split at h <;> cases h
  · rcases error_of_bind h with h | ⟨expiry,-,h⟩
    · exact absurd h plusSeconds_unconflicted
    rcases error_of_bind h with h | ⟨stamp,-,h⟩
    · exact absurd h clockValue_unconflicted
    · cases h

/-- A section of a run that takes tasks in order, if the state can be read. -/
def InOrderDir (D : Deps) (rid : String) (a : Action) (_ : Draws) (d : RunDir) : Prop :=
  ∀ s, Reads D rid d s → InOrderAt s a

/-- What a run keeps: the files, the plan and the order of the tasks. -/
structure OrderlyDir (D : Deps) (rid : String) (plan : Obj) (d : RunDir) : Prop where
  regular : d.Regular
  state : ∀ s, Reads D rid d s → Files D rid s d ∧ s.plan = plan ∧ Orderly s

theorem orderlyDir_section {stored : Obj} (hok : InOrderDir D rid a x d)
    (h : OrderlyDir D rid stored d) : OrderlyDir D rid stored (perform D allOk rid a x d).2 := by
  refine ⟨regular_perform h.regular,?_⟩
  by_cases hr : ∃ s, Reads D rid d s
  · obtain ⟨s,hs⟩ := hr
    obtain ⟨hf,hplan,ho⟩ := h.state s hs
    have hend := files_perform hf a x
    generalize (perform D allOk rid a x d).1 = o at hend
    generalize (perform D allOk rid a x d).2 = d' at hend
    have key : ∀ c, Files D rid c d' → c.plan = stored → Orderly c → ∀ s', Reads D rid d' s' →
        Files D rid s' d' ∧ s'.plan = stored ∧ Orderly s' := by
      intro c hfc hpc hoc s' hs'
      rw [reads_unique hs' (files_reads hfc)]
      exact ⟨hfc,hpc,hoc⟩
    cases hend with
    | refused e d' hf' => exact key s hf' hplan ho
    | answered r ha => exact h.state
    | wrote c r hw d' hp hf' =>
      by_cases hv : c.Valid D rid
      · rw [after_valid hv] at hf'
        exact key c hf' ((writes_extends hw).1.plan.trans hplan) (orderly_writes (hok s hs) hw ho)
      · rw [after_refused hv] at hf'
        exact key s hf' hplan ho
  · rw [not_exists] at hr
    rw [perform_unread hr]
    exact h.state

end

/-- A stored task of the first wave that owns one path. -/
def pathTask (id path : String) : Obj := [("id", .str id), ("wave", .int 0), ("role", .str "dev"),
  ("objective", .str "objective"), ("allowed_paths", .arr [.str path]),
  ("outputs", .arr [.str "output"]), ("acceptance_criteria", .arr [.str "accepted"]),
  ("validation_commands", .arr [.str "test"])]

/-- Two tasks of one wave that own the paths `p` and `q`. -/
def twoPaths (p q : String) : Obj := [("schema_version", .str "pd-fleet-plan:v2"),
  ("tasks", .arr [.obj (pathTask "a" p), .obj (pathTask "b" q)])]

def twoPathsPlan (p q : String) : FleetPlan ℤ :=
  plainPlan [plainTask "a" 0 [] [p],plainTask "b" 0 [] [q]]

def twoPathsState (p q : String) : Snapshot :=
  freshSnapshot "run" (sha256Hex (planHashDomain ++ dumps (.obj (twoPaths p q)))) (twoPaths p q)
    "me" "2026-01-01T00:00:00Z"

def twoPathsDir (p q : String) : RunDir :=
  ⟨sealedNode (twoPathsState p q), .absent, .absent, .absent⟩

theorem twoPaths_created (p q : String) : Created sampleDeps "run" none (twoPathsDir p q) :=
  ⟨.obj (twoPaths p q),"me",.str "2026-01-01T00:00:00Z",_,rfl⟩

theorem twoPaths_valid (p q : String) : (twoPathsState p q).Valid sampleDeps "run" where
  run := rfl
  owner := show isId "me" = true by decide
  hash := rfl
  updated := show (utcInstant "2026-01-01T00:00:00Z").isSome = true by decide
  gates := rfl
  metrics := rfl
  audit := rfl
  tasks := fun _ _ h => nomatch h
  leases := fun _ _ h => nomatch h
  reports := fun _ _ h => nomatch h
  logged := rfl

theorem twoPaths_reads (p q : String) :
    Reads sampleDeps "run" (twoPathsDir p q) (twoPathsState p q) :=
  files_reads (.current (readable_sealed.mpr ⟨rfl,twoPaths_valid p q⟩) quiet_absent
    (fun _ h => nomatch h))

theorem twoPaths_stores {p q : String} (hp : stringList ascii (pathTask "a" p) "allowed_paths" =
    some [p]) (hq : stringList ascii (pathTask "b" q) "allowed_paths" = some [q]) :
    Stores ascii (twoPaths p q) (twoPathsPlan p q) where
  tasks := ⟨[pathTask "a" p,pathTask "b" q],rfl,
    .cons ⟨⟨"a",rfl,show "a" = stripText ascii "a" by decide⟩,rfl,rfl,hp,rfl,rfl⟩
      (.cons ⟨⟨"b",rfl,show "b" = stripText ascii "b" by decide⟩,rfl,rfl,hq,rfl,rfl⟩ .nil)⟩
  unique := by
    simp only [twoPathsPlan, plainPlan, plainTask, List.map_cons, List.map_nil]
    decide

end PdFleet
