import PdFleet.Runs

/-!
# What the scheduler selects

Readiness and selection by what they guarantee: a ready task has its dependencies
completed and the earlier waves behind it, and the selected tasks are ready and free
of the paths of one another and of the tasks that are leased.
-/

set_option autoImplicit false

namespace PdFleet

section

variable {s c : Snapshot} {now : String}

/-! ## Readiness -/

theorem of_openTasks {l waiting : List (String × PlanTask)} (h : openTasks s l = .ok waiting) :
    ∀ e, (e ∈ waiting ↔ e ∈ l ∧ isTerminal s e.1 e.2 = .ok false) ∧
      (e ∈ l → e ∉ waiting → isTerminal s e.1 e.2 = .ok true) := by
  induction l generalizing waiting with
  | nil =>
    cases h
    simp
  | cons e₀ l ih =>
    obtain ⟨terminal,ht,h⟩ := ok_of_bind h
    obtain ⟨rest,hr,h⟩ := ok_of_bind h
    intro e
    obtain ⟨hi,hx⟩ := ih hr e
    cases terminal with
    | true =>
      cases h
      by_cases he : e = e₀
      · subst he
        simp [ht, hi]
      · simp only [if_true, he, List.mem_cons, false_or]
        exact ⟨hi,hx⟩
    | false =>
      cases h
      by_cases he : e = e₀
      · subst he
        simp [ht]
      · simp only [Bool.false_eq_true, if_false, List.mem_cons, he, false_or]
        exact ⟨hi,hx⟩

theorem minWave_le {l : List (String × PlanTask)} {wave : ℕ} (h : minWave l = some wave) :
    ∀ e ∈ l, wave ≤ e.2.wave := by
  induction l generalizing wave with
  | nil => simp
  | cons e₀ l ih =>
    rw [minWave, Option.some.injEq] at h
    intro e he
    cases hm : minWave l with
    | none =>
      cases l with
      | nil =>
        rw [hm] at h
        simp only [List.mem_singleton] at he
        simp [he, ← h]
      | cons e₁ l => simp [minWave] at hm
    | some w =>
      rw [hm] at h
      simp only [Option.elim_some] at h
      rcases List.mem_cons.mp he with rfl | he
      · omega
      · have := ih hm e he
        omega

/-- A task that may run: its dependencies are completed and the tasks of smaller waves
are terminal. -/
def Runnable (s : Snapshot) (taskId : String) : Prop :=
  ∃ tasks task, taskMap s = .ok tasks ∧ tasks.lookup taskId = some task ∧
    (∀ dep ∈ task.deps, s.completed dep = true) ∧
    ∀ other t, tasks.lookup other = some t → t.wave < task.wave →
      isTerminal s other t = .ok true

theorem mem_sortIds {l : List String} {t : String} : t ∈ sortIds l ↔ t ∈ l :=
  (List.perm_insertionSort (· ≤ ·) l).mem_iff

/-- The ready tasks, among the open tasks of the smallest wave. -/
theorem of_readyIds {o : Option String} {ready : List String} (h : readyIds s o = .ok ready) :
    ∃ tasks, taskMap s = .ok tasks ∧ ∀ t ∈ ready, ∃ task, tasks.lookup t = some task ∧
      isTerminal s t task = .ok false ∧ leased s o t = false ∧
      (∀ dep ∈ task.deps, s.completed dep = true) ∧
      ∀ other u, tasks.lookup other = some u → u.wave < task.wave →
        isTerminal s other u = .ok true := by
  obtain ⟨tasks,ht,h⟩ := ok_of_bind h
  obtain ⟨waiting,hw,h⟩ := ok_of_bind h
  refine ⟨tasks,ht,fun t hm => ?_⟩
  cases hmin : minWave waiting with
  | none =>
    rw [hmin] at h
    cases h
    simp at hm
  | some wave =>
    rw [hmin] at h
    cases h
    rw [mem_sortIds, List.mem_map] at hm
    obtain ⟨⟨t',task⟩,he,rfl⟩ := hm
    simp only [List.mem_filter, Bool.and_eq_true, Bool.not_eq_true', decide_eq_true_eq,
      List.all_eq_true] at he
    obtain ⟨hin,⟨hl,rfl⟩,hd⟩ := he
    obtain ⟨hmem,hf⟩ := (of_openTasks hw (t',task)).1.mp hin
    refine ⟨task,(Dict.mem_toFields tasks t' task).mp hmem,hf,hl,hd,fun other u hu hlt => ?_⟩
    have hu' := (Dict.mem_toFields tasks other u).mpr hu
    by_contra hn
    have hopen : (other,u) ∈ waiting := by
      by_contra hno
      exact hn ((of_openTasks hw (other,u)).2 hu' hno)
    exact absurd (minWave_le hmin _ hopen) (not_le.mpr hlt)

theorem runnable_of_ready {o : Option String} {ready : List String}
    (h : readyIds s o = .ok ready) {t : String} (ht : t ∈ ready) : Runnable s t := by
  obtain ⟨tasks,hm,hall⟩ := of_readyIds h
  obtain ⟨task,hl,-,-,hd,hw⟩ := hall t ht
  exact ⟨tasks,task,hm,hl,hd,hw⟩

theorem runnable_congr (hp : c.plan = s.plan) (ht : c.tasks = s.tasks)
    (hr : c.reports = s.reports) {t : String} : Runnable c t ↔ Runnable s t := by
  simp only [Runnable, taskMap, Snapshot.completed, isTerminal, statusOf, hp, ht, hr]

/-! ## Selection -/

/-- The task has these paths. -/
def HasPaths (tasks : Dict String PlanTask) (taskId : String) (ps : List (List Char)) : Prop :=
  ∃ task, tasks.lookup taskId = some task ∧ paths task.raw = .ok ps

/-- What the loop of `select` has come to: the tasks `new`, with their paths, after the
tasks `selected`. -/
structure Selected (tasks : Dict String PlanTask) (ready ids : List String) (requested : ℕ)
    (selected : List String) (taken : List (List (List Char))) (new : List String)
    (ps : List (List (List Char))) : Prop where
  picked : new = (ids.filter (· ∈ ready)).take (requested-selected.length)
  ready : ∀ t ∈ new, t ∈ ready
  paths : List.Forall₂ (HasPaths tasks) new ps
  apart : ∀ p ∈ ps, ∀ q ∈ taken, overlap p q = false
  pairwise : ps.Pairwise (fun p q => overlap q p = false)

theorem of_selectLoop {tasks : Dict String PlanTask} {ready ids : List String} {requested : ℕ}
    {taken : List (List (List Char))} {selected out : List String}
    (h : selectLoop tasks ready requested ids taken selected = .ok out) :
    ∃ new ps, out = selected++new ∧
      Selected tasks ready ids requested selected taken new ps := by
  induction ids generalizing taken selected with
  | nil =>
    cases h
    exact ⟨[],[],by simp,by simp,by simp,.nil,by simp,.nil⟩
  | cons id rest ih =>
    rw [selectLoop] at h
    split at h
    · cases h
      have hzero : requested-out.length = 0 := by omega
      exact ⟨[],[],by simp,by simp [hzero],by simp,.nil,by simp,.nil⟩
    rename_i hlen
    split at h
    · rename_i hready
      obtain ⟨new,ps,ho,hs⟩ := ih h
      exact ⟨new,ps,ho,by rw [hs.picked]; simp [hready],hs.ready,hs.paths,hs.apart,hs.pairwise⟩
    rename_i hready
    split at h
    · cases h
    rename_i task htask
    obtain ⟨p,hp,h⟩ := ok_of_bind h
    split at h
    · cases h
    rename_i hfree
    obtain ⟨new,ps,ho,hs⟩ := ih h
    have hfree' : ∀ q ∈ taken, overlap p q = false := by simpa using hfree
    refine ⟨id::new,p::ps,by rw [ho]; simp,?_,?_,.cons ⟨task,htask,hp⟩ hs.paths,?_,?_⟩
    · have hsucc : requested-selected.length = requested-(selected++[id]).length+1 := by
        rw [List.length_append, List.length_singleton]
        omega
      rw [hs.picked, List.filter_cons, if_pos (by simpa using hready), hsucc, List.take_succ_cons]
    · intro t ht
      rcases List.mem_cons.mp ht with rfl | ht
      · exact not_not.mp hready
      · exact hs.ready t ht
    · intro q hq
      rcases List.mem_cons.mp hq with rfl | hq
      · exact hfree'
      · exact fun r hr => hs.apart q hq r (List.mem_append_left _ hr)
    · rw [List.pairwise_cons]
      exact ⟨fun q hq => hs.apart q hq p (by simp),hs.pairwise⟩

/-- A selection: ready tasks, no more than requested, whose paths are apart from those of
the leased tasks and from one another. -/
theorem of_select {requested capacity : ℕ} {available ids : List String}
    (h : select requested s available capacity now = .ok (.arr (ids.map Json.str))) :
    requested ≤ capacity ∧ ∃ tasks ready occupied ps, taskMap s = .ok tasks ∧
      readyIds s (some now) = .ok ready ∧ occupiedPaths s tasks now = .ok occupied ∧
      Selected tasks ready (sortIds available) requested [] occupied ids ps := by
  rw [select] at h
  split at h
  · cases h
  rename_i hcap
  obtain ⟨tasks,ht,h⟩ := ok_of_bind h
  obtain ⟨ready,hr,h⟩ := ok_of_bind h
  obtain ⟨occupied,ho,h⟩ := ok_of_bind h
  obtain ⟨out,hl,h⟩ := ok_of_bind h
  obtain ⟨new,ps,hout,hs⟩ := of_selectLoop hl
  have hids : ids.map Json.str = new.map Json.str := by
    rw [hout, List.nil_append] at h
    exact (Json.arr.inj (Except.ok.inj h)).symm
  rw [List.map_injective_iff.mpr (fun a b hab => Json.str.inj hab) hids]
  exact ⟨not_lt.mp hcap,tasks,ready,occupied,ps,ht,hr,ho,hs⟩

end

end PdFleet
