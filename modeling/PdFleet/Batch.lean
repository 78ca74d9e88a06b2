import PdFleet.Progress

/-!
# Tasks that are ready together

A valid plan has no overlapping paths among tasks of one wave that no dependency
orders. Tasks that are ready together, and not yet done, are such tasks.
-/

set_option autoImplicit false

namespace PdFleet

section

variable {W : Type} {plan : FleetPlan W} {T : Tables}

theorem pathOverlap_symm (a b : String) : pathOverlap a b = pathOverlap b a := by
  rw [Bool.eq_iff_iff]
  simp only [pathOverlap, Bool.or_eq_true, decide_eq_true_eq]
  constructor
  · rintro ((h | h) | h)
    · exact Or.inl (Or.inl h.symm)
    · exact Or.inr h
    · exact Or.inl (Or.inr h)
  · rintro ((h | h) | h)
    · exact Or.inl (Or.inl h.symm)
    · exact Or.inr h
    · exact Or.inl (Or.inr h)

/-- The two tasks declare no overlapping allowed paths. -/
def Apart (t u : TaskSpec W) : Prop :=
  ∀ a ∈ t.allowedPaths, ∀ b ∈ u.allowedPaths, pathOverlap a b = false

theorem Apart.symm {t u : TaskSpec W} (h : Apart t u) : Apart u t := by
  intro a ha b hb
  rw [pathOverlap_symm]
  exact h b hb a ha

theorem apart_of_pairErrors {t u : TaskSpec W} (h : pairErrors t u = []) : Apart t u := by
  simp only [pairErrors, List.flatMap_eq_nil_iff, List.map_eq_nil_iff, List.filter_eq_nil_iff,
    mem_sortedSet, Bool.not_eq_true] at h
  exact h

theorem pairwise_of_parallelErrors [Label W] {l : List (TaskSpec W)}
    (h : parallelErrors plan l = []) :
    l.Pairwise (fun t u => parallel plan t u = true → Apart t u) := by
  induction l with
  | nil => exact .nil
  | cons t l ih =>
    rw [parallelErrors, List.append_eq_nil_iff, List.flatMap_eq_nil_iff] at h
    refine List.pairwise_cons.mpr ⟨fun u hu hp => ?_,ih h.2⟩
    have hu' := h.1 u hu
    rw [if_pos hp] at hu'
    exact apart_of_pairErrors hu'

/-- Tasks of a valid plan that may run in parallel have no overlapping paths. -/
theorem apart_of_valid [Label W] {ids : List String} (hv : validatePlan T plan = .ok ids)
    {t u : TaskSpec W} (ht : t ∈ plan.tasks) (hu : u ∈ plan.tasks) (hne : t.id ≠ u.id)
    (htu : parallel plan t u = true) (hut : parallel plan u t = true) : Apart t u := by
  have hown := (validatePlan_ok hv).ownership
  rw [validateOwnership, sortTexts_eq_nil, List.append_eq_nil_iff] at hown
  have hpair := pairwise_of_parallelErrors hown.2
  have hsym : ∀ {l : List (TaskSpec W)}, l.Pairwise (fun t u => parallel plan t u = true →
      Apart t u) → t ∈ l → u ∈ l → Apart t u := by
    intro l hl htl hul
    induction hl with
    | nil => cases htl
    | @cons v l hv' hl ih =>
      rcases List.mem_cons.mp htl with he | htl <;> rcases List.mem_cons.mp hul with he' | hul
      · exact absurd (by rw [he, he']) hne
      · exact he ▸ hv' u hul (he ▸ htu)
      · exact he' ▸ (hv' t htl (he' ▸ hut)).symm
      · exact ih htl hul
  exact hsym hpair (mem_sortTasks.mpr ht) (mem_sortTasks.mpr hu)

theorem graphNodes_closed : ∀ a ∈ graphNodes plan, dependsOn (byId plan) a ⊆ graphNodes plan := by
  intro a _ b hb
  cases ht : (byId plan).lookup a with
  | none =>
    rw [dependsOn, ht] at hb
    cases hb
  | some t =>
    exact List.mem_append_right _ (List.mem_flatMap.mpr
      ⟨a,AList.mem_keys.mp (Dict.mem_of_lookup ht),hb⟩)

/-- `reaches` decides whether dependencies lead from one task to another. -/
theorem reaches_iff {start target : String} (hs : start ∈ byId plan) :
    reaches plan start target = true ↔ Search.Path (dependsOn (byId plan)) start target :=
  Search.reaches_iff graphNodes_closed (List.mem_append_left _ (AList.mem_keys.mp hs))
    (Nat.lt_succ_self _)

/-- Every task of the plan is found under its id. -/
theorem lookup_byId_of_nodup (hn : (plan.tasks.map TaskSpec.id).Nodup) {t : TaskSpec W}
    (ht : t ∈ plan.tasks) : (byId plan).lookup t.id = some t := by
  obtain ⟨u,hu⟩ := Dict.exists_lookup (mem_byId.mpr ⟨t,ht,rfl⟩)
  obtain ⟨hup,hid⟩ := of_lookup_byId hu
  rw [hu, List.inj_on_of_nodup_map hn hup ht hid]

/-- With each task, the ids hold its dependencies. -/
def Closed (plan : FleetPlan W) (ids : List String) : Prop :=
  ∀ t ∈ plan.tasks, t.id ∈ ids → t.dependsOn ⊆ ids

theorem closed_path {ids : List String} (hc : Closed plan ids) {a b : String}
    (h : Search.Path (dependsOn (byId plan)) a b) (ha : a ∈ ids) : b ∈ ids := by
  induction h with
  | refl => exact ha
  | @tail c d _ hd ih =>
    cases ht : (byId plan).lookup c with
    | none =>
      rw [dependsOn, ht] at hd
      cases hd
    | some t =>
      obtain ⟨htp,hid⟩ := of_lookup_byId ht
      rw [dependsOn, ht] at hd
      exact hc t htp (hid ▸ ih) hd

/-- A ready task whose dependencies lead to another has that one done. -/
theorem terminal_of_reaches [Label W] (hn : (plan.tasks.map TaskSpec.id).Nodup)
    {done passed : List String} (hc : Closed plan (terminalIds plan done)) {t u : TaskSpec W}
    (ht : t ∈ plan.tasks) (hr : Ready T plan done passed t) (hne : t.id ≠ u.id)
    (h : reaches plan t.id u.id = true) : u.id ∈ terminalIds plan done := by
  have hl := lookup_byId_of_nodup hn ht
  have hp := (reaches_iff (Dict.mem_of_lookup hl)).mp h
  rcases Relation.ReflTransGen.cases_head hp with he | ⟨d,hd,hp⟩
  · exact absurd he hne
  · rw [dependsOn, hl] at hd
    exact closed_path hc hp (hr.deps d hd)

/-- Waves are written in one way: tasks of one wave have equal labels. -/
def Uniform (T : Tables) [Label W] (plan : FleetPlan W) : Prop :=
  ∀ t ∈ plan.tasks, ∀ u ∈ plan.tasks, t.waveId T = u.waveId T →
    Label.same t.wave u.wave = true

/-- In a valid plan that writes each wave in one way: of the tasks that are ready
together, those that are not terminal have no overlapping paths, if with every terminal
task its dependencies are terminal. -/
theorem batch_apart [Label W] {ids completed skipped passed ready : List String}
    (hv : validatePlan T plan = .ok ids) (hn : (plan.tasks.map TaskSpec.id).Nodup)
    (hu : Uniform T plan) (hc : Closed plan (terminalIds plan (completed++skipped)))
    (hr : computeReadyTasks T plan completed skipped passed = .ok ready) :
    ∀ t ∈ plan.tasks, ∀ u ∈ plan.tasks, t.id ≠ u.id → t.id ∈ ready → u.id ∈ ready →
      t.id ∉ terminalIds plan (completed++skipped) →
      u.id ∉ terminalIds plan (completed++skipped) → Apart t u := by
  intro t ht u hut hne htr hur htt hutt
  have hready : ∀ v ∈ plan.tasks, v.id ∈ ready → Ready T plan (completed++skipped) passed v := by
    intro v hv' hvr
    obtain ⟨w,hw,hwr,hid⟩ := (mem_computeReadyTasks hr).mp hvr
    rwa [List.inj_on_of_nodup_map hn hw hv' hid] at hwr
  have hrt := hready t ht htr
  have hru := hready u hut hur
  have hwave : t.waveId T = u.waveId T := by
    refine WaveId.eq_of_not_before ?_ ?_
    · by_contra hb
      exact htt (hru.barrier t ht (by simpa using hb))
    · by_contra hb
      exact hutt (hrt.barrier u hut (by simpa using hb))
  have hpar : parallel plan t u = true ∧ parallel plan u t = true := by
    have h₁ : reaches plan t.id u.id = false := by
      by_contra h
      exact hutt (terminal_of_reaches hn hc ht hrt hne (by simpa using h))
    have h₂ : reaches plan u.id t.id = false := by
      by_contra h
      exact htt (terminal_of_reaches hn hc hut hru hne.symm (by simpa using h))
    simp [parallel, h₁, h₂, hu t ht u hut hwave, hu u hut t ht hwave.symm]
  exact apart_of_valid hv ht hut hne hpar.1 hpar.2

end

/-- Two tasks of one wave that own parts of their own. -/
def splitPlan : FleetPlan ℤ := plainPlan [plainTask "a" 1 [] ["src/a"],plainTask "b" 1 [] ["src/b"]]

theorem batch_apart_split :
    Apart (plainTask "a" 1 [] ["src/a"] : TaskSpec ℤ) (plainTask "b" 1 [] ["src/b"]) := by
  have hv : validatePlan ascii splitPlan = .ok ["a","b"] := by decide
  have hr : computeReadyTasks ascii splitPlan [] [] [] = .ok ["a","b"] := by decide
  have hu : Uniform ascii splitPlan := by
    unfold Uniform
    decide
  have hc : Closed splitPlan (terminalIds splitPlan ([]++[])) := by
    unfold Closed
    decide
  exact batch_apart hv (by decide) hu hc hr _ (by simp [splitPlan,plainPlan]) _
    (by simp [splitPlan,plainPlan]) (by decide) (by decide) (by decide) (by decide) (by decide)

/-- The task `b` depends on the task `a` and owns the same path. -/
def serialPlan : FleetPlan ℤ := plainPlan [plainTask "a" 1 [] ["src"],plainTask "b" 1 ["a"] ["src"]]

/-- Once `a` is completed it is returned together with `b`, which owns the same path. -/
theorem batch_overlaps : validatePlan ascii serialPlan = .ok ["a","b"] ∧
    computeReadyTasks ascii serialPlan ["a"] [] [] = .ok ["a","b"] ∧
    pathOverlap "src" "src" = true ∧
    serialPlan.tasks.map (fun t => (t.id,t.allowedPaths)) = [("a",["src"]),("b",["src"])] :=
  ⟨by decide,by decide,by decide,rfl⟩

end PdFleet
