import PdFleet.Validation

/-!
# Valid plans make progress

What the validation of a plan establishes: dependencies are known and have a
topological order. Where no task depends on a later wave, some task is ready as long
as one is left.
-/

set_option autoImplicit false

namespace PdFleet

section

variable {W : Type} {plan : FleetPlan W} {T : Tables}

/-! ## What validation establishes -/

theorem mem_sortTexts {l : List String} {s : String} : s ∈ sortTexts l ↔ s ∈ l :=
  (List.perm_insertionSort (· ≤ ·) l).mem_iff

theorem sortTexts_eq_nil {l : List String} : sortTexts l = [] ↔ l = [] := by
  rw [List.eq_nil_iff_forall_not_mem, List.eq_nil_iff_forall_not_mem]
  simp only [mem_sortTexts]

theorem mem_sortTasks {l : List (TaskSpec W)} {t : TaskSpec W} : t ∈ sortTasks l ↔ t ∈ l :=
  (List.perm_insertionSort (fun a b => a.id ≤ b.id) l).mem_iff

theorem mem_sortedSet {l : List String} {s : String} : s ∈ sortedSet l ↔ s ∈ l := by
  rw [sortedSet, mem_sortTexts, List.mem_dedup]

/-- What a valid plan has passed. -/
structure Validated (T : Tables) [Label W] (plan : FleetPlan W) : Prop where
  dag : validateDag plan = []
  gates : validateWaveGates plan = []
  contracts : ∀ t ∈ plan.tasks, validateTaskContract T t = []
  ownership : validateOwnership plan = []

theorem validatePlan_ok [Label W] {ids : List String} (h : validatePlan T plan = .ok ids) :
    Validated T plan := by
  rw [validatePlan] at h
  split at h
  · rename_i he
    simp only [List.append_eq_nil_iff, List.flatMap_eq_nil_iff, mem_sortTasks] at he
    exact ⟨he.1.1.1,he.1.1.2,he.1.2,he.2⟩
  · cases h

theorem foldl_insert_lookup {tasks : List (TaskSpec W)} {d : Dict String (TaskSpec W)}
    {id : String} {t : TaskSpec W}
    (h : (tasks.foldl (fun d t => d.insert t.id t) d).lookup id = some t) :
    d.lookup id = some t ∨ (t ∈ tasks ∧ t.id = id) := by
  induction tasks generalizing d with
  | nil => exact Or.inl h
  | cons u tasks ih =>
    rcases ih h with hd | ⟨hm,hid⟩
    · rcases Dict.of_lookup_insert hd with ⟨rfl,rfl⟩ | ⟨-,hd⟩
      · exact Or.inr ⟨List.mem_cons_self,rfl⟩
      · exact Or.inl hd
    · exact Or.inr ⟨List.mem_cons_of_mem _ hm,hid⟩

theorem mem_foldl_insert {tasks : List (TaskSpec W)} {d : Dict String (TaskSpec W)}
    {id : String} :
    id ∈ tasks.foldl (fun d t => d.insert t.id t) d ↔ id ∈ d ∨ ∃ t ∈ tasks, t.id = id := by
  induction tasks generalizing d with
  | nil => simp
  | cons u tasks ih =>
    rw [List.foldl_cons, ih, AList.mem_insert]
    simp only [List.mem_cons, exists_eq_or_imp]
    rw [or_comm (a := id = u.id), or_assoc, eq_comm (a := id)]

theorem of_lookup_byId {id : String} {t : TaskSpec W} (h : (byId plan).lookup id = some t) :
    t ∈ plan.tasks ∧ t.id = id := by
  rcases foldl_insert_lookup h with h | h
  · cases h
  · exact h

theorem mem_byId {id : String} : id ∈ byId plan ↔ ∃ t ∈ plan.tasks, t.id = id := by
  rw [byId, mem_foldl_insert]
  simp

/-- In a valid plan every dependency is a task. -/
theorem known_of_validateDag (h : validateDag plan = []) {t : TaskSpec W}
    (ht : t ∈ plan.tasks) {dep : String} (hd : dep ∈ t.dependsOn) : dep ∈ byId plan := by
  by_contra hn
  rw [validateDag, sortTexts_eq_nil, List.append_eq_nil_iff] at h
  have hm := h.1
  simp only [missingErrors, List.flatMap_eq_nil_iff, List.map_eq_nil_iff, mem_sortTasks,
    List.filter_eq_nil_iff, mem_sortedSet, decide_eq_true_eq, not_not] at hm
  exact hn (hm t ht dep hd)

/-- In a valid plan the dependencies have a topological order. -/
theorem topological_of_validateDag (h : validateDag plan = []) :
    ∃ l, (∀ id ∈ byId plan, id ∈ l) ∧ Search.Topological (knownDeps plan) l := by
  rw [validateDag, sortTexts_eq_nil, List.append_eq_nil_iff] at h
  have hb : (visitAll plan).back = [] := by
    have hc := h.2
    rw [cycleErrors, List.map_eq_nil_iff, List.dedup_eq_nil, List.map_eq_nil_iff] at hc
    exact hc
  have hclosed : ∀ a ∈ (byId plan).keys, knownDeps plan a ⊆ (byId plan).keys := by
    intro a _ b hmem
    simp only [knownDeps, List.mem_filter, decide_eq_true_eq] at hmem
    exact hmem.2
  have hlen : (byId plan).keys.length < (byId plan).size+1 := by
    simp [AList.keys, List.keys, Dict.size]
  obtain ⟨hin,htop⟩ := Search.visitAll_topological hclosed hlen
    (fun a ha => mem_sortTexts.mp ha) hb
  exact ⟨_,fun id hid => hin (mem_sortTexts.mpr hid),htop⟩

/-- An edge of the plan: a task and one of its dependencies. -/
def Depends (plan : FleetPlan W) (id dep : String) : Prop :=
  ∃ t ∈ plan.tasks, t.id = id ∧ dep ∈ t.dependsOn

theorem mem_knownDeps (hn : (plan.tasks.map TaskSpec.id).Nodup) {id dep : String} :
    dep ∈ knownDeps plan id ↔ Depends plan id dep ∧ dep ∈ byId plan := by
  rw [knownDeps, List.mem_filter, decide_eq_true_eq, mem_sortTexts, dependsOn]
  refine and_congr_left fun _ => ?_
  constructor
  · intro h
    cases hl : (byId plan).lookup id with
    | none => rw [hl] at h; cases h
    | some t =>
      rw [hl] at h
      obtain ⟨ht,hid⟩ := of_lookup_byId hl
      exact ⟨t,ht,hid,h⟩
  · rintro ⟨t,ht,rfl,hd⟩
    obtain ⟨u,hu⟩ := Dict.exists_lookup (mem_byId.mpr ⟨t,ht,rfl⟩)
    obtain ⟨hm,hid⟩ := of_lookup_byId hu
    have htu : t = u := List.inj_on_of_nodup_map hn ht hm hid.symm
    rw [hu, ← htu]
    exact hd

/-- `validate_dag` finds no error if and only if every dependency is a task and no task
depends on itself, directly or through others. -/
theorem validateDag_iff (hn : (plan.tasks.map TaskSpec.id).Nodup) :
    validateDag plan = [] ↔
      (∀ t ∈ plan.tasks, ∀ dep ∈ t.dependsOn, dep ∈ plan.tasks.map TaskSpec.id) ∧
        ∀ id, ¬ Relation.TransGen (Depends plan) id id := by
  have hids : ∀ dep, dep ∈ plan.tasks.map TaskSpec.id ↔ dep ∈ byId plan := fun dep => by
    rw [mem_byId, List.mem_map]
  constructor
  · intro h
    have hknown : ∀ t ∈ plan.tasks, ∀ dep ∈ t.dependsOn, dep ∈ plan.tasks.map TaskSpec.id :=
      fun t ht dep hd => (hids dep).mpr (known_of_validateDag h ht hd)
    refine ⟨hknown,fun id hc => ?_⟩
    obtain ⟨l,hl,htop⟩ := topological_of_validateDag h
    have hsub : ∀ {a b}, Depends plan a b → b ∈ knownDeps plan a := by
      rintro a b ⟨t,ht,rfl,hd⟩
      exact (mem_knownDeps hn).mpr ⟨⟨t,ht,rfl,hd⟩,known_of_validateDag h ht hd⟩
    obtain ⟨b,⟨t,ht,hid,-⟩,-⟩ := Relation.TransGen.head'_iff.mp hc
    exact htop.acyclic (hl id (mem_byId.mpr ⟨t,ht,hid⟩)) (Relation.TransGen.mono (fun _ _ => hsub) _ _ hc)
  · rintro ⟨hknown,hacyclic⟩
    rw [validateDag, sortTexts_eq_nil, List.append_eq_nil_iff]
    constructor
    · simp only [missingErrors, List.flatMap_eq_nil_iff, List.map_eq_nil_iff, mem_sortTasks,
        List.filter_eq_nil_iff, mem_sortedSet, decide_eq_true_eq, not_not]
      exact fun t ht dep hd => (hids dep).mp (hknown t ht dep hd)
    · have hback : (visitAll plan).back = [] := by
        refine Search.visitAll_closes fun a hc => hacyclic a ?_
        exact Relation.TransGen.mono (fun _ _ h => ((mem_knownDeps hn).mp h).1) _ _ hc
      rw [cycleErrors, hback]
      rfl

/-- A plan of two tasks, the second of which depends on the first. -/
def twoTasks : FleetPlan String :=
  let task (id : String) (deps : List String) : TaskSpec String :=
    ⟨id,"1","worker","build",[],deps,[],[],["out"],["works"],["make"],⟨1,[]⟩,none,"pending"⟩
  ⟨[],[],[task "a" [], task "b" ["a"]],[]⟩

theorem twoTasks_acyclic : validateDag twoTasks = [] ↔
    (∀ t ∈ twoTasks.tasks, ∀ dep ∈ t.dependsOn, dep ∈ twoTasks.tasks.map TaskSpec.id) ∧
      ∀ id, ¬ Relation.TransGen (Depends twoTasks) id id :=
  validateDag_iff (by decide)

/-! ## Readiness -/

theorem mem_terminalIds {done : List String} {id : String} : id ∈ terminalIds plan done ↔
    id ∈ done ∨ ∃ t ∈ plan.tasks, (t.status = "completed" ∨ t.status = "skipped") ∧ t.id = id := by
  simp [terminalIds, and_assoc]

/-- What makes a task ready. -/
structure Ready (T : Tables) [Label W] (plan : FleetPlan W) (done passed : List String)
    (t : TaskSpec W) : Prop where
  open_ : t.status = "pending" ∨ t.status = "ready"
  deps : ∀ dep ∈ t.dependsOn, dep ∈ terminalIds plan done
  barrier : ∀ other ∈ plan.tasks, (other.waveId T).before (t.waveId T) = true →
    other.id ∈ terminalIds plan done
  gates : ∀ gate ∈ requiredGates T plan t, gate ∈ passed

theorem isReady_iff [Label W] {done passed : List String} {t : TaskSpec W} :
    isReady T plan done passed t = true ↔ Ready T plan done passed t := by
  simp only [isReady, Bool.and_eq_true, decide_eq_true_eq, List.all_eq_true]
  constructor
  · rintro ⟨⟨⟨h₁,h₂⟩,h₃⟩,h₄⟩
    exact ⟨h₁,h₂,h₃,h₄⟩
  · rintro ⟨h₁,h₂,h₃,h₄⟩
    exact ⟨⟨⟨h₁,h₂⟩,h₃⟩,h₄⟩

theorem mem_computeReadyTasks [Label W] {completed skipped passed ready : List String}
    (h : computeReadyTasks T plan completed skipped passed = .ok ready) {id : String} :
    id ∈ ready ↔ ∃ t ∈ plan.tasks, Ready T plan (completed++skipped) passed t ∧ t.id = id := by
  rw [computeReadyTasks] at h
  cases hv : validatePlan T plan with
  | error e =>
    rw [hv] at h
    cases h
  | ok ids =>
    rw [hv] at h
    cases h
    simp only [List.mem_map, List.mem_filter, mem_sortTasks, isReady_iff, and_assoc]

theorem computeReadyTasks_ok [Label W] {ids : List String} (h : validatePlan T plan = .ok ids)
    (completed skipped passed : List String) :
    ∃ ready, computeReadyTasks T plan completed skipped passed = .ok ready :=
  ⟨_,by rw [computeReadyTasks, h]; rfl⟩

/-! ## The order of waves -/

theorem WaveId.before_irrefl (a : WaveId) : a.before a = false := by
  cases a <;> simp [WaveId.before]

theorem WaveId.before_trans {a b c : WaveId} (h : a.before b = true) (h' : b.before c = true) :
    a.before c = true := by
  cases a <;> cases b <;> cases c <;>
    simp only [WaveId.before, decide_eq_true_eq, Bool.false_eq_true] at h h' ⊢
  · exact lt_trans h h'
  · exact lt_trans h h'

theorem WaveId.eq_of_not_before {a b : WaveId} (h : a.before b = false) (h' : b.before a = false) :
    a = b := by
  cases a <;> cases b <;>
    simp only [WaveId.before, decide_eq_false_iff_not, Bool.true_eq_false, not_lt] at h h' ⊢
  · rw [le_antisymm h' h]
  · rw [le_antisymm h' h]

/-- Some task of a list that has any comes in no later wave than the others. -/
theorem exists_earliest [Label W] {l : List (TaskSpec W)} (h : l ≠ []) :
    ∃ t ∈ l, ∀ u ∈ l, (u.waveId T).before (t.waveId T) = false := by
  induction l with
  | nil => exact absurd rfl h
  | cons u l ih =>
    by_cases hl : l = []
    · subst hl
      exact ⟨u,List.mem_cons_self,by simp [WaveId.before_irrefl]⟩
    · obtain ⟨t,ht,hmin⟩ := ih hl
      by_cases hu : (u.waveId T).before (t.waveId T) = true
      · refine ⟨u,List.mem_cons_self,fun v hv => ?_⟩
        rcases List.mem_cons.mp hv with rfl | hv
        · exact WaveId.before_irrefl _
        · by_contra hn
          rw [Bool.not_eq_false] at hn
          have := hmin v hv
          rw [WaveId.before_trans hn hu] at this
          cases this
      · refine ⟨t,List.mem_cons_of_mem _ ht,fun v hv => ?_⟩
        rcases List.mem_cons.mp hv with rfl | hv
        · simpa using hu
        · exact hmin v hv

/-! ## Progress -/

/-- No task depends on an id that names a task of a later wave. -/
def Forward (T : Tables) [Label W] (plan : FleetPlan W) : Prop :=
  ∀ t ∈ plan.tasks, ∀ u ∈ plan.tasks, u.id ∈ t.dependsOn →
    (t.waveId T).before (u.waveId T) = false

/-- Of the tasks that are left, one is ready. -/
theorem exists_ready [Label W] (hv : Validated T plan) (hg : ∀ w ∈ plan.waves, w.gates = [])
    (hs : ∀ t ∈ plan.tasks, t.status = "pending") (hf : Forward T plan) {done : List String}
    (hleft : ∃ t ∈ plan.tasks, t.id ∉ done) :
    ∃ t ∈ plan.tasks, Ready T plan done [] t ∧ t.id ∉ done := by
  let left := plan.tasks.filter (fun t => t.id ∉ done)
  have hmem : ∀ t, t ∈ left ↔ t ∈ plan.tasks ∧ t.id ∉ done := by simp [left]
  have hne : left ≠ [] := by
    obtain ⟨t,ht⟩ := hleft
    exact List.ne_nil_of_mem ((hmem t).mpr ht)
  obtain ⟨first,hfirst,hmin⟩ := exists_earliest (T := T) hne
  -- a task of the earliest wave is ready once its dependencies are done
  have hready : ∀ t ∈ left, t.waveId T = first.waveId T → (∀ dep ∈ t.dependsOn, dep ∈ done) →
      ∃ t ∈ plan.tasks, Ready T plan done [] t ∧ t.id ∉ done := by
    intro t ht hw hd
    obtain ⟨htp,htd⟩ := (hmem t).mp ht
    refine ⟨t,htp,⟨Or.inl (hs t htp),fun dep hdep => mem_terminalIds.mpr (Or.inl (hd dep hdep)),
      fun other ho hb => mem_terminalIds.mpr (Or.inl ?_),fun gate hgate => ?_⟩,htd⟩
    · by_contra hn
      rw [hw, hmin other ((hmem other).mpr ⟨ho,hn⟩)] at hb
      cases hb
    · obtain ⟨w,hwm,hgw⟩ := List.mem_flatMap.mp hgate
      rw [hg w (List.mem_of_mem_filter hwm)] at hgw
      cases hgw
  -- ids that are left and whose tasks are all of the earliest wave
  let P : String → Prop := fun id => id ∉ done ∧
    ∀ u ∈ plan.tasks, u.id = id → u.waveId T = first.waveId T
  have hdeps : ∀ t ∈ plan.tasks, t.waveId T = first.waveId T → ∀ dep ∈ t.dependsOn,
      dep ∉ done → P dep := by
    intro t ht hw dep hdep hn
    refine ⟨hn,fun u hu hid => ?_⟩
    have hafter := hf t ht u hu (hid ▸ hdep)
    rw [hw] at hafter
    exact WaveId.eq_of_not_before (hmin u ((hmem u).mpr ⟨hu,hid ▸ hn⟩)) hafter
  by_cases hp : ∃ id ∈ byId plan, P id
  · obtain ⟨l,hl,htop⟩ := topological_of_validateDag hv.dag
    obtain ⟨id,hidl,hid⟩ := hp
    obtain ⟨last,-,hlast,hmost⟩ : ∃ a ∈ l, (a ∈ byId plan ∧ P a) ∧
        ∀ b ∈ knownDeps plan a, ¬ (b ∈ byId plan ∧ P b) :=
      htop.exists_last ⟨id,hl id hidl,hidl,hid⟩
    obtain ⟨t,ht⟩ := Dict.exists_lookup hlast.1
    obtain ⟨htp,hti⟩ := of_lookup_byId ht
    have hw := hlast.2.2 t htp hti
    refine hready t ((hmem t).mpr ⟨htp,hti ▸ hlast.2.1⟩) hw (fun dep hdep => ?_)
    by_contra hn
    have hk := known_of_validateDag hv.dag htp hdep
    refine hmost dep ?_ ⟨hk,hdeps t htp hw dep hdep hn⟩
    simp [knownDeps, mem_sortTexts, dependsOn, ht, hdep, hk]
  · refine hready first hfirst rfl (fun dep hdep => ?_)
    by_contra hn
    have hfp := ((hmem first).mp hfirst).1
    exact hp ⟨dep,known_of_validateDag hv.dag hfp hdep,hdeps first hfp rfl dep hdep hn⟩

/-- The done tasks after `n` rounds, each of which completes the tasks that are ready. -/
def complete (T : Tables) [Label W] (plan : FleetPlan W) :
    ℕ → List String → Except (List String) (List String)
  | 0, done => .ok done
  | n+1, done => do
    let ready ← computeReadyTasks T plan done [] []
    complete T plan n (done++ready)

theorem complete_all [Label W] {ids : List String} (hv : validatePlan T plan = .ok ids)
    (hg : ∀ w ∈ plan.waves, w.gates = []) (hs : ∀ t ∈ plan.tasks, t.status = "pending")
    (hf : Forward T plan) (n : ℕ) (done : List String)
    (hn : (plan.tasks.filter (fun t => t.id ∉ done)).length ≤ n) :
    ∃ done', complete T plan n done = .ok done' ∧ ∀ t ∈ plan.tasks, t.id ∈ done' := by
  induction n generalizing done with
  | zero =>
    refine ⟨done,rfl,fun t ht => ?_⟩
    have hnil := List.eq_nil_of_length_eq_zero (Nat.le_zero.mp hn)
    simpa using List.filter_eq_nil_iff.mp hnil t ht
  | succ n ih =>
    obtain ⟨ready,hr⟩ := computeReadyTasks_ok hv done [] []
    rw [complete, hr]
    refine ih (done++ready) ?_
    by_cases hleft : ∃ t ∈ plan.tasks, t.id ∉ done
    · obtain ⟨t,ht,hready,htd⟩ := exists_ready (validatePlan_ok hv) hg hs hf hleft
      have htr : t.id ∈ ready := (mem_computeReadyTasks hr).mpr ⟨t,ht,by simpa using hready,rfl⟩
      have hlt : (plan.tasks.filter (fun t => t.id ∉ done++ready)).length <
          (plan.tasks.filter (fun t => t.id ∉ done)).length := by
        have hf' : plan.tasks.filter (fun t => t.id ∉ done++ready) =
            (plan.tasks.filter (fun t => t.id ∉ done)).filter (fun t => t.id ∉ ready) := by
          rw [List.filter_filter]
          congr 1
          funext u
          simp [Bool.and_comm]
        rw [hf']
        exact List.length_filter_lt_length_iff_exists.mpr
          ⟨t,List.mem_filter.mpr ⟨ht,by simpa using htd⟩,by simpa using htr⟩
      omega
    · have hall : plan.tasks.filter (fun t => t.id ∉ done++ready) = [] := by
        rw [List.filter_eq_nil_iff]
        intro t ht
        have : t.id ∈ done := by
          by_contra hn
          exact hleft ⟨t,ht,hn⟩
        simp [this]
      rw [hall]
      exact Nat.zero_le n

end

def plainTask (id : String) (wave : ℤ) (deps paths : List String) : TaskSpec ℤ where
  id := id
  wave := wave
  role := "dev"
  objective := "objective"
  capabilities := []
  dependsOn := deps
  allowedPaths := paths
  forbiddenPaths := []
  outputs := ["output"]
  acceptanceCriteria := ["accepted"]
  validationCommands := ["test"]
  retryPolicy := ⟨1,[]⟩
  owner := none
  status := "pending"

def plainPlan (tasks : List (TaskSpec ℤ)) : FleetPlan ℤ := ⟨[],[],tasks,[]⟩

/-- The task `b` of the second wave depends on the task `a` of the first. -/
def forwardPlan : FleetPlan ℤ := plainPlan [plainTask "a" 1 [] [],plainTask "b" 2 ["a"] []]

/-- The task `a` of the first wave depends on the task `b` of the second. -/
def stalledPlan : FleetPlan ℤ := plainPlan [plainTask "a" 1 ["b"] [],plainTask "b" 2 [] []]

end PdFleet
