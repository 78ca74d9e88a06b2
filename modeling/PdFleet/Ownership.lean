import PdFleet.Bounds
import PdFleet.Lib.PathTree

/-!
# Exclusive ownership of paths

The paths of tasks as places in a tree. The scheduler's test of prefixes tells two
nested paths unless exactly one of them is the whole tree; where a selection is not
misled by that, the leased tasks own no nested paths.
-/

set_option autoImplicit false

namespace PdFleet

open Dict PathTree

/-! ## The texts of paths -/

/-- A part of a path, as `PurePosixPath` keeps it. -/
def Part (w : List Char) : Prop := w ≠ [] ∧ w ≠ ['.'] ∧ '/' ∉ w

theorem splitSlash_eq (l : List Char) : splitSlash l = l.splitOn '/' := by
  induction l with
  | nil => rfl
  | cons c l ih =>
    rw [splitSlash, List.splitOn_cons_eq_if_modifyHead, ih]
    by_cases hc : c = '/'
    · simp [hc]
    · simp only [hc, if_false, beq_iff_eq]
      cases h : l.splitOn '/' with
      | nil => exact absurd h (List.splitOn_ne_nil _ _)
      | cons w ws => rfl

theorem notMem_splitSlash {l w : List Char} (h : w ∈ splitSlash l) : '/' ∉ w := by
  induction l generalizing w with
  | nil => simp_all [splitSlash]
  | cons c l ih =>
    rw [splitSlash] at h
    by_cases hc : c = '/'
    · rw [if_pos hc] at h
      rcases List.mem_cons.mp h with rfl | h
      · simp
      · exact ih h
    · rw [if_neg hc] at h
      cases hl : splitSlash l with
      | nil =>
        rw [hl] at h
        simp only [List.mem_singleton] at h
        simp [h, Ne.symm hc]
      | cons v vs =>
        rw [hl] at h ih
        rcases List.mem_cons.mp h with rfl | h
        · simp [Ne.symm hc, ih List.mem_cons_self]
        · exact ih (List.mem_cons_of_mem _ h)

theorem part_of_pathParts {value w : List Char} (h : w ∈ pathParts value) : Part w := by
  simp only [pathParts, List.mem_filter, decide_eq_true_eq] at h
  exact ⟨h.2.1,h.2.2,notMem_splitSlash h.1⟩

theorem splitOn_pathText {p : List (List Char)} (h : ∀ w ∈ p, Part w) :
    (pathText p).splitOn '/' = if p = [] then [['.']] else p := by
  by_cases hp : p = []
  · subst hp
    rfl
  · rw [pathText, if_neg hp, if_neg hp]
    exact List.splitOn_intercalate '/' (fun w hw => (h w hw).2.2) hp

/-- The test of prefixes tells nested paths, unless one of them alone is the whole tree. -/
theorem nested_pathText_iff {p q : List (List Char)} (hp : ∀ w ∈ p, Part w)
    (hq : ∀ w ∈ q, Part w) :
    Nested ((pathText p).splitOn '/') ((pathText q).splitOn '/') ↔
      Nested p q ∧ (p = [] ↔ q = []) := by
  have key : ∀ r : List (List Char), r ≠ [] → (∀ w ∈ r, Part w) → ¬ Nested [['.']] r := by
    intro r hr hpart hn
    cases r with
    | nil => exact hr rfl
    | cons w r =>
      have hw : w = ['.'] := by
        rcases hn with hn | hn
        · exact (List.cons_prefix_cons.mp hn).1.symm
        · exact (List.cons_prefix_cons.mp hn).1
      exact (hpart w List.mem_cons_self).2.1 hw
  rw [splitOn_pathText hp, splitOn_pathText hq]
  by_cases hpn : p = [] <;> by_cases hqn : q = []
  · simp [hpn, hqn, Nested]
  · simp [hpn, hqn, key q hqn hq]
  · simp only [hpn, hqn, if_false, if_true, iff_true, and_false, iff_false]
    exact fun hn => key p hpn hp hn.symm
  · simp [hpn, hqn]

theorem overlap_iff {left right : List (List Char)} : overlap left right = true ↔
    ∃ a ∈ left, ∃ b ∈ right, Nested (a.splitOn '/') (b.splitOn '/') := by
  simp only [overlap, List.any_eq_true, Bool.or_eq_true, decide_eq_true_eq,
    List.isPrefixOf_iff_prefix, nested_splitOn_iff, or_assoc]

/-! ## What the tasks of a run own -/

section

variable {D : Deps} {rid : String} {s c : Snapshot} {now : String} {t u : String}
  {tasks : Dict String PlanTask}

/-- The path is one that the plan's task declares. -/
def Owns (s : Snapshot) (taskId : String) (p : List (List Char)) : Prop :=
  ∃ tasks task ps, taskMap s = .ok tasks ∧ tasks.lookup taskId = some task ∧
    declaredPaths task.raw = .ok ps ∧ p ∈ ps

/-- No two tasks that hold leases own nested paths. -/
def Exclusive (s : Snapshot) : Prop :=
  ∀ t u, t ≠ u → t ∈ s.leases → u ∈ s.leases →
    ∀ p q, Owns s t p → Owns s u q → ¬ Nested p q

theorem owns_congr (h : c.plan = s.plan) {p : List (List Char)} : Owns c t p ↔ Owns s t p := by
  simp only [Owns, taskMap, h]

theorem exclusive_of_shrinks (h : Exclusive s) (hp : c.plan = s.plan) (hl : Shrinks s c) :
    Exclusive c := fun t u hne ht hu p q hop hoq =>
  h t u hne (hl t ht) (hl u hu) p q ((owns_congr hp).mp hop) ((owns_congr hp).mp hoq)

theorem part_of_declaredPath {v : Json} {p : List (List Char)} (h : declaredPath v = .ok p) :
    ∀ w ∈ p, Part w := by
  cases v with
  | str text =>
    rw [declaredPath] at h
    split at h
    · cases h
    · split at h
      · cases h
      · dsimp only at h
        split at h
        · cases h
        · cases h
          exact fun w hw => part_of_pathParts hw
  | null => cases h
  | bool b => cases h
  | int n => cases h
  | float r => cases h
  | arr xs => cases h
  | obj kvs => cases h

theorem mapM_declaredPath {vs : List Json} {ps : List (List (List Char))}
    (h : vs.mapM declaredPath = .ok ps) : ∀ p ∈ ps, ∀ w ∈ p, Part w := by
  induction vs generalizing ps with
  | nil =>
    cases h
    simp
  | cons v vs ih =>
    rw [List.mapM_cons] at h
    obtain ⟨p,hp,h⟩ := ok_of_bind h
    obtain ⟨rest,hr,h⟩ := ok_of_bind h
    cases h
    intro q hq
    rcases List.mem_cons.mp hq with rfl | hq
    · exact part_of_declaredPath hp
    · exact ih hr q hq

theorem part_of_declaredPaths {task : Obj} {ps : List (List (List Char))}
    (h : declaredPaths task = .ok ps) : ∀ p ∈ ps, ∀ w ∈ p, Part w := by
  obtain ⟨vs,-,h⟩ := ok_of_bind h
  obtain ⟨allowed,ha,h⟩ := ok_of_bind h
  obtain ⟨vs',-,h⟩ := ok_of_bind h
  obtain ⟨more,hm,h⟩ := ok_of_bind h
  cases h
  intro p hp
  rcases List.mem_append.mp hp with hp | hp
  · exact mapM_declaredPath ha p hp
  · exact mapM_declaredPath hm p hp

theorem part_of_owns {p : List (List Char)} (h : Owns s t p) : ∀ w ∈ p, Part w := by
  obtain ⟨tasks,task,ps,-,-,hd,hp⟩ := h
  exact part_of_declaredPaths hd p hp

/-- The texts that `_paths` gives for a task are those of the paths that it owns. -/
theorem mem_of_owns {p : List (List Char)} {texts : List (List Char)}
    (hm : taskMap s = .ok tasks) (ht : HasPaths tasks t texts) (h : Owns s t p) :
    pathText p ∈ texts := by
  obtain ⟨tasks',task,ps,hm',hl,hd,hp⟩ := h
  obtain ⟨task',hl',hpaths⟩ := ht
  rw [hm] at hm'
  cases hm'
  rw [hl] at hl'
  cases hl'
  rw [paths, hd] at hpaths
  cases hpaths
  exact List.mem_map_of_mem hp

/-- Two tasks whose paths `_overlap` finds to overlap. -/
def Collides (s : Snapshot) (t u : String) : Prop :=
  ∃ p q, Owns s t p ∧ Owns s u q ∧ Nested p q ∧ (p = [] ↔ q = [])

theorem overlap_of_collides {left right : List (List Char)} (hm : taskMap s = .ok tasks)
    (ht : HasPaths tasks t left) (hu : HasPaths tasks u right) (h : Collides s t u) :
    overlap left right = true := by
  obtain ⟨p,q,hp,hq,hn⟩ := h
  exact overlap_iff.mpr ⟨_,mem_of_owns hm ht hp,_,mem_of_owns hm hu hq,
    (nested_pathText_iff (part_of_owns hp) (part_of_owns hq)).mpr hn⟩

theorem Collides.symm (h : Collides s t u) : Collides s u t := by
  obtain ⟨p,q,hp,hq,hn,hd⟩ := h
  exact ⟨q,p,hq,hp,hn.symm,hd.symm⟩

theorem of_filterMapM {α β : Type} {f : α → Except PyError (Option β)} {l : List α}
    {out : List β} (h : l.filterMapM f = .ok out) :
    ∀ a ∈ l, ∃ o, f a = .ok o ∧ ∀ b, o = some b → b ∈ out := by
  induction l generalizing out with
  | nil => simp
  | cons a₀ l ih =>
    rw [List.filterMapM_cons] at h
    obtain ⟨o,ho,h⟩ := ok_of_bind h
    intro a ha
    cases o with
    | none =>
      rcases List.mem_cons.mp ha with rfl | ha
      · exact ⟨none,ho,by simp⟩
      · exact ih h a ha
    | some b =>
      obtain ⟨rest,hr,h⟩ := ok_of_bind h
      cases h
      rcases List.mem_cons.mp ha with rfl | ha
      · exact ⟨some b,ho,by simp⟩
      · obtain ⟨o,ho,hb⟩ := ih hr a ha
        exact ⟨o,ho,fun b hb' => List.mem_cons_of_mem _ (hb b hb')⟩

/-- The paths of a task with an unexpired lease are occupied. -/
theorem mem_occupiedPaths {occupied : List (List (List Char))} {l : Lease} {task : PlanTask}
    (h : occupiedPaths s tasks now = .ok occupied) (hl : s.leases.lookup t = some l)
    (ha : l.activeAt now = true) (ht : tasks.lookup t = some task) :
    ∃ texts ∈ occupied, HasPaths tasks t texts := by
  obtain ⟨o,ho,hmem⟩ := of_filterMapM h (t,l)
    (List.mem_filter.mpr ⟨(mem_toFields _ _ _).mpr hl,ha⟩)
  simp only [ht] at ho
  obtain ⟨texts,hp,ho⟩ := ok_of_bind ho
  cases ho
  exact ⟨texts,hmem texts rfl,task,ht,hp⟩

theorem forall₂_left {α β : Type} {R : α → β → Prop} {l : List α} {m : List β}
    (h : List.Forall₂ R l m) : ∀ a ∈ l, ∃ b ∈ m, R a b := by
  induction h with
  | nil => simp
  | @cons a₀ b₀ l m hr hlm ih =>
    intro a ha
    rcases List.mem_cons.mp ha with rfl | ha
    · exact ⟨b₀,List.mem_cons_self,hr⟩
    · obtain ⟨b,hb,hab⟩ := ih a ha
      exact ⟨b,List.mem_cons_of_mem _ hb,hab⟩

theorem forall₂_pairwise {α β : Type} {R : α → β → Prop} {S : β → β → Prop} {l : List α}
    {m : List β} (h : List.Forall₂ R l m) (hs : m.Pairwise S) {a a' : α} (ha : a ∈ l)
    (ha' : a' ∈ l) (hne : a ≠ a') : ∃ b b', R a b ∧ R a' b' ∧ (S b b' ∨ S b' b) := by
  induction h with
  | nil => cases ha
  | @cons a₀ b₀ l m hr hlm ih =>
    rw [List.pairwise_cons] at hs
    rcases List.mem_cons.mp ha with he | hl <;> rcases List.mem_cons.mp ha' with he' | hl'
    · exact absurd (he.trans he'.symm) hne
    · obtain ⟨b',hb',hr'⟩ := forall₂_left hlm a' hl'
      exact ⟨b₀,b',he ▸ hr,hr',Or.inl (hs.1 b' hb')⟩
    · obtain ⟨b,hb,hr'⟩ := forall₂_left hlm a hl
      exact ⟨b,b₀,hr',he' ▸ hr,Or.inr (hs.1 b hb)⟩
    · exact ih hs.2 hl hl'

/-! ## Selections -/

/-- A task that a scheduler's claim of `n` tasks comes to select, if nothing overlaps:
one of the first `n` ready tasks among the available ones. -/
def Picked (s : Snapshot) (now : String) (taskIds : List String) (n : ℕ) (t : String) : Prop :=
  ∃ ready, readyIds (reclaim s now) (some now) = .ok ready ∧
    t ∈ ((sortIds (taskIds.filter (fun t => ((reclaim s now).leases.lookup t).isNone))).filter
      (· ∈ ready)).take n

/-- The selection compares the picked task `t` with `u`: a picked task too, or one
with an unexpired lease. -/
def Compared (s : Snapshot) (now : String) (taskIds : List String) (n : ℕ) (t u : String) :
    Prop :=
  t ≠ u ∧ Picked s now taskIds n t ∧
    (Picked s now taskIds n u ∨ u ∈ (reclaim s now).leases)

/-- Exactly one of two paths of the tasks is the whole tree. -/
def Mixed (s : Snapshot) (t u : String) : Prop :=
  ∃ p q, Owns s t p ∧ Owns s u q ∧ ¬ (p = [] ↔ q = [])

/-- Of the tasks that a selection compares, no two own the whole tree and a part of it,
unless others overlap and the selection stops at them. -/
def Sighted (s : Snapshot) (now : String) (taskIds : List String) (n : ℕ) : Prop :=
  (∃ t u, Compared s now taskIds n t u ∧ Mixed s t u) →
    ∃ t u, Compared s now taskIds n t u ∧ Collides s t u

/-- What a selection takes is picked, and collides with nothing that it is compared with. -/
theorem select_apart {taskIds ids : List String} {n capacity : ℕ}
    (h : select n (reclaim s now)
      (taskIds.filter (fun t => ((reclaim s now).leases.lookup t).isNone)) capacity now =
        .ok (.arr (ids.map Json.str))) :
    (∀ t, t ∈ ids ↔ Picked s now taskIds n t) ∧
      ∀ t u, Compared s now taskIds n t u → ¬ Collides s t u := by
  obtain ⟨-,tasks,ready,occupied,ps,hm,hr,ho,hs⟩ := of_select h
  have hm' : taskMap s = .ok tasks := hm
  have hpick : ∀ t, t ∈ ids ↔ Picked s now taskIds n t := by
    intro t
    rw [hs.picked]
    constructor
    · exact fun ht => ⟨ready,hr,ht⟩
    · rintro ⟨ready',hr',ht⟩
      rw [hr] at hr'
      cases hr'
      exact ht
  refine ⟨hpick,?_⟩
  rintro t u ⟨hne,ht,hu⟩ hcol
  have htids := (hpick t).mpr ht
  obtain ⟨left,hleft,hpl⟩ := forall₂_left hs.paths t htids
  by_cases huids : u ∈ ids
  · obtain ⟨b,b',hb,hb',hov⟩ := forall₂_pairwise hs.paths hs.pairwise htids huids hne
    have h₁ := overlap_of_collides hm' hb hb' hcol
    have h₂ := overlap_of_collides hm' hb' hb hcol.symm
    rcases hov with hov | hov
    · rw [h₂] at hov
      cases hov
    · rw [h₁] at hov
      cases hov
  · rcases hu with hu | hu
    · exact huids ((hpick u).mpr hu)
    · obtain ⟨l,hl⟩ := exists_lookup hu
      have ha := (lookup_reclaim.mp hl).2
      obtain ⟨p,q,hp,⟨tasks',task,ps',hmt,hlt,hd,hq⟩,hn⟩ := hcol
      rw [hm'] at hmt
      cases hmt
      obtain ⟨right,hright,hpr⟩ := mem_occupiedPaths ho hl ha hlt
      have hov := hs.apart left hleft right hright
      rw [overlap_of_collides hm' hpl hpr ⟨p,q,hp,⟨tasks,task,ps',hm',hlt,hd,hq⟩,hn⟩] at hov
      cases hov

/-- Where the selection is not misled, a claim keeps the leases exclusive. -/
theorem exclusive_claimMany {x : Draws} {r : Reply} {taskIds : List String}
    {owner : String} {m : ℤ} {seconds : Seconds} {n : ℕ}
    (hw : Writes D (.claimMany taskIds owner m seconds (.timed (select n))) x s c r)
    (hok : ∀ now, x.now = .str now → Sighted s now taskIds n) (hs : Exclusive s) :
    Exclusive c := by
  obtain ⟨body,hb,h⟩ := hw
  obtain ⟨now,available,ids,hcl,-,rfl,⟨-,-,ho⟩ | ⟨-,expiry,stamp,-,-,-,ho,-⟩⟩ :=
    of_claimMany hb h
  · rcases ho with ⟨ho,-⟩ | ho <;> cases ho
    exact exclusive_of_shrinks hs rfl (shrinks_of_sub (reclaim_sub s now))
  · cases ho
    obtain ⟨capacity,-,hsel,-⟩ := hcl.chosen
    obtain ⟨hpick,hcol⟩ := select_apart hsel
    have hsight := hok now hcl.clock.1
    have hapart : ∀ t u p q, Compared s now taskIds n t u → Owns s t p → Owns s u q →
        ¬ Nested p q := by
      intro t u p q hc hp hq hn
      by_cases hd : p = [] ↔ q = []
      · exact hcol t u hc ⟨p,q,hp,hq,hn,hd⟩
      · obtain ⟨t',u',hc',hcol'⟩ := hsight ⟨t,u,hc,p,q,hp,hq,hd⟩
        exact hcol t' u' hc' hcol'
    have hin : ∀ t, t ∈ (insertAll (reclaim s now).leases
        (grants owner expiry (s.generation+1) x.token ids)) →
        Picked s now taskIds n t ∨ t ∈ (reclaim s now).leases := by
      intro t ht
      obtain ⟨l,hl⟩ := exists_lookup ht
      rcases lookup_insertAll hl with hm | ⟨hm,-⟩
      · exact Or.inl ((hpick t).mp (mem_grants hm).1)
      · exact Or.inr (mem_of_lookup hm)
    intro t u hne ht hu p q hp hq
    rcases hin t ht with ht' | ht'
    · exact hapart t u p q ⟨hne,ht',hin u hu⟩ hp hq
    · rcases hin u hu with hu' | hu'
      · exact fun hn => hapart u t q p ⟨hne.symm,hu',Or.inr ht'⟩ hq hp hn.symm
      · exact hs t u hne ((reclaim_sub s now).mem ht') ((reclaim_sub s now).mem hu') p q hp hq

/-! ## Runs -/

/-- A claim by a scheduler at a state where its selection is not misled. -/
def SightedAt (D : Deps) (rid : String) : Action → Draws → RunDir → Prop
  | .claimMany taskIds _ _ _ (.timed f), x, d => ∀ n s now, f = select n → Reads D rid d s →
      x.now = .str now → Sighted s now taskIds n
  | _, _, _ => True

/-- The clients of `calls` take steps in any order, and every section meets `ok`. -/
def FleetRunWhere {ι : Type} [DecidableEq ι] (D : Deps) (rid : String) (calls : Call → Prop)
    (ok : Action → Draws → RunDir → Prop) : Fleet ι → Fleet ι → Prop :=
  System.RunWhere (perform D allOk rid) (fun p => ∃ k, calls k ∧ p = k.script) ok

/-- The call claims through a scheduler, if it claims at all. -/
def Call.ByScheduler (k : Call) : Prop := ∃ m, k.Scheduled m

/-- The files are in order and the leases exclusive. -/
def ExclusiveDir (D : Deps) (rid : String) (d : RunDir) : Prop :=
  ∀ s, Reads D rid d s → Files D rid s d ∧ Exclusive s

theorem exclusiveDir_section {a : Action} {x : Draws} {d : RunDir}
    (ha : ∃ m, a.Scheduled m) (hok : SightedAt D rid a x d) (h : ExclusiveDir D rid d) :
    ExclusiveDir D rid (perform D allOk rid a x d).2 := by
  by_cases hr : ∃ s, Reads D rid d s
  · obtain ⟨s,hs⟩ := hr
    obtain ⟨hf,he⟩ := h s hs
    have hend := files_perform hf a x
    generalize (perform D allOk rid a x d).1 = o at hend
    generalize (perform D allOk rid a x d).2 = d' at hend
    have key : ∀ c, Files D rid c d' → Exclusive c → ExclusiveDir D rid d' := by
      intro c hfc hec s' hs'
      rw [reads_unique hs' (files_reads hfc)]
      exact ⟨hfc,hec⟩
    cases hend with
    | refused e d' hf' => exact key s hf' he
    | answered r ha => exact h
    | wrote c r hw d' hp hf' =>
      by_cases hv : c.Valid D rid
      · rw [after_valid hv] at hf'
        refine key c hf' ?_
        obtain ⟨m,ha⟩ := ha
        rcases ha.cases_on with hc | ⟨ts,o,seconds,n,rfl⟩
        · exact exclusive_of_shrinks he (writes_extends hw).1.plan (writes_shrinks hc hw)
        · exact exclusive_claimMany hw (fun now hx => hok n s now rfl hs hx) he
      · rw [after_refused hv] at hf'
        exact key s hf' he
  · rw [not_exists] at hr
    rw [perform_unread hr]
    exact h

end

/-- The task `a` owns the whole tree, the task `b` a part of it. -/
def treePlan : Obj := [("schema_version", .str "pd-fleet-plan:v2"), ("tasks", .arr [
  .obj [("id", .str "a"), ("allowed_paths", .arr [.str "."])],
  .obj [("id", .str "b"), ("allowed_paths", .arr [.str "src"])]])]

def treeState : Snapshot :=
  freshSnapshot "run" (sha256Hex (planHashDomain ++ dumps (.obj treePlan))) treePlan "me"
    "2026-01-01T00:00:00Z"

def treeDir : RunDir := ⟨sealedNode treeState, .absent, .absent, .absent⟩

theorem tree_created : Created sampleDeps "run" none treeDir :=
  ⟨.obj treePlan,"me",.str "2026-01-01T00:00:00Z",_,rfl⟩

theorem tree_valid : treeState.Valid sampleDeps "run" where
  run := rfl
  owner := by decide
  hash := rfl
  updated := by decide
  gates := rfl
  metrics := rfl
  audit := rfl
  tasks := fun _ _ h => nomatch h
  leases := fun _ _ h => nomatch h
  reports := fun _ _ h => nomatch h
  logged := rfl

theorem tree_files : Files sampleDeps "run" treeState treeDir :=
  .current (readable_sealed.mpr ⟨rfl,tree_valid⟩) quiet_absent (fun _ h => nomatch h)

/-- Both tasks are leased. -/
def treeHeld : Snapshot :=
  { treeState with leases := insertAll ∅ [("a",sampleLease),("b",sampleLease)],
                   attempts := insertAll ∅ [("a",1),("b",1)],
                   generation := 1 }

theorem tree_claims : Writes sampleDeps
    (.claimMany ["a","b"] "me" 2 (.int 60) (.timed (select 2))) sampleDraws treeState treeHeld
    (.tokens [leaseToken "run" "a" sampleLease,leaseToken "run" "b" sampleLease]) := ⟨_,rfl,rfl⟩

end PdFleet
