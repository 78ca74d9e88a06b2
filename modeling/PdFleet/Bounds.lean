import PdFleet.Clients
import PdFleet.Selection

/-!
# Bounded and ordered claims

Clients that claim only through schedulers of one bound. A claim leaves no more
leases than the bound, no other section adds one, and a task that gets a lease may
run in the state that holds it.
-/

set_option autoImplicit false

namespace PdFleet

open Dict

section

variable {D : Deps} {rid : String} {a : Action} {x : Draws} {s c : Snapshot} {r : Reply} {m : ℤ}

/-! ## Leases come from claims -/

/-- The sections that give leases. -/
def Action.claims : Action → Bool
  | claim _ _ _ _ => true
  | claimMany _ _ _ _ _ => true
  | _ => false

/-- Every task that is leased in `c` is leased in `s`. -/
def Shrinks (s c : Snapshot) : Prop := ∀ t, t ∈ c.leases → t ∈ s.leases

theorem shrinks_of_sub (h : Sub c.leases s.leases) : Shrinks s c := fun _ ht => h.mem ht

theorem writes_shrinks (ha : a.claims = false) (h : Writes D a x s c r) : Shrinks s c := by
  obtain ⟨body,hb,h⟩ := h
  cases a with
  | load =>
    cases hb
    cases h
  | use t k o =>
    cases hb
    obtain ⟨_,-,h⟩ := ok_of_bind h
    obtain ⟨_,-,h⟩ := ok_of_bind h
    cases h
  | transition st o g =>
    obtain ⟨st,stamp,-,-,-,hc,-⟩ := of_transition hb h
    cases hc
    exact shrinks_of_sub (Sub.refl _)
  | updateTaskStatus t st o g =>
    obtain ⟨st,known,stamp,-,-,-,-,-,hc,-⟩ := of_updateTaskStatus hb h
    cases hc
    exact shrinks_of_sub (sub_erase _ _)
  | appendTerminalEventIfAbsent t o g =>
    obtain ⟨-,record,-,⟨-,-,-,hc,-⟩ | ⟨-,rows,stamp,-,-,hc,-⟩⟩ := of_appendTerminal hb h <;>
      cases hc
    exact shrinks_of_sub (Sub.refl _)
  | appendEvent e o g =>
    obtain ⟨given,rfl,rows,item,stamp,-,-,-,rfl⟩ := appendEvent_next hb h
    exact shrinks_of_sub (Sub.refl _)
  | claim t o n g => cases ha
  | claimMany ts o m n f => cases ha
  | renew t k o n =>
    obtain ⟨l,now,expiry,stamp,hh,-,-,-,-,-,hc,-⟩ := of_renew hb h
    cases hc
    intro u hu
    rcases (AList.mem_insert _).mp hu with rfl | hu
    · exact mem_of_lookup hh.1
    · exact hu
  | commit t k o r st =>
    rcases of_commit hb h with ⟨-,hc,-⟩ | ⟨-,st,given,l,now,stamp,-,-,-,-,-,-,hc,-⟩ <;> cases hc
    exact shrinks_of_sub (sub_erase _ _)
  | release k o =>
    obtain ⟨t,l,stamp,-,-,hc,-⟩ := of_release hb h
    cases hc
    exact shrinks_of_sub (sub_erase _ _)
  | dropStale t now o g =>
    obtain ⟨leases,stamp,hl,-,hc,-⟩ := of_dropStale hb h
    cases hc
    exact shrinks_of_sub hl

/-- A `claim_many` leaves no more leases than its bound. -/
theorem claimMany_size {taskIds : List String} {owner : String} {seconds : Seconds}
    {sel : Selector} (h : Writes D (.claimMany taskIds owner m seconds sel) x s c r) :
    (c.leases.size : ℤ) ≤ m := by
  obtain ⟨body,hb,h⟩ := h
  obtain ⟨now,available,ids,hcl,-,-,⟨-,-,ho⟩ | ⟨-,expiry,stamp,-,-,-,ho,-⟩⟩ := of_claimMany hb h
  · rcases ho with ⟨ho,-⟩ | ho <;> cases ho
    exact le_of_lt hcl.room
  · cases ho
    obtain ⟨capacity,hcap,-,hlen⟩ := hcl.chosen
    have hsize := size_insertAll_le (reclaim s now).leases
      (grants owner expiry (s.generation+1) x.token ids)
    have hg : (grants owner expiry (s.generation+1) x.token ids).length = ids.length := by
      simp [grants]
    show ((insertAll (reclaim s now).leases _).size : ℤ) ≤ m
    omega

/-- Where a `claim_many` returns and writes nothing, there is room. -/
theorem claimMany_answers {taskIds : List String} {owner : String} {seconds : Seconds}
    {sel : Selector} (h : Answers D (.claimMany taskIds owner m seconds sel) x s r) :
    (s.leases.size : ℤ) ≤ m := by
  obtain ⟨body,hb,h⟩ := h
  obtain ⟨now,available,ids,hcl,-,-,⟨-,-,ho⟩ | ⟨-,expiry,stamp,-,-,-,ho,-⟩⟩ := of_claimMany hb h
  · rcases ho with ⟨-,hact⟩ | ho
    · have hsub : Sub s.leases (reclaim s now).leases := fun t l hl =>
        lookup_reclaim.mpr ⟨hl,hact t l hl⟩
      have hle := size_le_of_sub hsub
      have hroom := hcl.room
      omega
    · cases ho
  · cases ho

/-- A task that gets a lease from a scheduler may run in the state that holds it. -/
theorem claimMany_runnable {taskIds : List String} {owner : String} {seconds : Seconds} {n : ℕ}
    (h : Writes D (.claimMany taskIds owner m seconds (.timed (select n))) x s c r)
    {t : String} {l : Lease} (hc : c.leases.lookup t = some l) (hs : s.leases.lookup t ≠ some l) :
    Runnable c t := by
  obtain ⟨body,hb,h⟩ := h
  obtain ⟨now,available,ids,hcl,-,-,⟨-,-,ho⟩ | ⟨-,expiry,stamp,-,-,-,ho,-⟩⟩ := of_claimMany hb h
  · rcases ho with ⟨ho,-⟩ | ho <;> cases ho
    exact absurd (reclaim_sub s now t l hc) hs
  · cases ho
    obtain ⟨capacity,-,hsel,-⟩ := hcl.chosen
    obtain ⟨-,tasks,ready,occupied,ps,-,hr,-,hsd⟩ := of_select hsel
    rcases lookup_insertAll hc with hm | ⟨hm,-⟩
    · have ht := runnable_of_ready hr (hsd.ready t (mem_grants hm).1)
      exact (runnable_congr rfl rfl rfl).mpr ht
    · exact absurd (reclaim_sub s now t l hm) hs

/-! ## Clients of schedulers -/

/-- The sections of clients that claim only through schedulers of the bound `m`. -/
def Action.Scheduled (m : ℤ) : Action → Prop
  | claim _ _ _ _ => False
  | claimMany _ _ m' _ sel => m' = m ∧ ∃ n, sel = .timed (select n)
  | _ => True

def Call.Scheduled (m : ℤ) : Call → Prop
  | store a => a.claims = false
  | claim _ m' _ _ _ _ => m' = m
  | renew _ _ _ => True
  | recoverStale _ _ => True

theorem scheduled_of_claims (h : a.claims = false) : a.Scheduled m := by
  cases a <;> trivial

theorem scheduled_confined : Confined (Call.Scheduled m) (Action.Scheduled m) := by
  intro k hk
  cases k with
  | store a => exact .step (scheduled_of_claims hk) (fun o => .done _)
  | claim o m' now w l n =>
    cases hk
    exact schedulerClaim_all trivial (fun ts n => ⟨rfl,n,rfl⟩)
  | renew o k n => exact schedulerRenew_all (fun t => trivial)
  | recoverStale o now => exact recoverStale_all trivial (fun t now g => trivial)

theorem Action.Scheduled.cases_on (h : a.Scheduled m) : a.claims = false ∨
    ∃ ts o seconds n, a = .claimMany ts o m seconds (.timed (select n)) := by
  cases a with
  | claim t o n g => exact h.elim
  | claimMany ts o m' n f =>
    obtain ⟨rfl,k,rfl⟩ := h
    exact Or.inr ⟨ts,o,n,k,rfl⟩
  | _ => exact Or.inl rfl

theorem scheduled_size (ha : a.Scheduled m) (h : Writes D a x s c r) :
    (c.leases.size : ℤ) ≤ max m s.leases.size := by
  rcases ha.cases_on with hc | ⟨ts,o,seconds,n,rfl⟩
  · have hle := size_le_of_mem (writes_shrinks hc h)
    omega
  · exact le_max_of_le_left (claimMany_size h)

theorem course_size (h : Course D rid (Action.Scheduled m) s c) :
    (c.leases.size : ℤ) ≤ max m s.leases.size := by
  induction h with
  | refl => exact le_max_right _ _
  | tail _ hm ih =>
    obtain ⟨-,a,x,r,ha,hw⟩ := hm
    have := scheduled_size ha hw
    omega

/-- The reader accepts what a `claim_many` writes, whatever state the run began in. -/
theorem claimMany_valid {taskIds : List String} {owner : String} {seconds : Seconds}
    {sel : Selector} (hs : s.Valid D rid)
    (h : Writes D (.claimMany taskIds owner m seconds sel) x s c r) : c.Valid D rid := by
  obtain ⟨body,hb,h⟩ := h
  obtain ⟨now,available,ids,hcl,hown,-,⟨-,-,ho⟩ | ⟨-,expiry,stamp,he,-,hst,ho,-⟩⟩ :=
    of_claimMany hb h
  · rcases ho with ⟨ho,-⟩ | ho <;> cases ho
    exact { hs with
      updated := hcl.clock.2
      leases := fun t l ht => hs.leases t l (reclaim_sub s now t l ht) }
  · cases ho
    refine { hs with updated := hst, leases := fun t l ht => ?_ }
    rcases lookup_insertAll ht with hm | ⟨hm,-⟩
    · obtain ⟨hin,i,rfl⟩ := mem_grants hm
      exact ⟨(hcl.open_ t (hcl.available t hin)).1,hown ▸ hs.owner,isId_token _,
        expiry_isSome he⟩
    · exact hs.leases t l (reclaim_sub s now t l hm)

/-- Over every interleaving of clients that claim through schedulers of the bound `m`:
a run holds no more leases than the bound, or than it was created with; a claim that
is granted leaves no more than the bound; and the tasks it leases may run in the
state that holds the leases. -/
theorem claims_bounded_and_ordered {ι : Type} [DecidableEq ι] {initial : Option Json}
    {d : RunDir} {s₀ : Snapshot} (h : Created D rid initial d) (h₀ : Reads D rid d s₀)
    {y : Fleet ι} (hy : FleetRun D rid (Call.Scheduled m) (System.idle d) y)
    (hs : Reads D rid y.shared s) :
    (s.leases.size : ℤ) ≤ max m s₀.leases.size ∧
      ∀ ts o seconds n x r d',
        perform D allOk rid (.claimMany ts o m seconds (.timed (select n))) x y.shared =
          (.ok r,d') →
        ∃ c, Reads D rid d' c ∧ (c.leases.size : ℤ) ≤ m ∧
          ∀ t l, c.leases.lookup t = some l → s.leases.lookup t ≠ some l → Runnable c t := by
  have hsec := (fleet_sections scheduled_confined (System.within_idle d) hy).2
  obtain ⟨f,hf,hfiles,hcourse⟩ := run_files h hsec hs
  rw [reads_unique h₀ hf]
  refine ⟨course_size hcourse,fun ts o seconds n x r d' hp => ?_⟩
  have hend := files_perform hfiles (.claimMany ts o m seconds (.timed (select n))) x
  rw [hp] at hend
  cases hend with
  | answered r ha => exact ⟨s,hs,claimMany_answers ha,fun t l hc hn => absurd hc hn⟩
  | wrote c r hw d' hsnap hafter =>
    rw [after_valid (claimMany_valid (reads_valid hs) hw)] at hafter
    exact ⟨c,files_reads hafter,claimMany_size hw,fun t l hc hn => claimMany_runnable hw hc hn⟩

end

/-- One claim of a scheduler on a fresh run: the task `a` is leased. -/
theorem sample_claimMany : Writes sampleDeps
    (.claimMany ["a","b"] "me" 1 (.int 60) (.timed (select 1))) sampleDraws sampleState
    sampleHeld (.tokens [leaseToken "run" "a" sampleLease]) := ⟨_,rfl,rfl⟩

theorem claims_bounded_and_ordered_sample : ∃ d' c,
    perform sampleDeps allOk "run" (.claimMany ["a","b"] "me" 1 (.int 60) (.timed (select 1)))
      sampleDraws sampleDir = (.ok (.tokens [leaseToken "run" "a" sampleLease]),d') ∧
    Reads sampleDeps "run" d' c ∧ (c.leases.size : ℤ) ≤ 1 := by
  obtain ⟨d',hp,-⟩ := files_moves sample_files sample_regular sample_claimMany sampleHeld_valid
  have hrun : FleetRun sampleDeps "run" (Call.Scheduled 1) (System.idle sampleDir : Fleet ℕ)
      (System.idle sampleDir) := .refl
  obtain ⟨c,hc,hle,-⟩ := (claims_bounded_and_ordered sample_created (files_reads sample_files)
    hrun (files_reads sample_files)).2 _ _ _ _ _ _ _ hp
  exact ⟨d',c,hp,hc,hle⟩

/-- A lease that a run is created with. -/
def givenLease : Json := .obj [("owner", .str "me"), ("lease_id", .str "given"),
  ("expires_at", .str "2026-01-01T00:01:00Z"), ("generation", .int 0)]

def crowdedPlan : Obj := [("schema_version", .str "pd-fleet-plan:v2"),
  ("tasks", .arr [.obj [("id", .str "a")], .obj [("id", .str "b")], .obj [("id", .str "c")]])]

def crowdedState : Snapshot :=
  { freshSnapshot "run" (sha256Hex (planHashDomain ++ dumps (.obj crowdedPlan))) crowdedPlan "me"
      "2026-01-01T00:00:00Z" with
    leases := ofFields [("a",⟨"me","given","2026-01-01T00:01:00Z",0⟩),
      ("b",⟨"me","given","2026-01-01T00:01:00Z",0⟩)] }

def crowdedDir : RunDir := ⟨sealedNode crowdedState, .absent, .absent, .absent⟩

theorem crowded_created : Created sampleDeps "run"
    (some (.obj [("leases", .obj [("a",givenLease),("b",givenLease)])])) crowdedDir :=
  ⟨.obj crowdedPlan,"me",.str "2026-01-01T00:00:00Z",_,rfl⟩

theorem crowded_valid : crowdedState.Valid sampleDeps "run" where
  run := rfl
  owner := by decide
  hash := rfl
  updated := by decide
  gates := rfl
  metrics := rfl
  audit := rfl
  tasks := fun _ _ h => nomatch h
  leases := fun t l h => by
    have hm : (t,l) = ("a",⟨"me","given","2026-01-01T00:01:00Z",0⟩) ∨
        (t,l) = ("b",⟨"me","given","2026-01-01T00:01:00Z",0⟩) := by
      simpa using mem_of_lookup_ofFields h
    rcases hm with hm | hm <;> cases hm <;> exact ⟨by decide,by decide,by decide,by decide⟩
  reports := fun _ _ h => nomatch h
  logged := rfl

theorem crowded_reads : Reads sampleDeps "run" crowdedDir crowdedState :=
  files_reads (.current (readable_sealed.mpr ⟨rfl,crowded_valid⟩) quiet_absent
    (fun _ h => nomatch h))

/-- How `claim` answers the outcome of `claim_many`. -/
def claimAnswer (candidates : List String) : Outcome PyError Reply → Option Result
  | .raised e => some (claimError candidates e)
  | o => received o

/-- A claim of a client alone: `claim_many` runs on the state that its own read has
found. -/
theorem claim_alone {D : Deps} {rid : String} {d d' : RunDir} {s : Snapshot} {m : ℤ}
    {x : Draws} {owner workerId : String} {now : Option String} {seconds : Seconds}
    {candidates : List String} {o : Outcome PyError Reply} (hs : Reads D rid d s)
    (hw : workerId ≠ "") (hm : 0 ≤ m) (hc : readyIds s now = .ok candidates)
    (hp : perform D allOk rid (.claimMany candidates owner m seconds (.timed (select m.toNat))) x d
      = (o,d')) :
    System.Runs (perform D allOk rid) (schedulerClaim owner m now workerId none seconds) d
      (.done (claimAnswer candidates o)) d' := by
  simp only [schedulerClaim, Option.getD_none, if_neg hw, if_neg (not_lt.mpr hm),
    if_neg (lt_irrefl m)]
  refine .step x ?_
  rw [perform_load hs]
  dsimp only
  rw [hc]
  refine .step x ?_
  rw [hp]
  cases o <;> exact .refl _ _

/-- A run that is created with two leases holds them after a claim by a scheduler of
the bound one, which answers with no tokens. -/
theorem claim_over_bound : ∃ y : Fleet ℕ,
    FleetRun sampleDeps "run" (Call.Scheduled 1) (System.idle crowdedDir) y ∧
    y.client 0 = some (.done (some (.ok (.tokens [])))) ∧
    Reads sampleDeps "run" y.shared crowdedState ∧ ¬ (crowdedState.leases.size : ℤ) ≤ 1 := by
  have hready : readyIds crowdedState (some "2026-01-01T00:00:00Z") = .ok ["c"] := rfl
  have hbody : ∃ body, (Action.claimMany ["c"] "me" 1 (.int 60) (.timed (select 1))).prepare
      sampleDeps sampleDraws = .ok body ∧
      body crowdedState = .error (.runStore "bounded capacity exceeded") := ⟨_,rfl,rfl⟩
  obtain ⟨body,hb,he⟩ := hbody
  have hruns := claim_alone (m := 1) crowded_reads (show "worker" ≠ "" by decide) (by decide)
    hready (perform_refused (by simp) crowded_reads hb he)
  refine ⟨_,System.run_start 0 ⟨.claim "me" 1 _ "worker" none (.int 60),rfl,rfl⟩ hruns,
    System.client_setClient ..,crowded_reads,by decide⟩

end PdFleet
