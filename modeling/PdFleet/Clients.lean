import PdFleet.Runs

/-!
# Clients of a run

The calls that clients make on the run directory, each a script of sections, and
the interleavings of any number of clients.
-/

set_option autoImplicit false

namespace PdFleet

/-- A call of the store, which is one section, or of the scheduler. -/
inductive Call where
  | store (a : Action)
  | claim (owner : String) (maxParallel : ℤ) (now : Option String) (workerId : String)
      (limit : Option ℤ) (seconds : Seconds)
  | renew (owner : String) (token : Json) (seconds : Seconds)
  | recoverStale (owner : String) (now : Option String)

def Call.script : Call → StoreScript (Option Result)
  | store a => oneSection a
  | claim o m now w limit n => schedulerClaim o m now w limit n
  | renew o k n => schedulerRenew o k n
  | recoverStale o now => PdFleet.recoverStale o now

/-- A run directory with its clients. -/
abbrev Fleet (ι : Type) := System ι RunDir Action (Outcome PyError Reply) (Option Result)

/-- The clients of `calls` take steps in any order. -/
def FleetRun {ι : Type} [DecidableEq ι] (D : Deps) (rid : String) (calls : Call → Prop) :
    Fleet ι → Fleet ι → Prop :=
  System.Run (perform D allOk rid) (fun p => ∃ k, calls k ∧ p = k.script)

/-- A client alone makes a call that is one section. -/
theorem fleet_alone {ι : Type} [DecidableEq ι] [Inhabited ι] {D : Deps} {rid : String}
    {calls : Call → Prop} {a : Action} (x : Draws) (d : RunDir) (h : calls (.store a)) :
    FleetRun D rid calls (System.idle d : Fleet ι)
      (System.idle (perform D allOk rid a x d).2) :=
  System.run_alone (a := a) x ⟨.store a,h,rfl⟩ (fun _ => ⟨_,rfl⟩)

/-! ## The sections of a call -/

theorem schedulerClaim_all {P : Action → Prop} {owner workerId : String} {maxParallel : ℤ}
    {now : Option String} {limit : Option ℤ} {seconds : Seconds} (hl : P .load)
    (hc : ∀ ts (n : ℕ), P (.claimMany ts owner maxParallel seconds (.timed (select n)))) :
    (schedulerClaim owner maxParallel now workerId limit seconds).All P := by
  rw [schedulerClaim]
  split
  · exact .done _
  split
  · exact .done _
  split
  · exact .done _
  refine .step hl (fun o => ?_)
  split
  · split
    · exact .done _
    · refine .step (hc _ _) (fun o => ?_)
      split <;> exact .done _
  · exact .done _

theorem schedulerRenew_all {P : Action → Prop} {owner : String} {token : Json}
    {seconds : Seconds} (hr : ∀ t, P (.renew t token owner seconds)) :
    (schedulerRenew owner token seconds).All P := by
  unfold schedulerRenew
  split
  · split
    · refine .step (hr _) (fun o => ?_)
      split <;> exact .done _
    · exact .done _
    · exact .done _
  · exact .done _

theorem dropEach_all {P : Action → Prop} {owner now : String} (hl : P .load)
    (hd : ∀ t g, P (.dropStale t now owner g)) (ids : List String) :
    (dropEach owner now ids).All P := by
  induction ids with
  | nil => exact .done _
  | cons id rest ih =>
    refine .step hl (fun o => ?_)
    split
    · split
      · exact ih
      · refine .step (hd _ _) (fun o => ?_)
        split
        · exact ih
        · exact .done _
    · exact .done _

theorem recoverStale_all {P : Action → Prop} {owner : String} {now : Option String}
    (hl : P .load) (hd : ∀ t now g, P (.dropStale t now owner g)) :
    (recoverStale owner now).All P := by
  refine .step hl (fun o => ?_)
  split
  · split
    · exact .done _
    · exact dropEach_all hl (fun t g => hd t _ g) _
  · exact .done _

/-- The sections of the calls in `calls` are of a kind in `P`. -/
def Confined (calls : Call → Prop) (P : Action → Prop) : Prop := ∀ k, calls k → k.script.All P

theorem fleet_sections {ι : Type} [DecidableEq ι] {D : Deps} {rid : String}
    {calls : Call → Prop} {P : Action → Prop} {y z : Fleet ι} (hk : Confined calls P)
    (hw : System.Within P y) (h : FleetRun D rid calls y z) :
    System.Within P z ∧ System.Sections (perform D allOk rid) P y.shared z.shared := by
  refine System.run_sections ?_ hw h
  rintro p ⟨k,hkc,rfl⟩
  exact hk k hkc

/-- On the directory, the steps of clients are a sequence of sections. -/
theorem fleet_any {ι : Type} [DecidableEq ι] {D : Deps} {rid : String} {calls : Call → Prop}
    {y z : Fleet ι} (h : FleetRun D rid calls y z) :
    System.Sections (perform D allOk rid) (fun _ => True) y.shared z.shared :=
  (System.run_sections (fun p _ => p.all_true) (fun _ p _ => p.all_true) h).2

end PdFleet
