import PdFleet.Clients

/-!
# What is persisted

Each state that a run writes continues the state before it, and a state written
by anything but an event of a caller's is the state that the next load returns.
-/

set_option autoImplicit false

namespace PdFleet

open Dict

section

variable {D : Deps} {rid : String} {d d' : RunDir} {s c : Snapshot} {a : Action} {x : Draws}
  {r : Reply} {fate : Fates}

/-- The next state of a run: its history is kept and it has no lease on a closed task. -/
structure Continues (s c : Snapshot) : Prop where
  runId : c.runId = s.runId
  owner : c.owner = s.owner
  plan : c.plan = s.plan
  planHash : c.planHash = s.planHash
  generation : c.generation = s.generation+1
  events : s.events.items <+: c.events.items
  sequences : c.events.items.map sequence = sequencesTo c.eventSequence
  attempts : ∀ t n, s.attempts.lookup t = some n → ∃ m, n ≤ m ∧ c.attempts.lookup t = some m
  reports : ∀ t record, s.reports.lookup t = some record → c.reports.lookup t = some record
  leases : ∀ t l, c.leases.lookup t = some l → c.closed t = false

theorem writes_continues (hs : Coherent s) (h : Writes D a x s c r) : Continues s c := by
  obtain ⟨hx,hg⟩ := writes_extends h
  have hc := writes_coherent hs h
  exact {
    runId := hx.runId
    owner := hx.owner
    plan := hx.plan
    planHash := hx.planHash
    generation := hg
    events := hx.events
    sequences := hc.sequences
    attempts := hx.attempts
    reports := hx.reports
    leases := hc.opened }

/-- A section that returned has left the files alone or put a state that it wrote in
the place of the primary. -/
theorem perform_ok (h : perform D fate rid a x d = (.ok r,d')) :
    ∃ s, Reads D rid d s ∧ ((d' = d ∧ Answers D a x s r) ∨
      ∃ c, Writes D a x s c r ∧ Replaced D fate rid d (.obj c.document.sealed) d') := by
  have hp := perform_performed D fate rid x d a
  rw [h] at hp
  cases hp with
  | answered s r body hr hb hbody => exact ⟨s,hr,Or.inl ⟨rfl,body,hb,hbody⟩⟩
  | wrote s c r body hr hb hbody d' hw =>
    have hend := write_end D fate rid d c.document
    rw [hw] at hend
    cases hend with
    | done hrep _ => exact ⟨s,hr,Or.inr ⟨c,⟨body,hb,hbody⟩,hrep⟩⟩

/-- A valid state in the place of the primary is what the reader finds. -/
theorem reads_replaced (h : Reads D rid d s) (hv : c.Valid D rid)
    (hg : s.generation ≤ c.generation)
    (hr : Replaced D fate rid d (.obj c.document.sealed) d') : Reads D rid d' c := by
  obtain ⟨hsnap,hbak⟩ := hr
  have hle := TwoSlot.le_newest (reads_newest h)
  have hp : readable D rid d'.snapshot = some c := by
    rw [hsnap]
    exact readable_sealed.mpr ⟨rfl,hv⟩
  refine files_reads (.current hp ?_ ?_)
  · rcases hbak with ⟨hb,-⟩ | ⟨hb,-⟩ <;> rw [hb]
    · exact (reads_quiet h).2
    · exact (reads_quiet h).1
  · intro b hb'
    rcases hbak with ⟨hb,-⟩ | ⟨hb,-⟩ <;> rw [hb] at hb'
    · exact le_trans (hle.2 b hb') hg
    · exact le_trans (hle.1 b hb') hg

/-- Over every interleaving from `create` with no initial state: what a section
writes continues the state that it read. -/
theorem history_write_once {ι : Type} [DecidableEq ι] {calls : Call → Prop}
    (h : Created D rid none d) {y : Fleet ι} (hy : FleetRun D rid calls (System.idle d) y)
    (hp : perform D fate rid a x y.shared = (.ok r,d')) :
    d' = y.shared ∨ ∃ s c, Reads D rid y.shared s ∧ d'.snapshot = sealedNode c ∧
      Continues s c := by
  obtain ⟨s,hs,⟨hd,-⟩ | ⟨c,hw,hr⟩⟩ := perform_ok hp
  · exact Or.inl hd
  · have hc := (run_coherent h (fleet_any hy) hs).2
    exact Or.inr ⟨s,c,hs,hr.1,writes_continues hc hw⟩

end

theorem sample_idle : FleetRun sampleDeps "run" (fun _ => True)
    (System.idle sampleDir : Fleet ℕ) (System.idle sampleDir) := .refl

/-- The first claim of a run continues its fresh state and is loaded back. -/
theorem history_write_once_claim : ∃ d',
    perform sampleDeps allOk "run" (.claim "a" "me" (.int 60) .null) sampleDraws sampleDir =
      (.ok (.token (leaseToken "run" "a" sampleLease)),d') ∧
    (d' = sampleDir ∨ ∃ s c, Reads sampleDeps "run" sampleDir s ∧ d'.snapshot = sealedNode c ∧
      Continues s c) := by
  obtain ⟨d',hp,-⟩ := files_moves sample_files sample_regular sample_claim sampleHeld_valid
  exact ⟨d',hp,history_write_once sample_created sample_idle hp⟩

end PdFleet
