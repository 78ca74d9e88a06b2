import PdFleet.Crash
import PdFleet.Persisted

/-!
# Failed calls

A mutation of the run in which one call to the file system fails. Up to the rename
of the new snapshot a failure leaves the old state; the three calls on the directory
come after it, and their failure is reported over a state that is in place.
-/

set_option autoImplicit false

namespace PdFleet

section

variable {D : Deps} {rid : String} {d d' : RunDir} {s c : Snapshot} {a : Action} {x : Draws}
  {r : Reply} {k : Syscall}

/-- The section changes the run: it neither refuses nor finds nothing to write, and
the reader accepts what it writes. -/
def Mutates (D : Deps) (rid : String) (a : Action) (x : Draws) (s : Snapshot) : Prop :=
  ∃ c r, Writes D a x s c r ∧ c.Valid D rid

theorem oneFailure_dirCalls (hk : k ∈ dirCalls) {k' : Syscall} (h : k' ∉ dirCalls) :
    oneFailure k k' = .ok := by
  rw [oneFailure, if_neg]
  rintro rfl
  exact h hk

/-- After the rename, a failing call is reported over the new state. -/
theorem late_failure (hs : Reads D rid d s) (hl : d.Regular) (hk : k ∈ dirCalls)
    (state : Document) : ∃ e d', write D (oneFailure k) rid state d = (.raised e,d') ∧
      Replaced D (oneFailure k) rid d (.obj state.sealed) d' := by
  have hend := write_end D (oneFailure k) rid d state
  rcases hw : write D (oneFailure k) rid state d with ⟨o,d'⟩
  rw [hw] at hend
  cases hend with
  | done _ hf =>
    have hfk := hf k hk
    rw [oneFailure, if_pos rfl] at hfk
    cases hfk
  | blocked e _ hb =>
    rcases hb with ⟨k',hk',hf⟩ | hx | hx | ⟨e,he⟩
    · rw [oneFailure_dirCalls hk hk'] at hf
      cases hf
    · rw [hl.1] at hx
      cases hx
    · rw [hl.2] at hx
      cases hx
    · exact absurd he ((reads_quiet hs).1 e)
  | late e h _ _ => exact ⟨e,d',rfl,h⟩
  | cut _ hc =>
    obtain ⟨k',hc⟩ := hc
    rw [oneFailure] at hc
    split at hc <;> cases hc

/-- If the section raises with `k` failing, the state that is loaded is still `s`. -/
def FailsClean (D : Deps) (rid : String) (k : Syscall) (a : Action) (x : Draws) (d : RunDir)
    (s : Snapshot) : Prop :=
  ∀ e d', perform D (oneFailure k) rid a x d = (.raised e,d') → load D rid d' = .ok s

/-- In every run, over writes, crashes and damage: a section in which one call fails
raises over an unchanged state, unless the call is one of the three on the directory
and the section changes the run. -/
theorem failed_mutation_iff (h : OnDiskRun D rid (Corrupt D rid) d) (hs : Reads D rid d s) :
    FailsClean D rid k a x d s ↔ ¬ (k ∈ dirCalls ∧ d.Regular ∧ Mutates D rid a x s) := by
  have hi := inOrder_of_reads (ordered_run h) hs
  constructor
  · rintro hall ⟨hk,hl,c,r,hw,hv⟩
    obtain ⟨e,d',hwrite,hrep⟩ := late_failure hs hl hk c.document
    have hg := (writes_extends hw).2
    have hc := reads_replaced hs hv (by omega) hrep
    have hcs := reads_unique (load_eq_ok.mp (hall e d' (perform_raised hs hw hwrite))) hc
    rw [hcs] at hg
    omega
  · intro hn e d' hp
    have hpp := perform_performed D (oneFailure k) rid x d a
    rw [hp] at hpp
    cases hpp with
    | refused e => exact load_eq_ok.mpr hs
    | failed s' c r body hr hb hbody e d' hw =>
      obtain rfl := reads_unique hr hs
      have hend := write_end D (oneFailure k) rid d c.document
      rw [hw] at hend
      have hf := inOrder_files hi hs
      cases hend with
      | blocked e hk _ => exact load_eq_ok.mpr (files_reads (files_kept hf hk))
      | late e hrep hl hfail =>
        obtain ⟨k',hk',hfk⟩ := hfail
        rw [oneFailure] at hfk
        split at hfk
        · rename_i hkk
          subst hkk
          have hw' : Writes D a x _ c r := ⟨body,hb,hbody⟩
          have hv : ¬ c.Valid D rid := fun hv => hn ⟨hk',hl,c,r,hw',hv⟩
          have hread : oneFailure k' .readOld = .ok := oneFailure_dirCalls hk' (by decide)
          have hfr := files_replaced hf (writes_plain (reads_valid hs).plain hw')
            (by have := (writes_extends hw').2; omega) hread hrep
          rw [after_refused hv] at hfr
          exact load_eq_ok.mpr (files_reads hfr)
        · cases hfk

end

theorem failed_mutation_rename : FailsClean sampleDeps "run" .replaceTarget
    (.claim "a" "me" (.int 60) .null) sampleDraws sampleDir sampleState :=
  (failed_mutation_iff (.created sample_created (files_reads sample_files))
    (files_reads sample_files)).mpr (fun h => absurd h.1 (by decide))

/-- A claim whose `fsync` of the directory fails raises, and the lease is there. -/
theorem failed_mutation_kept : ∃ e d', perform sampleDeps (oneFailure .fsyncDir) "run"
      (.claim "a" "me" (.int 60) .null) sampleDraws sampleDir = (.raised e,d') ∧
    load sampleDeps "run" d' = .ok sampleHeld ∧
    load sampleDeps "run" sampleDir = .ok sampleState ∧
    sampleHeld.generation ≠ sampleState.generation := by
  have hs := files_reads sample_files
  obtain ⟨e,d',hw,hr⟩ := late_failure (k := .fsyncDir) hs sample_regular (by decide)
    sampleHeld.document
  exact ⟨e,d',perform_raised hs sample_claim hw,
    load_eq_ok.mpr (reads_replaced hs sampleHeld_valid (Nat.zero_le _) hr),
    load_eq_ok.mpr hs,Nat.one_ne_zero⟩

end PdFleet
