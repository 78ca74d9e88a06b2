import PdFleet.Runs

/-!
# Crashes and damaged files

The write refines an update of two slots, so that a write that is cut off leaves
the old state or the new one. Damage to one file is survived as long as the
reader refuses what it finds there; it does not survive a file that makes it raise.
-/

set_option autoImplicit false

namespace PdFleet

section

variable {D : Deps} {rid : String} {fate : Fates} {d d' : RunDir} {s c : Snapshot}

/-- The slots that the reader sees of two files on which it does not raise. -/
structure Legible (D : Deps) (rid : String) (d : RunDir) : Prop where
  snapshot : Quiet D rid d.snapshot
  bak : Quiet D rid d.bak

theorem legible_reads (h : Legible D rid d) : Reads D rid d s ↔
    TwoSlot.newest Snapshot.generation (readable D rid d.snapshot) (readable D rid d.bak) =
      some s := by
  rw [Reads, validSnapshot_of_quiet h.snapshot h.bak, Except.ok.injEq]

theorem kept_update (h : Legible D rid d) (hk : Kept D rid d d') :
    Legible D rid d' ∧ ∀ c, TwoSlot.Update (readable D rid d.snapshot) (readable D rid d.bak) c
      (readable D rid d'.snapshot) (readable D rid d'.bak) := by
  obtain ⟨hs,hb | ⟨hb,ha⟩⟩ := hk
  · exact ⟨⟨by rw [hs]; exact h.snapshot,by rw [hb]; exact h.bak⟩,
      fun c => by rw [hs, hb]; exact .untouched⟩
  · exact ⟨⟨by rw [hs]; exact h.snapshot,by rw [hb]; exact h.snapshot⟩,
      fun c => by rw [hs, hb]; exact .backed (readable_isSome.mpr ha)⟩

theorem replaced_update (h : Legible D rid d) (hc : c.Valid D rid)
    (hr : Replaced D fate rid d (.obj c.document.sealed) d') :
    Legible D rid d' ∧ TwoSlot.Update (readable D rid d.snapshot) (readable D rid d.bak) c
      (readable D rid d'.snapshot) (readable D rid d'.bak) := by
  obtain ⟨hs,hb⟩ := hr
  have hp : readable D rid d'.snapshot = some c := by
    rw [hs]
    exact readable_sealed.mpr ⟨rfl,hc⟩
  rcases hb with ⟨hb,-⟩ | ⟨hb,ha⟩
  · exact ⟨⟨quiet_of_readable hp,by rw [hb]; exact h.bak⟩,
      by rw [hp, hb]; exact .replaced⟩
  · exact ⟨⟨quiet_of_readable hp,by rw [hb]; exact h.snapshot⟩,
      by rw [hp, hb]; exact .complete (readable_isSome.mpr ha)⟩

/-- A write of a valid state, however it ends, is an update of the slots. -/
theorem write_update (fate : Fates) (h : Legible D rid d) (hc : c.Valid D rid) :
    Legible D rid (write D fate rid c.document d).2 ∧
      TwoSlot.Update (readable D rid d.snapshot) (readable D rid d.bak) c
        (readable D rid (write D fate rid c.document d).2.snapshot)
        (readable D rid (write D fate rid c.document d).2.bak) := by
  have hend := write_end D fate rid d c.document
  generalize (write D fate rid c.document d).1 = o at hend
  generalize (write D fate rid c.document d).2 = e at hend ⊢
  cases hend with
  | done hr _ => exact replaced_update h hc hr
  | late _ hr _ _ => exact replaced_update h hc hr
  | blocked _ hk _ => exact ⟨(kept_update h hk).1,(kept_update h hk).2 c⟩
  | cut hx _ =>
    rcases hx with hk | hr
    · exact ⟨(kept_update h hk).1,(kept_update h hk).2 c⟩
    · exact replaced_update h hc hr

/-! ## Damage -/

/-- One of the two files holds something else, of a kind in `bad`, and the reader
accepts the other one. -/
inductive Damaged (D : Deps) (rid : String) (bad : Node → Prop) (d d' : RunDir) : Prop
  | primary (hb : d'.bak = d.bak) (hs : bad d'.snapshot) (ha : Accepted D rid d.bak) :
      Damaged D rid bad d d'
  | backup (hs : d'.snapshot = d.snapshot) (hb : bad d'.bak) (ha : Accepted D rid d.snapshot) :
      Damaged D rid bad d d'

/-- The pairs of files that writes of valid states, finished or not, and damage to
one file after another can lead to. -/
inductive OnDiskRun (D : Deps) (rid : String) (bad : Node → Prop) : RunDir → Prop
  | created {initial : Option Json} {d : RunDir} {s : Snapshot} (h : Created D rid initial d)
      (hs : Reads D rid d s) : OnDiskRun D rid bad d
  | write {d : RunDir} {s c : Snapshot} (h : OnDiskRun D rid bad d) (hs : Reads D rid d s)
      (hc : c.Valid D rid) (hg : s.generation < c.generation) (fate : Fates) :
      OnDiskRun D rid bad (write D fate rid c.document d).2
  | damage {d d' : RunDir} (h : OnDiskRun D rid bad d) (hd : Damaged D rid bad d d') :
      OnDiskRun D rid bad d'

/-- The reader does not accept the file. -/
def Corrupt (D : Deps) (rid : String) (n : Node) : Prop := ¬ Accepted D rid n

/-- The reader refuses the file, and does not raise on it. -/
def Refused (D : Deps) (rid : String) (n : Node) : Prop := readNode D rid n = .reject

/-- The slots hold a state, and no backup is newer than a primary. -/
structure InOrder (D : Deps) (rid : String) (d : RunDir) : Prop where
  legible : Legible D rid d
  ordered : TwoSlot.Ordered Snapshot.generation (readable D rid d.snapshot)
    (readable D rid d.bak)
  some_ : (readable D rid d.snapshot).isSome ∨ (readable D rid d.bak).isSome

theorem inOrder_reads (h : InOrder D rid d) : ∃ s, Reads D rid d s := by
  obtain ⟨s,hs⟩ := Option.isSome_iff_exists.mp
    (TwoSlot.newest_isSome Snapshot.generation h.some_)
  exact ⟨s,(legible_reads h.legible).mpr hs⟩

theorem readable_refused {n : Node} (h : Refused D rid n) :
    Quiet D rid n ∧ readable D rid n = none := by
  rw [Refused] at h
  refine ⟨fun e he => ?_,by rw [readable, h]⟩
  rw [h] at he
  cases he

theorem inOrder_damage (h : InOrder D rid d) (hd : Damaged D rid (Refused D rid) d d') :
    InOrder D rid d' := by
  cases hd with
  | primary hb hs ha =>
    obtain ⟨hq,hn⟩ := readable_refused hs
    refine ⟨⟨hq,by rw [hb]; exact h.legible.bak⟩,?_,Or.inr ?_⟩
    · rw [hn]
      exact TwoSlot.ordered_primary_lost _ _
    · rw [hb]
      exact readable_isSome.mpr ha
  | backup hs hb ha =>
    obtain ⟨hq,hn⟩ := readable_refused hb
    refine ⟨⟨by rw [hs]; exact h.legible.snapshot,hq⟩,?_,Or.inl ?_⟩
    · rw [hn]
      exact TwoSlot.ordered_backup_lost _ _
    · rw [hs]
      exact readable_isSome.mpr ha

/-- A write over files in order leaves the old state or the new one, and files in
order. -/
theorem inOrder_write (h : InOrder D rid d) (hs : Reads D rid d s) (hc : c.Valid D rid)
    (hg : s.generation < c.generation) :
    InOrder D rid (write D fate rid c.document d).2 ∧
      (Reads D rid (write D fate rid c.document d).2 s ∨
        Reads D rid (write D fate rid c.document d).2 c) := by
  obtain ⟨hl,hu⟩ := write_update fate h.legible hc
  have hn := (legible_reads h.legible).mp hs
  have hnew := TwoSlot.newest_update h.ordered hn hg hu
  refine ⟨⟨hl,TwoSlot.ordered_update h.ordered hn hg hu,?_⟩,?_⟩
  · rcases hnew with hx | hx <;> rcases TwoSlot.newest_mem hx with hp | hp
    · exact Or.inl (by rw [hp]; rfl)
    · exact Or.inr (by rw [hp]; rfl)
    · exact Or.inl (by rw [hp]; rfl)
    · exact Or.inr (by rw [hp]; rfl)
  · exact hnew.imp (legible_reads hl).mpr (legible_reads hl).mpr

theorem inOrder_of_reads (ho : TwoSlot.Ordered Snapshot.generation (readable D rid d.snapshot)
    (readable D rid d.bak)) (hs : Reads D rid d s) : InOrder D rid d := by
  have hq := reads_quiet hs
  refine ⟨⟨hq.1,hq.2⟩,ho,?_⟩
  rcases TwoSlot.newest_mem (reads_newest hs) with hp | hp
  · exact Or.inl (by rw [hp]; rfl)
  · exact Or.inr (by rw [hp]; rfl)

theorem inOrder_run (h : OnDiskRun D rid (Refused D rid) d) : InOrder D rid d := by
  induction h with
  | @created initial d s h hs =>
    refine inOrder_of_reads ?_ hs
    rw [(created_document h).1]
    exact TwoSlot.ordered_backup_lost _ _
  | write _ hs hc hg fate ih => exact (inOrder_write ih hs hc hg).1
  | damage _ hd ih => exact inOrder_damage ih hd

theorem inOrder_files (h : InOrder D rid d) (hs : Reads D rid d s) : Files D rid s d := by
  refine files_of_reads hs (fun p hp => ?_)
  have hn := reads_newest hs
  have ho := h.ordered
  rw [hp] at hn ho
  rw [TwoSlot.newest_of_ordered ho] at hn
  exact Option.some.inj hn

theorem readable_corrupt {n : Node} (h : Corrupt D rid n) : readable D rid n = none :=
  Option.eq_none_iff_forall_ne_some.mpr (fun _ hs => h (accepted_of_readable hs))

/-- Whatever the damage, no backup that the reader accepts is newer than a primary. -/
theorem ordered_run (h : OnDiskRun D rid (Corrupt D rid) d) :
    TwoSlot.Ordered Snapshot.generation (readable D rid d.snapshot) (readable D rid d.bak) := by
  induction h with
  | @created initial d s h hs =>
    rw [(created_document h).1]
    exact TwoSlot.ordered_backup_lost _ _
  | write _ hs hc hg fate ih => exact (inOrder_write (inOrder_of_reads ih hs) hs hc hg).1.ordered
  | damage _ hd ih =>
    cases hd with
    | primary hb hs ha =>
      rw [readable_corrupt hs]
      exact TwoSlot.ordered_primary_lost _ _
    | backup hs hb ha =>
      rw [readable_corrupt hb]
      exact TwoSlot.ordered_backup_lost _ _

/-- In every run in which the reader refuses each damaged file without raising, a
state can be read, and a write of a newer valid state that fails or is cut off
anywhere leaves that state or the new one. After any further damage a state can be
read if and only if the reader raises on neither file. -/
theorem crash_consistent (h : OnDiskRun D rid (Refused D rid) d) :
    ∃ s, Reads D rid d s ∧
      (∀ c fate, c.Valid D rid → s.generation < c.generation →
        Reads D rid (write D fate rid c.document d).2 s ∨
          Reads D rid (write D fate rid c.document d).2 c) ∧
      ∀ d', Damaged D rid (Corrupt D rid) d d' →
        ((∃ s', Reads D rid d' s') ↔ Legible D rid d') := by
  have hi := inOrder_run h
  obtain ⟨s,hs⟩ := inOrder_reads hi
  refine ⟨s,hs,fun c fate hc hg => (inOrder_write hi hs hc hg).2,fun d' hd => ⟨?_,?_⟩⟩
  · rintro ⟨s',hs'⟩
    have hq := reads_quiet hs'
    exact ⟨hq.1,hq.2⟩
  · intro hl
    have hsome : (readable D rid d'.snapshot).isSome ∨ (readable D rid d'.bak).isSome := by
      cases hd with
      | primary hb _ ha =>
        rw [hb]
        exact Or.inr (readable_isSome.mpr ha)
      | backup hs _ ha =>
        rw [hs]
        exact Or.inl (readable_isSome.mpr ha)
    obtain ⟨s',hs'⟩ := Option.isSome_iff_exists.mp
      (TwoSlot.newest_isSome Snapshot.generation hsome)
    exact ⟨s',(legible_reads hl).mpr hs'⟩

end

/-- The process stops at one call. -/
def cutAt (k : Syscall) : Fates := fun k' => if k' = k then .cut else .ok

theorem crash_consistent_claim :
    ∃ s, Reads sampleDeps "run" sampleDir s ∧
      (Reads sampleDeps "run"
          (write sampleDeps (cutAt .replaceTarget) "run" sampleHeld.document sampleDir).2 s ∨
        Reads sampleDeps "run"
          (write sampleDeps (cutAt .replaceTarget) "run" sampleHeld.document sampleDir).2
          sampleHeld) := by
  obtain ⟨s,hs,hw,-⟩ := crash_consistent (.created sample_created (files_reads sample_files))
  obtain rfl := reads_unique hs (files_reads sample_files)
  exact ⟨_,hs,hw sampleHeld (cutAt .replaceTarget) sampleHeld_valid (by decide)⟩

/-- The snapshot with a list for its status. -/
def sampleDamage : Node :=
  .document (.obj { sampleState.document with status := .arr [] }.sealed)

theorem sampleDamage_raises :
    readNode sampleDeps "run" sampleDamage = .raise .typeError := rfl

/-- A damaged primary on which the reader raises takes the valid backup with it. -/
theorem crash_inconsistent : ∃ d, OnDiskRun sampleDeps "run" (Corrupt sampleDeps "run") d ∧
    Accepted sampleDeps "run" d.bak ∧ load sampleDeps "run" d = .error .typeError := by
  obtain ⟨d,hw,hr⟩ := write_allOk (files_reads sample_files) sample_regular sampleHeld.document
  have hp : readable sampleDeps "run" sampleDir.snapshot = some sampleState :=
    readable_sealed.mpr ⟨rfl,sample_valid⟩
  have hb : d.bak = sealedNode sampleState := by
    rcases hr.2 with ⟨-,hn | hn⟩ | ⟨hb,-⟩
    · exact absurd (accepted_of_readable hp) hn
    · exact absurd rfl hn
    · exact hb
  have ha : Accepted sampleDeps "run" d.bak := by
    rw [hb]
    exact accepted_of_readable hp
  have hd : OnDiskRun sampleDeps "run" (Corrupt sampleDeps "run") d := by
    have hstart : OnDiskRun sampleDeps "run" (Corrupt sampleDeps "run") sampleDir :=
      .created sample_created (files_reads sample_files)
    have hrun := hstart.write (files_reads sample_files) sampleHeld_valid (by decide) allOk
    rw [hw] at hrun
    exact hrun
  have hc : Corrupt sampleDeps "run" sampleDamage := by
    rintro ⟨s,hs⟩
    rw [sampleDamage_raises] at hs
    cases hs
  refine ⟨{ d with snapshot := sampleDamage },.damage hd (.primary rfl hc ha),ha,?_⟩
  rw [load, validSnapshot, sampleDamage_raises]
  rfl

end PdFleet
