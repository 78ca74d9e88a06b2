import PdFleet.Disk

/-!
# How a write ends

The two snapshot files after a write, for every fate of its calls: the old
primary stands until the rename of the new one, and only the three calls on the
directory come after that rename.
-/

set_option autoImplicit false

namespace PdFleet

open Faulty

def Accepted (D : Deps) (rid : String) (n : Node) : Prop := ∃ s, readNode D rid n = .accept s

/-- Neither file is a symlink. -/
def RunDir.Regular (d : RunDir) : Prop :=
  d.snapshot.isSymlink = false ∧ d.bak.isSymlink = false

/-- The calls after the rename of the new snapshot. -/
def dirCalls : List Syscall := [.openDir, .fsyncDir, .closeDir]

section

variable (D : Deps) (fate : Fates) (rid : String) (d : RunDir)

def BackedUp (d' : RunDir) : Prop := d'.bak = d.snapshot ∧ Accepted D rid d.snapshot

/-- The new snapshot is not in place. -/
def Kept (d' : RunDir) : Prop :=
  d'.snapshot = d.snapshot ∧ (d'.bak = d.bak ∨ BackedUp D rid d d')

/-- The new snapshot is in place. The old one, if the reader accepts it and it
could be read, is the backup. -/
def Replaced (payload : Json) (d' : RunDir) : Prop :=
  d'.snapshot = .document payload ∧
    ((d'.bak = d.bak ∧ (¬ Accepted D rid d.snapshot ∨ fate .readOld ≠ .ok)) ∨
      BackedUp D rid d d')

/-- What can stop a write before its rename. -/
def Blocked : Prop :=
  (∃ c, c ∉ dirCalls ∧ fate c = .fail) ∨ d.snapshot.isSymlink = true ∨
    d.bak.isSymlink = true ∨ ∃ e, readNode D rid d.snapshot = .raise e

inductive WriteEnd (payload : Json) : Outcome PyError Unit → RunDir → Prop
  | done {d' : RunDir} (h : Replaced D fate rid d payload d')
      (hf : ∀ c ∈ dirCalls, fate c = .ok) : WriteEnd payload (.ok ()) d'
  | blocked {d' : RunDir} (e : PyError) (h : Kept D rid d d')
      (hb : Blocked D fate rid d) : WriteEnd payload (.raised e) d'
  | late {d' : RunDir} (e : PyError) (h : Replaced D fate rid d payload d') (hl : d.Regular)
      (hf : ∃ c ∈ dirCalls, fate c = .fail) : WriteEnd payload (.raised e) d'
  | cut {d' : RunDir} (h : Kept D rid d d' ∨ Replaced D fate rid d payload d')
      (hc : ∃ c, fate c = .cut) : WriteEnd payload .cut d'

end

section

variable {D : Deps} {fate : Fates} {rid : String} {d : RunDir} {payload : Json}

/-! ## Before the rename -/

/-- The ending of a part of the write before its rename, `R` after a value. -/
def Early {α : Type} (D : Deps) (fate : Fates) (rid : String) (d : RunDir)
    (R : α → RunDir → Prop) : Outcome PyError α → RunDir → Prop
  | .ok a, s => R a s
  | .raised _, s => Kept D rid d s ∧ Blocked D fate rid d
  | .cut, s => Kept D rid d s ∧ ∃ c, fate c = .cut

theorem Early.bind {α β : Type} {P : RunDir → Prop} {m : OnDisk α} {f : α → OnDisk β}
    {R : α → RunDir → Prop} {S : β → RunDir → Prop}
    (hm : Triple P m (Early D fate rid d R))
    (hf : ∀ a, Triple (R a) (f a) (Early D fate rid d S)) :
    Triple P (m >>= f) (Early D fate rid d S) := by
  refine Triple.bind (hm.weaken (fun s hs => hs) ?_) hf
  rintro (a | e | _) s hs <;> exact hs

theorem Early.call {P : RunDir → Prop} {c : Syscall} {f : RunDir → RunDir} {R : RunDir → Prop}
    (hc : c ∉ dirCalls) (hk : ∀ s, P s → Kept D rid d s) (hr : ∀ s, P s → R (f s)) :
    Triple P (sys fate c f) (Early D fate rid d (fun _ => R)) :=
  Triple.call (fun _ s hs => hr s hs) (fun hf s hs => ⟨hk s hs,Or.inl ⟨c,hc,hf⟩⟩)
    (fun hf s hs => ⟨hk s hs,c,hf⟩)

theorem Early.after {P R : RunDir → Prop} {m : OnDisk Unit} {c : Syscall} (hc : c ∉ dirCalls)
    (hk : ∀ s, R s → Kept D rid d s) (hm : Triple P m (Early D fate rid d (fun _ => R))) :
    Triple P (m.after (sys fate c id)) (Early D fate rid d (fun _ => R)) := by
  refine Triple.after (R := Early D fate rid d (fun _ => R)) ?_ ?_
  · refine hm.weaken (fun s hs => hs) ?_
    rintro (a | e | _) s hs <;> exact hs
  · rintro (a | e | _) ho
    · exact Triple.call (fun _ s hs => hs) (fun hf s hs => ⟨hk s hs,Or.inl ⟨c,hc,hf⟩⟩)
        (fun hf s hs => ⟨hk s hs,c,hf⟩)
    · exact Triple.call (fun _ s hs => hs) (fun hf s hs => hs) (fun hf s hs => ⟨hs.1,c,hf⟩)
    · exact absurd rfl ho

theorem get_bind {P : RunDir → Prop} {α : Type} {f : RunDir → OnDisk α}
    {Q : Outcome PyError α → RunDir → Prop}
    (h : ∀ s, P s → Triple (fun t => t = s) (f s) Q) : Triple P (Faulty.get >>= f) Q :=
  fun s hs => h s hs s rfl

/-- The files are as the write found them. -/
def Untouched (d s : RunDir) : Prop := s.snapshot = d.snapshot ∧ s.bak = d.bak

theorem Untouched.kept {s : RunDir} (h : Untouched d s) : Kept D rid d s := ⟨h.1,Or.inl h.2⟩

/-- The new state is staged in the temporary file. -/
def Staged (d : RunDir) (payload : Json) (s : RunDir) : Prop :=
  Untouched d s ∧ s.temp = .document payload

/-- The backup is settled and the rename comes next. -/
def Prepared (D : Deps) (fate : Fates) (rid : String) (d : RunDir) (payload : Json)
    (s : RunDir) : Prop :=
  s.snapshot = d.snapshot ∧ s.temp = .document payload ∧
    ((s.bak = d.bak ∧ (¬ Accepted D rid d.snapshot ∨ fate .readOld ≠ .ok)) ∨ BackedUp D rid d s)

theorem Prepared.kept {s : RunDir} (h : Prepared D fate rid d payload s) : Kept D rid d s :=
  ⟨h.1,h.2.2.imp And.left id⟩

theorem refuseSymlink_early {n : Node} (hn : n.isSymlink = true → Blocked D fate rid d) :
    Triple (Untouched d) (refuseSymlink n)
      (Early D fate rid d (fun _ s => Untouched d s ∧ n.isSymlink = false)) := by
  unfold refuseSymlink
  split
  · exact Triple.raise (fun s hs => ⟨hs.kept,hn ‹_›⟩)
  · exact Triple.pure (fun s hs => ⟨hs,Bool.eq_false_iff.mpr ‹_›⟩)

/-- What a read of the old primary says about it. -/
def OldIs (d : RunDir) (fate : Fates) : Option Json → Prop
  | some j => d.snapshot = .document j
  | none => (∀ j, d.snapshot ≠ .document j) ∨ fate .readOld ≠ .ok

theorem readOld_early :
    Triple (Staged d payload) (readOld fate)
      (Early D fate rid d (fun old s => Staged d payload s ∧ OldIs d fate old)) := by
  unfold readOld
  refine Triple.handle (R := fun _ s => Staged d payload s ∧ OldIs d fate none) ?_ ?_
  · refine Triple.bind (R := fun _ s => Staged d payload s) ?_ ?_
    · exact Triple.call (fun _ s hs => hs) (fun hf s hs => ⟨hs,Or.inr (by simp [hf])⟩)
        (fun hf s hs => ⟨hs.1.kept,_,hf⟩)
    · intro _
      apply get_bind
      intro s hs
      have hn : ∀ n, s.snapshot = n → d.snapshot = n := fun n h => hs.1.1.symm.trans h
      cases h : s.snapshot with
      | document j =>
        rintro t rfl
        exact ⟨hs,hn _ h⟩
      | absent =>
        rintro t rfl
        exact ⟨hs,Or.inl (by simp [hn _ h])⟩
      | symlink =>
        rintro t rfl
        exact ⟨hs,Or.inl (by simp [hn _ h])⟩
      | garbled =>
        rintro t rfl
        exact ⟨hs,Or.inl (by simp [hn _ h])⟩
  · exact fun _ => Triple.pure (fun s hs => hs)

theorem copyBackup_early (ha : Accepted D rid d.snapshot) :
    Triple (Staged d payload) (copyBackup fate)
      (Early D fate rid d (fun _ => Prepared D fate rid d payload)) := by
  have hs : ∀ s, Staged d payload s → Kept D rid d s := fun s hs => hs.1.kept
  have hc : ∀ s, (Staged d payload s ∧ s.bakTemp = d.snapshot) → Kept D rid d s :=
    fun s hs => hs.1.1.kept
  refine Early.bind (R := fun _ => Staged d payload)
    (Early.call (by decide) hs (fun s h => h)) (fun _ => ?_)
  refine Early.bind (Early.call (by decide) hs (fun s h => h)) (fun _ => ?_)
  refine Early.bind (Early.after (by decide) hc ?_) (fun _ => ?_)
  · refine Early.bind (R := fun _ => Staged d payload)
      (Early.call (by decide) hs (fun s h => h)) (fun _ => ?_)
    exact Early.call (by decide) hs (fun s h => ⟨h,h.1.1⟩)
  refine Early.bind (R := fun _ s => Staged d payload s ∧ s.bakTemp = d.snapshot)
    (Early.call (by decide) hc (fun s h => h)) (fun _ => ?_)
  refine Early.bind (R := fun _ s => Staged d payload s ∧ s.bakTemp = d.snapshot)
    (Early.call (by decide) hc (fun s h => h)) (fun _ => ?_)
  exact Early.call (by decide) hc (fun s h => ⟨h.1.1.1,h.1.2,Or.inr ⟨h.2,ha⟩⟩)

theorem backupOld_early :
    Triple (Staged d payload) (backupOld D fate rid)
      (Early D fate rid d (fun _ => Prepared D fate rid d payload)) := by
  refine Early.bind readOld_early (fun old => ?_)
  have hn : ∀ v, (d.snapshot = .document v → ¬ ∃ s, validate D v rid = .accept s) →
      OldIs d fate (some v) → ¬ Accepted D rid d.snapshot := by
    intro v hv hd ⟨s,hs⟩
    rw [hd] at hs
    exact hv hd ⟨s,hs⟩
  cases old with
  | none =>
    refine Triple.pure (fun s hs => ⟨hs.1.1.1,hs.1.2,Or.inl ⟨hs.1.1.2,hs.2.imp ?_ id⟩⟩)
    rintro hd ⟨t,ht⟩
    cases hx : d.snapshot with
    | document j => exact hd j hx
    | absent => simp [hx, readNode] at ht
    | symlink => simp [hx, readNode] at ht
    | garbled => simp [hx, readNode] at ht
  | some old =>
    cases hv : validate D old rid with
    | accept t =>
      simp only [hv]
      intro s hs
      have ha : Accepted D rid d.snapshot := ⟨t,by rw [hs.2]; exact hv⟩
      exact copyBackup_early ha s hs.1
    | reject =>
      simp only [hv]
      refine Triple.pure (fun s hs => ⟨hs.1.1.1,hs.1.2,Or.inl ⟨hs.1.1.2,Or.inl ?_⟩⟩)
      exact hn old (fun _ ⟨t,ht⟩ => by rw [hv] at ht; cases ht) hs.2
    | raise e =>
      simp only [hv]
      refine Triple.raise (fun s hs => ⟨hs.1.1.kept,Or.inr (Or.inr (Or.inr ⟨e,?_⟩))⟩)
      rw [hs.2]
      exact hv

/-! ## The whole write -/

theorem Early.bind_end {P R : RunDir → Prop} {m : OnDisk Unit} {f : Unit → OnDisk Unit}
    (hm : Triple P m (Early D fate rid d (fun _ => R)))
    (hf : Triple R (f ()) (WriteEnd D fate rid d payload)) :
    Triple P (m >>= f) (WriteEnd D fate rid d payload) := by
  refine Triple.bind (R := fun _ => R) (hm.weaken (fun s hs => hs) ?_) (fun _ => hf)
  rintro (a | e | _) s hs
  · exact hs
  · exact .blocked e hs.1 hs.2
  · exact .cut (Or.inl hs.1) hs.2

theorem syncDir_end (hl : d.Regular) (hd : fate .openDir = .ok) :
    Triple (Replaced D fate rid d payload)
      (Faulty.after (sys fate .fsyncDir id) (sys fate .closeDir id))
      (WriteEnd D fate rid d payload) := by
  refine Triple.after (R := fun o s => Replaced D fate rid d payload s ∧
    (o = .ok () → fate .fsyncDir = .ok) ∧
    (∀ e, o = .raised e → fate .fsyncDir = .fail)) ?_ ?_
  · exact Triple.call (fun hf s hs => ⟨hs,fun _ => hf,fun e he => nomatch he⟩)
      (fun hf s hs => ⟨hs,fun he => (nomatch he),fun _ _ => hf⟩)
      (fun hf s hs => .cut (Or.inr hs) ⟨_,hf⟩)
  · rintro (a | e | _) ho
    · refine Triple.call (fun hc s hs => .done hs.1 ?_)
        (fun hc s hs => .late _ hs.1 hl ⟨_,by decide,hc⟩) (fun hc s hs => .cut (Or.inr hs.1) ⟨_,hc⟩)
      simp [dirCalls, hd, hc, hs.2.1 rfl]
    · exact Triple.call (fun hc s hs => .late e hs.1 hl ⟨.fsyncDir,by decide,hs.2.2 e rfl⟩)
        (fun hc s hs => .late _ hs.1 hl ⟨_,by decide,hc⟩) (fun hc s hs => .cut (Or.inr hs.1) ⟨_,hc⟩)
    · exact absurd rfl ho

theorem replaceSnapshot_end :
    Triple (Untouched d) (replaceSnapshot D fate rid payload) (WriteEnd D fate rid d payload) := by
  have hu : ∀ s, Untouched d s → Kept D rid d s := fun s hs => hs.kept
  have hs : ∀ s, Staged d payload s → Kept D rid d s := fun s hs => hs.1.kept
  refine Early.bind_end (R := Untouched d) (Early.call (by decide) hu (fun s h => h)) ?_
  refine get_bind (fun x hx => ?_)
  refine Early.bind_end ((refuseSymlink_early fun h => Or.inr (Or.inl (hx.1 ▸ h))).weaken
    (fun s hs => hs ▸ hx) (fun o s hs => hs)) (Triple.fact fun hls => ?_)
  refine Early.bind_end (R := Untouched d) (Early.call (by decide) hu (fun s h => h)) ?_
  refine get_bind (fun y hy => ?_)
  refine Early.bind_end ((refuseSymlink_early fun h => Or.inr (Or.inr (Or.inl (hy.2 ▸ h)))).weaken
    (fun s hs => hs ▸ hy) (fun o s hs => hs)) (Triple.fact fun hlb => ?_)
  have hl : d.Regular := ⟨hx.1 ▸ hls,hy.2 ▸ hlb⟩
  refine Early.bind_end (R := Untouched d) (Early.call (by decide) hu (fun s h => h)) ?_
  refine Early.bind_end (R := Staged d payload)
    (Early.call (by decide) hu (fun s h => ⟨h,rfl⟩)) ?_
  refine Early.bind_end (R := Staged d payload) (Early.call (by decide) hs (fun s h => h)) ?_
  refine Early.bind_end (R := Staged d payload) (Early.call (by decide) hs (fun s h => h)) ?_
  refine Early.bind_end backupOld_early ?_
  refine Early.bind_end (R := Replaced D fate rid d payload)
    (Early.call (by decide) (fun s h => h.kept) (fun s h => ⟨h.2.1,h.2.2⟩)) ?_
  cases hd : fate .openDir with
  | ok =>
    refine Triple.bind (R := fun _ => Replaced D fate rid d payload) ?_
      (fun _ => syncDir_end hl hd)
    exact Triple.call (fun _ s hs => hs) (fun h => by rw [hd] at h; cases h)
      (fun h => by rw [hd] at h; cases h)
  | fail =>
    refine Triple.bind (R := fun _ _ => False) ?_ (fun _ s hs => hs.elim)
    exact Triple.call (fun h => by rw [hd] at h; cases h)
      (fun h s hs => .late _ hs hl ⟨_,by decide,h⟩) (fun h => by rw [hd] at h; cases h)
  | cut =>
    refine Triple.bind (R := fun _ _ => False) ?_ (fun _ s hs => hs.elim)
    exact Triple.call (fun h => by rw [hd] at h; cases h) (fun h => by rw [hd] at h; cases h)
      (fun h s hs => .cut (Or.inr hs) ⟨_,h⟩)

/-- A cleaning call changes no snapshot file and raises nothing. -/
def Cleans (fate : Fates) (s : RunDir) (o : Outcome PyError Unit) (t : RunDir) : Prop :=
  Untouched s t ∧ (o = .ok () ∨ o = .cut ∧ ∃ c, fate c = .cut)

theorem sysQuiet_cleans {c : Syscall} {f : RunDir → RunDir} (hf : ∀ s, Untouched s (f s))
    (s : RunDir) : Cleans fate s (sysQuiet fate c f s).1 (sysQuiet fate c f s).2 := by
  unfold sysQuiet Faulty.handle sys Faulty.call
  cases h : fate c with
  | ok => exact ⟨hf s,Or.inl rfl⟩
  | fail => exact ⟨⟨rfl,rfl⟩,Or.inl rfl⟩
  | cut => exact ⟨⟨rfl,rfl⟩,Or.inr ⟨rfl,c,h⟩⟩

theorem unlinkLeft_cleans {c : Syscall} {left : RunDir → Node} {f : RunDir → RunDir}
    (hf : ∀ s, Untouched s (f s)) (s : RunDir) :
    Cleans fate s (unlinkLeft fate c left f s).1 (unlinkLeft fate c left f s).2 := by
  have hx : unlinkLeft fate c left f s =
      (if (left s).exists then sysQuiet fate c f else Pure.pure ()) s := rfl
  rw [hx]
  split
  · exact sysQuiet_cleans hf s
  · exact ⟨⟨rfl,rfl⟩,Or.inl rfl⟩

theorem Cleans.bind {m : OnDisk Unit} {f : Unit → OnDisk Unit} {s : RunDir}
    (hm : Cleans fate s (m s).1 (m s).2)
    (hf : ∀ t, Cleans fate t (f () t).1 (f () t).2) :
    Cleans fate s ((m >>= f) s).1 ((m >>= f) s).2 := by
  show Cleans fate s (Faulty.bind m f s).1 (Faulty.bind m f s).2
  rw [Faulty.bind]
  rcases hr : m s with ⟨o,t⟩
  rw [hr] at hm
  rcases hm.2 with rfl | ⟨rfl,hc⟩
  · have ht := hf t
    exact ⟨⟨ht.1.1.trans hm.1.1,ht.1.2.trans hm.1.2⟩,ht.2⟩
  · exact hm

theorem cleanUp_cleans (s : RunDir) : Cleans fate s (cleanUp fate s).1 (cleanUp fate s).2 :=
  Cleans.bind (sysQuiet_cleans (fun _ => ⟨rfl,rfl⟩) s) (fun t =>
    Cleans.bind (unlinkLeft_cleans (f := fun d => { d with temp := .absent })
      (fun _ => ⟨rfl,rfl⟩) t) (unlinkLeft_cleans (fun _ => ⟨rfl,rfl⟩)))

theorem Kept.of_untouched {s t : RunDir} (h : Kept D rid d s) (ht : Untouched s t) :
    Kept D rid d t :=
  ⟨ht.1.trans h.1,h.2.imp ht.2.trans (fun hb => ⟨ht.2.trans hb.1,hb.2⟩)⟩

theorem Replaced.of_untouched {s t : RunDir} (h : Replaced D fate rid d payload s)
    (ht : Untouched s t) : Replaced D fate rid d payload t :=
  ⟨ht.1.trans h.1,h.2.imp (fun hb => ⟨ht.2.trans hb.1,hb.2⟩)
    (fun hb => ⟨ht.2.trans hb.1,hb.2⟩)⟩

theorem WriteEnd.clean {o o' : Outcome PyError Unit} {s t : RunDir}
    (h : WriteEnd D fate rid d payload o s) (hc : Cleans fate s o' t) (ho : o ≠ .cut) :
    Finish (WriteEnd D fate rid d payload) o o' t := by
  obtain ⟨hu,rfl | ⟨rfl,hx⟩⟩ := hc
  · cases h with
    | done h hf => exact .done (h.of_untouched hu) hf
    | blocked e h hb => exact .blocked e (h.of_untouched hu) hb
    | late e h hl hf => exact .late e (h.of_untouched hu) hl hf
    | cut => exact absurd rfl ho
  · cases h with
    | done h hf => exact .cut (Or.inr (h.of_untouched hu)) hx
    | blocked e h hb => exact .cut (Or.inl (h.of_untouched hu)) hx
    | late e h hl hf => exact .cut (Or.inr (h.of_untouched hu)) hx
    | cut => exact absurd rfl ho

/-- Every write ends in one of the four ways, whatever the fate of its calls. -/
theorem write_end (D : Deps) (fate : Fates) (rid : String) (d : RunDir) (state : Document) :
    WriteEnd D fate rid d (.obj state.sealed) (write D fate rid state d).1
      (write D fate rid state d).2 := by
  have hu : ∀ s, Untouched d s → Kept D rid d s := fun s hs => hs.kept
  have ht : Triple (Untouched d) (write D fate rid state)
      (WriteEnd D fate rid d (.obj state.sealed)) := by
    refine Early.bind_end (R := Untouched d) ?_ ?_
    · refine Triple.handle (R := fun _ s => Untouched d s ∧ Blocked D fate rid d) ?_ ?_
      · exact Triple.call (fun _ s hs => hs) (fun hf s hs => ⟨hs,Or.inl ⟨_,by decide,hf⟩⟩)
          (fun hf s hs => ⟨hs.kept,_,hf⟩)
      · exact fun e => Triple.raise (fun s hs => ⟨hs.1.kept,hs.2⟩)
    refine Early.bind_end (R := Untouched d) (Early.call (by decide) hu (fun s h => h)) ?_
    refine Triple.after (R := WriteEnd D fate rid d (.obj state.sealed)) ?_ ?_
    · refine Triple.weaken (Q := WriteEnd D fate rid d (.obj state.sealed)) ?_
        (fun s hs => hs) ?_
      · refine Triple.handle
          (R := fun e => WriteEnd D fate rid d (.obj state.sealed) (.raised e)) ?_ ?_
        · refine replaceSnapshot_end.weaken (fun s hs => hs) ?_
          rintro (a | e | _) s hs <;> exact hs
        · intro e
          refine Triple.raise (fun s hs => ?_)
          cases hs with
          | blocked e h hb => exact .blocked _ h hb
          | late e h hl hf => exact .late _ h hl hf
      · rintro (a | e | _) s hs <;> exact hs
    · exact fun o ho s hs => hs.clean (cleanUp_cleans s) ho
  exact ht d ⟨rfl,rfl⟩

end

end PdFleet
