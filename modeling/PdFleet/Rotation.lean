import PdFleet.Envelope

/-!
# Saves that stop half way

A save renames the primary to the backup, whatever it holds, before the new envelope
takes its place. So a save that stops between the two renames leaves the old primary
alone, and the run is lost if that cannot be read.
-/

set_option autoImplicit false

namespace PdFleet.CheckpointV2

open Faulty

section

variable {D : Deps} {iso : String} {fate : Stage → Fate} {rid hash : String} {c : Checkpoint}
  {generation : ℤ} {d d' : Dir} {envelope : Obj}

/-- The two files after a save of `new` over `d`. -/
inductive Leaves (d : Dir) (new : Node) : Node → Node → Prop
  | untouched : Leaves d new d.target d.backup
  | moved (h : d.target.exists = true) : Leaves d new .absent d.target
  | installed (h : d.target.exists = true) : Leaves d new new d.target
  | placed (h : d.target.exists = false) : Leaves d new new d.backup

/-- The envelope may be saved: it is sealed, newer than what can be loaded, and no path is
a symlink. -/
structure Admitted (D : Deps) (iso rid : String) (c : Checkpoint) (hash : String) (generation : ℤ)
    (d : Dir) (envelope : Obj) : Prop where
  safe : unsafeId rid = false
  sealed : sealed D rid c hash generation = .ok envelope
  newer : ∀ v, newest iso rid none d = some v → (generationOf v : ℤ) < generation
  regular : d.target.isSymlink = false ∧ d.backup.isSymlink = false

/-- How a save over `d` ends. -/
def SaveEnd (D : Deps) (iso rid : String) (c : Checkpoint) (hash : String) (generation : ℤ)
    (d : Dir) (o : Outcome SaveError Obj) (d' : Dir) : Prop :=
  ((∀ e, o ≠ .ok e) ∧ d'.target = d.target ∧ d'.backup = d.backup) ∨
  ∃ envelope, Admitted D iso rid c hash generation d envelope ∧
    Leaves d (.document (.obj envelope)) d'.target d'.backup ∧
    ∀ e, o = .ok e → e = envelope ∧ d'.target = .document (.obj envelope)

/-- Before the rotation the two files are as they were. -/
def Before (d t : Dir) : Prop := t.target = d.target ∧ t.backup = d.backup

def InstallEnd (d : Dir) (envelope : Obj) (o : Outcome SaveError Unit) (d' : Dir) : Prop :=
  Leaves d (.document (.obj envelope)) d'.target d'.backup ∧
    (o = .ok () → d'.target = .document (.obj envelope))

theorem installEnd_before {o : Outcome SaveError Unit} (h : Before d d') (ho : o ≠ .ok ()) :
    InstallEnd d envelope o d' := by
  refine ⟨?_,fun he => absurd he ho⟩
  rw [h.1, h.2]
  exact .untouched

theorem rotate_end : Triple (fun t => Before d t ∧ t.temporary = .document (.obj envelope))
    (rotate fate)
    (Then (fun _ t => t.temporary = .document (.obj envelope) ∧
        (d.target.exists = true ∧ t.target = .absent ∧ t.backup = d.target ∨
          d.target.exists = false ∧ Before d t))
      (InstallEnd d envelope)) := by
  intro t ht
  rw [rotate, get_bind_apply]
  split
  · rename_i hex
    rw [ht.1.1] at hex
    apply Triple.call (P := fun u => Before d u ∧ u.temporary = .document (.obj envelope))
    · intro _ u hu
      exact ⟨hu.2,Or.inl ⟨hex,rfl,hu.1.1⟩⟩
    · intro _ u hu
      exact installEnd_before hu.1 (by simp)
    · intro _ u hu
      exact installEnd_before hu.1 (by simp)
    · exact ht
  · rename_i hex
    rw [ht.1.1] at hex
    exact ⟨ht.2,Or.inr ⟨by simpa using hex,ht.1⟩⟩

/-- A stage that only the temporary file can tell of. -/
theorem stage_before {P : Dir → Prop} {x : Stage} {e : SaveError} {f : Dir → Dir}
    (hp : ∀ t, P t → Before d t) :
    Triple P (stage fate x e f) (Then (fun _ t => ∃ u, P u ∧ t = f u) (InstallEnd d envelope)) := by
  refine Triple.call ?_ ?_ ?_
  · intro _ t ht
    exact ⟨t,ht,rfl⟩
  · intro _ t ht
    exact installEnd_before (hp t ht) (by simp)
  · intro _ t ht
    exact installEnd_before (hp t ht) (by simp)

theorem install_end : Triple (Before d) (install fate envelope) (InstallEnd d envelope) := by
  refine Triple.bind (stage_before (fun _ ht => ht)) (fun _ => ?_)
  refine Triple.bind (stage_before ?_) (fun _ => ?_)
  · rintro _ ⟨u,hu,rfl⟩
    exact hu
  refine Triple.bind (Triple.weaken rotate_end ?_ (fun _ _ h => h)) (fun _ => ?_)
  · rintro _ ⟨_,⟨u,hu,rfl⟩,rfl⟩
    exact ⟨hu,rfl⟩
  refine Triple.bind (R := fun _ t => InstallEnd d envelope (.ok ()) t) ?_ (fun _ => ?_)
  · refine Triple.call ?_ ?_ ?_
    · rintro _ t ⟨htemp,⟨hex,-,hb⟩ | ⟨hex,hb⟩⟩
      · refine ⟨?_,fun _ => htemp⟩
        simp only [htemp, hb]
        exact .installed hex
      · refine ⟨?_,fun _ => htemp⟩
        simp only [htemp, hb.2]
        exact .placed hex
    · rintro _ t ⟨-,⟨hex,ha,hb⟩ | ⟨-,hb⟩⟩
      · refine ⟨?_,fun h => nomatch h⟩
        rw [ha, hb]
        exact .moved hex
      · exact installEnd_before hb (by simp)
    · rintro _ t ⟨-,⟨hex,ha,hb⟩ | ⟨-,hb⟩⟩
      · refine ⟨?_,fun h => nomatch h⟩
        rw [ha, hb]
        exact .moved hex
      · exact installEnd_before hb (by simp)
  · refine Triple.call ?_ ?_ ?_
    · intro _ t ht
      exact ht
    · intro _ t ht
      exact ⟨ht.1,fun h => nomatch h⟩
    · intro _ t ht
      exact ⟨ht.1,fun h => nomatch h⟩

/-- How the handler of a save ends. -/
def Abandoned (d : Dir) (envelope : Obj) (o : Outcome SaveError Unit) (d' : Dir) : Prop :=
  o ≠ .ok () ∧ Leaves d (.document (.obj envelope)) d'.target d'.backup

theorem discard_end {e : SaveError} :
    Triple (InstallEnd d envelope (.raised e)) (discard fate e) (Abandoned d envelope) := by
  intro t ht
  rw [discard, get_bind_apply]
  split
  · refine Triple.bind (P := InstallEnd d envelope (.raised e)) (S := Abandoned d envelope)
      (R := fun _ => InstallEnd d envelope (.raised e)) ?_ (fun _ => ?_) t ht
    · refine Triple.call ?_ ?_ ?_
      · intro _ u hu
        exact hu
      · intro _ u hu
        exact ⟨by simp,hu.1⟩
      · intro _ u hu
        exact ⟨by simp,hu.1⟩
    · exact Triple.raise (fun u hu => ⟨by simp,hu.1⟩)
  · exact ⟨by simp [Faulty.raise],ht.1⟩

theorem handled_end : Triple (Before d) (handle (install fate envelope) (discard fate))
    (InstallEnd d envelope) := by
  refine Triple.handle (R := fun e => InstallEnd d envelope (.raised e)) ?_ (fun e => ?_)
  · refine Triple.weaken install_end (fun _ h => h) ?_
    intro o t h
    cases o with
    | ok u => exact h
    | raised e => exact h
    | cut => exact h
  · refine Triple.weaken discard_end (fun _ h => h) ?_
    intro o t h
    exact ⟨h.2,fun ho => absurd ho h.1⟩

/-- A save ends without a trace, or it was admitted and the rotation stopped somewhere; it
returns only with the new envelope in place. -/
theorem save_end (D : Deps) (iso : String) (fate : Stage → Fate) (rid : String) (c : Checkpoint)
    (hash : String) (generation : ℤ) (d : Dir) : SaveEnd D iso rid c hash generation d
    (save D iso fate rid c hash generation d).1 (save D iso fate rid c hash generation d).2 := by
  have hraise : ∀ (e : SaveError), SaveEnd D iso rid c hash generation d (.raised e) d :=
    fun e => Or.inl ⟨by simp,rfl,rfl⟩
  unfold save
  cases hid : unsafeId rid with
  | true => exact hraise _
  | false =>
  cases hseal : sealed D rid c hash generation with
  | error e => exact hraise _
  | ok envelope =>
  have hstage : ∀ (x : Stage) (e : SaveError), Triple (fun t => t = d) (stage fate x e id)
      (Then (fun _ t => t = d) (SaveEnd D iso rid c hash generation d)) := by
    intro x e
    refine Triple.call (fun _ t ht => ht) ?_ ?_
    · rintro _ t rfl
      exact hraise _
    · rintro _ t rfl
      exact Or.inl ⟨by simp,rfl,rfl⟩
  refine (show Triple (fun t => t = d) _ (SaveEnd D iso rid c hash generation d) from ?_) d rfl
  refine Triple.bind (R := fun e t => t = d ∧ envelope = e)
    (Triple.pure (fun t ht => ⟨ht,rfl⟩)) (fun e => Triple.fact ?_)
  rintro rfl
  refine Triple.bind (hstage _ _) (fun _ => ?_)
  refine Triple.bind (hstage _ _) (fun _ => ?_)
  rintro u rfl
  rw [get_bind_apply]
  split
  · exact hraise _
  rename_i hnew
  split
  · exact hraise _
  rename_i hreg
  have hadm : Admitted D iso rid c hash generation u envelope := by
    constructor
    · exact hid
    · exact hseal
    · intro v hv
      simpa [hv] using hnew
    · simpa using hreg
  refine Triple.bind (P := Before u) (S := SaveEnd D iso rid c hash generation u)
    (R := fun _ => Before u) ?_ (fun _ => ?_) u ⟨rfl,rfl⟩
  · refine Triple.call (fun _ t ht => ht) (fun _ t ht => ?_) (fun _ t ht => ?_)
    · exact Or.inl ⟨by simp,ht.1,ht.2⟩
    · exact Or.inl ⟨by simp,ht.1,ht.2⟩
  refine Triple.bind (R := fun _ => InstallEnd u envelope (.ok ()))
    (Triple.weaken handled_end (fun _ h => h) ?_) (fun _ => ?_)
  · intro o t ht
    cases o with
    | ok _ => exact ht
    | raised e => exact Or.inr ⟨envelope,hadm,ht.1,fun _ h => nomatch h⟩
    | cut => exact Or.inr ⟨envelope,hadm,ht.1,fun _ h => nomatch h⟩
  · refine Triple.pure (fun t ht => Or.inr ⟨envelope,hadm,ht.1,?_⟩)
    rintro _ ⟨⟩
    exact ⟨rfl,ht.2 rfl⟩

/-! ## What can be loaded afterwards -/

theorem load_ok {v : Obj} : load iso rid none none d = .ok v ↔
    unsafeId rid = false ∧ newest iso rid none d = some v := by
  unfold load
  cases hid : unsafeId rid with
  | true =>
    constructor
    · intro h
      cases h
    · intro h
      exact Bool.noConfusion h.1
  | false =>
    cases hn : newest iso rid none d with
    | none =>
      constructor
      · intro h
        cases h
      · intro h
        cases h.2
    | some w =>
      constructor
      · intro h
        cases h
        exact ⟨rfl,rfl⟩
      · rintro ⟨-,⟨⟩⟩
        rfl

theorem field_sealed (h : sealed D rid c hash generation = .ok envelope) :
    ∃ dict, c.toDict = .ok dict ∧ isHex64 hash = true ∧ 0 ≤ generation ∧
      envelope = (body rid hash generation (redact D dict)).put "checksum"
        (.str (checksum (body rid hash generation (redact D dict)))) := by
  unfold sealed at h
  obtain ⟨_,h1,h⟩ := ok_of_bind h
  obtain ⟨_,h2,h⟩ := ok_of_bind h
  obtain ⟨dict,h3,h⟩ := ok_of_bind h
  cases h
  exact ⟨dict,h3,by simpa using h1,by simpa using h2,rfl⟩

theorem checksum_put (r h : String) (g : ℤ) (v x : Json) :
    checksum ((body r h g v).put "checksum" x) = checksum (body r h g v) := by
  rw [checksum, checksum]
  congr 3

section

variable (r h : String) (g : ℤ) (v x : Json)

theorem sealed_hasExactly :
    ((body r h g v).put "checksum" x).hasExactly envelopeFields = true := rfl

theorem sealed_schema :
    ((body r h g v).put "checksum" x).field "schema_version" = some (.str schemaVersion) := rfl

theorem sealed_runId : ((body r h g v).put "checksum" x).field "run_id" = some (.str r) := rfl

theorem sealed_planHash : ((body r h g v).put "checksum" x).field "plan_hash" = some (.str h) := rfl

theorem sealed_generation :
    ((body r h g v).put "checksum" x).field "generation" = some (.int g) := rfl

theorem sealed_checkpoint : ((body r h g v).put "checksum" x).field "checkpoint" = some v := rfl

end

/-- Of a sealed envelope only the checkpoint is left for the reader to judge. -/
theorem valid_sealed {dict : Json} {expected : Option String}
    (h : sealed D rid c hash generation = .ok envelope) (hd : c.toDict = .ok dict)
    (he : ∀ e ∈ expected, e = hash) : valid iso rid expected envelope =
      (accepts (validateNested (redact D dict)) &&
        accepts ((Checkpoint.fromDict iso (redact D dict)).map (fun _ => ()))) := by
  obtain ⟨dict',hd',hhex,h0,rfl⟩ := field_sealed h
  obtain rfl : dict' = dict := Except.ok.inj (hd'.symm.trans hd)
  have hall : expected.all (fun e => hash = e) = true := by
    cases expected with
    | none => rfl
    | some e => simp [he e rfl]
  rw [valid, checksum_put, sealed_hasExactly, sealed_schema, sealed_runId, sealed_planHash,
    sealed_generation, sealed_checkpoint, Obj.field_put_self]
  simp [Json.isStr, Json.isIntFrom, hhex, hall, h0]

theorem generationOf_sealed (h : sealed D rid c hash generation = .ok envelope) :
    (generationOf envelope : ℤ) = generation := by
  obtain ⟨dict,-,-,h0,rfl⟩ := field_sealed h
  rw [generationOf, Obj.field_put_ne _ _ _ _ (by decide)]
  exact Int.toNat_of_nonneg h0

theorem candidate_sealed (h : valid iso rid none envelope = true) :
    candidate iso rid none (.document (.obj envelope)) = some envelope := by
  rw [candidate, if_pos h]

/-- There is a file that is not the temporary one at the primary's path, and it is renamed. -/
def Present (n : Node) : Prop := n.exists = true

theorem leaves_rotation (hv : valid iso rid none envelope = true) {t b : Node}
    (h : Leaves d (.document (.obj envelope)) t b) :
    TwoSlot.Rotation (Present d.target) (candidate iso rid none d.target)
      (candidate iso rid none d.backup) envelope (Present t) (candidate iso rid none t)
      (candidate iso rid none b) := by
  have hnew := candidate_sealed hv
  have hp : Present (.document (.obj envelope)) = True := by simp [Present, Node.exists]
  have ha : Present .absent = False := by simp [Present, Node.exists]
  cases h with
  | untouched => exact .untouched
  | moved h =>
    rw [ha]
    exact .moved h
  | installed h =>
    rw [hnew, hp]
    exact .installed h
  | placed h =>
    rw [hnew, hp]
    exact .placed (by simp [Present, h])

/-- A file that can be renamed over the backup is readable and not older than it. -/
def Recoverable (iso rid : String) (d : Dir) : Prop :=
  TwoSlot.Sound generationOf (Present d.target) (candidate iso rid none d.target)
    (candidate iso rid none d.backup)

/-- A save of a loadable checkpoint over a recoverable pair of files, however it ends,
leaves a recoverable pair from which the old envelope or the new one is loaded. -/
theorem recoverable_save (fate : Stage → Fate) (hr : Recoverable iso rid d)
    (hv : ∀ envelope, sealed D rid c hash generation = .ok envelope →
      valid iso rid none envelope = true) :
    Recoverable iso rid (save D iso fate rid c hash generation d).2 ∧
      ∀ s, newest iso rid none d = some s →
        ∃ s', newest iso rid none (save D iso fate rid c hash generation d).2 = some s' ∧
          generationOf s ≤ generationOf s' := by
  have hend := save_end D iso fate rid c hash generation d
  generalize (save D iso fate rid c hash generation d).1 = o at hend
  generalize (save D iso fate rid c hash generation d).2 = d' at hend ⊢
  rcases hend with ⟨-,h1,h2⟩ | ⟨envelope,hadm,hl,-⟩
  · constructor
    · rw [Recoverable, h1, h2]
      exact hr
    · intro s hs
      refine ⟨s,?_,le_refl _⟩
      rw [newest, h1, h2]
      exact hs
  · have hrot := leaves_rotation (hv envelope hadm.sealed) hl
    have hlt : ∀ s, newest iso rid none d = some s → generationOf s < generationOf envelope := by
      intro s hs
      have h1 := hadm.newer s hs
      have h2 := generationOf_sealed hadm.sealed
      omega
    constructor
    · exact TwoSlot.sound_rotation hr hlt hrot
    · intro s hs
      rcases TwoSlot.newest_rotation hr hs (hlt s hs) hrot with h | h
      · exact ⟨s,h,le_refl _⟩
      · exact ⟨envelope,h,le_of_lt (hlt s hs)⟩

/-- A save of a checkpoint that the reader accepts, with any fate. -/
inductive Saves (D : Deps) (iso rid : String) : Dir → Dir → Prop
  | save {d : Dir} (fate : Stage → Fate) (c : Checkpoint) (hash : String) (generation : ℤ)
      (hv : ∀ envelope, sealed D rid c hash generation = .ok envelope →
        valid iso rid none envelope = true) :
      Saves D iso rid d (save D iso fate rid c hash generation d).2

/-- Interrupted saves, one after another, lose nothing if the files were recoverable
before the first one. -/
theorem recoverable_saves (h : Relation.ReflTransGen (Saves D iso rid) d d')
    (hr : Recoverable iso rid d) : Recoverable iso rid d' ∧
      ∀ s, newest iso rid none d = some s →
        ∃ s', newest iso rid none d' = some s' ∧ generationOf s ≤ generationOf s' := by
  induction h with
  | refl => exact ⟨hr,fun s hs => ⟨s,hs,le_refl _⟩⟩
  | tail _ hstep ih =>
    cases hstep with
    | save fate c hash generation hv =>
      have hnext := recoverable_save fate ih.1 hv
      refine ⟨hnext.1,fun s hs => ?_⟩
      obtain ⟨u,hu,hsu⟩ := ih.2 s hs
      obtain ⟨v,hv',huv⟩ := hnext.2 u hu
      exact ⟨v,hv',le_trans hsu huv⟩

/-- A save that stops just before its second rename. -/
theorem save_stopped (hid : unsafeId rid = false)
    (hseal : sealed D rid c hash generation = .ok envelope)
    (hnew : ∀ v, newest iso rid none d = some v → (generationOf v : ℤ) < generation)
    (hreg : d.target.isSymlink = false ∧ d.backup.isSymlink = false)
    (hex : d.target.exists = true) :
    (save D iso (fun x => if x = .replace then .cut else .ok) rid c hash generation d).2 =
      ⟨.absent,d.target,.document (.obj envelope)⟩ := by
  have hany : (newest iso rid none d).any (fun v => generation ≤ generationOf v) = false := by
    cases hn : newest iso rid none d with
    | none => rfl
    | some v => simpa using hnew v hn
  simp [save, hid, hseal, hany, hreg, hex, stage, Faulty.call, bind_apply, install, rotate, handle,
    Faulty.get, Pure.pure, Faulty.pure]

/-- After every save, interrupted or not, of a loadable checkpoint with a larger
generation something as new as before can be loaded, if and only if the primary is
missing, or is readable and not older than the backup, or the save refuses a symlink. -/
theorem interrupted_save_loadable_iff (D : Deps) (iso rid : String) (c : Checkpoint)
    (hash : String) (generation : ℤ) (d : Dir) {envelope s : Obj}
    (hseal : sealed D rid c hash generation = .ok envelope)
    (hvalid : valid iso rid none envelope = true)
    (hs : load iso rid none none d = .ok s) (hgen : (generationOf s : ℤ) < generation) :
    (∀ fate, ∃ s', load iso rid none none (save D iso fate rid c hash generation d).2 = .ok s' ∧
        generationOf s ≤ generationOf s') ↔
      d.target.isSymlink = true ∨ d.backup.isSymlink = true ∨ d.target = .absent ∨
        ∃ x, candidate iso rid none d.target = some x ∧
          ∀ y, candidate iso rid none d.backup = some y → generationOf y ≤ generationOf x := by
  obtain ⟨hid,hn⟩ := load_ok.mp hs
  constructor
  · intro h
    by_contra hno
    simp only [not_or] at hno
    obtain ⟨h1,h2,h3,h4⟩ := hno
    have hex : d.target.exists = true := by
      cases ht : d.target with
      | absent => exact absurd ht h3
      | _ => rfl
    obtain ⟨s',hl,hle⟩ := h (fun x => if x = .replace then .cut else .ok)
    have hnew : ∀ v, newest iso rid none d = some v → (generationOf v : ℤ) < generation := by
      intro v hv
      rw [hn] at hv
      cases hv
      exact hgen
    rw [save_stopped hid hseal hnew ⟨by simpa using h1,by simpa using h2⟩ hex] at hl
    exact h4 (TwoSlot.sound_of_moved hn ⟨s',(load_ok.mp hl).2,hle⟩)
  · intro h fate
    have hv : ∀ e, sealed D rid c hash generation = .ok e → valid iso rid none e = true := by
      intro e he
      rw [hseal] at he
      cases he
      exact hvalid
    by_cases hreg : d.target.isSymlink = false ∧ d.backup.isSymlink = false
    · have hr : Recoverable iso rid d := by
        intro hp
        rcases h with h | h | h | h
        · exact absurd (hreg.1.symm.trans h) (by decide)
        · exact absurd (hreg.2.symm.trans h) (by decide)
        · rw [h] at hp
          cases hp
        · exact h
      obtain ⟨s',hs',hle⟩ := (recoverable_save fate hr hv).2 s hn
      exact ⟨s',load_ok.mpr ⟨hid,hs'⟩,hle⟩
    · rcases save_end D iso fate rid c hash generation d with ⟨-,h1,h2⟩ | ⟨e,hadm,-⟩
      · refine ⟨s,load_ok.mpr ⟨hid,?_⟩,le_refl _⟩
        rw [newest, h1, h2]
        exact hn
      · exact absurd hadm.regular hreg

end

/-! ## One run -/

def plainDeps : Deps := ⟨.ok,fun _ => false⟩

def sampleHash : String := String.ofList (List.replicate 64 '0')

def sampleCheckpoint : Checkpoint :=
  ⟨.int 1,.str "f",.int 0,[("t",.obj [("id",.str "t")])],[],.arr [],.arr [],.arr [],.str "now"⟩

def sampleEnvelope (c : Checkpoint) (generation : ℤ) : Obj :=
  (body "r" sampleHash generation (redact plainDeps (.obj c.fields))).put "checksum"
    (.str (checksum (body "r" sampleHash generation (redact plainDeps (.obj c.fields)))))

theorem sample_sealed {c : Checkpoint} {generation : ℤ} (hc : c.validate = .ok ())
    (h : 0 ≤ generation) :
    sealed plainDeps "r" c sampleHash generation = .ok (sampleEnvelope c generation) := by
  have hhex : refuse (!isHex64 sampleHash) "plan_hash inválido" = .ok () :=
    refuse_ok.mpr (by decide)
  have hgen : refuse (generation < 0) "generation inválida" = .ok () :=
    refuse_ok.mpr (by simpa using h)
  rw [sealed, hhex, hgen, Checkpoint.toDict, hc]
  rfl

theorem sample_validate : sampleCheckpoint.validate = .ok () := rfl

theorem sample_valid {generation : ℤ} (h : 0 ≤ generation) :
    valid "now" "r" none (sampleEnvelope sampleCheckpoint generation) = true := by
  rw [valid_sealed (sample_sealed sample_validate h) rfl
    (by simp)]
  decide +kernel

/-- The sample at generation zero beside some primary. -/
def sampleDir (primary : Node) : Dir :=
  ⟨primary,.document (.obj (sampleEnvelope sampleCheckpoint 0)),.absent⟩

theorem rotated_load {t : Node} (ht : candidate "now" "r" none t = none) :
    load "now" "r" none none (sampleDir t) = .ok (sampleEnvelope sampleCheckpoint 0) := by
  rw [load_ok]
  refine ⟨by decide,?_⟩
  rw [sampleDir, newest, ht, candidate_sealed (sample_valid (le_refl 0))]
  rfl

theorem sample_older : (generationOf (sampleEnvelope sampleCheckpoint 0) : ℤ) < 1 := by
  rw [generationOf_sealed (sample_sealed sample_validate (le_refl 0))]
  decide

/-- A valid backup beside a missing primary survives a save that is cut at its replacement. -/
theorem interrupted_save_loadable_missing : ∃ s',
    load "now" "r" none none
        (save plainDeps "now" (fun x => if x = .replace then .cut else .ok) "r" sampleCheckpoint
          sampleHash 1 (sampleDir .absent)).2 = .ok s' ∧
      generationOf (sampleEnvelope sampleCheckpoint 0) ≤ generationOf s' :=
  (interrupted_save_loadable_iff plainDeps "now" "r" sampleCheckpoint sampleHash 1
    (sampleDir .absent) (sample_sealed sample_validate (by decide)) (sample_valid (by decide))
    (rotated_load rfl) sample_older).mpr (Or.inr (Or.inr (Or.inl rfl))) _

/-- Beside a garbled primary it does not: the save renames the garbled file over it. -/
theorem interrupted_save_loses :
    sealed plainDeps "r" sampleCheckpoint sampleHash 1 = .ok (sampleEnvelope sampleCheckpoint 1) ∧
    valid "now" "r" none (sampleEnvelope sampleCheckpoint 1) = true ∧
    (generationOf (sampleEnvelope sampleCheckpoint 0) : ℤ) < 1 ∧
    load "now" "r" none none (sampleDir .garbled) = .ok (sampleEnvelope sampleCheckpoint 0) ∧
    ∃ fate, ∀ s', load "now" "r" none none
      (save plainDeps "now" fate "r" sampleCheckpoint sampleHash 1 (sampleDir .garbled)).2 ≠
        .ok s' := by
  have hload := rotated_load (t := .garbled) rfl
  refine ⟨sample_sealed sample_validate (by decide),sample_valid (by decide),sample_older,hload,
    fun x => if x = .replace then .cut else .ok,fun s' h => ?_⟩
  rw [save_stopped (by decide) (sample_sealed sample_validate (by decide)) ?_ ⟨rfl,rfl⟩ rfl] at h
  · cases (load_ok.mp h).2
  · intro v hv
    rw [(load_ok.mp hload).2] at hv
    cases hv
    exact sample_older

end PdFleet.CheckpointV2
