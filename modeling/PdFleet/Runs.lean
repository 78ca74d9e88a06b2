import PdFleet.History
import PdFleet.WriteOutcome

/-!
# Sections on the run directory

What a section does to the files, and the runs that start with `create`. The
state that the reader finds moves only by what sections write and the reader
accepts; a state that it refuses leaves the one before it in the backup.
-/

set_option autoImplicit false

namespace PdFleet

open Dict Faulty

/-! ## Reading the two files -/

/-- The state that the reader finds in the run directory. -/
def Reads (D : Deps) (rid : String) (d : RunDir) (s : Snapshot) : Prop :=
  validSnapshot D rid d = .ok (some s)

def readable (D : Deps) (rid : String) (n : Node) : Option Snapshot :=
  match readNode D rid n with
  | .accept s => some s
  | _ => none

theorem readable_eq_some {D : Deps} {rid : String} {n : Node} {s : Snapshot} :
    readable D rid n = some s ↔ readNode D rid n = .accept s := by
  rw [readable]
  cases readNode D rid n <;> simp

theorem readable_isSome {D : Deps} {rid : String} {n : Node} :
    (readable D rid n).isSome ↔ Accepted D rid n := by
  rw [Option.isSome_iff_exists]
  exact exists_congr (fun s => readable_eq_some)

theorem valid_of_readable {D : Deps} {rid : String} {n : Node} {s : Snapshot}
    (h : readable D rid n = some s) : s.Valid D rid := by
  rw [readable_eq_some] at h
  cases n with
  | document j => exact valid_of_validate h
  | absent => cases h
  | symlink => cases h
  | garbled => cases h

theorem toExcept_of_quiet {D : Deps} {rid : String} {n : Node} (h : Quiet D rid n) :
    (readNode D rid n).toExcept = .ok (readable D rid n) := by
  rw [readable]
  cases hr : readNode D rid n with
  | accept s => rfl
  | reject => rfl
  | raise e => exact absurd hr (h e)

theorem validSnapshot_of_quiet {D : Deps} {rid : String} {d : RunDir}
    (hs : Quiet D rid d.snapshot) (hb : Quiet D rid d.bak) :
    validSnapshot D rid d = .ok (TwoSlot.newest Snapshot.generation
      (readable D rid d.snapshot) (readable D rid d.bak)) := by
  rw [validSnapshot, toExcept_of_quiet hs, toExcept_of_quiet hb]
  rfl

theorem reads_quiet {D : Deps} {rid : String} {d : RunDir} {s : Snapshot}
    (h : Reads D rid d s) : Quiet D rid d.snapshot ∧ Quiet D rid d.bak := by
  rw [Reads, validSnapshot] at h
  obtain ⟨p,hp,h⟩ := ok_of_bind h
  obtain ⟨b,hb,-⟩ := ok_of_bind h
  constructor <;> intro e he
  · rw [he] at hp
    cases hp
  · rw [he] at hb
    cases hb

theorem reads_newest {D : Deps} {rid : String} {d : RunDir} {s : Snapshot}
    (h : Reads D rid d s) : TwoSlot.newest Snapshot.generation
      (readable D rid d.snapshot) (readable D rid d.bak) = some s := by
  have hq := reads_quiet h
  rw [Reads, validSnapshot_of_quiet hq.1 hq.2] at h
  exact Except.ok.inj h

theorem reads_valid {D : Deps} {rid : String} {d : RunDir} {s : Snapshot}
    (h : Reads D rid d s) : s.Valid D rid :=
  (TwoSlot.newest_mem (reads_newest h)).elim valid_of_readable valid_of_readable

theorem reads_unique {D : Deps} {rid : String} {d : RunDir} {s t : Snapshot}
    (hs : Reads D rid d s) (ht : Reads D rid d t) : s = t := by
  rw [Reads, hs] at ht
  exact Option.some.inj (Except.ok.inj ht)

theorem load_eq_ok {D : Deps} {rid : String} {d : RunDir} {s : Snapshot} :
    load D rid d = .ok s ↔ Reads D rid d s := by
  rw [load, Reads]
  cases h : validSnapshot D rid d with
  | error e => simp
  | ok o =>
    cases o with
    | some t => simp
    | none =>
      simp only [Except.ok.injEq, reduceCtorEq, iff_false]
      split_ifs <;> simp

/-! ## One section -/

/-- The ways in which a section can go. -/
inductive Performed (D : Deps) (fate : Fates) (rid : String) (a : Action) (x : Draws)
    (d : RunDir) : Outcome PyError Reply → RunDir → Prop
  | refused (e : PyError) : Performed D fate rid a x d (.raised e) d
  | answered (s : Snapshot) (r : Reply) (body : Body) (hr : Reads D rid d s)
      (hb : a.prepare D x = .ok body) (h : body s = .ok (none,r)) :
      Performed D fate rid a x d (.ok r) d
  | wrote (s c : Snapshot) (r : Reply) (body : Body) (hr : Reads D rid d s)
      (hb : a.prepare D x = .ok body) (h : body s = .ok (some c,r)) (d' : RunDir)
      (hw : write D fate rid c.document d = (.ok (),d')) :
      Performed D fate rid a x d (.ok r) d'
  | failed (s c : Snapshot) (r : Reply) (body : Body) (hr : Reads D rid d s)
      (hb : a.prepare D x = .ok body) (h : body s = .ok (some c,r)) (e : PyError) (d' : RunDir)
      (hw : write D fate rid c.document d = (.raised e,d')) :
      Performed D fate rid a x d (.raised e) d'
  | stopped (s c : Snapshot) (r : Reply) (body : Body) (hr : Reads D rid d s)
      (hb : a.prepare D x = .ok body) (h : body s = .ok (some c,r)) (d' : RunDir)
      (hw : write D fate rid c.document d = (.cut,d')) :
      Performed D fate rid a x d .cut d'

section

variable {D : Deps} {fate : Fates} {rid : String} {a : Action} {x : Draws} {d d' : RunDir}

theorem locked_performed {body : Body} (hb : a.prepare D x = .ok body) :
    Performed D fate rid a x d (locked D fate rid body d).1 (locked D fate rid body d).2 := by
  unfold locked
  rw [get_bind_apply]
  cases hv : validSnapshot D rid d with
  | error e => exact .refused e
  | ok o =>
    rw [ofExcept_ok_bind]
    cases o with
    | none => exact .refused _
    | some s =>
      dsimp only
      cases h : body s with
      | error e => exact .refused e
      | ok p =>
        obtain ⟨o,r⟩ := p
        rw [ofExcept_ok_bind]
        cases o with
        | none => exact .answered s r body hv hb h
        | some c =>
          dsimp only
          rw [bind_apply]
          rcases hw : write D fate rid c.document d with ⟨o,d'⟩
          cases o with
          | ok u => exact .wrote s c r body hv hb h d' hw
          | raised e => exact .failed s c r body hv hb h e d' hw
          | cut => exact .stopped s c r body hv hb h d' hw

theorem perform_eq_locked (h : a ≠ .load) :
    perform D fate rid a x = (Faulty.ofExcept (a.prepare D x) >>= locked D fate rid) := by
  cases a with
  | load => exact absurd rfl h
  | use t k o => rfl
  | transition st o g => rfl
  | updateTaskStatus t st o g => rfl
  | appendTerminalEventIfAbsent t o g => rfl
  | appendEvent e o g => rfl
  | claim t o n g => rfl
  | claimMany ts o m n f => rfl
  | renew t k o n => rfl
  | commit t k o r st => rfl
  | release k o => rfl
  | dropStale t now o g => rfl

/-- Every section goes in one of the five ways. -/
theorem perform_performed (D : Deps) (fate : Fates) (rid : String) (x : Draws) (d : RunDir)
    (a : Action) :
    Performed D fate rid a x d (perform D fate rid a x d).1 (perform D fate rid a x d).2 := by
  by_cases hl : a = .load
  · subst hl
    rw [show perform D fate rid .load x = readState D rid from rfl, readState, get_bind_apply]
    cases hl : load D rid d with
    | error e => exact .refused e
    | ok s => exact .answered s _ _ (load_eq_ok.mp hl) rfl rfl
  · rw [perform_eq_locked hl]
    cases hb : a.prepare D x with
    | error e => exact .refused e
    | ok body => exact locked_performed hb

end

/-! ## Writes without faults -/

def sealedNode (s : Snapshot) : Node := .document (.obj s.document.sealed)

/-- The section `a` writes `c` over `s` and replies `r`. -/
def Writes (D : Deps) (a : Action) (x : Draws) (s c : Snapshot) (r : Reply) : Prop :=
  ∃ body, a.prepare D x = .ok body ∧ body s = .ok (some c,r)

/-- The section `a` replies `r` to the state `s` and writes nothing. -/
def Answers (D : Deps) (a : Action) (x : Draws) (s : Snapshot) (r : Reply) : Prop :=
  ∃ body, a.prepare D x = .ok body ∧ body s = .ok (none,r)

section

variable {D : Deps} {rid : String} {d d' : RunDir} {s c : Snapshot} {a : Action} {x : Draws}
  {r : Reply} {P : Action → Prop}

theorem readable_sealed : readable D rid (sealedNode s) = some c ↔ c = s ∧ s.Valid D rid :=
  readable_eq_some.trans validate_sealed_iff

theorem quiet_sealed (h : s.Plain D) : Quiet D rid (sealedNode s) := calm_validate_sealed h

theorem quiet_of_readable {n : Node} (h : readable D rid n = some s) : Quiet D rid n := by
  intro e he
  rw [readable, he] at h
  cases h

theorem quiet_absent : Quiet D rid .absent := fun _ h => nomatch h

theorem accepted_of_readable {n : Node} (h : readable D rid n = some s) : Accepted D rid n :=
  ⟨s,readable_eq_some.mp h⟩

/-- The state that is found after a write of `c` over `s`. -/
def after (D : Deps) (rid : String) (s c : Snapshot) : Snapshot :=
  (readable D rid (sealedNode c)).getD s

theorem after_valid (h : c.Valid D rid) : after D rid s c = c := by
  rw [after, readable_sealed.mpr ⟨rfl,h⟩, Option.getD_some]

theorem after_refused (h : ¬ c.Valid D rid) : after D rid s c = s := by
  rw [after, Option.eq_none_iff_forall_ne_some.mpr
    (fun e he => h (readable_sealed.mp he).2), Option.getD_none]

/-- The files of a directory whose state is `s`: the primary holds `s` over a backup
that is no newer, or nothing that the reader accepts and the backup holds `s`. -/
inductive Files (D : Deps) (rid : String) (s : Snapshot) (d : RunDir) : Prop
  | current (hp : readable D rid d.snapshot = some s) (hq : Quiet D rid d.bak)
      (hb : ∀ b, readable D rid d.bak = some b → b.generation ≤ s.generation) : Files D rid s d
  | passed (hq : Quiet D rid d.snapshot) (hp : readable D rid d.snapshot = none)
      (hb : readable D rid d.bak = some s) : Files D rid s d

theorem files_reads (h : Files D rid s d) : Reads D rid d s := by
  cases h with
  | current hp hq hb =>
    rw [Reads, validSnapshot_of_quiet (quiet_of_readable hp) hq, hp,
      TwoSlot.newest_of_ordered]
    intro u v hu hv
    cases hu
    exact hb v hv
  | passed hq hp hb =>
    rw [Reads, validSnapshot_of_quiet hq (quiet_of_readable hb), hp, hb]
    rfl

/-- The files are in order unless an accepted primary is older than the backup. -/
theorem files_of_reads (h : Reads D rid d s)
    (ho : ∀ p, readable D rid d.snapshot = some p → p = s) : Files D rid s d := by
  have hq := reads_quiet h
  have hn := reads_newest h
  cases hp : readable D rid d.snapshot with
  | none =>
    rw [hp, TwoSlot.newest_none] at hn
    exact .passed hq.1 hp hn
  | some p =>
    rw [ho p hp] at hp
    exact .current hp hq.2 (TwoSlot.le_newest hn).2

/-- Where a write over readable files leaves them. -/
inductive Wrote (D : Deps) (rid : String) (s c : Snapshot) :
    Outcome PyError Unit → RunDir → Prop
  | done (d' : RunDir) (hp : d'.snapshot = sealedNode c)
      (h : Files D rid (after D rid s c) d') : Wrote D rid s c (.ok ()) d'
  | blocked (e : PyError) (d' : RunDir) (h : Files D rid s d') : Wrote D rid s c (.raised e) d'

theorem files_replaced {fate : Fates} (h : Files D rid s d) (hc : c.Plain D)
    (hg : s.generation ≤ c.generation) (hf : fate .readOld = .ok)
    (hr : Replaced D fate rid d (.obj c.document.sealed) d') :
    Files D rid (after D rid s c) d' := by
  obtain ⟨hsnap,hbak⟩ := hr
  -- the backup holds the old state, or an older one under a refused primary
  have hb : readable D rid d'.bak = some s := by
    cases h with
    | current hp hq hb =>
      rcases hbak with ⟨-,hn | hn⟩ | ⟨hb',-⟩
      · exact absurd (accepted_of_readable hp) hn
      · exact absurd hf hn
      · rw [hb', hp]
    | passed hq hp hb =>
      rcases hbak with ⟨hb',-⟩ | ⟨-,ha⟩
      · rw [hb', hb]
      · rw [← readable_isSome, hp] at ha
        cases ha
  by_cases hv : c.Valid D rid
  · rw [after_valid hv]
    refine .current (by rw [hsnap]; exact readable_sealed.mpr ⟨rfl,hv⟩)
      (quiet_of_readable hb) (fun b hb' => ?_)
    rw [hb] at hb'
    cases hb'
    exact hg
  · rw [after_refused hv]
    refine .passed (by rw [hsnap]; exact quiet_sealed hc) ?_ hb
    rw [hsnap]
    exact Option.eq_none_iff_forall_ne_some.mpr (fun e he => hv (readable_sealed.mp he).2)

theorem files_kept (h : Files D rid s d) (hk : Kept D rid d d') : Files D rid s d' := by
  obtain ⟨hs,hb | ⟨hb,ha⟩⟩ := hk
  · cases h with
    | current hp hq hb' => exact .current (by rw [hs, hp]) (by rw [hb]; exact hq) (by rwa [hb])
    | passed hq hp hb' => exact .passed (by rw [hs]; exact hq) (by rw [hs, hp]) (by rw [hb, hb'])
  · cases h with
    | current hp hq hb' =>
      refine .current (by rw [hs, hp]) (by rw [hb]; exact quiet_of_readable hp) (fun b hbb => ?_)
      rw [hb, hp] at hbb
      cases hbb
      exact le_refl _
    | passed hq hp hb' =>
      rw [← readable_isSome, hp] at ha
      cases ha

theorem files_write (h : Files D rid s d) (hc : c.Plain D) (hg : s.generation ≤ c.generation) :
    Wrote D rid s c (write D allOk rid c.document d).1 (write D allOk rid c.document d).2 := by
  have hend := write_end D allOk rid d c.document
  generalize (write D allOk rid c.document d).1 = o at hend
  generalize (write D allOk rid c.document d).2 = e at hend
  cases hend with
  | done hr _ => exact .done _ hr.1 (files_replaced h hc hg rfl hr)
  | blocked e hk _ => exact .blocked e _ (files_kept h hk)
  | late e _ _ hf =>
    obtain ⟨c,-,hc⟩ := hf
    cases hc
  | cut _ hc =>
    obtain ⟨c,hc⟩ := hc
    cases hc

/-- What a section does to files in order. -/
inductive SectionEnd (D : Deps) (rid : String) (a : Action) (x : Draws) (d : RunDir)
    (s : Snapshot) : Outcome PyError Reply → RunDir → Prop
  | refused (e : PyError) (d' : RunDir) (h : Files D rid s d') :
      SectionEnd D rid a x d s (.raised e) d'
  | answered (r : Reply) (h : Answers D a x s r) : SectionEnd D rid a x d s (.ok r) d
  | wrote (c : Snapshot) (r : Reply) (hw : Writes D a x s c r) (d' : RunDir)
      (hp : d'.snapshot = sealedNode c) (h : Files D rid (after D rid s c) d') :
      SectionEnd D rid a x d s (.ok r) d'

theorem writes_next (h : Writes D a x s c r) : Next D s c ∨ ∃ given, NextEvent D s given c := by
  obtain ⟨body,hb,h⟩ := h
  rcases action_next hb h with hn | ⟨given,o,g,-,hn⟩
  · exact Or.inl hn
  · exact Or.inr ⟨given,hn⟩

def Action.appendsEvent : Action → Bool
  | appendEvent _ _ _ => true
  | _ => false

theorem writes_next_of (ha : a.appendsEvent = false) (h : Writes D a x s c r) : Next D s c := by
  obtain ⟨body,hb,h⟩ := h
  rcases action_next hb h with hn | ⟨given,o,g,rfl,-⟩
  · exact hn
  · cases ha

/-- What a section writes is valid, but for the events of callers. -/
theorem writes_valid (hs : s.Valid D rid) (hc : Coherent s) (ha : a.appendsEvent = false)
    (h : Writes D a x s c r) : c.Valid D rid := valid_next hs hc (writes_next_of ha h)

theorem writes_plain (hs : s.Plain D) (h : Writes D a x s c r) : c.Plain D := by
  rcases writes_next h with hn | ⟨given,hn⟩
  · exact plain_next hs hn
  · exact plain_nextEvent hs hn

/-- What a section writes grows out of the state it read. -/
theorem writes_extends (h : Writes D a x s c r) :
    Extends s c ∧ c.generation = s.generation+1 := by
  rcases writes_next h with hn | ⟨given,hn⟩
  · exact next_extends hn
  · exact nextEvent_extends hn

theorem writes_coherent (hs : Coherent s) (h : Writes D a x s c r) : Coherent c := by
  rcases writes_next h with hn | ⟨given,hn⟩
  · exact coherent_next hs hn
  · exact coherent_nextEvent hs hn

theorem files_perform (h : Files D rid s d) (a : Action) (x : Draws) :
    SectionEnd D rid a x d s (perform D allOk rid a x d).1 (perform D allOk rid a x d).2 := by
  have hr := files_reads h
  have hp := perform_performed D allOk rid x d a
  have key : ∀ s' c r body o d', Reads D rid d s' → a.prepare D x = .ok body →
      body s' = .ok (some c,r) → write D allOk rid c.document d = (o,d') →
        Writes D a x s c r ∧ Wrote D rid s c o d' := by
    intro s' c r body o d' hr' hb hbody hw
    rw [reads_unique hr' hr] at hbody
    have hwr : Writes D a x s c r := ⟨body,hb,hbody⟩
    have hf := files_write h (writes_plain (reads_valid hr).plain hwr)
      (by have := (writes_extends hwr).2; omega)
    rw [hw] at hf
    exact ⟨hwr,hf⟩
  generalize (perform D allOk rid a x d).1 = o at hp
  generalize (perform D allOk rid a x d).2 = e at hp
  cases hp with
  | refused e => exact .refused e d h
  | answered s' r body hr' hb hbody =>
    rw [reads_unique hr' hr] at hbody
    exact .answered r ⟨body,hb,hbody⟩
  | wrote s' c r body hr' hb hbody d' hw =>
    obtain ⟨hwr,hf⟩ := key s' c r body _ _ hr' hb hbody hw
    cases hf with
    | done _ hp hf => exact .wrote c r hwr _ hp hf
  | failed s' c r body hr' hb hbody e d' hw =>
    obtain ⟨-,hf⟩ := key s' c r body _ _ hr' hb hbody hw
    cases hf with
    | blocked _ _ hf => exact .refused e _ hf
  | stopped s' c r body hr' hb hbody d' hw =>
    obtain ⟨-,hf⟩ := key s' c r body _ _ hr' hb hbody hw
    cases hf

/-- Where there is no symlink, a write whose calls succeed puts the state in place. -/
theorem write_allOk (hr : Reads D rid d s) (hl : d.Regular) (state : Document) :
    ∃ d', write D allOk rid state d = (.ok (),d') ∧
      Replaced D allOk rid d (.obj state.sealed) d' := by
  have hend := write_end D allOk rid d state
  rcases hw : write D allOk rid state d with ⟨o,d'⟩
  rw [hw] at hend
  cases hend with
  | done h _ => exact ⟨d',rfl,h⟩
  | blocked e _ hbl =>
    rcases hbl with ⟨c,-,hc⟩ | hx | hx | ⟨e,he⟩
    · cases hc
    · rw [hl.1] at hx
      cases hx
    · rw [hl.2] at hx
      cases hx
    · exact absurd he ((reads_quiet hr).1 e)
  | late e _ _ hf =>
    obtain ⟨c,-,hc⟩ := hf
    cases hc
  | cut _ hc =>
    obtain ⟨c,hc⟩ := hc
    cases hc

theorem perform_of_writes {fate : Fates} (hr : Reads D rid d s) (hw : Writes D a x s c r) :
    perform D fate rid a x d =
      (write D fate rid c.document >>= fun _ => (Pure.pure r : OnDisk Reply)) d := by
  obtain ⟨body,hp,hbody⟩ := hw
  have hload : a ≠ .load := by
    rintro rfl
    cases hp
    cases hbody
  rw [perform_eq_locked hload, hp, ofExcept_ok_bind]
  unfold locked
  rw [get_bind_apply, hr, ofExcept_ok_bind]
  dsimp only
  rw [hbody, ofExcept_ok_bind]

/-- A section that refuses the state leaves the files alone. -/
theorem perform_refused {fate : Fates} {body : Body} {e : PyError} (ha : a ≠ .load)
    (hr : Reads D rid d s) (hb : a.prepare D x = .ok body) (he : body s = .error e) :
    perform D fate rid a x d = (.raised e,d) := by
  rw [perform_eq_locked ha, hb, ofExcept_ok_bind]
  unfold locked
  rw [get_bind_apply, hr, ofExcept_ok_bind]
  dsimp only
  rw [he]
  rfl

/-- A section that has nothing to write answers and leaves the files alone. -/
theorem perform_answered {fate : Fates} (ha : a ≠ .load) (hr : Reads D rid d s)
    (h : Answers D a x s r) : perform D fate rid a x d = (.ok r,d) := by
  obtain ⟨body,hb,hbody⟩ := h
  rw [perform_eq_locked ha, hb, ofExcept_ok_bind]
  unfold locked
  rw [get_bind_apply, hr, ofExcept_ok_bind]
  dsimp only
  rw [hbody]
  rfl

theorem perform_load {fate : Fates} (hr : Reads D rid d s) :
    perform D fate rid .load x d = (.ok (.state s),d) := by
  rw [show perform D fate rid .load x = readState D rid from rfl, readState, get_bind_apply,
    load_eq_ok.mpr hr]
  rfl

theorem perform_raised {fate : Fates} {e : PyError} (hr : Reads D rid d s)
    (hw : Writes D a x s c r) (h : write D fate rid c.document d = (.raised e,d')) :
    perform D fate rid a x d = (.raised e,d') := by
  rw [perform_of_writes hr hw, bind_apply, h]

/-- Where there is no symlink, a section that has something to write returns. -/
theorem perform_writes (hr : Reads D rid d s) (hl : d.Regular) (hw : Writes D a x s c r) :
    ∃ d', perform D allOk rid a x d = (.ok r,d') ∧
      Replaced D allOk rid d (.obj c.document.sealed) d' := by
  obtain ⟨d',hwrite,hrep⟩ := write_allOk hr hl c.document
  refine ⟨d',?_,hrep⟩
  rw [perform_of_writes hr hw, bind_apply, hwrite]
  rfl

theorem files_moves (h : Files D rid s d) (hr : d.Regular) (hw : Writes D a x s c r)
    (hv : c.Valid D rid) :
    ∃ d', perform D allOk rid a x d = (.ok r,d') ∧ d'.Regular ∧ Files D rid c d' := by
  have hs := files_reads h
  obtain ⟨d',hp,hrep⟩ := perform_writes hs hr hw
  have hf := files_replaced h (writes_plain (reads_valid hs).plain hw)
    (by have := (writes_extends hw).2; omega) rfl hrep
  rw [after_valid hv] at hf
  refine ⟨d',hp,⟨by rw [hrep.1]; rfl,?_⟩,hf⟩
  rcases hrep.2 with ⟨hb,-⟩ | ⟨hb,-⟩ <;> rw [hb]
  · exact hr.2
  · exact hr.1

/-! ## Runs of sections -/

/-- A section of a kind in `P` that moves the state of a run from `s` to `c`. -/
def Moves (D : Deps) (rid : String) (P : Action → Prop) (s c : Snapshot) : Prop :=
  c.Valid D rid ∧ ∃ a x r, P a ∧ Writes D a x s c r

def Course (D : Deps) (rid : String) (P : Action → Prop) : Snapshot → Snapshot → Prop :=
  Relation.ReflTransGen (Moves D rid P)

theorem files_section (h : Files D rid s d)
    (hd : System.Section (perform D allOk rid) P d d') :
    ∃ c, Files D rid c d' ∧ Course D rid P s c := by
  obtain ⟨a,x,ha,rfl⟩ := hd
  have hst := files_perform h a x
  generalize (perform D allOk rid a x d).1 = o at hst
  generalize (perform D allOk rid a x d).2 = e at hst
  cases hst with
  | refused e d' h => exact ⟨s,h,.refl⟩
  | answered r hr => exact ⟨s,h,.refl⟩
  | wrote c r hw d' hp hf =>
    by_cases hv : c.Valid D rid
    · rw [after_valid hv] at hf
      exact ⟨c,hf,.single ⟨hv,a,x,r,ha,hw⟩⟩
    · rw [after_refused hv] at hf
      exact ⟨s,hf,.refl⟩

/-- Sections on files in order leave them in order, and move their state by what
they write and the reader accepts. -/
theorem files_sections (h : Files D rid s d)
    (hd : System.Sections (perform D allOk rid) P d d') :
    ∃ c, Files D rid c d' ∧ Course D rid P s c := by
  induction hd with
  | refl => exact ⟨s,h,.refl⟩
  | tail _ hd ih =>
    obtain ⟨c,hc,hm⟩ := ih
    obtain ⟨c',hc',hm'⟩ := files_section hc hd
    exact ⟨c',hc',hm.trans hm'⟩

theorem course_coherent (hs : Coherent s) (h : Course D rid P s c) : Coherent c := by
  induction h with
  | refl => exact hs
  | tail _ hm ih =>
    obtain ⟨-,a,x,r,-,hw⟩ := hm
    exact writes_coherent ih hw

theorem course_extends (h : Course D rid P s c) : Extends s c := by
  induction h with
  | refl => exact Extends.refl s
  | tail _ hm ih =>
    obtain ⟨-,a,x,r,-,hw⟩ := hm
    exact ih.trans (writes_extends hw).1

/-! ## The start of a run -/

/-- The directory after a `create` with the initial state `initial` that returned. -/
def Created (D : Deps) (rid : String) (initial : Option Json) (d : RunDir) : Prop :=
  ∃ plan owner now o, create D allOk rid plan owner initial now RunDir.empty = (.ok o,d)

/-- A state that `create` makes with no initial state. -/
def Fresh (s : Snapshot) : Prop :=
  ∃ rid hash plan owner now, s = freshSnapshot rid hash plan owner now

theorem of_createState {plan now : Json} {owner : String} {state : Document}
    (h : createState D rid plan owner now = .ok state) : ∃ s, Fresh s ∧ state = s.document := by
  obtain ⟨rid',hrid,h⟩ := ok_of_bind h
  dsimp only at h
  split at h
  · cases h
  cases plan with
  | obj p =>
    obtain ⟨p',-,h⟩ := ok_of_bind h
    obtain ⟨canonical,-,h⟩ := ok_of_bind h
    obtain ⟨now',hn,h⟩ := ok_of_bind h
    obtain ⟨hash,-,h⟩ := ok_of_bind h
    cases h
    exact ⟨_,⟨_,hash,canonical,owner,now',rfl⟩,rfl⟩
  | null => cases h
  | bool b => cases h
  | int n => cases h
  | float r => cases h
  | str t => cases h
  | arr xs => cases h

/-- A `create` that returns has put one document in place. -/
theorem created_document {initial : Option Json} (h : Created D rid initial d) :
    d.bak = .absent ∧ ∃ state : Document, d.snapshot = .document (.obj state.sealed) ∧
      (initial = none → ∃ s, Fresh s ∧ state = s.document) := by
  obtain ⟨plan,owner,now,o,h⟩ := h
  unfold create at h
  cases hs : createState D rid plan owner now with
  | error e =>
    rw [hs] at h
    cases h
  | ok state =>
    obtain ⟨s,hf,rfl⟩ := of_createState hs
    rw [hs, ofExcept_ok_bind, bind_apply] at h
    simp only [sys, allOk, Faulty.call, id] at h
    rw [get_bind_apply, if_neg (by decide)] at h
    cases hi : withInitial D s.document initial with
    | error e =>
      rw [hi] at h
      cases h
    | ok state =>
      rw [hi, ofExcept_ok_bind, bind_apply] at h
      have hend := write_end D allOk rid RunDir.empty state
      rcases hw : write D allOk rid state RunDir.empty with ⟨o',d'⟩
      rw [hw] at h hend
      cases o' with
      | raised e => cases h
      | cut => cases h
      | ok u =>
        cases h
        cases hend with
        | done hr _ =>
          refine ⟨?_,state,hr.1,?_⟩
          · rcases hr.2 with ⟨hb,-⟩ | ⟨-,a,ha⟩
            · exact hb
            · cases ha
          · rintro rfl
            cases hi
            exact ⟨s,hf,rfl⟩

theorem created_files {initial : Option Json} (h : Created D rid initial d)
    (hr : Reads D rid d s) : Files D rid s d := by
  obtain ⟨hb,-⟩ := created_document h
  refine files_of_reads hr (fun p hp => ?_)
  have hn := reads_newest hr
  rw [hp, hb] at hn
  exact Option.some.inj hn

theorem created_fresh (h : Created D rid none d) (hr : Reads D rid d s) : Fresh s := by
  obtain ⟨hb,state,hs,hnone⟩ := created_document h
  obtain ⟨f,hf,rfl⟩ := hnone rfl
  have hn := reads_newest hr
  rw [hs, hb] at hn
  rcases TwoSlot.newest_mem hn with hp | hp
  · rw [(readable_sealed.mp hp).1]
    exact hf
  · cases hp

theorem fresh_coherent (h : Fresh s) : Coherent s := by
  obtain ⟨rid,hash,plan,owner,now,rfl⟩ := h
  exact ⟨fun t l hl => (nomatch hl),fun t l hl => (nomatch hl),fun t l hl => (nomatch hl),rfl⟩

/-- A directory that the reader finds nothing in stays as it is. -/
theorem perform_unread {fate : Fates} (h : ∀ s, ¬ Reads D rid d s) :
    (perform D fate rid a x d).2 = d := by
  have hp := perform_performed D fate rid x d a
  generalize (perform D fate rid a x d).1 = o at hp
  generalize (perform D fate rid a x d).2 = e at hp
  cases hp with
  | refused e => rfl
  | answered s r body hr hb hbody => rfl
  | wrote s c r body hr hb hbody d' hw => exact absurd hr (h s)
  | failed s c r body hr hb hbody e d' hw => exact absurd hr (h s)
  | stopped s c r body hr hb hbody d' hw => exact absurd hr (h s)

theorem reads_of_ok {fate : Fates} (h : (perform D fate rid a x d).1 = .ok r) :
    ∃ s, Reads D rid d s := by
  have hp := perform_performed D fate rid x d a
  rw [h] at hp
  generalize (perform D fate rid a x d).2 = e at hp
  cases hp with
  | answered s r body hr hb hbody => exact ⟨s,hr⟩
  | wrote s c r body hr hb hbody d' hw => exact ⟨s,hr⟩

theorem sections_unread (h : ∀ s, ¬ Reads D rid d s)
    (hd : System.Sections (perform D allOk rid) P d d') : d' = d :=
  System.sections_invariant (I := fun e => e = d)
    (fun a x e _ he => by rw [he, perform_unread h]) hd rfl

/-- What a run from `create` has come to, as far as it can be read. -/
theorem run_files {initial : Option Json} (h : Created D rid initial d)
    (hd : System.Sections (perform D allOk rid) P d d') (hr : Reads D rid d' s) :
    ∃ f, Reads D rid d f ∧ Files D rid s d' ∧ Course D rid P f s := by
  by_cases hn : ∃ f, Reads D rid d f
  · obtain ⟨f,hf⟩ := hn
    obtain ⟨c,hc,hm⟩ := files_sections (created_files h hf) hd
    rw [reads_unique hr (files_reads hc)]
    exact ⟨f,hf,hc,hm⟩
  · rw [not_exists] at hn
    rw [sections_unread hn hd] at hr
    exact absurd hr (hn s)

/-- Of a run from `create` with no initial state, every state is coherent. -/
theorem run_coherent (h : Created D rid none d)
    (hd : System.Sections (perform D allOk rid) P d d') (hr : Reads D rid d' s) :
    Files D rid s d' ∧ Coherent s := by
  obtain ⟨f,hf,hfiles,hc⟩ := run_files h hd hr
  exact ⟨hfiles,course_coherent (fresh_coherent (created_fresh h hf)) hc⟩

end

/-! ## A run of two tasks -/

def sampleDeps : Deps := ⟨.ok, fun _ => false⟩

def samplePlan : Obj := [("schema_version", .str "pd-fleet-plan:v2"),
  ("tasks", .arr [.obj [("id", .str "a")], .obj [("id", .str "b")]])]

def sampleState : Snapshot :=
  freshSnapshot "run" (sha256Hex (planHashDomain ++ dumps (.obj samplePlan))) samplePlan "me"
    "2026-01-01T00:00:00Z"

def sampleDir : RunDir := ⟨sealedNode sampleState, .absent, .absent, .absent⟩

theorem sample_created : Created sampleDeps "run" none sampleDir :=
  ⟨.obj samplePlan,"me",.str "2026-01-01T00:00:00Z",_,rfl⟩

theorem sample_valid : sampleState.Valid sampleDeps "run" where
  run := rfl
  owner := by decide
  hash := rfl
  updated := by decide
  gates := rfl
  metrics := rfl
  audit := rfl
  tasks := fun _ _ h => nomatch h
  leases := fun _ _ h => nomatch h
  reports := fun _ _ h => nomatch h
  logged := rfl

theorem sample_coherent : Coherent sampleState := fresh_coherent ⟨_,_,_,_,_,rfl⟩

theorem sample_regular : sampleDir.Regular := ⟨rfl,rfl⟩

theorem sample_files : Files sampleDeps "run" sampleState sampleDir :=
  .current (readable_sealed.mpr ⟨rfl,sample_valid⟩) quiet_absent (fun _ h => nomatch h)

def sampleToken : HexToken := ⟨"00000000000000000000000000000000",by decide⟩

def sampleDraws : Draws :=
  ⟨.str "2026-01-01T00:00:00Z",.str "2026-01-01T00:00:00Z",fun _ => sampleToken⟩

def sampleLease : Lease :=
  ⟨"me","00000000000000000000000000000000","2026-01-01T00:01:00.000000Z",1⟩

/-- The task `a` is leased. -/
def sampleHeld : Snapshot :=
  { sampleState with leases := AList.insert "a" sampleLease ∅,
                     attempts := AList.insert "a" 1 ∅,
                     generation := 1 }

theorem sample_claim : Writes sampleDeps (.claim "a" "me" (.int 60) .null) sampleDraws
    sampleState sampleHeld (.token (leaseToken "run" "a" sampleLease)) := ⟨_,rfl,rfl⟩

theorem sampleHeld_valid : sampleHeld.Valid sampleDeps "run" :=
  writes_valid sample_valid sample_coherent rfl sample_claim

end PdFleet
