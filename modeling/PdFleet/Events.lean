import PdFleet.Persisted

/-!
# Events of callers

What `append_event` accepts and what the reader accepts are two predicates. An
event stays in the run if the reader accepts it; otherwise the state that was
written with it is refused and the run goes on without it.
-/

set_option autoImplicit false

namespace PdFleet

/-- The reader accepts what `append_event` makes of a redacted event: the event id,
or the ordering key that stands in for it, is an identifier, and the optional fields
have the reader's types. -/
def loggable (e : Obj) : Bool :=
  (match e.field "event_id", e.field "ordering_key" with
    | some v, _ => v.text?.any isId
    | none, none => true
    | none, some v => isNull v || v.text?.any isId) &&
  (e.field "generation").all (Json.isIntFrom 0) &&
  (e.field "metadata").all Json.isDict

section

variable {D : Deps} {rid : String} {d d' : RunDir} {s c : Snapshot} {x : Draws} {r : Reply}
  {fate : Fates}

theorem nonemptyText_iff {v : Json} : nonemptyText v = true ↔ ∃ t, v = .str t ∧ t ≠ "" := by
  cases v <;> simp [nonemptyText]

theorem isId_ne_empty {t : String} (h : isId t = true) : t ≠ "" := by
  rintro rfl
  cases h

/-- The ordering key that is stored. -/
def storedKey (e : Obj) : Json :=
  let supplied := (e.field "ordering_key").getD ((e.field "event_id").getD .null)
  if isNull supplied then
    .str (sha256Hex (dumps (.obj (e.without ["sequence", "event_id", "ordering_key"]))))
  else supplied

theorem of_eventItem {e item : Obj} (h : eventItem e = .ok item) :
    item = (e.putDefault "event_id" (storedKey e)).put "ordering_key" (storedKey e) ∧
      (∀ v, e.field "event_id" = some v → nonemptyText v = true) ∧
      nonemptyText (storedKey e) = true := by
  rw [eventItem] at h
  dsimp only at h
  split at h
  · cases h
  rename_i hid
  split at h
  · cases h
  rename_i hkey
  cases h
  refine ⟨rfl,fun v hv => ?_,?_⟩
  · simpa [hv] using hid
  · rw [storedKey]
    split
    · exact nonemptyText_iff.mpr ⟨_,rfl,isId_ne_empty (isId_sha256Hex _)⟩
    · rename_i hn
      simpa [hn] using hkey

theorem validEvent_numbered {e item : Obj} (h : eventItem e = .ok item) :
    validEvent (numbered s item) = loggable e := by
  obtain ⟨rfl,hid,hkey⟩ := of_eventItem h
  obtain ⟨key,hk,hne⟩ := nonemptyText_iff.mp hkey
  have h₁ : (numbered s ((e.putDefault "event_id" (storedKey e)).put "ordering_key"
      (storedKey e))).field "sequence" = some (.int (s.eventSequence+1)) :=
    Obj.field_put_self _ _ _
  have h₂ : (numbered s ((e.putDefault "event_id" (storedKey e)).put "ordering_key"
      (storedKey e))).field "event_id" = some ((e.field "event_id").getD (storedKey e)) := by
    rw [numbered, Obj.field_put_ne _ _ _ _ (by decide), Obj.field_put_ne _ _ _ _ (by decide),
      Obj.field_putDefault_self]
  have h₃ : (numbered s ((e.putDefault "event_id" (storedKey e)).put "ordering_key"
      (storedKey e))).field "ordering_key" = some (storedKey e) := by
    rw [numbered, Obj.field_put_ne _ _ _ _ (by decide), Obj.field_put_self]
  have h₄ : ∀ k, k ≠ "sequence" → k ≠ "event_id" → k ≠ "ordering_key" →
      (numbered s ((e.putDefault "event_id" (storedKey e)).put "ordering_key"
        (storedKey e))).field k = e.field k := by
    intro k hks hki hko
    rw [numbered, Obj.field_put_ne _ _ _ _ hks, Obj.field_put_ne _ _ _ _ hko,
      Obj.field_putDefault_ne _ _ _ _ hki]
  have hseq : Json.isIntFrom 1 (.int ((s.eventSequence:ℤ)+1)) = true := by
    simp [Json.isIntFrom]
  rw [validEvent, loggable, h₁, h₂, h₃, h₄ _ (by decide) (by decide) (by decide),
    h₄ _ (by decide) (by decide) (by decide)]
  simp only [Option.any_some, hseq, hk, Json.text?, decide_eq_true hne, Bool.true_and,
    Bool.and_true]
  congr 2
  cases hi : e.field "event_id" with
  | some v => rfl
  | none =>
    rw [storedKey, hi] at hk
    cases ho : e.field "ordering_key" with
    | none =>
      rw [ho] at hk
      cases hk
      exact isId_sha256Hex _
    | some v =>
      rw [ho] at hk
      dsimp only [Option.getD_some] at hk
      split at hk
      · rename_i hn
        cases hk
        show isId _ = (isNull v || v.text?.any isId)
        rw [hn, isId_sha256Hex]
        rfl
      · rename_i hn
        show isId key = (isNull v || v.text?.any isId)
        rw [hk] at hn ⊢
        simp [hn, Json.text?]

theorem valid_nextEvent {given : Obj} (hs : s.Valid D rid)
    (hn : NextEvent D s given c) (hl : loggable (redactFields D given) = true) :
    c.Valid D rid := by
  refine ⟨nextEvent_sound hs.toSound hn,?_⟩
  obtain ⟨rows,item,stamp,he,hi,-,rfl⟩ := hn
  obtain ⟨hv,hq⟩ := valid_events hs
  refine logged_of (fun e hm => ?_) (logged_sequences he (sequence_numbered s item) hq)
  rcases List.mem_append.mp hm with hm | hm
  · exact hv e (by rw [he]; exact hm)
  · rw [List.mem_singleton.mp hm, validEvent_numbered hi]
    exact hl

/-- The event stays in the run: every later load succeeds and finds it in its place. -/
def Keeps (D : Deps) (rid : String) (d : RunDir) (n : ℕ) (event : Obj) : Prop :=
  ∀ d', System.Sections (perform D allOk rid) (fun _ => True) d d' →
    ∃ c, load D rid d' = .ok c ∧ c.events.items[n]? = some event

/-- For an event that `append_event` accepted under the number after `eventSequence`:
it stays in the run if and only if the reader accepts it. -/
theorem appended_event_kept_iff {given : Obj} {owner : String} {expected : Json}
    (hs : Reads D rid d s)
    (hp : perform D allOk rid (.appendEvent (.obj given) owner expected) x d = (.ok r,d')) :
    ∃ item, eventItem (redactFields D given) = .ok item ∧
      (Keeps D rid d' s.eventSequence (numbered s item) ↔
        loggable (redactFields D given) = true) := by
  obtain ⟨s',hs',⟨-,body,hb,hbody⟩ | ⟨c,hw,hr⟩⟩ := perform_ok hp
  · cases hb
    obtain ⟨_,-,hbody⟩ := ok_of_bind hbody
    cases hbody
  obtain rfl := reads_unique hs' hs
  have hv := reads_valid hs
  obtain ⟨body,hb,hbody⟩ := hw
  obtain ⟨given',hg,hn⟩ := appendEvent_next
    (show appendEvent D (.obj given) owner expected x = .ok body from hb) hbody
  cases hg
  have hgen := (nextEvent_extends hn).2
  obtain ⟨rows,item,stamp,he,hi,hst,rfl⟩ := id hn
  refine ⟨item,hi,fun hk => ?_,fun hl d'' hd => ?_⟩
  · -- whatever is loaded right after the write has only events that the reader accepts
    obtain ⟨c,hc,hm⟩ := hk d' .refl
    rw [← validEvent_numbered hi]
    exact (valid_events (reads_valid (load_eq_ok.mp hc))).1 _ (List.mem_of_getElem? hm)
  · have hcv := valid_nextEvent hv hn hl
    have hrd := reads_replaced hs hcv (by omega) hr
    have hf : Files D rid (stamped (logged s' rows (numbered s' item)) stamp) d' := by
      refine files_of_reads hrd (fun p hp => ?_)
      rw [hr.1] at hp
      exact (readable_sealed.mp hp).1
    obtain ⟨c,hfc,hcourse⟩ := files_sections hf hd
    refine ⟨c,load_eq_ok.mpr (files_reads hfc),?_⟩
    have hlen : rows.length = s'.eventSequence := by
      have hq := congrArg List.length (valid_events hv).2
      rw [he] at hq
      simpa [sequencesTo, Rows.items] using hq
    obtain ⟨more,hm⟩ := (course_extends hcourse).events
    rw [← hm, ← hlen]
    show ((rows++[numbered s' item])++more)[rows.length]? = _
    simp

end

def sampleEvent (id : String) : Json := .obj [("event_id", .str id)]

def sampleItem (id : String) : Obj :=
  [("event_id", .str id), ("ordering_key", .str id), ("sequence", .int 1)]

/-- The run with its first event. -/
def sampleLogged (id : String) : Snapshot :=
  { sampleState with events := .list [sampleItem id], eventSequence := 1, generation := 1 }

theorem sample_append : Writes sampleDeps (.appendEvent (sampleEvent "started") "me" .null)
    sampleDraws sampleState (sampleLogged "started") (.state (sampleLogged "started")) :=
  ⟨_,rfl,rfl⟩

theorem appended_event_kept_started : ∃ d' item,
    perform sampleDeps allOk "run" (.appendEvent (sampleEvent "started") "me" .null)
      sampleDraws sampleDir = (.ok (.state (sampleLogged "started")),d') ∧
    Keeps sampleDeps "run" d' 0 (numbered sampleState item) := by
  obtain ⟨d',hp,-⟩ := perform_writes (files_reads sample_files) sample_regular sample_append
  obtain ⟨item,-,hk⟩ := appended_event_kept_iff (files_reads sample_files) hp
  exact ⟨d',item,hp,hk.mpr (by decide)⟩

theorem sample_append_odd : Writes sampleDeps (.appendEvent (sampleEvent "not an id") "me" .null)
    sampleDraws sampleState (sampleLogged "not an id") (.state (sampleLogged "not an id")) :=
  ⟨_,rfl,rfl⟩

/-- An accepted event whose id is no identifier is lost: the next load returns the
run without it. -/
theorem appended_event_lost : ∃ d',
    perform sampleDeps allOk "run" (.appendEvent (sampleEvent "not an id") "me" .null)
      sampleDraws sampleDir = (.ok (.state (sampleLogged "not an id")),d') ∧
    load sampleDeps "run" d' = .ok sampleState ∧ sampleState.events.items = [] := by
  obtain ⟨d',hp,hr⟩ := perform_writes (files_reads sample_files) sample_regular sample_append_odd
  have hf := files_replaced sample_files (writes_plain sample_valid.plain sample_append_odd)
    (Nat.zero_le _) rfl hr
  have hn : ¬ (sampleLogged "not an id").Valid sampleDeps "run" :=
    fun hv => absurd hv.logged (by decide)
  rw [after_refused hn] at hf
  exact ⟨d',hp,load_eq_ok.mpr (files_reads hf),rfl⟩

end PdFleet
