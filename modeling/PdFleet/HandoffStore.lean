import PdFleet.HandoffTexts
import PdFleet.Printed
import PdFleet.Runtime

/-!
# The handoff store

An artifact is saved once under its id and loaded through the checks of its constructor. A
saved artifact is loaded as it was exactly when the redactions leave the texts of the record
alone.
-/

set_option autoImplicit false

namespace PdFleet.Handoff

open Pattern Contracts

/-- An envelope; its schema version is `HANDOFF_SCHEMA_VERSION`. -/
structure HandoffEnvelope where
  handoffId : String
  artifact : HandoffArtifact
  status : String
  evidenceRefs : List String
  checksum : String

structure HandoffStore where
  runId : String
  ownerEpoch : Option ℕ
  expectedLineage : Option HandoffLineage

/-- What there is at the place of a directory. -/
inductive Place where
  | missing
  | directory
  | symlink
  | other
  deriving DecidableEq

/-- The directory of a run in the store. -/
structure Shelf where
  root : Place
  run : Place
  record : String → Node

def handoffSchemaVersion : ℤ := 1

/-- `_payload`. -/
def payload (a : HandoffArtifact) (status : String) (refs : List String) : Obj :=
  [("schema_version",.int handoffSchemaVersion), ("handoff_id",.str a.handoffId),
    ("artifact",.obj a.toDict), ("status",.str status), ("evidence_refs",texts refs)]

def checksumOf (o : Obj) : String := sha256Hex (dumps (.obj o))

def envelopeOf (a : HandoffArtifact) (status : String) (refs : List String) : HandoffEnvelope :=
  ⟨a.handoffId,a,status,refs,checksumOf (payload a status refs)⟩

/-- `==` of two artifacts. -/
def sameArtifact (a b : HandoffArtifact) : Bool :=
  a.handoffId = b.handoffId && a.reason = b.reason && a.summary = b.summary &&
    a.completed = b.completed && a.remaining = b.remaining && a.decisions = b.decisions &&
    a.risks = b.risks && a.evidenceRefs = b.evidenceRefs && a.nextAction = b.nextAction &&
    a.lineage = b.lineage && Runtime.same (.obj a.safety) (.obj b.safety)

/-- `==` of two envelopes. -/
def sameEnvelope (e f : HandoffEnvelope) : Bool :=
  e.handoffId = f.handoffId && sameArtifact e.artifact f.artifact && e.status = f.status &&
    e.evidenceRefs = f.evidenceRefs && e.checksum = f.checksum

/-- `_check_owner`. -/
def checkOwner (st : HandoffStore) (a : HandoffArtifact) : Except HandoffError Unit :=
  if a.lineage.missionRunId ≠ st.runId || st.ownerEpoch.any (· ≠ a.lineage.ownerEpoch) ||
      st.expectedLineage.any (· ≠ a.lineage) then
    .error (.value "handoff ownership is stale or mismatched")
  else .ok ()

/-! ## Reading a record -/

def envelopeFields : List String :=
  ["schema_version", "handoff_id", "artifact", "status", "evidence_refs", "checksum"]

def artifactFields : List String :=
  ["handoff_id", "reason", "summary", "completed", "remaining", "decisions", "risks",
    "evidence_refs", "next_action", "lineage", "safety"]

def lineageFields : List String :=
  ["mission_id", "mission_run_id", "task_id", "source_lane_id", "attempt_id", "session_id",
    "target_role", "owner_epoch"]

def HandoffError.text : HandoffError → String
  | .value t | .type t => t
  | .osError => ""

/-- `word in text`. -/
def mentions (word text : String) : Bool := word.toList <:+: text.toList

/-- The handler around `_decode`. -/
def orMalformed {α : Type} : Except HandoffError α → Except HandoffError α
  | .ok a => .ok a
  | .error e =>
    if mentions "checksum" e.text then .error e
    else .error (.value "malformed handoff envelope")

def require (c : Bool) (e : HandoffError) : Except HandoffError Unit :=
  if c then .ok () else .error e

def asObject (e : HandoffError) : Option Json → Except HandoffError Obj
  | some (.obj o) => .ok o
  | _ => .error e

def asList (e : HandoffError) : Option Json → Except HandoffError (List Json)
  | some (.arr xs) => .ok xs
  | _ => .error e

def argument (o : Obj) (k : String) : Except HandoffError Json :=
  match o.field k with
  | some v => .ok v
  | none => .error (.type ("missing a required argument: '" ++ k ++ "'"))

section

variable (T : HandoffTables)

/-- `HandoffLineage(**lineage_data)`. -/
def lineageOf (o : Obj) : Except HandoffError HandoffLineage :=
  match o.find? (fun e => e.1 ∉ lineageFields) with
  | some e => .error (.type ("got an unexpected keyword argument '" ++ e.1 ++ "'"))
  | none => do
    let missionId ← argument o "mission_id"
    let missionRunId ← argument o "mission_run_id"
    let taskId ← argument o "task_id"
    let sourceLaneId ← argument o "source_lane_id"
    let attemptId ← argument o "attempt_id"
    let sessionId ← argument o "session_id"
    let targetRole ← argument o "target_role"
    let ownerEpoch ← argument o "owner_epoch"
    makeLineage T missionId missionRunId taskId sourceLaneId attemptId sessionId targetRole
      ownerEpoch

def malformedArtifact : HandoffError := .value "malformed handoff artifact"

/-- The artifact of a record. -/
def artifactOf (requestedId : String) (data : Json) : Except HandoffError HandoffArtifact := do
  let o ← asObject malformedArtifact (some data)
  require (o.hasExactly artifactFields && (o.field "handoff_id").any (·.isStr requestedId))
    malformedArtifact
  let completed ← asList malformedArtifact (o.field "completed")
  let remaining ← asList malformedArtifact (o.field "remaining")
  let decisions ← asList malformedArtifact (o.field "decisions")
  let risks ← asList malformedArtifact (o.field "risks")
  let evidenceRefs ← asList malformedArtifact (o.field "evidence_refs")
  let lineage ← asObject malformedArtifact (o.field "lineage")
  let safety ← asObject malformedArtifact (o.field "safety")
  let handoffId ← argument o "handoff_id"
  let reason ← argument o "reason"
  let summary ← argument o "summary"
  let nextAction ← argument o "next_action"
  let lineage ← lineageOf T lineage
  makeArtifact T handoffId reason summary (.arr completed) (.arr remaining) (.arr decisions)
    (.arr risks) (.arr evidenceRefs) nextAction lineage (.obj safety)

def malformedEnvelope : HandoffError := .value "malformed handoff envelope"

/-- `type(value) is int and value == HANDOFF_SCHEMA_VERSION`. -/
def isVersion : Json → Bool
  | .int n => n = handoffSchemaVersion
  | _ => false

/-- The checks of `_decode`, within its handler. -/
def decodeData (requestedId : String) (data : Json) : Except HandoffError HandoffEnvelope := do
  let o ← asObject malformedEnvelope (some data)
  require (o.hasExactly envelopeFields) malformedEnvelope
  let content := o.without ["checksum"]
  require ((o.field "checksum").any (·.isStr (checksumOf content)))
    (.value "handoff checksum is invalid")
  require ((content.field "schema_version").any isVersion) malformedEnvelope
  require ((content.field "handoff_id").any (·.isStr requestedId)) malformedEnvelope
  let refs ← asList (.value "malformed evidence refs") (content.field "evidence_refs")
  require (refs.length ≤ maxItems) (.value "malformed evidence refs")
  let data ← argument content "artifact"
  let artifact ← artifactOf T requestedId data
  let status ← argument content "status"
  let status ← sanitizeText T "status" status
  let refs ← refs.mapM (ref T)
  return ⟨requestedId,artifact,status,refs,checksumOf content⟩

/-- `_decode`, of the data of the record. -/
def decode (requestedId : String) (data : Json) : Except HandoffError HandoffEnvelope :=
  orMalformed (decodeData T requestedId data)

/-! ## The store -/

/-- `_safe_segment`. -/
def safeSegment (s : String) : Bool :=
  s.toList.head?.any Char.isAlphanum && s.toList.length ≤ 200 &&
    s.toList.all (fun c => c.isAlphanum || c ∈ ['_', '.', ':', '-'])

def unsafeSegment : HandoffError := .value "handoff_id must be a safe path segment"

/-- `_directory`, where nothing is made. -/
def findDirectory (s : Shelf) : Except HandoffError Unit :=
  if s.root = .symlink then .error (.value "handoff store root contains a symlink component")
  else if s.root ≠ .directory then .error (.value "handoff record does not exist")
  else if s.run = .symlink then .error (.value "handoff run directory contains a symlink component")
  else if s.run ≠ .directory then .error (.value "handoff record does not exist")
  else .ok ()

/-- `_directory`, with `create`: the root and then the directory of the run. -/
def makeDirectory (s : Shelf) : Except HandoffError Unit × Shelf :=
  if s.root = .symlink then (.error (.value "handoff store root contains a symlink component"),s)
  else if s.root = .other then (.error .osError,s)
  else if s.run = .symlink then
    (.error (.value "handoff run directory contains a symlink component"),{ s with root := .directory })
  else if s.run = .other then (.error .osError,{ s with root := .directory })
  else (.ok (),{ s with root := .directory, run := .directory })

/-- `load`. -/
def load (st : HandoffStore) (handoffId : String) (s : Shelf) :
    Except HandoffError HandoffEnvelope := do
  findDirectory s
  require (safeSegment handoffId) unsafeSegment
  match s.record handoffId with
  | .symlink => .error (.value "handoff record is a symlink")
  | .absent => .error (.value "handoff record does not exist")
  | .garbled => .error malformedEnvelope
  | .document data => do
    let envelope ← decode T handoffId data
    checkOwner st envelope.artifact
    return envelope

def Shelf.put (s : Shelf) (handoffId : String) (n : Node) : Shelf :=
  { s with record := Function.update s.record handoffId n }

/-- The record of an envelope. -/
def recordOf (a : HandoffArtifact) (status : String) (refs : List String) : Obj :=
  payload a status refs ++ [("checksum",.str (checksumOf (payload a status refs)))]

/-- What `save` makes of its arguments before it looks at the directory. -/
def saveArguments (st : HandoffStore) (a : HandoffArtifact) (status evidenceRefs : Json) :
    Except HandoffError (String × List String) := do
  checkOwner st a
  let status ← sanitizeText T "status" status
  let refs ← boundedRefs T evidenceRefs
  return (status,refs)

/-- `save`, where no file operation fails. -/
def save (st : HandoffStore) (a : HandoffArtifact) (status evidenceRefs : Json) (s : Shelf) :
    Except HandoffError HandoffEnvelope × Shelf :=
  match saveArguments T st a status evidenceRefs with
  | .error e => (.error e,s)
  | .ok (status,refs) =>
    match makeDirectory s with
    | (.error e,s) => (.error e,s)
    | (.ok (),s) =>
      if !safeSegment a.handoffId then (.error unsafeSegment,s)
      else match s.record a.handoffId with
        | .symlink => (.error (.value "handoff record is a symlink"),s)
        | .absent =>
          (.ok (envelopeOf a status refs),
            s.put a.handoffId (.document (.obj (recordOf a status refs))))
        | _ =>
          match load T st a.handoffId s with
          | .error e => (.error e,s)
          | .ok existing =>
            if sameEnvelope existing (envelopeOf a status refs) then (.ok existing,s)
            else (.error (.value "conflicting reuse of handoff_id"),s)

end

variable {T : HandoffTables} {a : HandoffArtifact} {status : String} {refs : List String}

/-! ## Reading what was written -/

theorem orMalformed_ok {α : Type} {x : Except HandoffError α} {b : α} :
    orMalformed x = .ok b ↔ x = .ok b := by
  cases x with
  | ok c => rw [orMalformed]
  | error e =>
    refine iff_of_false (fun h => ?_) (fun h => nomatch h)
    rw [orMalformed] at h
    split_ifs at h

@[simp] theorem require_ok {c : Bool} {e : HandoffError} (h : c = true) :
    require c e = .ok () := if_pos h

@[simp] theorem ok_bind {α β : Type} (x : α) (f : α → Except HandoffError β) :
    (Except.ok x >>= f) = f x := rfl

theorem lineageOf_toDict {l : HandoffLineage} (h : FormedLineage T l) :
    lineageOf T l.toDict = .ok l := by
  have hkeys : l.toDict.find? (fun e => e.1 ∉ lineageFields) = none := rfl
  have hmission : Obj.field l.toDict "mission_id" = some (.str l.missionId) := rfl
  have hrun : Obj.field l.toDict "mission_run_id" = some (.str l.missionRunId) := rfl
  have htask : Obj.field l.toDict "task_id" = some (.str l.taskId) := rfl
  have hlane : Obj.field l.toDict "source_lane_id" = some (.str l.sourceLaneId) := rfl
  have hattempt : Obj.field l.toDict "attempt_id" = some (.str l.attemptId) := rfl
  have hsession : Obj.field l.toDict "session_id" = some (.str l.sessionId) := rfl
  have hrole : Obj.field l.toDict "target_role" = some (.str l.targetRole) := rfl
  have hepoch : Obj.field l.toDict "owner_epoch" = some (.int l.ownerEpoch) := rfl
  rw [lineageOf, hkeys]
  simp only [argument, hmission, hrun, htask, hlane, hattempt, hsession, hrole, hepoch, ok_bind,
    makeLineage_self h]

theorem artifactOf_toDict (h : Formed T a) : artifactOf T a.handoffId (.obj a.toDict) =
    makeArtifact T (.str a.handoffId) (.str a.reason) (.str a.summary) (texts a.completed)
      (texts a.remaining) (texts a.decisions) (texts a.risks) (texts a.evidenceRefs)
      (.str a.nextAction) a.lineage (.obj a.safety) := by
  have hkeys : Obj.hasExactly a.toDict artifactFields = true := rfl
  have hid : Obj.field a.toDict "handoff_id" = some (.str a.handoffId) := rfl
  have hreason : Obj.field a.toDict "reason" = some (.str a.reason) := rfl
  have hsummary : Obj.field a.toDict "summary" = some (.str a.summary) := rfl
  have hcompleted : Obj.field a.toDict "completed" = some (texts a.completed) := rfl
  have hremaining : Obj.field a.toDict "remaining" = some (texts a.remaining) := rfl
  have hdecisions : Obj.field a.toDict "decisions" = some (texts a.decisions) := rfl
  have hrisks : Obj.field a.toDict "risks" = some (texts a.risks) := rfl
  have hrefs : Obj.field a.toDict "evidence_refs" = some (texts a.evidenceRefs) := rfl
  have hnext : Obj.field a.toDict "next_action" = some (.str a.nextAction) := rfl
  have hlineage : Obj.field a.toDict "lineage" = some (.obj a.lineage.toDict) := rfl
  have hsafety : Obj.field a.toDict "safety" = some (.obj a.safety) := rfl
  simp only [artifactOf, argument, asObject, asList, hkeys, hid, hreason, hsummary, hcompleted,
    hremaining, hdecisions, hrisks, hrefs, hnext, hlineage, hsafety, texts, ok_bind, Json.isStr,
    Option.any_some, decide_true, Bool.and_self, require_ok, lineageOf_toDict h.lineage]

/-- What is left to decide of a record that was written. -/
theorem decodeData_record (hlen : refs.length ≤ maxItems) :
    decodeData T a.handoffId (.obj (recordOf a status refs)) = (do
      let artifact ← artifactOf T a.handoffId (.obj a.toDict)
      let status' ← sanitizeText T "status" (.str status)
      let refs' ← (refs.map Json.str).mapM (ref T)
      return ⟨a.handoffId,artifact,status',refs',checksumOf (payload a status refs)⟩) := by
  have hkeys : Obj.hasExactly (recordOf a status refs) envelopeFields = true := rfl
  have hcontent : Obj.without (recordOf a status refs) ["checksum"] = payload a status refs := rfl
  have hsum : Obj.field (recordOf a status refs) "checksum" =
    some (.str (checksumOf (payload a status refs))) := rfl
  have hversion : Obj.field (payload a status refs) "schema_version" =
    some (.int handoffSchemaVersion) := rfl
  have hid : Obj.field (payload a status refs) "handoff_id" = some (.str a.handoffId) := rfl
  have hrefs : Obj.field (payload a status refs) "evidence_refs" = some (texts refs) := rfl
  have hartifact : Obj.field (payload a status refs) "artifact" = some (.obj a.toDict) := rfl
  have hstatus : Obj.field (payload a status refs) "status" = some (.str status) := rfl
  simp only [decodeData, argument, asObject, asList, hkeys, hcontent, hsum, hversion, hid, hrefs,
    hartifact, hstatus, texts, ok_bind, Json.isStr, isVersion, Option.any_some, decide_true,
    require_ok, List.length_map, hlen]

theorem mapM_ref_self (hrel : ∀ s ∈ refs, relative s = true) :
    (refs.map Json.str).mapM (ref T) = .ok refs ↔ ∀ s ∈ refs, Plain T s := by
  rw [mapM_ok, List.forall₂_map_left_iff, List.forall₂_same]
  exact forall₂_congr (fun s hs => ref_self (hrel s hs))

/-- The texts of a record stay as they are. -/
def RecordStays (T : HandoffTables) (a : HandoffArtifact) (status : String) (refs : List String) :
    Prop := Stays T a ∧ Plain T status ∧ ∀ s ∈ refs, Plain T s

/-- A record is read as it was written if and only if its texts stay as they are. -/
theorem decode_record (h : Formed T a) (hlen : refs.length ≤ maxItems)
    (hrel : ∀ s ∈ refs, relative s = true) :
    decode T a.handoffId (.obj (recordOf a status refs)) = .ok (envelopeOf a status refs) ↔
      RecordStays T a status refs := by
  rw [decode, orMalformed_ok, decodeData_record hlen, artifactOf_toDict h, RecordStays,
    ← makeArtifact_self h, ← sanitizeText_self (y := "status"), ← mapM_ref_self hrel]
  constructor
  · intro hok
    obtain ⟨b,hb,hok⟩ := ok_of_bind hok
    obtain ⟨t,ht,hok⟩ := ok_of_bind hok
    obtain ⟨l,hl,hok⟩ := ok_of_bind hok
    have heq := Except.ok.inj hok
    rw [envelopeOf, HandoffEnvelope.mk.injEq] at heq
    obtain ⟨-,rfl,rfl,rfl,-⟩ := heq
    exact ⟨hb,ht,hl⟩
  · rintro ⟨ha,ht,hl⟩
    rw [ha, ht, hl]
    rfl

/-! ## Saving -/

variable {st : HandoffStore} {s s' : Shelf} {e : HandoffEnvelope} {given given' : Json}

/-- The directory of the run is there. -/
def Open (s : Shelf) : Prop := s.root = .directory ∧ s.run = .directory

theorem findDirectory_open (h : Open s) : findDirectory s = .ok () := by
  rw [findDirectory, h.1, h.2]
  rfl

/-- What a call leaves: the directory stays, and so does every record. -/
structure Keeps (s s' : Shelf) : Prop where
  stays : Open s → Open s'
  record : ∀ k, (s.record k).exists = true → s'.record k = s.record k

theorem Keeps.refl (s : Shelf) : Keeps s s := ⟨id,fun _ _ => rfl⟩

theorem Keeps.trans {s'' : Shelf} (h : Keeps s s') (h' : Keeps s' s'') : Keeps s s'' where
  stays := h'.stays ∘ h.stays
  record k hk := by
    rw [h'.record k (by rw [h.record k hk]; exact hk), h.record k hk]

theorem makeDirectory_keeps (s : Shelf) : Keeps s (makeDirectory s).2 := by
  unfold makeDirectory
  split_ifs
  · exact .refl s
  · exact .refl s
  · exact ⟨fun h => ⟨rfl,h.2⟩,fun _ _ => rfl⟩
  · exact ⟨fun h => ⟨rfl,h.2⟩,fun _ _ => rfl⟩
  · exact ⟨fun _ => ⟨rfl,rfl⟩,fun _ _ => rfl⟩

theorem makeDirectory_record (s : Shelf) : (makeDirectory s).2.record = s.record := by
  unfold makeDirectory
  split_ifs <;> rfl

theorem makeDirectory_ok (h : makeDirectory s = (.ok (),s')) : Open s' := by
  unfold makeDirectory at h
  split_ifs at h <;> cases h
  exact ⟨rfl,rfl⟩

/-- The ways in which a save can go. -/
inductive Saved (T : HandoffTables) (st : HandoffStore) (a : HandoffArtifact) (given given' : Json)
    (s : Shelf) : Except HandoffError HandoffEnvelope → Shelf → Prop
  | refused (e : HandoffError) (s' : Shelf) (h : Keeps s s') : Saved T st a given given' s (.error e) s'
  | wrote (status : String) (refs : List String) (s' : Shelf)
      (harguments : saveArguments T st a given given' = .ok (status,refs)) (hopen : Open s')
      (hsegment : safeSegment a.handoffId = true) (hfree : s.record a.handoffId = .absent)
      (hrecord : s'.record =
        Function.update s.record a.handoffId (.document (.obj (recordOf a status refs)))) :
      Saved T st a given given' s (.ok (envelopeOf a status refs)) s'
  | found (status : String) (refs : List String) (e : HandoffEnvelope) (s' : Shelf)
      (harguments : saveArguments T st a given given' = .ok (status,refs)) (hopen : Open s')
      (hsegment : safeSegment a.handoffId = true) (hrecord : s'.record = s.record)
      (hthere : (s.record a.handoffId).exists = true)
      (hload : load T st a.handoffId s' = .ok e)
      (hsame : sameEnvelope e (envelopeOf a status refs) = true) :
      Saved T st a given given' s (.ok e) s'

theorem save_saved (T : HandoffTables) (st : HandoffStore) (a : HandoffArtifact)
    (given given' : Json) (s : Shelf) :
    Saved T st a given given' s (save T st a given given' s).1 (save T st a given given' s).2 := by
  unfold save
  cases harguments : saveArguments T st a given given' with
  | error e => exact .refused e s (.refl s)
  | ok p =>
    obtain ⟨status,refs⟩ := p
    have hkeeps := makeDirectory_keeps s
    have hrecord := makeDirectory_record s
    rcases hdir : makeDirectory s with ⟨o,s'⟩
    rw [hdir] at hkeeps hrecord
    cases o with
    | error e => exact .refused e s' hkeeps
    | ok u =>
      have hopen := makeDirectory_ok hdir
      dsimp only
      split_ifs with hsegment
      · exact .refused _ s' hkeeps
      · have hsafe : safeSegment a.handoffId = true := by simpa using hsegment
        have hthere : s'.record a.handoffId = s.record a.handoffId := congrFun hrecord _
        have hfind : (s'.record a.handoffId).exists = true →
            Saved T st a given given' s
              (match load T st a.handoffId s' with
                | .error e => ((.error e,s') : Except HandoffError HandoffEnvelope × Shelf)
                | .ok existing =>
                  if sameEnvelope existing (envelopeOf a status refs) then (.ok existing,s')
                  else (.error (.value "conflicting reuse of handoff_id"),s')).1
              (match load T st a.handoffId s' with
                | .error e => ((.error e,s') : Except HandoffError HandoffEnvelope × Shelf)
                | .ok existing =>
                  if sameEnvelope existing (envelopeOf a status refs) then (.ok existing,s')
                  else (.error (.value "conflicting reuse of handoff_id"),s')).2 := by
          intro hex
          cases hload : load T st a.handoffId s' with
          | error e => exact .refused e s' hkeeps
          | ok existing =>
            dsimp only
            split_ifs with hsame
            · exact .found status refs existing s' harguments hopen hsafe hrecord
                (by rw [← hthere]; exact hex) hload hsame
            · exact .refused _ s' hkeeps
        cases hnode : s'.record a.handoffId with
        | absent =>
          refine .wrote status refs _ harguments hopen hsafe (by rw [← hthere, hnode]) ?_
          rw [← hrecord]
          rfl
        | symlink => exact .refused _ s' hkeeps
        | garbled => exact hfind (by rw [hnode]; rfl)
        | document j => exact hfind (by rw [hnode]; rfl)

theorem saved_keeps {o : Except HandoffError HandoffEnvelope} (h : Saved T st a given given' s o s') :
    Keeps s s' := by
  cases h with
  | refused e s' h => exact h
  | wrote status refs s' _ hopen _ hfree hrecord =>
    refine ⟨fun _ => hopen,fun k hk => ?_⟩
    rw [hrecord, Function.update_of_ne]
    rintro rfl
    rw [hfree] at hk
    cases hk
  | found _ _ _ _ _ hopen _ hrecord => exact ⟨fun _ => hopen,fun k _ => congrFun hrecord k⟩

/-! ## Comparing envelopes -/

theorem same_items {l : List Json} (h : ∀ x ∈ l, Runtime.same x x = true) :
    Runtime.sameItems l l = true := by
  induction l with
  | nil => rfl
  | cons x l ih =>
    obtain ⟨hx,hl⟩ := List.forall_mem_cons.mp h
    rw [Runtime.sameItems, hx, ih hl]
    rfl

theorem same_fields {l o : Obj} (ho : (o.map Prod.fst).Nodup) (hl : ∀ e ∈ l, e ∈ o)
    (h : ∀ e ∈ l, Runtime.same e.2 e.2 = true) : Runtime.sameFields l o = true := by
  induction l with
  | nil => rfl
  | cons e l ih =>
    obtain ⟨k,v⟩ := e
    obtain ⟨he,hrest⟩ := List.forall_mem_cons.mp hl
    obtain ⟨hv,hvs⟩ := List.forall_mem_cons.mp h
    have hfield : o.lookup k = some v := field_of_mem ho he
    rw [Runtime.sameFields, hfield, ih hrest hvs, Option.any_some, hv]
    rfl

theorem shaped_of_mem {d : ℕ} {o : Obj} (h : ShapedFields d o) {x : String × Json} (hx : x ∈ o) :
    Shaped d x.2 := by
  induction o with
  | nil => cases hx
  | cons y o ih =>
    obtain ⟨-,hy,ho⟩ := h
    rcases List.mem_cons.mp hx with rfl | hx
    · exact hy
    · exact ih ho hx

theorem shaped_of_mem_items {d : ℕ} {l : List Json} (h : ShapedItems d l) {x : Json} (hx : x ∈ l) :
    Shaped d x := by
  induction l with
  | nil => cases hx
  | cons y l ih =>
    rcases List.mem_cons.mp hx with rfl | hx
    · exact h.1
    · exact ih h.2 hx

theorem same_self {d : ℕ} {v : Json} (h : Shaped d v) : Runtime.same v v = true := by
  induction v using Json.ind generalizing d with
  | obj o ih =>
    obtain ⟨-,-,hn,ho⟩ := h
    rw [Runtime.same, same_fields hn (fun _ he => he) (fun x hx => ih x hx (shaped_of_mem ho hx)),
      decide_eq_true rfl]
    rfl
  | arr l ih =>
    rw [Runtime.same]
    exact same_items (fun x hx => ih x hx (shaped_of_mem_items h.2.2 hx))
  | null => rfl
  | bool b => exact decide_eq_true rfl
  | int n => exact decide_eq_true rfl
  | float r => exact decide_eq_true rfl
  | str t => exact decide_eq_true rfl

theorem sameEnvelope_self (h : Formed T a) :
    sameEnvelope (envelopeOf a status refs) (envelopeOf a status refs) = true := by
  simp [sameEnvelope, sameArtifact, envelopeOf, same_self h.shape]

/-! ## Saving and loading -/

structure SaveCall where
  store : HandoffStore
  artifact : HandoffArtifact
  status : Json
  evidenceRefs : Json

/-- The shelf after a run of saves. -/
def later (T : HandoffTables) (calls : List SaveCall) (s : Shelf) : Shelf :=
  calls.foldl (fun s c => (save T c.store c.artifact c.status c.evidenceRefs s).2) s

/-- No run of saves changes a record that is there. -/
theorem later_keeps (calls : List SaveCall) (s : Shelf) : Keeps s (later T calls s) := by
  induction calls generalizing s with
  | nil => exact .refl s
  | cons c calls ih => exact (saved_keeps (save_saved T c.store c.artifact _ _ s)).trans (ih _)

theorem load_open (h : Open s) (hsegment : safeSegment a.handoffId = true) {data : Json}
    (hrecord : s.record a.handoffId = .document data) :
    load T st a.handoffId s = (do
      let envelope ← decode T a.handoffId data
      checkOwner st envelope.artifact
      return envelope) := by
  simp only [load, findDirectory_open h, require_ok hsegment, hrecord, ok_bind]

theorem document_of_load (h : load T st a.handoffId s = .ok e) :
    ∃ data, s.record a.handoffId = .document data := by
  obtain ⟨_,-,h⟩ := ok_of_bind h
  obtain ⟨_,-,h⟩ := ok_of_bind h
  cases hr : s.record a.handoffId with
  | document data => exact ⟨data,rfl⟩
  | _ =>
    rw [hr] at h
    cases h

/-- A load does not depend on what was saved after the record. -/
theorem load_keeps (h : Keeps s s') (hopen : Open s) (hsegment : safeSegment a.handoffId = true)
    (hthere : (s.record a.handoffId).exists = true) :
    load T st a.handoffId s' = load T st a.handoffId s := by
  simp only [load, findDirectory_open hopen, findDirectory_open (h.stays hopen),
    require_ok hsegment, ok_bind, h.record _ hthere]

theorem save_again (harguments : saveArguments T st a given given' = .ok (status,refs))
    (hopen : Open s) (hsegment : safeSegment a.handoffId = true)
    (hload : load T st a.handoffId s = .ok e)
    (hsame : sameEnvelope e (envelopeOf a status refs) = true) :
    (save T st a given given' s).1 = .ok e := by
  obtain ⟨data,hdata⟩ := document_of_load hload
  have hmade : makeDirectory s = (.ok (),s) := by
    obtain ⟨root,run,record⟩ := s
    obtain ⟨rfl,rfl⟩ := hopen
    rfl
  simp only [save, harguments, hmade, hsegment, hdata, hload, hsame]
  rfl

/-- What `save` was given stays as it is once it is sanitized. -/
structure ArgumentsStay (T : HandoffTables) (a : HandoffArtifact) (given given' : Json) : Prop where
  artifact : Stays T a
  status : ∀ t, sanitizeText T "status" given = .ok t → Plain T t
  evidenceRefs : ∀ l, boundedRefs T given' = .ok l → ∀ t ∈ l, Plain T t

theorem of_saveArguments (h : saveArguments T st a given given' = .ok (status,refs)) :
    checkOwner st a = .ok () ∧ sanitizeText T "status" given = .ok status ∧
      boundedRefs T given' = .ok refs := by
  obtain ⟨u,howner,h⟩ := ok_of_bind h
  obtain ⟨t,hstatus,h⟩ := ok_of_bind h
  obtain ⟨l,hrefs,h⟩ := ok_of_bind h
  cases h
  exact ⟨howner,hstatus,hrefs⟩

theorem recordStays_iff (h : saveArguments T st a given given' = .ok (status,refs)) :
    RecordStays T a status refs ↔ ArgumentsStay T a given given' := by
  obtain ⟨-,hstatus,hrefs⟩ := of_saveArguments h
  constructor
  · rintro ⟨ha,hs,hl⟩
    refine ⟨ha,fun t ht => ?_,fun l hl' => ?_⟩
    · rw [hstatus] at ht
      cases ht
      exact hs
    · rw [hrefs] at hl'
      cases hl'
      exact hl
  · exact fun hst => ⟨hst.artifact,hst.status status hstatus,hst.evidenceRefs refs hrefs⟩

/-- A record that was written is loaded as it was if and only if its texts stay as they are. -/
theorem load_record_iff (ha : Formed T a)
    (harguments : saveArguments T st a given given' = .ok (status,refs)) (hopen : Open s)
    (hsegment : safeSegment a.handoffId = true)
    (hrecord : s.record a.handoffId = .document (.obj (recordOf a status refs))) :
    load T st a.handoffId s = .ok (envelopeOf a status refs) ↔ ArgumentsStay T a given given' := by
  obtain ⟨howner,-,hrefs⟩ := of_saveArguments harguments
  obtain ⟨hlen,hrel⟩ := of_boundedRefs hrefs
  rw [← recordStays_iff harguments, ← decode_record ha hlen hrel, load_open hopen hsegment hrecord]
  constructor
  · intro h
    obtain ⟨e,he,h⟩ := ok_of_bind h
    obtain ⟨u,-,h⟩ := ok_of_bind h
    cases h
    exact he
  · intro h
    rw [h, ok_bind]
    show (checkOwner st a >>= _) = _
    rw [howner]
    rfl

/-- What `save` has returned is loaded later, and returned when the same is saved again, if and
only if the record was there before or the texts that it is made of stay as they are. -/
theorem save_load_iff (T : HandoffTables) (st : HandoffStore) (a : HandoffArtifact)
    (given given' : Json) (s s' : Shelf) (e : HandoffEnvelope) (calls : List SaveCall)
    (ha : Constructed T a) (h : save T st a given given' s = (.ok e,s')) :
    (load T st a.handoffId (later T calls s') = .ok e ∧
      (save T st a given given' (later T calls s')).1 = .ok e) ↔
    (s.record a.handoffId).exists = true ∨ ArgumentsStay T a given given' := by
  have hkeeps := later_keeps (T := T) calls s'
  have hsaved := save_saved T st a given given' s
  rw [h] at hsaved
  cases hsaved with
  | found status refs e s' harguments hopen hsegment hrecord hthere hload hsame =>
    have hthere' : (s'.record a.handoffId).exists = true := by
      rw [hrecord]
      exact hthere
    have hlater : load T st a.handoffId (later T calls s') = load T st a.handoffId s' :=
      load_keeps hkeeps hopen hsegment hthere'
    rw [hload] at hlater
    exact iff_of_true ⟨hlater,save_again harguments (hkeeps.stays hopen) hsegment hlater hsame⟩
      (Or.inl hthere)
  | wrote status refs s' harguments hopen hsegment hfree hrecord =>
    have hform := formed ha
    have hdata : s'.record a.handoffId = .document (.obj (recordOf a status refs)) := by
      rw [hrecord, Function.update_self]
    have hthere' : (s'.record a.handoffId).exists = true := by
      rw [hdata]
      rfl
    have hiff := load_record_iff hform harguments hopen hsegment hdata
    have hlater : load T st a.handoffId (later T calls s') = load T st a.handoffId s' :=
      load_keeps hkeeps hopen hsegment hthere'
    have hnew : ¬ (s.record a.handoffId).exists = true := by
      rw [hfree]
      exact Bool.false_ne_true
    rw [or_iff_right hnew, ← hiff, ← hlater]
    constructor
    · exact And.left
    · intro hload
      exact ⟨hload,save_again harguments (hkeeps.stays hopen) hsegment hload
        (sameEnvelope_self hform)⟩

/-! ## Two artifacts -/

/-- The tables on the characters of ASCII. -/
def asciiTables : HandoffTables where
  isWord _ := false
  lower := List.map Char.toLower
  isDigit _ := false
  isAlpha _ := false

def sampleLineage : HandoffLineage := ⟨"m","r","t","lane","a","s","builder",0⟩

def sampleArtifact (summary : String) : HandoffArtifact where
  handoffId := "h"
  reason := "handoff"
  summary := summary
  completed := []
  remaining := []
  decisions := []
  risks := []
  evidenceRefs := ["log"]
  nextAction := "go on"
  lineage := sampleLineage
  safety := [("external_dispatch",.bool false)]

def sampleStore : HandoffStore := ⟨"r",some 0,none⟩

def sampleShelf : Shelf := ⟨.missing,.missing,fun _ => .absent⟩

theorem sample_lineage : makeLineage asciiTables (.str "m") (.str "r") (.str "t") (.str "lane")
    (.str "a") (.str "s") (.str "builder") (.int 0) = .ok sampleLineage := rfl

theorem sample_constructed : Constructed asciiTables (sampleArtifact "done") :=
  ⟨⟨_,_,_,_,_,_,_,_,sample_lineage⟩,.str "h",.str "handoff",.str "done",.arr [],.arr [],.arr [],
    .arr [],.arr [.str "log"],.str "go on",.obj [("external_dispatch",.bool false)],rfl⟩

theorem leaky_constructed : Constructed asciiTables (sampleArtifact "[REDACTED]/x") :=
  ⟨⟨_,_,_,_,_,_,_,_,sample_lineage⟩,.str "h",.str "handoff",.str "sk-abcdefgh/x",.arr [],.arr [],
    .arr [],.arr [],.arr [.str "log"],.str "go on",.obj [("external_dispatch",.bool false)],rfl⟩

def savedShelf (summary : String) : Shelf where
  root := .directory
  run := .directory
  record := Function.update (fun _ => .absent) "h"
    (.document (.obj (recordOf (sampleArtifact summary) "ready" ["log"])))

theorem sample_saved : save asciiTables sampleStore (sampleArtifact "done") (.str "ready")
    (.arr [.str "log"]) sampleShelf =
    (.ok (envelopeOf (sampleArtifact "done") "ready" ["log"]),savedShelf "done") := rfl

theorem sample_loaded :
    load asciiTables sampleStore "h" (savedShelf "done") =
      .ok (envelopeOf (sampleArtifact "done") "ready" ["log"]) := by
  refine ((save_load_iff asciiTables sampleStore (sampleArtifact "done") (.str "ready")
    (.arr [.str "log"]) sampleShelf (savedShelf "done") _ [] sample_constructed sample_saved).mpr
    (Or.inr ⟨?_,?_,?_⟩)).1
  · have hlog : Plain asciiTables "log" := (sanitizeText_self (y := "item")).mp rfl
    refine ⟨(sanitizeText_self (y := "summary")).mp rfl,
      (sanitizeText_self (y := "next_action")).mp rfl,?_,?_,?_,?_,?_,?_⟩
    · exact fun t ht => (nomatch ht)
    · exact fun t ht => (nomatch ht)
    · exact fun t ht => (nomatch ht)
    · exact fun t ht => (nomatch ht)
    · exact fun t ht => (List.mem_singleton.mp ht) ▸ hlog
    · exact ⟨rfl,trivial,trivial⟩
  · intro t ht
    have hready : sanitizeText asciiTables "status" (.str "ready") = .ok "ready" := rfl
    rw [hready] at ht
    cases ht
    exact sanitizeText_self.mp hready
  · intro l hl t ht
    have hlog : boundedRefs asciiTables (.arr [.str "log"]) = .ok ["log"] := rfl
    rw [hlog] at hl
    cases hl
    rw [List.mem_singleton.mp ht]
    exact (sanitizeText_self (y := "item")).mp rfl

/-- A redacted credential leaves a text in which the next redaction sees a path. -/
theorem leaky_not_loaded : Constructed asciiTables (sampleArtifact "[REDACTED]/x") ∧
    save asciiTables sampleStore (sampleArtifact "[REDACTED]/x") (.str "ready") (.arr [.str "log"])
      sampleShelf =
      (.ok (envelopeOf (sampleArtifact "[REDACTED]/x") "ready" ["log"]),savedShelf "[REDACTED]/x") ∧
    load asciiTables sampleStore "h" (savedShelf "[REDACTED]/x") ≠
      .ok (envelopeOf (sampleArtifact "[REDACTED]/x") "ready" ["log"]) := by
  refine ⟨leaky_constructed,rfl,fun h => ?_⟩
  have harguments : saveArguments asciiTables sampleStore (sampleArtifact "[REDACTED]/x")
      (.str "ready") (.arr [.str "log"]) = .ok ("ready",["log"]) := rfl
  have hstay := (load_record_iff (formed leaky_constructed) harguments ⟨rfl,rfl⟩ rfl rfl).mp h
  have hchanged : redactText asciiTables "[REDACTED]/x".toList ≠ "[REDACTED]/x".toList := by
    decide +kernel
  exact hchanged hstay.artifact.summary.kept

end PdFleet.Handoff
