import PdFleet.Clock
import PdFleet.Printed
import PdFleet.Lib.Dict
import PdFleet.Lib.Guarded

/-!
# The activity bus

An emitter reads the session table and appends a status event for each session whose last
activity is later than the watermark of its agent and session. The watermark sees whole
seconds and no status. The bus ends at the current status, under distinct event ids, if
and only if no skipped session has changed its status and no emitted id is on the bus.
-/

set_option autoImplicit false

namespace PdFleet.ActivityBus

def WINDOW_HOURS : ℚ := 48
def RUNNING_FRESH_S : ℚ := 20*60
def MAX_META_STR : ℕ := 80

/-! ## The state database -/

structure SessionRow where
  id : String
  source : Option String := none
  model : Option String := none
  started_at : Option ℚ
  ended_at : Option ℚ := none
  message_count : Option ℤ := none
  tool_call_count : Option ℤ := none

structure MessageRow where
  id : ℤ
  session_id : String
  tool_name : Option String := none
  timestamp : Option ℚ

structure GatewayRow where
  backend_id : String
  profile : Option String := none
  host : Option String := none
  last_heartbeat : ℚ

/-- The tables that are read; a session and a backend are primary keys. -/
structure Database where
  sessions : List SessionRow
  messages : List MessageRow
  gateway_heartbeats : List GatewayRow
  sessionKey : (sessions.map (·.id)).Nodup
  gatewayKey : (gateway_heartbeats.map (·.backend_id)).Nodup

/-! ## Events -/

inductive Status where
  | running
  | waiting
  | done
  deriving DecidableEq

inductive Kind where
  | status
  | heartbeat
  deriving DecidableEq

inductive MetaValue where
  | str (s : String)
  | int (n : ℤ)
  deriving DecidableEq

/-- An event of the bus; `ts` is the instant whose text is printed, in whole seconds. -/
structure Event where
  event_id : String
  ts : ℤ
  agent_id : String
  run_id : String
  kind : Kind
  action : Option String
  status : Option Status
  metadata : List (String × MetaValue)
  deriving DecidableEq

/-- `_iso`, rounded to microseconds and printed in whole seconds. -/
def iso (epoch : ℚ) : ℤ := roundHalfEven (epoch*1000000)/1000000

/-- `int(epoch)`. -/
def truncate (epoch : ℚ) : ℤ := epoch.num.tdiv epoch.den

def clip (value : String) : String :=
  if value.length ≤ MAX_META_STR then value
  else String.ofList (value.toList.take (MAX_META_STR-1))++"…"

def nonEmpty (text : Option String) : Option String := text.filter (· ≠ "")

/-- `coalesce(ended_at, started_at)`. -/
def SessionRow.closed (r : SessionRow) : WithBot ℚ := r.ended_at.or r.started_at

/-- The rows that `session_events` selects at a cutoff. -/
def selectSessions (db : Database) (cutoff : ℚ) : List SessionRow :=
  ((db.sessions.filter (fun r => r.ended_at = none ∨ (cutoff : WithBot ℚ) ≤ r.closed)).insertionSort
    (fun r r' => r'.closed ≤ r.closed)).take 20

def lastMsg (db : Database) (sid : String) : Option ℚ :=
  ((db.messages.filter (·.session_id = sid)).filterMap (·.timestamp)).max?

def lastTool (db : Database) (sid : String) : Option String :=
  (((db.messages.filter (fun m => m.session_id = sid ∧ m.tool_name.isSome)).insertionSort
    (fun m m' => m'.id ≤ m.id)).head?.bind (·.tool_name))

def statusAt (now last_ts : ℚ) (ended_at : Option ℚ) : Status :=
  if ended_at.isSome then .done else if now-last_ts ≤ RUNNING_FRESH_S then .running else .waiting

/-- The event of a selected session, or none: it has no stamp, or its activity is old. -/
def sessionEvent (db : Database) (now : ℚ) (r : SessionRow) : Option Event :=
  match ((lastMsg db r.id).toList++r.started_at.toList).max? with
  | none => none
  | some last_ts =>
    if last_ts < now-WINDOW_HOURS*3600 then none
    else some {
      event_id := "hermes:sess:"++(r.id++(":"++toString (truncate last_ts)))
      ts := iso last_ts
      agent_id := "hermes:"++(nonEmpty r.source).getD "unknown"
      run_id := r.id
      kind := .status
      action := nonEmpty (lastTool db r.id)
      status := some (statusAt now last_ts r.ended_at)
      metadata := ((nonEmpty r.model).map (fun m => ("model",.str (clip m)))).toList ++
        (r.message_count.map (fun n => ("msgs",.int n))).toList ++
        (r.tool_call_count.map (fun n => ("tools",.int n))).toList }

def sessionEvents (db : Database) (now : ℚ) : List Event :=
  (selectSessions db (now-WINDOW_HOURS*3600)).filterMap (sessionEvent db now)

/-- The name of a gateway: its profile, or its backend. -/
def GatewayRow.key (r : GatewayRow) : String := (nonEmpty r.profile).getD r.backend_id

def gatewayEvent (r : GatewayRow) : Event where
  event_id := "hermes:gw:"++(r.backend_id++(":"++toString (truncate r.last_heartbeat)))
  ts := iso r.last_heartbeat
  agent_id := "gateway:"++r.key
  run_id := r.backend_id
  kind := .heartbeat
  action := none
  status := none
  metadata := [("host",.str (clip (r.host.getD "")))]

/-- The first row of each name. -/
def firstOfKey (seen : List String) : List GatewayRow → List GatewayRow
  | [] => []
  | r :: rows =>
    if r.key ∈ seen then firstOfKey seen rows else r :: firstOfKey (r.key :: seen) rows

def gatewayEvents (db : Database) : List Event :=
  (firstOfKey [] ((db.gateway_heartbeats.insertionSort
    (fun r r' => r'.last_heartbeat ≤ r.last_heartbeat)).take 8)).map gatewayEvent

def candidates (db : Database) (now : ℚ) : List Event := sessionEvents db now++gatewayEvents db

/-! ## The emitter -/

/-- The key of a watermark. -/
def Event.key (ev : Event) : String := ev.agent_id++"|"++ev.run_id

abbrev Watermarks := Dict String ℤ

def mark (wm : Watermarks) (key : String) : ℤ := (wm.lookup key).getD 0

/-- The loop over the candidates: the watermarks after it, and the fresh events. -/
def fresh (wm : Watermarks) : List Event → Watermarks × List Event
  | [] => (wm,[])
  | ev :: evs =>
    if ev.ts ≤ mark wm ev.key then fresh wm evs
    else
      let rest := fresh (wm.insert ev.key ev.ts) evs
      (rest.1,ev :: rest.2)

/-- What the emitter keeps: the lines of the bus, and the watermarks. -/
structure Kept where
  bus : List Event := []
  watermarks : Watermarks := ∅

/-- A run of the emitter. -/
structure Run where
  db : Database
  now : ℚ
  dry_run : Bool := false

def emit (s : Kept) (r : Run) : Kept :=
  let found := fresh s.watermarks (candidates r.db r.now)
  if found.2 ≠ [] ∧ !r.dry_run then ⟨s.bus++found.2,found.1⟩ else s

/-- The status of a session on the bus: that of its last status event. -/
def shown (bus : List Event) (sid : String) : Option Status :=
  ((bus.filter (fun ev => ev.kind = .status ∧ ev.run_id = sid)).getLast?).bind (·.status)

/-- After a run that writes, each session it listed is shown with its status. -/
def Current (s : Kept) (r : Run) : Prop :=
  r.dry_run = false → ∀ ev ∈ sessionEvents r.db r.now, shown (emit s r).bus ev.run_id = ev.status

def Distinct (s : Kept) : Prop := (s.bus.map (·.event_id)).Nodup

/-- The event passes the watermark of its agent and session, and the earlier candidates of
its run do not hold it back. -/
def Passes (s : Kept) (before : List Event) (ev : Event) : Prop :=
  mark s.watermarks ev.key < ev.ts ∧ ∀ f ∈ before, f.key = ev.key → f.ts < ev.ts

/-- A session that does not pass keeps the status it is shown with, and what passes has an
id that is not on the bus. -/
def Guard (s : Kept) (r : Run) : Prop :=
  r.dry_run = false → ∀ before ev after, candidates r.db r.now = before++ev :: after →
    (ev ∈ sessionEvents r.db r.now → ¬Passes s before ev → shown s.bus ev.run_id = ev.status) ∧
    (Passes s before ev → ∀ f ∈ s.bus, f.event_id ≠ ev.event_id)

/-! ## Event ids -/

variable {db : Database} {now : ℚ} {s : Kept} {r : Run} {ev f : Event} {wm : Watermarks}

theorem colon_notMem (n : ℤ) : ':' ∉ (toString n).toList := by
  intro h
  have hc := List.all_eq_true.mp (scalarWord_int n).2 ':' h
  revert hc
  decide

/-- The number after the last colon of an id is not part of the name before it. -/
theorem name_of_id {a b : String} {m n : ℤ}
    (h : a++(":"++toString m) = b++(":"++toString n)) : a = b := by
  have hl : a.toList ++ ':' :: (toString m).toList = b.toList ++ ':' :: (toString n).toList := by
    have hlist := congrArg String.toList h
    rw [String.toList_append, String.toList_append, String.toList_append, String.toList_append] at hlist
    exact hlist
  rw [← String.toList_inj]
  rcases List.append_eq_append_iff.mp hl with ⟨w,hw,ht⟩ | ⟨w,hw,ht⟩
  · cases w with
    | nil => exact (hw.trans (List.append_nil _)).symm
    | cons c w =>
      have hm := (List.cons.inj ht).2
      exact absurd (hm ▸ List.mem_append_right w List.mem_cons_self) (colon_notMem m)
  · cases w with
    | nil => exact hw.trans (List.append_nil _)
    | cons c w =>
      have hn := (List.cons.inj ht).2
      exact absurd (hn ▸ List.mem_append_right w List.mem_cons_self) (colon_notMem n)

theorem sessionEvent_spec {row : SessionRow} (h : sessionEvent db now row = some ev) :
    ev.run_id = row.id ∧ ev.kind = .status ∧
      ∃ n : ℤ, ev.event_id = "hermes:sess:"++(row.id++(":"++toString n)) := by
  rw [sessionEvent] at h
  split at h
  · cases h
  · split_ifs at h
    obtain rfl := Option.some.inj h
    exact ⟨rfl,rfl,_,rfl⟩

theorem selectSessions_nodup (cutoff : ℚ) : ((selectSessions db cutoff).map (·.id)).Nodup := by
  have hsort := List.perm_insertionSort (fun r r' : SessionRow => r'.closed ≤ r.closed)
    (db.sessions.filter (fun r => r.ended_at = none ∨ (cutoff : WithBot ℚ) ≤ r.closed))
  have hfilter : ((db.sessions.filter
      (fun r => r.ended_at = none ∨ (cutoff : WithBot ℚ) ≤ r.closed)).map (·.id)).Nodup :=
    db.sessionKey.sublist (List.filter_sublist.map _)
  exact ((hsort.map _).nodup_iff.mpr hfilter).sublist ((List.take_sublist 20 _).map _)

theorem sessionEvents_nodup : ((sessionEvents db now).map (·.run_id)).Nodup := by
  have hsub : ∀ rows : List SessionRow,
      ((rows.filterMap (sessionEvent db now)).map (·.run_id)).Sublist (rows.map (·.id)) := by
    intro rows
    induction rows with
    | nil => exact List.Sublist.refl _
    | cons row rows ih =>
      cases hrow : sessionEvent db now row with
      | none =>
        rw [List.filterMap_cons_none hrow]
        exact ih.cons _
      | some ev =>
        rw [List.filterMap_cons_some hrow, List.map_cons, List.map_cons,
          (sessionEvent_spec hrow).1]
        exact ih.cons_cons _
  exact (selectSessions_nodup _).sublist (hsub _)

theorem mem_sessionEvents (h : ev ∈ sessionEvents db now) :
    ev.kind = .status ∧ ∃ n : ℤ, ev.event_id = "hermes:sess:"++(ev.run_id++(":"++toString n)) := by
  obtain ⟨row,-,hrow⟩ := List.mem_filterMap.mp h
  obtain ⟨hid,hkind,hev⟩ := sessionEvent_spec hrow
  exact ⟨hkind,hid ▸ hev⟩

theorem firstOfKey_sublist (seen : List String) (rows : List GatewayRow) :
    (firstOfKey seen rows).Sublist rows := by
  induction rows generalizing seen with
  | nil => exact List.Sublist.refl _
  | cons row rows ih =>
    rw [firstOfKey]
    split_ifs
    · exact (ih seen).cons _
    · exact (ih _).cons_cons _

theorem gatewayEvents_nodup : ((gatewayEvents db).map (·.event_id)).Nodup := by
  have hrows : ((firstOfKey [] ((db.gateway_heartbeats.insertionSort
      (fun r r' => r'.last_heartbeat ≤ r.last_heartbeat)).take 8)).map (·.backend_id)).Nodup := by
    refine List.Nodup.sublist (((firstOfKey_sublist _ _).trans (List.take_sublist 8 _)).map _) ?_
    exact ((List.perm_insertionSort _ _).map _).nodup_iff.mpr db.gatewayKey
  rw [gatewayEvents, List.map_map]
  refine List.Nodup.map_on ?_ (List.Nodup.of_map _ hrows)
  intro row hrow row' hrow' h
  have hid := name_of_id (String.append_right_inj "hermes:gw:" |>.mp h)
  exact List.inj_on_of_nodup_map hrows hrow hrow' hid

theorem mem_gatewayEvents (h : ev ∈ gatewayEvents db) :
    ev.kind = .heartbeat ∧ ∃ name : String, ev.event_id = "hermes:gw:"++name := by
  obtain ⟨row,-,rfl⟩ := List.mem_map.mp h
  exact ⟨rfl,_,rfl⟩

/-- The ids of the candidates of a run are distinct. -/
theorem candidates_nodup : ((candidates db now).map (·.event_id)).Nodup := by
  rw [candidates, List.map_append, List.nodup_append]
  refine ⟨?_,gatewayEvents_nodup,?_⟩
  · refine List.Nodup.map_on ?_ (List.Nodup.of_map _ sessionEvents_nodup)
    intro ev hev f hf h
    obtain ⟨-,m,hm⟩ := mem_sessionEvents hev
    obtain ⟨-,n,hn⟩ := mem_sessionEvents hf
    rw [hm, hn] at h
    exact List.inj_on_of_nodup_map sessionEvents_nodup hev hf
      (name_of_id ((String.append_right_inj "hermes:sess:").mp h))
  · rintro id hid id' hid' rfl
    obtain ⟨ev,hev,rfl⟩ := List.mem_map.mp hid
    obtain ⟨f,hf,hfe⟩ := List.mem_map.mp hid'
    obtain ⟨-,m,hm⟩ := mem_sessionEvents hev
    obtain ⟨-,name,hname⟩ := mem_gatewayEvents hf
    rw [hm, hname] at hfe
    have hlist := congrArg String.toList hfe
    rw [String.toList_append, String.toList_append] at hlist
    exact absurd hlist (by simp)

/-! ## What passes the watermarks -/

theorem fresh_sublist (wm : Watermarks) (evs : List Event) : (fresh wm evs).2.Sublist evs := by
  induction evs generalizing wm with
  | nil => exact List.Sublist.refl _
  | cons ev evs ih =>
    rw [fresh]
    split_ifs
    · exact (ih wm).cons _
    · exact (ih _).cons_cons _

theorem mark_insert (wm : Watermarks) (key k : String) (t : ℤ) :
    mark (wm.insert key t) k = if k = key then t else mark wm k := by
  rw [mark, Dict.lookup_insert_eq]
  split_ifs <;> rfl

/-- An event passes the marks that some events leave if and only if it passes the marks
before them and comes later than those of its key. -/
theorem mark_fresh_lt (wm : Watermarks) (before : List Event) (key : String) (t : ℤ) :
    mark (fresh wm before).1 key < t ↔
      mark wm key < t ∧ ∀ f ∈ before, f.key = key → f.ts < t := by
  induction before generalizing wm with
  | nil => simp [fresh]
  | cons f before ih =>
    rw [fresh, List.forall_mem_cons]
    split_ifs with hf
    · rw [ih]
      constructor
      · rintro ⟨h1,h2⟩
        exact ⟨h1,fun hk => (hk ▸ hf).trans_lt h1,h2⟩
      · rintro ⟨h1,-,h2⟩
        exact ⟨h1,h2⟩
    · rw [ih, mark_insert]
      split_ifs with hk
      · subst hk
        constructor
        · rintro ⟨h1,h2⟩
          exact ⟨(not_le.mp hf).trans h1,fun _ => h1,h2⟩
        · rintro ⟨-,h1,h2⟩
          exact ⟨h1 rfl,h2⟩
      · constructor
        · rintro ⟨h1,h2⟩
          exact ⟨h1,fun h => absurd h.symm hk,h2⟩
        · rintro ⟨h1,-,h2⟩
          exact ⟨h1,h2⟩

theorem fresh_append (wm : Watermarks) (evs rest : List Event) :
    fresh wm (evs++rest) =
      ((fresh (fresh wm evs).1 rest).1,(fresh wm evs).2++(fresh (fresh wm evs).1 rest).2) := by
  induction evs generalizing wm with
  | nil => rfl
  | cons ev evs ih =>
    rw [List.cons_append, fresh, fresh]
    split_ifs
    · exact ih wm
    · rw [ih]
      rfl

/-- A candidate is fresh if and only if it passes. -/
theorem mem_fresh_iff {before after : List Event}
    (hnodup : ((before++ev :: after).map (·.event_id)).Nodup) :
    ev ∈ (fresh s.watermarks (before++ev :: after)).2 ↔ Passes s before ev := by
  have hids : ev.event_id ∉ (before++after).map (·.event_id) := by
    rw [List.map_append, List.map_cons] at hnodup
    rw [List.map_append]
    exact (List.nodup_cons.mp (List.nodup_middle.mp hnodup)).1
  have hbefore : ev ∉ (fresh s.watermarks before).2 := fun h =>
    hids (List.mem_map_of_mem (List.mem_append_left after ((fresh_sublist _ _).mem h)))
  rw [Passes, ← mark_fresh_lt, fresh_append, List.mem_append, or_iff_right hbefore, fresh]
  split_ifs with hle
  · refine ⟨fun h => ?_,fun h => absurd h (not_lt.mpr hle)⟩
    exact absurd (List.mem_map_of_mem (List.mem_append_right before ((fresh_sublist _ _).mem h))) hids
  · exact ⟨fun _ => not_le.mp hle,fun _ => List.mem_cons_self⟩

/-! ## The guard of a run -/

def freshOf (s : Kept) (r : Run) : List Event := (fresh s.watermarks (candidates r.db r.now)).2

theorem emit_bus (h : r.dry_run = false) : (emit s r).bus = s.bus++freshOf s r := by
  simp only [emit, h]
  split_ifs with hne
  · rfl
  · have hnil : freshOf s r = [] := not_ne_iff.mp (fun hc => hne ⟨hc,rfl⟩)
    rw [hnil, List.append_nil]

theorem emit_dry (h : r.dry_run = true) : emit s r = s := by
  simp [emit, h]

/-- The status events of a listed session among the fresh ones: its own, if any. -/
theorem eq_of_fresh (hev : ev ∈ sessionEvents r.db r.now) (hf : f ∈ freshOf s r)
    (hkind : f.kind = .status) (hrun : f.run_id = ev.run_id) : f = ev := by
  rcases List.mem_append.mp ((fresh_sublist _ _).mem hf) with hf | hf
  · exact List.inj_on_of_nodup_map sessionEvents_nodup hf hev hrun
  · rw [(mem_gatewayEvents hf).1] at hkind
    cases hkind

/-- A listed session is shown with its status if its event is fresh, and as before if not. -/
theorem shown_emit (h : r.dry_run = false) (hev : ev ∈ sessionEvents r.db r.now) :
    shown (emit s r).bus ev.run_id =
      if ev ∈ freshOf s r then ev.status else shown s.bus ev.run_id := by
  have hmem : ∀ f ∈ (freshOf s r).filter (fun f => f.kind = .status ∧ f.run_id = ev.run_id),
      f ∈ freshOf s r ∧ f = ev := by
    intro f hf
    obtain ⟨hf,hp⟩ := List.mem_filter.mp hf
    obtain ⟨hkind,hrun⟩ := of_decide_eq_true hp
    exact ⟨hf,eq_of_fresh hev hf hkind hrun⟩
  rw [emit_bus h, shown, List.filter_append, List.getLast?_append]
  split_ifs with hfresh
  · have hin : ev ∈ (freshOf s r).filter (fun f => f.kind = .status ∧ f.run_id = ev.run_id) :=
      List.mem_filter.mpr ⟨hfresh,decide_eq_true ⟨(mem_sessionEvents hev).1,rfl⟩⟩
    have hlast := List.getLast?_eq_getLast_of_ne_nil (List.ne_nil_of_mem hin)
    rw [hlast, (hmem _ (List.getLast_mem (List.ne_nil_of_mem hin))).2]
    rfl
  · have hnil : (freshOf s r).filter (fun f => f.kind = .status ∧ f.run_id = ev.run_id) = [] := by
      refine List.eq_nil_iff_forall_not_mem.mpr (fun f hf => ?_)
      obtain ⟨hmem,he⟩ := hmem f hf
      exact hfresh (he ▸ hmem)
    rw [hnil]
    rfl

theorem current_iff (h : r.dry_run = false) : Current s r ↔
    ∀ ev ∈ sessionEvents r.db r.now, ev ∉ freshOf s r → shown s.bus ev.run_id = ev.status := by
  constructor
  · intro hc ev hev hfresh
    have hshown := hc h ev hev
    rwa [shown_emit h hev, if_neg hfresh] at hshown
  · intro hc _ ev hev
    rw [shown_emit h hev]
    split_ifs with hfresh
    · rfl
    · exact hc ev hev hfresh

theorem distinct_iff (h : r.dry_run = false) (hs : Distinct s) : Distinct (emit s r) ↔
    ∀ ev ∈ freshOf s r, ∀ f ∈ s.bus, f.event_id ≠ ev.event_id := by
  have hfresh : ((freshOf s r).map (·.event_id)).Nodup :=
    candidates_nodup.sublist ((fresh_sublist _ _).map _)
  rw [Distinct, emit_bus h, List.map_append, List.nodup_append]
  constructor
  · rintro ⟨-,-,hd⟩ ev hev f hf
    exact hd _ (List.mem_map_of_mem hf) _ (List.mem_map_of_mem hev)
  · intro hd
    refine ⟨hs,hfresh,?_⟩
    intro id hid id' hid'
    obtain ⟨f,hf,rfl⟩ := List.mem_map.mp hid
    obtain ⟨ev,hev,rfl⟩ := List.mem_map.mp hid'
    exact hd ev hev f hf

/-- The guard of a run is exact. -/
theorem guard_emit (hs : Distinct s) :
    Guard s r ↔ Distinct (emit s r) ∧ Current s r := by
  cases h : r.dry_run with
  | true =>
    rw [Guard, Current, emit_dry h]
    simp [h, hs]
  | false =>
    rw [distinct_iff h hs, current_iff h]
    have hsplit : ∀ {before ev after}, candidates r.db r.now = before++ev :: after →
        (ev ∈ freshOf s r ↔ Passes s before ev) := by
      intro before ev after hc
      have hnodup : ((candidates r.db r.now).map (·.event_id)).Nodup := candidates_nodup
      rw [freshOf, hc]
      rw [hc] at hnodup
      exact mem_fresh_iff hnodup
    constructor
    · intro hg
      constructor
      · intro ev hev
        obtain ⟨before,after,hc⟩ := List.append_of_mem ((fresh_sublist _ _).mem hev)
        exact (hg h before ev after hc).2 ((hsplit hc).mp hev)
      · intro ev hev hskip
        obtain ⟨before,after,hc⟩ := List.append_of_mem (List.mem_append_left (gatewayEvents r.db) hev)
        exact (hg h before ev after hc).1 hev (fun hp => hskip ((hsplit hc).mpr hp))
    · rintro ⟨hd,hcur⟩ - before ev after hc
      exact ⟨fun hev hp => hcur ev hev (fun hf => hp ((hsplit hc).mp hf)),
        fun hp => hd ev ((hsplit hc).mpr hp)⟩

/-! ## Runs -/

/-- **The bus ends at the current status, under distinct ids, after each run** of any
history of the tables, if and only if each run finds what it skips unchanged and what it
emits without an event of its id. -/
theorem bus_current_iff (runs : List Run) :
    (Guarded.EachState emit Distinct {} runs ∧ Guarded.EachStep emit Current {} runs) ↔
      Guarded.EachStep emit Guard {} runs := by
  have h0 : Distinct ({} : Kept) := List.nodup_nil
  refine (Guarded.guarded_iff ?_ h0 runs).symm
  intro s r hs
  exact guard_emit hs

/-- A database of one session, which started at 1000 and has no messages. -/
def oneSession (ended_at : Option ℚ) : Database where
  sessions := [⟨"s1",some "cli",none,some 1000,ended_at,none,none⟩]
  messages := []
  gateway_heartbeats := []
  sessionKey := by simp
  gatewayKey := by simp

/-- The session is running at 1100, and has ended at 1200. -/
def runningThenEnded : List Run := [⟨oneSession none,1100,false⟩, ⟨oneSession (some 1200),1300,false⟩]

/-- A session that ends without another message stays running on the bus. -/
theorem ended_stays_running : ¬(Guarded.EachState emit Distinct {} runningThenEnded ∧
    Guarded.EachStep emit Current {} runningThenEnded) := by
  rintro ⟨-,h⟩
  have hcurrent := h [⟨oneSession none,1100,false⟩] ⟨oneSession (some 1200),1300,false⟩
    List.prefix_rfl rfl
  revert hcurrent
  decide +kernel

end PdFleet.ActivityBus
