import PdFleet.Scheduler

/-!
# What a section changes

The kinds of change that a section can make to the state it read, with the
facts that its guards have established. Every state that a section writes is
one of these changes or one more event, stamped: its generation is one larger
and its time is the clock's.
-/

set_option autoImplicit false

namespace PdFleet

open Dict

def stamped (c : Snapshot) (stamp : String) : Snapshot :=
  { c with generation := c.generation+1, updatedAt := stamp }

/-- A token that names the lease of a task. -/
def Holds (s : Snapshot) (taskId : String) (token : Json) (l : Lease) : Prop :=
  s.leases.lookup taskId = some l ∧ ∃ o, token = .obj o ∧ tokenShape s o = true ∧
    hasText o "task_id" taskId = true ∧ tokenNames o l = true

/-- One more event in the log. -/
def logged (s : Snapshot) (rows : List Obj) (item : Obj) : Snapshot :=
  { s with events := .list (rows++[item]), eventSequence := s.eventSequence+1 }

/-- A change of the state `s`, other than an event of the caller's, before it is
stamped. -/
inductive Change (D : Deps) (s : Snapshot) : Snapshot → Prop
  | status (st : RunStatus) (h : s.status.terminal = true → s.status = st) :
      Change D s { s with status := st }
  | taskStatus (taskId : String) (st : TaskStatus) (known : List String)
      (hk : knownIds s.plan = .ok known) (ht : taskId ∈ known)
      (hr : s.reports.lookup taskId = none) :
      Change D s { s with tasks := setTaskStatus s.tasks taskId st,
                          leases := s.leases.erase taskId }
  | terminal (taskId : String) (rows : List Obj) (record : ReportRecord)
      (hid : isId taskId = true) (he : s.events = .list rows)
      (hr : s.reports.lookup taskId = some record) :
      Change D s (logged s rows (terminalEvent taskId record.status (s.eventSequence+1)))
  | grant (kept : Dict String Lease) (now expiry : String) (seconds : Seconds)
      (token : ℕ → HexToken) (chosen : List String)
      (hk : Sub kept s.leases) (hn : (utcInstant now).isSome)
      (he : plusSeconds now seconds = .ok expiry) (hc : chosen.Nodup)
      (hf : ∀ t ∈ chosen, isId t = true ∧ s.closed t = false ∧
        ∀ l, s.leases.lookup t = some l → l.activeAt now = false) :
      Change D s (install { s with leases := kept }
        (grants s.owner expiry (s.generation+1) token chosen))
  | renew (taskId now expiry : String) (token : Json) (seconds : Seconds) (l : Lease)
      (fresh : HexToken) (hh : Holds s taskId token l) (hn : (utcInstant now).isSome)
      (ha : l.activeAt now = true) (he : plusSeconds now seconds = .ok expiry) :
      Change D s { s with
        leases := s.leases.insert taskId (l.refreshed fresh.text expiry (s.generation+1)) }
  | commit (taskId now : String) (token : Json) (st : ReportStatus) (given : Obj) (l : Lease)
      (hh : Holds s taskId token l) (hn : (utcInstant now).isSome)
      (ha : l.activeAt now = true) (hr : s.reports.lookup taskId = none)
      (hv : validReport (redactFields D given) st = true) :
      Change D s { s with
        reports := s.reports.insert taskId
          (reportRecord st (redactFields D given) ((s.attempts.lookup taskId).getD 1) l),
        tasks := setTaskStatus s.tasks taskId st.task,
        leases := s.leases.erase taskId }
  | drop (leases : Dict String Lease) (hl : Sub leases s.leases) :
      Change D s { s with leases := leases }

/-- The state `c` that is written over `s`. -/
def Next (D : Deps) (s c : Snapshot) : Prop :=
  ∃ c₀ stamp, Change D s c₀ ∧ (utcInstant stamp).isSome ∧ c = stamped c₀ stamp

/-- The item of a caller's event under the next sequence number of `s`. -/
def numbered (s : Snapshot) (item : Obj) : Obj := item.put "sequence" (.int (s.eventSequence+1))

/-- The state `c` that is written over `s` with an event `given` by a caller. -/
def NextEvent (D : Deps) (s : Snapshot) (given : Obj) (c : Snapshot) : Prop :=
  ∃ rows item stamp, s.events = .list rows ∧ eventItem (redactFields D given) = .ok item ∧
    (utcInstant stamp).isSome ∧ c = stamped (logged s rows (numbered s item)) stamp

/-! ## Reading the bodies -/

theorem of_clockValue {v : Json} {now : String} (h : clockValue v = .ok now) :
    v = .str now ∧ (utcInstant now).isSome := by
  cases v with
  | str s =>
    rw [clockValue] at h
    split at h
    · cases h
      exact ⟨rfl,‹_›⟩
    · cases h
  | null => cases h
  | bool b => cases h
  | int n => cases h
  | float r => cases h
  | arr xs => cases h
  | obj kvs => cases h

theorem of_safeIdText {value task : String} (h : safeIdText value = .ok task) :
    task = value ∧ isId value = true := by
  rw [safeIdText] at h
  split at h
  · cases h
    exact ⟨rfl,‹_›⟩
  · cases h

theorem of_checkOwner {s : Snapshot} {owner : String} {u : Unit}
    (h : checkOwner s owner = .ok u) : s.owner = owner := by
  rw [checkOwner] at h
  split at h
  · assumption
  · cases h

theorem of_mutate {owner : String} {expected : Json} {fn : Snapshot → Except PyError Snapshot}
    {x : Draws} {s c : Snapshot} (h : mutate owner expected fn x s = .ok c) :
    s.owner = owner ∧ ∃ c₀ stamp, fn s = .ok c₀ ∧ x.stamp = .str stamp ∧
      (utcInstant stamp).isSome ∧ c = stamped c₀ stamp := by
  obtain ⟨_,ho,h⟩ := ok_of_bind h
  obtain ⟨_,-,h⟩ := ok_of_bind h
  obtain ⟨c₀,hf,h⟩ := ok_of_bind h
  obtain ⟨stamp,hs,h⟩ := ok_of_bind h
  cases h
  exact ⟨of_checkOwner ho,c₀,stamp,hf,(of_clockValue hs).1,(of_clockValue hs).2,rfl⟩

theorem of_checkToken {s : Snapshot} {taskId : String} {token now : Json} {l : Lease}
    (h : checkToken s taskId token now = .ok l) :
    Holds s taskId token l ∧ ∃ t, now = .str t ∧ (utcInstant t).isSome ∧ l.activeAt t = true := by
  obtain ⟨o,hs,hr⟩ := ok_of_bind h
  obtain ⟨t,ht,hr⟩ := ok_of_bind hr
  obtain ⟨hnow,hclock⟩ := of_clockValue ht
  cases token with
  | obj o' =>
    rw [validateTokenShape] at hs
    split at hs
    · rename_i hshape
      rw [Bool.and_eq_true] at hshape
      split at hr
      · rename_i l' hl
        split at hr
        · rename_i hn
          rw [Bool.and_eq_true] at hn
          cases hr
          cases hs
          exact ⟨⟨hl,o,rfl,hshape.1,hshape.2,hn.1⟩,t,hnow,hclock,hn.2⟩
        · cases hr
      · cases hr
    · cases hs
  | null => cases hs
  | bool b => cases hs
  | int n => cases hs
  | float r => cases hs
  | str t => cases hs
  | arr xs => cases hs

theorem of_push {r r' : Rows} {row : Obj} (h : r.push row = .ok r') :
    ∃ rows, r = .list rows ∧ r' = .list (rows++[row]) := by
  cases r with
  | list rows =>
    cases h
    exact ⟨rows,rfl,rfl⟩
  | dict => cases h

/-! ## One kind of section after another -/

section

variable {D : Deps} {x : Draws} {body : Body} {s c : Snapshot} {r : Reply}

/-- A `transition` that returns keeps a terminal status. -/
theorem of_transition {status expected : Json} {owner : String} {o : Option Snapshot}
    (hb : transition status owner expected x = .ok body) (h : body s = .ok (o,r)) :
    ∃ st stamp, status.text?.bind RunStatus.ofText = some st ∧
      (s.status.terminal = true → s.status = st) ∧ (utcInstant stamp).isSome ∧
      let c := stamped { s with status := st } stamp
      o = some c ∧ r = .state c := by
  cases hb
  obtain ⟨c',hm,h⟩ := ok_of_bind h
  cases h
  obtain ⟨-,c₀,stamp,hf,-,hs,rfl⟩ := of_mutate hm
  cases hst : status.text?.bind RunStatus.ofText with
  | none =>
    rw [hst] at hf
    cases hf
  | some st =>
    rw [hst] at hf
    simp only at hf
    split at hf
    · cases hf
    · cases hf
      rename_i hn
      exact ⟨st,stamp,rfl,fun ht => by_contra fun hne => hn ⟨ht,hne⟩,hs,rfl,rfl⟩

theorem transition_next {status expected : Json} {owner : String}
    (hb : transition status owner expected x = .ok body) (h : body s = .ok (some c,r)) :
    Next D s c := by
  obtain ⟨st,stamp,-,hn,hs,hc,-⟩ := of_transition hb h
  cases hc
  exact ⟨_,stamp,.status st hn,hs,rfl⟩

/-- An `update_task_status` that returns is about a task of the plan with no report. -/
theorem of_updateTaskStatus {taskId owner : String} {status expected : Json}
    {o : Option Snapshot} (hb : updateTaskStatus taskId status owner expected x = .ok body)
    (h : body s = .ok (o,r)) :
    ∃ st known stamp, status.text?.bind TaskStatus.ofText = some st ∧
      knownIds s.plan = .ok known ∧ taskId ∈ known ∧ s.reports.lookup taskId = none ∧
      (utcInstant stamp).isSome ∧
      let c := stamped { s with tasks := setTaskStatus s.tasks taskId st,
                                leases := s.leases.erase taskId } stamp
      o = some c ∧ r = .state c := by
  obtain ⟨task,hid,hb⟩ := ok_of_bind hb
  split at hb
  · cases hb
  · cases hb
    rename_i st hst
    obtain ⟨c',hm,h⟩ := ok_of_bind h
    cases h
    obtain ⟨-,c₀,stamp,hf,-,hs,rfl⟩ := of_mutate hm
    obtain ⟨known,hk,hf⟩ := ok_of_bind hf
    split at hf
    · cases hf
    · split at hf
      · cases hf
      · cases hf
        rename_i ht hr
        obtain ⟨rfl,-⟩ := of_safeIdText hid
        exact ⟨st,known,stamp,hst,hk,not_not.mp ht,by simpa using hr,hs,rfl,rfl⟩

theorem updateTaskStatus_next {taskId owner : String} {status expected : Json}
    (hb : updateTaskStatus taskId status owner expected x = .ok body)
    (h : body s = .ok (some c,r)) : Next D s c := by
  obtain ⟨st,known,stamp,-,hk,ht,hr,hs,hc,-⟩ := of_updateTaskStatus hb h
  cases hc
  exact ⟨_,stamp,.taskStatus taskId st known hk ht hr,hs,rfl⟩

/-- The events that are the terminal event of a task by id and ordering key. -/
def canonicalEvents (s : Snapshot) (taskId : String) : List Obj :=
  s.events.items.filter (fun e => hasText e "event_id" taskId && hasText e "ordering_key" taskId)

/-- An `append_terminal_event_if_absent` that returns has found the report of the task,
and its event, or has appended it. -/
theorem of_appendTerminal {taskId owner : String} {expected : Json} {o : Option Snapshot}
    (hb : appendTerminalEventIfAbsent taskId owner expected x = .ok body)
    (h : body s = .ok (o,r)) :
    isId taskId = true ∧ ∃ record, s.reports.lookup taskId = some record ∧
      ((∃ first, canonicalEvents s taskId ≠ [] ∧ (canonicalEvents s taskId).any
          (fun e => hasText e "task_id" taskId && hasText e "status" record.status.text) = true ∧
        o = none ∧ r = .terminalEvent false s.generation first) ∨
      (canonicalEvents s taskId = [] ∧ ∃ rows stamp, s.events = .list rows ∧
        (utcInstant stamp).isSome ∧
        let event := terminalEvent taskId record.status (s.eventSequence+1)
        o = some (stamped (logged s rows event) stamp) ∧
          r = .terminalEvent true (s.generation+1) event)) := by
  obtain ⟨task,ht,hb⟩ := ok_of_bind hb
  cases hb
  obtain ⟨rfl,hid⟩ := of_safeIdText ht
  obtain ⟨_,-,h⟩ := ok_of_bind h
  obtain ⟨_,-,h⟩ := ok_of_bind h
  refine ⟨hid,?_⟩
  split at h
  · cases h
  · rename_i record hr
    refine ⟨record,hr,?_⟩
    dsimp only at h
    split at h
    · rename_i first rest hcan
      have hcan' : canonicalEvents s task = first :: rest := hcan
      split at h
      · rename_i hany
        cases h
        exact Or.inl ⟨first,by simp [hcan'],by rw [hcan']; exact hany,rfl,rfl⟩
      · cases h
    · rename_i hcan
      obtain ⟨events,he,h⟩ := ok_of_bind h
      obtain ⟨stamp,hs,h⟩ := ok_of_bind h
      cases h
      obtain ⟨rows,hl,rfl⟩ := of_push he
      exact Or.inr ⟨hcan,rows,stamp,hl,(of_clockValue hs).2,rfl,rfl⟩

theorem appendTerminal_next {taskId owner : String} {expected : Json}
    (hb : appendTerminalEventIfAbsent taskId owner expected x = .ok body)
    (h : body s = .ok (some c,r)) : Next D s c := by
  obtain ⟨hid,record,hr,⟨-,-,-,hc,-⟩ | ⟨-,rows,stamp,hl,hs,hc,-⟩⟩ := of_appendTerminal hb h
  · cases hc
  · cases hc
    exact ⟨_,stamp,.terminal taskId rows record hid hl hr,hs,rfl⟩

theorem appendEvent_next {event expected : Json} {owner : String}
    (hb : appendEvent D event owner expected x = .ok body) (h : body s = .ok (some c,r)) :
    ∃ given, event = .obj given ∧ NextEvent D s given c := by
  cases event with
  | obj given =>
    cases hb
    obtain ⟨c',hm,h⟩ := ok_of_bind h
    cases h
    obtain ⟨-,c₀,stamp,hf,-,hs,rfl⟩ := of_mutate hm
    obtain ⟨item,hi,hf⟩ := ok_of_bind hf
    obtain ⟨events,he,hf⟩ := ok_of_bind hf
    cases hf
    obtain ⟨rows,hl,rfl⟩ := of_push he
    exact ⟨given,rfl,rows,item,stamp,hl,hi,hs,rfl⟩
  | null => cases hb
  | bool b => cases hb
  | int n => cases hb
  | float r => cases hb
  | str t => cases hb
  | arr xs => cases hb

theorem closed_report {taskId : String} (h : s.closed taskId = false) :
    s.reports.lookup taskId = none := by
  rw [Snapshot.closed, Bool.or_eq_false_iff] at h
  simpa using h.2

/-- A `claim` that returns has found no unexpired lease of an open task. -/
theorem of_claim {taskId owner : String} {seconds : Seconds} {expected : Json}
    {o : Option Snapshot} (hb : claim taskId owner seconds expected x = .ok body)
    (h : body s = .ok (o,r)) :
    ∃ now expiry stamp, isId taskId = true ∧ s.closed taskId = false ∧ x.now = .str now ∧
      (utcInstant now).isSome ∧ (∀ l, s.leases.lookup taskId = some l → l.activeAt now = false) ∧
      plusSeconds now seconds = .ok expiry ∧ (utcInstant stamp).isSome ∧
      let c := stamped (install s (grants s.owner expiry (s.generation+1) x.token [taskId])) stamp
      o = some c ∧ ∃ l, c.leases.lookup taskId = some l ∧
        r = .token (leaseToken c.runId taskId l) := by
  obtain ⟨task,ht,hb⟩ := ok_of_bind hb
  cases hb
  obtain ⟨rfl,hid⟩ := of_safeIdText ht
  obtain ⟨c',hm,h⟩ := ok_of_bind h
  obtain ⟨hown,c₀,stamp,hf,-,hs,rfl⟩ := of_mutate hm
  obtain ⟨known,-,hf⟩ := ok_of_bind hf
  split at hf
  · cases hf
  · split at hf
    · cases hf
    · rename_i hcl
      obtain ⟨now,hn,hf⟩ := ok_of_bind hf
      split at hf
      · cases hf
      · rename_i hac
        obtain ⟨expiry,he,hf⟩ := ok_of_bind hf
        cases hf
        have hac' : ∀ l, s.leases.lookup task = some l → l.activeAt now = false := by
          intro l hl
          simpa [hl] using hac
        rw [← hown] at h
        split at h
        · cases h
          rename_i l hl
          exact ⟨now,expiry,stamp,hid,by simpa using hcl,(of_clockValue hn).1,
            (of_clockValue hn).2,hac',he,hs,rfl,l,hl,rfl⟩
        · cases h

theorem claim_next {taskId owner : String} {seconds : Seconds} {expected : Json}
    (hb : claim taskId owner seconds expected x = .ok body) (h : body s = .ok (some c,r)) :
    Next D s c := by
  obtain ⟨now,expiry,stamp,hid,hcl,-,hn,hac,he,hs,hc,-⟩ := of_claim hb h
  cases hc
  refine ⟨_,stamp,.grant s.leases now expiry seconds x.token [taskId] (Sub.refl _) hn he
    (List.nodup_singleton _) ?_,hs,rfl⟩
  simp only [List.mem_singleton, forall_eq]
  exact ⟨hid,hcl,hac⟩

theorem of_availableIds {available : List String} {vs : List Json} {ids : List String}
    (h : availableIds available vs = .ok (some ids)) :
    vs = ids.map Json.str ∧ ∀ t ∈ ids, t ∈ available := by
  induction vs generalizing ids with
  | nil =>
    cases h
    simp
  | cons v vs ih =>
    obtain ⟨b,hb,h⟩ := ok_of_bind h
    split at h
    · rename_i hin
      obtain ⟨rest,hr,h⟩ := ok_of_bind h
      cases rest with
      | none => cases h
      | some l =>
        obtain ⟨hvs,hl⟩ := ih hr
        cases v with
        | str t =>
          cases h
          cases hb
          refine ⟨by rw [hvs]; rfl,fun u hu => ?_⟩
          rcases List.mem_cons.mp hu with rfl | hu
          · simpa using hin
          · exact hl u hu
        | null => cases hb; cases hin
        | bool b => cases hb; cases hin
        | int n => cases hb; cases hin
        | float r => cases hb; cases hin
        | arr xs => cases hb
        | obj kvs => cases hb
    · cases h

theorem of_checkChosen {available : List String} {capacity : ℕ} {chosen : Json}
    {ids : List String} (h : checkChosen available capacity chosen = .ok ids) :
    chosen = .arr (ids.map Json.str) ∧ ids.Nodup ∧ ids.length ≤ capacity ∧
      ∀ t ∈ ids, t ∈ available := by
  cases chosen with
  | arr vs =>
    rw [checkChosen] at h
    split at h
    · cases h
    · rename_i hlen
      obtain ⟨o,ho,h⟩ := ok_of_bind h
      cases o with
      | none => cases h
      | some l =>
        dsimp only at h
        split at h
        · cases h
          rename_i hn
          obtain ⟨hvs,ha⟩ := of_availableIds ho
          rw [hvs, List.length_map] at hlen
          exact ⟨by rw [hvs],hn,by omega,ha⟩
        · cases h
  | null => cases h
  | bool b => cases h
  | int n => cases h
  | float r => cases h
  | str t => cases h
  | obj kvs => cases h

/-- What a `claim_many` that writes has found under the lock. -/
structure Claimed (s : Snapshot) (maxParallel : ℤ) (sel : Selector) (x : Draws)
    (now : String) (available ids : List String) : Prop where
  clock : x.now = .str now ∧ (utcInstant now).isSome
  open_ : ∀ t ∈ available, isId t = true ∧ s.closed t = false ∧
    (reclaim s now).leases.lookup t = none
  room : ((reclaim s now).leases.size : ℤ) < maxParallel
  chosen : ∃ capacity : ℕ, (capacity : ℤ) = maxParallel-(reclaim s now).leases.size ∧
    sel.select (reclaim s now) available capacity now = .ok (.arr (ids.map Json.str)) ∧
    ids.length ≤ capacity
  nodup : ids.Nodup
  available : ∀ t ∈ ids, t ∈ available

/-- The two ways in which `claim_many` writes: expired leases go, and the chosen
tasks, if any, get leases. -/
theorem of_claimMany {taskIds : List String} {owner : String} {maxParallel : ℤ}
    {seconds : Seconds} {sel : Selector} {o : Option Snapshot}
    (hb : claimMany taskIds owner maxParallel seconds sel x = .ok body)
    (h : body s = .ok (o,r)) :
    ∃ now available ids, Claimed s maxParallel sel x now available ids ∧ s.owner = owner ∧
      available = taskIds.filter (fun t => ((reclaim s now).leases.lookup t).isNone) ∧
      ((ids = [] ∧ r = .tokens [] ∧
        ((o = none ∧ ∀ t l, s.leases.lookup t = some l → l.activeAt now = true) ∨
          o = some (stamped (reclaim s now) now))) ∨
      (ids ≠ [] ∧ ∃ expiry stamp, plusSeconds now seconds = .ok expiry ∧
        x.stamp = .str stamp ∧ (utcInstant stamp).isSome ∧
        o = some (stamped (install (reclaim s now)
          (grants owner expiry (s.generation+1) x.token ids)) stamp) ∧
        r = .tokens ((grants owner expiry (s.generation+1) x.token ids).map
          (fun e => leaseToken s.runId e.1 e.2)))) := by
  rw [claimMany] at hb
  split at hb
  · cases hb
  split at hb
  · cases hb
  split at hb
  · cases hb
  rename_i hids
  cases hb
  simp only [Bool.not_eq_true', Bool.not_eq_false, Bool.and_eq_true, List.all_eq_true] at hids
  obtain ⟨_,ho,h⟩ := ok_of_bind h
  obtain ⟨known,-,h⟩ := ok_of_bind h
  split at h
  · cases h
  split at h
  · cases h
  rename_i hcl
  obtain ⟨now,hn,h⟩ := ok_of_bind h
  dsimp only at h
  split at h
  · cases h
  rename_i hroom
  obtain ⟨chosen,hsel,h⟩ := ok_of_bind h
  obtain ⟨ids,hch,h⟩ := ok_of_bind h
  obtain ⟨hce,hnd,hlen,hav⟩ := of_checkChosen hch
  rw [hce] at hsel
  refine ⟨now,_,ids,⟨of_clockValue hn,?_,by omega,
    ⟨(maxParallel-(reclaim s now).leases.size).toNat,by omega,hsel,hlen⟩,hnd,hav⟩,
    of_checkOwner ho,rfl,?_⟩
  · intro t ht
    rw [List.mem_filter] at ht
    refine ⟨hids.1 t ht.1,?_,by simpa using ht.2⟩
    simpa using fun hc => hcl (List.any_eq_true.mpr ⟨t,ht.1,hc⟩)
  · split at h
    · split at h
      · cases h
        exact Or.inl ⟨rfl,rfl,Or.inr rfl⟩
      · rename_i hnone
        cases h
        refine Or.inl ⟨rfl,rfl,Or.inl ⟨rfl,fun t l hl => ?_⟩⟩
        simp only [List.any_eq_true, not_exists, not_and] at hnone
        simpa using hnone (t,l) ((mem_toFields _ _ _).mpr hl)
    · rename_i hne
      obtain ⟨expiry,he,h⟩ := ok_of_bind h
      obtain ⟨stamp,hs,h⟩ := ok_of_bind h
      cases h
      exact Or.inr ⟨hne,expiry,stamp,he,(of_clockValue hs).1,(of_clockValue hs).2,rfl,rfl⟩

theorem lookup_reclaim {t now : String} {l : Lease} :
    (reclaim s now).leases.lookup t = some l ↔
      s.leases.lookup t = some l ∧ l.activeAt now = true :=
  lookup_keep (fun _ (l : Lease) => l.activeAt now) s.leases t l

theorem reclaim_sub (s : Snapshot) (now : String) : Sub (reclaim s now).leases s.leases :=
  sub_keep _ _

theorem claimMany_next {taskIds : List String} {owner : String} {maxParallel : ℤ}
    {seconds : Seconds} {sel : Selector}
    (hb : claimMany taskIds owner maxParallel seconds sel x = .ok body)
    (h : body s = .ok (some c,r)) : Next D s c := by
  obtain ⟨now,available,ids,hcl,rfl,-,⟨-,-,ho⟩ | ⟨-,expiry,stamp,he,-,hs,ho,-⟩⟩ :=
    of_claimMany hb h
  · rcases ho with ⟨ho,-⟩ | ho <;> cases ho
    exact ⟨_,now,.drop _ (reclaim_sub s now),hcl.clock.2,rfl⟩
  · cases ho
    refine ⟨_,stamp,.grant (reclaim s now).leases now expiry seconds x.token ids
      (reclaim_sub s now) hcl.clock.2 he hcl.nodup ?_,hs,rfl⟩
    intro t ht
    obtain ⟨hid,hc,hl⟩ := hcl.open_ t (hcl.available t ht)
    refine ⟨hid,hc,fun l hk => ?_⟩
    by_contra ha
    rw [lookup_reclaim.mpr ⟨hk,by simpa using ha⟩] at hl
    cases hl

/-- A `renew` that returns has found the lease of the token unexpired. -/
theorem of_renew {taskId owner : String} {token : Json} {seconds : Seconds} {o : Option Snapshot}
    (hb : renew taskId token owner seconds x = .ok body) (h : body s = .ok (o,r)) :
    ∃ l now expiry stamp, Holds s taskId token l ∧ x.now = .str now ∧ (utcInstant now).isSome ∧
      l.activeAt now = true ∧ plusSeconds now seconds = .ok expiry ∧ (utcInstant stamp).isSome ∧
      let fresh := l.refreshed (x.token 0).text expiry (s.generation+1)
      o = some (stamped { s with leases := s.leases.insert taskId fresh } stamp) ∧
        r = .token (leaseToken s.runId taskId fresh) := by
  rw [renew] at hb
  split at hb
  · cases hb
  cases hb
  obtain ⟨c',hm,h⟩ := ok_of_bind h
  obtain ⟨-,c₀,stamp,hf,-,hs,rfl⟩ := of_mutate hm
  obtain ⟨now,hn,hf⟩ := ok_of_bind hf
  obtain ⟨l,hl,hf⟩ := ok_of_bind hf
  obtain ⟨expiry,he,hf⟩ := ok_of_bind hf
  cases hf
  obtain ⟨hh,t,ht,-,ha⟩ := of_checkToken hl
  cases ht
  simp only [stamped, AList.lookup_insert] at h
  cases h
  exact ⟨l,now,expiry,stamp,hh,(of_clockValue hn).1,(of_clockValue hn).2,ha,he,hs,rfl,rfl⟩

theorem renew_next {taskId owner : String} {token : Json} {seconds : Seconds}
    (hb : renew taskId token owner seconds x = .ok body) (h : body s = .ok (some c,r)) :
    Next D s c := by
  obtain ⟨l,now,expiry,stamp,hh,-,hn,ha,he,hs,hc,-⟩ := of_renew hb h
  cases hc
  exact ⟨_,stamp,.renew taskId now expiry token seconds l (x.token 0) hh hn ha he,hs,rfl⟩

/-- A `commit` that returns repeats a report, or has found the lease of the token
unexpired. -/
theorem of_commit {taskId owner : String} {token report status : Json} {o : Option Snapshot}
    (hb : commit D taskId token owner report status x = .ok body) (h : body s = .ok (o,r)) :
    ((s.reports.lookup taskId).isSome ∧ o = none ∧ r = .state s) ∨
    (s.reports.lookup taskId = none ∧ ∃ st given l now stamp, Holds s taskId token l ∧
      x.now = .str now ∧ (utcInstant now).isSome ∧ l.activeAt now = true ∧
      validReport (redactFields D given) st = true ∧ (utcInstant stamp).isSome ∧
      let c := stamped { s with
        reports := s.reports.insert taskId
          (reportRecord st (redactFields D given) ((s.attempts.lookup taskId).getD 1) l),
        tasks := setTaskStatus s.tasks taskId st.task,
        leases := s.leases.erase taskId } stamp
      o = some c ∧ r = .state c) := by
  rw [commit] at hb
  split at hb
  · cases hb
  split at hb
  · dsimp only at hb
    split at hb
    · cases hb
    cases hb
    rename_i hv
    obtain ⟨_,-,h⟩ := ok_of_bind h
    obtain ⟨k,-,h⟩ := ok_of_bind h
    split at h
    · rename_i hr
      rw [recommit] at h
      split at h
      · cases h
      · split at h <;> cases h
        exact Or.inl ⟨by rw [hr]; rfl,rfl,rfl⟩
    · rename_i hr
      obtain ⟨l,hl,h⟩ := ok_of_bind h
      obtain ⟨stamp,hs,h⟩ := ok_of_bind h
      cases h
      obtain ⟨hh,t,ht,hn,ha⟩ := of_checkToken hl
      exact Or.inr ⟨hr,_,_,l,t,stamp,hh,ht,hn,ha,by simpa using hv,(of_clockValue hs).2,rfl,rfl⟩
  · cases hb

theorem commit_next {taskId owner : String} {token report status : Json}
    (hb : commit D taskId token owner report status x = .ok body)
    (h : body s = .ok (some c,r)) : Next D s c := by
  rcases of_commit hb h with ⟨-,hc,-⟩ | ⟨hr,st,given,l,now,stamp,hh,-,hn,ha,hv,hs,hc,-⟩
  · cases hc
  · cases hc
    exact ⟨_,stamp,.commit taskId now token st given l hh hn ha hr hv,hs,rfl⟩

/-- A `release` that returns has found the lease of the token unexpired. -/
theorem of_release {token : Json} {owner : String} {o : Option Snapshot}
    (hb : release token owner x = .ok body) (h : body s = .ok (o,r)) :
    ∃ taskId l stamp, Holds s taskId token l ∧ (utcInstant stamp).isSome ∧
      o = some (stamped { s with leases := s.leases.erase taskId } stamp) ∧ r = .nothing := by
  cases hb
  obtain ⟨c',hm,h⟩ := ok_of_bind h
  cases h
  obtain ⟨-,c₀,stamp,hf,-,hs,rfl⟩ := of_mutate hm
  split at hf
  · split at hf
    · obtain ⟨l,hl,hf⟩ := ok_of_bind hf
      cases hf
      exact ⟨_,l,stamp,(of_checkToken hl).1,hs,rfl,rfl⟩
    · split at hf
      · cases hf
      · split at hf
        · obtain ⟨_,-,hf⟩ := ok_of_bind hf
          cases hf
        · cases hf
  · cases hf

theorem release_next {token : Json} {owner : String}
    (hb : release token owner x = .ok body) (h : body s = .ok (some c,r)) : Next D s c := by
  obtain ⟨taskId,l,stamp,-,hs,hc,-⟩ := of_release hb h
  cases hc
  exact ⟨_,stamp,.drop _ (sub_erase _ _),hs,rfl⟩

theorem of_dropStale {taskId now owner : String} {expected : Json} {o : Option Snapshot}
    (hb : dropStale taskId now owner expected x = .ok body) (h : body s = .ok (o,r)) :
    ∃ leases stamp, Sub leases s.leases ∧ (utcInstant stamp).isSome ∧
      o = some (stamped { s with leases := leases } stamp) ∧ r = .nothing := by
  cases hb
  obtain ⟨c',hm,h⟩ := ok_of_bind h
  cases h
  obtain ⟨-,c₀,stamp,hf,-,hs,rfl⟩ := of_mutate hm
  cases hf
  split
  · exact ⟨_,stamp,sub_erase _ _,hs,rfl,rfl⟩
  · exact ⟨s.leases,stamp,Sub.refl _,hs,rfl,rfl⟩

theorem dropStale_next {taskId now owner : String} {expected : Json}
    (hb : dropStale taskId now owner expected x = .ok body) (h : body s = .ok (some c,r)) :
    Next D s c := by
  obtain ⟨leases,stamp,hl,hs,hc,-⟩ := of_dropStale hb h
  cases hc
  exact ⟨_,stamp,.drop _ hl,hs,rfl⟩

/-- Every state that a section writes is a stamped change of the state it read,
or that state with one more event of the caller's. -/
theorem action_next {a : Action} (hb : a.prepare D x = .ok body)
    (h : body s = .ok (some c,r)) :
    Next D s c ∨ ∃ given o g, a = .appendEvent (.obj given) o g ∧ NextEvent D s given c := by
  cases a with
  | load =>
    cases hb
    cases h
  | use t k o =>
    cases hb
    obtain ⟨_,-,h⟩ := ok_of_bind h
    obtain ⟨_,-,h⟩ := ok_of_bind h
    cases h
  | transition st o g => exact Or.inl (transition_next hb h)
  | updateTaskStatus t st o g => exact Or.inl (updateTaskStatus_next hb h)
  | appendTerminalEventIfAbsent t o g => exact Or.inl (appendTerminal_next hb h)
  | appendEvent e o g =>
    obtain ⟨given,rfl,hn⟩ := appendEvent_next hb h
    exact Or.inr ⟨given,o,g,rfl,hn⟩
  | claim t o n g => exact Or.inl (claim_next hb h)
  | claimMany ts o m n f => exact Or.inl (claimMany_next hb h)
  | renew t k o n => exact Or.inl (renew_next hb h)
  | commit t k o r st => exact Or.inl (commit_next hb h)
  | release k o => exact Or.inl (release_next hb h)
  | dropStale t now o g => exact Or.inl (dropStale_next hb h)

end

end PdFleet
