import PdFleet.Runs

/-!
# A created run is loaded

`create` redacts the initial state that it is given and writes it as it is; `load` puts what
it finds through the whole validator. A created run is loaded exactly when each of its
initial values is one that the validator wants.
-/

set_option autoImplicit false

namespace PdFleet

open Verdict Faulty

/-! ## The data that are loaded -/

section

variable (D : Deps) (rid : String)

/-- The data of a file that `_validate` accepts, with what it reads of them. -/
def acceptedData : Node → Verdict PyError (Json × Snapshot)
  | .document j => do
    let s ← validate D j rid
    return (j,s)
  | _ => .reject

/-- `_valid_snapshot`, with the data as they are in the file. -/
def validData (d : RunDir) : Except PyError (Option (Json × Snapshot)) := do
  let primary ← (acceptedData D rid d.snapshot).toExcept
  let backup ← (acceptedData D rid d.bak).toExcept
  return TwoSlot.newest (fun x => x.2.generation) primary backup

/-- The data that `load` returns. -/
def loadData (d : RunDir) : Except PyError Json :=
  match validData D rid d with
  | .error e => .error e
  | .ok (some x) => .ok x.1
  | .ok none =>
    if d.snapshot.isSymlink || d.bak.isSymlink then
      .error (.pathContainment "snapshot path is symlink")
    else if d.snapshot.exists || d.bak.exists then
      .error (.corruptSnapshot "run snapshot malformed or no valid candidate")
    else .error (.runNotFound "run snapshot unavailable")

end

variable {D : Deps} {rid : String} {d d' : RunDir} {s : Snapshot} {v : Json}

/-! ## What the initial state may hold -/

/-- A mapping all of whose entries are as `P` says. -/
def Entries (P : String → Json → Prop) (v : Json) : Prop :=
  ∃ kvs : Obj, v = .obj kvs ∧ ∀ e ∈ kvs, P e.1 e.2

/-- The values that the validator wants of a new run under a key of the initial state. A new
run has numbered no event. -/
def Admissible (k : String) (v : Json) : Prop :=
  match k with
  | "status" => ∃ r : RunStatus, v = .str r.text
  | "waves" => ∃ r : Rows, v = r.json
  | "tasks" => Entries (fun _ t => ∃ o, t = .obj o ∧ TaskValid o) v
  | "leases" => Entries (fun k l => ∃ a, readLease k l = .accept a) v
  | "attempts" => Entries (fun _ n => ∃ m : ℕ, n = .int m) v
  | "checkpoints" => Entries (fun _ c => ∃ o, c = .obj o) v
  | "reports" => Entries (fun k r => ∃ a, readReport k r = .accept a) v
  | "events" => v = .arr [] ∨ v = .obj []
  | "gates" => v.isContainer = true
  | "metrics" => v.isContainer = true
  | "audit" => v.isContainer = true
  | _ => True

theorem readDict_accepts {α : Type} {read : String → Json → Verdict PyError α} :
    (∃ m, readDict read v = accept m) ↔ Entries (fun k w => ∃ a, read k w = accept a) v := by
  cases v with
  | obj kvs =>
    have hentries : Entries (fun k w => ∃ a, read k w = accept a) (.obj kvs) ↔
        ∀ e ∈ kvs, ∃ b, (do
          let a ← read e.1 e.2
          return (e.1,a) : Verdict PyError (String × α)) = accept b := by
      constructor
      · rintro ⟨kvs',hv,hall⟩ e he
        cases hv
        obtain ⟨a,ha⟩ := hall e he
        exact ⟨(e.1,a),bind_eq_accept.mpr ⟨a,ha,rfl⟩⟩
      · intro hall
        refine ⟨kvs,rfl,fun e he => ?_⟩
        obtain ⟨b,hb⟩ := hall e he
        obtain ⟨a,ha,-⟩ := bind_eq_accept.mp hb
        exact ⟨a,ha⟩
    rw [hentries, ← each_accepts]
    constructor
    · rintro ⟨m,h⟩
      obtain ⟨l,hl,-⟩ := bind_eq_accept.mp h
      exact ⟨l,hl⟩
    · rintro ⟨l,hl⟩
      exact ⟨Dict.ofFields l,bind_eq_accept.mpr ⟨l,hl,rfl⟩⟩
  | null => exact iff_of_false (fun ⟨m,h⟩ => nomatch h) (fun ⟨kvs,h,_⟩ => nomatch h)
  | bool b => exact iff_of_false (fun ⟨m,h⟩ => nomatch h) (fun ⟨kvs,h,_⟩ => nomatch h)
  | int n => exact iff_of_false (fun ⟨m,h⟩ => nomatch h) (fun ⟨kvs,h,_⟩ => nomatch h)
  | float r => exact iff_of_false (fun ⟨m,h⟩ => nomatch h) (fun ⟨kvs,h,_⟩ => nomatch h)
  | str t => exact iff_of_false (fun ⟨m,h⟩ => nomatch h) (fun ⟨kvs,h,_⟩ => nomatch h)
  | arr xs => exact iff_of_false (fun ⟨m,h⟩ => nomatch h) (fun ⟨kvs,h,_⟩ => nomatch h)

theorem Entries.congr {P Q : String → Json → Prop} (h : ∀ k w, P k w ↔ Q k w) :
    Entries P v ↔ Entries Q v :=
  exists_congr (fun _ => and_congr_right (fun _ => forall₂_congr (fun e _ => h e.1 e.2)))

theorem readObject_accepts : (∃ o, readObject v = accept o) ↔ ∃ o, v = .obj o :=
  exists_congr (fun _ => readObject_eq_accept)

theorem readNat_accepts : (∃ n, readNat v = accept n) ↔ ∃ n : ℕ, v = .int n := by
  constructor
  · rintro ⟨n,h⟩
    rw [readNat, ofOption_eq_accept] at h
    cases v with
    | int m =>
      rw [Json.nat?] at h
      split_ifs at h with hm
      exact ⟨m.toNat,by rw [Int.toNat_of_nonneg hm]⟩
    | _ => cases h
  · rintro ⟨n,rfl⟩
    exact ⟨n,readNat_int n⟩

theorem readTask_accepts : (∃ t, readTask v = accept t) ↔ ∃ o, v = .obj o ∧ TaskValid o := by
  constructor
  · rintro ⟨t,h⟩
    obtain ⟨o,ho,-⟩ := bind_eq_accept.mp h
    have hv := readObject_eq_accept.mp ho
    subst hv
    have heq := eq_of_readTask h
    subst heq
    exact ⟨_,rfl,of_readTask h⟩
  · rintro ⟨o,rfl,h⟩
    exact ⟨o,readTask_obj h⟩

theorem readStatus_accepts :
    (∃ r, readStatus RunStatus.ofText v = accept r) ↔ ∃ r : RunStatus, v = .str r.text := by
  constructor
  · rintro ⟨r,h⟩
    obtain ⟨t,rfl,ht⟩ := of_readStatus h
    have htext : r.text = t := by simpa using List.find?_some ht
    exact ⟨r,by rw [htext]⟩
  · rintro ⟨r,rfl⟩
    exact ⟨r,by simp [readStatus, ofOption]⟩

theorem readRows_eq_accept {r : Rows} : readRows v = accept r ↔ v = r.json := by
  constructor
  · intro h
    cases v with
    | arr xs =>
      obtain ⟨rows,hrows,h⟩ := bind_eq_accept.mp h
      cases h
      rw [each_eq_accept] at hrows
      have hxs : xs = rows.map Json.obj := by
        rw [← List.forall₂_eq_eq_eq, List.forall₂_map_right_iff]
        exact hrows.imp (fun _ _ he => readObject_eq_accept.mp he)
      rw [hxs]
      rfl
    | obj kvs =>
      cases kvs with
      | nil =>
        cases h
        rfl
      | cons e kvs => cases h
    | _ => cases h
  · rintro rfl
    exact readRows_json r

/-- A log of no event. -/
theorem noEvents_iff : (∃ r, readRows v = accept r ∧ r.items = []) ↔ v = .arr [] ∨ v = .obj [] := by
  constructor
  · rintro ⟨r,h,hnil⟩
    rw [readRows_eq_accept] at h
    cases r with
    | list rows =>
      rw [Rows.items] at hnil
      subst hnil
      exact Or.inl h
    | dict => exact Or.inr h
  · rintro (rfl | rfl)
    · exact ⟨.list [],rfl,rfl⟩
    · exact ⟨.dict,rfl,rfl⟩

/-! ## The created document -/

/-- The fields that an initial state may set. -/
def initialFields : List String :=
  ["status", "waves", "tasks", "leases", "attempts", "checkpoints", "reports", "events", "gates",
    "metrics", "audit"]

def Document.at (d : Document) (k : String) : Json := (d.toObj.field k).getD .null

theorem at_set {d : Document} {k k' : String} (hk : k ∈ initialFields) (hk' : k' ∈ initialFields) :
    (d.set k v).at k' = if k = k' then v else d.at k' := by
  fin_cases hk <;> fin_cases hk' <;> rfl

/-- The fields that `create` sets itself. -/
structure Document.Structural (d : Document) (rid owner hash : String) (plan : Obj) (now : String) :
    Prop where
  schemaVersion : d.schemaVersion = .str PdFleet.schemaVersion
  runId : d.runId = .str rid
  planHash : d.planHash = .str hash
  plan : d.plan = .obj plan
  generation : d.generation = .int (0 : ℕ)
  owner : d.owner = .str owner
  eventSequence : d.eventSequence = .int (0 : ℕ)
  updatedAt : d.updatedAt = .str now

theorem Document.Structural.set {d : Document} {rid owner hash now : String} {plan : Obj}
    (h : d.Structural rid owner hash plan now) (k : String) (v : Json) :
    (d.set k v).Structural rid owner hash plan now := by
  unfold Document.set
  split <;> exact ⟨h.1,h.2,h.3,h.4,h.5,h.6,h.7,h.8⟩

theorem Document.Structural.setAll {d : Document} {rid owner hash now : String} {plan : Obj}
    (h : d.Structural rid owner hash plan now) (l : Obj) :
    (l.foldl (fun d e => d.set e.1 e.2) d).Structural rid owner hash plan now := by
  induction l generalizing d with
  | nil => exact h
  | cons e l ih => exact ih (h.set e.1 e.2)

/-- Of distinct keys, each gives its value to its field. -/
theorem at_setAll {d : Document} {l : Obj} (hl : ∀ e ∈ l, e.1 ∈ initialFields)
    (hn : (l.map Prod.fst).Nodup) {k : String} (hk : k ∈ initialFields) :
    (∀ v, (k,v) ∈ l → (l.foldl (fun d e => d.set e.1 e.2) d).at k = v) ∧
      ((∀ v, (k,v) ∉ l) → (l.foldl (fun d e => d.set e.1 e.2) d).at k = d.at k) := by
  induction l generalizing d with
  | nil => exact ⟨fun v h => (nomatch h),fun _ => rfl⟩
  | cons e l ih =>
    obtain ⟨he,hn⟩ := List.nodup_cons.mp hn
    obtain ⟨hin,hout⟩ := @ih (d.set e.1 e.2) (fun x hx => hl x (by simp [hx])) hn
    have hset := @at_set e.2 d e.1 k (hl e (by simp)) hk
    rw [List.foldl_cons]
    constructor
    · intro v hv
      rcases List.mem_cons.mp hv with rfl | hv
      · rw [hout, hset, if_pos rfl]
        exact fun w hw => he (List.mem_map.mpr ⟨_,hw,rfl⟩)
      · exact hin v hv
    · intro hno
      have hne : e.1 ≠ k := by
        rintro rfl
        exact hno e.2 (by simp)
      rw [hout (fun v hv => hno v (by simp [hv])), hset, if_neg hne]

/-- Every initial field of the document holds a value that the validator wants. -/
def Document.Fits (d : Document) : Prop := ∀ k ∈ initialFields, Admissible k (d.at k)

theorem fits_iff {d : Document} : d.Fits ↔ (∃ r : RunStatus, d.status = .str r.text) ∧
    (∃ r : Rows, d.waves = r.json) ∧
    Entries (fun _ t => ∃ o, t = .obj o ∧ TaskValid o) d.tasks ∧
    Entries (fun k l => ∃ a, readLease k l = .accept a) d.leases ∧
    Entries (fun _ n => ∃ m : ℕ, n = .int m) d.attempts ∧
    Entries (fun _ c => ∃ o, c = .obj o) d.checkpoints ∧
    Entries (fun k r => ∃ a, readReport k r = .accept a) d.reports ∧
    (d.events = .arr [] ∨ d.events = .obj []) ∧
    d.gates.isContainer = true ∧ d.metrics.isContainer = true ∧ d.audit.isContainer = true := by
  simp only [Document.Fits, initialFields, List.forall_mem_cons, List.not_mem_nil,
    IsEmpty.forall_iff, implies_true, and_true]
  exact Iff.rfl

theorem fits_setAll {d : Document} {l : Obj} (hd : d.Fits) (hl : ∀ e ∈ l, e.1 ∈ initialFields)
    (hn : (l.map Prod.fst).Nodup) :
    (l.foldl (fun d e => d.set e.1 e.2) d).Fits ↔ ∀ e ∈ l, Admissible e.1 e.2 := by
  constructor
  · intro h e he
    have hk := hl e he
    have := h e.1 hk
    rwa [(at_setAll hl hn hk).1 e.2 he] at this
  · intro h k hk
    by_cases hin : ∃ v, (k,v) ∈ l
    · obtain ⟨v,hv⟩ := hin
      rw [(at_setAll hl hn hk).1 v hv]
      exact h (k,v) hv
    · rw [(at_setAll hl hn hk).2 (not_exists.mp hin)]
      exact hd k hk

/-! ## The validator on a created document -/

theorem container_of_readDict {α : Type} {read : String → Json → Verdict PyError α}
    {m : Dict String α} (h : readDict read v = accept m) : v.isContainer = true := by
  obtain ⟨kvs,rfl,-⟩ := readDict_accepts.mp ⟨m,h⟩
  rfl

theorem container_of_readRows {r : Rows} (h : readRows v = accept r) : v.isContainer = true := by
  rw [readRows_eq_accept.mp h]
  exact isContainer_rows r

/-- The validator accepts what `create` has sealed exactly if its plan has the stored hash
and its initial fields fit. -/
theorem validate_created {rid owner hash now : String} {plan : Obj} {d : Document}
    (h : d.Structural rid owner hash plan now) (howner : isId owner = true)
    (hnow : isClock (.str now) = true) :
    (∃ s, validate D (.obj d.sealed) rid = accept s) ↔ planHash D plan = .ok hash ∧ d.Fits := by
  have hsum : (Option.any (fun v : Json => v.isStr (checksum d.sealed))
      (d.sealed.field "checksum")) = true := by
    rw [field_sealed_checksum, checksum_sealed]
    simp [Json.isStr]
  rw [fits_iff, ← readStatus_accepts, ← noEvents_iff]
  simp only [← readTask_accepts, ← readNat_accepts, ← readObject_accepts, ← readRows_eq_accept,
    ← readDict_accepts]
  constructor
  · rintro ⟨s,hs⟩
    simp only [validate, readObject_obj, ofObj_sealed, ofOption, accept_bind] at hs
    obtain ⟨_,-,hs⟩ := bind_eq_accept.mp hs
    obtain ⟨_,-,hs⟩ := bind_eq_accept.mp hs
    obtain ⟨sequences,hsequences,hs⟩ := bind_eq_accept.mp hs
    obtain ⟨_,-,hs⟩ := bind_eq_accept.mp hs
    obtain ⟨_,-,hs⟩ := bind_eq_accept.mp hs
    obtain ⟨status,hstatus,hs⟩ := bind_eq_accept.mp hs
    obtain ⟨_,-,hs⟩ := bind_eq_accept.mp hs
    obtain ⟨plan',hplan,hs⟩ := bind_eq_accept.mp hs
    obtain ⟨stored,hstored,hs⟩ := bind_eq_accept.mp hs
    obtain ⟨_,hcontainers,hs⟩ := bind_eq_accept.mp hs
    obtain ⟨hash',hhash,hs⟩ := bind_eq_accept.mp hs
    obtain ⟨_,hsame,hs⟩ := bind_eq_accept.mp hs
    obtain ⟨_,-,hs⟩ := bind_eq_accept.mp hs
    obtain ⟨_,-,hs⟩ := bind_eq_accept.mp hs
    obtain ⟨waves,hwaves,hs⟩ := bind_eq_accept.mp hs
    obtain ⟨tasks,htasks,hs⟩ := bind_eq_accept.mp hs
    obtain ⟨leases,hleases,hs⟩ := bind_eq_accept.mp hs
    obtain ⟨attempts,hattempts,hs⟩ := bind_eq_accept.mp hs
    obtain ⟨checkpoints,hcheckpoints,hs⟩ := bind_eq_accept.mp hs
    obtain ⟨reports,hreports,hs⟩ := bind_eq_accept.mp hs
    obtain ⟨events,hevents,hs⟩ := bind_eq_accept.mp hs
    obtain ⟨_,-,hs⟩ := bind_eq_accept.mp hs
    obtain ⟨_,hlogged,-⟩ := bind_eq_accept.mp hs
    rw [h.plan, readObject_obj, accept.injEq] at hplan
    rw [h.planHash, readText_str, accept.injEq] at hstored
    rw [h.eventSequence, readNat_int, accept.injEq] at hsequences
    rw [require_eq_accept] at hcontainers hsame hlogged
    simp only [List.all_cons, List.all_nil, Bool.and_true, Bool.and_eq_true] at hcontainers
    obtain ⟨-,-,-,-,-,-,-,hgates,hmetrics,haudit⟩ := hcontainers
    have hnone : events.items = [] := by
      have heq := of_decide_eq_true hlogged
      rw [← hsequences] at heq
      exact List.map_eq_nil_iff.mp heq
    refine ⟨?_,⟨status,hstatus⟩,⟨waves,hwaves⟩,⟨tasks,htasks⟩,⟨leases,hleases⟩,
      ⟨attempts,hattempts⟩,⟨checkpoints,hcheckpoints⟩,⟨reports,hreports⟩,⟨events,hevents,hnone⟩,
      hgates,hmetrics,haudit⟩
    rw [hplan, hstored, ← of_decide_eq_true hsame]
    exact orRefuse_eq_accept hhash
  · rintro ⟨hhash,⟨status,hstatus⟩,⟨waves,hwaves⟩,⟨tasks,htasks⟩,⟨leases,hleases⟩,
      ⟨attempts,hattempts⟩,⟨checkpoints,hcheckpoints⟩,⟨reports,hreports⟩,⟨events,hevents,hnone⟩,
      hgates,hmetrics,haudit⟩
    have hhead : (d.schemaVersion.isStr schemaVersion && d.runId.isStr rid) = true := by
      simp [h.schemaVersion, h.runId, Json.isStr]
    have hcontainers : [d.waves, d.tasks, d.leases, d.attempts, d.checkpoints, d.reports, d.events,
        d.gates, d.metrics, d.audit].all Json.isContainer = true := by
      simp [container_of_readRows hwaves, container_of_readDict htasks,
        container_of_readDict hleases, container_of_readDict hattempts,
        container_of_readDict hcheckpoints, container_of_readDict hreports,
        container_of_readRows hevents, hgates, hmetrics, haudit]
    have hplanHash : orRefuse (planHash D plan) = accept hash := by
      rw [hhash]
      rfl
    simp only [validate, readObject_obj, ofObj_sealed, hhead, h.generation, h.eventSequence, h.owner,
      h.plan, h.planHash, h.updatedAt, readNat_int, readText_str, howner, hstatus, hcontainers,
      hplanHash, hnow, hsum, hwaves, htasks, hleases, hattempts, hcheckpoints, hreports, hevents,
      ofOption, hnone, List.all_nil, List.map_nil, sequencesTo, List.range_zero, decide_true,
      require_true, accept_bind, pure_eq, accept.injEq, exists_eq']

/-! ## Creating and loading -/

theorem loadData_created {j : Json} (hb : d.bak = .absent) (hs : d.snapshot = .document j) :
    loadData D rid d = .ok j ↔ ∃ s, validate D j rid = accept s := by
  have hread : acceptedData D rid d.bak = .reject := by
    rw [hb]
    rfl
  rw [loadData, validData, hread, hs, acceptedData]
  cases hv : validate D j rid with
  | accept s => exact iff_of_true rfl ⟨s,rfl⟩
  | reject =>
    refine iff_of_false ?_ (fun ⟨s,h⟩ => nomatch h)
    rw [hb]
    exact fun h => nomatch h
  | raise e => exact iff_of_false (fun h => nomatch h) (fun ⟨s,h⟩ => nomatch h)

theorem acceptedData_snapshot (n : Node) :
    (readNode D rid n).toExcept = (acceptedData D rid n).toExcept.map (Option.map Prod.snd) := by
  cases n with
  | document j =>
    rw [acceptedData, readNode]
    cases validate D j rid <;> rfl
  | _ => rfl

theorem validate_of_acceptedData {n : Node} {x : Json × Snapshot}
    (h : acceptedData D rid n = accept x) : validate D x.1 rid = accept x.2 := by
  cases n with
  | document j =>
    obtain ⟨s,hs,h⟩ := bind_eq_accept.mp h
    cases h
    exact hs
  | _ => cases h

/-- The data that are loaded are those that the reader accepts as the loaded snapshot. -/
theorem load_of_loadData {j : Json} (h : loadData D rid d = .ok j) :
    ∃ s, load D rid d = .ok s ∧ validate D j rid = accept s := by
  have hsame : validSnapshot D rid d = (validData D rid d).map (Option.map Prod.snd) := by
    rw [validSnapshot, validData, acceptedData_snapshot, acceptedData_snapshot]
    cases (acceptedData D rid d.snapshot).toExcept with
    | error e => rfl
    | ok a =>
      cases (acceptedData D rid d.bak).toExcept with
      | error e => rfl
      | ok b => exact congrArg Except.ok (TwoSlot.newest_map Snapshot.generation Prod.snd a b)
  rw [loadData] at h
  cases hv : validData D rid d with
  | error e =>
    rw [hv] at h
    cases h
  | ok o =>
    rw [hv] at h
    cases o with
    | none =>
      dsimp only at h
      split_ifs at h
    | some x =>
      cases h
      refine ⟨x.2,?_,?_⟩
      · rw [load, hsame, hv]
        rfl
      · obtain ⟨p,hp,hv⟩ := ok_of_bind hv
        obtain ⟨b,hb,hv⟩ := ok_of_bind hv
        have hmem : ∀ {n : Node} {o : Option (Json × Snapshot)},
            (acceptedData D rid n).toExcept = .ok o → o = some x → validate D x.1 rid = accept x.2 := by
          intro n o ho hx
          subst hx
          apply validate_of_acceptedData (n := n)
          cases hn : acceptedData D rid n with
          | accept y =>
            rw [hn] at ho
            cases ho
            rfl
          | reject =>
            rw [hn] at ho
            cases ho
          | raise e =>
            rw [hn] at ho
            cases ho
        rcases TwoSlot.newest_mem (Except.ok.inj hv) with h | h
        · exact hmem hp h
        · exact hmem hb h

theorem isClock_of_clockValue {stamp : String} (h : clockValue v = .ok stamp) :
    isClock (.str stamp) = true := by
  cases v with
  | str t =>
    have hclock := h
    rw [clockValue] at h
    split_ifs at h
    cases h
    rw [isClock, hclock]
  | _ => cases h

/-- What `create` has decided before it takes the lock. -/
theorem structural_of_createState {plan now : Json} {owner : String} {state : Document}
    (h : createState D rid plan owner now = .ok state) :
    ∃ p c hash stamp, plan = .obj p ∧ D.canonicalize p = .ok c ∧ planHash D p = .ok hash ∧
      isId owner = true ∧ isClock (.str stamp) = true ∧ state.Fits ∧
      state.Structural rid owner hash c stamp := by
  obtain ⟨rid',hrid,hrest⟩ := ok_of_bind h
  have hsame : rid' = rid := by
    rw [safeIdText] at hrid
    split at hrid
    · cases hrid
      rfl
    · cases hrid
  dsimp only at hrest
  split at hrest
  · cases hrest
  rename_i howner
  cases plan with
  | obj p =>
    obtain ⟨p',hp,hrest⟩ := ok_of_bind hrest
    cases hp
    obtain ⟨canonical,hcanonical,hrest⟩ := ok_of_bind hrest
    obtain ⟨stamp,hnow,hrest⟩ := ok_of_bind hrest
    obtain ⟨hash,hhash,hrest⟩ := ok_of_bind hrest
    cases hrest
    refine ⟨p,canonical,hash,stamp,rfl,hcanonical,hhash,by simpa using howner,
      isClock_of_clockValue hnow,fits_iff.mpr ?_,⟨rfl,by rw [← hsame]; rfl,rfl,rfl,rfl,rfl,rfl,rfl⟩⟩
    refine ⟨⟨.created,rfl⟩,⟨.list [],rfl⟩,⟨[],rfl,?_⟩,⟨[],rfl,?_⟩,⟨[],rfl,?_⟩,⟨[],rfl,?_⟩,⟨[],rfl,?_⟩,
      Or.inl rfl,rfl,rfl,rfl⟩
    all_goals exact fun e he => absurd he List.not_mem_nil
  | _ => cases hrest

/-- `create` on a run of which there is no file. -/
theorem create_ok {fate : Fates} {plan now : Json} {owner : String} {initial : Option Json}
    {obj : Obj} (hs : d.snapshot = .absent) (hb : d.bak = .absent)
    (h : create D fate rid plan owner initial now d = (.ok obj,d')) :
    ∃ fresh state, createState D rid plan owner now = .ok fresh ∧
      withInitial D fresh initial = .ok state ∧ obj = state.sealed ∧
      d'.snapshot = .document (.obj obj) ∧ d'.bak = .absent := by
  unfold create at h
  cases hfresh : createState D rid plan owner now with
  | error e =>
    rw [hfresh] at h
    cases h
  | ok fresh =>
    rw [hfresh, ofExcept_ok_bind, bind_apply] at h
    simp only [sys, Faulty.call] at h
    cases hfate : fate .prepareDir with
    | fail =>
      rw [hfate] at h
      cases h
    | cut =>
      rw [hfate] at h
      cases h
    | ok =>
      rw [hfate] at h
      have habsent : (d.snapshot.exists || d.bak.exists) = false := by
        rw [hs, hb]
        rfl
      dsimp only [id] at h
      rw [get_bind_apply, habsent, if_neg Bool.false_ne_true] at h
      cases hi : withInitial D fresh initial with
      | error e =>
        rw [hi] at h
        cases h
      | ok state =>
        rw [hi, ofExcept_ok_bind, bind_apply] at h
        have hend := write_end D fate rid d state
        rcases hw : write D fate rid state d with ⟨o,d2⟩
        rw [hw] at h hend
        cases o with
        | raised e => cases h
        | cut => cases h
        | ok u =>
          cases h
          cases hend with
          | done hr _ =>
            refine ⟨fresh,state,rfl,hi,rfl,hr.1,?_⟩
            rcases hr.2 with ⟨hbak,-⟩ | ⟨hbak,-⟩
            · rw [hbak, hb]
            · rw [hbak, hs]

theorem redactFields_keys (o : Obj) : (redactFields D o).map Prod.fst = o.map Prod.fst := by
  induction o with
  | nil => rfl
  | cons e o ih =>
    obtain ⟨k,w⟩ := e
    rw [redactFields, List.map_cons, List.map_cons, ih]

/-- The fields of an initial state that `create` takes. -/
theorem initialFields_of_withInitial {fresh state : Document} {o : Obj}
    (h : withInitial D fresh (some (.obj o)) = .ok state) :
    (∀ e ∈ redactFields D o, e.1 ∈ initialFields) ∧
      state = (redactFields D o).foldl (fun d e => d.set e.1 e.2) fresh := by
  unfold withInitial at h
  dsimp only at h
  split_ifs at h with hstructural hunknown
  cases h
  refine ⟨fun e he => ?_,rfl⟩
  have hkey : e.1 ∈ o.map Prod.fst := by
    rw [← redactFields_keys (D := D)]
    exact List.mem_map.mpr ⟨e,he,rfl⟩
  obtain ⟨x,hx,hkey⟩ := List.mem_map.mp hkey
  have hknown : e.1 ∈ fieldNames := by
    by_contra hno
    refine hunknown (List.any_eq_true.mpr ⟨x,hx,decide_eq_true ?_⟩)
    rwa [hkey]
  have hfree : e.1 ∉ structuralFields := by
    intro hin
    refine hstructural (List.any_eq_true.mpr ⟨e.1,hin,?_⟩)
    exact List.lookup_isSome_iff.mpr ⟨x,hx,beq_iff_eq.mpr hkey.symm⟩
  have hall : ∀ k ∈ fieldNames, k ∉ structuralFields → k ∈ initialFields := by decide
  exact hall e.1 hknown hfree

/-- The canonical form of the plan has the hash of the plan. -/
def HashKept (D : Deps) (plan : Json) : Prop :=
  ∀ p c, plan = .obj p → D.canonicalize p = .ok c → planHash D c = planHash D p

/-- Every value of the initial state, once redacted, is one that the validator wants. -/
def InitialFits (D : Deps) (initial : Option Json) : Prop :=
  ∀ o : Obj, initial = some (.obj o) → ∀ e ∈ redactFields D o, Admissible e.1 e.2

/-- What the initial state leaves of a new document. -/
theorem withInitial_ok {fresh state : Document} {initial : Option Json} {owner hash now : String}
    {plan : Obj} (hn : ∀ o : Obj, initial = some (.obj o) → (o.map Prod.fst).Nodup)
    (hfits : fresh.Fits) (hfresh : fresh.Structural rid owner hash plan now)
    (h : withInitial D fresh initial = .ok state) :
    state.Structural rid owner hash plan now ∧ (state.Fits ↔ InitialFits D initial) := by
  cases initial with
  | none =>
    cases h
    exact ⟨hfresh,iff_of_true hfits (fun o ho => nomatch ho)⟩
  | some j =>
    cases j with
    | obj o =>
      obtain ⟨hkeys,rfl⟩ := initialFields_of_withInitial h
      have hnodup : ((redactFields D o).map Prod.fst).Nodup := by
        rw [redactFields_keys]
        exact hn o rfl
      refine ⟨hfresh.setAll _,(fits_setAll hfits hkeys hnodup).trans ?_⟩
      constructor
      · intro hall o' ho'
        cases ho'
        exact hall
      · exact fun hall => hall o rfl
    | _ => cases h

/-- A run that `create` has made of an unused id is loaded as what `create` returned if and
only if the hash of its plan survives the canonical form and its initial state fits. -/
theorem create_load_iff (D : Deps) (fate : Fates) (rid : String) (plan : Json) (owner : String)
    (initial : Option Json) (now : Json) (d d' : RunDir) (obj : Obj)
    (hs : d.snapshot = .absent) (hb : d.bak = .absent)
    (hn : ∀ o : Obj, initial = some (.obj o) → (o.map Prod.fst).Nodup)
    (h : create D fate rid plan owner initial now d = (.ok obj,d')) :
    loadData D rid d' = .ok (.obj obj) ↔ HashKept D plan ∧ InitialFits D initial := by
  obtain ⟨fresh,state,hfresh,hinitial,rfl,hsnapshot,hbak⟩ := create_ok hs hb h
  obtain ⟨p,c,hash,stamp,rfl,hcanonical,hhash,howner,hstamp,hfits,hstructural⟩ :=
    structural_of_createState hfresh
  obtain ⟨hkept,hinit⟩ := withInitial_ok hn hfits hstructural hinitial
  rw [loadData_created hbak hsnapshot, validate_created hkept howner hstamp, hinit]
  refine and_congr_left (fun _ => ?_)
  constructor
  · intro hc p' c' hp hc'
    cases hp
    rw [hcanonical] at hc'
    cases hc'
    rw [hc, hhash]
  · intro hc
    rw [hc p c rfl hcanonical, hhash]

theorem sample_load : loadData sampleDeps "run" sampleDir =
    .ok (.obj sampleState.document.sealed) := by
  have h : create sampleDeps allOk "run" (.obj samplePlan) "me" none
      (.str "2026-01-01T00:00:00Z") RunDir.empty = (.ok sampleState.document.sealed,sampleDir) := rfl
  refine (create_load_iff sampleDeps allOk "run" (.obj samplePlan) "me" none
    (.str "2026-01-01T00:00:00Z") RunDir.empty sampleDir _ rfl rfl (fun o h => nomatch h) h).mpr
    ⟨?_,fun o h => nomatch h⟩
  intro p c hp hc
  cases hc
  rfl

/-- `create` writes a status that no reader takes. -/
theorem bogus_status_not_loaded : ∃ obj d',
    create sampleDeps allOk "run" (.obj samplePlan) "me" (some (.obj [("status",.str "bogus")]))
      (.str "2026-01-01T00:00:00Z") RunDir.empty = (.ok obj,d') ∧
    loadData sampleDeps "run" d' =
      .error (.corruptSnapshot "run snapshot malformed or no valid candidate") := by
  refine ⟨_,_,rfl,?_⟩
  rfl

end PdFleet
