import PdFleet.ContractRoundTrip

/-!
# Round trips of events

The wire form of an event nests its payload and provenance one level deeper than their own
checks allow for, keeps the time of the event as it was given, and has every other text in
normal form. An event is read back from its text if and only if this passes the checks again.
-/

set_option autoImplicit false

namespace PdFleet.Bridge

variable {U : Nfc}

theorem readable_normal {v : Json} (hc : Clean v) (hd : Distinct (normal U v)) :
    isReadable (normal U v) = true := by
  induction v using Json.ind with
  | float r =>
    rw [normal]
    by_cases h : r = "-0.0"
    · rw [if_pos h]
      decide
    · rw [if_neg h]
      exact hc
  | arr xs ih =>
    rw [normal_arr] at hd ⊢
    rw [readable_arr, List.forall_mem_map]
    exact fun x hx => ih x hx ((everywhere_arr.mp hc).2 x hx)
      ((everywhere_arr.mp hd).2 _ (List.mem_map_of_mem hx))
  | obj kvs ih =>
    rw [normal_obj] at hd ⊢
    obtain ⟨hn,hd⟩ := everywhere_obj.mp hd
    rw [readable_obj, List.forall_mem_map]
    exact ⟨hn,fun e he => ih e he ((everywhere_obj.mp hc).2 e he) (hd _ (List.mem_map_of_mem he))⟩
  | _ => rfl

theorem safeMapping_iff {p : Bool} {kvs : Obj} : safeMapping U p kvs = .ok () ↔
    freeze p 0 (.obj kvs) = .ok () ∧ freeze false 0 (.obj kvs) = .ok () ∧
    Distinct (normal U (.obj kvs)) ∧
    (dumps (normal U (.obj kvs))).utf8ByteSize ≤ MAX_PAYLOAD_BYTES := by
  rw [safeMapping, ok_of_seq]
  refine and_congr_right fun _ => ?_
  constructor
  · intro h
    obtain ⟨text,ht,h⟩ := ok_of_bind h
    obtain ⟨hf,hd,rfl⟩ := canonicalJson_iff.mp ht
    refine ⟨hf,hd,not_lt.mp fun hlt => ?_⟩
    rw [if_pos hlt] at h
    cases h
  · rintro ⟨hf,hd,hsize⟩
    rw [canonicalJson_iff.mpr ⟨hf,hd,rfl⟩]
    exact if_neg (not_lt.mpr hsize)

/-! ## Payloads -/

def payloadNames : List String :=
  ["runtime_surface", "status", "reason_code", "terminal_state", "metadata_version",
    "heartbeat_sequence", "ttl_ms", "observed_at", "changed_fields"]

theorem payloadNames_plain : ∀ k ∈ payloadNames, plainKey k = true :=
  plain_of_names (by decide)

theorem allowed_names : ∀ e ∈ payloadFields, ∀ k ∈ e.2.1, k ∈ payloadNames := by decide

theorem payloadItems_iff {p : Obj} :
    payloadItems p = .ok () ↔ ∀ e ∈ p, payloadItem e.1 e.2 = .ok () := by
  induction p with
  | nil => simp [payloadItems]
  | cons e p ih => simp [payloadItems, ok_of_seq, ih]

/-- A payload of its type has its names only, and its checked values. -/
theorem payloadShape_iff {t : String} {p : Obj} : payloadShape t p = .ok () ↔
    ∃ allowed required, payloadFields.lookup t = some (allowed,required) ∧
      (∀ e ∈ p, e.1 ∈ allowed) ∧ (∀ k ∈ required, Obj.has p k = true) ∧
      ∀ e ∈ p, payloadItem e.1 e.2 = .ok () := by
  rw [payloadShape]
  cases hl : payloadFields.lookup t with
  | none => simp [fail]
  | some ar =>
    obtain ⟨allowed,required⟩ := ar
    dsimp only
    by_cases h : p.any (fun e => e.1 ∉ allowed) = true ∨ required.any (fun k => !Obj.has p k) = true
    · rw [if_pos h]
      simp only [failWith, reduceCtorEq, false_iff]
      rintro ⟨allowed',required',he,ha,hr,-⟩
      cases he
      rcases h with h | h
      · obtain ⟨e,he,hn⟩ := List.any_eq_true.mp h
        exact of_decide_eq_true hn (ha e he)
      · obtain ⟨k,hk,hn⟩ := List.any_eq_true.mp h
        rw [hr k hk] at hn
        cases hn
    · rw [if_neg h, payloadItems_iff]
      rw [not_or, Bool.not_eq_true, Bool.not_eq_true] at h
      constructor
      · intro hi
        refine ⟨allowed,required,rfl,fun e he => ?_,fun k hk => ?_,hi⟩
        · have := List.any_eq_false.mp h.1 e he
          simpa using this
        · have := List.any_eq_false.mp h.2 k hk
          simpa using this
      · rintro ⟨-,-,-,-,-,hi⟩
        exact hi

theorem mem_of_lookup {t : String} {a r : List String}
    (h : payloadFields.lookup t = some (a,r)) : (t,a,r) ∈ payloadFields := by
  obtain ⟨l1,l2,h,-⟩ := List.lookup_eq_some_iff.mp h
  rw [h]
  simp

theorem payload_name {t : String} {p : Obj} (h : payloadShape t p = .ok ()) :
    ∀ e ∈ p, e.1 ∈ payloadNames := by
  obtain ⟨a,r,hl,ha,-,-⟩ := payloadShape_iff.mp h
  exact fun e he => allowed_names _ (mem_of_lookup hl) e.1 (ha e he)

/-- A value that is its own normal form and may stand in frozen data. -/
structure PlainValue (U : Nfc) (v : Json) : Prop where
  normal_eq : normal U v = v
  clean : Clean v
  height_le : height v ≤ 1

theorem plain_of_flat {v : Json} (h : FlatValue U v) : PlainValue U v := by
  have hl := Flat.leaf h
  refine ⟨?_,hl.2.2.1,by rw [hl.1]; exact Nat.zero_le 1⟩
  cases v with
  | null => rfl
  | int n => rfl
  | str s => rw [normal, h.2]
  | _ => cases h

theorem of_enumerated {b : Bool} (h : enumerated b = .ok ()) : b = true := by
  cases b with
  | true => rfl
  | false => cases h

theorem of_isOneOf {names : List String} {v : Json} (h : isOneOf names v = true) :
    ∃ s ∈ names, v = .str s := by
  cases v with
  | str s => exact ⟨s,of_decide_eq_true h,rfl⟩
  | _ => cases h

theorem of_map_unit {ε α : Type} {x : Except ε α} (h : x.map (fun _ => ()) = .ok ()) :
    ∃ a, x = .ok a := by
  cases x with
  | error e => cases h
  | ok a => exact ⟨a,rfl⟩

theorem of_integer {lo hi : ℕ} {v : Json} {n : Count lo hi} (h : integer lo hi v = .ok n) :
    v = .int n.val := by
  cases v with
  | int m =>
    rw [integer] at h
    split at h
    · rename_i hm
      cases h
      exact congrArg Json.int (Int.toNat_of_nonneg hm.2.2).symm
    · cases h
  | _ => cases h

theorem enumerated_plain {names : List String} (hn : ∀ s ∈ names, plainName s = true) {v : Json}
    (h : isOneOf names v = true) : FlatValue U v := by
  obtain ⟨s,hs,rfl⟩ := of_isOneOf h
  exact flat_name (hn s hs)

theorem integer_plain {v : Json}
    (h : (integer 0 METADATA_MAX v).map (fun _ => ()) = .ok ()) : FlatValue U v := by
  obtain ⟨n,hn⟩ := of_map_unit h
  rw [of_integer hn]
  trivial

theorem of_changedFields {v : Json} (h : changedFields v = .ok ()) :
    ∃ xs, v = .arr xs ∧ ∀ x ∈ xs, isOneOf CHANGED_FIELDS x = true := by
  cases v with
  | arr xs =>
    have hb := of_enumerated h
    rw [Bool.and_eq_true, List.all_eq_true] at hb
    exact ⟨xs,rfl,hb.2⟩
  | _ => cases h

/-- The checks of the values of a payload, by the kind of the name. -/
inductive Kind where
  | oneOf (names : List String)
  | number
  | time
  | changes

def Kind.check (v : Json) : Kind → Except Raised Unit
  | .oneOf names => enumerated (isOneOf names v)
  | .number => (integer 0 METADATA_MAX v).map (fun _ => ())
  | .time => (timestamp v).map (fun _ => ())
  | .changes => changedFields v

def kinds : List (String × Kind) :=
  [("runtime_surface",.oneOf RUNTIME_SURFACES), ("status",.oneOf STATUSES),
    ("reason_code",.oneOf REASON_CODES), ("terminal_state",.oneOf TERMINAL_STATES),
    ("metadata_version",.number), ("heartbeat_sequence",.number), ("ttl_ms",.number),
    ("observed_at",.time), ("changed_fields",.changes)]

theorem payloadItem_kind {k : String} {i : Kind} (h : (k,i) ∈ kinds) (v : Json) :
    payloadItem k v = i.check v := by
  obtain ⟨h1,h2,h3,h4,h5⟩ : isNumberKey "metadata_version" = true ∧
      isNumberKey "heartbeat_sequence" = true ∧ isNumberKey "ttl_ms" = true ∧
      isNumberKey "observed_at" = false ∧ isNumberKey "changed_fields" = false := by
    decide +kernel
  simp only [kinds, List.mem_cons, Prod.mk.injEq, List.not_mem_nil, or_false] at h
  rcases h with ⟨rfl,rfl⟩ | ⟨rfl,rfl⟩ | ⟨rfl,rfl⟩ | ⟨rfl,rfl⟩ | ⟨rfl,rfl⟩ | ⟨rfl,rfl⟩ |
    ⟨rfl,rfl⟩ | ⟨rfl,rfl⟩ | ⟨rfl,rfl⟩ <;>
  simp [payloadItem, Kind.check, h1, h2, h3, h4, h5]

theorem kind_of_name {k : String} (h : k ∈ payloadNames) : ∃ i, (k,i) ∈ kinds := by
  have hn : payloadNames = kinds.map Prod.fst := rfl
  rw [hn] at h
  obtain ⟨⟨k',i⟩,hm,rfl⟩ := List.mem_map.mp h
  exact ⟨i,hm⟩

theorem kinds_plain : ∀ e ∈ kinds, ∀ names, e.2 = .oneOf names →
    ∀ s ∈ names, plainName s = true := by
  simp only [kinds, List.forall_mem_cons]
  refine ⟨?_,?_,?_,?_,?_,?_,?_,?_,?_,nofun⟩
  all_goals intro names h; cases h
  all_goals exact fun s hs => wireValues_plain s (by simp [wireValues, hs])

theorem kinds_time : ∀ e ∈ kinds, (e.2 = .time ↔ e.1 = "observed_at") := by
  simp [kinds]

theorem changed_plain : ∀ s ∈ CHANGED_FIELDS, plainName s = true :=
  fun s h => wireValues_plain s (by simp [wireValues, h])

/-- A checked value that is no time is plain. -/
theorem Kind.plain {i : Kind} {v : Json}
    (hn : ∀ names, i = .oneOf names → ∀ s ∈ names, plainName s = true) (ht : i ≠ .time)
    (h : i.check v = .ok ()) : PlainValue U v := by
  cases i with
  | oneOf names => exact plain_of_flat (enumerated_plain (hn names rfl) (of_enumerated h))
  | number => exact plain_of_flat (integer_plain h)
  | time => exact absurd rfl ht
  | changes =>
    obtain ⟨xs,rfl,hxs⟩ := of_changedFields h
    have hflat : ∀ x ∈ xs, FlatValue U x := fun x hx => enumerated_plain changed_plain (hxs x hx)
    refine ⟨?_,everywhere_arr.mpr ⟨trivial,fun x hx => (Flat.leaf (hflat x hx)).2.2.1⟩,?_⟩
    · rw [normal_arr, Json.arr.injEq]
      exact map_fixed.mpr fun x hx => (plain_of_flat (hflat x hx)).normal_eq
    · exact height_arr_le.mpr fun x hx => by rw [(Flat.leaf (hflat x hx)).1]

theorem of_time {v : Json} (h : Kind.time.check v = .ok ()) :
    ∃ s, v = .str s ∧ timestampText s = .ok () := by
  obtain ⟨t,ht⟩ := of_map_unit h
  cases v with
  | str s => exact ⟨s,rfl,of_timestamp ht ▸ t.property⟩
  | _ => obtain ⟨s,hs,-⟩ := ok_of_bind ht; cases hs

/-- Values of one text pass the same check. -/
theorem Kind.same {i : Kind} {v v' : Json} (hs : Same v v') (h : i.check v = .ok ()) :
    i.check v' = .ok () := by
  cases i with
  | oneOf names =>
    obtain ⟨s,-,rfl⟩ := of_isOneOf (of_enumerated h)
    rwa [hs.str]
  | number =>
    obtain ⟨n,hn⟩ := of_map_unit h
    have hv := of_integer hn
    subst hv
    rwa [hs.scalar rfl]
  | time =>
    obtain ⟨s,rfl,-⟩ := of_time h
    rwa [hs.str]
  | changes =>
    obtain ⟨xs,rfl,hxs⟩ := of_changedFields h
    obtain ⟨ys,rfl,hlen,hys⟩ := hs.arr
    have hb := of_enumerated h
    rw [Bool.and_eq_true, decide_eq_true_iff] at hb
    have hall : ys.all (isOneOf CHANGED_FIELDS) = true := by
      refine List.all_eq_true.mpr fun y hy => ?_
      obtain ⟨x,hx,hsame⟩ := hys y hy
      have hox := hxs x hx
      obtain ⟨s,-,rfl⟩ := of_isOneOf hox
      rwa [hsame.str]
    rw [Kind.check, changedFields, hall, hlen, decide_eq_true hb.1]
    rfl

/-! ## Wire forms -/

theorem eventType_plain : ∀ s ∈ LIFECYCLE_EVENT_TYPES, plainName s = true :=
  fun s h => wireValues_plain s (by simp [wireValues, h])

theorem origin_plain (g : EventOrigin) : plainName g.value = true := by
  cases g <;> exact wireValues_plain _ (by simp [wireValues])

theorem wireKeys_plain : ∀ k ∈ BridgeEvent.fields, plainKey k = true :=
  plain_of_names (by decide)

namespace EventFields

variable (o : EventFields)

/-- A wire form with the time, payload and provenance given. -/
def layout (time : String) (payload provenance : Json) : Obj :=
  [("schema_version",.str o.schema_version), ("event_id",.str o.event_id.val),
    ("event_type",.str o.event_type.val), ("occurred_at",.str time),
    ("source",.obj o.source), ("event_origin",.str o.event_origin.value),
    ("session",.obj o.session), ("stream_epoch",.str o.stream_epoch.val),
    ("sequence",.int o.sequence.val), ("payload",payload), ("provenance",provenance)]

theorem source_flat : Flat U o.source := by
  have hsystem : FlatValue U (.str o.source_system) :=
    flat_name (wireValues_plain "hermes-gateway" (by simp [wireValues]))
  unfold source
  cases o.source_instance_ref with
  | none => exact flat_of ["system"] ⟨rfl,plain_of_names (by decide),by decide,by decide⟩ (by simpa)
  | some r =>
    exact flat_of ["system", "instance_ref"] ⟨rfl,plain_of_names (by decide),by decide,by decide⟩
      (by simp [hsystem, flat_ref])

theorem session_flat : Flat U o.session :=
  flat_of ["session_ref", "association_ref", "ownership_mode"]
    ⟨rfl,plain_of_names (by decide),by decide,by decide⟩
    (by simp [session, flat_ref, flat_name (mode_plain o.ownership_mode)])

theorem normal_layout (t : String) (p q : Json) :
    normal U (.obj (o.layout t p q)) =
      .obj (o.layout (U.normalize t) (normal U p) (normal U q)) := by
  have hk : ∀ k ∈ BridgeEvent.fields, U.normalize k = k := fun k h => key_normal (wireKeys_plain k h)
  simp only [BridgeEvent.fields, List.forall_mem_cons] at hk
  have h1 : U.normalize o.schema_version = o.schema_version := name_normal version_plain
  have h2 : U.normalize o.event_type.val = o.event_type.val :=
    name_normal (eventType_plain _ o.event_type.property)
  have h3 : U.normalize o.event_origin.value = o.event_origin.value :=
    name_normal (origin_plain o.event_origin)
  have h4 : normalFields U o.source = o.source := Json.obj.inj (o.source_flat (U := U)).normal_eq
  have h5 : normalFields U o.session = o.session := Json.obj.inj (o.session_flat (U := U)).normal_eq
  rw [normal_obj]
  simp [layout, normalEntry, normal, Ref.normalize, hk, h1, h2, h3, h4, h5]

theorem layout_distinct {t : String} {p q : Json} (hp : Distinct p) (hq : Distinct q) :
    Distinct (.obj (o.layout t p q)) := by
  have h1 : Distinct (.obj o.source) := (o.source_flat (U := plainForm)).isDistinct
  have h2 : Distinct (.obj o.session) := (o.session_flat (U := plainForm)).isDistinct
  have hkeys : (BridgeEvent.fields).Nodup := by decide
  refine everywhere_obj.mpr ⟨hkeys,?_⟩
  simp only [layout, List.forall_mem_cons]
  exact ⟨trivial,trivial,trivial,trivial,h1,trivial,h2,trivial,trivial,hp,hq,nofun⟩

theorem freeze_flat {kvs : Obj} (h : Flat U kvs) : freeze false 1 (.obj kvs) = .ok () := by
  refine freeze_iff.mpr ⟨?_,h.narrow,h.clean⟩
  have := h.height_le
  have : MAX_NESTING_DEPTH = 4 := rfl
  omega

/-- What freezing a wire form still has to check. -/
theorem freeze_layout {t : String} {p q : Json} :
    freeze false 0 (.obj (o.layout t p q)) = .ok () ↔
      valueText t = .ok () ∧ freeze false 1 p = .ok () ∧ freeze false 1 q = .ok () := by
  have hkeys : ∀ k ∈ BridgeEvent.fields, keyText k = .ok () := fun k h =>
    (plainKey_iff.mp (wireKeys_plain k h)).1
  simp only [BridgeEvent.fields, List.forall_mem_cons] at hkeys
  have htext : ∀ s, freeze false 1 (.str s) = valueText s := fun s => by
    rw [freeze]
    exact if_neg (by decide)
  have hint : freeze false 1 (.int o.sequence.val) = .ok () := by
    rw [freeze]
    exact if_neg (by decide)
  have h1 : valueText o.schema_version = .ok () := (plainName_iff.mp version_plain).2
  have h2 : valueText o.event_type.val = .ok () :=
    (plainName_iff.mp (eventType_plain _ o.event_type.property)).2
  have h3 : valueText o.event_origin.value = .ok () := (plainName_iff.mp (origin_plain _)).2
  have h4 : freeze false 1 (.obj o.source) = .ok () :=
    freeze_flat (o.source_flat (U := plainForm))
  have h5 : freeze false 1 (.obj o.session) = .ok () :=
    freeze_flat (o.session_flat (U := plainForm))
  have hlen : ¬ MAX_LIST_ITEMS < (o.layout t p q).length := by
    show ¬ 32 < 11
    decide
  rw [freeze, if_neg (by decide)]
  show (if MAX_LIST_ITEMS < _ then _ else freezeFields false 0 (o.layout t p q)) = _ ↔ _
  rw [if_neg hlen, freezeFields_iff]
  simp [layout, htext, hint, hkeys, Ref.value, h1, h2, h3, h4, h5]

/-- The time of an event and those of its payload may be replaced by their normal forms,
and its provenance may stand one level deeper, with its keys and texts in normal form. -/
structure Settled (U : Nfc) (o : EventFields) : Prop where
  plain : valueText o.occurred_at.val = .ok ()
  occurred : Stable U o.occurred_at.val
  observed : ∀ s, ("observed_at",.str s) ∈ o.payload → Stable U s
  shallow : height (.obj o.provenance) < MAX_NESTING_DEPTH
  clean : Clean (normal U (.obj o.provenance))

/-- The wire form in normal form. -/
def canonicalWire (U : Nfc) : Json :=
  .obj (o.layout (U.normalize o.occurred_at.val) (normal U (.obj o.payload))
    (normal U (.obj o.provenance)))

theorem normal_wire : normal U (.obj (o.layout o.occurred_at.val (normal U (.obj o.payload))
    (normal U (.obj o.provenance)))) = o.canonicalWire U := by
  rw [normal_layout, normal_idem, normal_idem]
  rfl

theorem wire_of (hp : Distinct (normal U (.obj o.payload)))
    (hq : Distinct (normal U (.obj o.provenance))) :
    o.wire U = .ok (.obj (o.layout o.occurred_at.val (normal U (.obj o.payload))
      (normal U (.obj o.provenance)))) := by
  rw [wire, serialize_iff.mpr ⟨rfl,hp⟩, serialize_iff.mpr ⟨rfl,hq⟩]
  rfl

theorem canonicalEventJson_of (hp : Distinct (normal U (.obj o.payload)))
    (hq : Distinct (normal U (.obj o.provenance))) :
    o.canonicalEventJson U = .ok (dumps (o.canonicalWire U)) := by
  have hser := serialize_iff.mpr ⟨o.normal_wire.symm,o.layout_distinct hp hq⟩
  rw [canonicalEventJson, wire_of o hp hq]
  show (recast .invalidEvent "invalid_json" (serialize U _)).map dumps = _
  rw [hser]
  rfl

theorem envelope_iff (hp : Distinct (normal U (.obj o.payload)))
    (hq : Distinct (normal U (.obj o.provenance))) :
    o.envelope U = .ok () ↔ (dumps (o.canonicalWire U)).utf8ByteSize ≤ MAX_ENVELOPE_BYTES := by
  rw [envelope, canonicalEventJson_of o hp hq]
  dsimp only [bind, Except.bind]
  by_cases hl : MAX_ENVELOPE_BYTES < (dumps (o.canonicalWire U)).utf8ByteSize
  · rw [if_pos hl]
    simp only [failWith, reduceCtorEq, false_iff]
    exact not_le.mpr hl
  · rw [if_neg hl]
    exact iff_of_true rfl (not_lt.mp hl)

variable {o} (h : o.Accepted U)

include h

theorem payload_distinct : Distinct (normal U (.obj o.payload)) :=
  (safeMapping_iff.mp h.payload).2.2.1

theorem provenance_distinct : Distinct (normal U (.obj o.provenance)) :=
  (safeMapping_iff.mp h.provenance).2.2.1

theorem canonicalWire_distinct : Distinct (o.canonicalWire U) :=
  layout_distinct o (payload_distinct h) (provenance_distinct h)

theorem canonical_iff {t : String} : Contract.canonical U (.event ⟨o,h⟩) = .ok t ↔
    valueText o.occurred_at.val = .ok () ∧ freeze false 1 (normal U (.obj o.payload)) = .ok () ∧
    freeze false 1 (normal U (.obj o.provenance)) = .ok () ∧ t = dumps (o.canonicalWire U) := by
  have hbind : Contract.canonical U (.event ⟨o,h⟩) =
      canonicalJson U (.obj (o.layout o.occurred_at.val (normal U (.obj o.payload))
        (normal U (.obj o.provenance)))) := by
    show (o.wire U >>= canonicalJson U) = _
    rw [wire_of o (payload_distinct h) (provenance_distinct h)]
    rfl
  rw [hbind, canonicalJson_iff, freeze_layout, normal_wire]
  constructor
  · rintro ⟨⟨h1,h2,h3⟩,-,h4⟩
    exact ⟨h1,h2,h3,h4⟩
  · rintro ⟨h1,h2,h3,h4⟩
    exact ⟨⟨h1,h2,h3⟩,canonicalWire_distinct h,h4⟩

theorem payload_item {e : String × Json} (he : e ∈ o.payload) :
    (∃ s, e = ("observed_at",.str s)) ∨ (e.1 ≠ "observed_at" ∧ PlainValue U e.2) := by
  obtain ⟨i,hi⟩ := kind_of_name (payload_name h.shape e he)
  obtain ⟨-,-,-,-,-,hitems⟩ := payloadShape_iff.mp h.shape
  have hc := hitems e he
  rw [payloadItem_kind hi] at hc
  by_cases ht : i = .time
  · subst ht
    obtain ⟨s,hs,-⟩ := of_time hc
    exact Or.inl ⟨s,Prod.ext ((kinds_time _ hi).mp rfl) hs⟩
  · exact Or.inr ⟨fun hk => ht ((kinds_time _ hi).mpr hk),Kind.plain (kinds_plain _ hi) ht hc⟩

theorem payload_height : height (.obj o.payload) ≤ 2 := by
  refine height_obj_le.mpr fun e he => ?_
  rcases payload_item h he with ⟨s,rfl⟩ | ⟨-,hp⟩
  · exact Nat.le_succ 1
  · have := hp.height_le
    omega

/-- Freezing the payload in a wire form checks its times only. -/
theorem freeze_payload : freeze false 1 (normal U (.obj o.payload)) = .ok () ↔
    ∀ s, ("observed_at",.str s) ∈ o.payload → valueText (U.normalize s) = .ok () := by
  obtain ⟨hf,-,-,-⟩ := safeMapping_iff.mp h.payload
  obtain ⟨-,hnarrow,hclean⟩ := freeze_iff.mp hf
  have hdepth : 1+height (normal U (.obj o.payload)) ≤ MAX_NESTING_DEPTH := by
    have := payload_height h
    have : MAX_NESTING_DEPTH = 4 := rfl
    rw [height_normal]
    omega
  rw [freeze_iff]
  constructor
  · rintro ⟨-,-,hc⟩ s hs
    rw [normal_obj] at hc
    exact (everywhere_obj.mp hc).2 _ (List.mem_map_of_mem hs)
  · intro hs
    refine ⟨hdepth,(narrow_normal _).mpr hnarrow,?_⟩
    rw [normal_obj]
    refine everywhere_obj.mpr ⟨List.forall_mem_map.mpr fun e he => ?_,
      List.forall_mem_map.mpr fun e he => ?_⟩
    · have hk := payloadNames_plain e.1 (payload_name h.shape e he)
      rw [normalEntry, key_normal hk]
      exact (plainKey_iff.mp hk).1
    · rcases payload_item h he with ⟨s,rfl⟩ | ⟨-,hp⟩
      · exact hs s he
      · rw [normalEntry, hp.normal_eq]
        exact hp.clean

/-- Freezing the provenance in a wire form checks its depth, and its keys and texts again. -/
theorem freeze_provenance : freeze false 1 (normal U (.obj o.provenance)) = .ok () ↔
    height (.obj o.provenance) < MAX_NESTING_DEPTH ∧ Clean (normal U (.obj o.provenance)) := by
  obtain ⟨-,hf,-,-⟩ := safeMapping_iff.mp h.provenance
  obtain ⟨-,hnarrow,-⟩ := freeze_iff.mp hf
  rw [freeze_iff, height_normal, narrow_normal]
  constructor
  · rintro ⟨h1,-,h2⟩
    exact ⟨by omega,h2⟩
  · rintro ⟨h1,h2⟩
    exact ⟨by omega,hnarrow,h2⟩

end EventFields

/-! ## Reading an event back -/

theorem Same.field {kvs kvs' : Obj} (h : Same (.obj kvs) (.obj kvs')) {k : String} {v : Json}
    (hv : Obj.field kvs k = some v) : ∃ v', Obj.field kvs' k = some v' ∧ Same v v' := by
  obtain ⟨kvs'',he,hp,-⟩ := h.obj
  cases he
  have ht := field_of_texts (readable_obj.mp h.left).1 hp k
  rw [hv, Option.map_some] at ht
  obtain ⟨v',hv',hd⟩ := Option.map_eq_some_iff.mp ht
  exact ⟨v',hv',(readable_obj.mp h.left).2 _ (mem_of_field hv),
    (readable_obj.mp h.right).2 _ (mem_of_field hv'),hd⟩

theorem Same.argument {kvs kvs' : Obj} (h : Same (.obj kvs) (.obj kvs')) {k : String} {v : Json}
    (hv : Obj.field kvs k = some v) : Same v (argument kvs' k .null) := by
  obtain ⟨v',hv',hs⟩ := h.field hv
  rw [Bridge.argument, hv']
  exact hs

theorem Same.has {kvs kvs' : Obj} (h : Same (.obj kvs) (.obj kvs')) {k : String}
    (hk : k ∈ kvs.map Prod.fst) : Obj.has kvs' k = true := by
  obtain ⟨v,hv⟩ := Option.isSome_iff_exists.mp (has_of_name hk)
  obtain ⟨v',hv',-⟩ := h.field hv
  rw [Obj.has, hv']
  rfl

theorem Same.nested {kvs kvs' : Obj} (h : Same (.obj kvs) (.obj kvs')) {allowed : List String}
    (ha : ∀ k ∈ kvs.map Prod.fst, k ∈ allowed) :
    BridgeEvent.nested allowed (.obj kvs') = .ok kvs' := by
  obtain ⟨kvs'',he,-,hf⟩ := h.obj
  cases he
  have hnone : kvs'.any (fun e => e.1 ∉ allowed) = false := by
    rw [Bool.eq_false_iff]
    intro hany
    obtain ⟨e',he',hn⟩ := List.any_eq_true.mp hany
    obtain ⟨e,he,hk,-⟩ := hf e' he'
    exact of_decide_eq_true hn (hk ▸ ha e.1 (List.mem_map_of_mem he))
  rw [BridgeEvent.nested, asMapping]
  show (if kvs'.any (fun e => e.1 ∉ allowed) = true then _ else _) = _
  rw [hnone]
  rfl

theorem Same.sourceOf {o : EventFields} {v : Json} (h : Same (.obj o.source) v) :
    ∃ s', v = .obj s' ∧ BridgeEvent.nested ["system", "instance_ref"] v = .ok s' ∧
      Obj.has s' "system" = true ∧
      Bridge.argument s' "system" .null = .str o.source_system ∧
      Bridge.argument s' "instance_ref" .null = optionalText o.source_instance_ref := by
  obtain ⟨s',rfl,-,-⟩ := h.obj
  have hflat : Flat plainForm o.source := o.source_flat
  obtain ⟨s'',he,hf,-⟩ := hflat.decoded ⟨h.right,h.text⟩
  cases he
  have hnames : ∀ k ∈ o.source.map Prod.fst, k ∈ ["system", "instance_ref"] := by
    unfold EventFields.source
    cases o.source_instance_ref <;> simp
  refine ⟨s',rfl,h.nested hnames,h.has List.mem_cons_self,?_,?_⟩
  · rw [Bridge.argument, hf]
    rfl
  · rw [Bridge.argument, hf]
    unfold EventFields.source
    cases o.source_instance_ref <;> rfl

theorem Same.sessionOf {o : EventFields} {v : Json} (h : Same (.obj o.session) v) :
    ∃ s', v = .obj s' ∧
      BridgeEvent.nested ["session_ref", "association_ref", "ownership_mode"] v = .ok s' ∧
      (∀ k ∈ ["session_ref", "association_ref", "ownership_mode"], Obj.has s' k = true) ∧
      Bridge.argument s' "session_ref" .null = .str o.session_ref.val ∧
      Bridge.argument s' "association_ref" .null = .str o.association_ref.val ∧
      Bridge.argument s' "ownership_mode" .null = .str o.ownership_mode.value := by
  obtain ⟨s',rfl,-,-⟩ := h.obj
  have hflat : Flat plainForm o.session := o.session_flat
  obtain ⟨s'',he,hf,-⟩ := hflat.decoded ⟨h.right,h.text⟩
  cases he
  refine ⟨s',rfl,h.nested (fun k hk => hk),fun k hk => h.has hk,?_,?_,?_⟩
  all_goals
    rw [Bridge.argument, hf]
    rfl

/-- The constructor makes an accepted event of its own fields. -/
theorem make_event {o : EventFields} (h : o.Accepted U) :
    BridgeEvent.make U (.str o.schema_version) (.str o.event_id.val) (.str o.event_type.val)
      (.str o.occurred_at.val) (.str o.source_system) (.str o.event_origin.value)
      (.str o.session_ref.val) (.str o.association_ref.val) (.str o.ownership_mode.value)
      (.str o.stream_epoch.val) (.int o.sequence.val) (.obj o.payload) (.obj o.provenance)
      (optionalText o.source_instance_ref) = .ok ⟨o,h⟩ := by
  have hversion : schemaVersion (.str o.schema_version) = .ok () := rfl
  have hsystem : sourceSystem (.str o.source_system) = .ok () := rfl
  have htype := listed_val .unsupportedEvent none o.event_type
    (name_text (eventType_plain _ o.event_type.property))
  have htime : timestamp (.str o.occurred_at.val) = .ok o.occurred_at :=
    timestamp_text o.occurred_at.property
  simp only [BridgeEvent.make, hversion, hsystem, htype, htime, Ref.read, eventOrigin_value,
    ownershipMode_value, integer_val, optionalRef_text, asMapping, bind, Except.bind,
    holds_ok h.payload, holds_ok h.shape, holds_ok h.provenance]
  rw [if_neg (by show ¬ OwnershipMode.userOwnedSession = .fleetOwnedTask; decide)]
  show (holds (o.envelope U) >>= _) = _
  rw [holds_ok h.envelope]
  rfl

/-- The event that is read back from a value of the text. -/
def EventFields.settle (o : EventFields) (t : Timestamp) (p q : Obj) : EventFields :=
  { o with occurred_at := t, payload := p, provenance := q }

/-- A text of a layout says its time, and its mappings up to their texts. -/
theorem dumps_layout {o : EventFields} {t : String} {p q p' q' : Json} (hp : dumps p' = dumps p)
    (hq : dumps q' = dumps q) : dumps (.obj (o.layout t p' q')) = dumps (.obj (o.layout t p q)) := by
  have hkeys : BridgeEvent.fields.Nodup := by decide
  refine dumps_of_texts hkeys (List.Perm.of_eq ?_)
  simp [texts, EventFields.layout, hp, hq]

section

variable {o : EventFields} (h : o.Accepted U) (hs : o.Settled U) {p q : Obj}
  (hp : Same (normal U (.obj o.payload)) (.obj p))
  (hq : Same (normal U (.obj o.provenance)) (.obj q))

include hp in
theorem settle_payload_normal : normal U (.obj p) = .obj p := hp.normal (normal_idem _)

include hq in
theorem settle_provenance_normal : normal U (.obj q) = .obj q := hq.normal (normal_idem _)

include hp hq in
theorem settle_wire : dumps ((o.settle ⟨_,hs.occurred.stamp⟩ p q).canonicalWire U) =
    dumps (o.canonicalWire U) := by
  show dumps (.obj (o.layout (U.normalize (U.normalize o.occurred_at.val)) (normal U (.obj p))
    (normal U (.obj q)))) = _
  rw [U.idem, settle_payload_normal hp, settle_provenance_normal hq]
  exact dumps_layout hp.text hq.text

include h hs hp in
theorem settle_shape : payloadShape o.event_type.val p = .ok () := by
  obtain ⟨a,r,hl,ha,hr,hi⟩ := payloadShape_iff.mp h.shape
  have hname := payload_name h.shape
  have hsame := hp
  rw [normal_obj] at hsame
  obtain ⟨p',he,-,hf⟩ := hsame.obj
  cases he
  -- An entry of the new payload is the normal form of one of the old, up to its text.
  have hentry : ∀ e' ∈ p, ∃ e ∈ o.payload, e.1 = e'.1 ∧ Same (normal U e.2) e'.2 := by
    intro e' he'
    obtain ⟨w,hw,hk,hv⟩ := hf e' he'
    obtain ⟨e,he,rfl⟩ := List.mem_map.mp hw
    exact ⟨e,he,(key_normal (payloadNames_plain e.1 (hname e he))).symm.trans hk,hv⟩
  refine payloadShape_iff.mpr ⟨a,r,hl,fun e' he' => ?_,fun k hk => ?_,fun e' he' => ?_⟩
  · obtain ⟨e,he,hk,-⟩ := hentry e' he'
    exact hk ▸ ha e he
  · obtain ⟨v,hv⟩ := Option.isSome_iff_exists.mp (hr k hk)
    have hm := mem_of_field hv
    have hkn := key_normal (U := U) (payloadNames_plain k (hname _ hm))
    refine hsame.has (List.mem_map.mpr ⟨_,List.mem_map_of_mem hm,hkn⟩)
  · obtain ⟨e,he,hk,hv⟩ := hentry e' he'
    obtain ⟨i,hkind⟩ := kind_of_name (hname e he)
    have hc := hi e he
    rw [payloadItem_kind hkind] at hc
    rw [← hk, payloadItem_kind hkind]
    by_cases ht : i = .time
    · subst ht
      obtain ⟨s,hval,-⟩ := of_time hc
      have hmem : ("observed_at",Json.str s) ∈ o.payload := by
        have hpair : e = ("observed_at",Json.str s) :=
          Prod.ext ((kinds_time _ hkind).mp rfl) hval
        exact hpair ▸ he
      rw [hval] at hv
      rw [hv.str, Kind.check, timestamp_text (hs.observed s hmem).stamp]
      rfl
    · have hplain : PlainValue U e.2 := Kind.plain (kinds_plain _ hkind) ht hc
      rw [hplain.normal_eq] at hv
      exact Kind.same hv hc

include h hs hp hq in
theorem accepted_settle : (o.settle ⟨_,hs.occurred.stamp⟩ p q).Accepted U := by
  obtain ⟨hpf,-,-,hpsize⟩ := safeMapping_iff.mp h.payload
  obtain ⟨hqf,hqf',-,hqsize⟩ := safeMapping_iff.mp h.provenance
  have hpd : Distinct (normal U (.obj p)) := by
    rw [settle_payload_normal hp]
    exact distinct_of_readable hp.right
  have hqd : Distinct (normal U (.obj q)) := by
    rw [settle_provenance_normal hq]
    exact distinct_of_readable hq.right
  have hpayload := (EventFields.freeze_payload h).mpr (fun s hm => (hs.observed s hm).value)
  have hpfreeze : freeze false 0 (.obj p) = .ok () := by
    obtain ⟨hd,hn,hc⟩ := freeze_iff.mp hpayload
    exact hp.freeze (freeze_iff.mpr ⟨by omega,hn,hc⟩)
  have hdepth : 0+height (normal U (.obj o.provenance)) ≤ MAX_NESTING_DEPTH := by
    have := hs.shallow
    rw [height_normal]
    omega
  have hqfreeze : ∀ b, Narrow b (normal U (.obj o.provenance)) → freeze b 0 (.obj q) = .ok () :=
    fun b hn => hq.freeze (freeze_iff.mpr ⟨hdepth,hn,hs.clean⟩)
  refine ⟨safeMapping_iff.mpr ⟨hpfreeze,hpfreeze,hpd,?_⟩,settle_shape h hs hp,
    safeMapping_iff.mpr ⟨hqfreeze true ?_,hqfreeze false ?_,hqd,?_⟩,?_⟩
  · show (dumps (normal U (.obj p))).utf8ByteSize ≤ _
    rwa [settle_payload_normal hp, hp.text]
  · exact (narrow_normal _).mpr (freeze_iff.mp hqf).2.1
  · exact (narrow_normal _).mpr (freeze_iff.mp hqf').2.1
  · show (dumps (normal U (.obj q))).utf8ByteSize ≤ _
    rwa [settle_provenance_normal hq, hq.text]
  · refine (EventFields.envelope_iff _ hpd hqd).mpr ?_
    rw [settle_wire hs hp hq]
    exact (EventFields.envelope_iff o (EventFields.payload_distinct h)
      (EventFields.provenance_distinct h)).mp h.envelope

include h hs hp hq in
theorem settled_settle : (o.settle ⟨_,hs.occurred.stamp⟩ p q).Settled U := by
  have hstable : ∀ {s}, Stable U s → Stable U (U.normalize s) := fun hst =>
    ⟨by rw [U.idem]; exact hst.stamp,by rw [U.idem]; exact hst.value⟩
  have hsame := hp
  rw [normal_obj] at hsame
  obtain ⟨p',he,-,hf⟩ := hsame.obj
  cases he
  refine ⟨hs.occurred.value,hstable hs.occurred,fun s hm => ?_,?_,?_⟩
  · obtain ⟨w,hw,hk,hv⟩ := hf _ hm
    obtain ⟨e,he,rfl⟩ := List.mem_map.mp hw
    have hname : e.1 = "observed_at" :=
      (key_normal (payloadNames_plain e.1 (payload_name h.shape e he))).symm.trans hk
    rcases EventFields.payload_item h he with ⟨s0,rfl⟩ | ⟨hne,-⟩
    · obtain rfl : s = U.normalize s0 := Json.str.inj hv.str
      exact hstable (hs.observed s0 he)
    · exact absurd hname hne
  · have hle : height (normal U (.obj o.provenance)) ≤ MAX_NESTING_DEPTH-1 := by
      have := hs.shallow
      rw [height_normal]
      omega
    have := hq.height_le hle
    have : MAX_NESTING_DEPTH = 4 := rfl
    show height (.obj q) < _
    omega
  · show Clean (normal U (.obj q))
    rw [settle_provenance_normal hq]
    exact hq.clean hs.clean

end

/-- Reading a value of the text of an event makes the settled event, if this is accepted. -/
theorem fromDict_event {o : EventFields} {kvs' p q : Obj}
    (hs : Same (o.canonicalWire U) (.obj kvs')) (ht : Stable U o.occurred_at.val)
    (hp : Bridge.argument kvs' "payload" .null = .obj p)
    (hq : Bridge.argument kvs' "provenance" .null = .obj q)
    (ha : (o.settle ⟨_,ht.stamp⟩ p q).Accepted U) :
    BridgeEvent.fromDict U (.obj kvs') = .ok ⟨o.settle ⟨_,ht.stamp⟩ p q,ha⟩ := by
  have hnested : BridgeEvent.nested BridgeEvent.fields (.obj kvs') = .ok kvs' :=
    hs.nested (fun k hk => hk)
  have hall : BridgeEvent.fields.any (fun k => !Obj.has kvs' k) = false := by
    rw [Bool.eq_false_iff]
    intro hany
    obtain ⟨k,hk,hn⟩ := List.any_eq_true.mp hany
    have hhas : Obj.has kvs' k = true := Same.has hs hk
    rw [hhas] at hn
    cases hn
  obtain ⟨src,hsrc,hsn,hsys,ha1,ha2⟩ := Same.sourceOf (Same.argument hs (k := "source") rfl)
  obtain ⟨ses,hses,hen,hsess,hb1,hb2,hb3⟩ := Same.sessionOf (Same.argument hs (k := "session") rfl)
  have h1 := (Same.argument hs (k := "schema_version") rfl).str
  have h2 := (Same.argument hs (k := "event_id") rfl).str
  have h3 := (Same.argument hs (k := "event_type") rfl).str
  have h4 := (Same.argument hs (k := "occurred_at") rfl).str
  have h5 := (Same.argument hs (k := "event_origin") rfl).str
  have h6 := (Same.argument hs (k := "stream_epoch") rfl).str
  have h7 := (Same.argument hs (k := "sequence") rfl).scalar rfl
  rw [BridgeEvent.fromDict, hnested]
  show (if BridgeEvent.fields.any (fun k => !Obj.has kvs' k) = true then _ else _) = _
  rw [hall, if_neg Bool.false_ne_true, hsn, hen, hsrc, hses]
  have hboth : ¬ ((!Obj.has src "system") = true ∨ ["session_ref", "association_ref",
      "ownership_mode"].any (fun k => !Obj.has ses k) = true) := by
    rintro (h | h)
    · rw [hsys] at h
      cases h
    · obtain ⟨k,hk,hn⟩ := List.any_eq_true.mp h
      rw [hsess k hk] at hn
      cases hn
  show (if (!Obj.has src "system") = true ∨ _ then _ else _) = _
  rw [if_neg hboth, h1, h2, h3, h4, h5, h6, h7, ha1, ha2, hb1, hb2, hb3, hp, hq]
  exact make_event ha

theorem of_make {v1 v2 v3 v4 v5 v6 v7 v8 v9 v10 v11 v12 v13 v14 : Json} {e : BridgeEvent U}
    (h : BridgeEvent.make U v1 v2 v3 v4 v5 v6 v7 v8 v9 v10 v11 v12 v13 v14 = .ok e) :
    timestamp v4 = .ok e.val.occurred_at ∧ asMapping v12 = .ok e.val.payload := by
  obtain ⟨_,-,h⟩ := ok_of_bind h
  obtain ⟨_,-,h⟩ := ok_of_bind h
  obtain ⟨t,ht,h⟩ := ok_of_bind h
  obtain ⟨_,-,h⟩ := ok_of_bind h
  obtain ⟨_,-,h⟩ := ok_of_bind h
  obtain ⟨_,-,h⟩ := ok_of_bind h
  obtain ⟨_,-,h⟩ := ok_of_bind h
  obtain ⟨_,-,h⟩ := ok_of_bind h
  obtain ⟨_,-,h⟩ := ok_of_bind h
  obtain ⟨m,-,h⟩ := ok_of_bind h
  obtain ⟨_,-,h⟩ := ok_of_bind h
  obtain ⟨_,-,h⟩ := ok_of_bind h
  obtain ⟨p,hp,h⟩ := ok_of_bind h
  obtain ⟨⟨_⟩,-,h⟩ := ok_of_bind h
  obtain ⟨⟨_⟩,-,h⟩ := ok_of_bind h
  obtain ⟨_,-,h⟩ := ok_of_bind h
  obtain ⟨⟨_⟩,-,h⟩ := ok_of_bind h
  by_cases hm : m = .fleetOwnedTask
  · simp only [hm, if_true] at h
    cases h
  · simp only [hm, if_false] at h
    obtain ⟨⟨_⟩,-,h⟩ := ok_of_bind h
    cases h
    exact ⟨ht,hp⟩

theorem of_fromDict {d : Json} {e : BridgeEvent U} (h : BridgeEvent.fromDict U d = .ok e) :
    ∃ kvs, d = .obj kvs ∧ timestamp (argument kvs "occurred_at" .null) = .ok e.val.occurred_at ∧
      asMapping (argument kvs "payload" .null) = .ok e.val.payload := by
  obtain ⟨kvs,hn,h⟩ := ok_of_bind h
  have hd : d = .obj kvs := by
    obtain ⟨kvs',ha,hif⟩ := ok_of_bind hn
    cases d with
    | obj kvs'' =>
      cases ha
      split at hif
      · cases hif
      · cases hif
        rfl
    | _ => cases ha
  refine ⟨kvs,hd,?_⟩
  split at h
  · cases h
  · obtain ⟨_,-,h⟩ := ok_of_bind h
    obtain ⟨_,-,h⟩ := ok_of_bind h
    obtain ⟨_,-,h⟩ := ok_of_bind h
    obtain ⟨_,-,h⟩ := ok_of_bind h
    split at h
    · cases h
    · exact of_make h

/-! ## Which contracts round-trip -/

namespace Contract

/-- The contract has a canonical text, and every value of this text is accepted and makes
a contract with the same text and the same outcome of `fingerprint()`. -/
def RoundTrips (U : Nfc) (o : Contract U) : Prop :=
  ∃ text, o.canonical U = .ok text ∧ (∃ d, Decoded text d) ∧
    ∀ d, Decoded text d → ∃ o', o.fromDictOf U d = .ok o' ∧ o'.canonical U = .ok text ∧
      o'.fingerprint U = o.fingerprint U

/-- The times and texts of a contract stay acceptable in normal form. -/
def Settled (U : Nfc) : Contract U → Prop
  | .cursor o => o.Settled U
  | .event o => o.val.Settled U
  | _ => True

def isEvent {U : Nfc} : Contract U → Bool
  | .event _ => true
  | _ => false

theorem canonical_of_flat {o : Contract U} {kvs : Obj} (hf : Flat U kvs)
    (ho : o.toDict U = .ok (.obj kvs)) : o.canonical U = .ok (dumps (.obj kvs)) := by
  rw [Contract.canonical, ho]
  exact hf.canonical

/-- The round trip of a contract with a flat wire form. -/
theorem flat_roundTrips {o : Contract U} (o' : Contract U) {kvs : Obj} (hf : Flat U kvs)
    (ho : o.toDict U = .ok (.obj kvs)) (ho' : o'.toDict U = .ok (.obj kvs))
    (hp : o'.fingerprint U = o.fingerprint U)
    (hr : ∀ kvs', (∀ k, Obj.field kvs' k = Obj.field kvs k) →
      (∀ e ∈ kvs', e.1 ∈ kvs.map Prod.fst) → o.fromDictOf U (.obj kvs') = .ok o') :
    o.RoundTrips U := by
  refine ⟨_,canonical_of_flat hf ho,⟨.obj kvs,readable_of hf.clean hf.isDistinct,rfl⟩,fun d hd => ?_⟩
  obtain ⟨kvs',rfl,hfield,hkeys⟩ := hf.decoded hd
  exact ⟨o',hr kvs' hfield hkeys,canonical_of_flat hf ho',hp⟩

theorem flat_toDict {kvs : Obj} (hf : Flat U kvs) : serialize U (.obj kvs) = .ok (.obj kvs) :=
  serialize_iff.mpr ⟨hf.normal_eq.symm,hf.isDistinct⟩

theorem settled_of_cursor {o : BridgeCursor} (h : (Contract.cursor o).RoundTrips U) :
    o.Settled U := by
  obtain ⟨text,hc,⟨d,hd⟩,hall⟩ := h
  have hbind : (Contract.cursor o).canonical U = canonicalJson U (.obj (o.wire U)) := by
    show (serialize U (.obj o.attributes) >>= canonicalJson U) = _
    rw [o.toDict_eq]
    rfl
  rw [hbind, canonicalJson_iff, o.wire_normal] at hc
  obtain ⟨hf,hdist,rfl⟩ := hc
  have hclean := (freeze_iff.mp hf).2.2
  obtain ⟨-,hvals⟩ := everywhere_obj.mp hclean
  simp only [BridgeCursor.wire, List.forall_mem_cons] at hvals
  obtain ⟨-,-,-,-,-,hi,he,-⟩ := hvals
  obtain ⟨o',hfrom,-,-⟩ := hall (.obj (o.wire U)) ⟨readable_of hclean hdist,rfl⟩
  have hfrom' : (BridgeCursor.fromDict (.obj (o.wire U))).map Contract.cursor = .ok o' := hfrom
  rw [o.fromDict_eq (fun k => rfl) (fun e he => List.mem_map_of_mem he)] at hfrom'
  cases hm : BridgeCursor.make (.str o.cursor_version) (.str o.association_ref.val)
      (.str o.subscriber_ref.val) (.str o.stream_epoch.val) (.int o.last_sequence.val)
      (.str (U.normalize o.issued_at.val)) (.str (U.normalize o.expires_at.val)) with
  | error e => rw [hm] at hfrom'; cases hfrom'
  | ok c => exact o.settled_of_make hm hi he

theorem settled_of_event {e : BridgeEvent U} (h : (Contract.event e).RoundTrips U) :
    e.val.Settled U := by
  obtain ⟨o,ha⟩ := e
  obtain ⟨text,hc,-,hall⟩ := h
  obtain ⟨hplain,hp,hq,rfl⟩ := (EventFields.canonical_iff ha).mp hc
  obtain ⟨hshallow,hclean⟩ := (EventFields.freeze_provenance ha).mp hq
  have hwire := freeze_iff.mp (o.freeze_layout.mpr ⟨hplain,hp,hq⟩)
  have hdist := EventFields.canonicalWire_distinct ha
  rw [← EventFields.normal_wire] at hdist
  have hread := readable_normal hwire.2.2 hdist
  rw [EventFields.normal_wire] at hread
  obtain ⟨o',hfrom,hcan,-⟩ := hall (o.canonicalWire U) ⟨hread,rfl⟩
  have hfrom' : (BridgeEvent.fromDict U (o.canonicalWire U)).map Contract.event = .ok o' := hfrom
  cases hm : BridgeEvent.fromDict U (o.canonicalWire U) with
  | error x => rw [hm] at hfrom'; cases hfrom'
  | ok e' =>
    rw [hm] at hfrom'
    cases hfrom'
    obtain ⟨kvs,hk,ht,hpay⟩ := of_fromDict hm
    cases hk
    have htime : e'.val.occurred_at.val = U.normalize o.occurred_at.val := of_timestamp ht
    have hpayload : e'.val.payload = o.payload.map (normalEntry U) := by
      have hfield : argument (o.layout (U.normalize o.occurred_at.val)
          (normal U (.obj o.payload)) (normal U (.obj o.provenance))) "payload" .null =
          .obj (o.payload.map (normalEntry U)) := (normal_obj o.payload)
      rw [hfield] at hpay
      exact (Except.ok.inj hpay).symm
    obtain ⟨hplain',-,-,-⟩ := (EventFields.canonical_iff e'.property).mp hcan
    refine ⟨hplain,⟨htime ▸ e'.val.occurred_at.property,htime ▸ hplain'⟩,fun s hs => ⟨?_,?_⟩,
      hshallow,hclean⟩
    · obtain ⟨-,-,-,-,-,hitems⟩ := payloadShape_iff.mp e'.property.shape
      have hmem : normalEntry U ("observed_at",.str s) ∈ e'.val.payload := by
        rw [hpayload]
        exact List.mem_map_of_mem hs
      have hitem := hitems _ hmem
      have hkey : U.normalize "observed_at" = "observed_at" := key_normal
        (attributeNames_plain _ (by decide))
      have hkind : ("observed_at",Kind.time) ∈ kinds := by simp [kinds]
      rw [normalEntry, hkey, payloadItem_kind hkind] at hitem
      obtain ⟨s',he,hst⟩ := of_time hitem
      cases he
      exact hst
    · exact (EventFields.freeze_payload ha).mp hp s hs

theorem roundTrips_of_event {e : BridgeEvent U} (h : e.val.Settled U) :
    (Contract.event e).RoundTrips U := by
  obtain ⟨o,ha⟩ := e
  have hp := (EventFields.freeze_payload ha).mpr (fun s hm => (h.observed s hm).value)
  have hq := (EventFields.freeze_provenance ha).mpr ⟨h.shallow,h.clean⟩
  have hdist := EventFields.canonicalWire_distinct ha
  have hread : isReadable (o.canonicalWire U) = true := by
    have hwire := freeze_iff.mp (o.freeze_layout.mpr ⟨h.plain,hp,hq⟩)
    rw [← EventFields.normal_wire] at hdist ⊢
    exact readable_normal hwire.2.2 hdist
  refine ⟨_,(EventFields.canonical_iff ha).mpr ⟨h.plain,hp,hq,rfl⟩,⟨_,hread,rfl⟩,fun d hd => ?_⟩
  have hsame : Same (o.canonicalWire U) d := ⟨hread,hd.1,hd.2⟩
  obtain ⟨kvs',rfl,-,-⟩ := Same.obj hsame
  have hpsame := Same.argument hsame (k := "payload") rfl
  have hqsame := Same.argument hsame (k := "provenance") rfl
  obtain ⟨p,hpe⟩ : ∃ p, argument kvs' "payload" .null = .obj p := by
    rw [normal_obj] at hpsame
    obtain ⟨p,he,-⟩ := hpsame.obj
    exact ⟨p,he⟩
  obtain ⟨q,hqe⟩ : ∃ q, argument kvs' "provenance" .null = .obj q := by
    rw [normal_obj] at hqsame
    obtain ⟨q,he,-⟩ := hqsame.obj
    exact ⟨q,he⟩
  rw [hpe] at hpsame
  rw [hqe] at hqsame
  have hacc := accepted_settle ha h hpsame hqsame
  have hset := settled_settle ha h hpsame hqsame
  have hfrom := fromDict_event hsame h.occurred hpe hqe hacc
  have htext := settle_wire h hpsame hqsame
  refine ⟨.event ⟨_,hacc⟩,?_,?_,?_⟩
  · show (BridgeEvent.fromDict U (.obj kvs')).map Contract.event = _
    rw [hfrom]
    rfl
  · refine (EventFields.canonical_iff hacc).mpr ⟨hset.plain,?_,?_,htext.symm⟩
    · exact (EventFields.freeze_payload hacc).mpr (fun s hm => (hset.observed s hm).value)
    · exact (EventFields.freeze_provenance hacc).mpr ⟨hset.shallow,hset.clean⟩
  · show ((o.settle _ p q).canonicalEventJson U).map sha256Hex = (o.canonicalEventJson U).map sha256Hex
    rw [EventFields.canonicalEventJson_of _ (EventFields.payload_distinct hacc)
      (EventFields.provenance_distinct hacc), EventFields.canonicalEventJson_of _
      (EventFields.payload_distinct ha) (EventFields.provenance_distinct ha), htext]

end Contract

end PdFleet.Bridge
