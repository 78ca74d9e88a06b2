import PdFleet.ContractTexts

/-!
# Round trips of the contracts

A contract whose attributes are references, numbers and names of closed lists has a wire
form in normal form, and every value of its text makes it again.
-/

set_option autoImplicit false

namespace PdFleet.Bridge

open Pattern

variable {U : Nfc}

/-- The normal form of texts that are in it, such as the ASCII ones. -/
def plainForm : Nfc := ⟨id,fun _ => rfl,fun _ _ => rfl⟩

/-- What `json.loads` may give for a text. -/
def Decoded (text : String) (d : Json) : Prop := isReadable d = true ∧ dumps d = text

theorem holds_ok {ε : Type} {x : Except ε Unit} (h : x = .ok ()) : holds x = .ok ⟨h⟩ := by
  subst h
  rfl

/-! ## References -/

theorem stringText_iff {r e : Bool} {s : String} : stringText r e s = .ok () ↔
    (e = false → s ≠ "") ∧ s.utf8ByteSize ≤ (if r then MAX_REF_BYTES else MAX_STRING_BYTES) ∧
    (∀ c ∈ s.toList, c ∉ ['\x00', '\n', '\r']) ∧
    (r = true → refMatches s = true ∧ ∀ c ∈ s.toList, c ∉ ['/', '\\']) := by
  rw [stringText]
  by_cases h1 : (!e) = true ∧ s = ""
  · rw [if_pos h1]
    simp only [fail, reduceCtorEq, false_iff, not_and]
    exact fun h => absurd h1.2 (h (by simpa using h1.1))
  rw [if_neg h1]
  have h1' : e = false → s ≠ "" := fun he hs => h1 ⟨by rw [he]; rfl,hs⟩
  by_cases h2 : (if r then MAX_REF_BYTES else MAX_STRING_BYTES) < s.utf8ByteSize
  · rw [if_pos h2]
    simp only [fail, reduceCtorEq, false_iff, not_and]
    exact fun _ h => absurd h (not_le.mpr h2)
  rw [if_neg h2]
  by_cases h3 : (s.toList.any (fun c => c ∈ ['\x00', '\n', '\r'])) = true
  · rw [if_pos h3]
    obtain ⟨c,hc,hm⟩ := List.any_eq_true.mp h3
    simp only [fail, reduceCtorEq, false_iff, not_and]
    exact fun _ _ h => absurd (of_decide_eq_true hm) (h c hc)
  rw [if_neg h3]
  have h3' : ∀ c ∈ s.toList, c ∉ ['\x00', '\n', '\r'] := fun c hc hm =>
    h3 (List.any_eq_true.mpr ⟨c,hc,decide_eq_true hm⟩)
  by_cases h4 : r = true ∧ (!refMatches s ∨ s.toList.any (fun c => c ∈ ['/', '\\']))
  · rw [if_pos h4]
    simp only [fail, reduceCtorEq, false_iff, not_and]
    intro _ _ _ h
    obtain ⟨hm,hn⟩ := h h4.1
    rcases h4.2 with h | h
    · rw [hm] at h
      cases h
    · obtain ⟨c,hc,hm⟩ := List.any_eq_true.mp h
      exact hn c hc (of_decide_eq_true hm)
  rw [if_neg h4]
  refine iff_of_true rfl ⟨h1',not_lt.mp h2,h3',fun hr => ⟨?_,fun c hc hm => ?_⟩⟩
  · by_contra hm
    exact h4 ⟨hr,Or.inl (by simpa using hm)⟩
  · exact h4 ⟨hr,Or.inr (List.any_eq_true.mpr ⟨c,hc,decide_eq_true hm⟩)⟩

theorem refText_iff {s : String} : refText s = .ok () ↔
    stringText true false s = .ok () ∧ ':' ∉ s.toList ∧ isSensitive s = false := by
  rw [refText, ok_of_seq]
  refine and_congr_right fun _ => ?_
  by_cases h : ':' ∈ s.toList ∨ isSensitive s = true
  · rw [if_pos h]
    simp only [failWith, reduceCtorEq, false_iff, not_and]
    exact fun hn hs => h.elim hn (fun h => by rw [hs] at h; cases h)
  · rw [if_neg h]
    simpa [not_or] using h

theorem valueText_iff {s : String} : valueText s = .ok () ↔
    stringText false true s = .ok () ∧ isSensitive s = false ∧ isLocated s = false := by
  rw [valueText, ok_of_seq]
  refine and_congr_right fun _ => ?_
  by_cases h : isSensitive s = true ∨ isLocated s = true
  · rw [if_pos h]
    simp only [failWith, reduceCtorEq, false_iff, not_and]
    exact fun hs hl => h.elim (fun h => by rw [hs] at h; cases h) (fun h => by rw [hl] at h; cases h)
  · rw [if_neg h]
    simpa [not_or] using h

theorem alphanum_ascii {c : Char} (h : c.isAlphanum = true) : c.toNat < 128 := by
  simp only [Char.isAlphanum, Char.isAlpha, Char.isUpper, Char.isLower, Char.isDigit,
    Bool.or_eq_true, Bool.and_eq_true, decide_eq_true_eq, UInt32.le_iff_toNat_le, ge_iff_le] at h
  have h1 : c.toNat = c.val.toNat := rfl
  have h2 : 'Z'.val.toNat = 90 := rfl
  have h3 : 'z'.val.toNat = 122 := rfl
  have h4 : '9'.val.toNat = 57 := rfl
  omega

theorem refChar_ascii {c : Char} (h : isRefChar c = true) : c.toNat < 128 := by
  rw [isRefChar, Bool.or_eq_true, decide_eq_true_eq] at h
  rcases h with h | h
  · exact alphanum_ascii h
  · fin_cases h <;> decide

theorem refMatches_chars {s : String} (h : refMatches s = true) :
    ∀ c ∈ s.toList, isRefChar c = true := by
  rw [refMatches] at h
  cases hl : s.toList with
  | nil => exact nofun
  | cons c t =>
    rw [hl] at h
    simp only [Bool.and_eq_true] at h
    refine List.forall_mem_cons.mpr ⟨?_,List.all_eq_true.mp h.1.2⟩
    rw [isRefChar, h.1.1, Bool.true_or]

theorem located_reads : Reads (fun c => c = '/' || c = ':') located := by
  have hw : ∀ w : String, w.toList.head? = some ':' →
      Reads (fun c => c = '/' || c = ':') (word id w) := by
    intro w hw
    rw [word]
    cases hl : w.toList with
    | nil => rw [hl] at hw; cases hw
    | cons c t =>
      rw [hl] at hw
      obtain rfl : c = ':' := Option.some.inj hw
      exact (reads_char (fun d hd => by simp_all)).seq_left
  refine reads_oneOf fun a ha => ?_
  simp only [List.mem_cons, List.not_mem_nil, or_false] at ha
  rcases ha with rfl | rfl | rfl | rfl
  · exact ((hw "://" (by decide)).seq_right).seq_right
  · exact (hw "://" (by decide)).seq_right
  · exact (reads_char (fun d hd => by simp_all)).seq_left
  · exact (hw ":\\\\" (by decide)).seq_right

namespace Ref

variable (r : Ref)

theorem chars : ∀ c ∈ r.val.toList, isRefChar c = true :=
  refMatches_chars ((stringText_iff.mp (refText_iff.mp r.property).1).2.2.2 rfl).1

theorem normalize : U.normalize r.val = r.val :=
  U.ascii r.val (List.all_eq_true.mpr
    (fun c hc => decide_eq_true (refChar_ascii (chars r c hc))))

/-- A reference may stand in frozen data. -/
theorem value : valueText r.val = .ok () := by
  obtain ⟨hs,hcolon,hsens⟩ := refText_iff.mp r.property
  obtain ⟨-,hsize,hchars,href⟩ := stringText_iff.mp hs
  have hslash := (href rfl).2
  rw [valueText_iff, stringText_iff]
  refine ⟨⟨nofun,le_trans hsize (by decide),hchars,nofun⟩,hsens,?_⟩
  refine located_reads.search fun c hc => ?_
  have h1 : c ≠ '/' := fun h => hslash c hc (by rw [h]; exact List.mem_cons_self)
  have h2 : c ≠ ':' := fun h => hcolon (h ▸ hc)
  simp [h1, h2]

theorem read : ref (.str r.val) = .ok r := by
  rw [ref, asText]
  show (holds (refText r.val) >>= _) = _
  rw [holds_ok r.property]
  rfl

end Ref

theorem optionalRef_text (o : Option Ref) : optionalRef (optionalText o) = .ok o := by
  cases o with
  | none => rfl
  | some r =>
    show (ref (.str r.val) >>= _) = _
    rw [Ref.read]
    rfl

theorem integer_val {lo hi : ℕ} (n : Count lo hi) : integer lo hi (.int n.val) = .ok n := by
  rw [integer, dif_pos]
  · rfl
  · exact ⟨n.property.1,n.property.2,Int.natCast_nonneg _⟩

theorem timestamp_text {s : String} (h : timestampText s = .ok ()) :
    timestamp (.str s) = .ok ⟨s,h⟩ := by
  rw [timestamp, asText]
  show (holds (timestampText s) >>= _) = _
  rw [holds_ok h]
  rfl

theorem of_timestamp {s : String} {t : Timestamp} (h : timestamp (.str s) = .ok t) : t.val = s := by
  obtain ⟨⟨hs⟩,-,h⟩ := ok_of_bind (show (holds (timestampText s) >>= _) = _ from h)
  cases h
  rfl

theorem ownershipMode_value (m : OwnershipMode) : ownershipMode (.str m.value) = .ok m := by
  cases m <;> rfl

theorem eventOrigin_value (g : EventOrigin) : eventOrigin (.str g.value) = .ok g := by
  cases g <;> rfl

theorem listed_val {names : List String} (code : BridgeErrorCode) (reason : Option String)
    (s : {s : String // s ∈ names}) (hs : stringText false false s.val = .ok ()) :
    listed names code reason (.str s.val) = .ok s := by
  rw [listed, asText]
  show (stringText false false s.val >>= _) = _
  rw [hs]
  exact dif_pos s.property


/-! ## Flat wire forms -/

/-- A value of a flat mapping, in normal form. -/
def FlatValue (U : Nfc) : Json → Prop
  | .null | .int _ => True
  | .str s => valueText s = .ok () ∧ U.normalize s = s
  | _ => False

theorem flat_ref (r : Ref) : FlatValue U (.str r.val) := ⟨Ref.value r,Ref.normalize r⟩

theorem flat_optional (o : Option Ref) : FlatValue U (optionalText o) := by
  cases o with
  | none => trivial
  | some r => exact flat_ref r

theorem flat_int (n : ℤ) : FlatValue U (.int n) := trivial

/-- A key of frozen data in normal form. -/
def plainKey (s : String) : Bool := keyText s = .ok () ∧ s.toList.all (fun c => c.toNat < 128)

/-- A name that may also stand as a value. -/
def plainName (s : String) : Bool := plainKey s ∧ valueText s = .ok ()

theorem plainKey_iff {s : String} : plainKey s = true ↔
    keyText s = .ok () ∧ s.toList.all (fun c => c.toNat < 128) = true := decide_eq_true_iff

theorem plainName_iff {s : String} :
    plainName s = true ↔ plainKey s = true ∧ valueText s = .ok () := decide_eq_true_iff

theorem key_normal {s : String} (h : plainKey s = true) : U.normalize s = s :=
  U.ascii s (plainKey_iff.mp h).2

theorem name_normal {s : String} (h : plainName s = true) : U.normalize s = s :=
  key_normal (plainName_iff.mp h).1

theorem flat_name {s : String} (h : plainName s = true) : FlatValue U (.str s) :=
  ⟨(plainName_iff.mp h).2,name_normal h⟩

theorem name_text {s : String} (h : plainName s = true) : stringText false false s = .ok () :=
  (ok_of_seq.mp (plainKey_iff.mp (plainName_iff.mp h).1).1).1

/-- The names that attributes, payload items and wire fields have. -/
def attributeNames : List String :=
  ["activation_ref", "nonce_ref", "association_ref", "session_ref", "owner_ref", "profile_ref",
    "workspace_ref", "ownership_mode", "observer_ref", "stream_epoch", "after_sequence", "limit",
    "status", "sequence", "metadata_version", "cursor_version", "subscriber_ref",
    "last_sequence", "issued_at", "expires_at", "schema_version", "event_id", "event_type",
    "occurred_at", "source", "event_origin", "session", "payload", "provenance",
    "runtime_surface", "reason_code", "terminal_state", "heartbeat_sequence", "ttl_ms",
    "observed_at", "changed_fields", "system", "instance_ref"]

theorem attributeNames_plain : ∀ k ∈ attributeNames, plainKey k = true := by decide +kernel

theorem plain_of_names {names : List String} (h : ∀ k ∈ names, k ∈ attributeNames) :
    ∀ k ∈ names, plainKey k = true :=
  fun k hk => attributeNames_plain k (h k hk)

/-- The values that a contract may have where it has to have one of a few. -/
def wireValues : List String :=
  STATUSES ++ RUNTIME_SURFACES ++ REASON_CODES ++ TERMINAL_STATES ++ CHANGED_FIELDS ++
    LIFECYCLE_EVENT_TYPES ++ [SCHEMA_VERSION, "hermes-gateway"] ++
    [OwnershipMode.userOwnedSession.value, OwnershipMode.fleetOwnedTask.value] ++
    [EventOrigin.gatewayNative.value, EventOrigin.fleetReconciled.value]

theorem wireValues_plain : ∀ s ∈ wireValues, plainName s = true := by decide +kernel

theorem status_plain : ∀ s ∈ STATUSES, plainName s = true :=
  fun s h => wireValues_plain s (by simp [wireValues, h])

theorem mode_plain (m : OwnershipMode) : plainName m.value = true := by
  cases m <;> exact wireValues_plain _ (by simp [wireValues])

theorem version_plain : plainName SCHEMA_VERSION = true :=
  wireValues_plain SCHEMA_VERSION (by simp [wireValues])

/-- Data has a text if it may be frozen and its keys stay distinct. -/
theorem canonicalJson_iff {v : Json} {t : String} : canonicalJson U v = .ok t ↔
    freeze false 0 v = .ok () ∧ Distinct (normal U v) ∧ t = dumps (normal U v) := by
  rw [canonicalJson, canonicalData]
  constructor
  · intro h
    cases hf : freeze false 0 v with
    | error e => rw [hf] at h; cases h
    | ok u =>
      rw [hf] at h
      cases hs : recast .invalidEvent "invalid_json" (serialize U v) with
      | error e => simp [bind, Except.bind, hs, Except.map] at h
      | ok w =>
        obtain ⟨rfl,hd⟩ := serialize_iff.mp (recast_ok.mp hs)
        simp only [bind, Except.bind, hs, Except.map, Except.ok.injEq] at h
        exact ⟨rfl,hd,h.symm⟩
  · rintro ⟨hf,hd,rfl⟩
    rw [hf, serialize_iff.mpr ⟨rfl,hd⟩]
    rfl

/-- A mapping of references, numbers and plain texts, in normal form. -/
structure Flat (U : Nfc) (kvs : Obj) : Prop where
  keys : ∀ k ∈ kvs.map Prod.fst, plainKey k = true
  vals : ∀ e ∈ kvs, FlatValue U e.2
  distinct : (kvs.map Prod.fst).Nodup
  few : kvs.length ≤ MAX_LIST_ITEMS

namespace Flat

variable {kvs : Obj}

theorem normal_eq (h : Flat U kvs) : normal U (.obj kvs) = .obj kvs := by
  rw [normal_obj, Json.obj.injEq]
  refine map_fixed.mpr fun e he => ?_
  have hk := h.keys e.1 (List.mem_map_of_mem he)
  have hv := h.vals e he
  obtain ⟨k,v⟩ := e
  rw [normalEntry, key_normal hk]
  cases v with
  | null => rfl
  | int n => rfl
  | str s => rw [normal, hv.2]
  | _ => cases hv

theorem leaf {v : Json} (h : FlatValue U v) : height v = 0 ∧ Narrow false v ∧ Clean v ∧
    Distinct v := by
  cases v with
  | null => exact ⟨rfl,trivial,trivial,trivial⟩
  | int n => exact ⟨rfl,trivial,trivial,trivial⟩
  | str s => exact ⟨rfl,trivial,h.1,trivial⟩
  | _ => cases h

theorem clean (h : Flat U kvs) : Clean (.obj kvs) := by
  refine everywhere_obj.mpr ⟨fun e he => ?_,fun e he => (leaf (h.vals e he)).2.2.1⟩
  exact (plainKey_iff.mp (h.keys e.1 (List.mem_map_of_mem he))).1

theorem height_le (h : Flat U kvs) : height (.obj kvs) ≤ 1 :=
  height_obj_le.mpr fun e he => by rw [(leaf (h.vals e he)).1]

theorem narrow (h : Flat U kvs) : Narrow false (.obj kvs) :=
  everywhere_obj.mpr ⟨h.few,fun e he => (leaf (h.vals e he)).2.1⟩

theorem isDistinct (h : Flat U kvs) : Distinct (.obj kvs) :=
  everywhere_obj.mpr ⟨h.distinct,fun e he => (leaf (h.vals e he)).2.2.2⟩

theorem canonical (h : Flat U kvs) : canonicalJson U (.obj kvs) = .ok (dumps (.obj kvs)) := by
  rw [canonicalJson_iff, h.normal_eq]
  refine ⟨freeze_iff.mpr ⟨?_,h.narrow,h.clean⟩,h.isDistinct,rfl⟩
  have := h.height_le
  have : MAX_NESTING_DEPTH = 4 := rfl
  omega

theorem same (h : Flat U kvs) {d : Json} (hd : Decoded (dumps (.obj kvs)) d) :
    Same (.obj kvs) d := ⟨readable_of h.clean h.isDistinct,hd.1,hd.2⟩

/-- A value of the text of a flat mapping has its fields and no others. -/
theorem decoded (h : Flat U kvs) {d : Json} (hd : Decoded (dumps (.obj kvs)) d) :
    ∃ kvs', d = .obj kvs' ∧ (∀ k, Obj.field kvs' k = Obj.field kvs k) ∧
      ∀ e' ∈ kvs', e'.1 ∈ kvs.map Prod.fst := by
  obtain ⟨kvs',rfl,hp,hf⟩ := (h.same hd).obj
  have hmem : ∀ e' ∈ kvs', e' ∈ kvs := by
    intro e' he'
    obtain ⟨e,he,hk,hs⟩ := hf e' he'
    have hv := h.vals e he
    have heq : e'.2 = e.2 := by
      obtain ⟨k,v⟩ := e
      cases v with
      | str s => exact hs.str
      | null => exact hs.scalar rfl
      | int n => exact hs.scalar rfl
      | _ => cases hv
    have hpair : e' = e := Prod.ext hk.symm heq
    rwa [hpair]
  refine ⟨kvs',rfl,fun k => ?_,fun e' he' => List.mem_map_of_mem (hmem e' he')⟩
  have ht := field_of_texts h.distinct hp k
  cases hk : Obj.field kvs' k with
  | none =>
    rw [hk] at ht
    exact (Option.map_eq_none_iff.mp ht.symm).symm
  | some v => exact (field_of_mem h.distinct (hmem _ (mem_of_field hk))).symm

end Flat

theorem has_of_name {kvs : Obj} {k : String} (h : k ∈ kvs.map Prod.fst) : Obj.has kvs k = true := by
  rw [Obj.has, Option.isSome_iff_exists]
  induction kvs with
  | nil => cases h
  | cons e kvs ih =>
    obtain ⟨k',v⟩ := e
    rw [Obj.field, List.lookup_cons]
    cases hb : k == k' with
    | true => exact ⟨v,rfl⟩
    | false =>
      rcases List.mem_cons.mp h with h | h
      · exact absurd h (by simpa using hb)
      · exact ih h

theorem arguments_ok {fields required : List String} {kvs kvs' : Obj}
    (he : kvs.map Prod.fst = fields) (hk : ∀ e ∈ kvs', e.1 ∈ kvs.map Prod.fst)
    (hf : ∀ k, Obj.field kvs' k = Obj.field kvs k) (hr : ∀ k ∈ required, k ∈ fields) :
    arguments fields required (.obj kvs') = .ok kvs' := by
  subst he
  have h1 : kvs'.any (fun e => e.1 ∉ kvs.map Prod.fst) = false := by
    rw [Bool.eq_false_iff]
    intro h
    obtain ⟨e,he,hn⟩ := List.any_eq_true.mp h
    exact of_decide_eq_true hn (hk e he)
  have h2 : required.any (fun k => !Obj.has kvs' k) = false := by
    rw [Bool.eq_false_iff]
    intro h
    obtain ⟨k,hm,hn⟩ := List.any_eq_true.mp h
    have hs := has_of_name (hr k hm)
    rw [Obj.has, ← hf k, ← Obj.has] at hs
    rw [hs] at hn
    cases hn
  rw [arguments, h1, h2]
  rfl

/-- The names of the attributes of a contract. -/
structure PlainNames (kvs : Obj) (names : List String) : Prop where
  names_eq : kvs.map Prod.fst = names
  plain : ∀ k ∈ names, plainKey k = true
  distinct : names.Nodup
  few : names.length ≤ MAX_LIST_ITEMS

theorem flat_of {kvs : Obj} (names : List String) (hn : PlainNames kvs names)
    (hv : ∀ e ∈ kvs, FlatValue U e.2) : Flat U kvs := by
  obtain ⟨rfl,hp,hd,hf⟩ := hn
  exact ⟨hp,hv,hd,by rwa [List.length_map] at hf⟩

theorem argument_eq {kvs kvs' : Obj} (hf : ∀ k, Obj.field kvs' k = Obj.field kvs k) (k : String)
    (m : Json) : argument kvs' k m = argument kvs k m := by
  rw [argument, argument, hf]

namespace ActivationTicketRef

variable (o : ActivationTicketRef)

theorem flat : Flat U o.attributes :=
  flat_of ["activation_ref", "nonce_ref"] ⟨rfl,plain_of_names (by decide),by decide,by decide⟩
    (by simp [attributes, flat_ref, flat_optional])

theorem fromDict_of {kvs' : Obj} (hf : ∀ k, Obj.field kvs' k = Obj.field o.attributes k)
    (hk : ∀ e ∈ kvs', e.1 ∈ o.attributes.map Prod.fst) : fromDict (.obj kvs') = .ok o := by
  have harg : arguments ["activation_ref", "nonce_ref"] ["activation_ref"] (.obj kvs') = .ok kvs' :=
    arguments_ok rfl hk hf (by decide)
  rw [fromDict, harg]
  show make (argument kvs' "activation_ref" .null) (argument kvs' "nonce_ref" .null) = .ok o
  simp only [argument_eq hf]
  show make (.str o.activation_ref.val) (optionalText o.nonce_ref) = .ok o
  rw [make, Ref.read, optionalRef_text]
  rfl

end ActivationTicketRef

namespace AssociationRef

variable (o : AssociationRef)

theorem flat : Flat U o.attributes :=
  flat_of ["association_ref", "session_ref", "owner_ref", "profile_ref", "workspace_ref",
    "ownership_mode"] ⟨rfl,plain_of_names (by decide),by decide,by decide⟩
    (by simp [attributes, flat_optional, flat_name (mode_plain o.ownership_mode)])

theorem fromDict_of {kvs' : Obj} (hf : ∀ k, Obj.field kvs' k = Obj.field o.attributes k)
    (hk : ∀ e ∈ kvs', e.1 ∈ o.attributes.map Prod.fst) : fromDict (.obj kvs') = .ok o := by
  have harg : arguments ["association_ref", "session_ref", "owner_ref", "profile_ref",
      "workspace_ref", "ownership_mode"] ["association_ref", "session_ref"] (.obj kvs') =
      .ok kvs' := arguments_ok rfl hk hf (by decide)
  rw [fromDict, harg]
  show make (argument kvs' "association_ref" .null) (argument kvs' "session_ref" .null)
    (argument kvs' "owner_ref" .null) (argument kvs' "profile_ref" .null)
    (argument kvs' "workspace_ref" .null) (argument kvs' "ownership_mode" _) = .ok o
  simp only [argument_eq hf]
  show make (optionalText o.association_ref) (optionalText o.session_ref)
    (optionalText o.owner_ref) (optionalText o.profile_ref) (optionalText o.workspace_ref)
    (.str o.ownership_mode.value) = .ok o
  simp only [make, optionalRef_text, ownershipMode_value]
  rfl

end AssociationRef

namespace ObserverIdentity

variable (o : ObserverIdentity)

theorem flat : Flat U o.attributes :=
  flat_of ["observer_ref", "owner_ref", "profile_ref"]
    ⟨rfl,plain_of_names (by decide),by decide,by decide⟩ (by simp [attributes, flat_optional])

theorem fromDict_of {kvs' : Obj} (hf : ∀ k, Obj.field kvs' k = Obj.field o.attributes k)
    (hk : ∀ e ∈ kvs', e.1 ∈ o.attributes.map Prod.fst) : fromDict (.obj kvs') = .ok o := by
  have harg : arguments ["observer_ref", "owner_ref", "profile_ref"] ["observer_ref"]
      (.obj kvs') = .ok kvs' := arguments_ok rfl hk hf (by decide)
  rw [fromDict, harg]
  show make (argument kvs' "observer_ref" .null) (argument kvs' "owner_ref" .null)
    (argument kvs' "profile_ref" .null) = .ok o
  simp only [argument_eq hf]
  show make (optionalText o.observer_ref) (optionalText o.owner_ref)
    (optionalText o.profile_ref) = .ok o
  simp only [make, optionalRef_text]
  rfl

end ObserverIdentity

namespace ReplayWindow

variable (o : ReplayWindow)

theorem flat : Flat U o.attributes :=
  flat_of ["association_ref", "stream_epoch", "after_sequence", "limit"]
    ⟨rfl,plain_of_names (by decide),by decide,by decide⟩ (by simp [attributes, flat_ref, flat_int])

theorem fromDict_of {kvs' : Obj} (hf : ∀ k, Obj.field kvs' k = Obj.field o.attributes k)
    (hk : ∀ e ∈ kvs', e.1 ∈ o.attributes.map Prod.fst) : fromDict (.obj kvs') = .ok o := by
  have harg : arguments ["association_ref", "stream_epoch", "after_sequence", "limit"]
      ["association_ref", "stream_epoch", "after_sequence"] (.obj kvs') = .ok kvs' :=
    arguments_ok rfl hk hf (by decide)
  have hlimit : overLimit (.int o.limit.val) = false :=
    decide_eq_false (by have := o.limit.property.2; omega)
  rw [fromDict, harg]
  show make (argument kvs' "association_ref" .null) (argument kvs' "stream_epoch" .null)
    (argument kvs' "after_sequence" .null) (argument kvs' "limit" (.int 100)) = .ok o
  simp only [argument_eq hf]
  show make (.str o.association_ref.val) (.str o.stream_epoch.val)
    (.int o.after_sequence.val) (.int o.limit.val) = .ok o
  simp only [make, Ref.read, integer_val, hlimit]
  rfl

end ReplayWindow

namespace SessionSnapshot

variable (o : SessionSnapshot)

theorem status_flat : FlatValue U (.str o.status.val) :=
  flat_name (status_plain o.status.val o.status.property)

theorem flat : Flat U o.attributes :=
  flat_of ["session_ref", "association_ref", "ownership_mode", "status", "stream_epoch",
    "sequence", "metadata_version"] ⟨rfl,plain_of_names (by decide),by decide,by decide⟩
    (by simp [attributes, flat_ref, flat_optional, flat_name (mode_plain o.ownership_mode),
      status_flat, flat_int])

theorem fromDict_of {kvs' : Obj} (hf : ∀ k, Obj.field kvs' k = Obj.field o.attributes k)
    (hk : ∀ e ∈ kvs', e.1 ∈ o.attributes.map Prod.fst) : fromDict (.obj kvs') = .ok o := by
  have harg : arguments ["session_ref", "association_ref", "ownership_mode", "status",
      "stream_epoch", "sequence", "metadata_version"] ["session_ref", "association_ref"]
      (.obj kvs') = .ok kvs' := arguments_ok rfl hk hf (by decide)
  have hstatus := listed_val .invalidEvent (some "unknown_enum") o.status
    (name_text (status_plain o.status.val o.status.property))
  rw [fromDict, harg]
  show make (argument kvs' "session_ref" .null) (argument kvs' "association_ref" .null)
    (argument kvs' "ownership_mode" _) (argument kvs' "status" _)
    (argument kvs' "stream_epoch" .null) (argument kvs' "sequence" _)
    (argument kvs' "metadata_version" _) = .ok o
  simp only [argument_eq hf]
  show make (.str o.session_ref.val) (.str o.association_ref.val) (.str o.ownership_mode.value)
    (.str o.status.val) (optionalText o.stream_epoch) (.int o.sequence.val)
    (.int o.metadata_version.val) = .ok o
  simp only [make, Ref.read, ownershipMode_value, hstatus, integer_val, optionalRef_text]
  rfl

end SessionSnapshot

/-! ## Cursors -/

/-- A time whose normal form is a time too, and may stand in frozen data. -/
structure Stable (U : Nfc) (s : String) : Prop where
  stamp : timestampText (U.normalize s) = .ok ()
  value : valueText (U.normalize s) = .ok ()

theorem Stable.flat {s : String} (h : Stable U s) : FlatValue U (.str (U.normalize s)) :=
  ⟨h.value,U.idem s⟩

namespace BridgeCursor

variable (o : BridgeCursor)

/-- The times of a cursor may be replaced by their normal forms. -/
structure Settled (U : Nfc) (o : BridgeCursor) : Prop where
  issued : Stable U o.issued_at.val
  expires : Stable U o.expires_at.val
  interval : intervalText (U.normalize o.issued_at.val) (U.normalize o.expires_at.val) = .ok ()

/-- The attributes in normal form. -/
def wire (U : Nfc) : Obj :=
  [("cursor_version",.str o.cursor_version), ("association_ref",.str o.association_ref.val),
    ("subscriber_ref",.str o.subscriber_ref.val), ("stream_epoch",.str o.stream_epoch.val),
    ("last_sequence",.int o.last_sequence.val), ("issued_at",.str (U.normalize o.issued_at.val)),
    ("expires_at",.str (U.normalize o.expires_at.val))]

theorem fields_plain : ∀ k ∈ fields, plainKey k = true := plain_of_names (by decide)

theorem normal_attributes : normal U (.obj o.attributes) = .obj (o.wire U) := by
  have hk : ∀ k ∈ fields, U.normalize k = k := fun k h => key_normal (fields_plain k h)
  simp only [fields, List.forall_mem_cons] at hk
  have hv : U.normalize o.cursor_version = o.cursor_version := name_normal version_plain
  rw [normal_obj]
  simp [attributes, normalEntry, wire, normal, Ref.normalize, hk, hv]

theorem wire_normal : normal U (.obj (o.wire U)) = .obj (o.wire U) := by
  rw [← normal_attributes, normal_idem]

theorem wire_distinct : Distinct (.obj (o.wire U)) := by
  refine everywhere_obj.mpr ⟨?_,?_⟩
  · show fields.Nodup
    decide
  · simp [wire, Everywhere, distinctAt]

theorem toDict_eq : serialize U (.obj o.attributes) = .ok (.obj (o.wire U)) :=
  serialize_iff.mpr ⟨o.normal_attributes.symm,o.wire_distinct⟩

theorem flat (h : o.Settled U) : Flat U (o.wire U) :=
  flat_of fields ⟨rfl,fields_plain,by decide,by decide⟩
    (by simp [wire, flat_ref, flat_int, h.issued.flat, h.expires.flat,
      show FlatValue U (.str o.cursor_version) from flat_name version_plain])

/-- The cursor with its times in normal form. -/
def settle (h : o.Settled U) : BridgeCursor :=
  { o with issued_at := ⟨_,h.issued.stamp⟩, expires_at := ⟨_,h.expires.stamp⟩, interval := h.interval }

theorem settle_wire (h : o.Settled U) : (o.settle h).wire U = o.wire U := by
  simp [settle, wire, U.idem, cursor_version]

/-- The constructor makes a cursor of its own fields. -/
theorem make_self : make (.str o.cursor_version) (.str o.association_ref.val)
    (.str o.subscriber_ref.val) (.str o.stream_epoch.val) (.int o.last_sequence.val)
    (.str o.issued_at.val) (.str o.expires_at.val) = .ok o := by
  have hversion : schemaVersion (.str o.cursor_version) = .ok () := rfl
  have hissued : timestamp (.str o.issued_at.val) = .ok o.issued_at :=
    timestamp_text o.issued_at.property
  have hexpires : timestamp (.str o.expires_at.val) = .ok o.expires_at :=
    timestamp_text o.expires_at.property
  rw [make, hversion]
  simp only [Ref.read, integer_val, hissued, hexpires]
  show (holds (intervalText o.issued_at.val o.expires_at.val) >>= _) = _
  rw [holds_ok o.interval]
  rfl

theorem fromDict_eq {kvs' : Obj} (hf : ∀ k, Obj.field kvs' k = Obj.field (o.wire U) k)
    (hk : ∀ e ∈ kvs', e.1 ∈ (o.wire U).map Prod.fst) : fromDict (.obj kvs') =
      make (.str o.cursor_version) (.str o.association_ref.val) (.str o.subscriber_ref.val)
        (.str o.stream_epoch.val) (.int o.last_sequence.val)
        (.str (U.normalize o.issued_at.val)) (.str (U.normalize o.expires_at.val)) := by
  have harg : arguments fields fields (.obj kvs') = .ok kvs' :=
    arguments_ok rfl hk hf (fun k h => h)
  rw [fromDict, harg]
  show make (argument kvs' "cursor_version" .null) (argument kvs' "association_ref" .null)
    (argument kvs' "subscriber_ref" .null) (argument kvs' "stream_epoch" .null)
    (argument kvs' "last_sequence" .null) (argument kvs' "issued_at" .null)
    (argument kvs' "expires_at" .null) = _
  simp only [argument_eq hf]
  rfl

theorem fromDict_of (h : o.Settled U) {kvs' : Obj}
    (hf : ∀ k, Obj.field kvs' k = Obj.field (o.wire U) k)
    (hk : ∀ e ∈ kvs', e.1 ∈ (o.wire U).map Prod.fst) :
    fromDict (.obj kvs') = .ok (o.settle h) := by
  rw [fromDict_eq o hf hk]
  exact make_self (o.settle h)

/-- Only settled times are read back. -/
theorem settled_of_make {o' : BridgeCursor}
    (h : make (.str o.cursor_version) (.str o.association_ref.val) (.str o.subscriber_ref.val)
      (.str o.stream_epoch.val) (.int o.last_sequence.val)
      (.str (U.normalize o.issued_at.val)) (.str (U.normalize o.expires_at.val)) = .ok o')
    (hi : valueText (U.normalize o.issued_at.val) = .ok ())
    (he : valueText (U.normalize o.expires_at.val) = .ok ()) : o.Settled U := by
  obtain ⟨_,-,h⟩ := ok_of_bind h
  obtain ⟨_,-,h⟩ := ok_of_bind h
  obtain ⟨_,-,h⟩ := ok_of_bind h
  obtain ⟨_,-,h⟩ := ok_of_bind h
  obtain ⟨_,-,h⟩ := ok_of_bind h
  obtain ⟨i,hti,h⟩ := ok_of_bind h
  obtain ⟨x,htx,h⟩ := ok_of_bind h
  obtain ⟨⟨hint⟩,-,-⟩ := ok_of_bind h
  rw [of_timestamp hti, of_timestamp htx] at hint
  exact ⟨⟨of_timestamp hti ▸ i.property,hi⟩,⟨of_timestamp htx ▸ x.property,he⟩,hint⟩

end BridgeCursor

end PdFleet.Bridge
