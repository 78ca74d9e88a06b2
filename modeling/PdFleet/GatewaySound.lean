import PdFleet.GatewaySchema

/-!
# What passes the redaction of the gateway

The validator gives a verdict, and lets only listed keys and texts pass, if and only if no
list stands where it looks up a name, and the events it accepts have no unlisted key in a
mapping without a leaf and no reference that ends in a line feed.
-/

set_option autoImplicit false

namespace PdFleet.Redaction

/-! ## Leaves -/

mutual

/-- The leaves below a path, with their paths. -/
def leaves (path : String) : Json → Obj
  | .obj kvs => leavesFields (path++".") kvs
  | v => [(path,v)]

def leavesFields (pre : String) : List (String × Json) → Obj
  | [] => []
  | (k,v) :: kvs => leaves (pre++k) v++leavesFields pre kvs

end

mutual

/-- A mapping without a leaf. -/
def hollow : Json → Bool
  | .obj kvs => hollowFields kvs
  | _ => false

def hollowFields : List (String × Json) → Bool
  | [] => true
  | (_,v) :: kvs => hollow v && hollowFields kvs

end

mutual

/-- The keys that have no leaf below them. -/
def hollowKeys : Json → List String
  | .obj kvs => hollowKeysFields kvs
  | _ => []

def hollowKeysFields : List (String × Json) → List String
  | [] => []
  | (k,v) :: kvs => (if hollow v then k :: keysOf v else hollowKeys v)++hollowKeysFields kvs

end

/-- What may follow a key in a path. -/
def Below (r : String) : Prop := r = "" ∨ ∃ b, r = "."++b

/-- What may precede a key in a path. -/
def Above (r : String) : Prop := r = "" ∨ ∃ b, r = b++"."

theorem leaves_scalar {path : String} {v : Json} (h : v.isDict = false) :
    leaves path v = [(path,v)] := by
  cases v with
  | obj kvs => cases h
  | _ => simp only [leaves]

theorem mem_leaves (v : Json) : ∀ {path : String} {e : String × Json}, e ∈ leaves path v →
    (∃ r, e.1 = path++r ∧ Below r) ∧ e.2.isDict = false := by
  induction v using Json.ind with
  | obj kvs ih =>
    intro path e he
    rw [leaves] at he
    have hfields : ∀ l : Obj, (∀ f ∈ l, f ∈ kvs) → e ∈ leavesFields (path++".") l →
        (∃ r, e.1 = path++r ∧ Below r) ∧ e.2.isDict = false := by
      intro l hl hmem
      induction l with
      | nil => cases hmem
      | cons f l ihl =>
        rw [leavesFields, List.mem_append] at hmem
        rcases hmem with hmem | hmem
        · obtain ⟨⟨r,hr,-⟩,hd⟩ := ih f (hl f List.mem_cons_self) hmem
          refine ⟨⟨"."++(f.1++r),?_,.inr ⟨_,rfl⟩⟩,hd⟩
          rw [hr, String.append_assoc, String.append_assoc]
        · exact ihl (fun g hg => hl g (List.mem_cons_of_mem f hg)) hmem
    exact hfields kvs (fun f hf => hf) he
  | _ =>
    intro path e he
    rw [leaves_scalar rfl, List.mem_singleton] at he
    rw [he]
    exact ⟨⟨"",(String.append_empty).symm,.inl rfl⟩,rfl⟩

theorem mem_leavesFields {kvs : Obj} {pre : String} {e : String × Json} :
    e ∈ leavesFields pre kvs ↔ ∃ f ∈ kvs, e ∈ leaves (pre++f.1) f.2 := by
  induction kvs with
  | nil => simp [leavesFields]
  | cons f kvs ih => rw [leavesFields, List.mem_append, ih, List.exists_mem_cons_iff]

theorem leaves_eq_nil (v : Json) : ∀ path, leaves path v = [] ↔ hollow v = true := by
  induction v using Json.ind with
  | obj kvs ih =>
    intro path
    rw [leaves, hollow]
    generalize path++"." = pre
    induction kvs with
    | nil => exact ⟨fun _ => rfl,fun _ => rfl⟩
    | cons f kvs ihl =>
      rw [leavesFields, hollowFields, List.append_eq_nil_iff, Bool.and_eq_true,
        ih f List.mem_cons_self, ihl (fun g hg => ih g (List.mem_cons_of_mem f hg))]
  | _ =>
    intro path
    rw [leaves_scalar rfl]
    exact ⟨fun h => absurd h (List.cons_ne_nil _ _),fun h => by cases h⟩

/-! ## Flattening keeps the leaves -/

theorem flattenFields_eq {kvs : Obj} (h : ∀ f ∈ kvs, ∀ (flat : Obj) (path : String) (out : Obj),
      flattenChild flat path f.2 = some out → out = flat++leaves path f.2 ∧
        ((flat.map Prod.fst).Nodup → (out.map Prod.fst).Nodup))
    {flat : Obj} {pre : String} {out : Obj} (hout : flattenFields flat pre kvs = some out) :
    out = flat++leavesFields pre kvs ∧ ((flat.map Prod.fst).Nodup → (out.map Prod.fst).Nodup) := by
  induction kvs generalizing flat with
  | nil =>
    obtain rfl := Option.some.inj hout
    exact ⟨(List.append_nil _).symm,fun h => h⟩
  | cons f kvs ih =>
    rw [flattenFields, Option.bind_eq_some_iff] at hout
    obtain ⟨mid,hmid,hout⟩ := hout
    obtain ⟨rfl,hnodup⟩ := h f List.mem_cons_self _ _ _ hmid
    obtain ⟨rfl,hnodup'⟩ := ih (fun g hg => h g (List.mem_cons_of_mem f hg)) hout
    rw [leavesFields, List.append_assoc] at *
    exact ⟨rfl,fun hn => hnodup' (hnodup hn)⟩

theorem flattenChild_eq (v : Json) : ∀ (flat : Obj) (path : String) (out : Obj),
    flattenChild flat path v = some out → out = flat++leaves path v ∧
      ((flat.map Prod.fst).Nodup → (out.map Prod.fst).Nodup) := by
  have hscalar : ∀ v : Json, v.isDict = false → ∀ (flat : Obj) (path : String) (out : Obj),
      flattenChild flat path v = some out → out = flat++leaves path v ∧
        ((flat.map Prod.fst).Nodup → (out.map Prod.fst).Nodup) := by
    intro v hv flat path out h
    have hif : (if path ∈ flat.map Prod.fst then none else some (flat++[(path,v)])) = some out := by
      cases v with
      | obj kvs => cases hv
      | _ => simpa only [flattenChild] using h
    split_ifs at hif with hmem
    obtain rfl := Option.some.inj hif
    rw [leaves_scalar hv]
    refine ⟨rfl,fun hn => ?_⟩
    rw [List.map_append, List.nodup_append]
    refine ⟨hn,List.nodup_singleton _,?_⟩
    rintro p hp q hq rfl
    have hpath : p = path := by simpa using hq
    exact hmem (hpath ▸ hp)
  induction v using Json.ind with
  | obj kvs ih =>
    intro flat path out h
    rw [flattenChild, Option.bind_eq_some_iff] at h
    obtain ⟨nested,hnested,h⟩ := h
    obtain ⟨hleaves,hnodup⟩ := flattenFields_eq ih hnested
    split_ifs at h with hany
    obtain rfl := Option.some.inj h
    rw [List.nil_append] at hleaves
    rw [leaves, ← hleaves]
    refine ⟨rfl,fun hn => ?_⟩
    rw [List.map_append, List.nodup_append]
    refine ⟨hn,hnodup List.nodup_nil,?_⟩
    rintro p hp q hq rfl
    obtain ⟨e,he,rfl⟩ := List.mem_map.mp hq
    exact hany (List.any_eq_true.mpr ⟨e,he,decide_eq_true hp⟩)
  | _ => exact hscalar _ rfl

/-! ## Keys and texts of the leaves -/

theorem mem_keysOfFields {kvs : Obj} {k : String} :
    k ∈ keysOfFields kvs ↔ ∃ f ∈ kvs, k = f.1 ∨ k ∈ keysOf f.2 := by
  induction kvs with
  | nil => simp [keysOfFields]
  | cons f kvs ih =>
    rw [keysOfFields, List.mem_cons, List.mem_append, ih, List.exists_mem_cons_iff, or_assoc]

theorem mem_stringsOfFields {kvs : Obj} {s : String} :
    s ∈ stringsOfFields kvs ↔ ∃ f ∈ kvs, s ∈ stringsOf f.2 := by
  induction kvs with
  | nil => simp [stringsOfFields]
  | cons f kvs ih => rw [stringsOfFields, List.mem_append, ih, List.exists_mem_cons_iff]

theorem mem_hollowKeysFields {kvs : Obj} {k : String} : k ∈ hollowKeysFields kvs ↔
    ∃ f ∈ kvs, k ∈ if hollow f.2 then f.1 :: keysOf f.2 else hollowKeys f.2 := by
  induction kvs with
  | nil => simp [hollowKeysFields]
  | cons f kvs ih => rw [hollowKeysFields, List.mem_append, ih, List.exists_mem_cons_iff]

/-- The texts of a value are those of its leaves. -/
theorem mem_stringsOf (v : Json) : ∀ (path : String) {s : String},
    s ∈ stringsOf v ↔ ∃ e ∈ leaves path v, s ∈ stringsOf e.2 := by
  induction v using Json.ind with
  | obj kvs ih =>
    intro path s
    rw [stringsOf, leaves, mem_stringsOfFields]
    constructor
    · rintro ⟨f,hf,hs⟩
      obtain ⟨e,he,hse⟩ := (ih f hf (path++"."++f.1)).mp hs
      exact ⟨e,mem_leavesFields.mpr ⟨f,hf,he⟩,hse⟩
    · rintro ⟨e,he,hs⟩
      obtain ⟨f,hf,he⟩ := mem_leavesFields.mp he
      exact ⟨f,hf,(ih f hf _).mpr ⟨e,he,hs⟩⟩
  | _ =>
    intro path s
    rw [leaves_scalar rfl]
    simp

/-- A key on the path of a leaf, or in it. -/
def OnPath (k : String) (e : String × Json) : Prop :=
  k ∈ keysOf e.2 ∨ ∃ a r, e.1 = a++k++r ∧ Above a ∧ Below r

theorem keyFields_cases {kvs : Obj} (h : ∀ f ∈ kvs, ∀ path k, k ∈ keysOf f.2 →
      k ∈ hollowKeys f.2 ∨ ∃ e ∈ leaves path f.2, OnPath k e)
    {pre k : String} (hpre : Above pre) (hk : k ∈ keysOfFields kvs) :
    k ∈ hollowKeysFields kvs ∨ ∃ e ∈ leavesFields pre kvs, OnPath k e := by
  obtain ⟨f,hf,hk⟩ := mem_keysOfFields.mp hk
  by_cases hh : hollow f.2 = true
  · refine .inl (mem_hollowKeysFields.mpr ⟨f,hf,?_⟩)
    rw [if_pos hh]
    exact List.mem_cons.mpr hk
  · rcases hk with rfl | hk
    · have hne : leaves (pre++f.1) f.2 ≠ [] := fun hl => hh ((leaves_eq_nil f.2 _).mp hl)
      obtain ⟨e,he⟩ := List.exists_mem_of_ne_nil _ hne
      obtain ⟨⟨r,hr,hb⟩,-⟩ := mem_leaves f.2 he
      exact .inr ⟨e,mem_leavesFields.mpr ⟨f,hf,he⟩,.inr ⟨pre,r,hr,hpre,hb⟩⟩
    · rcases h f hf (pre++f.1) k hk with hk | ⟨e,he,hon⟩
      · refine .inl (mem_hollowKeysFields.mpr ⟨f,hf,?_⟩)
        rwa [if_neg hh]
      · exact .inr ⟨e,mem_leavesFields.mpr ⟨f,hf,he⟩,hon⟩

/-- Each key of a value is on the path of a leaf, or has no leaf below it. -/
theorem key_cases (v : Json) : ∀ path k, k ∈ keysOf v →
    k ∈ hollowKeys v ∨ ∃ e ∈ leaves path v, OnPath k e := by
  induction v using Json.ind with
  | obj kvs ih =>
    intro path k hk
    rw [hollowKeys, leaves]
    exact keyFields_cases ih (.inr ⟨path,rfl⟩) hk
  | _ =>
    intro path k hk
    rw [leaves_scalar rfl]
    exact .inr ⟨_,List.mem_singleton.mpr rfl,.inl hk⟩

theorem hollowKeys_sub (v : Json) : ∀ k ∈ hollowKeys v, k ∈ keysOf v := by
  induction v using Json.ind with
  | obj kvs ih =>
    intro k hk
    obtain ⟨f,hf,hk⟩ := mem_hollowKeysFields.mp hk
    refine mem_keysOfFields.mpr ⟨f,hf,?_⟩
    split_ifs at hk
    · exact List.mem_cons.mp hk
    · exact .inr (ih f hf k hk)
  | _ =>
    intro k hk
    simp [hollowKeys] at hk

/-! ## Paths of the envelope -/

theorem mem_components {a k r : String} (ha : Above a) (hr : Below r) (hk : '.' ∉ k.toList) :
    k ∈ components (a++k++r) := by
  have hself : k.toList.splitOn '.' = [k.toList] := List.splitOn_eq_singleton hk
  have hright : k.toList ∈ (k.toList++r.toList).splitOn '.' := by
    rcases hr with rfl | ⟨b,rfl⟩
    · rw [String.toList_empty, List.append_nil, hself]
      exact List.mem_singleton.mpr rfl
    · rw [String.toList_append]
      show k.toList ∈ (k.toList ++ '.' :: b.toList).splitOn '.'
      rw [List.splitOn_append_cons_self, hself]
      exact List.mem_append_left _ (List.mem_singleton.mpr rfl)
  refine List.mem_map.mpr ⟨k.toList,?_,String.ofList_toList⟩
  rw [String.toList_append, String.toList_append, List.append_assoc]
  rcases ha with rfl | ⟨b,rfl⟩
  · exact hright
  · rw [String.toList_append]
    show k.toList ∈ ((b.toList++['.'])++(k.toList++r.toList)).splitOn '.'
    rw [List.append_assoc, List.singleton_append, List.splitOn_append_cons_self]
    exact List.mem_append_right _ hright

theorem one_dot : ∀ path ∈ ENVELOPE_FIELDS, path.toList.count '.' ≤ 1 := by decide +kernel

/-- A key on a path of the envelope is that path or a component of it. -/
theorem listed_of_onPath {a k r : String} (hpath : a++k++r ∈ ENVELOPE_FIELDS) (ha : Above a)
    (hr : Below r) : k ∈ ENVELOPE_FIELDS ∨ ∃ path ∈ ENVELOPE_FIELDS, k ∈ components path := by
  by_cases hk : '.' ∈ k.toList
  · left
    have hcount := one_dot _ hpath
    rw [String.toList_append, String.toList_append, List.count_append, List.count_append] at hcount
    have hpos := List.count_pos_iff.mpr hk
    have ha0 : a = "" := by
      rcases ha with rfl | ⟨b,rfl⟩
      · rfl
      · rw [String.toList_append, List.count_append] at hcount
        have hdot : ".".toList.count '.' = 1 := rfl
        omega
    have hr0 : r = "" := by
      rcases hr with rfl | ⟨b,rfl⟩
      · rfl
      · rw [String.toList_append, List.count_append] at hcount
        have hdot : ".".toList.count '.' = 1 := rfl
        omega
    rwa [ha0, hr0, String.empty_append, String.append_empty] at hpath
  · exact .inr ⟨_,hpath,mem_components ha hr hk⟩

/-! ## References -/

theorem of_mem_manyRests {p : Char → Bool} {t r : List Char} (h : r ∈ Pattern.manyRests p t) :
    ∃ w, t = w++r ∧ ∀ c ∈ w, p c = true := by
  induction t generalizing r with
  | nil => exact ⟨[],(List.mem_singleton.mp h).symm,by simp⟩
  | cons c t ih =>
    rw [Pattern.manyRests] at h
    split_ifs at h with hc
    · rcases List.mem_append.mp h with h | h
      · obtain ⟨w,rfl,hw⟩ := ih h
        exact ⟨c :: w,rfl,List.forall_mem_cons.mpr ⟨hc,hw⟩⟩
      · exact ⟨[],(List.mem_singleton.mp h).symm,by simp⟩
    · exact ⟨[],(List.mem_singleton.mp h).symm,by simp⟩

/-- A match of the reference pattern: reference characters, and perhaps a last line feed. -/
theorem of_refMatches {s : String} (h : refMatches s = true) :
    ∃ w, w ≠ [] ∧ (∀ c ∈ w, refChar c = true) ∧ (s.toList = w ∨ s.toList = w++['\n']) := by
  obtain ⟨rest,hrest,hend⟩ := List.any_eq_true.mp h
  obtain ⟨t,ht,hrest⟩ := List.mem_flatMap.mp hrest
  cases hs : s.toList with
  | nil =>
    rw [hs] at ht
    cases ht
  | cons c l =>
    rw [hs, Pattern.rests] at ht
    split_ifs at ht with hc
    · obtain rfl := List.mem_singleton.mp ht
      obtain ⟨w,hw,hall⟩ := of_mem_manyRests hrest
      refine ⟨c :: w,List.cons_ne_nil c w,List.forall_mem_cons.mpr ⟨hc,hall⟩,?_⟩
      rw [Bool.or_eq_true, decide_eq_true_iff, decide_eq_true_iff] at hend
      rcases hend with rfl | rfl
      · exact .inl (by rw [hw, List.append_nil])
      · exact .inr (by rw [hw, List.cons_append])
    · cases ht

/-- A valid reference is one, unless it ends in a line feed. -/
theorem validRef_cases {v : Json} (h : validRef v = true) :
    ∃ s, v = .str s ∧ (IsRef s ∨ s.toList.getLast? = some '\n') := by
  cases v with
  | str s =>
    rw [validRef, Bool.and_eq_true, decide_eq_true_iff] at h
    obtain ⟨w,hne,hall,hs⟩ := of_refMatches h.2
    refine ⟨s,rfl,?_⟩
    rcases hs with hs | hs
    · refine .inl ⟨?_,h.1,hs ▸ hall⟩
      rw [← String.length_toList, hs]
      exact List.length_pos_iff.mpr hne
    · exact .inr (by rw [hs, List.getLast?_concat])
  | _ => cases h

theorem not_listed {s : String} (h : s.toList.getLast? = some '\n') : ¬ListedString s := by
  rintro (hc | ht | hr)
  · have hall : ∀ t ∈ CONSTANTS, t.toList.getLast? ≠ some '\n' := by decide +kernel
    exact hall s hc h
  · simp [validTs, h] at ht
  · have hmem := hr.2.2 '\n' (List.mem_of_getLast? h)
    revert hmem
    decide

/-! ## The tests of the envelope -/

/-- The tests are carried through: none of them raises. -/
def Returns (tests : List (Except PyError Bool × String)) : Prop :=
  ∃ fault, firstFault tests = .ok fault

theorem returns_nil : Returns [] := ⟨none,rfl⟩

theorem returns_ok {b : Bool} {reason : String} {tests : List (Except PyError Bool × String)} :
    Returns ((.ok b,reason) :: tests) ↔ (b = true → Returns tests) := by
  cases b with
  | true => exact ⟨fun h _ => h,fun h => h rfl⟩
  | false => exact ⟨fun _ h => absurd h Bool.false_ne_true,fun _ => ⟨_,rfl⟩⟩

theorem returns_inSet {v : Json} {names : List String} {reason : String}
    {tests : List (Except PyError Bool × String)} : Returns ((v.inSet names,reason) :: tests) ↔
      v.hashable = true ∧ (v.inSet names = .ok true → Returns tests) := by
  have hbool : ∀ b : Bool, v.hashable = true → v.inSet names = .ok b →
      (Returns ((v.inSet names,reason) :: tests) ↔
        v.hashable = true ∧ (v.inSet names = .ok true → Returns tests)) := by
    intro b hv hb
    rw [hb, returns_ok, and_iff_right hv, Except.ok.injEq]
  cases v with
  | str s => exact hbool (s ∈ names) rfl rfl
  | arr xs => exact ⟨fun ⟨_,h⟩ => (by cases h),fun h => absurd h.1 Bool.false_ne_true⟩
  | obj kvs => exact ⟨fun ⟨_,h⟩ => (by cases h),fun h => absurd h.1 Bool.false_ne_true⟩
  | _ => exact hbool false rfl rfl

theorem firstFault_none {tests : List (Except PyError Bool × String)} :
    firstFault tests = .ok none ↔ ∀ t ∈ tests, t.1 = .ok true := by
  induction tests with
  | nil => simp [firstFault]
  | cons t tests ih =>
    obtain ⟨test,reason⟩ := t
    rw [List.forall_mem_cons]
    match test with
    | .ok true =>
      rw [firstFault, ih]
      exact ⟨fun h => ⟨rfl,h⟩,fun h => h.2⟩
    | .ok false => simp [firstFault]
    | .error e => simp [firstFault]

theorem inSet_true {v : Json} {names : List String} (h : v.inSet names = .ok true) :
    ∃ s ∈ names, v = .str s := by
  cases v with
  | str s => exact ⟨s,by simpa [Json.inSet] using h,rfl⟩
  | _ => cases h

theorem isStr_true {v : Json} {s : String} (h : v.isStr s = true) : v = .str s := by
  cases v with
  | str t => exact congrArg Json.str (of_decide_eq_true h)
  | _ => cases h

/-- Where the names of an envelope are looked up, no list stands in their place. -/
def Hashed (flat : Obj) : Prop :=
  (validRef (at' flat "event_id") = true → (at' flat "event_type").hashable = true) ∧
  (validRef (at' flat "event_id") = true → (at' flat "event_type").inSet EVENT_TYPES = .ok true →
    validTs (at' flat "occurred_at") = true →
      (at' flat "source.system").isStr SOURCE_SYSTEM = true →
        validRef (at' flat "source.instance_ref") = true →
          (at' flat "event_origin").hashable = true)

theorem returns_iff (flat : Obj) : Returns (envelopeTests flat) ↔ Hashed flat := by
  simp only [envelopeTests, returns_ok, returns_inSet, iff_true_intro returns_nil, implies_true,
    and_true, Hashed]
  tauto

/-! ## The envelope -/

theorem put_fresh {o : Obj} {k : String} (v : Json) (h : k ∉ o.map Prod.fst) :
    o.put k v = o++[(k,v)] := by
  induction o with
  | nil => rfl
  | cons e o ih =>
    rw [List.map_cons, List.mem_cons, not_or] at h
    rw [Obj.put, if_neg (Ne.symm h.1), ih h.2, List.cons_append]

/-- The event without its payload. -/
def rest (event : Obj) : Obj := event.filter (fun e => e.1 ≠ "payload")

theorem top_leaf {kvs : Obj} {p : String} {v : Json} (hp : '.' ∉ p.toList)
    (h : (p,v) ∈ leavesFields "" kvs) : (p,v) ∈ kvs := by
  obtain ⟨f,hf,hmem⟩ := mem_leavesFields.mp h
  rw [String.empty_append] at hmem
  obtain ⟨⟨r,hr,hbelow⟩,hd⟩ := mem_leaves f.2 hmem
  dsimp only at hr
  rcases hbelow with rfl | ⟨b,rfl⟩
  · rw [String.append_empty] at hr
    have hscalar : f.2.isDict = false := by
      cases hv : f.2 with
      | obj l =>
        rw [hv, leaves] at hmem
        obtain ⟨g,-,hg⟩ := mem_leavesFields.mp hmem
        obtain ⟨⟨r,hr',-⟩,-⟩ := mem_leaves g.2 hg
        dsimp only at hr'
        exact absurd (by rw [hr']; simp) hp
      | _ => rfl
    rw [leaves_scalar hscalar, List.mem_singleton] at hmem
    exact hmem ▸ hf
  · exact absurd (by rw [hr]; simp) hp

/-- What a complete envelope consists of: the leaves of the event, and its payload. -/
structure Envelope (event flat : Obj) : Prop where
  eq : flat = leavesFields "" (rest event)++[("payload",(event.field "payload").getD .null)]
  nodup : (flat.map Prod.fst).Nodup
  known : ∀ e ∈ flat, e.1 ∈ ENVELOPE_FIELDS
  complete : ∀ path ∈ ENVELOPE_FIELDS, ∃ v, (path,v) ∈ flat

theorem envelope_of {event flat : Obj} (h : envelopeOf event = .ok flat) : Envelope event flat := by
  rw [envelopeOf] at h
  split_ifs at h
  split at h
  · cases h
  · rename_i out hout
    dsimp only at h
    split_ifs at h with hknown hcomplete
    obtain rfl := Except.ok.inj h
    obtain ⟨hleaves,hnodup⟩ := flattenFields_eq (fun f _ => flattenChild_eq f.2) hout
    rw [List.nil_append] at hleaves
    have hfresh : "payload" ∉ out.map Prod.fst := by
      intro hmem
      obtain ⟨⟨path,v⟩,he,hpath⟩ := List.mem_map.mp hmem
      dsimp only at hpath
      rw [hpath, hleaves] at he
      have hrest := top_leaf (by decide) he
      exact absurd (List.mem_filter.mp hrest).2 (by simp)
    have hput := put_fresh ((event.field "payload").getD .null) hfresh
    refine ⟨?_,?_,?_,?_⟩
    · rw [hput, hleaves]
      rfl
    · rw [hput, List.map_append]
      exact List.nodup_append.mpr ⟨hnodup List.nodup_nil,List.nodup_singleton _,
        fun p hp q hq he => hfresh (by simpa [he, List.mem_singleton.mp hq] using hp)⟩
    · intro e he
      have hall := List.all_eq_true.mp (Bool.not_eq_false _ ▸ Bool.not_eq_true' _ ▸ hknown)
      exact of_decide_eq_true (hall e he)
    · intro path hp
      have hall := List.all_eq_true.mp (Bool.not_eq_false _ ▸ Bool.not_eq_true' _ ▸ hcomplete)
      obtain ⟨v,hv⟩ := Option.isSome_iff_exists.mp (hall path hp)
      exact ⟨v,mem_of_field hv⟩

variable {event flat payload : Obj} {schema : Schema}

theorem Envelope.value_of (h : Envelope event flat) {path : String} {v : Json}
    (hmem : (path,v) ∈ flat) : at' flat path = v := by
  rw [at', field_of_mem h.nodup hmem, Option.getD_some]

theorem Envelope.mem (h : Envelope event flat) {path : String} (hp : path ∈ ENVELOPE_FIELDS) :
    (path,at' flat path) ∈ flat := by
  obtain ⟨v,hv⟩ := h.complete path hp
  rwa [h.value_of hv]

/-- A path of the envelope that is no payload is a leaf of the event. -/
theorem Envelope.leaf (h : Envelope event flat) (path : String) (hp : path ∈ ENVELOPE_FIELDS)
    (hne : path ≠ "payload") : (path,at' flat path) ∈ leavesFields "" (rest event) := by
  have hmem := h.mem hp
  rw [h.eq, List.mem_append, List.mem_singleton, Prod.mk.injEq] at hmem
  rcases hmem with hmem | hmem
  · rwa [← h.eq] at hmem
  · exact absurd hmem.1 hne

/-- The type of a complete envelope is read from the event. -/
theorem Envelope.type_eq (h : Envelope event flat) (hn : (event.map Prod.fst).Nodup) :
    event.field "event_type" = some (at' flat "event_type") := by
  have hleaf := h.leaf "event_type" (by decide) (by decide)
  exact field_of_mem hn (List.mem_of_mem_filter (top_leaf (by decide) hleaf))

theorem schemaOf_type (h : Envelope event flat) (hn : (event.map Prod.fst).Nodup)
    (ht : (at' flat "event_type").inSet EVENT_TYPES = .ok true) :
    ∃ schema, schemaOf event = .ok schema ∧ ∃ t, (t,schema) ∈ PAYLOAD_SCHEMA := by
  obtain ⟨t,hmem,hv⟩ := inSet_true ht
  have hall : ∀ t ∈ EVENT_TYPES, ∃ schema, PAYLOAD_SCHEMA.lookup t = some schema ∧
      (t,schema) ∈ PAYLOAD_SCHEMA := by
    intro t ht
    fin_cases ht <;> exact ⟨_,rfl,by simp [PAYLOAD_SCHEMA]⟩
  obtain ⟨schema,hschema,hin⟩ := hall t hmem
  refine ⟨schema,?_,t,hin⟩
  rw [schemaOf, h.type_eq hn, hv]
  dsimp only
  rw [hschema]
  rfl

/-! ## The payload -/

/-- The names that a rule allows. -/
def Rule.names : Rule → List String
  | .oneOf names | .listOf names => names
  | _ => []

theorem schema_names : ∀ e ∈ PAYLOAD_SCHEMA, ∀ f ∈ e.2, ∀ s ∈ f.2.names, s ∈ CONSTANTS := by
  decide

theorem any_isStr {v : Json} {names : List String} (h : names.any v.isStr = true) :
    ∃ s ∈ names, v = .str s := by
  obtain ⟨s,hs,hv⟩ := List.any_eq_true.mp h
  exact ⟨s,hs,isStr_true hv⟩

theorem isIntFrom_true {v : Json} {low : ℤ} (h : v.isIntFrom low = true) : ∃ n, v = .int n := by
  cases v with
  | int n => exact ⟨n,rfl⟩
  | _ => cases h

theorem mem_keysOfItems {xs : List Json} {k : String} :
    k ∈ keysOfItems xs ↔ ∃ x ∈ xs, k ∈ keysOf x := by
  induction xs with
  | nil => simp [keysOfItems]
  | cons x xs ih => rw [keysOfItems, List.mem_append, ih, List.exists_mem_cons_iff]

theorem mem_stringsOfItems {xs : List Json} {s : String} :
    s ∈ stringsOfItems xs ↔ ∃ x ∈ xs, s ∈ stringsOf x := by
  induction xs with
  | nil => simp [stringsOfItems]
  | cons x xs ih => rw [stringsOfItems, List.mem_append, ih, List.exists_mem_cons_iff]

/-- A value without keys, all of whose texts are listed. -/
def Plain (v : Json) : Prop := (∀ k, k ∉ keysOf v) ∧ ∀ s ∈ stringsOf v, ListedString s

theorem plain_str {s : String} (h : ListedString s) : Plain (.str s) :=
  ⟨fun _ hk => absurd hk List.not_mem_nil,fun _ ht => List.mem_singleton.mp ht ▸ h⟩

theorem plain_int (n : ℤ) : Plain (.int n) :=
  ⟨fun _ hk => absurd hk List.not_mem_nil,fun _ hs => absurd hs List.not_mem_nil⟩

theorem plain_arr {xs : List Json} (h : ∀ x ∈ xs, Plain x) : Plain (.arr xs) := by
  constructor
  · intro k hk
    obtain ⟨x,hx,hk⟩ := mem_keysOfItems.mp hk
    exact (h x hx).1 k hk
  · intro s hs
    obtain ⟨x,hx,hs⟩ := mem_stringsOfItems.mp hs
    exact (h x hx).2 s hs

theorem plain_ts {v : Json} (h : validTs v = true) : Plain v := by
  cases v with
  | str s => exact plain_str (.inr (.inl h))
  | _ => cases h

/-- A rule lets only plain values pass. -/
theorem Rule.plain {rule : Rule} {v : Json} (hnames : ∀ s ∈ rule.names, s ∈ CONSTANTS)
    (h : rule.fault v = none) : Plain v := by
  cases rule with
  | oneOf names =>
    rw [Rule.fault, ite_eq_left_iff] at h
    obtain ⟨s,hs,rfl⟩ := any_isStr (by_contra (fun hn => by cases h hn))
    exact plain_str (.inl (hnames s hs))
  | int limit =>
    rw [Rule.fault, ite_eq_left_iff] at h
    have hint := by_contra (fun hn => by cases h hn)
    obtain ⟨n,rfl⟩ := isIntFrom_true ((Bool.and_eq_true _ _).mp hint).1
    exact plain_int n
  | ts =>
    rw [Rule.fault, ite_eq_left_iff] at h
    exact plain_ts (by_contra (fun hn => by cases h hn))
  | listOf names =>
    cases v with
    | arr xs =>
      rw [Rule.fault] at h
      split_ifs at h with hlen hall
      refine plain_arr (fun x hx => ?_)
      obtain ⟨s,hs,rfl⟩ := any_isStr (List.all_eq_true.mp hall x hx)
      exact plain_str (.inl (hnames s hs))
    | _ => cases h

/-- The payload has exactly the fields of its schema, and passes its rules. -/
theorem payloadFault_none (h : payloadFault schema payload = none) :
    (∀ e ∈ payload, e.1 ∈ schema.map Prod.fst) ∧
      ∀ f ∈ schema, f.2.fault (at' payload f.1) = none := by
  rw [payloadFault] at h
  split_ifs at h with hexact
  rw [Bool.not_eq_true', Bool.not_eq_false, Obj.hasExactly, Bool.and_eq_true] at hexact
  exact ⟨fun e he => of_decide_eq_true (List.all_eq_true.mp hexact.2 e he),
    List.findSome?_eq_none_iff.mp h⟩

theorem plain_of_payload {t : String} (hschema : (t,schema) ∈ PAYLOAD_SCHEMA)
    (hn : (payload.map Prod.fst).Nodup) (h : payloadFault schema payload = none) :
    ∀ e ∈ payload, e.1 ∈ schema.map Prod.fst ∧ Plain e.2 := by
  obtain ⟨hkeys,hrules⟩ := payloadFault_none h
  intro e he
  obtain ⟨f,hf,hfe⟩ := List.mem_map.mp (hkeys e he)
  have hvalue : at' payload f.1 = e.2 := by
    rw [at', hfe, field_of_mem hn he, Option.getD_some]
  exact ⟨hkeys e he,Rule.plain (schema_names _ hschema f hf) (hvalue ▸ hrules f hf)⟩

/-! ## What is accepted -/

def REF_PATHS : List String :=
  ["event_id", "source.instance_ref", "session.session_ref", "session.association_ref",
    "stream_epoch", "provenance.correlation_id"]

/-- An event that passes every check. -/
structure Accepted (event flat : Obj) : Prop where
  envelope : envelopeOf event = .ok flat
  tests : ∀ t ∈ envelopeTests flat, t.1 = .ok true
  payload : ∃ payload schema, event.field "payload" = some (.obj payload) ∧
    jsonBytes (.obj payload) ≤ PAYLOAD_MAX_BYTES ∧ schemaOf event = .ok schema ∧
      payloadFault schema payload = none

/-- No mapping of an event hides an unlisted key, and no reference ends in a line feed. -/
structure Unhidden (event flat : Obj) : Prop where
  keys : ∀ k ∈ hollowKeysFields (rest event), ListedKey event k
  refs : ∀ path ∈ REF_PATHS, ∀ s, at' flat path = .str s → s.toList.getLast? ≠ some '\n'

/-- An event on which the validator is closed. -/
def Clean (event : Obj) : Prop :=
  ∀ flat, envelopeOf event = .ok flat → Hashed flat ∧ (Accepted event flat → Unhidden event flat)

/-- What the validator does, by the checks that the event passes. -/
theorem validateMapping_cases (event : Obj) (hn : (event.map Prod.fst).Nodup) :
    (∃ e, validateMapping event = .error e ∧
      ∃ flat, envelopeOf event = .ok flat ∧ ¬Returns (envelopeTests flat)) ∨
    ∃ verdict, validateMapping event = .ok verdict ∧
      (∀ flat, envelopeOf event = .ok flat → Returns (envelopeTests flat)) ∧
        (verdict.ok = true ↔ ∃ flat, Accepted event flat) := by
  rw [validateMapping]
  cases henv : envelopeOf event with
  | error reason =>
    refine .inr ⟨_,rfl,nofun,nofun,?_⟩
    rintro ⟨flat,h⟩
    exact absurd (henv.symm.trans h.envelope) nofun
  | ok flat =>
    have hflat : ∀ flat', envelopeOf event = .ok flat' → flat' = flat := by
      intro flat' h
      rw [henv] at h
      exact (Except.ok.inj h).symm
    dsimp only
    cases hfault : firstFault (envelopeTests flat) with
    | error e =>
      refine .inl ⟨e,rfl,flat,rfl,?_⟩
      rintro ⟨fault,h⟩
      rw [hfault] at h
      cases h
    | ok fault =>
      have hreturns : ∀ flat', Except.ok (ε := String) flat = .ok flat' →
          Returns (envelopeTests flat') := by
        rintro flat' ⟨⟩
        exact ⟨fault,hfault⟩
      cases fault with
      | some reason =>
        refine .inr ⟨_,rfl,hreturns,nofun,?_⟩
        rintro ⟨flat',h⟩
        obtain rfl := hflat flat' h.envelope
        rw [firstFault_none.mpr h.tests] at hfault
        cases hfault
      | none =>
        have htests := firstFault_none.mp hfault
        have hrejected : ∀ reason : String, (¬∃ flat, Accepted event flat) →
            ((verdictOf (some reason)).ok = true ↔ ∃ flat, Accepted event flat) :=
          fun reason h => ⟨nofun,fun ha => absurd ha h⟩
        split
        · rename_i payload hpayload
          split_ifs with hsize
          · refine .inr ⟨_,rfl,hreturns,hrejected _ ?_⟩
            rintro ⟨flat',h⟩
            obtain ⟨p,schema,hp,hle,-⟩ := h.payload
            rw [hpayload] at hp
            cases hp
            exact absurd hle (not_le.mpr hsize)
          · have ht : (at' flat "event_type").inSet EVENT_TYPES = .ok true :=
              htests _ (List.mem_cons_of_mem _ List.mem_cons_self)
            obtain ⟨schema,hschema,-⟩ := schemaOf_type (envelope_of henv) hn ht
            rw [hschema]
            refine .inr ⟨_,rfl,hreturns,?_⟩
            rw [verdictOf, Option.isNone_iff_eq_none]
            constructor
            · exact fun h => ⟨flat,henv,htests,payload,schema,hpayload,not_lt.mp hsize,hschema,h⟩
            · rintro ⟨flat',h⟩
              obtain ⟨p,schema',hp,-,hs,hfault⟩ := h.payload
              rw [hpayload] at hp
              cases hp
              rw [hschema] at hs
              cases hs
              exact hfault
        · rename_i hpayload
          refine .inr ⟨_,rfl,hreturns,hrejected _ ?_⟩
          rintro ⟨flat',h⟩
          obtain ⟨p,schema,hp,-⟩ := h.payload
          exact hpayload p hp

theorem plain_const {v : Json} {s : String} (hs : s ∈ CONSTANTS) (h : v.isStr s = true) : Plain v :=
  isStr_true h ▸ plain_str (.inl hs)

theorem plain_inSet {v : Json} {names : List String} (hnames : ∀ s ∈ names, s ∈ CONSTANTS)
    (h : v.inSet names = .ok true) : Plain v := by
  obtain ⟨s,hs,rfl⟩ := inSet_true h
  exact plain_str (.inl (hnames s hs))

theorem plain_ref {v : Json} (h : validRef v = true)
    (hend : ∀ s, v = .str s → s.toList.getLast? ≠ some '\n') : Plain v := by
  obtain ⟨s,rfl,hr | hr⟩ := validRef_cases h
  · exact plain_str (.inr (.inr hr))
  · exact absurd hr (hend s rfl)

/-- The version of an event with an envelope. -/
theorem version_of (h : envelopeOf event = .ok flat) :
    ∃ v, event.field "schema_version" = some v ∧ v.isStr WIRE_SCHEMA = true := by
  rw [envelopeOf] at h
  split_ifs at h with hversion
  · rw [Bool.not_eq_true', Bool.not_eq_false, Option.any_eq_true] at hversion
    exact hversion

/-- The leaves of an accepted event whose references end in no line feed. -/
theorem Accepted.leaf_plain (h : Accepted event flat) (hn : (event.map Prod.fst).Nodup)
    (hrefs : ∀ path ∈ REF_PATHS, ∀ s, at' flat path = .str s → s.toList.getLast? ≠ some '\n')
    {e : String × Json} (he : e ∈ leavesFields "" (rest event)) :
    e.1 ∈ ENVELOPE_FIELDS ∧ Plain e.2 := by
  have henv := envelope_of h.envelope
  have hmem : e ∈ flat := henv.eq ▸ List.mem_append_left _ he
  have hpath := henv.known e hmem
  refine ⟨hpath,?_⟩
  have hvalue : at' flat e.1 = e.2 := henv.value_of hmem
  have htests := h.tests
  simp only [envelopeTests, List.forall_mem_cons, Except.ok.injEq] at htests
  obtain ⟨h1,h2,h3,h4,h5,h6,h7,h8,h9,h10,h11,h12,h13,-⟩ := htests
  rw [← hvalue]
  simp only [ENVELOPE_FIELDS, List.mem_cons, List.not_mem_nil, or_false] at hpath
  rcases hpath with hp | hp | hp | hp | hp | hp | hp | hp | hp | hp | hp | hp | hp | hp | hp <;>
    rw [hp]
  · have htop := field_of_mem hn (List.mem_of_mem_filter (top_leaf (by decide)
      (henv.leaf "schema_version" (by decide) (by decide))))
    obtain ⟨v,hv,hversion⟩ := version_of h.envelope
    rw [Option.some.inj (htop.symm.trans hv)]
    exact plain_const (by decide) hversion
  · exact plain_ref h1 (hrefs _ (by decide))
  · exact plain_inSet (by decide) h2
  · exact plain_ts h3
  · exact plain_const (by decide) h4
  · exact plain_ref h5 (hrefs _ (by decide))
  · exact plain_inSet (by decide) h6
  · exact plain_ref h7 (hrefs _ (by decide))
  · exact plain_ref h8 (hrefs _ (by decide))
  · exact plain_const (by decide) h9
  · exact plain_ref h10 (hrefs _ (by decide))
  · obtain ⟨n,hint⟩ := isIntFrom_true h11
    rw [hint]
    exact plain_int n
  · obtain ⟨path,v⟩ := e
    obtain rfl : path = "payload" := hp
    have hrest := (List.mem_filter.mp (top_leaf (by decide) he)).2
    exact absurd hrest (by simp)
  · exact plain_const (by decide) h12
  · exact plain_ref h13 (hrefs _ (by decide))

/-- The values of an accepted event, its payload among them. -/
theorem Accepted.payload_plain (h : Accepted event flat) (hw : wellFormed (.obj event) = true)
    {v : Json} (hv : ("payload",v) ∈ event) :
    (∀ k ∈ keysOf v, ListedKey event k) ∧ ∀ s ∈ stringsOf v, ListedString s := by
  obtain ⟨hn,hfields⟩ := wellFormed_obj.mp hw
  obtain ⟨payload,schema,hp,-,hschema,hfault⟩ := h.payload
  obtain rfl := Option.some.inj ((field_of_mem hn hv).symm.trans hp)
  have htype : (at' flat "event_type").inSet EVENT_TYPES = .ok true :=
    h.tests _ (List.mem_cons_of_mem _ List.mem_cons_self)
  obtain ⟨schema',hschema',t,ht⟩ := schemaOf_type (envelope_of h.envelope) hn htype
  obtain rfl := Except.ok.inj (hschema.symm.trans hschema')
  have hplain := plain_of_payload ht (wellFormed_obj.mp (hfields _ hv)).1 hfault
  constructor
  · intro k hk
    obtain ⟨e,he,hk⟩ := mem_keysOfFields.mp hk
    obtain ⟨hkey,hkeys,-⟩ := hplain e he
    rcases hk with rfl | hk
    · exact .inr (.inr ⟨schema,hschema,hkey⟩)
    · exact absurd hk (hkeys k)
  · intro s hs
    obtain ⟨e,he,hs⟩ := mem_stringsOfFields.mp hs
    exact (hplain e he).2.2 s hs

theorem mem_rest {f : String × Json} (hf : f ∈ event) : f.1 = "payload" ∨ f ∈ rest event := by
  by_cases hp : f.1 = "payload"
  · exact .inl hp
  · exact .inr (List.mem_filter.mpr ⟨hf,decide_eq_true hp⟩)

/-- An accepted event that hides nothing has listed keys and texts only. -/
theorem Accepted.closed (h : Accepted event flat) (hu : Unhidden event flat)
    (hw : wellFormed (.obj event) = true) :
    (∀ k ∈ keysOf (.obj event), ListedKey event k) ∧
      ∀ s ∈ stringsOf (.obj event), ListedString s := by
  have hn := (wellFormed_obj.mp hw).1
  have hleaf : ∀ {e}, e ∈ leavesFields "" (rest event) → _ := h.leaf_plain hn hu.refs
  constructor
  · intro k hk
    obtain ⟨f,hf,hk⟩ := mem_keysOfFields.mp hk
    rcases mem_rest hf with hp | hrest
    · rcases hk with rfl | hk
      · exact .inl (hp ▸ by decide)
      · exact (h.payload_plain hw (hp ▸ hf)).1 k hk
    · rcases keyFields_cases (fun f _ => key_cases f.2) (.inl rfl)
        (mem_keysOfFields.mpr ⟨f,hrest,hk⟩) with hhollow | ⟨e,he,hin | ⟨a,r,hpath,ha,hr⟩⟩
      · exact hu.keys k hhollow
      · exact absurd hin ((hleaf he).2.1 k)
      · rcases listed_of_onPath (hpath ▸ (hleaf he).1) ha hr with hl | hl
        · exact .inl hl
        · exact .inr (.inl hl)
  · intro s hs
    obtain ⟨f,hf,hs⟩ := mem_stringsOfFields.mp hs
    rcases mem_rest hf with hp | hrest
    · exact (h.payload_plain hw (hp ▸ hf)).2 s hs
    · obtain ⟨e,he,hs⟩ := (mem_stringsOf f.2 (""++f.1)).mp hs
      exact (hleaf (mem_leavesFields.mpr ⟨f,hrest,he⟩)).2.2 s hs

/-- An accepted event with listed keys and texts only hides nothing. -/
theorem Accepted.unhidden (h : Accepted event flat)
    (hkeys : ∀ k ∈ keysOf (.obj event), ListedKey event k)
    (hstrings : ∀ s ∈ stringsOf (.obj event), ListedString s) : Unhidden event flat := by
  constructor
  · intro k hk
    have hin := hollowKeys_sub (.obj (rest event)) k hk
    obtain ⟨f,hf,hkf⟩ := mem_keysOfFields.mp hin
    exact hkeys k (mem_keysOfFields.mpr ⟨f,List.mem_of_mem_filter hf,hkf⟩)
  · intro path hpath s hs hend
    have hall : ∀ path ∈ REF_PATHS, path ∈ ENVELOPE_FIELDS ∧ path ≠ "payload" := by decide
    obtain ⟨hin,hne⟩ := hall path hpath
    obtain ⟨f,hf,hmem⟩ := mem_leavesFields.mp ((envelope_of h.envelope).leaf path hin hne)
    refine not_listed hend (hstrings s (mem_stringsOfFields.mpr ⟨f,List.mem_of_mem_filter hf,?_⟩))
    exact (mem_stringsOf f.2 _).mpr ⟨_,hmem,by rw [hs]; exact List.mem_singleton.mpr rfl⟩

/-- A heartbeat, with further keys in its envelope. -/
def heartbeat (extra : Obj) : Obj :=
  [("schema_version",.str WIRE_SCHEMA), ("event_id",.str "e1"),
   ("event_type",.str "session.heartbeat"), ("occurred_at",.str "2026-07-01T10:00:00Z"),
   ("source",.obj [("system",.str SOURCE_SYSTEM), ("instance_ref",.str "i1")]),
   ("event_origin",.str "gateway_native"),
   ("session",.obj [("session_ref",.str "s1"), ("association_ref",.str "a1"),
     ("ownership_mode",.str OWNERSHIP_MODE)]),
   ("stream_epoch",.str "e"), ("sequence",.int 3),
   ("provenance",.obj [("transport",.str TRANSPORT), ("correlation_id",.str "c1")]),
   ("payload",.obj [("heartbeat_sequence",.int 1), ("observed_at",.str "2026-07-01T10:00:00Z"),
     ("ttl_ms",.int 1000)])]++extra

end PdFleet.Redaction
