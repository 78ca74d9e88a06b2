import PdFleet.GatewayContracts

/-!
# Freezing and normal forms

What `_freeze` checks of a value: how deep it is, how wide its mappings and lists are, and
its keys and texts. Serializing is taking the normal form of every key and text. A value in
normal form is the only serialization of itself and of every value of its text.
-/

set_option autoImplicit false

namespace PdFleet.Bridge

variable {U : Nfc}

/-! ## Values and what they contain -/

mutual

/-- `P` holds of the value and of every value in it. -/
def Everywhere (P : Json → Prop) : Json → Prop
  | .arr xs => P (.arr xs) ∧ EverywhereItems P xs
  | .obj kvs => P (.obj kvs) ∧ EverywhereFields P kvs
  | v => P v

def EverywhereItems (P : Json → Prop) : List Json → Prop
  | [] => True
  | x :: xs => Everywhere P x ∧ EverywhereItems P xs

def EverywhereFields (P : Json → Prop) : List (String × Json) → Prop
  | [] => True
  | (_,v) :: kvs => Everywhere P v ∧ EverywhereFields P kvs

end

mutual

/-- The number of levels below a value. -/
def height : Json → ℕ
  | .arr xs => heightItems xs
  | .obj kvs => heightFields kvs
  | _ => 0

def heightItems : List Json → ℕ
  | [] => 0
  | x :: xs => max (height x+1) (heightItems xs)

def heightFields : List (String × Json) → ℕ
  | [] => 0
  | (_,v) :: kvs => max (height v+1) (heightFields kvs)

end

mutual

/-- The value with every key and text in normal form, and without a signed zero. -/
def normal (U : Nfc) : Json → Json
  | .str s => .str (U.normalize s)
  | .float r => .float (if r = "-0.0" then "0.0" else r)
  | .arr xs => .arr (normalItems U xs)
  | .obj kvs => .obj (normalFields U kvs)
  | v => v

def normalItems (U : Nfc) : List Json → List Json
  | [] => []
  | x :: xs => normal U x :: normalItems U xs

def normalFields (U : Nfc) : List (String × Json) → List (String × Json)
  | [] => []
  | (k,v) :: kvs => (U.normalize k,normal U v) :: normalFields U kvs

end

@[simp] theorem everywhere_arr {P : Json → Prop} {xs : List Json} :
    Everywhere P (.arr xs) ↔ P (.arr xs) ∧ ∀ x ∈ xs, Everywhere P x := by
  have hitems : EverywhereItems P xs ↔ ∀ x ∈ xs, Everywhere P x := by
    induction xs with
    | nil => simp [EverywhereItems]
    | cons x xs ih => simp [EverywhereItems, ih]
  rw [Everywhere, hitems]

@[simp] theorem everywhere_obj {P : Json → Prop} {kvs : Obj} :
    Everywhere P (.obj kvs) ↔ P (.obj kvs) ∧ ∀ e ∈ kvs, Everywhere P e.2 := by
  have hfields : EverywhereFields P kvs ↔ ∀ e ∈ kvs, Everywhere P e.2 := by
    induction kvs with
    | nil => simp [EverywhereFields]
    | cons e kvs ih => simp [EverywhereFields, ih]
  rw [Everywhere, hfields]

theorem height_arr_le {xs : List Json} {n : ℕ} :
    height (.arr xs) ≤ n ↔ ∀ x ∈ xs, height x+1 ≤ n := by
  rw [height]
  induction xs with
  | nil => simp [heightItems]
  | cons x xs ih => simp [heightItems, ih]

theorem height_obj_le {kvs : Obj} {n : ℕ} :
    height (.obj kvs) ≤ n ↔ ∀ e ∈ kvs, height e.2+1 ≤ n := by
  rw [height]
  induction kvs with
  | nil => simp [heightFields]
  | cons e kvs ih => simp [heightFields, ih]

@[simp] theorem normal_arr (xs : List Json) : normal U (.arr xs) = .arr (xs.map (normal U)) := by
  rw [normal]
  congr 1
  induction xs with
  | nil => rfl
  | cons x xs ih => rw [normalItems, ih, List.map_cons]

/-- The normal form of an entry. -/
def normalEntry (U : Nfc) (e : String × Json) : String × Json := (U.normalize e.1,normal U e.2)

@[simp] theorem normal_obj (kvs : Obj) : normal U (.obj kvs) = .obj (kvs.map (normalEntry U)) := by
  rw [normal]
  congr 1
  induction kvs with
  | nil => rfl
  | cons e kvs ih => rw [normalFields, ih, List.map_cons, normalEntry]

/-! ## What freezing checks -/

def narrowAt (limit : ℕ) : Json → Prop
  | .obj kvs => kvs.length ≤ limit
  | .arr xs => xs.length ≤ MAX_LIST_ITEMS
  | _ => True

def cleanAt : Json → Prop
  | .obj kvs => ∀ e ∈ kvs, keyText e.1 = .ok ()
  | .str s => valueText s = .ok ()
  | .float r => isFloatText r = true
  | _ => True

def Narrow (provenance : Bool) : Json → Prop :=
  Everywhere (narrowAt (if provenance then MAX_PROVENANCE_REFS else MAX_LIST_ITEMS))

/-- Every key and text of a value may stand in a contract. -/
def Clean : Json → Prop := Everywhere cleanAt

theorem ok_of_seq {ε : Type} {x y : Except ε Unit} :
    (x >>= fun _ => y) = .ok () ↔ x = .ok () ∧ y = .ok () := by
  cases x with
  | error e => simp [bind, Except.bind]
  | ok u => simp [bind, Except.bind]

theorem freezeItems_iff {p : Bool} {d : ℕ} {xs : List Json} :
    freezeItems p d xs = .ok () ↔ ∀ x ∈ xs, freeze p (d+1) x = .ok () := by
  induction xs with
  | nil => simp [freezeItems]
  | cons x xs ih => simp [freezeItems, ok_of_seq, ih]

theorem freezeFields_iff {p : Bool} {d : ℕ} {kvs : Obj} : freezeFields p d kvs = .ok () ↔
    ∀ e ∈ kvs, keyText e.1 = .ok () ∧ freeze p (d+1) e.2 = .ok () := by
  induction kvs with
  | nil => simp [freezeFields]
  | cons e kvs ih => simp [freezeFields, ok_of_seq, ih, and_assoc]

theorem freeze_iff {p : Bool} {d : ℕ} {v : Json} : freeze p d v = .ok () ↔
    d+height v ≤ MAX_NESTING_DEPTH ∧ Narrow p v ∧ Clean v := by
  induction v using Json.ind generalizing d with
  | obj kvs ih =>
    rw [freeze]
    by_cases hd : MAX_NESTING_DEPTH < d
    · rw [if_pos hd]
      simp only [failWith, reduceCtorEq, false_iff]
      omega
    rw [if_neg hd]
    by_cases hl : (if p then MAX_PROVENANCE_REFS else MAX_LIST_ITEMS) < kvs.length
    · rw [if_pos hl]
      simp only [fail, reduceCtorEq, false_iff, Narrow, everywhere_obj, narrowAt]
      omega
    rw [if_neg hl, freezeFields_iff]
    have hdepth : d+height (.obj kvs) ≤ MAX_NESTING_DEPTH ↔
        ∀ e ∈ kvs, d+1+height e.2 ≤ MAX_NESTING_DEPTH := by
      have h := @height_obj_le kvs (MAX_NESTING_DEPTH-d)
      constructor
      · intro hle e he
        have := h.mp (by omega) e he
        omega
      · intro hall
        have := h.mpr (fun e he => by have := hall e he; omega)
        omega
    rw [hdepth, Narrow, Clean, everywhere_obj, everywhere_obj]
    constructor
    · intro h
      exact ⟨fun e he => ((ih e he).mp (h e he).2).1,
        ⟨not_lt.mp hl,fun e he => ((ih e he).mp (h e he).2).2.1⟩,
        fun e he => (h e he).1,fun e he => ((ih e he).mp (h e he).2).2.2⟩
    · rintro ⟨h1,⟨-,h2⟩,h3,h4⟩ e he
      exact ⟨h3 e he,(ih e he).mpr ⟨h1 e he,h2 e he,h4 e he⟩⟩
  | arr xs ih =>
    rw [freeze]
    by_cases hd : MAX_NESTING_DEPTH < d
    · rw [if_pos hd]
      simp only [failWith, reduceCtorEq, false_iff]
      omega
    rw [if_neg hd]
    by_cases hl : MAX_LIST_ITEMS < xs.length
    · rw [if_pos hl]
      simp only [fail, reduceCtorEq, false_iff, Narrow, everywhere_arr, narrowAt]
      omega
    rw [if_neg hl, freezeItems_iff]
    have hdepth : d+height (.arr xs) ≤ MAX_NESTING_DEPTH ↔
        ∀ x ∈ xs, d+1+height x ≤ MAX_NESTING_DEPTH := by
      have h := @height_arr_le xs (MAX_NESTING_DEPTH-d)
      constructor
      · intro hle x hx
        have := h.mp (by omega) x hx
        omega
      · intro hall
        have := h.mpr (fun x hx => by have := hall x hx; omega)
        omega
    rw [hdepth, Narrow, Clean, everywhere_arr, everywhere_arr]
    constructor
    · intro h
      exact ⟨fun x hx => ((ih x hx).mp (h x hx)).1,
        ⟨not_lt.mp hl,fun x hx => ((ih x hx).mp (h x hx)).2.1⟩,
        trivial,fun x hx => ((ih x hx).mp (h x hx)).2.2⟩
    · rintro ⟨h1,⟨-,h2⟩,-,h4⟩ x hx
      exact (ih x hx).mpr ⟨h1 x hx,h2 x hx,h4 x hx⟩
  | str s =>
    by_cases hd : MAX_NESTING_DEPTH < d
    · simp [freeze, hd, height, failWith]
    · simp [freeze, hd, height, Narrow, Clean, Everywhere, narrowAt, cleanAt]; omega
  | float r =>
    by_cases hd : MAX_NESTING_DEPTH < d
    · simp [freeze, hd, height, failWith]
    · simp [freeze, hd, height, failWith, Narrow, Clean, Everywhere, narrowAt, cleanAt]; omega
  | _ =>
    by_cases hd : MAX_NESTING_DEPTH < d
    · simp [freeze, hd, height, failWith]
    · simp [freeze, hd, height, Narrow, Clean, Everywhere, narrowAt, cleanAt]; omega


theorem height_normal (v : Json) : height (normal U v) = height v := by
  induction v using Json.ind with
  | arr xs ih =>
    apply eq_of_forall_ge_iff
    intro n
    rw [normal_arr, height_arr_le, height_arr_le, List.forall_mem_map]
    exact forall₂_congr fun x hx => by rw [ih x hx]
  | obj kvs ih =>
    apply eq_of_forall_ge_iff
    intro n
    rw [normal_obj, height_obj_le, height_obj_le, List.forall_mem_map]
    exact forall₂_congr fun e he => by rw [normalEntry, ih e he]
  | _ => rfl

theorem narrow_normal {p : Bool} (v : Json) : Narrow p (normal U v) ↔ Narrow p v := by
  induction v using Json.ind with
  | arr xs ih =>
    rw [normal_arr, Narrow, everywhere_arr, everywhere_arr, List.forall_mem_map, narrowAt,
      narrowAt, List.length_map]
    exact and_congr_right fun _ => forall₂_congr fun x hx => ih x hx
  | obj kvs ih =>
    rw [normal_obj, Narrow, everywhere_obj, everywhere_obj, List.forall_mem_map, narrowAt,
      narrowAt, List.length_map]
    exact and_congr_right fun _ => forall₂_congr fun e he => ih e he
  | _ => rfl

theorem Narrow.weaken {v : Json} (h : Narrow true v) : Narrow false v := by
  induction v using Json.ind with
  | arr xs ih =>
    rw [Narrow, everywhere_arr] at h ⊢
    exact ⟨h.1,fun x hx => ih x hx (h.2 x hx)⟩
  | obj kvs ih =>
    rw [Narrow, everywhere_obj] at h ⊢
    exact ⟨le_trans h.1 (by decide),fun e he => ih e he (h.2 e he)⟩
  | _ => trivial

/-! ## Serializing -/

def distinctAt : Json → Prop
  | .obj kvs => (kvs.map Prod.fst).Nodup
  | _ => True

/-- No mapping in a value has a key twice. -/
def Distinct : Json → Prop := Everywhere distinctAt

theorem serializeItems_iff {xs ws : List Json}
    (ih : ∀ x ∈ xs, ∀ w, serialize U x = .ok w ↔ w = normal U x ∧ Distinct w) :
    serializeItems U xs = .ok ws ↔ ws = xs.map (normal U) ∧ ∀ w ∈ ws, Distinct w := by
  induction xs generalizing ws with
  | nil =>
    rw [serializeItems, Except.ok.injEq]
    constructor
    · rintro rfl
      exact ⟨rfl,nofun⟩
    · exact fun h => h.1.symm
  | cons x xs hxs =>
    have hx := ih x List.mem_cons_self
    have hxs := fun ws => @hxs ws (fun y hy => ih y (List.mem_cons_of_mem x hy))
    rw [serializeItems]
    constructor
    · intro h
      obtain ⟨w,hw,h⟩ := ok_of_bind h
      obtain ⟨ws',hws,h⟩ := ok_of_bind h
      obtain ⟨rfl,hd⟩ := (hx w).mp hw
      obtain ⟨rfl,hds⟩ := (hxs ws').mp hws
      cases h
      exact ⟨rfl,List.forall_mem_cons.mpr ⟨hd,hds⟩⟩
    · rintro ⟨rfl,hd⟩
      rw [List.map_cons, List.forall_mem_cons] at hd
      rw [(hx _).mpr ⟨rfl,hd.1⟩, (hxs _).mpr ⟨rfl,hd.2⟩]
      rfl

theorem serializeFields_iff {kvs r ws : Obj} (hr : (r.map Prod.fst).Nodup)
    (ih : ∀ e ∈ kvs, ∀ w, serialize U e.2 = .ok w ↔ w = normal U e.2 ∧ Distinct w) :
    serializeFields U r kvs = .ok ws ↔ ws = r++kvs.map (normalEntry U) ∧
      (ws.map Prod.fst).Nodup ∧ ∀ e ∈ kvs, Distinct (normal U e.2) := by
  induction kvs generalizing r with
  | nil =>
    rw [serializeFields, List.map_nil, List.append_nil, Except.ok.injEq]
    constructor
    · rintro rfl
      exact ⟨rfl,hr,nofun⟩
    · exact fun h => h.1.symm
  | cons e kvs hkvs =>
    obtain ⟨k,v⟩ := e
    have hv := ih (k,v) List.mem_cons_self
    have hkvs := fun r hr => @hkvs r hr (fun e he => ih e (List.mem_cons_of_mem _ he))
    have happ : ∀ w, r++[(U.normalize k,w)]++kvs.map (normalEntry U) =
        r++(U.normalize k,w) :: kvs.map (normalEntry U) := by
      intro w
      rw [List.append_assoc, List.singleton_append]
    rw [serializeFields, List.map_cons, normalEntry]
    by_cases hk : U.normalize k ∈ r.map Prod.fst
    · rw [if_pos hk]
      constructor
      · intro h
        cases h
      · rintro ⟨rfl,hn,-⟩
        rw [List.map_append, List.map_cons, List.nodup_append] at hn
        exact absurd rfl (hn.2.2 _ hk _ List.mem_cons_self)
    rw [if_neg hk]
    have hr' : ∀ w, ((r++[(U.normalize k,w)]).map Prod.fst).Nodup := by
      intro w
      rw [List.map_append, List.nodup_append]
      refine ⟨hr,by simp,?_⟩
      rintro a ha b hb rfl
      rw [List.map_singleton, List.mem_singleton] at hb
      rw [hb] at ha
      exact hk ha
    constructor
    · intro h
      obtain ⟨w,hw,h⟩ := ok_of_bind h
      obtain ⟨rfl,hd⟩ := (hv w).mp hw
      obtain ⟨he,hn,hds⟩ := (hkvs _ (hr' _)).mp h
      exact ⟨he.trans (happ _),hn,List.forall_mem_cons.mpr ⟨hd,hds⟩⟩
    · rintro ⟨he,hn,hds⟩
      rw [List.forall_mem_cons] at hds
      rw [(hv _).mpr ⟨rfl,hds.1⟩]
      exact (hkvs _ (hr' _)).mpr ⟨he.trans (happ _).symm,hn,hds.2⟩

theorem serialize_iff {v w : Json} : serialize U v = .ok w ↔ w = normal U v ∧ Distinct w := by
  induction v using Json.ind generalizing w with
  | arr xs ih =>
    rw [serialize, normal_arr]
    constructor
    · intro h
      cases hs : serializeItems U xs with
      | error e => rw [hs] at h; cases h
      | ok ws =>
        rw [hs] at h
        cases h
        obtain ⟨rfl,hd⟩ := (serializeItems_iff (fun x hx w => ih x hx)).mp hs
        exact ⟨rfl,everywhere_arr.mpr ⟨trivial,hd⟩⟩
    · rintro ⟨rfl,hd⟩
      rw [(serializeItems_iff (fun x hx w => ih x hx)).mpr ⟨rfl,(everywhere_arr.mp hd).2⟩]
      rfl
  | obj kvs ih =>
    have hfields := fun ws => @serializeFields_iff U kvs [] ws List.nodup_nil
      (fun e he w => ih e he)
    rw [serialize, normal_obj]
    constructor
    · intro h
      cases hs : serializeFields U [] kvs with
      | error e => rw [hs] at h; cases h
      | ok ws =>
        rw [hs] at h
        cases h
        obtain ⟨rfl,hn,hd⟩ := (hfields ws).mp hs
        have hd' : ∀ e ∈ kvs.map (normalEntry U), Distinct e.2 := List.forall_mem_map.mpr hd
        exact ⟨rfl,everywhere_obj.mpr ⟨hn,hd'⟩⟩
    · rintro ⟨rfl,hd⟩
      obtain ⟨hn,hd⟩ := everywhere_obj.mp hd
      have hd' : ∀ e ∈ kvs, Distinct (normal U e.2) := fun e he =>
        hd (normalEntry U e) (List.mem_map_of_mem he)
      rw [(hfields _).mpr ⟨rfl,hn,hd'⟩]
      rfl
  | _ =>
    constructor
    · intro h
      obtain rfl := Except.ok.inj h
      exact ⟨rfl,trivial⟩
    · rintro ⟨rfl,-⟩
      rfl


/-! ## Normal forms and values of one text -/

theorem normal_idem (v : Json) : normal U (normal U v) = normal U v := by
  induction v using Json.ind with
  | str s => rw [normal, normal, U.idem]
  | float r =>
    rw [normal, normal]
    by_cases h : r = "-0.0"
    · simp [h]
    · simp [h]
  | arr xs ih =>
    rw [normal_arr, normal_arr, List.map_map]
    exact congrArg Json.arr (List.map_congr_left ih)
  | obj kvs ih =>
    rw [normal_obj, normal_obj, List.map_map]
    refine congrArg Json.obj (List.map_congr_left fun e he => ?_)
    rw [Function.comp_apply, normalEntry, normalEntry, ih e he, U.idem]
  | _ => rfl

theorem readable_of {v : Json} (hc : Clean v) (hd : Distinct v) : isReadable v = true := by
  induction v using Json.ind with
  | float r => exact hc
  | arr xs ih =>
    exact readable_arr.mpr
      (fun x hx => ih x hx ((everywhere_arr.mp hc).2 x hx) ((everywhere_arr.mp hd).2 x hx))
  | obj kvs ih =>
    obtain ⟨hn,hd⟩ := everywhere_obj.mp hd
    exact readable_obj.mpr ⟨hn,fun e he => ih e he ((everywhere_obj.mp hc).2 e he) (hd e he)⟩
  | _ => rfl

theorem distinct_of_readable {v : Json} (h : isReadable v = true) : Distinct v := by
  induction v using Json.ind with
  | arr xs ih => exact everywhere_arr.mpr ⟨trivial,fun x hx => ih x hx (readable_arr.mp h x hx)⟩
  | obj kvs ih =>
    obtain ⟨hn,hv⟩ := readable_obj.mp h
    exact everywhere_obj.mpr ⟨hn,fun e he => ih e he (hv e he)⟩
  | _ => trivial

/-- Two readable values of one text. -/
structure Same (v v' : Json) : Prop where
  left : isReadable v = true
  right : isReadable v' = true
  text : dumps v' = dumps v

theorem Same.symm {v v' : Json} (h : Same v v') : Same v' v := ⟨h.right,h.left,h.text.symm⟩

theorem Same.arr {xs : List Json} {v' : Json} (h : Same (.arr xs) v') :
    ∃ ys, v' = .arr ys ∧ ys.length = xs.length ∧ ∀ y ∈ ys, ∃ x ∈ xs, Same x y := by
  obtain ⟨ys,rfl,ht⟩ := arr_of_dumps h.left h.right h.text
  refine ⟨ys,rfl,by simpa using congrArg List.length ht,fun y hy => ?_⟩
  have hm : dumps y ∈ xs.map dumps := ht ▸ List.mem_map_of_mem hy
  obtain ⟨x,hx,he⟩ := List.mem_map.mp hm
  exact ⟨x,hx,readable_arr.mp h.left x hx,readable_arr.mp h.right y hy,he.symm⟩

/-- Objects of one text have the same keys, with values of one text. -/
theorem Same.obj {kvs : Obj} {v' : Json} (h : Same (.obj kvs) v') :
    ∃ kvs', v' = .obj kvs' ∧ (texts kvs').Perm (texts kvs) ∧
      ∀ e' ∈ kvs', ∃ e ∈ kvs, e.1 = e'.1 ∧ Same e.2 e'.2 := by
  obtain ⟨kvs',rfl,hp⟩ := obj_of_dumps h.left h.right h.text
  refine ⟨kvs',rfl,hp,fun e' he' => ?_⟩
  obtain ⟨e,he,hk,ht⟩ := mem_texts hp.symm he'
  exact ⟨e,he,hk,(readable_obj.mp h.left).2 e he,(readable_obj.mp h.right).2 e' he',ht.symm⟩

theorem Same.scalar {v v' : Json} (h : Same v v') (hs : isScalar v = true) : v' = v :=
  scalar_of_dumps h.left h.right hs h.text

theorem Same.str {s : String} {v' : Json} (h : Same (.str s) v') : v' = .str s :=
  str_of_dumps (wellFormed_of_readable h.right) h.text.symm

theorem map_fixed {α : Type} {f : α → α} {l : List α} : l.map f = l ↔ ∀ a ∈ l, f a = a := by
  have h := List.map_inj_left (l := l) (f := f) (g := id)
  rwa [List.map_id] at h

theorem Same.normal {v v' : Json} (h : Same v v') (hv : normal U v = v) : normal U v' = v' := by
  induction v using Json.ind generalizing v' with
  | arr xs ih =>
    obtain ⟨ys,rfl,-,hf⟩ := h.arr
    rw [normal_arr, Json.arr.injEq] at hv ⊢
    have hx : ∀ x ∈ xs, Bridge.normal U x = x := map_fixed.mp hv
    refine map_fixed.mpr fun y hy => ?_
    obtain ⟨x,hm,hs⟩ := hf y hy
    exact ih x hm hs (hx x hm)
  | obj kvs ih =>
    obtain ⟨kvs',rfl,-,hf⟩ := h.obj
    rw [normal_obj, Json.obj.injEq] at hv ⊢
    have hx : ∀ e ∈ kvs, normalEntry U e = e := map_fixed.mp hv
    refine map_fixed.mpr fun e' he' => ?_
    obtain ⟨e,he,hk,hs⟩ := hf e' he'
    have hn := hx e he
    rw [normalEntry, Prod.ext_iff] at hn ⊢
    exact ⟨hk ▸ hn.1,ih e he hs hn.2⟩
  | str s => rw [h.str, hv]
  | _ => rw [h.scalar rfl, hv]

theorem Same.clean {v v' : Json} (h : Same v v') (hv : Clean v) : Clean v' := by
  induction v using Json.ind generalizing v' with
  | arr xs ih =>
    obtain ⟨ys,rfl,-,hf⟩ := h.arr
    refine everywhere_arr.mpr ⟨trivial,fun y hy => ?_⟩
    obtain ⟨x,hm,hs⟩ := hf y hy
    exact ih x hm hs ((everywhere_arr.mp hv).2 x hm)
  | obj kvs ih =>
    obtain ⟨kvs',rfl,-,hf⟩ := h.obj
    obtain ⟨hkeys,hvals⟩ := everywhere_obj.mp hv
    refine everywhere_obj.mpr ⟨fun e' he' => ?_,fun e' he' => ?_⟩
    · obtain ⟨e,he,hk,-⟩ := hf e' he'
      exact hk ▸ hkeys e he
    · obtain ⟨e,he,-,hs⟩ := hf e' he'
      exact ih e he hs (hvals e he)
  | str s => rwa [h.str]
  | _ => rwa [h.scalar rfl]

theorem Same.narrow {p : Bool} {v v' : Json} (h : Same v v') (hv : Narrow p v) :
    Narrow p v' := by
  induction v using Json.ind generalizing v' with
  | arr xs ih =>
    obtain ⟨ys,rfl,hlen,hf⟩ := h.arr
    obtain ⟨hl,hx⟩ := everywhere_arr.mp hv
    rw [narrowAt, ← hlen] at hl
    refine everywhere_arr.mpr ⟨hl,fun y hy => ?_⟩
    obtain ⟨x,hm,hs⟩ := hf y hy
    exact ih x hm hs (hx x hm)
  | obj kvs ih =>
    obtain ⟨kvs',rfl,hp,hf⟩ := h.obj
    obtain ⟨hl,hx⟩ := everywhere_obj.mp hv
    have hlen := hp.length_eq
    rw [texts, texts, List.length_map, List.length_map] at hlen
    rw [narrowAt, ← hlen] at hl
    refine everywhere_obj.mpr ⟨hl,fun e' he' => ?_⟩
    obtain ⟨e,he,-,hs⟩ := hf e' he'
    exact ih e he hs (hx e he)
  | str s => rwa [h.str]
  | _ => rwa [h.scalar rfl]

theorem Same.height_le {v v' : Json} (h : Same v v') {n : ℕ} (hv : height v ≤ n) :
    height v' ≤ n := by
  induction v using Json.ind generalizing v' n with
  | arr xs ih =>
    obtain ⟨ys,rfl,-,hf⟩ := h.arr
    rw [height_arr_le] at hv ⊢
    intro y hy
    obtain ⟨x,hm,hs⟩ := hf y hy
    have := ih x hm hs (le_refl (height x))
    have := hv x hm
    omega
  | obj kvs ih =>
    obtain ⟨kvs',rfl,-,hf⟩ := h.obj
    rw [height_obj_le] at hv ⊢
    intro e' he'
    obtain ⟨e,he,-,hs⟩ := hf e' he'
    have := ih e he hs (le_refl (height e.2))
    have := hv e he
    omega
  | str s => rwa [h.str]
  | _ => rwa [h.scalar rfl]

/-- Values of one text pass the same freezing. -/
theorem Same.freeze {p : Bool} {d : ℕ} {v v' : Json} (h : Same v v')
    (hv : Bridge.freeze p d v = .ok ()) : Bridge.freeze p d v' = .ok () := by
  rw [freeze_iff] at hv ⊢
  have := h.height_le (le_refl (height v))
  exact ⟨by omega,h.narrow hv.2.1,h.clean hv.2.2⟩

/-- A value of the text of a normal form serializes to itself. -/
theorem Same.serialize {v v' : Json} (h : Same v v') (hv : Bridge.normal U v = v) :
    Bridge.serialize U v' = .ok v' :=
  serialize_iff.mpr ⟨(h.normal hv).symm,distinct_of_readable h.right⟩

end PdFleet.Bridge
