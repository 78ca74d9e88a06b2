import PdFleet.Printed

/-!
# What a text reads back as

A value is readable if its floats have the text of a float and no object has a key twice.
Two readable values of one text differ in the order of keys only: they have the same
scalars, lists of the same texts and the same fields up to their texts.
-/

set_option autoImplicit false

namespace PdFleet

def isFloatChar (c : Char) : Bool := c.isDigit || c ∈ ['+', '-', '.', 'e']

/-- The text of a finite float: `nan` and `inf` have none of its letters, and an integer
has neither a point nor an exponent. -/
def isFloatText (r : String) : Bool :=
  r.toList.all isFloatChar && r.toList.any (fun c => c ∈ ['.', 'e'])

mutual

def isReadable : Json → Bool
  | .float r => isFloatText r
  | .arr xs => readableItems xs
  | .obj kvs => (kvs.map Prod.fst).Nodup && readableFields kvs
  | _ => true

def readableItems : List Json → Bool
  | [] => true
  | x :: xs => isReadable x && readableItems xs

def readableFields : List (String × Json) → Bool
  | [] => true
  | (_,v) :: kvs => isReadable v && readableFields kvs

end

@[simp] theorem readable_arr {xs : List Json} :
    isReadable (.arr xs) = true ↔ ∀ x ∈ xs, isReadable x = true := by
  rw [isReadable]
  induction xs with
  | nil => simp [readableItems]
  | cons x xs ih => simp [readableItems, ih]

@[simp] theorem readable_obj {kvs : Obj} : isReadable (.obj kvs) = true ↔
    (kvs.map Prod.fst).Nodup ∧ ∀ e ∈ kvs, isReadable e.2 = true := by
  have hfields : readableFields kvs = true ↔ ∀ e ∈ kvs, isReadable e.2 = true := by
    induction kvs with
    | nil => simp [readableFields]
    | cons e kvs ih => simp [readableFields, ih]
  rw [isReadable, Bool.and_eq_true, decide_eq_true_iff, hfields]

theorem scalarChar_of_floatChar {c : Char} (h : isFloatChar c = true) : isScalarChar c = true := by
  simp only [isFloatChar, Bool.or_eq_true, decide_eq_true_eq, List.mem_cons, List.not_mem_nil,
    or_false] at h
  rcases h with h | rfl | rfl | rfl | rfl
  · simp [isScalarChar, Char.isAlphanum, h]
  all_goals decide

theorem wellFormed_of_readable {v : Json} (h : isReadable v = true) : wellFormed v = true := by
  induction v using Json.ind with
  | float r =>
    rw [isReadable, isFloatText, Bool.and_eq_true] at h
    obtain ⟨c,hc,-⟩ := List.any_eq_true.mp h.2
    have hne : r ≠ "" := by
      rintro rfl
      cases hc
    rw [wellFormed, Bool.and_eq_true, decide_eq_true_eq]
    exact ⟨hne,List.all_eq_true.mpr
      (fun d hd => scalarChar_of_floatChar (List.all_eq_true.mp h.1 d hd))⟩
  | arr xs ih => exact wellFormed_arr.mpr (fun x hx => ih x hx (readable_arr.mp h x hx))
  | obj kvs ih =>
    obtain ⟨hn,hv⟩ := readable_obj.mp h
    exact wellFormed_obj.mpr ⟨hn,fun e he => ih e he (hv e he)⟩
  | _ => rfl

/-! ## Scalars -/

theorem intChar {n : ℤ} : ∀ c ∈ (toString n).toList, c.isDigit = true ∨ c = '-' := by
  have hnat : ∀ m : ℕ, ∀ c ∈ (toString m).toList, c.isDigit = true := by
    intro m c hc
    have hl : (toString m).toList = Nat.toDigits 10 m := Nat.toList_repr
    rw [hl] at hc
    exact Nat.isDigit_of_mem_toDigits (by decide) (by decide) hc
  cases n with
  | ofNat m => exact fun c hc => Or.inl (hnat m c hc)
  | negSucc m =>
    intro c hc
    have hl : (toString (Int.negSucc m)).toList = '-' :: (toString (m+1)).toList := by
      show ("-" ++ toString (m+1)).toList = _
      rw [String.toList_append]
      rfl
    rw [hl] at hc
    rcases List.mem_cons.mp hc with rfl | hc
    · exact Or.inr rfl
    · exact Or.inl (hnat (m+1) c hc)

theorem int_notFloat (n : ℤ) : isFloatText (toString n) = false := by
  rw [Bool.eq_false_iff]
  intro h
  rw [isFloatText, Bool.and_eq_true] at h
  obtain ⟨c,hc,hm⟩ := List.any_eq_true.mp h.2
  have hm : c = '.' ∨ c = 'e' := by simpa using hm
  rcases intChar c hc with hd | rfl
  · rcases hm with rfl | rfl <;> exact absurd hd (by decide)
  · exact absurd hm (by decide)

theorem int_ne_word {n : ℤ} {w : String} {c : Char} (hc : c ∈ w.toList)
    (hd : c.isDigit = false ∧ c ≠ '-') : toString n ≠ w := by
  rintro rfl
  rcases intChar c hc with h | h
  · rw [hd.1] at h
    cases h
  · exact hd.2 h

def isScalar (v : Json) : Bool := mark v = none

/-- The scalar of a text. -/
def readScalar (t : String) : Json :=
  if isFloatText t then .float t else if t = "null" then .null else if t = "true" then .bool true
  else if t = "false" then .bool false else .int (t.toInt?.getD 0)

theorem readScalar_dumps {v : Json} (h : isReadable v = true) (hs : isScalar v = true) :
    readScalar (dumps v) = v := by
  cases v with
  | null => rfl
  | bool b => cases b <;> rfl
  | int n =>
    have hn : toString n ≠ "null" := int_ne_word (c := 'n') (by decide) (by decide)
    have ht : toString n ≠ "true" := int_ne_word (c := 't') (by decide) (by decide)
    have hf : toString n ≠ "false" := int_ne_word (c := 'f') (by decide) (by decide)
    have hr : (toString n).toInt? = some n := Int.toInt?_repr n
    rw [dumps, readScalar, int_notFloat, if_neg Bool.false_ne_true, if_neg hn, if_neg ht,
      if_neg hf, hr, Option.getD_some]
  | float r => exact if_pos h
  | str s => exact absurd hs (by simp [isScalar, mark])
  | arr xs => exact absurd hs (by simp [isScalar, mark])
  | obj kvs => exact absurd hs (by simp [isScalar, mark])

theorem scalar_of_dumps {v v' : Json} (hv : isReadable v = true) (hv' : isReadable v' = true)
    (hm : isScalar v = true) (he : dumps v' = dumps v) : v' = v := by
  have hm' : isScalar v' = true := by
    have hmark := mark_of_dumps (wellFormed_of_readable hv') (wellFormed_of_readable hv) he
    rw [isScalar, decide_eq_true_iff] at hm ⊢
    rw [hmark, hm]
  rw [← readScalar_dumps hv' hm', he, readScalar_dumps hv hm]


/-! ## Lists and objects -/

theorem arr_of_dumps {xs : List Json} {v : Json} (hx : isReadable (.arr xs) = true)
    (hv : isReadable v = true) (he : dumps v = dumps (.arr xs)) :
    ∃ ys, v = .arr ys ∧ ys.map dumps = xs.map dumps := by
  have hwx := wellFormed_of_readable hx
  have hwv := wellFormed_of_readable hv
  have hmark := mark_of_dumps hwv hwx he
  cases v with
  | arr ys => exact ⟨ys,rfl,items_of_dumps hwv hwx he⟩
  | _ => simp [mark] at hmark

/-- The entries of an object with the texts of its values. -/
def texts (kvs : Obj) : List (String × String) := kvs.map (fun e => (e.1,dumps e.2))

theorem obj_of_dumps {kvs : Obj} {v : Json} (hk : isReadable (.obj kvs) = true)
    (hv : isReadable v = true) (he : dumps v = dumps (.obj kvs)) :
    ∃ kvs', v = .obj kvs' ∧ (texts kvs').Perm (texts kvs) := by
  have hwk := wellFormed_of_readable hk
  have hwv := wellFormed_of_readable hv
  have hmark := mark_of_dumps hwv hwk he
  cases v with
  | obj kvs' => exact ⟨kvs',rfl,entries_of_dumps hwv hwk he⟩
  | _ => simp [mark] at hmark

theorem mem_texts {kvs kvs' : Obj} (hp : (texts kvs').Perm (texts kvs)) {e : String × Json}
    (he : e ∈ kvs) : ∃ e' ∈ kvs', e'.1 = e.1 ∧ dumps e'.2 = dumps e.2 := by
  have hm : (e.1,dumps e.2) ∈ texts kvs' :=
    hp.mem_iff.mpr (List.mem_map.mpr ⟨e,he,rfl⟩)
  obtain ⟨e',he',h⟩ := List.mem_map.mp hm
  exact ⟨e',he',(Prod.mk.inj h).1,(Prod.mk.inj h).2⟩

theorem keys_perm {kvs kvs' : Obj} (hp : (texts kvs').Perm (texts kvs)) :
    (kvs'.map Prod.fst).Perm (kvs.map Prod.fst) := by
  have h := hp.map Prod.fst
  simpa [texts, List.map_map, Function.comp_def] using h

/-- Objects of one text have the same fields up to their texts. -/
theorem field_of_texts {kvs kvs' : Obj} (hn : (kvs.map Prod.fst).Nodup)
    (hp : (texts kvs').Perm (texts kvs)) (k : String) :
    (Obj.field kvs' k).map dumps = (Obj.field kvs k).map dumps := by
  have hn' : (kvs'.map Prod.fst).Nodup := (keys_perm hp).nodup_iff.mpr hn
  cases h : Obj.field kvs k with
  | some v =>
    obtain ⟨e',he',hk,hd⟩ := mem_texts hp (mem_of_field h)
    obtain ⟨k',v'⟩ := e'
    subst hk
    rw [field_of_mem hn' he', Option.map_some, Option.map_some, hd]
  | none =>
    cases h' : Obj.field kvs' k with
    | none => rfl
    | some v' =>
      obtain ⟨e,he,hk,-⟩ := mem_texts hp.symm (mem_of_field h')
      obtain ⟨k',v⟩ := e
      subst hk
      rw [field_of_mem hn he] at h
      cases h

theorem eq_of_key {l : List (String × String)} (hn : (l.map Prod.fst).Nodup)
    {e e' : String × String} (he : e ∈ l) (he' : e' ∈ l) (h : e.1 = e'.1) : e = e' :=
  List.inj_on_of_nodup_map hn he he' h

/-- The text of an object says its entries only. -/
theorem dumps_of_texts {kvs kvs' : Obj} (hn : (kvs.map Prod.fst).Nodup)
    (hp : (texts kvs').Perm (texts kvs)) : dumps (.obj kvs') = dumps (.obj kvs) := by
  have hkeys : ((texts kvs).map Prod.fst).Nodup := by
    simpa [texts, List.map_map, Function.comp_def] using hn
  have hs : sorted kvs' = sorted kvs := by
    have hp1 : (sorted kvs').Perm (texts kvs') := List.perm_insertionSort _ _
    have hp2 : (sorted kvs).Perm (texts kvs) := List.perm_insertionSort _ _
    have hsort := List.pairwise_insertionSort (fun e e' : String × String => e.1 ≤ e'.1)
    refine List.Perm.eq_of_pairwise ?_ (hsort _) (hsort _) ((hp1.trans hp).trans hp2.symm)
    intro a b ha hb hab hba
    exact eq_of_key hkeys ((hp1.trans hp).mem_iff.mp ha) (hp2.mem_iff.mp hb) (le_antisymm hab hba)
  have hl : (dumps (.obj kvs')).toList = (dumps (.obj kvs)).toList := by
    rw [toList_dumps_obj, toList_dumps_obj, hs]
  exact String.toList_injective hl

end PdFleet
