import PdFleet.Json
import PdFleet.Lib.Delimited

/-!
# The canonical text tells values apart

Two values with the same canonical text are equal but for the order of keys: lists agree
item by item, objects entry by entry, and texts character by character.
-/

set_option autoImplicit false

namespace PdFleet

/-! ## Escapes -/

def hexValue (c : Char) : ℕ := if c.toNat < 58 then c.toNat-48 else c.toNat-87

/-- Reads one character of a quoted text. -/
def unescape : List Char → Option (Char × List Char)
  | '\\' :: 'u' :: _ :: _ :: c :: d :: t => some (Char.ofNat (16*hexValue c+hexValue d),t)
  | '\\' :: '"' :: t => some ('"',t)
  | '\\' :: '\\' :: t => some ('\\',t)
  | '\\' :: 'n' :: t => some ('\n',t)
  | '\\' :: 'r' :: t => some ('\r',t)
  | '\\' :: 't' :: t => some ('\t',t)
  | '\\' :: 'f' :: t => some ('\x0c',t)
  | '\\' :: 'b' :: t => some ('\x08',t)
  | c :: t => some (c,t)
  | [] => none

theorem hexValue_hexDigit : ∀ n < 16, hexValue (Sha256.hexDigit n) = n := by decide

theorem unescape_escapeChar (c : Char) (t : List Char) :
    unescape ((escapeChar c).toList++t) = some (c,t) := by
  unfold escapeChar
  split_ifs with h1 h2 h3 h4 h5 h6 h7 h8
  all_goals first | (subst_vars; rfl) | skip
  · have hc : 16*(c.toNat/16%16)+c.toNat%16 = c.toNat := by omega
    rw [hexUnit, String.toList_ofList]
    show some (Char.ofNat (16*hexValue (Sha256.hexDigit (c.toNat/16%16))+
      hexValue (Sha256.hexDigit (c.toNat%16))),t) = some (c,t)
    rw [hexValue_hexDigit _ (by omega), hexValue_hexDigit _ (by omega), hc, Char.ofNat_toNat]
  · rw [String.toList_singleton, List.singleton_append]
    unfold unescape
    split <;> simp_all

theorem escapeChar_head (c : Char) :
    (escapeChar c).toList.head? ≠ some '"' ∧ (escapeChar c).toList ≠ [] := by
  unfold escapeChar
  split_ifs with h1
  all_goals simp [hexUnit, h1]

theorem toList_quote (s : String) : (quote s).toList =
    '"' :: (s.toList.flatMap (fun c => (escapeChar c).toList)++['"']) := by
  have hjoin : ∀ l : List Char, (String.join (l.map escapeChar)).toList =
      l.flatMap (fun c => (escapeChar c).toList) := by
    intro l
    induction l with
    | nil => rfl
    | cons c l ih => rw [List.map_cons, String.join_cons, String.toList_append, ih,
        List.flatMap_cons]
  rw [quote, String.toList_append, String.toList_append, hjoin]
  rfl

theorem quote_inj {s s' : String} {r r' : List Char}
    (h : (quote s).toList++r = (quote s').toList++r') : s = s' ∧ r = r' := by
  rw [toList_quote, toList_quote, List.cons_append, List.cons_append, List.cons.injEq,
    List.append_assoc, List.append_assoc] at h
  obtain ⟨hs,hr⟩ := escaped_inj unescape_escapeChar (fun c => (escapeChar_head c).1)
    (fun c => (escapeChar_head c).2) h.2
  exact ⟨String.toList_inj.mp hs,hr⟩

/-! ## Values -/

def isScalarChar (c : Char) : Bool := c.isAlphanum || c ∈ ['+', '-', '.']

mutual

/-- What a JSON value of the program always is: its floats have a decimal text, and no
object has a key twice. -/
def wellFormed : Json → Bool
  | .float r => r ≠ "" && r.toList.all isScalarChar
  | .arr xs => wellFormedItems xs
  | .obj kvs => (kvs.map Prod.fst).Nodup && wellFormedFields kvs
  | _ => true

def wellFormedItems : List Json → Bool
  | [] => true
  | x :: xs => wellFormed x && wellFormedItems xs

def wellFormedFields : List (String × Json) → Bool
  | [] => true
  | (_,v) :: kvs => wellFormed v && wellFormedFields kvs

end

@[simp] theorem wellFormed_arr {xs : List Json} :
    wellFormed (.arr xs) = true ↔ ∀ x ∈ xs, wellFormed x = true := by
  rw [wellFormed]
  induction xs with
  | nil => simp [wellFormedItems]
  | cons x xs ih => simp [wellFormedItems, ih]

@[simp] theorem wellFormed_obj {kvs : Obj} : wellFormed (.obj kvs) = true ↔
    (kvs.map Prod.fst).Nodup ∧ ∀ e ∈ kvs, wellFormed e.2 = true := by
  have hfields : wellFormedFields kvs = true ↔ ∀ e ∈ kvs, wellFormed e.2 = true := by
    induction kvs with
    | nil => simp [wellFormedFields]
    | cons e kvs ih => simp [wellFormedFields, ih]
  rw [wellFormed, Bool.and_eq_true, decide_eq_true_iff, hfields]

/-- What may follow a value in a text. -/
def Follows (r : List Char) : Prop := ∀ c ∈ r.head?, isScalarChar c = false

def scalarWord (w : List Char) : Prop := w ≠ [] ∧ w.all isScalarChar = true

theorem scalarWord_nat (n : ℕ) : scalarWord (toString n).toList := by
  have hl : (toString n).toList = Nat.toDigits 10 n := Nat.toList_repr
  rw [hl, scalarWord, List.all_eq_true]
  refine ⟨Nat.toDigits_ne_nil,fun c hc => ?_⟩
  have hd := Nat.isDigit_of_mem_toDigits (by decide) (by decide) hc
  simp [isScalarChar, Char.isAlphanum, hd]

theorem scalarWord_int (n : ℤ) : scalarWord (toString n).toList := by
  cases n with
  | ofNat n => exact scalarWord_nat n
  | negSucc n =>
    have hl : (toString (Int.negSucc n)).toList = '-' :: (toString (n+1)).toList := by
      show ("-" ++ toString (n+1)).toList = _
      rw [String.toList_append]
      rfl
    obtain ⟨-,hall⟩ := scalarWord_nat (n+1)
    rw [hl, scalarWord, List.all_cons, hall]
    exact ⟨by simp,rfl⟩

theorem dumpsItems_eq (xs : List Json) : dumpsItems xs = xs.map dumps := by
  induction xs with
  | nil => rfl
  | cons x xs ih => rw [dumpsItems, ih, List.map_cons]

theorem dumpsFields_eq (kvs : Obj) : dumpsFields kvs = kvs.map (fun e => (e.1,dumps e.2)) := by
  induction kvs with
  | nil => rfl
  | cons e kvs ih => rw [dumpsFields, ih, List.map_cons]

theorem intercalate_separated (l : List String) (e : String) (m : Char) (he : e.toList = [m]) :
    (",".intercalate l ++ e).toList = separated ',' m (l.map String.toList) := by
  induction l with
  | nil => simp [separated, he]
  | cons s l ih =>
    cases l with
    | nil => simp [separated, he]
    | cons t l =>
      have hc : ",".toList = [','] := rfl
      rw [String.intercalate_cons_cons, String.append_assoc, String.append_assoc,
        String.toList_append, String.toList_append, ih, hc]
      rfl

theorem toList_dumps_arr (xs : List Json) : (dumps (.arr xs)).toList =
    '[' :: separated ',' ']' (xs.map (fun x => (dumps x).toList)) := by
  rw [dumps, dumpsItems_eq, String.append_assoc, String.toList_append,
    intercalate_separated _ "]" ']' rfl, List.map_map]
  rfl

/-- The entries of an object in the order of their keys. -/
def sorted (kvs : Obj) : List (String × String) :=
  (kvs.map (fun e => (e.1,dumps e.2))).insertionSort (fun e e' => e.1 ≤ e'.1)

theorem toList_dumps_obj (kvs : Obj) : (dumps (.obj kvs)).toList =
    '\x7b' :: separated ',' '\x7d'
      ((sorted kvs).map (fun e => (quote e.1).toList ++ ':' :: e.2.toList)) := by
  have hfield : ∀ e : String × String,
      (dumpsField e).toList = (quote e.1).toList ++ ':' :: e.2.toList := by
    intro e
    have hc : ":".toList = [':'] := rfl
    rw [dumpsField, String.toList_append, String.toList_append, hc, List.append_assoc]
    rfl
  rw [dumps, dumpsFields_eq, String.append_assoc, String.toList_append,
    intercalate_separated _ "\x7d" '\x7d' rfl, List.map_map]
  simp only [Function.comp_def, hfield]
  rfl

/-! ## The text and its digest, character by character -/

mutual

/-- The characters of `dumps`, which are cheaper to compute. -/
def dumpsChars : Json → List Char
  | .str s => '"' :: (s.toList.flatMap (fun c => (escapeChar c).toList)++['"'])
  | .arr xs => '[' :: separated ',' ']' (charsOfItems xs)
  | .obj kvs => '\x7b' :: separated ',' '\x7d'
      (((charsOfFields kvs).insertionSort (fun e e' => e.1 ≤ e'.1)).map (fun e =>
        '"' :: (e.1.toList.flatMap (fun c => (escapeChar c).toList)++['"']) ++ ':' :: e.2))
  | .null => "null".toList
  | .bool true => "true".toList
  | .bool false => "false".toList
  | .int n => (toString n).toList
  | .float r => r.toList

def charsOfItems : List Json → List (List Char)
  | [] => []
  | x :: xs => dumpsChars x :: charsOfItems xs

def charsOfFields : List (String × Json) → List (String × List Char)
  | [] => []
  | (k,v) :: kvs => (k,dumpsChars v) :: charsOfFields kvs

end

theorem charsOfItems_eq (xs : List Json) : charsOfItems xs = xs.map dumpsChars := by
  induction xs with
  | nil => rfl
  | cons x xs ih => rw [charsOfItems, ih, List.map_cons]

theorem charsOfFields_eq (kvs : Obj) :
    charsOfFields kvs = kvs.map (fun e => (e.1,dumpsChars e.2)) := by
  induction kvs with
  | nil => rfl
  | cons e kvs ih => rw [charsOfFields, ih, List.map_cons]

theorem toList_dumps (v : Json) : (dumps v).toList = dumpsChars v := by
  induction v using Json.ind with
  | null => rfl
  | bool b => cases b <;> rfl
  | int n => rfl
  | float r => rfl
  | str s => exact toList_quote s
  | arr xs ih =>
    rw [toList_dumps_arr, dumpsChars, charsOfItems_eq]
    congr 2
    exact List.map_congr_left ih
  | obj kvs ih =>
    have hsort : (sorted kvs).map (fun e => (e.1,e.2.toList)) =
        (charsOfFields kvs).insertionSort (fun e e' => e.1 ≤ e'.1) := by
      rw [sorted, List.map_insertionSort (fun e e' => e.1 ≤ e'.1) (fun e e' => e.1 ≤ e'.1)
        (fun e : String × String => (e.1,e.2.toList)) _ (fun _ _ _ _ => Iff.rfl), List.map_map,
        charsOfFields_eq]
      congr 1
      apply List.map_congr_left
      intro e he
      rw [Function.comp_apply, ih e he]
    rw [toList_dumps_obj, dumpsChars, ← hsort, List.map_map]
    congr 2
    apply List.map_congr_left
    intro e _
    rw [toList_quote, Function.comp_apply]

theorem toList_loop (bytes : ByteArray) (i : ℕ) (r : List UInt8) :
    ByteArray.toList.loop bytes i r = r.reverse ++ bytes.data.toList.drop i := by
  fun_induction ByteArray.toList.loop bytes i r with
  | case1 i r h ih =>
    have hi : i < bytes.data.toList.length := h
    have hget : bytes.get! i = bytes.data.toList[i] := getElem!_pos bytes.data i h
    rw [ih, hget, List.reverse_cons, List.append_assoc, List.singleton_append,
      ← List.drop_eq_getElem_cons hi]
  | case2 i r h =>
    have hi : bytes.data.toList.length ≤ i := Nat.le_of_not_lt h
    rw [List.drop_eq_nil_of_le hi, List.append_nil]

/-- The bytes of a text, from its characters. -/
theorem toList_toUTF8 (text : String) :
    text.toUTF8.toList = text.toList.flatMap String.utf8EncodeChar := by
  have hlist : text.toUTF8.toList = text.toUTF8.data.toList := toList_loop text.toUTF8 0 []
  rw [hlist, String.toUTF8_eq_toByteArray, ← String.utf8Encode_toList, List.utf8Encode,
    List.toList_data_toByteArray]

theorem sha256Hex_chars {text : String} {l : List Char} (h : text.toList = l) :
    sha256Hex text = String.ofList (Sha256.hexdigest (l.flatMap String.utf8EncodeChar)) := by
  rw [sha256Hex, toList_toUTF8, h]

/-! ## Values end by themselves -/

/-- The texts of values. -/
def Words : Set (List Char) := {w | ∃ v, wellFormed v = true ∧ (dumps v).toList = w}

/-- The character that the text of a value begins with, if it is none of a scalar. -/
def mark : Json → Option Char
  | .str _ => some '"'
  | .arr _ => some '['
  | .obj _ => some '\x7b'
  | _ => none

theorem scalarWord.head {w : List Char} (h : scalarWord w) :
    ∃ c t, w = c :: t ∧ isScalarChar c = true := by
  cases w with
  | nil => exact absurd rfl h.1
  | cons c w =>
    have hall := h.2
    rw [List.all_cons, Bool.and_eq_true] at hall
    exact ⟨c,w,rfl,hall.1⟩

theorem begins {v : Json} (h : wellFormed v = true) :
    (∃ c t, mark v = some c ∧ isScalarChar c = false ∧ (dumps v).toList = c :: t) ∨
      (mark v = none ∧ scalarWord (dumps v).toList) := by
  cases v with
  | null => exact .inr ⟨rfl,by decide,by decide⟩
  | bool b => cases b <;> exact .inr ⟨rfl,by decide,by decide⟩
  | int n => exact .inr ⟨rfl,scalarWord_int n⟩
  | float r =>
    rw [wellFormed, Bool.and_eq_true, decide_eq_true_iff] at h
    exact .inr ⟨rfl,fun hr => h.1 (String.toList_inj.mp hr),h.2⟩
  | str s => exact .inl ⟨_,_,rfl,rfl,toList_quote s⟩
  | arr xs => exact .inl ⟨_,_,rfl,rfl,toList_dumps_arr xs⟩
  | obj kvs => exact .inl ⟨_,_,rfl,rfl,toList_dumps_obj kvs⟩

/-- Two values whose texts cannot be told apart at once are of one kind. -/
theorem mark_same {v v' : Json} {r r' : List Char} (hv : wellFormed v = true)
    (hv' : wellFormed v' = true) (he : (dumps v).toList++r = (dumps v').toList++r') :
    mark v = mark v' := by
  rcases begins hv with ⟨c,t,hm,hc,h⟩ | ⟨hm,hs⟩
  · rcases begins hv' with ⟨c',t',hm',hc',h'⟩ | ⟨hm',hs'⟩
    · rw [h, h'] at he
      rw [hm, hm', (List.cons.inj he).1]
    · obtain ⟨c',t',h',hc'⟩ := hs'.head
      rw [h, h'] at he
      rw [(List.cons.inj he).1, hc'] at hc
      cases hc
  · rcases begins hv' with ⟨c',t',hm',hc',h'⟩ | ⟨hm',hs'⟩
    · obtain ⟨c,t,h,hc⟩ := hs.head
      rw [h, h'] at he
      rw [← (List.cons.inj he).1, hc] at hc'
      cases hc'
    · rw [hm, hm']

theorem word_head {w : List Char} (hw : w ∈ Words) {c : Char} (hc : c ∈ [']', '\x7d']) :
    w.head? ≠ some c ∧ w ≠ [] := by
  obtain ⟨v,hv,rfl⟩ := hw
  rcases begins hv with ⟨d,t,hm,-,h⟩ | ⟨-,hs⟩
  · rw [h]
    refine ⟨?_,List.cons_ne_nil d t⟩
    rintro ⟨⟩
    cases v <;> cases hm <;> revert hc <;> decide
  · obtain ⟨d,t,h,hd⟩ := hs.head
    rw [h]
    refine ⟨?_,List.cons_ne_nil d t⟩
    rintro ⟨⟩
    revert hd
    fin_cases hc <;> decide

theorem follows_cons {c : Char} (hc : isScalarChar c = false) (r : List Char) :
    Follows (c :: r) := by
  rintro d ⟨⟩
  exact hc

theorem delimited_scalar {v : Json} (hv : wellFormed v = true) (hm : mark v = none) :
    Delimited Follows Words (dumps v).toList := by
  rintro b ⟨v',hv',rfl⟩ r r' hr hr' he
  have hm' := mark_same hv hv' he
  rcases begins hv with ⟨c,t,h,-⟩ | ⟨-,hs⟩
  · rw [hm] at h
    cases h
  · rcases begins hv' with ⟨c,t,h,-⟩ | ⟨-,hs'⟩
    · rw [← hm', hm] at h
      cases h
    · have hspan : Delimited Follows {w | scalarWord w} (dumps v).toList :=
        Delimited.span hs.2 (fun r hr => hr) (fun b hb => hb.2)
      exact hspan _ hs' r r' hr hr' he

/-- The word of an entry: its key, a colon and the word of its value. -/
def entryWord (e : String × String) : List Char := (quote e.1).toList ++ ':' :: e.2.toList

def EntryWords : Set (List Char) := {w | ∃ e : String × String, e.2.toList ∈ Words ∧ entryWord e = w}

theorem delimited_quote (k : String) :
    Delimited (fun _ => True) {w | ∃ s : String, (quote s).toList = w} (quote k).toList := by
  rintro b ⟨s,rfl⟩ r r' - - he
  rw [(quote_inj he).1]

theorem delimited_entry {e : String × String} (h : Delimited Follows Words e.2.toList) :
    Delimited Follows EntryWords (entryWord e) := by
  rintro b ⟨e',he',rfl⟩ r r' hr hr' he
  obtain ⟨hk,hv,-⟩ := Delimited.pair (delimited_quote e.1) h ⟨e'.1,rfl⟩ he' hr hr' he
  rw [entryWord, entryWord, hk, hv]

theorem entryWord_inj {e e' : String × String} (h : entryWord e = entryWord e') : e = e' := by
  obtain ⟨hk,hr⟩ := quote_inj h
  exact Prod.ext hk (String.toList_inj.mp (List.cons.inj hr).2)

theorem entry_head {w : List Char} (hw : w ∈ EntryWords) : w.head? ≠ some '\x7d' ∧ w ≠ [] := by
  obtain ⟨e,-,rfl⟩ := hw
  rw [entryWord, toList_quote, List.cons_append]
  exact ⟨by simp,List.cons_ne_nil _ _⟩

theorem mem_sorted {kvs : Obj} {e : String × String} :
    e ∈ sorted kvs ↔ ∃ f ∈ kvs, (f.1,dumps f.2) = e := by
  rw [sorted, List.mem_insertionSort, List.mem_map]

theorem items_inj {xs ys : List Json} {r r' : List Char}
    (hxs : ∀ x ∈ xs, wellFormed x = true ∧ Delimited Follows Words (dumps x).toList)
    (hys : ∀ y ∈ ys, wellFormed y = true)
    (he : separated ',' ']' (xs.map (fun x => (dumps x).toList))++r =
      separated ',' ']' (ys.map (fun x => (dumps x).toList))++r') :
    xs.map (fun x => (dumps x).toList) = ys.map (fun x => (dumps x).toList) := by
  refine (separated_inj (by decide) (follows_cons (by decide)) (follows_cons (by decide))
    (fun b hb => word_head hb (by decide)) ?_ ?_ he).1
  · intro a ha
    obtain ⟨x,hx,rfl⟩ := List.mem_map.mp ha
    exact ⟨⟨x,(hxs x hx).1,rfl⟩,(hxs x hx).2⟩
  · intro b hb
    obtain ⟨y,hy,rfl⟩ := List.mem_map.mp hb
    exact ⟨y,hys y hy,rfl⟩

theorem entries_inj {kvs kvs' : Obj} {r r' : List Char}
    (h : ∀ e ∈ kvs, wellFormed e.2 = true ∧ Delimited Follows Words (dumps e.2).toList)
    (h' : ∀ e ∈ kvs', wellFormed e.2 = true)
    (he : separated ',' '\x7d' ((sorted kvs).map entryWord)++r =
      separated ',' '\x7d' ((sorted kvs').map entryWord)++r') : sorted kvs = sorted kvs' := by
  have hwords := (separated_inj (by decide) (follows_cons (by decide)) (follows_cons (by decide))
    (fun b hb => entry_head hb) ?_ ?_ he).1
  · exact List.map_injective_iff.mpr (fun _ _ => entryWord_inj) hwords
  · intro a ha
    obtain ⟨e,he,rfl⟩ := List.mem_map.mp ha
    obtain ⟨f,hf,rfl⟩ := mem_sorted.mp he
    exact ⟨⟨_,⟨f.2,(h f hf).1,rfl⟩,rfl⟩,delimited_entry (h f hf).2⟩
  · intro b hb
    obtain ⟨e,he,rfl⟩ := List.mem_map.mp hb
    obtain ⟨f,hf,rfl⟩ := mem_sorted.mp he
    exact ⟨_,⟨f.2,h' f hf,rfl⟩,rfl⟩

/-- The text of a value can be read in one way only. -/
theorem delimited_dumps (v : Json) (h : wellFormed v = true) :
    Delimited Follows Words (dumps v).toList := by
  induction v using Json.ind with
  | null => exact delimited_scalar h rfl
  | bool b => exact delimited_scalar h rfl
  | int n => exact delimited_scalar h rfl
  | float r => exact delimited_scalar h rfl
  | str s =>
    rintro b ⟨v',hv',rfl⟩ r r' - - he
    have hm := mark_same h hv' he
    cases v' with
    | str s' => rw [(quote_inj he).1]
    | _ => cases hm
  | arr xs ih =>
    rintro b ⟨v',hv',rfl⟩ r r' - - he
    have hm := mark_same h hv' he
    rw [wellFormed_arr] at h
    cases v' with
    | arr ys =>
      rw [wellFormed_arr] at hv'
      rw [toList_dumps_arr, toList_dumps_arr, List.cons_append, List.cons_append,
        List.cons.injEq] at he
      rw [toList_dumps_arr, toList_dumps_arr,
        items_inj (fun x hx => ⟨h x hx,ih x hx (h x hx)⟩) hv' he.2]
    | _ => cases hm
  | obj kvs ih =>
    rintro b ⟨v',hv',rfl⟩ r r' - - he
    have hm := mark_same h hv' he
    rw [wellFormed_obj] at h
    cases v' with
    | obj kvs' =>
      rw [wellFormed_obj] at hv'
      rw [toList_dumps_obj, toList_dumps_obj, List.cons_append, List.cons_append,
        List.cons.injEq] at he
      rw [toList_dumps_obj, toList_dumps_obj,
        entries_inj (fun e he => ⟨h.2 e he,ih e he (h.2 e he)⟩) hv'.2 he.2]
    | _ => cases hm

/-! ## Fields and entries -/

theorem field_of_mem {o : Obj} {k : String} {v : Json} (hn : (o.map Prod.fst).Nodup)
    (h : (k,v) ∈ o) : Obj.field o k = some v := by
  induction o with
  | nil => cases h
  | cons e o ih =>
    obtain ⟨k',w⟩ := e
    rw [List.map_cons, List.nodup_cons] at hn
    rcases List.mem_cons.mp h with h | h
    · obtain ⟨rfl,rfl⟩ := Prod.mk.inj h
      simp [Obj.field]
    · have hk : k ≠ k' := fun he => hn.1 (List.mem_map.mpr ⟨_,h,he⟩)
      simp only [Obj.field, List.lookup_cons] at ih ⊢
      rw [beq_eq_false_iff_ne.mpr hk]
      exact ih hn.2 h

theorem mem_of_field {o : Obj} {k : String} {v : Json} (h : Obj.field o k = some v) : (k,v) ∈ o := by
  induction o with
  | nil => cases h
  | cons e o ih =>
    obtain ⟨k',w⟩ := e
    simp only [Obj.field, List.lookup_cons] at ih h
    split at h
    · rename_i he
      rw [beq_iff_eq.mp he, ← Option.some.inj h]
      exact List.mem_cons_self
    · exact List.mem_cons_of_mem _ (ih h)

/-! ## What equal texts say -/

theorem mark_of_dumps {v v' : Json} (hv : wellFormed v = true) (hv' : wellFormed v' = true)
    (he : dumps v = dumps v') : mark v = mark v' :=
  mark_same hv hv' (congrArg (fun s => s.toList++[]) he)

theorem str_of_dumps {s : String} {v : Json} (hv : wellFormed v = true)
    (he : dumps (.str s) = dumps v) : v = .str s := by
  have hm := mark_of_dumps rfl hv he
  cases v with
  | str s' =>
    have hq : (quote s).toList++[] = (quote s').toList++[] := congrArg (·.toList++[]) he
    rw [(quote_inj hq).1]
  | _ => cases hm

theorem items_of_dumps {xs ys : List Json} (hx : wellFormed (.arr xs) = true)
    (hy : wellFormed (.arr ys) = true) (he : dumps (.arr xs) = dumps (.arr ys)) :
    xs.map dumps = ys.map dumps := by
  rw [wellFormed_arr] at hx hy
  have hl := congrArg String.toList he
  rw [toList_dumps_arr, toList_dumps_arr, List.cons.injEq] at hl
  have hwords := items_inj (r := []) (fun x h => ⟨hx x h,delimited_dumps x (hx x h)⟩) hy
    (congrArg (·++[]) hl.2)
  have hinj : Function.Injective (List.map String.toList) :=
    List.map_injective_iff.mpr (fun _ _ h => String.toList_injective h)
  apply hinj
  rw [List.map_map, List.map_map]
  exact hwords

/-- Objects with one text have the same entries. -/
theorem entries_of_dumps {kvs kvs' : Obj} (h : wellFormed (.obj kvs) = true)
    (h' : wellFormed (.obj kvs') = true) (he : dumps (.obj kvs) = dumps (.obj kvs')) :
    (kvs.map (fun e => (e.1,dumps e.2))).Perm (kvs'.map (fun e => (e.1,dumps e.2))) := by
  rw [wellFormed_obj] at h h'
  have hl := congrArg String.toList he
  rw [toList_dumps_obj, toList_dumps_obj, List.cons.injEq] at hl
  have hs := entries_inj (r := []) (fun e hm => ⟨h.2 e hm,delimited_dumps e.2 (h.2 e hm)⟩) h'.2
    (congrArg (·++[]) hl.2)
  have hp : (sorted kvs).Perm (kvs.map (fun e => (e.1,dumps e.2))) := List.perm_insertionSort _ _
  rw [hs] at hp
  exact hp.symm.trans (List.perm_insertionSort _ _)

end PdFleet
