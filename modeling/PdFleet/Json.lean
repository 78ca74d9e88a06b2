import PdFleet.Lib.Sha256

/-!
# JSON values, their canonical text and the exceptions of the package

A `float` carries the shortest decimal text of a finite float, which is what
the serializer stores and the parser reads back. An object is an association
list read with its first match; the order of its keys carries no meaning.
-/

set_option autoImplicit false

namespace PdFleet

/-- Membership of a word in a list of words is decided with this equality. -/
instance wordLawfulBEq : LawfulBEq (List Char) := inferInstance

inductive Json where
  | null
  | bool (b : Bool)
  | int (n : ℤ)
  | float (repr : String)
  | str (s : String)
  | arr (xs : List Json)
  | obj (kvs : List (String × Json))
  deriving Repr

abbrev Obj := List (String × Json)

/-- Induction with the claim about the values of a list or of an object. -/
@[elab_as_elim]
theorem Json.ind {P : Json → Prop} (null : P .null) (bool : ∀ b, P (.bool b))
    (int : ∀ n, P (.int n)) (float : ∀ r, P (.float r)) (str : ∀ s, P (.str s))
    (arr : ∀ xs, (∀ x ∈ xs, P x) → P (.arr xs))
    (obj : ∀ kvs : Obj, (∀ e ∈ kvs, P e.2) → P (.obj kvs)) (v : Json) : P v := by
  refine @Json.rec P (fun xs => ∀ x ∈ xs, P x) (fun kvs => ∀ e ∈ kvs, P e.2) (fun e => P e.2)
    null bool int float str arr obj ?_ ?_ ?_ ?_ ?_ v
  · exact fun x hx => absurd hx List.not_mem_nil
  · exact fun x xs hx hxs y hy => (List.mem_cons.mp hy).elim (fun h => h ▸ hx) (hxs y)
  · exact fun e he => absurd he List.not_mem_nil
  · exact fun e kvs he hkvs e' he' => (List.mem_cons.mp he').elim (fun h => h ▸ he) (hkvs e')
  · exact fun k v hv => hv

/-- The exception classes of the run store and the scheduler, with their
messages, and the built-in ones that their code can let through. -/
inductive PyError where
  | runStore (msg : String)
  | runNotFound (msg : String)
  | ownerMismatch (msg : String)
  | generationConflict (msg : String)
  | lease (msg : String)
  | duplicateCommit (msg : String)
  | pathContainment (msg : String)
  | corruptSnapshot (msg : String)
  | scheduler (msg : String)
  | ownershipConflict (msg : String)
  | capacityExceeded (msg : String)
  | osError
  | jsonDecode
  | typeError
  | attributeError
  | keyError
  | valueError
  | overflow
  deriving DecidableEq, Repr

namespace PyError

/-- `str(exc)` of the package's own exceptions, all subclasses of `RunStoreError`. -/
def runStoreText : PyError → Option String
  | .runStore m | .runNotFound m | .ownerMismatch m | .generationConflict m | .lease m
  | .duplicateCommit m | .pathContainment m | .corruptSnapshot m | .scheduler m
  | .ownershipConflict m | .capacityExceeded m => some m
  | _ => none

end PyError

theorem ok_of_bind {ε α β : Type} {x : Except ε α} {f : α → Except ε β} {b : β}
    (h : (x >>= f) = .ok b) : ∃ a, x = .ok a ∧ f a = .ok b := by
  cases x with
  | error e => cases h
  | ok a => exact ⟨a,rfl,h⟩

theorem error_of_bind {ε α β : Type} {x : Except ε α} {f : α → Except ε β} {e : ε}
    (h : (x >>= f) = .error e) : x = .error e ∨ ∃ a, x = .ok a ∧ f a = .error e := by
  cases x with
  | error e' =>
    cases h
    exact Or.inl rfl
  | ok a => exact Or.inr ⟨a,rfl,h⟩

theorem error_of_mapM {ε α β : Type} {f : α → Except ε β} {l : List α} {e : ε}
    (h : l.mapM f = .error e) : ∃ a ∈ l, f a = .error e := by
  induction l with
  | nil => cases h
  | cons a l ih =>
    rw [List.mapM_cons] at h
    rcases error_of_bind h with h | ⟨b,-,h⟩
    · exact ⟨a,List.mem_cons_self,h⟩
    · rcases error_of_bind h with h | ⟨bs,-,h⟩
      · obtain ⟨a',ha',h⟩ := ih h
        exact ⟨a',List.mem_cons_of_mem _ ha',h⟩
      · cases h

theorem mapM_ok {α β ε : Type} {f : α → Except ε β} {l : List α} {l' : List β} :
    l.mapM f = .ok l' ↔ List.Forall₂ (fun a b => f a = .ok b) l l' := by
  induction l generalizing l' with
  | nil =>
    simp only [List.mapM_nil, pure, Except.pure, Except.ok.injEq, List.forall₂_nil_left_iff]
    exact eq_comm
  | cons a l ih =>
    rw [List.mapM_cons]
    cases ha : f a with
    | error e => simp [bind,Except.bind,List.forall₂_cons_left_iff,ha]
    | ok b =>
      cases hl : l.mapM f with
      | error e =>
        simp only [bind, Except.bind, List.forall₂_cons_left_iff, ha, Except.ok.injEq]
        constructor
        · intro h; cases h
        · rintro ⟨b',u,-,hu,-⟩
          simp [ih.mpr hu] at hl
      | ok bs =>
        simp only [bind, Except.bind, pure, Except.pure, Except.ok.injEq,
          List.forall₂_cons_left_iff, ha]
        constructor
        · rintro rfl
          exact ⟨b,bs,rfl,ih.mp hl,rfl⟩
        · rintro ⟨b',u,rfl,hu,rfl⟩
          have := ih.mpr hu
          simp_all

namespace Obj

def field (o : Obj) (k : String) : Option Json := o.lookup k

def has (o : Obj) (k : String) : Bool := (field o k).isSome

def put : Obj → String → Json → Obj
  | [], k, v => [(k,v)]
  | e :: o, k, v => if e.1 = k then (k,v) :: o else e :: put o k v

def putDefault (o : Obj) (k : String) (v : Json) : Obj := if has o k then o else put o k v

def without (o : Obj) (ks : List String) : Obj := o.filter (fun e => e.1 ∉ ks)

/-- `set(o) == set(ks)`. -/
def hasExactly (o : Obj) (ks : List String) : Bool :=
  ks.all (has o) && o.all (fun e => e.1 ∈ ks)

@[simp] theorem field_put_self (o : Obj) (k : String) (v : Json) :
    field (put o k v) k = some v := by
  induction o with
  | nil => simp [put, field]
  | cons e o ih =>
    by_cases h : e.1 = k
    · simp [put, field, h]
    · have hk : (k == e.1) = false := by simpa using Ne.symm h
      obtain ⟨k', w⟩ := e
      simp only [put, h, if_false, field, List.lookup_cons] at *
      simpa [hk] using ih

theorem field_put_ne (o : Obj) (k k' : String) (v : Json) (h : k' ≠ k) :
    field (put o k v) k' = field o k' := by
  induction o with
  | nil => simp [put, field, h]
  | cons e o ih =>
    obtain ⟨a, w⟩ := e
    by_cases ha : a = k
    · subst ha
      simp [put, field, List.lookup_cons, beq_eq_false_iff_ne.mpr h]
    · simp only [put, ha, if_false, field, List.lookup_cons] at *
      rw [ih]

theorem field_putDefault_ne (o : Obj) (k k' : String) (v : Json) (h : k' ≠ k) :
    field (putDefault o k v) k' = field o k' := by
  unfold putDefault
  split
  · rfl
  · exact field_put_ne o k k' v h

theorem field_putDefault_self (o : Obj) (k : String) (v : Json) :
    field (putDefault o k v) k = some ((field o k).getD v) := by
  unfold putDefault has
  cases h : field o k with
  | none => simp
  | some w => simp [h]

end Obj

namespace Json

/-- `hash(value)` succeeds: lists and dicts are unhashable. -/
def hashable : Json → Bool
  | .arr _ | .obj _ => false
  | _ => true

def isStr (v : Json) (s : String) : Bool :=
  match v with
  | .str t => t = s
  | _ => false

def isText : Json → Bool
  | .str _ => true
  | _ => false

def isDict : Json → Bool
  | .obj _ => true
  | _ => false

/-- `isinstance(value, (dict, list))`. -/
def isContainer : Json → Bool
  | .obj _ | .arr _ => true
  | _ => false

/-- `type(value) is int and value >= low`. -/
def isIntFrom (low : ℤ) : Json → Bool
  | .int n => low ≤ n
  | _ => false

/-- `value not in (None, "", [], {})`. -/
def present : Json → Bool
  | .null => false
  | .str s => s ≠ ""
  | .arr xs => !xs.isEmpty
  | .obj kvs => !kvs.isEmpty
  | _ => true

/-- `bool(value)`. -/
def truth : Json → Bool
  | .null => false
  | .bool b => b
  | .int n => n ≠ 0
  | .float r => r ≠ "0.0" ∧ r ≠ "-0.0"
  | .str s => s ≠ ""
  | .arr xs => !xs.isEmpty
  | .obj kvs => !kvs.isEmpty

/-- Membership of a value in a set of strings, which hashes the value first. -/
def inSet (v : Json) (names : List String) : Except PyError Bool :=
  match v with
  | .str s => .ok (s ∈ names)
  | .arr _ | .obj _ => .error .typeError
  | _ => .ok false

/-- Iteration over a value: the items of a list, the keys of a dict, the
characters of a string. -/
def iter : Json → Except PyError (List Json)
  | .arr xs => .ok xs
  | .obj kvs => .ok (kvs.map (fun e => .str e.1))
  | .str s => .ok (s.toList.map (fun c => .str (String.singleton c)))
  | _ => .error .typeError

def items : Json → Except PyError Obj
  | .obj kvs => .ok kvs
  | _ => .error .attributeError

end Json

/-! ## The canonical text -/

def hexUnit (n : ℕ) : String :=
  String.ofList ['\\', 'u', '0', '0', Sha256.hexDigit (n/16%16), Sha256.hexDigit (n%16)]

def escapeChar (c : Char) : String :=
  if c = '"' then "\\\"" else if c = '\\' then "\\\\" else if c = '\n' then "\\n"
  else if c = '\r' then "\\r" else if c = '\t' then "\\t" else if c = '\x0c' then "\\f"
  else if c = '\x08' then "\\b" else if c.toNat < 32 then hexUnit c.toNat
  else String.singleton c

def quote (s : String) : String := "\"" ++ String.join (s.toList.map escapeChar) ++ "\""

def dumpsField (e : String × String) : String := quote e.1 ++ ":" ++ e.2

mutual

/-- `json.dumps(value, sort_keys=True, ensure_ascii=False, separators=(",", ":"))`. -/
def dumps : Json → String
  | .null => "null"
  | .bool true => "true"
  | .bool false => "false"
  | .int n => toString n
  | .float r => r
  | .str s => quote s
  | .arr xs => "[" ++ ",".intercalate (dumpsItems xs) ++ "]"
  | .obj kvs => "\x7b" ++ ",".intercalate
      (((dumpsFields kvs).insertionSort (fun e e' => e.1 ≤ e'.1)).map dumpsField) ++ "\x7d"

def dumpsItems : List Json → List String
  | [] => []
  | x :: xs => dumps x :: dumpsItems xs

def dumpsFields : List (String × Json) → List (String × String)
  | [] => []
  | (k,v) :: kvs => (k, dumps v) :: dumpsFields kvs

end

/-! ## The size of the canonical text -/

theorem size_intercalate {l : List String} (h : l ≠ []) :
    (",".intercalate l).utf8ByteSize+1 = (l.map (fun s => s.utf8ByteSize+1)).sum := by
  induction l with
  | nil => exact absurd rfl h
  | cons s l ih =>
    cases l with
    | nil => simp [String.intercalate_singleton]
    | cons t l =>
      have ih := ih (by simp)
      have hc : ",".utf8ByteSize = 1 := by decide
      rw [String.intercalate_cons_cons, String.utf8ByteSize_append, String.utf8ByteSize_append,
        List.map_cons, List.sum_cons, ← ih]
      omega

theorem size_dumps_arr {xs : List Json} (h : xs ≠ []) :
    (dumps (.arr xs)).utf8ByteSize = 1+(xs.map (fun x => (dumps x).utf8ByteSize+1)).sum := by
  have hitems : dumpsItems xs = xs.map dumps := by
    clear h
    induction xs with
    | nil => rfl
    | cons x xs ih => rw [dumpsItems, ih, List.map_cons]
  have hne : xs.map dumps ≠ [] := by simpa using h
  have hsize := size_intercalate hne
  have h1 : "[".utf8ByteSize = 1 := by decide
  have h2 : "]".utf8ByteSize = 1 := by decide
  rw [dumps, hitems, String.utf8ByteSize_append, String.utf8ByteSize_append]
  rw [List.map_map] at hsize
  simp only [Function.comp_def] at hsize
  omega

theorem size_dumps_obj {kvs : List (String × Json)} (h : kvs ≠ []) :
    (dumps (.obj kvs)).utf8ByteSize =
      1+(kvs.map (fun e => (quote e.1).utf8ByteSize+(dumps e.2).utf8ByteSize+2)).sum := by
  have hfields : dumpsFields kvs = kvs.map (fun e => (e.1,dumps e.2)) := by
    clear h
    induction kvs with
    | nil => rfl
    | cons e kvs ih => rw [dumpsFields, ih, List.map_cons]
  have hperm := List.perm_insertionSort (fun e e' : String × String => e.1 ≤ e'.1) (dumpsFields kvs)
  have hne : ((dumpsFields kvs).insertionSort (fun e e' => e.1 ≤ e'.1)).map dumpsField ≠ [] := by
    intro he
    rw [List.map_eq_nil_iff] at he
    rw [he, hfields] at hperm
    simp at hperm
    exact h hperm
  have hsize := size_intercalate hne
  rw [List.map_map, (hperm.map _).sum_eq, hfields, List.map_map] at hsize
  have h1 : "\x7b".utf8ByteSize = 1 := by decide
  have h2 : "\x7d".utf8ByteSize = 1 := by decide
  have h3 : ":".utf8ByteSize = 1 := by decide
  rw [dumps, hfields, String.utf8ByteSize_append, String.utf8ByteSize_append]
  simp only [Function.comp_def, dumpsField, String.utf8ByteSize_append, h3] at hsize
  have hadd : ∀ e : String × Json, (quote e.1).utf8ByteSize+1+(dumps e.2).utf8ByteSize+1 =
      (quote e.1).utf8ByteSize+(dumps e.2).utf8ByteSize+2 := fun e => by omega
  simp only [hadd] at hsize
  omega
theorem size_quote {s : String} (h : ∀ c ∈ s.toList, (escapeChar c).utf8ByteSize = 1) :
    (quote s).utf8ByteSize = s.toList.length+2 := by
  have hjoin : (String.join (s.toList.map escapeChar)).utf8ByteSize = s.toList.length := by
    generalize s.toList = t at h
    induction t with
    | nil => rfl
    | cons c t ih =>
      have hrest := ih (fun d hd => h d (List.mem_cons_of_mem c hd))
      rw [List.map_cons, String.join_cons, String.utf8ByteSize_append, hrest,
        h c List.mem_cons_self, List.length_cons]
      exact Nat.add_comm 1 _
  have hmark : "\"".utf8ByteSize = 1 := by decide
  rw [quote, String.utf8ByteSize_append, String.utf8ByteSize_append, hjoin, hmark]
  omega

/-! ## Digests -/

/-- `hashlib.sha256(text.encode()).hexdigest()`. -/
def sha256Hex (text : String) : String := String.ofList (Sha256.hexdigest text.toUTF8.toList)

/-- `re.fullmatch(r"[0-9a-f]{64}", text)`. -/
def isHex64 (text : String) : Bool := text.toList.length = 64 ∧ text.toList.all Sha256.isHexDigit

theorem sha256_hex64 (text : String) : isHex64 (sha256Hex text) = true := by
  have hc := Sha256.hexdigest_class text.toUTF8.toList
  simp only [isHex64, sha256Hex, String.toList_ofList, Sha256.hexdigest_length, true_and,
    List.all_eq_true, decide_eq_true_eq]
  exact hc

theorem size_escape_hex {c : Char} (h : Sha256.isHexDigit c = true) :
    (escapeChar c).utf8ByteSize = 1 := by
  have hc : (48 ≤ c.toNat ∧ c.toNat ≤ 57) ∨ (97 ≤ c.toNat ∧ c.toNat ≤ 102) := by
    simpa [Sha256.isHexDigit, Char.le_def, UInt32.le_iff_toNat_le] using h
  rw [← Char.ofNat_toNat c]
  generalize c.toNat = n at hc
  rcases hc with ⟨hlo,hhi⟩ | ⟨hlo,hhi⟩ <;> interval_cases n <;> decide

theorem size_sha256Hex (text : String) : (quote (sha256Hex text)).utf8ByteSize = 66 := by
  have hx := sha256_hex64 text
  simp only [isHex64, decide_eq_true_eq, List.all_eq_true] at hx
  rw [size_quote (fun c hc => size_escape_hex (hx.2 c hc)), hx.1]

end PdFleet
