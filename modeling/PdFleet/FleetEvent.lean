import PdFleet.Clock
import PdFleet.Redact
import PdFleet.Text

/-!
# Event envelopes

The event of the append-only log: a record of ten fields whose values are checked when it
is made, so that an event carries the proof that it passed. What the tables of Unicode say
and the value of a float are parameters.
-/

set_option autoImplicit false

namespace PdFleet.Journal

open Pattern

def MAX_STRING : ℕ := 256
def MAX_COLLECTION : ℕ := 256
def MAX_DEPTH : ℕ := 8
def MAX_PAYLOAD_BYTES : ℕ := 64*1024

structure EventTables extends Tables where
  isWord : Char → Bool
  /-- The value of a float, from its shortest text. -/
  float : String → ℚ

/-- An `EventError` with its text, or an exception of the interpreter that the checks let
through. -/
inductive EventFault where
  | event (msg : String)
  | valueError
  | overflow
  deriving DecidableEq, Repr

def deny (b : Bool) (msg : String) : Except EventFault Unit :=
  if b then .error (.event msg) else .ok ()

@[simp] theorem deny_ok {b : Bool} {msg : String} {u : Unit} :
    deny b msg = .ok u ↔ b = false := by
  cases b <;> simp [deny]

/-! ## The patterns -/

def isControl (c : Char) : Bool := c.toNat < 32 || c.toNat = 127

/-- `_ID`. -/
def isEventId (s : String) : Bool :=
  match s.toList with
  | [] => false
  | c :: t => c.isAlphanum && t.length ≤ 127 &&
      t.all (fun d => d.isAlphanum || d ∈ ['_', '.', ':', '-'])

/-- `_URL`. -/
def urlStart : Pattern :=
  oneOf [seq (word foldCase "http") (seq (opt (word foldCase "s")) (word id "://")),
    seq (word foldCase "ftp") (word id "://"), seq (word foldCase "www") (word id ".")]

/-- `_ABSOLUTE`, at the start of the text. -/
def isAbsolute : List Char → Bool
  | '/' :: _ => true
  | '\\' :: '\\' :: _ => true
  | c :: ':' :: d :: _ => (c.isUpper || c.isLower) && (d = '/' || d = '\\')
  | _ => false

def anyChar : Pattern := char (· ≠ '\n')

def dash : Pattern := opt (char (fun c => c = '_' || c = '-'))

def chainOfThought : Pattern :=
  seq (word foldCase "chain") (seq (opt anyChar) (seq (word foldCase "of")
    (seq (opt anyChar) (word foldCase "thought"))))

def apiKeyDashed : Pattern := seq (word foldCase "api") (seq dash (word foldCase "key"))

def processId : Pattern := seq (word foldCase "process") (seq dash (word foldCase "id"))

/-- `_SENSITIVE`. -/
def sensitiveKey : Pattern :=
  oneOf [word foldCase "secret", word foldCase "token", word foldCase "password",
    word foldCase "passwd", apiKeyDashed, word foldCase "authorization",
    word foldCase "credential", word foldCase "prompt", word foldCase "cot", chainOfThought,
    word foldCase "pid", processId, word foldCase "handle", word foldCase "native",
    word foldCase "socket", word foldCase "url", word foldCase "uri", word foldCase "path"]

section

variable (E : EventTables)

def wordChar (c : Char) : Bool :=
  if c.toNat < 128 then c.isAlphanum || c = '_' else E.isWord c

/-- `\b`, between the character before and the text after. -/
def boundary (last : Option Char) (rest : List Char) : Bool :=
  last.any (wordChar E) ≠ rest.head?.any (wordChar E)

/-- A match of the word `w` between boundaries. -/
def searchWord (w : String) : Option Char → List Char → Bool
  | _, [] => false
  | last, c :: t =>
    (boundary E last (c :: t) &&
      (rests (word foldCase w) (c :: t)).any
        (fun rest => boundary E ((c :: t)[(c :: t).length-rest.length-1]?) rest)) ||
    searchWord w (some c) t

def hasWord (w : String) (text : List Char) : Bool := searchWord E w none text

/-- `_SENSITIVE_VALUE`. -/
def sensitiveValue (text : List Char) : Bool :=
  search (oneOf [word foldCase "secret", word foldCase "password", apiKeyDashed,
    word foldCase "authorization", chainOfThought]) text || hasWord E "cot" text

/-- `_SENSITIVE_FIELD`. -/
def sensitiveField (text : List Char) : Bool :=
  ["token", "password", "passwd", "credential", "authorization", "prompt", "cot", "pid",
    "handle"].any (fun w => hasWord E w text) ||
  search (oneOf [chainOfThought, processId,
    seq (word foldCase "native") (seq dash (word foldCase "handle"))]) text

def digitPattern : Pattern := char (fun c => (E.decimal c).isSome)

def digitsPattern (n : ℕ) : List Pattern := List.replicate n (digitPattern E)

/-- `_TIMESTAMP`. -/
def timestampPattern : Pattern :=
  (digitsPattern E 4++[word id "-"]++digitsPattern E 2++[word id "-"]++digitsPattern E 2++
    [word id "T"]++digitsPattern E 2++[word id ":"]++digitsPattern E 2++[word id ":"]++
    digitsPattern E 2++
    [opt (seq (word id ".") (many1 (fun c => (E.decimal c).isSome))),
      alt (word id "Z") ((char (fun c => c = '+' || c = '-') :: digitsPattern E 2++[word id ":"]++
        digitsPattern E 2).foldr seq empty)]).foldr seq empty

def isTimestamp (text : List Char) : Bool := (rests (timestampPattern E) text).any List.isEmpty

/-! ## The checks -/

/-- `_string`. -/
def checkString (name : String) (identifier : Bool) : Json → Except EventFault Unit
  | .str s => do
    deny (s = "" || MAX_STRING < s.length || s.toList.any isControl)
      (name ++ " deve ser uma string bounded e sem control chars")
    deny (identifier && (!isEventId s || s = "." || s = ".."))
      (name ++ " não é um identificador seguro")
    deny (search urlStart s.toList || isAbsolute s.toList)
      (name ++ " contém URL ou path absoluto")
    deny (sensitiveField E s.toList || (s.toList.any (fun c => c = ':' || c = '=') &&
        (name ≠ "created_at" || !isTimestamp E s.toList)))
      (name ++ " contém texto sensível ou formato inseguro")
  | _ => .error (.event (name ++ " deve ser uma string bounded e sem control chars"))

/-- The first integer that no float is near enough to. -/
def floatLimit : ℕ := 2^1024-2^970

/-- `_number`. -/
def checkNumber (name : String) : Json → Except EventFault Unit
  | .int n =>
    if floatLimit ≤ n.natAbs then .error .overflow
    else deny (n < 0) (name ++ " deve ser finito e não negativo")
  | .float r => deny (E.float r < 0) (name ++ " deve ser finito e não negativo")
  | _ => .error (.event (name ++ " deve ser finito e não negativo"))

/-- `int(text)`, where a `ValueError` goes through. -/
def intOf (text : List Char) : Except EventFault ℤ :=
  match intText E.toTables text with
  | some n => .ok n
  | none => .error .valueError

/-- `_created_at`. -/
def checkCreatedAt (v : Json) : Except EventFault Unit := do
  checkString E "created_at" false v
  match v with
  | .str s =>
    let text := s.toList
    if text.getLast? ≠ some 'Z' then
      let hours ← intOf E ((text.drop (text.length-6)).take (text.length-3-(text.length-6)))
      let minutes ← intOf E (text.drop (text.length-2))
      deny (23 < hours.natAbs || 59 < minutes) "created_at contém um offset inválido"
    deny (fromisoformat (replaceZ text)).isNone "created_at não é um timestamp ISO válido"
  | _ => pure ()

mutual

/-- `_freeze`, which leaves the value as it is. -/
def freeze (depth : ℕ) : Json → Except EventFault Unit
  | .str s =>
    if MAX_DEPTH < depth then .error (.event "payload excede a profundidade máxima")
    else deny (MAX_STRING < s.length || s.toList.any isControl || search urlStart s.toList ||
        isAbsolute s.toList || sensitiveValue E s.toList) "payload contém string proibida"
  | .obj kvs =>
    if MAX_DEPTH < depth then .error (.event "payload excede a profundidade máxima")
    else if MAX_COLLECTION < kvs.length then .error (.event "payload excede o limite de coleção")
    else freezeFields depth kvs
  | .arr xs =>
    if MAX_DEPTH < depth then .error (.event "payload excede a profundidade máxima")
    else if MAX_COLLECTION < xs.length then .error (.event "payload excede o limite de coleção")
    else freezeItems depth xs
  | _ => deny (MAX_DEPTH < depth) "payload excede a profundidade máxima"

def freezeItems (depth : ℕ) : List Json → Except EventFault Unit
  | [] => .ok ()
  | x :: xs => do
    freeze (depth+1) x
    freezeItems depth xs

def freezeFields (depth : ℕ) : List (String × Json) → Except EventFault Unit
  | [] => .ok ()
  | (k,v) :: kvs => do
    deny (MAX_STRING < k.length || k.toList.any isControl || search sensitiveKey k.toList)
      "payload contém chave sensível ou inválida"
    freeze (depth+1) v
    freezeFields depth kvs

end

end

/-! ## Events -/

/-- The fields of the dataclass, as the caller or the file gives them. -/
structure EventFields where
  schemaVersion : Json
  eventId : Json
  runId : Json
  taskId : Json
  kind : Json
  orderingKey : Json
  sequence : Json
  ownerEpoch : Json
  payload : Json
  createdAt : Json

/-- `to_dict`. -/
def EventFields.toDict (f : EventFields) : Obj :=
  [("schema_version",f.schemaVersion), ("event_id",f.eventId), ("run_id",f.runId),
    ("task_id",f.taskId), ("kind",f.kind), ("ordering_key",f.orderingKey),
    ("sequence",f.sequence), ("owner_epoch",f.ownerEpoch), ("payload",f.payload),
    ("created_at",f.createdAt)]

/-- `_canonical`. -/
def canonical (o : Obj) : String := dumps (.obj o)

section

variable (E : EventTables) (iso : String)

/-- `schema_version` is the number one and not a bool. -/
def isVersion : Json → Bool
  | .int n => n = 1
  | .float r => E.float r = 1
  | _ => false

/-- A check of a value that may be missing. -/
def unlessNull (check : Json → Except EventFault Unit) : Json → Except EventFault Unit
  | .null => .ok ()
  | v => check v

/-- `__post_init__`, of fields with a time. -/
def checkEvent (f : EventFields) : Except EventFault Unit := do
  deny (!isVersion E f.schemaVersion) "schema_version incompatível"
  checkString E "event_id" true f.eventId
  checkString E "run_id" true f.runId
  checkString E "kind" false f.kind
  checkString E "ordering_key" false f.orderingKey
  unlessNull (checkString E "task_id" true) f.taskId
  checkNumber E "sequence" f.sequence
  unlessNull (checkNumber E "owner_epoch") f.ownerEpoch
  checkCreatedAt E f.createdAt
  freeze E 0 f.payload
  deny (MAX_PAYLOAD_BYTES < (canonical f.toDict).utf8ByteSize) "evento excede o limite de payload"

/-- An event that was made: its fields passed the checks. -/
structure FleetEvent where
  fields : EventFields
  valid : checkEvent E fields = .ok ()

/-- A missing time is the one of the clock. -/
def EventFields.stamped (f : EventFields) : EventFields :=
  if f.createdAt.truth then f else { f with createdAt := .str iso }

def FleetEvent.make (f : EventFields) : Except EventFault (FleetEvent E) :=
  match h : checkEvent E (f.stamped iso) with
  | .ok () => .ok ⟨f.stamped iso,h⟩
  | .error e => .error e

def eventFields : List String :=
  ["schema_version", "event_id", "run_id", "task_id", "kind", "ordering_key", "sequence",
    "owner_epoch", "payload", "created_at"]

/-- `from_dict`. -/
def FleetEvent.fromDict (o : Obj) : Except EventFault (FleetEvent E) := do
  deny (MAX_COLLECTION < o.length) "payload excede o limite de coleção"
  deny (!o.hasExactly eventFields) "envelope contém campos desconhecidos ou ausentes"
  let get k := (o.field k).getD .null
  FleetEvent.make E iso
    { schemaVersion := get "schema_version", eventId := get "event_id", runId := get "run_id",
      taskId := get "task_id", kind := get "kind", orderingKey := get "ordering_key",
      sequence := get "sequence", ownerEpoch := get "owner_epoch", payload := get "payload",
      createdAt := get "created_at" }

variable {E iso}

theorem checkString_ok {name : String} {identifier : Bool} {v : Json}
    (h : checkString E name identifier v = .ok ()) : ∃ s, v = .str s ∧ s ≠ "" := by
  cases v with
  | str s =>
    refine ⟨s,rfl,?_⟩
    rintro rfl
    cases h
  | _ => cases h

/-- The time of an event is a text that is not empty. -/
theorem createdAt_truth (e : FleetEvent E) : e.fields.createdAt.truth = true := by
  obtain ⟨_,-,h⟩ := ok_of_bind e.valid
  obtain ⟨_,-,h⟩ := ok_of_bind h
  obtain ⟨_,-,h⟩ := ok_of_bind h
  obtain ⟨_,-,h⟩ := ok_of_bind h
  obtain ⟨_,-,h⟩ := ok_of_bind h
  obtain ⟨_,-,h⟩ := ok_of_bind h
  obtain ⟨_,-,h⟩ := ok_of_bind h
  obtain ⟨_,-,h⟩ := ok_of_bind h
  obtain ⟨_,hc,-⟩ := ok_of_bind h
  obtain ⟨_,hs,-⟩ := ok_of_bind hc
  obtain ⟨s,he,hne⟩ := checkString_ok hs
  simp [he, Json.truth, hne]

/-- The fields of an event make it. -/
theorem make_fields (e : FleetEvent E) : FleetEvent.make E iso e.fields = .ok e := by
  have hstamped : e.fields.stamped iso = e.fields := by
    rw [EventFields.stamped, createdAt_truth, if_pos rfl]
  unfold FleetEvent.make
  split
  · obtain ⟨f,hv⟩ := e
    simp only [hstamped]
  · rename_i x h
    rw [hstamped, e.valid] at h
    cases h

/-- Reading what an event was written as makes the same event. -/
theorem fromDict_toDict (e : FleetEvent E) : FleetEvent.fromDict E iso e.fields.toDict = .ok e := by
  have hmake : FleetEvent.make E iso e.fields = .ok e := make_fields e
  exact hmake

end

end PdFleet.Journal
