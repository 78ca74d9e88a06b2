import PdFleet.FleetEvent

/-!
# The append-only event log

A log is the lines of its file, each with its size and with what the parser makes of it.
The reader has budgets for the file, for each line and for the number of lines. The
writer knows the last two of them.
-/

set_option autoImplicit false

namespace PdFleet.Journal

def MAX_EVENTS : ℕ := 10000
def MAX_QUERY : ℕ := 1000
def MAX_LOG_BYTES : ℕ := 4*1024*1024
def MAX_LOG_LINE_BYTES : ℕ := MAX_PAYLOAD_BYTES+1024

/-- A line of the file: its bytes with the newline, if there is one, and the JSON value
that it holds, if it holds one. -/
structure Line where
  bytes : ℕ
  terminated : Bool
  content : Option Json

/-- A file that does not exist has no lines. -/
abbrev LogFile := List Line

def LogFile.bytes (f : LogFile) : ℕ := (f.map Line.bytes).sum

structure EventLog where
  runId : String
  /-- `null` where the log has no owner. -/
  ownerEpoch : Json

variable (E : EventTables) (iso : String)

def number : Json → ℚ
  | .int n => n
  | .float r => E.float r
  | _ => 0

/-- `==`, of two numbers or of a number and `None`. -/
def sameNumber : Json → Json → Bool
  | .null, .null => true
  | .null, _ | _, .null => false
  | a, b => number E a = number E b

def text : Json → String
  | .str s => s
  | _ => ""

def FleetEvent.eventId {E : EventTables} (e : FleetEvent E) : String := text e.fields.eventId

def FleetEvent.canonical {E : EventTables} (e : FleetEvent E) : String :=
  Journal.canonical e.fields.toDict

/-- What is written of an event: its fields and their checksum. -/
def FleetEvent.record {E : EventTables} (e : FleetEvent E) : Obj :=
  e.fields.toDict.put "checksum" (.str (sha256Hex e.canonical))

def FleetEvent.line {E : EventTables} (e : FleetEvent E) : Line :=
  ⟨(Journal.canonical e.record).utf8ByteSize+1,true,some (.obj e.record)⟩

/-! ## Reading -/

def readLine (l : Line) : Except EventFault (FleetEvent E × String) := do
  match l.content with
  | some (.obj record) =>
    let record : Obj := record
    deny (!record.hasExactly (eventFields++["checksum"])) "registro contém campos desconhecidos"
    let body := record.without ["checksum"]
    deny (!(record.field "checksum").any (·.isStr (sha256Hex (Journal.canonical body))))
      "checksum inválido"
    let event ← FleetEvent.fromDict E iso body
    return (event,Journal.canonical body)
  | some _ => .error (.event "registro contém campos desconhecidos")
  | none => .error (.event "registro de evento inválido")

/-- The loop of `_records`: how many lines it may still read, and the bytes read. -/
def readLines : ℕ → ℕ → LogFile → Except EventFault (List (FleetEvent E × String))
  | 0, _, _ => .error (.event "log excede o limite de eventos")
  | _+1, _, [] => .ok []
  | fuel+1, consumed, l :: ls => do
    deny (MAX_LOG_BYTES < consumed+l.bytes || MAX_LOG_LINE_BYTES < l.bytes || !l.terminated)
      "log contém linha parcial ou grande demais"
    let record ← readLine E iso l
    let records ← readLines fuel (consumed+l.bytes) ls
    return record :: records

/-- `_records`. -/
def records (f : LogFile) : Except EventFault (List (FleetEvent E × String)) := do
  deny (MAX_LOG_BYTES < f.bytes) "log excede o limite de bytes"
  readLines E iso (MAX_EVENTS+1) 0 f

/-! ## Writing -/

/-- The record that ends the search of `append`: one of the same id or sequence. -/
def clash (e : FleetEvent E) (r : FleetEvent E × String) : Bool :=
  r.1.eventId = e.eventId || sameNumber E r.1.fields.sequence e.fields.sequence

/-- `append`. -/
def append (log : EventLog) (e : FleetEvent E) (f : LogFile) :
    Except EventFault (FleetEvent E × LogFile) := do
  deny (!e.fields.runId.isStr log.runId ||
      (!(log.ownerEpoch matches .null) && !sameNumber E e.fields.ownerEpoch log.ownerEpoch))
    "evento stale ou fora da ownership"
  let known ← records E iso f
  match known.find? (clash E e) with
  | some r =>
    if r.1.eventId = e.eventId then
      if r.2 = e.canonical then return (r.1,f)
      else .error (.event "colisão de event_id")
    else .error (.event "sequence duplicada")
  | none =>
    deny (known.getLast?.any (fun r => number E e.fields.sequence ≤ number E r.1.fields.sequence))
      "sequence deve ser monotônica"
    deny (MAX_EVENTS ≤ known.length || MAX_LOG_LINE_BYTES < e.line.bytes) "append excede limites"
    return (e,f++[e.line])

/-- Appends that all return, one after the other. -/
def appendAll (log : EventLog) : List (FleetEvent E) → LogFile → Except EventFault LogFile
  | [], f => .ok f
  | e :: es, f => do
    let (_,g) ← append E iso log e f
    appendAll log es g

/-! ## Queries -/

def checkLimit (limit : ℤ) : Except EventFault Unit :=
  deny (limit < 1 || MAX_QUERY < limit) "limit fora dos limites"

/-- `replay`. -/
def replay (limit : ℤ) (f : LogFile) : Except EventFault (List (FleetEvent E)) := do
  checkLimit limit
  let known ← records E iso f
  return (known.take limit.toNat).map Prod.fst

/-- The order of a query: by ordering key and then by sequence. -/
def notAfter (a b : FleetEvent E) : Prop :=
  text a.fields.orderingKey < text b.fields.orderingKey ∨
    text a.fields.orderingKey = text b.fields.orderingKey ∧
      number E a.fields.sequence ≤ number E b.fields.sequence

instance : DecidableRel (notAfter E) := fun _ _ => inferInstanceAs (Decidable (_ ∨ _))

def selects (orderingKey taskId : Option String) (e : FleetEvent E) : Bool :=
  orderingKey.all (fun k => e.fields.orderingKey.isStr k) &&
    taskId.all (fun t => e.fields.taskId.isStr t)

def checkFilter (orderingKey taskId : Option String) : Except EventFault Unit := do
  match orderingKey with
  | some k => checkString E "ordering_key" false (.str k)
  | none => pure ()
  match taskId with
  | some t => checkString E "task_id" true (.str t)
  | none => pure ()

/-- `query`. -/
def query (orderingKey taskId : Option String) (limit : ℤ) (f : LogFile) :
    Except EventFault (List (FleetEvent E)) := do
  checkLimit limit
  checkFilter E orderingKey taskId
  let known ← records E iso f
  let events := (known.map Prod.fst).filter (selects E orderingKey taskId)
  return (events.insertionSort (notAfter E)).take limit.toNat

/-! ## What a report on a log checks -/

/-- What a report on a log raises: the error of one of its own checks, or what reading the
log or the store lets through. -/
inductive ReportFault where
  | valueError (msg : String)
  | overflow
  | event (e : EventFault)
  | store (e : PyError)
  deriving DecidableEq, Repr

def refuse (b : Bool) (msg : String) : Except ReportFault Unit :=
  if b then .error (.valueError msg) else .ok ()

/-- A sequence number in a report: missing, or finite and not negative. -/
def checkReported (msg : String) : Json → Except ReportFault Unit
  | .null => .ok ()
  | .int n => if floatLimit ≤ n.natAbs then .error .overflow else refuse (n < 0) msg
  | .float r => refuse (E.float r < 0) msg
  | _ => .error (.valueError msg)

variable {E}

theorem refuse_ok {b : Bool} {msg : String} {u : Unit} : refuse b msg = .ok u ↔ b = false := by
  cases b <;> simp [refuse]

theorem sequence_checked (e : FleetEvent E) :
    checkNumber E "sequence" e.fields.sequence = .ok () := by
  obtain ⟨_,-,h⟩ := ok_of_bind e.valid
  obtain ⟨_,-,h⟩ := ok_of_bind h
  obtain ⟨_,-,h⟩ := ok_of_bind h
  obtain ⟨_,-,h⟩ := ok_of_bind h
  obtain ⟨_,-,h⟩ := ok_of_bind h
  obtain ⟨_,-,h⟩ := ok_of_bind h
  obtain ⟨_,hs,-⟩ := ok_of_bind h
  exact hs

theorem sequence_ne_null (e : FleetEvent E) : e.fields.sequence ≠ .null := by
  intro h
  have hc := sequence_checked e
  rw [h] at hc
  cases hc

/-- The number of an event may stand in a report. -/
theorem checkReported_of_checkNumber {v : Json} {name msg : String}
    (h : checkNumber E name v = .ok ()) : checkReported E msg v = .ok () := by
  cases v with
  | int n =>
    rw [checkNumber] at h
    split_ifs at h with hbig
    rw [deny_ok] at h
    rw [checkReported, if_neg hbig, refuse_ok]
    exact h
  | float r =>
    rw [checkNumber, deny_ok] at h
    rw [checkReported, refuse_ok]
    exact h
  | _ => cases h

end PdFleet.Journal
