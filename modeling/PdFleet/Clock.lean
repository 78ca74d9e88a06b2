import PdFleet.Json
import PdFleet.Lib.FixedWidth
import PdFleet.Lib.Gregorian

/-!
# Clock values

`datetime.fromisoformat` as CPython 3.11 and later read a date and time, and
the two functions of the run store over it. An instant counts microseconds
from the first of January of year one. A character beyond the end of the text
reads as NUL, as it does in the reader's buffer.
-/

set_option autoImplicit false

namespace PdFleet

open FixedWidth Gregorian

def nul : Char := '\x00'

/-- `parse_digits`: exactly `k` ASCII digits. -/
def parseDigits : ℕ → ℕ → List Char → Option (ℕ × List Char)
  | 0, acc, p => some (acc,p)
  | k+1, acc, p => do
    let v ← digitVal (p.headD nul)
    parseDigits k (10*acc+v) p.tail

structure TimeFields where
  hour : ℕ
  minute : ℕ
  second : ℕ
  micro : ℕ
  deriving DecidableEq, Repr

/-- Microseconds of a time read with no further checks. -/
def TimeFields.micros (f : TimeFields) : ℕ :=
  ((f.hour*60+f.minute)*60+f.second)*1000000+f.micro

def TimeFields.setNth (f : TimeFields) : ℕ → ℕ → TimeFields
  | 0, v => { f with hour := v }
  | 1, v => { f with minute := v }
  | _, v => { f with second := v }

/-- The fraction digits: six are read, further ones are skipped. The flag says
that something is left after them. -/
def parseFraction (f : TimeFields) (p : List Char) (remaining : ℕ) :
    Option (TimeFields × Bool) := do
  let k := min remaining 6
  let (v,p) ← parseDigits k 0 p
  let rest := p.dropWhile (fun c => (digitVal c).isSome)
  some ({ f with micro := v*10^(6-k) }, rest.headD nul ≠ nul)

/-- `parse_hh_mm_ss_ff`: `remaining` characters belong to the time, `p` is
all that follows, and the flag says that an odd character ends the time. -/
def parseTimeFrom : ℕ → ℕ → Bool → TimeFields → List Char → ℕ → Option (TimeFields × Bool)
  | 0, _, _, f, p, remaining => parseFraction f p remaining
  | k+1, i, sep, f, p, remaining => do
    let (v,p) ← parseDigits 2 0 p
    let f := f.setNth i v
    let c := p.headD nul
    let sep := if i = 0 then c = ':' else sep
    if remaining ≤ 3 then some (f, c ≠ nul)
    else if sep && c = ':' then parseTimeFrom k (i+1) sep f p.tail (remaining-3)
    else if c = '.' || c = ',' then parseFraction f p.tail (remaining-3)
    else if !sep then parseTimeFrom k (i+1) sep f p (remaining-2)
    else none

def parseHhMmSsFf (p : List Char) (remaining : ℕ) : Option (TimeFields × Bool) :=
  parseTimeFrom 3 0 true ⟨0,0,0,0⟩ p remaining

def isZoneMark (c : Char) : Bool := c = '+' || c = '-' || c = 'Z'

/-- `parse_isoformat_time`: the time and, if the text has a zone, its offset in
microseconds. An offset of no whole second is the zone UTC. -/
def parseIsoformatTime (p : List Char) : Option (TimeFields × Option ℤ) := do
  let pos := p.findIdx isZoneMark
  let (f,odd) ← parseHhMmSsFf p pos
  match p.drop pos with
  | [] => if odd then none else some (f, none)
  | mark :: zone =>
    if mark = 'Z' then (if zone.headD nul ≠ nul then none else some (f, some 0))
    else do
      let (z,odd) ← parseHhMmSsFf zone zone.length
      if odd then none
      else if { z with micro := 0 }.micros = 0 then some (f, some 0)
      else some (f, some (if mark = '-' then -(z.micros : ℤ) else z.micros))

/-- `_find_isoformat_datetime_separator`. -/
def findSeparator (p : List Char) : Option ℕ :=
  let at' := fun i => p.getD i nul
  let digitAt := fun i => (digitVal (at' i)).isSome
  if p.length = 7 then some 7
  else if at' 4 = '-' then
    if at' 5 = 'W' then
      if p.length > 8 ∧ at' 8 = '-' then
        if p.length = 9 then none
        else if p.length > 10 ∧ digitAt 10 then some 8 else some 10
      else some 8
    else some 10
  else if at' 4 = 'W' then
    let pos := 7+((p.drop 7).takeWhile (fun c => (digitVal c).isSome)).length
    if pos < 9 then some pos else if pos%2 = 0 then some 7 else some 8
  else some 8

def weekday (y : ℕ) : ℕ := daysBeforeYear y%7

/-- `iso_to_ymd`: the date of a day of an ISO week. -/
def isoToYmd (y week day : ℕ) : Option Date :=
  if y < 1 ∨ 9999 < y then none
  else if (week = 0 ∨ 53 ≤ week) ∧
      ¬ (week = 53 ∧ (weekday y = 3 ∨ (weekday y = 2 ∧ isLeap y))) then none
  else if day = 0 ∨ 8 ≤ day then none
  else
    let monday := daysBeforeYear y-weekday y+(if weekday y > 3 then 7 else 0)
    some (dateOf (monday+(week-1)*7+day-1))

/-- `parse_isoformat_date` of the first `len` characters of the text `p`. -/
def parseIsoformatDate (p : List Char) (len : ℕ) : Option Date := do
  let (year,p) ← parseDigits 4 0 p
  let sep := p.headD nul = '-'
  let p := if sep then p.tail else p
  if p.headD nul = 'W' then
    let (week,p) ← parseDigits 2 0 p.tail
    if (if sep then 8 else 7) < len then
      if sep ∧ p.headD nul ≠ '-' then none
      else
        let (day,_) ← parseDigits 1 0 (if sep then p.tail else p)
        isoToYmd year week day
    else isoToYmd year week 1
  else
    let (month,p) ← parseDigits 2 0 p
    if sep ∧ p.headD nul ≠ '-' then none
    else
      let (day,_) ← parseDigits 2 0 (if sep then p.tail else p)
      some ⟨year,month,day⟩

/-- An aware or naive date and time; `offset` is the zone's, in microseconds. -/
structure Stamp where
  instant : ℕ
  offset : Option ℤ
  deriving DecidableEq, Repr

def dayMicros : ℕ := 86400000000

/-- The checks of the `datetime` and `timezone` constructors. -/
def makeStamp (t : Date) (f : TimeFields) (offset : Option ℤ) : Option Stamp :=
  if 1 ≤ t.year ∧ t.year ≤ 9999 ∧ 1 ≤ t.month ∧ t.month ≤ 12 ∧ 1 ≤ t.day ∧
      t.day ≤ daysInMonth (leap t.year) t.month ∧
      f.hour < 24 ∧ f.minute < 60 ∧ f.second < 60 ∧ (offset.getD 0).natAbs < dayMicros then
    some ⟨t.count*dayMicros+f.micros, offset⟩
  else none

def fromisoformat (p : List Char) : Option Stamp := do
  if p.length < 7 then none
  else
    let pos ← findSeparator p
    let t ← parseIsoformatDate p pos
    if p.length-pos > 1 then
      let (f,offset) ← parseIsoformatTime (p.drop (pos+1))
      makeStamp t f offset
    else makeStamp t ⟨0,0,0,0⟩ none

/-- `value.replace("Z", "+00:00")`. -/
def replaceZ (p : List Char) : List Char :=
  p.flatMap (fun c => if c = 'Z' then ['+','0','0',':','0','0'] else [c])

/-- The instant of a text that names a date and time with offset zero. -/
def utcInstant (value : String) : Option ℕ :=
  match fromisoformat (replaceZ value.toList) with
  | some ⟨t, some 0⟩ => some t
  | _ => none

/-- `_clock_value`, of the value that the clock returned. -/
def clockValue (value : Json) : Except PyError String :=
  match value with
  | .str s =>
    if (utcInstant s).isSome then .ok s
    else .error (.runStore "clock must return an ISO-8601 UTC string")
  | _ => .error (.runStore "clock must return an ISO-8601 UTC string")

def isClock (value : Json) : Bool :=
  match clockValue value with
  | .ok _ => true
  | .error _ => false

/-! ## Durations and the stored spelling -/

/-- A lease duration as the caller gives it. -/
inductive Seconds where
  | int (n : ℤ)
  | float (q : ℚ)
  | nonFinite
  | other

def Seconds.positive : Seconds → Bool
  | .int n => 0 < n
  | .float q => 0 < q
  | _ => false

def roundHalfEven (x : ℚ) : ℤ :=
  let f := ⌊x⌋
  if x-f < 1/2 then f else if 1/2 < x-f then f+1 else if f%2 = 0 then f else f+1

/-- `timedelta(seconds=seconds)` in microseconds. -/
def Seconds.micros : Seconds → ℕ
  | .int n => (n*1000000).toNat
  | .float q => (roundHalfEven (q*1000000)).toNat
  | _ => 0

def maxInstant : ℕ := 3652059*dayMicros-1

/-- `isoformat(timespec="microseconds").replace("+00:00", "Z")` of an instant. -/
def isoformat (t : ℕ) : List Char :=
  let d := dateOf (t/dayMicros)
  let r := t%dayMicros
  (numeral 4 d.year ++ ('-' :: numeral 2 d.month) ++ ('-' :: numeral 2 d.day)) ++ 'T' ::
    (numeral 2 (r/3600000000) ++ (':' :: numeral 2 (r/60000000%60)) ++
      (':' :: numeral 2 (r/1000000%60)) ++ ('.' :: numeral 6 (r%1000000)) ++ ['Z'])

/-- `_plus_seconds`. -/
def plusSeconds (value : String) (seconds : Seconds) : Except PyError String :=
  if !seconds.positive then .error (.lease "lease duration must be positive")
  else match utcInstant value with
    | none => .error (.runStore "invalid clock")
    | some t =>
      if t+seconds.micros ≤ maxInstant then .ok (String.ofList (isoformat (t+seconds.micros)))
      else .error .overflow

end PdFleet
