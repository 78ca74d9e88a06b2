import PdFleet.ClockText

/-!
# The clock texts of reports

A report gives its instants with any offset; the parser writes them in UTC, without a
fraction where there is none. What it writes it reads as the same instant.
-/

set_option autoImplicit false

namespace PdFleet

open FixedWidth Gregorian

/-- The instant of a date and time with an offset, if UTC can show it. -/
def Stamp.utc (s : Stamp) : Option ℕ :=
  s.offset.bind (fun offset =>
    let t : ℤ := s.instant-offset
    if 0 ≤ t ∧ t ≤ maxInstant then some t.toNat else none)

/-- `datetime.fromisoformat(text.replace("Z", "+00:00")).astimezone(timezone.utc)`. -/
def instantOf (text : List Char) : Option ℕ := (fromisoformat (replaceZ text)).bind Stamp.utc

/-- `isoformat().replace("+00:00", "Z")`, of an instant in UTC. -/
def shortFormat (t : ℕ) : List Char :=
  if t%1000000 = 0 then
    dateText (dateOf (t/dayMicros)) ++ 'T' ::
      (numeral 2 (t%dayMicros/3600000000) ++ (':' :: numeral 2 (t%dayMicros/60000000%60)) ++
        (':' :: numeral 2 (t%dayMicros/1000000%60)) ++ ['Z'])
  else isoformat t

def secondText (f : TimeFields) : List Char :=
  numeral 2 f.hour ++ (':' :: numeral 2 f.minute) ++ (':' :: numeral 2 f.second)

theorem secondText_length (f : TimeFields) : (secondText f).length = 8 := by
  simp [secondText, numeral_length]

theorem mem_secondText {f : TimeFields} {c : Char} (h : c ∈ secondText f) :
    c ≠ 'Z' ∧ isZoneMark c = false := by
  simp only [secondText, List.mem_append, List.mem_cons] at h
  rcases h with (h | rfl | h) | rfl | h
  · exact ⟨(ne_of_mem_numeral h).1,(ne_of_mem_numeral h).2.2⟩
  · exact ⟨by decide,by decide⟩
  · exact ⟨(ne_of_mem_numeral h).1,(ne_of_mem_numeral h).2.2⟩
  · exact ⟨by decide,by decide⟩
  · exact ⟨(ne_of_mem_numeral h).1,(ne_of_mem_numeral h).2.2⟩

theorem parse_secondText (f : TimeFields) (h : f.Valid) (hz : f.micro = 0) :
    parseIsoformatTime (secondText f ++ utcText) = some (f, some 0) := by
  have hpos : (secondText f ++ utcText).findIdx isZoneMark = 8 := by
    rw [List.findIdx_append]
    have hn : (secondText f).findIdx isZoneMark = 8 := by
      rw [← secondText_length f, List.findIdx_eq_length]
      exact fun c hc => (mem_secondText hc).2
    rw [hn, secondText_length]
    rfl
  have hh := h.hour
  have hmi := h.minute
  have hs := h.second
  have h₁ := parseDigits_numeral 2 f.hour 0 ((':' :: numeral 2 f.minute) ++
    (':' :: numeral 2 f.second) ++ utcText) (by omega)
  have h₂ := parseDigits_numeral 2 f.minute 0 ((':' :: numeral 2 f.second) ++ utcText) (by omega)
  have h₃ := parseDigits_numeral 2 f.second 0 utcText (by omega)
  simp only [List.append_assoc, List.cons_append, zero_mul, zero_add] at h₁ h₂ h₃
  have hp : parseHhMmSsFf (secondText f ++ utcText) 8 = some (f,true) := by
    simp only [parseHhMmSsFf, secondText, List.append_assoc, List.cons_append]
    rw [parseTimeFrom_colon h₁ (by decide) (Or.inl rfl),
      parseTimeFrom_colon h₂ (by decide) (Or.inr rfl)]
    rw [parseTimeFrom]
    simp only [h₃, Option.bind_eq_bind, Option.bind_some, Nat.reduceSub, if_pos (by decide : 2 ≤ 3)]
    obtain ⟨hour,minute,second,micro⟩ := f
    cases hz
    rfl
  have hd : (secondText f ++ utcText).drop 8 = '+' :: ['0','0',':','0','0'] := by
    rw [← secondText_length f, List.drop_left]
    rfl
  have hzone : parseHhMmSsFf ['0','0',':','0','0'] 5 = some (⟨0,0,0,0⟩, false) := by decide
  have hlen : ['0','0',':','0','0'].length = 5 := rfl
  have hplus : ('+' = 'Z') = False := by simp
  rw [parseIsoformatTime, hpos]
  simp only [hp, hd, hlen, hzone, hplus, if_false, Option.bind_eq_bind, Option.bind_some]
  rfl

theorem notMem_secondText (f : TimeFields) : 'Z' ∉ secondText f :=
  fun h => (mem_secondText h).1 rfl

theorem findSeparator_short (d : Date) (r : List Char) (h : r.length = 15) :
    findSeparator (dateText d ++ r) = some 10 := by
  have hl : (dateText d ++ r).length = 25 := by rw [List.length_append, dateText_length, h]
  have h4 : (dateText d ++ r).getD 4 nul = '-' := by
    simp [dateText, numeral]
  have h5 : (dateText d ++ r).getD 5 nul ≠ 'W' := by
    have he : (dateText d ++ r).getD 5 nul = digitChar (d.month/10%10) := by
      simp [dateText, numeral]
    rw [he]
    exact (digitChar_ne _ (Nat.mod_lt _ (by decide))).2.1
  simp only [findSeparator, hl, h4, h5, if_true, if_false]
  rfl

theorem shortFormat_whole {t : ℕ} (h : t%1000000 = 0) : shortFormat t =
    dateText (dateOf (t/dayMicros)) ++ 'T' :: (secondText (timeOf (t%dayMicros)) ++ ['Z']) := by
  rw [shortFormat, if_pos h]
  rfl

theorem replaceZ_whole {t : ℕ} (h : t%1000000 = 0) : replaceZ (shortFormat t) =
    dateText (dateOf (t/dayMicros)) ++ 'T' :: (secondText (timeOf (t%dayMicros)) ++ utcText) := by
  have happ : ∀ p q : List Char, replaceZ (p++q) = replaceZ p ++ replaceZ q := by
    intro p q
    simp [replaceZ]
  have hT : ∀ p : List Char, replaceZ ('T' :: p) = 'T' :: replaceZ p := by
    intro p
    simp [replaceZ]
  rw [shortFormat_whole h, happ, hT, happ, replaceZ_of_notMem (notMem_dateText _),
    replaceZ_of_notMem (notMem_secondText _)]
  rfl

theorem fromisoformat_whole {t : ℕ} (h : t ≤ maxInstant) (hz : t%1000000 = 0) :
    fromisoformat (replaceZ (shortFormat t)) = some ⟨t,some 0⟩ := by
  have hd := dateOf_valid (t/dayMicros)
  have hy : (dateOf (t/dayMicros)).year < 10000 :=
    yearOf_lt _ 10000 (maxInstant_day h) (by decide)
  have hday := day_le_31 hd
  have hm := hd.month_le
  have hr : t%dayMicros < dayMicros := Nat.mod_lt _ (by decide)
  have hf := timeOf_valid _ hr
  have hmicro : (timeOf (t%dayMicros)).micro = 0 := by
    show t%dayMicros%1000000 = 0
    unfold dayMicros
    omega
  have hlen : ('T' :: (secondText (timeOf (t%dayMicros)) ++ utcText)).length = 15 := by
    simp [secondText_length, utcText]
  have hdrop : (dateText (dateOf (t/dayMicros)) ++
      'T' :: (secondText (timeOf (t%dayMicros)) ++ utcText)).drop (10+1) =
        secondText (timeOf (t%dayMicros)) ++ utcText := by
    rw [← List.drop_drop, ← dateText_length (dateOf (t/dayMicros)), List.drop_left]
    rfl
  have hstamp : makeStamp (dateOf (t/dayMicros)) (timeOf (t%dayMicros)) (some 0) =
      some ⟨t, some 0⟩ := by
    rw [makeStamp, if_pos ⟨hd.year_pos,by omega,hd.month_pos,hm,hd.day_pos,hd.day_le,hf.hour,
      hf.minute,hf.second,by decide⟩, count_dateOf, micros_timeOf, Nat.div_add_mod']
  rw [replaceZ_whole hz]
  simp only [fromisoformat, List.length_append, dateText_length, hlen,
    findSeparator_short _ _ hlen, Option.bind_eq_bind, Option.bind_some,
    parse_dateText _ _ _ hy (by omega : _ < 100) (by omega : _ < 100), hdrop,
    parse_secondText _ hf hmicro, hstamp]
  rfl

theorem utc_self {t : ℕ} (h : t ≤ maxInstant) : Stamp.utc ⟨t,some 0⟩ = some t := by
  have hle : (0 : ℤ) ≤ (t : ℤ)-0 ∧ (t : ℤ)-0 ≤ maxInstant := by omega
  rw [Stamp.utc, Option.bind_some, if_pos hle, sub_zero, Int.toNat_natCast]

/-- What is written in UTC reads back as the same instant. -/
theorem instantOf_shortFormat {t : ℕ} (h : t ≤ maxInstant) : instantOf (shortFormat t) = some t := by
  by_cases hz : t%1000000 = 0
  · rw [instantOf, fromisoformat_whole h hz, Option.bind_some, utc_self h]
  · have hread := utcInstant_isoformat h
    rw [utcInstant, String.toList_ofList] at hread
    rw [shortFormat, if_neg hz, instantOf]
    split at hread
    · rename_i u hu
      rw [hu, Option.bind_some, Option.some.inj hread, utc_self h]
    · cases hread

/-- A clock text is of digits and of five marks. -/
theorem forall_mem_shortFormat {p : Char → Prop} (t : ℕ) (hdigit : ∀ n < 10, p (digitChar n))
    (hmark : ∀ c ∈ ['-', 'T', ':', '.', 'Z'], p c) : ∀ c ∈ shortFormat t, p c := by
  have hn : ∀ k n, ∀ c ∈ numeral k n, p c := by
    intro k n c hc
    obtain ⟨d,hd,rfl⟩ := numeral_digits k n c hc
    exact hdigit d hd
  simp only [List.forall_mem_cons, List.not_mem_nil, false_implies, implies_true, and_true] at hmark
  obtain ⟨hdash,hT,hcolon,hdot,hZ⟩ := hmark
  have hdate : ∀ c ∈ dateText (dateOf (t/dayMicros)), p c := by
    simp only [dateText, List.forall_mem_append, List.forall_mem_cons]
    exact ⟨⟨hn _ _,hdash,hn _ _⟩,hdash,hn _ _⟩
  rw [shortFormat]
  split_ifs
  · simp only [List.forall_mem_append, List.forall_mem_cons, List.not_mem_nil, false_implies,
      implies_true, and_true]
    exact ⟨hdate,hT,⟨⟨hn _ _,hcolon,hn _ _⟩,hcolon,hn _ _⟩,hZ⟩
  · simp only [isoformat, List.forall_mem_append, List.forall_mem_cons, List.not_mem_nil,
      false_implies, implies_true, and_true]
    exact ⟨⟨⟨hn _ _,hdash,hn _ _⟩,hdash,hn _ _⟩,hT,⟨⟨⟨hn _ _,hcolon,hn _ _⟩,hcolon,hn _ _⟩,
      hdot,hn _ _⟩,hZ⟩

theorem le_of_instantOf {text : List Char} {t : ℕ} (h : instantOf text = some t) :
    t ≤ maxInstant := by
  obtain ⟨s,-,h⟩ := Option.bind_eq_some_iff.mp h
  obtain ⟨offset,-,h⟩ := Option.bind_eq_some_iff.mp h
  dsimp only at h
  split_ifs at h with hle
  cases h
  omega

end PdFleet
