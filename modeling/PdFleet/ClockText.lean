import PdFleet.Clock

/-!
# The stored spelling of an instant

An instant written by `_plus_seconds` reads back as itself, and the written
texts are ordered as the instants are.
-/

set_option autoImplicit false

namespace PdFleet

open FixedWidth Gregorian

/-! ## Numerals as the reader reads them -/

theorem parseDigits_add (j k acc : ℕ) (p : List Char) :
    parseDigits (j+k) acc p = (parseDigits j acc p).bind (fun e => parseDigits k e.1 e.2) := by
  induction j generalizing acc p with
  | zero => simp [parseDigits]
  | succ j ih =>
    rw [Nat.succ_add, parseDigits, parseDigits]
    cases digitVal (p.headD nul) with
    | none => rfl
    | some v => exact ih _ _

theorem parseDigits_numeral (k n acc : ℕ) (r : List Char) (h : n < 10^k) :
    parseDigits k acc (numeral k n ++ r) = some (acc*10^k+n, r) := by
  induction k generalizing n r with
  | zero =>
    simp at h
    simp [parseDigits, numeral, h]
  | succ k ih =>
    have hk : n/10 < 10^k := by
      rw [pow_succ] at h
      exact Nat.div_lt_of_lt_mul (by omega)
    rw [parseDigits_add k 1, numeral, List.append_assoc, ih _ _ hk]
    have hd := digitVal_digitChar (n%10) (Nat.mod_lt _ (by decide))
    simp only [Option.bind_some, List.singleton_append, parseDigits, List.headD_cons, hd,
      List.tail_cons]
    show some (10*(acc*10^k+n/10)+n%10, r) = some (acc*10^(k+1)+n, r)
    have hn := Nat.div_add_mod n 10
    congr 2
    rw [pow_succ]
    ring_nf
    omega

theorem digitChar_ne (n : ℕ) (h : n < 10) :
    digitChar n ≠ 'Z' ∧ digitChar n ≠ 'W' ∧ isZoneMark (digitChar n) = false := by
  interval_cases n <;> decide

theorem numeral_digits (k n : ℕ) : ∀ c ∈ numeral k n, ∃ d < 10, c = digitChar d := by
  induction k generalizing n with
  | zero => simp [numeral]
  | succ k ih =>
    intro c hc
    rcases List.mem_append.mp hc with hc | hc
    · exact ih _ c hc
    · exact ⟨n%10,Nat.mod_lt _ (by decide),List.mem_singleton.mp hc⟩

theorem replaceZ_of_notMem {p : List Char} (h : 'Z' ∉ p) : replaceZ p = p := by
  induction p with
  | nil => rfl
  | cons c p ih =>
    rw [List.mem_cons, not_or] at h
    have hp := ih h.2
    rw [replaceZ] at hp ⊢
    rw [List.flatMap_cons, hp, if_neg (Ne.symm h.1), List.singleton_append]

/-! ## The parts of the text -/

def dateText (d : Date) : List Char :=
  numeral 4 d.year ++ ('-' :: numeral 2 d.month) ++ ('-' :: numeral 2 d.day)

def timeText (f : TimeFields) : List Char :=
  numeral 2 f.hour ++ (':' :: numeral 2 f.minute) ++ (':' :: numeral 2 f.second) ++
    ('.' :: numeral 6 f.micro)

def timeOf (r : ℕ) : TimeFields :=
  ⟨r/3600000000, r/60000000%60, r/1000000%60, r%1000000⟩

theorem isoformat_eq (t : ℕ) :
    isoformat t = dateText (dateOf (t/dayMicros)) ++ 'T' :: (timeText (timeOf (t%dayMicros)) ++ ['Z']) := by
  simp [isoformat, dateText, timeText, timeOf]

structure TimeFields.Valid (f : TimeFields) : Prop where
  hour : f.hour < 24
  minute : f.minute < 60
  second : f.second < 60
  micro : f.micro < 1000000

theorem timeOf_valid (r : ℕ) (h : r < dayMicros) : (timeOf r).Valid := by
  unfold dayMicros at h
  constructor <;> simp only [timeOf] <;> omega

theorem micros_timeOf (r : ℕ) : (timeOf r).micros = r := by
  simp only [TimeFields.micros, timeOf]
  omega

theorem dateText_length (d : Date) : (dateText d).length = 10 := by
  simp [dateText, numeral_length]

theorem timeText_length (f : TimeFields) : (timeText f).length = 15 := by
  simp [timeText, numeral_length]

theorem ne_of_mem_numeral {k n : ℕ} {c : Char} (h : c ∈ numeral k n) :
    c ≠ 'Z' ∧ c ≠ 'W' ∧ isZoneMark c = false := by
  obtain ⟨d,hd,rfl⟩ := numeral_digits k n c h
  exact digitChar_ne d hd

theorem notMem_dateText (d : Date) : 'Z' ∉ dateText d := by
  intro h
  simp only [dateText, List.mem_append, List.mem_cons] at h
  rcases h with (h | h | h) | h | h
  · exact (ne_of_mem_numeral h).1 rfl
  · cases h
  · exact (ne_of_mem_numeral h).1 rfl
  · cases h
  · exact (ne_of_mem_numeral h).1 rfl

theorem noMark_timeText (f : TimeFields) : ∀ c ∈ timeText f, isZoneMark c = false := by
  intro c h
  simp only [timeText, List.mem_append, List.mem_cons] at h
  rcases h with ((h | rfl | h) | rfl | h) | rfl | h
  · exact (ne_of_mem_numeral h).2.2
  · rfl
  · exact (ne_of_mem_numeral h).2.2
  · rfl
  · exact (ne_of_mem_numeral h).2.2
  · rfl
  · exact (ne_of_mem_numeral h).2.2

theorem notMem_timeText (f : TimeFields) : 'Z' ∉ timeText f := by
  intro h
  exact absurd (noMark_timeText f _ h) (by decide)

/-! ## Reading the parts -/

def utcText : List Char := ['+','0','0',':','0','0']

theorem replaceZ_isoformat (t : ℕ) :
    replaceZ (isoformat t) =
      dateText (dateOf (t/dayMicros)) ++ 'T' :: (timeText (timeOf (t%dayMicros)) ++ utcText) := by
  have happ : ∀ p q : List Char, replaceZ (p++q) = replaceZ p ++ replaceZ q := by
    intro p q
    simp [replaceZ]
  have hT : ∀ p : List Char, replaceZ ('T' :: p) = 'T' :: replaceZ p := by
    intro p
    simp [replaceZ]
  rw [isoformat_eq, happ, hT, happ, replaceZ_of_notMem (notMem_dateText _),
    replaceZ_of_notMem (notMem_timeText _)]
  rfl

theorem parse_dateText (d : Date) (r : List Char) (len : ℕ)
    (hy : d.year < 10000) (hm : d.month < 100) (hd : d.day < 100) :
    parseIsoformatDate (dateText d ++ r) len = some d := by
  have h₁ := parseDigits_numeral 4 d.year 0 (('-' :: numeral 2 d.month) ++
    ('-' :: numeral 2 d.day) ++ r) hy
  have h₂ := parseDigits_numeral 2 d.month 0 (('-' :: numeral 2 d.day) ++ r) hm
  have h₃ := parseDigits_numeral 2 d.day 0 r hd
  have hw : (numeral 2 d.month ++ ('-' :: (numeral 2 d.day ++ r))).headD nul ≠ 'W' := by
    simp only [numeral, List.nil_append, List.cons_append, List.headD_cons]
    exact (digitChar_ne _ (Nat.mod_lt _ (by decide))).2.1
  simp only [List.append_assoc, List.cons_append, zero_mul, zero_add] at h₁ h₂ h₃
  simp only [parseIsoformatDate, dateText, List.append_assoc, List.cons_append, h₁,
    Option.bind_eq_bind, Option.bind_some, List.headD_cons, List.tail_cons, if_true, hw, if_false, h₂, ne_eq, not_true_eq_false, and_false, h₃]

theorem parseTimeFrom_colon {k i v remaining : ℕ} {sep : Bool} {f : TimeFields}
    {p q : List Char} (hp : parseDigits 2 0 p = some (v, ':' :: q)) (hr : 3 < remaining)
    (hs : i = 0 ∨ sep = true) :
    parseTimeFrom (k+1) i sep f p remaining =
      parseTimeFrom k (i+1) true (f.setNth i v) q (remaining-3) := by
  have hsep : (if i = 0 then True else sep = true) := by
    rcases hs with rfl | rfl <;> simp
  rw [parseTimeFrom]
  simp only [hp, Option.bind_eq_bind, Option.bind_some, List.headD_cons, List.tail_cons,
    if_neg (Nat.not_le.mpr hr), decide_eq_true hsep, decide_true,
    Bool.and_self, if_true]

theorem parseTimeFrom_dot {k i v remaining : ℕ} {sep : Bool} {f : TimeFields}
    {p q : List Char} (hp : parseDigits 2 0 p = some (v, '.' :: q)) (hr : 3 < remaining) :
    parseTimeFrom (k+1) i sep f p remaining =
      parseFraction (f.setNth i v) q (remaining-3) := by
  rw [parseTimeFrom]
  simp only [hp, Option.bind_eq_bind, Option.bind_some, List.headD_cons, List.tail_cons,
    if_neg (Nat.not_le.mpr hr), decide_true, Bool.true_or, if_true]
  simp

theorem parse_timeText (f : TimeFields) (h : f.Valid) :
    parseIsoformatTime (timeText f ++ utcText) = some (f, some 0) := by
  have hpos : (timeText f ++ utcText).findIdx isZoneMark = 15 := by
    rw [List.findIdx_append]
    have hn : (timeText f).findIdx isZoneMark = 15 := by
      rw [← timeText_length f, List.findIdx_eq_length]
      exact noMark_timeText f
    rw [hn, timeText_length]
    rfl
  have hh := h.hour
  have hmi := h.minute
  have hs := h.second
  have h₁ := parseDigits_numeral 2 f.hour 0 ((':' :: numeral 2 f.minute) ++
    (':' :: numeral 2 f.second) ++ ('.' :: numeral 6 f.micro) ++ utcText) (by omega)
  have h₂ := parseDigits_numeral 2 f.minute 0 ((':' :: numeral 2 f.second) ++
    ('.' :: numeral 6 f.micro) ++ utcText) (by omega)
  have h₃ := parseDigits_numeral 2 f.second 0 (('.' :: numeral 6 f.micro) ++ utcText) (by omega)
  have h₄ := parseDigits_numeral 6 f.micro 0 utcText h.micro
  simp only [List.append_assoc, List.cons_append, zero_mul, zero_add] at h₁ h₂ h₃ h₄
  have hp : parseHhMmSsFf (timeText f ++ utcText) 15 = some (f,true) := by
    simp only [parseHhMmSsFf, timeText, List.append_assoc, List.cons_append]
    rw [parseTimeFrom_colon h₁ (by decide) (Or.inl rfl),
      parseTimeFrom_colon h₂ (by decide) (Or.inr rfl), parseTimeFrom_dot h₃ (by decide)]
    simp only [parseFraction, Nat.reduceSub, Nat.min_self, h₄, Option.bind_eq_bind,
      Option.bind_some, Nat.sub_self, pow_zero, mul_one]
    rfl
  have hd : (timeText f ++ utcText).drop 15 = '+' :: ['0','0',':','0','0'] := by
    rw [← timeText_length f, List.drop_left]
    rfl
  have hz : parseHhMmSsFf ['0','0',':','0','0'] 5 = some (⟨0,0,0,0⟩, false) := by decide
  have hlen : ['0','0',':','0','0'].length = 5 := rfl
  have hplus : ('+' = 'Z') = False := by simp
  rw [parseIsoformatTime, hpos]
  simp only [hp, hd, hlen, hz, hplus, if_false, Option.bind_eq_bind, Option.bind_some]
  rfl

theorem findSeparator_text (d : Date) (r : List Char) (h : r.length = 22) :
    findSeparator (dateText d ++ r) = some 10 := by
  have hl : (dateText d ++ r).length = 32 := by rw [List.length_append, dateText_length, h]
  have h4 : (dateText d ++ r).getD 4 nul = '-' := by
    simp [dateText, numeral]
  have h5 : (dateText d ++ r).getD 5 nul ≠ 'W' := by
    have he : (dateText d ++ r).getD 5 nul = digitChar (d.month/10%10) := by
      simp [dateText, numeral]
    rw [he]
    exact (digitChar_ne _ (Nat.mod_lt _ (by decide))).2.1
  simp only [findSeparator, hl, h4, h5, if_true, if_false]
  rfl

theorem day_le_31 {d : Date} (h : d.Valid) : d.day ≤ 31 := by
  refine le_trans h.day_le ?_
  unfold daysInMonth
  have hl := leap_le d.year
  split_ifs <;> omega

theorem maxInstant_day {t : ℕ} (h : t ≤ maxInstant) : t/dayMicros < 3652059 := by
  unfold maxInstant dayMicros at *
  omega

/-- What is written reads back as the same instant. -/
theorem utcInstant_isoformat {t : ℕ} (h : t ≤ maxInstant) :
    utcInstant (String.ofList (isoformat t)) = some t := by
  have hd := dateOf_valid (t/dayMicros)
  have hy : (dateOf (t/dayMicros)).year < 10000 :=
    yearOf_lt _ 10000 (maxInstant_day h) (by decide)
  have hday := day_le_31 hd
  have hm := hd.month_le
  have hr : t%dayMicros < dayMicros := Nat.mod_lt _ (by decide)
  have hf := timeOf_valid _ hr
  have hlen : ('T' :: (timeText (timeOf (t%dayMicros)) ++ utcText)).length = 22 := by
    simp [timeText_length, utcText]
  have hdrop : (dateText (dateOf (t/dayMicros)) ++
      'T' :: (timeText (timeOf (t%dayMicros)) ++ utcText)).drop (10+1) =
        timeText (timeOf (t%dayMicros)) ++ utcText := by
    rw [← List.drop_drop, ← dateText_length (dateOf (t/dayMicros)), List.drop_left]
    rfl
  have hstamp : makeStamp (dateOf (t/dayMicros)) (timeOf (t%dayMicros)) (some 0) =
      some ⟨t, some 0⟩ := by
    rw [makeStamp, if_pos ⟨hd.year_pos,by omega,hd.month_pos,hm,hd.day_pos,hd.day_le,hf.hour,
      hf.minute,hf.second,by decide⟩, count_dateOf, micros_timeOf, Nat.div_add_mod']
  have hparse : fromisoformat (replaceZ (isoformat t)) = some ⟨t, some 0⟩ := by
    rw [replaceZ_isoformat]
    simp only [fromisoformat, List.length_append, dateText_length, hlen,
      findSeparator_text _ _ hlen, Option.bind_eq_bind, Option.bind_some,
      parse_dateText _ _ _ hy (by omega : _ < 100) (by omega : _ < 100), hdrop,
      parse_timeText _ hf, hstamp]
    rfl
  rw [utcInstant, String.toList_ofList, hparse]
  rfl

/-! ## Order -/

theorem numeral_append_lt {w m n : ℕ} {a b : List Char} (hn : n < 10^w)
    (h : m < n ∨ (m = n ∧ a < b)) : numeral w m ++ a < numeral w n ++ b := by
  rcases h with h | ⟨rfl,h⟩
  · exact append_lt_of_lt _ _ (by simp [numeral_length]) (numeral_lt w m n hn h)
  · exact append_lt_of_eq _ h

theorem cons_lt {c : Char} {a b : List Char} (h : a < b) : c :: a < c :: b :=
  List.cons_lt_cons_iff.mpr (Or.inr ⟨rfl,h⟩)

theorem dateText_lt {d e : Date} (hy : e.year < 10000) (hm : e.month < 100)
    (hd : e.day < 100) (h : d.Before e) : dateText d < dateText e := by
  simp only [dateText, List.append_assoc, List.cons_append]
  refine numeral_append_lt hy (h.imp id (fun h => ⟨h.1,cons_lt ?_⟩))
  refine numeral_append_lt hm (h.2.imp id (fun h => ⟨h.1,cons_lt ?_⟩))
  exact numeral_lt 2 _ _ hd h.2

theorem timeText_lt {r s : ℕ} (hs : s < dayMicros) (h : r < s) :
    timeText (timeOf r) < timeText (timeOf s) := by
  unfold dayMicros at hs
  simp only [timeText, timeOf, List.append_assoc, List.cons_append]
  refine numeral_append_lt (by omega) ?_
  rcases Nat.lt_or_ge (r/3600000000) (s/3600000000) with h₁ | h₁
  · exact Or.inl h₁
  refine Or.inr ⟨by omega,cons_lt (numeral_append_lt (by omega) ?_)⟩
  rcases Nat.lt_or_ge (r/60000000%60) (s/60000000%60) with h₂ | h₂
  · exact Or.inl h₂
  refine Or.inr ⟨by omega,cons_lt (numeral_append_lt (by omega) ?_)⟩
  rcases Nat.lt_or_ge (r/1000000%60) (s/1000000%60) with h₃ | h₃
  · exact Or.inl h₃
  exact Or.inr ⟨by omega,cons_lt (numeral_lt 6 _ _ (by omega) (by omega))⟩

/-- Written texts are ordered as their instants. -/
theorem isoformat_lt {t u : ℕ} (hu : u ≤ maxInstant) (h : t < u) :
    isoformat t < isoformat u := by
  have hd := dateOf_valid (u/dayMicros)
  have hm := hd.month_le
  have hday := day_le_31 hd
  rw [isoformat_eq, isoformat_eq]
  have hlen : (dateText (dateOf (t/dayMicros))).length =
      (dateText (dateOf (u/dayMicros))).length := by
    rw [dateText_length, dateText_length]
  rcases Nat.lt_or_ge (t/dayMicros) (u/dayMicros) with hq | hq
  · exact append_lt_of_lt _ _ hlen (dateText_lt (yearOf_lt _ 10000 (maxInstant_day hu) (by decide))
      (by omega) (by omega) (dateOf_before hq))
  · have he : t/dayMicros = u/dayMicros := le_antisymm (Nat.div_le_div_right h.le) hq
    have hr : t%dayMicros < u%dayMicros := by
      have h₁ := Nat.div_add_mod t dayMicros
      have h₂ := Nat.div_add_mod u dayMicros
      rw [he] at h₁
      omega
    rw [he]
    refine append_lt_of_eq _ (cons_lt (append_lt_of_lt _ _ ?_
      (timeText_lt (Nat.mod_lt _ (by decide)) hr)))
    rw [timeText_length, timeText_length]

end PdFleet
