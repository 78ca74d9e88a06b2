import PdFleet.AgentReport
import PdFleet.Lib.Rewrite

/-!
# What redaction does to a text

No redaction adds a slash, and a URL or a path that is redacted takes one away. So texts
whose redactions come back to where they began have neither, and only the redaction of
sensitive assignments is left. A text that says something still does when redacted.
-/

set_option autoImplicit false

namespace PdFleet.Contracts

open Pattern

section

variable {T : PlanTables} {t : List Char}

/-! ## Matches -/

theorem matched_append {t rest : List Char} (h : rest <:+ t) : matched t rest ++ rest = t := by
  obtain ⟨w,rfl⟩ := h
  rw [matched, List.length_append, Nat.add_sub_cancel, List.take_left]

theorem mem_labelsAt {l rest : List Char} (h : (l,rest) ∈ labelsAt T t) : l ++ rest = t := by
  rcases List.mem_append.mp h with h | h
  · cases t with
    | nil => cases h
    | cons q u =>
      dsimp only at h
      split_ifs at h with hq
      · obtain ⟨r,hr,h⟩ := List.mem_filterMap.mp h
        split_ifs at h with hh
        cases h
        exact matched_append (((List.tail_suffix r).trans (rests_suffix hr)).trans
          (List.suffix_cons q u))
      · cases h
  · obtain ⟨r,hr,h⟩ := List.mem_filterMap.mp h
    split_ifs at h with hh
    cases h
    exact matched_append (rests_suffix hr)

theorem assignmentAt_prefix {before : List Char} {a : Assignment}
    (h : assignmentAt T before t = some a) :
    a.before = before ∧ ∃ rest, t = a.label ++ a.separator ++ rest := by
  have hmem := List.mem_of_mem_head? h
  obtain ⟨⟨l,rest⟩,hl,hmem⟩ := List.mem_flatMap.mp hmem
  obtain ⟨rest',hr,ha⟩ := List.mem_filterMap.mp hmem
  obtain ⟨v,-,rfl⟩ := Option.map_eq_some_iff.mp ha
  refine ⟨rfl,rest',?_⟩
  rw [List.append_assoc, matched_append (rests_suffix hr), mem_labelsAt hl]

theorem searchAssignment_prefix {before : List Char} {a : Assignment}
    (h : searchAssignment T before t = some a) :
    ∃ rest, before.reverse ++ t = a.before ++ a.label ++ a.separator ++ rest := by
  induction t generalizing before with
  | nil => cases h
  | cons c t ih =>
    rw [searchAssignment] at h
    split at h
    next b hb =>
      cases h
      split_ifs at hb
      obtain ⟨hbefore,rest,hrest⟩ := assignmentAt_prefix hb
      exact ⟨rest,by rw [hbefore, hrest]; simp only [List.append_assoc]⟩
    next =>
      obtain ⟨rest,hrest⟩ := ih h
      refine ⟨rest,?_⟩
      rw [← hrest, List.reverse_cons, List.append_assoc]
      rfl

theorem flatten_splitLines (line t : List Char) : (splitLines line t).flatten = line.reverse ++ t := by
  fun_induction splitLines line t with
  | case1 => rfl
  | case2 line h => simp
  | case3 line t ih => simp [ih]
  | case4 line c t hc hb ih => simp [ih]
  | case5 line c t hc hb ih => simp [ih]

/-! ## Slashes -/

/-- The slashes of a text. -/
def slashes (t : List Char) : ℕ := t.countP isSlash

theorem noSlash_of_slashes (h : slashes t = 0) : ∀ c ∈ t, isSlash c = false :=
  fun c hc => by simpa using List.countP_eq_zero.mp h c hc

theorem slashes_redacted : slashes redacted = 0 := by decide

theorem mark_mem : '[' ∈ redacted := List.mem_cons_self

theorem slashes_newline (line : List Char) : slashes (newline line) = 0 := by
  refine List.countP_eq_zero.mpr (fun c hc => ?_)
  have hn := List.mem_rtakeWhile_imp hc
  simp only [isNewline, Bool.or_eq_true, decide_eq_true_eq] at hn
  rcases hn with rfl | rfl <;> decide

theorem slashes_redactLine (line : List Char) : slashes (redactLine T line).1 ≤ slashes line := by
  rw [redactLine]
  split
  · exact le_rfl
  next a ha =>
    dsimp only
    split_ifs
    · obtain ⟨rest,hrest⟩ := searchAssignment_prefix ha
      have hline : slashes line = slashes (a.before ++ a.label ++ a.separator) + slashes rest := by
        rw [← List.nil_append line]
        exact (congrArg slashes hrest).trans List.countP_append
      have hnew := slashes_newline line
      have hred := slashes_redacted
      have hsum : slashes (a.before ++ a.label ++ a.separator ++ redacted ++ newline line) =
          slashes (a.before ++ a.label ++ a.separator) + slashes redacted +
            slashes (newline line) := by
        simp only [slashes, List.countP_append]
      omega
    · exact le_rfl

theorem slashes_redactBlockLine (line : List Char) : slashes (redactBlockLine line) ≤ slashes line := by
  rw [redactBlockLine]
  split_ifs
  · exact le_rfl
  · have hred := slashes_redacted
    have hnew := slashes_newline line
    have hlead : slashes (leading (content line)) ≤ slashes line :=
      ((List.takeWhile_sublist _).trans (List.rdropWhile_prefix _ _).sublist).countP_le
    have hsum : slashes (leading (content line) ++ redacted ++ newline line) =
        slashes (leading (content line)) + slashes redacted + slashes (newline line) := by
      simp only [slashes, List.countP_append]
    omega

theorem slashes_redactLines (block : Option ℕ) (lines : List (List Char)) :
    slashes (redactLines T block lines).flatten ≤ slashes lines.flatten := by
  have hcons : ∀ l (ls : List (List Char)), slashes (l :: ls).flatten = slashes l + slashes ls.flatten :=
    fun l ls => List.countP_append
  fun_induction redactLines T block lines with
  | case1 => exact le_rfl
  | case2 keyIndent line lines ho ih =>
    rw [hcons, hcons]
    exact Nat.add_le_add (slashes_redactBlockLine line) ih
  | case3 keyIndent line lines ho ih =>
    rw [hcons, hcons]
    exact Nat.add_le_add (slashes_redactLine line) ih
  | case4 line lines ih =>
    rw [hcons, hcons]
    exact Nat.add_le_add (slashes_redactLine line) ih

theorem whitespaceAt_spec {last : Option Char} {out rest : List Char}
    (h : whitespaceAt T last t = some (out,rest)) :
    rest <:+ t ∧ slashes out + slashes rest ≤ slashes t ∧ ∃ c ∈ out, (!isSpace c) = true := by
  rw [whitespaceAt] at h
  split_ifs at h
  obtain ⟨r,hr,h⟩ := List.mem_flatMap.mp (List.mem_of_mem_head? h)
  obtain ⟨r',hr',h⟩ := List.mem_flatMap.mp h
  obtain ⟨r'',hr'',h⟩ := List.mem_map.mp h
  have hs := rests_suffix hr
  have hs' := (rests_suffix hr').trans hs
  have hs'' := (rests_suffix hr'').trans hs'
  have hcount : slashes (matched t r'') + slashes r'' = slashes t := by
    rw [slashes, slashes, ← List.countP_append, matched_append hs'']
    rfl
  have hcount' : slashes (matched t r) + slashes r = slashes t := by
    rw [slashes, slashes, ← List.countP_append, matched_append hs]
    rfl
  split_ifs at h with hshape
  · cases h
    have hle : slashes rest ≤ slashes r :=
      countP_suffix ((rests_suffix hr'').trans (rests_suffix hr'))
    have hsum : slashes (matched t r ++ ' ' :: redacted) = slashes (matched t r) + slashes redacted :=
      List.countP_append
    have hred := slashes_redacted
    exact ⟨hs'',by omega,'[',List.mem_append_right _ (List.mem_cons_of_mem _ mark_mem),rfl⟩
  · cases h
    have hbare : Takes (fun c => !isSpace c) bareValue :=
      (takes_many1 (fun c hc => by simp_all)).seq_right
    obtain ⟨w,hw,c,hc,hp⟩ := hbare r' rest hr''
    refine ⟨hs'',hcount.le,c,?_,hp⟩
    have hsplit : matched t rest ++ rest = matched t r' ++ w ++ rest := by
      rw [matched_append hs'', List.append_assoc, ← hw, matched_append hs']
    rw [List.append_cancel_right hsplit]
    exact List.mem_append_right _ hc

theorem slashes_redactSecrets (t : List Char) : slashes (redactSecrets t) ≤ slashes t :=
  secretSub.countP_subFrom_le (noSlash_of_slashes slashes_redacted) none 0 t

theorem slashes_redactSensitiveText (t : List Char) : slashes (redactSensitiveText T t) ≤ slashes t :=
  calc
    slashes (redactSensitiveText T t) ≤ slashes (redactWhitespace T (redactAssignments T t)) :=
      slashes_redactSecrets _
    _ ≤ slashes (redactAssignments T t) :=
      countP_subWith_le (fun _ _ _ _ h => ⟨(whitespaceAt_spec h).1,(whitespaceAt_spec h).2.1⟩) none 0 _
    _ ≤ slashes (splitLines [] t).flatten := slashes_redactLines none _
    _ = slashes t := by rw [flatten_splitLines]; rfl

theorem takes_url : Takes isSlash externalUrl :=
  Takes.seq_right (Takes.seq_left (Takes.seq_right (Takes.seq_left (takes_char (by
    intro c hc
    simp only [id, decide_eq_true_eq] at hc
    rw [hc]
    decide)))))

theorem takes_path (T : PlanTables) : Takes isSlash (embeddedPath T).dropped := by
  refine takes_oneOf fun a ha => ?_
  simp only [List.mem_cons, List.not_mem_nil, or_false] at ha
  rcases ha with rfl | rfl | rfl | rfl
  · exact Takes.seq_right (Takes.seq_left (takes_char (fun c hc => hc)))
  · exact Takes.seq_left (takes_char (fun c hc => by simp_all [isSlash]))
  · exact Takes.seq_right (Takes.seq_right (Takes.seq_left (takes_char (fun c hc => hc))))
  · refine Takes.seq_left (Takes.seq_left (takes_char (fun c hc => ?_)))
    rw [show c = '\\' from of_decide_eq_true hc]
    rfl

theorem slashes_urlMark : ∀ c ∈ urlMark.text.toList, isSlash c = false :=
  noSlash_of_slashes (by decide : slashes "[URL REDACTED]".toList = 0)

theorem slashes_pathMark (T : PlanTables) : ∀ c ∈ (embeddedPath T).text.toList, isSlash c = false :=
  noSlash_of_slashes (by decide : slashes "[PATH REDACTED]".toList = 0)

theorem slashes_url_le (t : List Char) : slashes (urlMark.subFrom none 0 t) ≤ slashes t :=
  urlMark.countP_subFrom_le slashes_urlMark none 0 t

theorem slashes_paths_le (t : List Char) : slashes (redactPaths T t) ≤ slashes t :=
  (embeddedPath T).countP_subFrom_le (slashes_pathMark T) none 0 t

theorem slashes_redactReportText (t : List Char) : slashes (redactReportText T t) ≤ slashes t :=
  ((slashes_redactSensitiveText _).trans (slashes_paths_le _)).trans (slashes_url_le t)

/-- Where no slash goes, only the redaction of assignments has done anything. -/
theorem redactReportText_eq (h : slashes t ≤ slashes (redactReportText T t)) :
    redactReportText T t = redactSensitiveText T t := by
  have hpath := slashes_paths_le (T := T) (urlMark.subFrom none 0 t)
  have hrest := slashes_redactSensitiveText (T := T) (redactPaths T (urlMark.subFrom none 0 t))
  have hurl : urlMark.subFrom none 0 t = t :=
    Rule.subFrom_eq_of_countP slashes_urlMark takes_url none ((h.trans hrest).trans hpath)
  rw [hurl] at hrest
  have hsame : redactPaths T t = t := by
    rw [redactReportText, hurl] at h
    exact Rule.subFrom_eq_of_countP (slashes_pathMark T) (takes_path T) none (h.trans hrest)
  rw [redactReportText, hurl, hsame]

/-- A text with no secrets that comes back to itself was left as it is. -/
theorem redactReportText_of_cycle
    (hcycle : redactReportText T (redactReportText T (redactReportText T t)) = t)
    (hkept : redactSensitiveText T (redactReportText T t) = redactReportText T t) :
    redactReportText T t = t := by
  have h₁ := slashes_redactReportText (T := T) t
  have h₂ := slashes_redactReportText (T := T) (redactReportText T t)
  have h₃ := slashes_redactReportText (T := T) (redactReportText T (redactReportText T t))
  rw [hcycle] at h₃
  have hagain : redactReportText T (redactReportText T t) = redactReportText T t :=
    (redactReportText_eq (h₁.trans h₃)).trans hkept
  rw [hagain] at hcycle
  rw [← hagain, hcycle]

/-! ## Texts that say something -/

def isVisible (c : Char) : Bool := !isSpace c

theorem isBlank_eq_false {t : List Char} : isBlank t = false ↔ ∃ c ∈ t, isVisible c = true := by
  simp [isBlank, isVisible]

theorem says_redacted {a b : List Char} : ∃ c ∈ a ++ redacted ++ b, isVisible c = true :=
  ⟨'[',List.mem_append_left _ (List.mem_append_right _ mark_mem),rfl⟩

theorem says_redactLine {line : List Char} (h : ∃ c ∈ line, isVisible c = true) :
    ∃ c ∈ (redactLine T line).1, isVisible c = true := by
  rw [redactLine]
  split
  · exact h
  · dsimp only
    split_ifs
    · exact says_redacted
    · exact h

theorem says_redactBlockLine {line : List Char} (h : ∃ c ∈ line, isVisible c = true) :
    ∃ c ∈ redactBlockLine line, isVisible c = true := by
  rw [redactBlockLine]
  split_ifs
  · exact h
  · exact says_redacted

theorem says_redactLines (block : Option ℕ) {lines : List (List Char)}
    (h : ∃ c ∈ lines.flatten, isVisible c = true) :
    ∃ c ∈ (redactLines T block lines).flatten, isVisible c = true := by
  have hcons : ∀ {l l' : List Char} {ls ls' : List (List Char)},
      (∃ c ∈ (l :: ls).flatten, isVisible c = true) →
      ((∃ c ∈ l, isVisible c = true) → ∃ c ∈ l', isVisible c = true) →
      ((∃ c ∈ ls.flatten, isVisible c = true) → ∃ c ∈ ls'.flatten, isVisible c = true) →
      ∃ c ∈ (l' :: ls').flatten, isVisible c = true := by
    rintro l l' ls ls' ⟨c,hc,hp⟩ hl hls
    rcases List.mem_append.mp hc with hc | hc
    · obtain ⟨d,hd,hq⟩ := hl ⟨c,hc,hp⟩
      exact ⟨d,List.mem_append_left _ hd,hq⟩
    · obtain ⟨d,hd,hq⟩ := hls ⟨c,hc,hp⟩
      exact ⟨d,List.mem_append_right _ hd,hq⟩
  fun_induction redactLines T block lines with
  | case1 => exact h
  | case2 keyIndent line lines ho ih => exact hcons h says_redactBlockLine ih
  | case3 keyIndent line lines ho ih => exact hcons h says_redactLine ih
  | case4 line lines ih => exact hcons h says_redactLine ih

theorem says_rule {r : Rule} (hr : ∃ c ∈ r.text.toList, isVisible c = true)
    (h : ∃ c ∈ t, isVisible c = true) : ∃ c ∈ r.subFrom none 0 t, isVisible c = true :=
  subFrom_keeps hr none (by rwa [List.drop_zero])

theorem says_redactSensitiveText (h : ∃ c ∈ t, isVisible c = true) :
    ∃ c ∈ redactSensitiveText T t, isVisible c = true := by
  refine says_rule ⟨'[',List.mem_cons_self,rfl⟩ ?_
  refine subWith_keeps (fun _ _ _ _ h => (whitespaceAt_spec h).2.2) none ?_
  refine says_redactLines none ?_
  rwa [flatten_splitLines]

theorem says_redactReportText (h : ∃ c ∈ t, isVisible c = true) :
    ∃ c ∈ redactReportText T t, isVisible c = true :=
  says_redactSensitiveText
    (says_rule ⟨'[',(by decide : '[' ∈ "[PATH REDACTED]".toList),rfl⟩
      (says_rule ⟨'[',List.mem_cons_self,rfl⟩ h))

theorem isBlank_redactReportText (h : isBlank t = false) : isBlank (redactReportText T t) = false :=
  isBlank_eq_false.mpr (says_redactReportText (isBlank_eq_false.mp h))

/-! ## Texts without labels -/

/-- Each label and each shape of a secret has one of the words. -/
def tellingWords : List String :=
  ["credential", "secret", "token", "password", "key", "access", "private", "client",
    "authorization", "bearer", "sk-", "gh", "akia"]

/-- The class has a character of every word, and the slashes. -/
structure Telling (p : Char → Bool) : Prop where
  words : ∀ w ∈ tellingWords, ∃ c ∈ w.toList, ∀ d, foldCase d = c → p d = true
  slash : ∀ c, isSlash c = true → p c = true

/-- The characters that a text does not have. -/
def isForeign (l : List Char) (c : Char) : Bool := foldCase c ∉ l || isSlash c

/-- The text lacks a character of each word. -/
def lacksWords (l : List Char) : Bool := tellingWords.all (fun w => w.toList.any (fun c => c ∉ l))

theorem telling_foreign {l : List Char} (h : lacksWords l = true) : Telling (isForeign l) where
  words := by
    intro w hw
    obtain ⟨c,hc,hl⟩ := List.any_eq_true.mp (List.all_eq_true.mp h w hw)
    refine ⟨c,hc,fun d hd => ?_⟩
    rw [isForeign, hd, hl, Bool.true_or]
  slash := fun c hc => by rw [isForeign, hc, Bool.or_true]

section

variable {p : Char → Bool}

theorem Telling.word (h : Telling p) {w : String} (hw : w ∈ tellingWords) :
    Reads p (word foldCase w) := by
  obtain ⟨c,hc,hd⟩ := h.words w hw
  rw [Pattern.word]
  generalize w.toList = l at hc
  induction l with
  | nil => cases hc
  | cons x l ih =>
    rcases List.mem_cons.mp hc with rfl | hc
    · exact Reads.seq_left (reads_char (fun d h => hd d (of_decide_eq_true h)))
    · exact Reads.seq_right (ih hc)

theorem Telling.label (h : Telling p) : Reads p label := by
  refine reads_oneOf fun a ha => ?_
  simp only [List.mem_cons, List.not_mem_nil, or_false] at ha
  rcases ha with rfl | rfl | rfl | rfl | rfl | rfl | rfl | rfl | rfl | rfl
  · exact h.word (by decide)
  · exact h.word (by decide)
  · exact h.word (by decide)
  · exact h.word (by decide)
  · exact Reads.seq_right (Reads.seq_right (h.word (by decide)))
  · exact Reads.seq_left (h.word (by decide))
  · exact Reads.seq_left (h.word (by decide))
  · exact Reads.seq_left (h.word (by decide))
  · exact h.word (by decide)
  · exact h.word (by decide)

theorem Telling.secretValue (h : Telling p) : Reads p secretValue := by
  refine reads_oneOf fun a ha => ?_
  simp only [List.mem_cons, List.not_mem_nil, or_false] at ha
  rcases ha with rfl | rfl | rfl | rfl
  · exact Reads.seq_left (h.word (by decide))
  · exact Reads.seq_left (h.word (by decide))
  · exact Reads.seq_left (h.word (by decide))
  · exact Reads.seq_left (h.word (by decide))

theorem labelsAt_plain (h : Telling p) (ht : ∀ c ∈ t, p c = false) : labelsAt T t = [] := by
  have hnil : ∀ {u : List Char}, u <:+ t → rests Contracts.label u = [] :=
    fun hu => h.label.rests_eq_nil (fun c hc => ht c (hu.subset hc))
  unfold labelsAt
  rw [hnil (List.suffix_refl t)]
  cases t with
  | nil => rfl
  | cons q u =>
    dsimp only
    rw [hnil (List.suffix_cons q u)]
    split_ifs <;> rfl

theorem searchAssignment_plain (h : Telling p) (before : List Char) (ht : ∀ c ∈ t, p c = false) :
    searchAssignment T before t = none := by
  induction t generalizing before with
  | nil => rfl
  | cons c t ih =>
    have hnone : (if before.head?.any (isPlanWord T) then none
        else assignmentAt T before.reverse (c :: t)) = none := by
      rw [assignmentAt, labelsAt_plain h ht]
      exact ite_self _
    rw [searchAssignment, hnone]
    exact ih _ (fun d hd => ht d (List.mem_cons_of_mem c hd))

theorem redactLines_plain (h : Telling p) {lines : List (List Char)}
    (hl : ∀ line ∈ lines, ∀ c ∈ line, p c = false) : redactLines T none lines = lines := by
  induction lines with
  | nil => rfl
  | cons line lines ih =>
    have hline : redactLine T line = (line,none) := by
      rw [redactLine, searchAssignment_plain h [] (hl line List.mem_cons_self)]
    rw [redactLines, hline]
    dsimp only
    rw [ih (fun l hmem => hl l (List.mem_cons_of_mem line hmem))]

/-- A text without a telling character is left as it is. -/
theorem redactReportText_plain (h : Telling p) (ht : ∀ c ∈ t, p c = false) :
    redactReportText T t = t := by
  have hurl : urlMark.subFrom none 0 t = t :=
    Reads.subFrom (takes_url.reads h.slash) none ht
  have hpath : redactPaths T t = t :=
    Reads.subFrom ((takes_path T).reads h.slash) none ht
  have hassign : redactAssignments T t = t := by
    rw [redactAssignments, redactLines_plain h, flatten_splitLines]
    · rfl
    · intro line hl c hc
      refine ht c ?_
      have hflat := List.mem_flatten.mpr ⟨line,hl,hc⟩
      rwa [flatten_splitLines] at hflat
  have hwhite : redactWhitespace T t = t := by
    refine subWith_eq_self none fun last u hu => ?_
    rw [whitespaceAt, h.label.rests_eq_nil (fun c hc => ht c (hu.subset hc))]
    exact ite_self _
  rw [redactReportText, hurl, hpath, redactSensitiveText, hassign, hwhite]
  exact h.secretValue.subFrom none ht

end

/-- A text that lacks a character of each word, and has no slash, is left as it is. -/
theorem redactReportText_foreign {l : List Char} (h : lacksWords l = true)
    (ht : ∀ c ∈ t, isForeign l c = false) : redactReportText T t = t :=
  redactReportText_plain (telling_foreign h) ht

theorem redactReportText_literal (h : (lacksWords t && t.all (fun c => !isForeign t c)) = true) :
    redactReportText T t = t := by
  rw [Bool.and_eq_true, List.all_eq_true] at h
  exact redactReportText_foreign h.1 (fun c hc => by simpa using h.2 c hc)

end

end PdFleet.Contracts
