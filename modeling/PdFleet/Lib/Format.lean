import Mathlib

/-!
# Format strings

A format string is literal text with replacement fields between braces; a doubled brace
stands for a brace. A field has a name, in which brackets may hide the characters that
end it, and perhaps a conversion and a specification with braces of its own. What a
field becomes is a parameter.
-/

set_option autoImplicit false

namespace Format

inductive Piece where
  | char (c : Char)
  /-- A doubled brace. -/
  | brace (c : Char)
  | field (source : List Char)
  deriving DecidableEq

/-- The text that a piece is read from. -/
def Piece.source : Piece → List Char
  | char c => [c]
  | brace c => [c,c]
  | field source => '{'::source++['}']

/-- Where the reader is; within a field, with the source that it has read. -/
inductive Mode where
  | text
  | opened
  | closed
  | name (source : List Char)
  | item (source : List Char)
  | conversion (source : List Char)
  | converted (source : List Char)
  | spec (depth : ℕ) (source : List Char)
  deriving DecidableEq

def nameStep (source : List Char) (c : Char) : Option (List Piece × Mode) :=
  if c = '{' then none
  else if c = '}' then some ([.field source],.text)
  else if c = '[' then some ([],.item (source++[c]))
  else if c = ':' then some ([],.spec 0 (source++[c]))
  else if c = '!' then some ([],.conversion (source++[c]))
  else some ([],.name (source++[c]))

/-- The pieces that the next character completes. -/
def step : Mode → Char → Option (List Piece × Mode)
  | .text, c =>
    if c = '{' then some ([],.opened) else if c = '}' then some ([],.closed)
    else some ([.char c],.text)
  | .opened, c => if c = '{' then some ([.brace c],.text) else nameStep [] c
  | .closed, c => if c = '}' then some ([.brace c],.text) else none
  | .name source, c => nameStep source c
  | .item source, c =>
    if c = ']' then some ([],.name (source++[c])) else some ([],.item (source++[c]))
  | .conversion source, c => some ([],.converted (source++[c]))
  | .converted source, c =>
    if c = '}' then some ([.field source],.text)
    else if c = ':' then some ([],.spec 0 (source++[c])) else none
  | .spec depth source, c =>
    if c = '{' then some ([],.spec (depth+1) (source++[c]))
    else if c = '}' then
      match depth with
      | 0 => some ([.field source],.text)
      | depth+1 => some ([],.spec depth (source++[c]))
    else some ([],.spec depth (source++[c]))

/-- The pieces of a text, if it is a format string. -/
def scan : Mode → List Char → Option (List Piece)
  | m, [] => if m = .text then some [] else none
  | m, c :: t =>
    match step m c with
    | none => none
    | some (ps,m) => (scan m t).map (ps++·)

section

variable {ε : Type}

def Piece.expand (f : List Char → Except ε (List Char)) : Piece → Except ε (List Char)
  | char c => .ok [c]
  | brace c => .ok [c]
  | field source => f source

def expandAll (f : List Char → Except ε (List Char)) : List Piece → Except ε (List Char)
  | [] => .ok []
  | p :: ps => do
    let r ← p.expand f
    let rs ← expandAll f ps
    return r++rs

/-- The text that a format string becomes; each field as the reader comes to it. -/
def formatFrom (bad : ε) (f : List Char → Except ε (List Char)) :
    Mode → List Char → Except ε (List Char)
  | m, [] => if m = .text then .ok [] else .error bad
  | m, c :: t =>
    match step m c with
    | none => .error bad
    | some (ps,m) => do
      let r ← expandAll f ps
      let rs ← formatFrom bad f m t
      return r++rs

def format (bad : ε) (f : List Char → Except ε (List Char)) (t : List Char) :
    Except ε (List Char) := formatFrom bad f .text t

end

/-! ## Reading loses nothing -/

/-- What the reader has taken in without completing a piece. -/
def Mode.pending : Mode → List Char
  | text => []
  | opened => ['{']
  | closed => ['}']
  | name source | item source | conversion source | converted source | spec _ source =>
    '{'::source

theorem nameStep_source {source : List Char} {c : Char} {ps : List Piece} {m : Mode}
    (h : nameStep source c = some (ps,m)) :
    '{'::source++[c] = ps.flatMap Piece.source++m.pending := by
  unfold nameStep at h
  split_ifs at h with h₁ h₂ <;> cases h <;> simp [Piece.source,Mode.pending]
  exact h₂

theorem step_source {m m' : Mode} {c : Char} {ps : List Piece} (h : step m c = some (ps,m')) :
    m.pending++[c] = ps.flatMap Piece.source++m'.pending := by
  cases m with
  | text =>
    simp only [step] at h
    split_ifs at h with h₁ h₂ <;> cases h <;> simp_all [Piece.source,Mode.pending]
  | opened =>
    simp only [step] at h
    split_ifs at h with h₁
    · cases h
      simp [Piece.source,Mode.pending,h₁]
    · exact nameStep_source h
  | closed =>
    simp only [step] at h
    split_ifs at h with h₁
    cases h
    simp [Piece.source,Mode.pending,h₁]
  | name source => exact nameStep_source h
  | item source =>
    simp only [step] at h
    split_ifs at h <;> cases h <;> simp [Mode.pending]
  | conversion source =>
    cases h
    simp [Mode.pending]
  | converted source =>
    simp only [step] at h
    split_ifs at h with h₁ <;> cases h <;> simp [Piece.source,Mode.pending]
    exact h₁
  | spec depth source =>
    simp only [step] at h
    split_ifs at h with h₁ h₂
    · cases h
      simp [Mode.pending]
    · cases depth <;> cases h <;> simp [Piece.source,Mode.pending]
      exact h₂
    · cases h
      simp [Mode.pending]

/-- The pieces of a format string, in their own spelling, are the text. -/
theorem scan_source {m : Mode} {t : List Char} {ps : List Piece} (h : scan m t = some ps) :
    m.pending++t = ps.flatMap Piece.source := by
  induction t generalizing m ps with
  | nil =>
    unfold scan at h
    split_ifs at h with hm
    cases h
    simp [hm,Mode.pending]
  | cons c t ih =>
    unfold scan at h
    cases hs : step m c with
    | none => simp [hs] at h
    | some e =>
      obtain ⟨qs,m'⟩ := e
      simp only [hs, Option.map_eq_some_iff] at h
      obtain ⟨rest,hrest,rfl⟩ := h
      have hstep := step_source hs
      have hih := ih hrest
      rw [List.flatMap_append, ← hih, ← List.append_assoc, ← hstep]
      simp

theorem scan_cons {m : Mode} {c : Char} {t : List Char} {ps : List Piece} :
    scan m (c :: t) = some ps ↔
      ∃ qs m' rest, step m c = some (qs,m') ∧ scan m' t = some rest ∧ ps = qs++rest := by
  rw [scan]
  cases h : step m c with
  | none => simp
  | some e =>
    obtain ⟨qs,m'⟩ := e
    simp only [Option.map_eq_some_iff, Option.some.injEq, Prod.mk.injEq]
    constructor
    · rintro ⟨rest,hrest,rfl⟩
      exact ⟨qs,m',rest,⟨rfl,rfl⟩,hrest,rfl⟩
    · rintro ⟨_,_,rest,⟨rfl,rfl⟩,hrest,rfl⟩
      exact ⟨rest,hrest,rfl⟩

/-! ## What a format string becomes -/

section

variable {ε : Type} {bad : ε} {f : List Char → Except ε (List Char)}

theorem expandAll_append (ps qs : List Piece) (r : List Char) :
    expandAll f (ps++qs) = .ok r ↔
      ∃ x y, expandAll f ps = .ok x ∧ expandAll f qs = .ok y ∧ r = x++y := by
  induction ps generalizing r with
  | nil => simp [expandAll]
  | cons p ps ih =>
    rw [List.cons_append, expandAll, expandAll]
    cases p.expand f with
    | error e => simp [bind,Except.bind]
    | ok a =>
      constructor
      · intro h
        cases hrest : expandAll f (ps++qs) with
        | error e => simp [hrest,bind,Except.bind] at h
        | ok rest =>
          obtain ⟨x,y,hx,hy,rfl⟩ := (ih rest).mp hrest
          simp only [hrest, bind, Except.bind, pure, Except.pure, Except.ok.injEq] at h
          exact ⟨a++x,y,by simp [hx,bind,Except.bind,pure,Except.pure],hy,by simp [← h]⟩
      · rintro ⟨x,y,hx,hy,rfl⟩
        cases hps : expandAll f ps with
        | error e => simp [hps,bind,Except.bind] at hx
        | ok x' =>
          simp only [hps, bind, Except.bind, pure, Except.pure, Except.ok.injEq] at hx
          have hrest := (ih (x'++y)).mpr ⟨x',y,hps,hy,rfl⟩
          simp [hrest,bind,Except.bind,pure,Except.pure,← hx]

theorem formatFrom_ok {m : Mode} {t r : List Char} :
    formatFrom bad f m t = .ok r ↔ ∃ ps, scan m t = some ps ∧ expandAll f ps = .ok r := by
  induction t generalizing m r with
  | nil =>
    rw [formatFrom, scan]
    by_cases hm : m = .text <;> simp [hm,expandAll]
  | cons c t ih =>
    rw [formatFrom]
    simp only [scan_cons]
    cases h : step m c with
    | none => simp
    | some e =>
      obtain ⟨qs,m'⟩ := e
      constructor
      · intro hf
        cases hq : expandAll f qs with
        | error e => simp [hq,bind,Except.bind] at hf
        | ok x =>
          cases ht : formatFrom bad f m' t with
          | error e => simp [hq,ht,bind,Except.bind] at hf
          | ok y =>
            simp only [hq, ht, bind, Except.bind, pure, Except.pure, Except.ok.injEq] at hf
            obtain ⟨rest,hrest,hy⟩ := ih.mp ht
            exact ⟨qs++rest,⟨qs,m',rest,rfl,hrest,rfl⟩,
              (expandAll_append qs rest r).mpr ⟨x,y,hq,hy,hf.symm⟩⟩
      · rintro ⟨ps,⟨qs',m'',rest,hs,hrest,rfl⟩,hr⟩
        cases hs
        obtain ⟨x,y,hx,hy,rfl⟩ := (expandAll_append qs rest r).mp hr
        simp [hx,ih.mpr ⟨rest,hrest,hy⟩,bind,Except.bind,pure,Except.pure]

/-- A field of one name becomes what the name stands for. -/
theorem format_name {c : Char} {name r : List Char}
    (h : ∀ d ∈ c :: name, d ∉ ['{','}','[',':','!']) (hf : f (c :: name) = .ok r) :
    format bad f ('{' :: c :: name++['}']) = .ok r := by
  have hrun : ∀ (source rest : List Char), (∀ d ∈ rest, d ∉ ['{','}','[',':','!']) →
      scan (.name source) (rest++['}']) = some [.field (source++rest)] := by
    intro source rest
    induction rest generalizing source with
    | nil => simp [scan,step,nameStep]
    | cons d rest ih =>
      intro hrest
      have hd := hrest d (by simp)
      simp only [List.mem_cons, List.not_mem_nil, or_false, not_or] at hd
      rw [List.cons_append, scan]
      simp [step,nameStep,hd,ih (source++[d]) (fun e he => hrest e (by simp [he]))]
  have hc := h c (by simp)
  simp only [List.mem_cons, List.not_mem_nil, or_false, not_or] at hc
  have hscan : scan .text ('{' :: c :: name++['}']) = some [.field (c :: name)] := by
    rw [List.cons_append, List.cons_append, scan]
    simp [scan,step,nameStep,hc,hrun [c] name (fun d hd => h d (by simp [hd]))]
  rw [format, formatFrom_ok]
  exact ⟨_,hscan,by simp [expandAll,Piece.expand,hf,bind,Except.bind,pure,Except.pure]⟩

/-! ## Texts that stay as they are -/

/-- A text without braces. -/
def Plain (t : List Char) : Prop := ∀ c ∈ t, c ≠ '{' ∧ c ≠ '}'

theorem scan_plain {t : List Char} (h : Plain t) : scan .text t = some (t.map .char) := by
  induction t with
  | nil => rfl
  | cons c t ih =>
    have hc := h c (by simp)
    rw [scan]
    simp [step,hc.1,hc.2,ih (fun d hd => h d (by simp [hd]))]

theorem expandAll_chars (t : List Char) : expandAll f (t.map .char) = .ok t := by
  induction t with
  | nil => rfl
  | cons c t ih => simp [expandAll,Piece.expand,ih,bind,Except.bind,pure,Except.pure]

/-- A character of literal text is no brace. -/
theorem step_char {m m' : Mode} {c d : Char} {ps : List Piece} (h : step m c = some (ps,m'))
    (hd : Piece.char d ∈ ps) : d ≠ '{' ∧ d ≠ '}' := by
  cases m with
  | text =>
    simp only [step] at h
    split_ifs at h with h₁ h₂ <;> cases h
    · simp at hd
    · simp at hd
    · obtain rfl : d = c := by simpa using hd
      exact ⟨h₁,h₂⟩
  | opened =>
    simp only [step, nameStep] at h
    split_ifs at h <;> cases h <;> simp at hd
  | closed =>
    simp only [step] at h
    split_ifs at h
    cases h
    simp at hd
  | name source =>
    simp only [step, nameStep] at h
    split_ifs at h <;> cases h <;> simp at hd
  | item source =>
    simp only [step] at h
    split_ifs at h <;> cases h <;> simp at hd
  | conversion source =>
    cases h
    simp at hd
  | converted source =>
    simp only [step] at h
    split_ifs at h <;> cases h <;> simp at hd
  | spec depth source =>
    simp only [step] at h
    split_ifs at h
    · cases h
      simp at hd
    · cases depth <;> cases h <;> simp at hd
    · cases h
      simp at hd

theorem scan_char {m : Mode} {t : List Char} {ps : List Piece} {d : Char}
    (h : scan m t = some ps) (hd : Piece.char d ∈ ps) : d ≠ '{' ∧ d ≠ '}' := by
  induction t generalizing m ps with
  | nil =>
    rw [scan] at h
    split_ifs at h
    cases h
    simp at hd
  | cons c t ih =>
    obtain ⟨qs,m',rest,hs,hrest,rfl⟩ := scan_cons.mp h
    rcases List.mem_append.mp hd with hq | hr
    · exact step_char hs hq
    · exact ih hrest hr

/-- Without fields a text only gets shorter, and stays as long only without doubled
braces. -/
theorem chars_of_expandAll {ps : List Piece} {r : List Char}
    (hf : ∀ s, Piece.field s ∉ ps) (h : expandAll f ps = .ok r) :
    r.length ≤ (ps.flatMap Piece.source).length ∧
      ((ps.flatMap Piece.source).length ≤ r.length → ∀ p ∈ ps, ∃ c, p = .char c) := by
  induction ps generalizing r with
  | nil =>
    cases h
    simp
  | cons p ps ih =>
    rw [expandAll] at h
    cases p with
    | field s => exact absurd (by simp) (hf s)
    | char c =>
      cases hrest : expandAll f ps with
      | error e => simp [Piece.expand,hrest,bind,Except.bind] at h
      | ok r' =>
        simp only [Piece.expand, hrest, bind, Except.bind, pure, Except.pure,
          Except.ok.injEq] at h
        obtain ⟨hle,hchars⟩ := ih (fun s hs => hf s (by simp [hs])) hrest
        simp only [← h, List.flatMap_cons, Piece.source, List.length_append,
          List.length_singleton]
        refine ⟨by omega,fun hlen p hp => ?_⟩
        rcases List.mem_cons.mp hp with rfl | hp
        · exact ⟨c,rfl⟩
        · exact hchars (by omega) p hp
    | brace c =>
      cases hrest : expandAll f ps with
      | error e => simp [Piece.expand,hrest,bind,Except.bind] at h
      | ok r' =>
        simp only [Piece.expand, hrest, bind, Except.bind, pure, Except.pure,
          Except.ok.injEq] at h
        obtain ⟨hle,-⟩ := ih (fun s hs => hf s (by simp [hs])) hrest
        simp only [← h, List.flatMap_cons, Piece.source, List.length_append, List.length_cons,
          List.length_nil]
        exact ⟨by omega,fun hlen => by omega⟩

/-- A text with replacement fields that, each replaced, spell the text again. -/
def Respelled (f : List Char → Except ε (List Char)) (t : List Char) : Prop :=
  ∃ ps, scan .text t = some ps ∧ (∃ s, Piece.field s ∈ ps) ∧ expandAll f ps = .ok t

/-- Formatting leaves a text as it is only if it has no braces or its fields respell it. -/
theorem format_eq_self_iff (t : List Char) :
    format bad f t = .ok t ↔ Plain t ∨ Respelled f t := by
  rw [format, formatFrom_ok]
  constructor
  · rintro ⟨ps,hs,he⟩
    by_cases hf : ∃ s, Piece.field s ∈ ps
    · exact Or.inr ⟨ps,hs,hf,he⟩
    · have hsource : t = ps.flatMap Piece.source := scan_source hs
      obtain ⟨-,hchars⟩ := chars_of_expandAll (fun s h => hf ⟨s,h⟩) he
      have hall := hchars (by rw [← hsource])
      refine Or.inl (fun c hc => ?_)
      rw [hsource] at hc
      obtain ⟨p,hp,hcp⟩ := List.mem_flatMap.mp hc
      obtain ⟨d,rfl⟩ := hall p hp
      obtain rfl : c = d := by simpa [Piece.source] using hcp
      exact scan_char hs hp
  · rintro (hp | ⟨ps,hs,-,he⟩)
    · exact ⟨_,scan_plain hp,expandAll_chars t⟩
    · exact ⟨ps,hs,he⟩

end

end Format
