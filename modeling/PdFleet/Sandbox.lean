import PdFleet.Lib.Replace
import PdFleet.Redact

/-!
# The output of a sandboxed process

What a child writes is captured up to a limit, decoded, redacted and cut to the limit once
more. The configured values are replaced in what was captured, not in what was written.
-/

set_option autoImplicit false

namespace PdFleet.Sandbox

open Pattern Replace

abbrev Bytes := List UInt8

/-! ## UTF-8 -/

/-- A sequence that was begun: its value so far, the bounds of the next byte, and how many
bytes are missing. -/
structure Begun where
  value : ℕ
  low : ℕ
  high : ℕ
  missing : ℕ

/-- The first byte of a sequence. -/
def firstByte (bad : List Char) (b : ℕ) : List Char × Option Begun :=
  if b < 0x80 then ([Char.ofNat b],none)
  else if b < 0xc2 then (bad,none)
  else if b < 0xe0 then ([],some ⟨b-0xc0,0x80,0xbf,1⟩)
  else if b = 0xe0 then ([],some ⟨0,0xa0,0xbf,2⟩)
  else if b = 0xed then ([],some ⟨0xd,0x80,0x9f,2⟩)
  else if b < 0xf0 then ([],some ⟨b-0xe0,0x80,0xbf,2⟩)
  else if b = 0xf0 then ([],some ⟨0,0x90,0xbf,3⟩)
  else if b < 0xf4 then ([],some ⟨b-0xf0,0x80,0xbf,3⟩)
  else if b = 0xf4 then ([],some ⟨4,0x80,0x8f,3⟩)
  else (bad,none)

/-- Decoding where each ill-formed part becomes the text `bad`. -/
def decodeFrom (bad : List Char) : Option Begun → Bytes → List Char
  | none, [] => []
  | some _, [] => bad
  | none, b :: t => (firstByte bad b.toNat).1++decodeFrom bad (firstByte bad b.toNat).2 t
  | some s, b :: t =>
    if s.low ≤ b.toNat ∧ b.toNat ≤ s.high then
      let value := s.value*64+(b.toNat-0x80)
      if s.missing = 1 then Char.ofNat value :: decodeFrom bad none t
      else decodeFrom bad (some ⟨value,0x80,0xbf,s.missing-1⟩) t
    else bad++(firstByte bad b.toNat).1++decodeFrom bad (firstByte bad b.toNat).2 t

/-- `decode("utf-8", errors="replace")`. -/
def decodeReplace (data : Bytes) : List Char := decodeFrom ['\ufffd'] none data

/-- `decode("utf-8", errors="ignore")`. -/
def decodeIgnore (data : Bytes) : List Char := decodeFrom [] none data

/-- `encode("utf-8")`. -/
def encode (text : List Char) : Bytes := text.flatMap String.utf8EncodeChar

/-! ## Redaction -/

section

variable (isWord : Char → Bool)

def isWordAt (c : Char) : Bool := if c.toNat < 128 then c.isAlphanum || c = '_' else isWord c

/-- `_URL`. -/
def urlScheme : Rule where
  behind last := !last.any (isWordAt isWord)
  kept := empty
  dropped := seq (oneOf [seq (word foldCase "http") (opt (word foldCase "s")),
      word foldCase "ftp", word foldCase "ws", word foldCase "wss"]) (word id "://")
  text := "[URL REDACTED]"

def isPathPart (c : Char) : Bool := !isSpace c && c ∉ ['"', '\'', '<', '>', ';', ',']

/-- The pattern of paths. -/
def pathLike : Rule where
  behind last := !last.any (fun c => isWordAt isWord c || c = '.')
  kept := empty
  dropped := seq (alt (seq (char (· = '~')) (char isSlash)) (char (· = '/'))) (many1 isPathPart)
  text := "[PATH REDACTED]"

def secretMark : List Char := "[SECRET REDACTED]".toList

/-- The configured values, the longest first. -/
def ordered (secrets : List String) : List (List Char) :=
  ((secrets.filter (· ≠ "")).insertionSort (fun a b => b.length ≤ a.length)).map String.toList

/-- `_redact`. -/
def redactOutput (secrets : List String) (text : List Char) : List Char :=
  (pathLike isWord).subFrom none 0
    ((urlScheme isWord).subFrom none 0 (replaceAll secretMark (ordered secrets) text))

/-- `_safe_text`. -/
def safeText (secrets : List String) (limit : ℕ) (data : Bytes) : List Char × Bool :=
  let text := redactOutput isWord secrets (decodeReplace (data.take limit))
  let encoded := encode text
  (if limit < encoded.length then decodeIgnore (encoded.take limit) else text,limit < data.length)

/-! ## The capture loop -/

inductive Stream where
  | stdout | stderr
  deriving DecidableEq, Repr

structure Capture where
  out : Bytes
  err : Bytes
  cutOut : Bool
  cutErr : Bool

/-- The bytes of a chunk that still fit, and whether some did not. -/
def extend (limit : ℕ) (target chunk : Bytes) : Bytes × Bool :=
  (target++chunk.take (limit-target.length),limit-target.length < chunk.length)

/-- One turn of the loop, with a chunk of one of the two streams. -/
def Capture.read (limits : ℕ × ℕ) (c : Capture) : Stream × Bytes → Capture
  | (.stdout,chunk) =>
    { c with out := (extend limits.1 c.out chunk).1,
             cutOut := c.cutOut || (extend limits.1 c.out chunk).2 }
  | (.stderr,chunk) =>
    { c with err := (extend limits.2 c.err chunk).1,
             cutErr := c.cutErr || (extend limits.2 c.err chunk).2 }

def capture (limits : ℕ × ℕ) (reads : List (Stream × Bytes)) : Capture :=
  reads.foldl (Capture.read limits) ⟨[],[],false,false⟩

/-- How the loop ends: both streams are closed and the process has exited, the time is up,
or a call raises. -/
inductive Ending where
  | exited (returncode : ℤ)
  | timedOut
  | raised
  deriving DecidableEq, Repr

structure LocalSandboxRunner where
  env : List (String × String)
  secrets : List String

/-- `tuple(self._env.values()) + self._secrets`. -/
def LocalSandboxRunner.values (r : LocalSandboxRunner) : List String :=
  r.env.map Prod.snd++r.secrets.filter (· ≠ "")

structure RunResult where
  status : String
  returncode : ℤ
  stdout : List Char
  stderr : List Char
  timedOut : Bool
  truncatedStdout : Bool
  truncatedStderr : Bool
  error : Option String

/-- `run`, from the capture loop on. -/
def LocalSandboxRunner.run (r : LocalSandboxRunner) (limits : ℕ × ℕ)
    (reads : List (Stream × Bytes)) (ending : Ending) : RunResult :=
  let c := capture limits reads
  let out := safeText isWord r.values limits.1 c.out
  let err := safeText isWord r.values limits.2 c.err
  match ending with
  | .raised =>
    ⟨"failed",-1,redactOutput isWord r.values (decodeReplace c.out),
      redactOutput isWord r.values (decodeReplace c.err),false,false,false,some "process_failed"⟩
  | .timedOut => ⟨"timeout",-9,out.1,err.1,true,c.cutOut || out.2,c.cutErr || err.2,none⟩
  | .exited code => ⟨if code = 0 then "passed" else "failed",code,out.1,err.1,false,
      c.cutOut || out.2,c.cutErr || err.2,none⟩

end

/-! ## What is captured -/

/-- What the child wrote to one of the streams. -/
def written (s : Stream) (reads : List (Stream × Bytes)) : Bytes :=
  (reads.filter (fun r => r.1 = s)).flatMap Prod.snd

variable {isWord : Char → Bool} {limits : ℕ × ℕ} {reads : List (Stream × Bytes)}
  {secrets : List String} {text : List Char} {data : Bytes}

theorem extend_take (limit : ℕ) (s chunk : Bytes) :
    (extend limit (s.take limit) chunk).1 = (s++chunk).take limit := by
  rw [extend, List.take_append]
  rcases le_total limit s.length with h | h
  · have hz : limit-s.length = 0 := by omega
    rw [List.length_take, min_eq_left h, hz, Nat.sub_self]
  · rw [List.take_of_length_le h]

/-- The loop keeps the beginning of the stream, however it arrives. -/
theorem capture_out : (capture limits reads).out = (written .stdout reads).take limits.1 := by
  have h : ∀ (c : Capture) (s : Bytes), c.out = s.take limits.1 →
      (reads.foldl (Capture.read limits) c).out = (s++written .stdout reads).take limits.1 := by
    induction reads with
    | nil =>
      intro c s hc
      rw [written, List.filter_nil, List.flatMap_nil, List.append_nil]
      exact hc
    | cons r reads ih =>
      intro c s hc
      obtain ⟨stream,chunk⟩ := r
      rw [List.foldl_cons]
      cases stream with
      | stdout =>
        have hstep : (c.read limits (.stdout,chunk)).out = (s++chunk).take limits.1 := by
          rw [Capture.read]
          dsimp only
          rw [hc, extend_take]
        rw [ih _ _ hstep, List.append_assoc]
        rfl
      | stderr => exact ih (c.read limits (.stderr,chunk)) s hc
  have hall := h ⟨[],[],false,false⟩ [] (List.take_nil).symm
  rwa [List.nil_append] at hall

/-! ## ASCII texts -/

/-- Bytes below 128, none of which is a slash or a tilde. -/
def Plain (data : Bytes) : Prop := ∀ b ∈ data, b.toNat < 128 ∧ b ≠ 0x2f ∧ b ≠ 0x7e

def ascii (data : Bytes) : List Char := data.map (fun b => Char.ofNat b.toNat)

/-- A character below 128 that is no slash and no tilde. -/
def isPlain (c : Char) : Bool := c.toNat < 128 && c ≠ '/' && c ≠ '~'

theorem decodeFrom_ascii {bad : List Char} (h : ∀ b ∈ data, b.toNat < 128) :
    decodeFrom bad none data = ascii data := by
  induction data with
  | nil => rfl
  | cons b data ih =>
    have hb : b.toNat < 0x80 := h b (by simp)
    rw [decodeFrom, firstByte, if_pos hb, ih (fun x hx => h x (by simp [hx]))]
    rfl

theorem isPlain_ofNat : ∀ n < 128, n ≠ 0x2f → n ≠ 0x7e → isPlain (Char.ofNat n) = true := by
  decide +kernel

theorem isPlain_ascii (h : Plain data) : ∀ c ∈ ascii data, isPlain c = true := by
  intro c hc
  obtain ⟨b,hb,rfl⟩ := List.mem_map.mp hc
  obtain ⟨hlt,hslash,htilde⟩ := h b hb
  refine isPlain_ofNat _ hlt (fun he => hslash ?_) (fun he => htilde ?_)
  · exact UInt8.toNat_inj.mp he
  · exact UInt8.toNat_inj.mp he

/-- An ASCII text is encoded byte by byte. -/
theorem encode_ascii (h : ∀ c ∈ text, c.toNat < 128) :
    (∀ b ∈ encode text, b.toNat < 128) ∧ ascii (encode text) = text := by
  induction text with
  | nil => exact ⟨by simp [encode],rfl⟩
  | cons c text ih =>
    have hc : c.toNat < 128 := h c (by simp)
    obtain ⟨hbytes,htext⟩ := ih (fun d hd => h d (by simp [hd]))
    have hsize : c.utf8Size = 1 := by
      rw [Char.utf8Size_eq_one_iff, UInt32.le_iff_toNat_le]
      exact Nat.lt_succ_iff.mp hc
    have hbyte : c.val.toUInt8.toNat = c.toNat := by
      rw [UInt32.toNat_toUInt8]
      exact Nat.mod_eq_of_lt (lt_trans hc (by decide))
    have hencode : encode (c :: text) = c.val.toUInt8 :: encode text := by
      rw [encode, List.flatMap_cons, String.utf8EncodeChar_eq_singleton hsize]
      rfl
    rw [hencode]
    constructor
    · intro b hb
      rcases List.mem_cons.mp hb with rfl | hb
      · rwa [hbyte]
      · exact hbytes b hb
    · rw [ascii, List.map_cons, hbyte, Char.ofNat_toNat]
      exact congrArg (c :: ·) htext

theorem encode_length (h : ∀ c ∈ text, c.toNat < 128) : (encode text).length = text.length := by
  have hlen := congrArg List.length (encode_ascii h).2
  rwa [ascii, List.length_map] at hlen

/-! ## What is redacted -/

theorem plain_replaced (h : ∀ c ∈ text, isPlain c = true) :
    ∀ c ∈ replaceAll secretMark (ordered secrets) text, isPlain c = true := by
  intro c hc
  have hmark : ∀ c ∈ secretMark, isPlain c = true :=
    List.all_eq_true.mp (by decide : secretMark.all isPlain = true)
  exact (mem_replaceAll hc).elim (hmark c) (h c)

/-- Of a text without slash and tilde only the configured values are redacted. -/
theorem redactOutput_plain (h : ∀ c ∈ text, isPlain c = true) :
    redactOutput isWord secrets text = replaceAll secretMark (ordered secrets) text := by
  have hplain := @plain_replaced secrets text h
  have hmarked : ∀ c ∈ replaceAll secretMark (ordered secrets) text,
      (fun c : Char => decide (c = '/' ∨ c = '~')) c = false := by
    intro c hc
    have hp := hplain c hc
    simp only [isPlain, Bool.and_eq_true, decide_eq_true_eq] at hp
    rw [decide_eq_false_iff_not, not_or]
    exact ⟨hp.1.2,hp.2⟩
  have hurl : Reads (fun c : Char => decide (c = '/' ∨ c = '~')) (urlScheme isWord).dropped := by
    have hword : word id "://" = seq (char (fun d => id d = ':'))
        (seq (char (fun d => id d = '/')) (seq (char (fun d => id d = '/')) empty)) := rfl
    apply Reads.seq_right
    rw [hword]
    apply Reads.seq_right
    apply Reads.seq_left
    exact reads_char (fun c hc => decide_eq_true (Or.inl (of_decide_eq_true hc)))
  have hpath : Reads (fun c : Char => decide (c = '/' ∨ c = '~')) (pathLike isWord).dropped := by
    apply Reads.seq_left
    apply Reads.alt
    · apply Reads.seq_left
      exact reads_char (fun c hc => decide_eq_true (Or.inr (of_decide_eq_true hc)))
    · exact reads_char (fun c hc => decide_eq_true (Or.inl (of_decide_eq_true hc)))
  rw [redactOutput, hurl.subFrom none hmarked, hpath.subFrom none hmarked]

/-- What is returned of plain data. -/
theorem safeText_plain {limit : ℕ} (h : Plain data) (hlen : data.length ≤ limit) :
    (safeText isWord secrets limit data).1 =
      (replaceAll secretMark (ordered secrets) (ascii data)).take limit := by
  have hplain := isPlain_ascii h
  have hascii : ∀ c ∈ replaceAll secretMark (ordered secrets) (ascii data), c.toNat < 128 := by
    intro c hc
    have hp := plain_replaced hplain c hc
    simp only [isPlain, Bool.and_eq_true, decide_eq_true_eq] at hp
    exact hp.1.1
  obtain ⟨hbytes,htext⟩ := encode_ascii hascii
  have hdecode : decodeReplace data = ascii data := decodeFrom_ascii (fun b hb => (h b hb).1)
  simp only [safeText]
  rw [List.take_of_length_le hlen, hdecode, redactOutput_plain hplain, encode_length hascii]
  split_ifs with hlong
  · rw [decodeIgnore, decodeFrom_ascii (fun b hb => hbytes b (List.mem_of_mem_take hb)), ascii,
      List.map_take, ← ascii, htext]
  · exact (List.take_of_length_le (not_lt.mp hlong)).symm

/-! ## When the limit cuts no value -/

/-- At the place `n` of the stream no configured value is cut when its turn comes, neither
in what was captured nor in the whole stream; and what comes before it is all that was
captured, or fills the output. -/
structure Settled (secrets : List String) (limit : ℕ) (stream : List Char) (n : ℕ) : Prop where
  within : n ≤ limit
  captured : cutsAny secretMark (ordered secrets) (stream.take n) ((stream.take limit).drop n) =
    false
  whole : cutsAny secretMark (ordered secrets) (stream.take n) (stream.drop n) = false
  full : stream.take n = stream.take limit ∨
    limit ≤ (replaceAll secretMark (ordered secrets) (stream.take n)).length

theorem Settled.prefix {limit n : ℕ} {stream : List Char} (h : Settled secrets limit stream n) :
    (replaceAll secretMark (ordered secrets) (stream.take limit)).take limit <+:
      replaceAll secretMark (ordered secrets) stream := by
  have hwhole := replaceAll_append h.whole
  rw [List.take_append_drop] at hwhole
  have hpart : stream.take limit = stream.take n++(stream.take limit).drop n := by
    have hn : (stream.take limit).take n = stream.take n := by
      rw [List.take_take, min_eq_left h.within]
    rw [← hn, List.take_append_drop]
  rw [hwhole]
  rcases h.full with hfull | hfull
  · rw [← hfull]
    exact (List.take_prefix limit _).trans (List.prefix_append _ _)
  · rw [hpart, replaceAll_append h.captured, List.take_append_of_le_length hfull]
    exact (List.take_prefix limit _).trans (List.prefix_append _ _)

/-- Where some place of the stream is settled, the standard output of a run is a prefix of
what the redaction makes of the whole stream, however the stream arrives. -/
theorem stdout_prefix (isWord : Char → Bool) (r : LocalSandboxRunner) (limits : ℕ × ℕ)
    (reads : List (Stream × Bytes)) (ending : Ending) (hplain : Plain (written .stdout reads))
    (hending : ending ≠ .raised)
    (hsettled : ∃ n, Settled r.values limits.1 (ascii (written .stdout reads)) n) :
    (r.run isWord limits reads ending).stdout <+:
      redactOutput isWord r.values (decodeReplace (written .stdout reads)) := by
  obtain ⟨n,hn⟩ := hsettled
  have hkept : Plain ((written .stdout reads).take limits.1) :=
    fun b hb => hplain b (List.mem_of_mem_take hb)
  have hout : (safeText isWord r.values limits.1 (capture limits reads).out).1 =
      (replaceAll secretMark (ordered r.values)
        ((ascii (written .stdout reads)).take limits.1)).take limits.1 := by
    rw [capture_out, safeText_plain hkept (List.length_take_le _ _), ascii, List.map_take, ← ascii]
  have hrun : (r.run isWord limits reads ending).stdout =
      (safeText isWord r.values limits.1 (capture limits reads).out).1 := by
    cases ending with
    | exited code => rfl
    | timedOut => rfl
    | raised => exact absurd rfl hending
  have hdecode : decodeReplace (written .stdout reads) = ascii (written .stdout reads) :=
    decodeFrom_ascii (fun b hb => (hplain b hb).1)
  rw [hrun, hout, hdecode, redactOutput_plain (isPlain_ascii hplain)]
  exact hn.prefix

def sample : LocalSandboxRunner := ⟨[],["abcd"]⟩

/-- `xabcd`, in two chunks. -/
def sampleReads : List (Stream × Bytes) := [(.stdout,[0x78, 0x61]), (.stdout,[0x62, 0x63, 0x64])]

theorem sample_plain : Plain (written .stdout sampleReads) :=
  (by decide +kernel : ∀ b ∈ written .stdout sampleReads, b.toNat < 128 ∧ b ≠ 0x2f ∧ b ≠ 0x7e)

/-- A limit of five bytes does not cut the value. -/
theorem sample_prefix :
    (sample.run (fun _ => false) (5,1) sampleReads (.exited 0)).stdout <+:
      redactOutput (fun _ => false) sample.values (decodeReplace (written .stdout sampleReads)) :=
  stdout_prefix (fun _ => false) sample (5,1) sampleReads (.exited 0) sample_plain (by decide)
    ⟨5,by decide +kernel,by decide +kernel,by decide +kernel,Or.inl (by decide +kernel)⟩

/-- A limit of three bytes cuts it, and the piece `ab` is returned. -/
theorem piece_returned :
    Plain (written .stdout sampleReads) ∧
      (sample.run (fun _ => false) (3,1) sampleReads (.exited 0)).stdout = ['x', 'a', 'b'] ∧
      ¬(sample.run (fun _ => false) (3,1) sampleReads (.exited 0)).stdout <+:
        redactOutput (fun _ => false) sample.values
          (decodeReplace (written .stdout sampleReads)) := by
  refine ⟨sample_plain,?_,?_⟩
  · decide +kernel
  · decide +kernel

end PdFleet.Sandbox
