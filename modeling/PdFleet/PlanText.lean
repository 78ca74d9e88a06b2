import PdFleet.Redact

/-!
# Redaction of plan texts

What the contracts make of a text: paths are marked, a scanner redacts sensitive
assignments line by line with the block scalars that they own, and two passes over the
whole text redact credentials after a label and the shapes of secrets.
-/

set_option autoImplicit false

namespace PdFleet.Contracts

open Pattern

/-- What the tables of Unicode decide here: `\w` and `str.lower`. -/
structure PlanTables where
  isWord : Char → Bool
  lower : List Char → List Char

/-! ## Patterns -/

/-- `_EXTERNAL_URL`. -/
def externalUrl : Pattern :=
  seq (oneOf [seq (word foldCase "http") (opt (word foldCase "s")), word foldCase "ftp",
      seq (word foldCase "ws") (opt (word foldCase "s"))])
    (seq (word id "://") (many1 isUrlChar))

/-- A letter or a digit under `re.IGNORECASE`. -/
def isAlnumFold (c : Char) : Bool :=
  c.isAlphanum || c ∈ ['\u0130', '\u0131', '\u017f', '\u212a']

/-- `_SECRET_VALUE`. -/
def secretValue : Pattern :=
  oneOf [seq (word foldCase "bearer") (seq (many1 isSpace) (many1 (fun c => !isSpace c))),
    seq (word foldCase "sk-") (atLeast 8 (fun c => isAlnumFold c || c = '_' || c = '-')),
    seq (word foldCase "gh") (seq (char (fun c => foldCase c ∈ ['p', 'o', 'u', 's', 'r']))
      (seq (word id "_") (atLeast 8 (fun c => isAlnumFold c || c = '_')))),
    seq (word foldCase "akia") (atLeast 12 isAlnumFold)]

def secretSub : Rule where
  behind _ := true
  kept := empty
  dropped := secretValue
  text := "[REDACTED]"

def isComponentChar (c : Char) : Bool :=
  c ∉ [' ', '\t', '\n', '\r', '\x0c', '\x0b', '"', '\'', '<', '>', ';', ',']

def labelGap : Pattern := opt (char (fun c => c = '_' || c = ' ' || c = '-'))

/-- The labels of `_SENSITIVE_ASSIGNMENT` and `_SENSITIVE_WHITESPACE`. -/
def label : Pattern :=
  oneOf [word foldCase "credential", word foldCase "secret", word foldCase "token",
    word foldCase "password",
    seq (word foldCase "api") (seq labelGap (word foldCase "key")),
    seq (word foldCase "access") (seq labelGap (alt (word foldCase "key") (word foldCase "token"))),
    seq (word foldCase "private") (seq labelGap (word foldCase "key")),
    seq (word foldCase "client") (seq labelGap (word foldCase "secret")),
    word foldCase "authorization", word foldCase "bearer"]

/-- `\s*[:=]\s*`. -/
def separator : Pattern :=
  seq (many isSpace) (seq (char (fun c => c = ':' || c = '=')) (many isSpace))

/-- `(?:bearer\s+)?[^\s,;}]+`. -/
def bareValue : Pattern :=
  seq (opt (seq (word foldCase "bearer") (many1 isSpace)))
    (many1 (fun c => !isSpace c && c ∉ [',', ';', '\x7d']))

section

variable (T : PlanTables)

def isPlanWord (c : Char) : Bool := if c.toNat < 128 then c.isAlphanum || c = '_' else T.isWord c

/-- `_EMBEDDED_PATH`. -/
def embeddedPath : Rule where
  behind last := !last.any (fun c => isPlanWord T c || c = '.')
  kept := empty
  dropped := oneOf [seq (char (· = '~')) (seq (char isSlash) (many isComponentChar)),
    seq (char (· = '/')) (many1 isComponentChar),
    seq (char (fun c => c.isUpper || c.isLower)) (seq (char (· = ':'))
      (seq (char isSlash) (many isComponentChar))),
    seq (word id "\\\\") (many1 isComponentChar)]
  text := "[PATH REDACTED]"

/-! ## Values -/

def stripSpace (t : List Char) : List Char := t.rdropWhile isSpace |>.dropWhile isSpace

/-- `_CREDENTIAL_SHAPE.fullmatch`. -/
def credentialShape (t : List Char) : Bool :=
  (8 ≤ t.length && t.all (fun c => isAlnumFold c || c ∈ ['.', '_', '-'])) ||
    (t.all (fun c => isAlnumFold c || c ∈ ['_', '-']) &&
      t.any (fun c => c.isDigit || c ∈ ['_', '-']))

/-- `value.removeprefix("Bearer ").strip()`. -/
def unprefixed (t : List Char) : List Char :=
  stripSpace (if "Bearer ".toList.isPrefixOf t then t.drop 7 else t)

def redacted : List Char := "[REDACTED]".toList

/-- A match of `_SENSITIVE_ASSIGNMENT`. The value is `none` where it begins with a quote. -/
structure Assignment where
  before : List Char
  label : List Char
  separator : List Char
  value : Option (List Char)

/-- What was matched, of a text and what the match leaves of it. -/
def matched (t rest : List Char) : List Char := t.take (t.length-rest.length)

/-- The value after a separator. -/
def valueAt (t : List Char) : Option (Option (List Char)) :=
  match t with
  | [] => none
  | c :: _ =>
    if c = '"' || c = '\'' then some none
    else (rests bareValue t).head?.map (fun rest => some (matched t rest))

/-- The label with its quotes, and the text after it. -/
def labelsAt (t : List Char) : List (List Char × List Char) :=
  let quoted := match t with
    | q :: u => if q = '"' || q = '\'' then
        (rests label u).filterMap (fun rest =>
          if rest.head? = some q then some (matched t rest.tail,rest.tail) else none)
      else []
    | [] => []
  quoted ++ (rests label t).filterMap (fun rest =>
    if rest.head?.any (isPlanWord T) then none else some (matched t rest,rest))

/-- A match that begins here. -/
def assignmentAt (before t : List Char) : Option Assignment :=
  ((labelsAt T t).flatMap (fun (l,rest) =>
    (rests separator rest).filterMap (fun rest' =>
      (valueAt rest').map (fun v => ⟨before,l,matched rest rest',v⟩)))).head?

/-- `_SENSITIVE_ASSIGNMENT.search`; `before` is read, in reverse order. -/
def searchAssignment : List Char → List Char → Option Assignment
  | _, [] => none
  | before, c :: t =>
    match if before.head?.any (isPlanWord T) then none
        else assignmentAt T before.reverse (c :: t) with
    | some a => some a
    | none => searchAssignment (c :: before) t

/-- Whether the scanner rewrites a match. -/
def Assignment.rewritten (a : Assignment) : Bool :=
  match a.value with
  | none => true
  | some v =>
    let bare := unprefixed v
    let collection := bare.head?.any (fun c => c ∈ ['[', '\x7b', '|', '>']) ||
      bare.any (fun c => c ∈ [']', '\x7d', '#'])
    (credentialShape bare || '=' ∈ a.separator || collection) && v ≠ redacted

/-! ## Lines -/

def isLineBreak (c : Char) : Bool :=
  c.toNat ∈ [0xa, 0xb, 0xc, 0xd, 0x1c, 0x1d, 0x1e, 0x85, 0x2028, 0x2029]

/-- `text.splitlines(keepends=True)`; `line` is what was read of the line, in reverse. -/
def splitLines : List Char → List Char → List (List Char)
  | line, [] => if line = [] then [] else [line.reverse]
  | line, '\r' :: '\n' :: t => ('\n' :: '\r' :: line).reverse :: splitLines [] t
  | line, c :: t =>
    if isLineBreak c then (c :: line).reverse :: splitLines [] t else splitLines (c :: line) t

def isNewline (c : Char) : Bool := c = '\r' || c = '\n'

/-- `line.rstrip("\r\n")`. -/
def content (line : List Char) : List Char := line.rdropWhile isNewline

/-- `line[len(line.rstrip("\r\n")):]`. -/
def newline (line : List Char) : List Char := line.rtakeWhile isNewline

def isBlank (t : List Char) : Bool := t.all isSpace

def leading (t : List Char) : List Char := t.takeWhile (fun c => c = ' ' || c = '\t')

/-- `_block_scalar_owns_continuation`, of a line without its end. -/
def ownsContinuation (t : List Char) (keyIndent : ℕ) : Bool :=
  isBlank t || '\t' ∈ leading t || keyIndent < (leading t).length

/-- `_redact_block_scalar_line`. -/
def redactBlockLine (line : List Char) : List Char :=
  if isBlank (content line) then line
  else leading (content line) ++ redacted ++ newline line

/-- `_BLOCK_SCALAR_TOKEN.fullmatch`, of a value. -/
def isBlockToken (t : List Char) : Bool :=
  t.head?.any (fun c => c = '|' || c = '>') && t.tail.all (fun c => !isSpace c)

/-- The line with its first assignment redacted, and the indentation of the block that the
assignment opens. -/
def redactLine (line : List Char) : List Char × Option ℕ :=
  match searchAssignment T [] line with
  | none => (line,none)
  | some a =>
    (if a.rewritten then a.before ++ a.label ++ a.separator ++ redacted ++ newline line else line,
      if isBlockToken (stripSpace (a.value.getD [])) then
        some ((content line).takeWhile (· = ' ')).length
      else none)

/-- The loop over the lines; `block` is the indentation of the key of an open block. -/
def redactLines : Option ℕ → List (List Char) → List (List Char)
  | _, [] => []
  | some keyIndent, line :: lines =>
    if ownsContinuation (content line) keyIndent then
      redactBlockLine line :: redactLines (some keyIndent) lines
    else (redactLine T line).1 :: redactLines (redactLine T line).2 lines
  | none, line :: lines => (redactLine T line).1 :: redactLines (redactLine T line).2 lines

/-! ## Whole texts -/

/-- A match of `_SENSITIVE_WHITESPACE`: what becomes of it, and what it leaves. -/
def whitespaceAt (last : Option Char) (t : List Char) : Option (List Char × List Char) :=
  if last.any (isPlanWord T) then none
  else ((rests label t).flatMap (fun rest => (rests (many1 isSpace) rest).flatMap (fun rest' =>
    (rests bareValue rest').map (fun rest'' =>
      if credentialShape (unprefixed (matched rest' rest'')) then
        (matched t rest ++ ' ' :: redacted,rest'')
      else (matched t rest'',rest''))))).head?

/-- `_redact_paths`. -/
def redactPaths (t : List Char) : List Char := (embeddedPath T).subFrom none 0 t

def redactAssignments (t : List Char) : List Char := (redactLines T none (splitLines [] t)).flatten

def redactWhitespace (t : List Char) : List Char := subWith (whitespaceAt T) none 0 t

def redactSecrets (t : List Char) : List Char := secretSub.subFrom none 0 t

/-- `_redact_sensitive_text`. -/
def redactSensitiveText (t : List Char) : List Char :=
  redactSecrets (redactWhitespace T (redactAssignments T t))

/-- What `_canonical_value` makes of a text: a text again, or `None`. -/
def canonicalText (s : String) : Option String :=
  if search externalUrl s.toList then none
  else
    let t := redactSensitiveText T (redactPaths T s.toList)
    if search secretValue t then none else some (String.ofList t)

end

end PdFleet.Contracts
