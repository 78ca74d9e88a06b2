import PdFleet.Lib.Pattern
import PdFleet.Validate

/-!
# Redaction of stored payloads

`_redact` of the run store: the value of a sensitive key becomes a marker, and
texts lose URLs, absolute paths and credentials, in this order.
-/

set_option autoImplicit false

namespace PdFleet

open Pattern

/-- Case folding under `re.IGNORECASE`, as far as a lower-case ASCII letter can
come of it. -/
def foldCase (c : Char) : Char :=
  if c = '\u0130' ∨ c = '\u0131' then 'i' else if c = '\u017f' then 's'
  else if c = '\u212a' then 'k' else c.toLower

/-- `\s`. -/
def isSpace (c : Char) : Bool :=
  c.toNat ∈ [0x9, 0xa, 0xb, 0xc, 0xd, 0x1c, 0x1d, 0x1e, 0x1f, 0x20, 0x85, 0xa0, 0x1680, 0x2000,
    0x2001, 0x2002, 0x2003, 0x2004, 0x2005, 0x2006, 0x2007, 0x2008, 0x2009, 0x200a, 0x2028,
    0x2029, 0x202f, 0x205f, 0x3000]

/-- `\w`. -/
def isWordChar (D : Deps) (c : Char) : Bool :=
  if c.toNat < 128 then c.isAlphanum || c = '_' else D.isWord c

def keyGap : Pattern := opt (char (fun c => c = '_' || c = ' ' || c = '-'))

def apiKey : Pattern := seq (word foldCase "api") (seq keyGap (word foldCase "key"))

/-- `_SENSITIVE`. -/
def sensitive : Pattern :=
  oneOf [word foldCase "token", word foldCase "secret", word foldCase "password",
    word foldCase "credential", apiKey, word foldCase "authorization",
    seq (word foldCase "private") (seq keyGap (word foldCase "key"))]

def isUrlChar (c : Char) : Bool := !isSpace c && c ∉ ['"', '\'', '<', '>']

def urlRule : Rule where
  behind _ := true
  kept := empty
  dropped := seq (oneOf [seq (word foldCase "http") (opt (word foldCase "s")),
      word foldCase "ftp", seq (word foldCase "ws") (opt (word foldCase "s"))])
    (seq (word id "://") (many1 isUrlChar))
  text := "[URL REDACTED]"

def isPathChar (c : Char) : Bool := !isSpace c && c ≠ ',' && c ≠ ';'

def isSlash (c : Char) : Bool := c = '/' || c = '\\'

def pathRule (D : Deps) : Rule where
  behind last := !last.any (fun c => isWordChar D c || c = '.')
  kept := empty
  dropped := oneOf [seq (char (· = '~')) (seq (char isSlash) (many1 isPathChar)),
    seq (char (· = '/')) (many1 isPathChar),
    seq (char (fun c => c.isUpper || c.isLower)) (seq (char (· = ':'))
      (seq (char isSlash) (many1 isPathChar))),
    seq (word id "\\\\") (many1 isPathChar)]
  text := "[PATH REDACTED]"

/-- `_SECRET_TEXT`. -/
def secretRule : Rule where
  behind _ := true
  kept := alt (seq (word foldCase "bearer") (many1 isSpace))
    (seq (oneOf [word foldCase "token", word foldCase "secret", word foldCase "password", apiKey,
        word foldCase "authorization"])
      (seq (many isSpace) (seq (char (fun c => c = ':' || c = '=')) (many isSpace))))
  dropped := many1 (fun c => !isSpace c)
  text := "[REDACTED]"

def redactText (D : Deps) (text : String) : String :=
  secretRule.sub ((pathRule D).sub (urlRule.sub text))

mutual

/-- `_redact`, of a JSON value. -/
def redact (D : Deps) : Json → Json
  | .obj kvs => .obj (redactFields D kvs)
  | .arr xs => .arr (redactItems D xs)
  | .str s => .str (redactText D s)
  | .null => .null
  | .bool b => .bool b
  | .int n => .int n
  | .float r => .float r

def redactItems (D : Deps) : List Json → List Json
  | [] => []
  | x :: xs => redact D x :: redactItems D xs

def redactFields (D : Deps) : List (String × Json) → List (String × Json)
  | [] => []
  | (k,v) :: kvs =>
    (k, if search sensitive k.toList then .str "[REDACTED]" else redact D v) :: redactFields D kvs

end

end PdFleet
