import Mathlib

/-!
# Texts

The operations of `str` and `int` that wave labels are read with. What they ask of
the tables of Unicode is a parameter.
-/

set_option autoImplicit false

namespace PdFleet

/-- What the tables of Unicode decide. -/
structure Tables where
  lower : List Char → List Char
  isSpace : Char → Bool
  /-- `str.isdigit`, of one character. -/
  isDigit : Char → Bool
  /-- The value of a decimal digit, as `int` reads it. -/
  decimal : Char → Option ℕ

/-- `text.strip()`. -/
def strip (T : Tables) (text : List Char) : List Char :=
  ((text.dropWhile T.isSpace).reverse.dropWhile T.isSpace).reverse

/-- `text.strip(c)`. -/
def stripChar (c : Char) (text : List Char) : List Char :=
  ((text.dropWhile (· = c)).reverse.dropWhile (· = c)).reverse

/-- Digits, with single underscores between them; `after` tells that a digit stands
just before. -/
def digits (T : Tables) : ℕ → Bool → List Char → Option ℕ
  | n, after, [] => if after then some n else none
  | n, after, c :: t =>
    if c = '_' then if after then digits T n false t else none
    else
      match T.decimal c with
      | some d => digits T (10*n+d) true t
      | none => none

/-- `int(text)`; `none` is a `ValueError`. -/
def intText (T : Tables) (text : List Char) : Option ℤ :=
  match strip T text with
  | '-' :: t => (digits T 0 false t).map (fun n => -(n : ℤ))
  | '+' :: t => (digits T 0 false t).map (fun n => (n : ℤ))
  | t => (digits T 0 false t).map (fun n => (n : ℤ))

/-- `text.removeprefix(start)`. -/
def removePrefix (start text : List Char) : List Char :=
  if start.isPrefixOf text then text.drop start.length else text

/-- `text.isdigit()`. -/
def allDigits (T : Tables) (text : List Char) : Bool := text ≠ [] ∧ text.all T.isDigit

/-- A value that labels a wave: what `str` makes of it, and `==`. -/
class Label (W : Type) where
  text : W → List Char
  same : W → W → Bool

instance : Label ℤ where
  text n := (toString n).toList
  same m n := m = n

instance : Label String where
  text s := s.toList
  same s t := s = t

/-- The tables on the characters of ASCII. -/
def ascii : Tables where
  lower := List.map Char.toLower
  isSpace := Char.isWhitespace
  isDigit := Char.isDigit
  decimal := fun c => if c.isDigit then some (c.toNat-48) else none

end PdFleet
