import Mathlib

/-!
# SHA-256

The digest of a byte string as 64 lower-case hexadecimal digits. The
compression state is a record of eight words, so that the length of the
digest follows from its shape and not from a property of the hash.
-/

set_option autoImplicit false

namespace Sha256

def roundConstants : List UInt32 :=
  [0x428a2f98, 0x71374491, 0xb5c0fbcf, 0xe9b5dba5, 0x3956c25b, 0x59f111f1, 0x923f82a4, 0xab1c5ed5,
   0xd807aa98, 0x12835b01, 0x243185be, 0x550c7dc3, 0x72be5d74, 0x80deb1fe, 0x9bdc06a7, 0xc19bf174,
   0xe49b69c1, 0xefbe4786, 0x0fc19dc6, 0x240ca1cc, 0x2de92c6f, 0x4a7484aa, 0x5cb0a9dc, 0x76f988da,
   0x983e5152, 0xa831c66d, 0xb00327c8, 0xbf597fc7, 0xc6e00bf3, 0xd5a79147, 0x06ca6351, 0x14292967,
   0x27b70a85, 0x2e1b2138, 0x4d2c6dfc, 0x53380d13, 0x650a7354, 0x766a0abb, 0x81c2c92e, 0x92722c85,
   0xa2bfe8a1, 0xa81a664b, 0xc24b8b70, 0xc76c51a3, 0xd192e819, 0xd6990624, 0xf40e3585, 0x106aa070,
   0x19a4c116, 0x1e376c08, 0x2748774c, 0x34b0bcb5, 0x391c0cb3, 0x4ed8aa4a, 0x5b9cca4f, 0x682e6ff3,
   0x748f82ee, 0x78a5636f, 0x84c87814, 0x8cc70208, 0x90befffa, 0xa4506ceb, 0xbef9a3f7, 0xc67178f2]

structure Words where
  a : UInt32
  b : UInt32
  c : UInt32
  d : UInt32
  e : UInt32
  f : UInt32
  g : UInt32
  h : UInt32

def initial : Words :=
  ⟨0x6a09e667, 0xbb67ae85, 0x3c6ef372, 0xa54ff53a, 0x510e527f, 0x9b05688c, 0x1f83d9ab, 0x5be0cd19⟩

def rotr (x : UInt32) (k : UInt32) : UInt32 := (x >>> k) ||| (x <<< (32-k))

def round (s : Words) (k w : UInt32) : Words :=
  let s1 := rotr s.e 6 ^^^ rotr s.e 11 ^^^ rotr s.e 25
  let ch := (s.e &&& s.f) ^^^ (~~~s.e &&& s.g)
  let t1 := s.h+s1+ch+k+w
  let s0 := rotr s.a 2 ^^^ rotr s.a 13 ^^^ rotr s.a 22
  let maj := (s.a &&& s.b) ^^^ (s.a &&& s.c) ^^^ (s.b &&& s.c)
  ⟨t1+s0+maj, s.a, s.b, s.c, s.d+t1, s.e, s.f, s.g⟩

/-- The message schedule: each further word is computed from the sixteen before it. -/
def schedule : ℕ → List UInt32 → List UInt32
  | 0, _ => []
  | n+1, ws =>
    let x15 := ws.getD 1 0
    let x2 := ws.getD 14 0
    let next := ws.getD 0 0 + (rotr x15 7 ^^^ rotr x15 18 ^^^ (x15 >>> 3)) + ws.getD 9 0 +
      (rotr x2 17 ^^^ rotr x2 19 ^^^ (x2 >>> 10))
    ws.headD 0 :: schedule n (ws.tail ++ [next])

def compress (s : Words) (block : List UInt32) : Words :=
  let t := ((schedule 64 block).zip roundConstants).foldl (fun t wk => round t wk.2 wk.1) s
  ⟨s.a+t.a, s.b+t.b, s.c+t.c, s.d+t.d, s.e+t.e, s.f+t.f, s.g+t.g, s.h+t.h⟩

def bigEndian (width n : ℕ) : List UInt8 :=
  (List.range width).reverse.map (fun i => UInt8.ofNat (n >>> (8*i)))

def pad (msg : List UInt8) : List UInt8 :=
  msg ++ [0x80] ++ List.replicate ((119-msg.length%64)%64) 0 ++ bigEndian 8 (8*msg.length)

def words : List UInt8 → List UInt32
  | x0 :: x1 :: x2 :: x3 :: rest =>
    ((x0.toUInt32 <<< 24) ||| (x1.toUInt32 <<< 16) ||| (x2.toUInt32 <<< 8) ||| x3.toUInt32) :: words rest
  | _ => []

def blocks : ℕ → List UInt32 → List (List UInt32)
  | 0, _ => []
  | n+1, ws => ws.take 16 :: blocks n (ws.drop 16)

def digestWords (msg : List UInt8) : Words :=
  let padded := pad msg
  (blocks (padded.length/64) (words padded)).foldl compress initial

def hexDigit (n : ℕ) : Char :=
  if n < 10 then Char.ofNat (48+n) else Char.ofNat (87+n)

def hexWord (w : UInt32) : List Char :=
  let n := w.toNat
  [hexDigit (n/16^7%16), hexDigit (n/16^6%16), hexDigit (n/16^5%16), hexDigit (n/16^4%16),
   hexDigit (n/16^3%16), hexDigit (n/16^2%16), hexDigit (n/16%16), hexDigit (n%16)]

def hexdigest (msg : List UInt8) : List Char :=
  let s := digestWords msg
  hexWord s.a ++ hexWord s.b ++ hexWord s.c ++ hexWord s.d ++
    hexWord s.e ++ hexWord s.f ++ hexWord s.g ++ hexWord s.h

/-- The characters of the class `[0-9a-f]`. -/
def isHexDigit (c : Char) : Bool := ('0' ≤ c ∧ c ≤ '9') ∨ ('a' ≤ c ∧ c ≤ 'f')

theorem hex_digit_class (n : ℕ) (h : n < 16) : isHexDigit (hexDigit n) = true := by
  interval_cases n <;> decide

theorem hex_word_class (w : UInt32) : ∀ c ∈ hexWord w, isHexDigit c = true := by
  intro c hc
  have digit : ∀ n : ℕ, isHexDigit (hexDigit (n%16)) = true :=
    fun n => hex_digit_class _ (Nat.mod_lt _ (by decide))
  simp only [hexWord, List.mem_cons, List.not_mem_nil, or_false] at hc
  rcases hc with rfl | rfl | rfl | rfl | rfl | rfl | rfl | rfl <;> exact digit _

theorem hexdigest_length (msg : List UInt8) : (hexdigest msg).length = 64 := rfl

theorem hexdigest_class (msg : List UInt8) : ∀ c ∈ hexdigest msg, isHexDigit c = true := by
  intro c hc
  simp only [hexdigest, List.mem_append] at hc
  rcases hc with ((((((h | h) | h) | h) | h) | h) | h) | h <;> exact hex_word_class _ c h

end Sha256
