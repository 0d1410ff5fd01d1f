import Mathlib.Data.List.Basic
import Mathlib.Tactic.Common

/-!
# SHA-256

The hash function on byte strings, with words as natural numbers below `2 ^ 32`, and its lowercase
hexadecimal rendering.  The functions compute in the kernel, so a digest of a concrete message can
be evaluated inside a proof.
-/

namespace Sha256

/-! ## Words -/

def add (a b : Nat) : Nat := (a + b) % 4294967296

def rotr (x n : Nat) : Nat := (x >>> n) ||| ((x <<< (32 - n)) % 4294967296)

def ch (x y z : Nat) : Nat := (x &&& y) ^^^ ((4294967295 ^^^ x) &&& z)

def maj (x y z : Nat) : Nat := (x &&& y) ^^^ (x &&& z) ^^^ (y &&& z)

def bigSigma0 (x : Nat) : Nat := rotr x 2 ^^^ rotr x 13 ^^^ rotr x 22

def bigSigma1 (x : Nat) : Nat := rotr x 6 ^^^ rotr x 11 ^^^ rotr x 25

def smallSigma0 (x : Nat) : Nat := rotr x 7 ^^^ rotr x 18 ^^^ (x >>> 3)

def smallSigma1 (x : Nat) : Nat := rotr x 17 ^^^ rotr x 19 ^^^ (x >>> 10)

def roundConstants : List Nat :=
  [0x428a2f98, 0x71374491, 0xb5c0fbcf, 0xe9b5dba5, 0x3956c25b, 0x59f111f1, 0x923f82a4, 0xab1c5ed5,
   0xd807aa98, 0x12835b01, 0x243185be, 0x550c7dc3, 0x72be5d74, 0x80deb1fe, 0x9bdc06a7, 0xc19bf174,
   0xe49b69c1, 0xefbe4786, 0x0fc19dc6, 0x240ca1cc, 0x2de92c6f, 0x4a7484aa, 0x5cb0a9dc, 0x76f988da,
   0x983e5152, 0xa831c66d, 0xb00327c8, 0xbf597fc7, 0xc6e00bf3, 0xd5a79147, 0x06ca6351, 0x14292967,
   0x27b70a85, 0x2e1b2138, 0x4d2c6dfc, 0x53380d13, 0x650a7354, 0x766a0abb, 0x81c2c92e, 0x92722c85,
   0xa2bfe8a1, 0xa81a664b, 0xc24b8b70, 0xc76c51a3, 0xd192e819, 0xd6990624, 0xf40e3585, 0x106aa070,
   0x19a4c116, 0x1e376c08, 0x2748774c, 0x34b0bcb5, 0x391c0cb3, 0x4ed8aa4a, 0x5b9cca4f, 0x682e6ff3,
   0x748f82ee, 0x78a5636f, 0x84c87814, 0x8cc70208, 0x90befffa, 0xa4506ceb, 0xbef9a3f7, 0xc67178f2]

/-! ## Compression -/

structure Registers where
  a : Nat
  b : Nat
  c : Nat
  d : Nat
  e : Nat
  f : Nat
  g : Nat
  h : Nat
deriving DecidableEq

def initial : Registers :=
  ⟨0x6a09e667, 0xbb67ae85, 0x3c6ef372, 0xa54ff53a, 0x510e527f, 0x9b05688c, 0x1f83d9ab, 0x5be0cd19⟩

def round (r : Registers) (k w : Nat) : Registers :=
  let t1 := add (add (add r.h (bigSigma1 r.e)) (add (ch r.e r.f r.g) k)) w
  let t2 := add (bigSigma0 r.a) (maj r.a r.b r.c)
  ⟨add t1 t2, r.a, r.b, r.c, add r.d t1, r.e, r.f, r.g⟩

/-- The word that enters a window of sixteen message words when its first one leaves. -/
def nextWord (window : List Nat) : Nat :=
  add (add (smallSigma1 (window.getD 14 0)) (window.getD 9 0))
    (add (smallSigma0 (window.getD 1 0)) (window.getD 0 0))

/-- One round per constant, over a sliding window of the message schedule. -/
def rounds : List Nat → List Nat → Registers → Registers
  | [], _, r => r
  | k :: ks, window, r =>
    rounds ks (window.tail ++ [nextWord window]) (round r k (window.headD 0))

def compress (r : Registers) (block : List Nat) : Registers :=
  let s := rounds roundConstants block r
  ⟨add r.a s.a, add r.b s.b, add r.c s.c, add r.d s.d, add r.e s.e, add r.f s.f, add r.g s.g,
    add r.h s.h⟩

/-! ## Messages -/

/-- The `n` low bytes of a number, most significant first. -/
def beBytes : Nat → Nat → List UInt8
  | 0, _ => []
  | n + 1, x => beBytes n (x / 256) ++ [UInt8.ofNat (x % 256)]

variable (message : List UInt8)

/-- A one bit, zeros, and the bit length in eight bytes, up to a whole number of blocks. -/
def pad : List UInt8 :=
  message ++ 0x80 :: List.replicate ((119 - message.length % 64) % 64) 0 ++
    beBytes 8 (8 * message.length)

def wordsOf : List UInt8 → List Nat
  | a :: b :: c :: d :: rest =>
    (((a.toNat * 256 + b.toNat) * 256 + c.toNat) * 256 + d.toNat) :: wordsOf rest
  | _ => []

/-- Compress the words in blocks of sixteen; the fuel bounds the number of blocks. -/
def absorb : Nat → Registers → List Nat → Registers
  | 0, r, _ => r
  | fuel + 1, r, words =>
    match words with
    | [] => r
    | _ => absorb fuel (compress r (words.take 16)) (words.drop 16)

def digestWords : List Nat :=
  let words := wordsOf (pad message)
  let r := absorb words.length initial words
  [r.a, r.b, r.c, r.d, r.e, r.f, r.g, r.h]

def digestBytes : List UInt8 := (digestWords message).flatMap (beBytes 4)

theorem beBytes_length (n x : Nat) : (beBytes n x).length = n := by
  induction n generalizing x with
  | zero => rfl
  | succ n ih => simp [beBytes, ih]

theorem digestBytes_length : (digestBytes message).length = 32 := by
  simp [digestBytes, digestWords, beBytes_length]

/-! ## Rendering -/

def hexDigits : List Char :=
  ['0', '1', '2', '3', '4', '5', '6', '7', '8', '9', 'a', 'b', 'c', 'd', 'e', 'f']

def isHexDigit (c : Char) : Bool := hexDigits.contains c

def hexDigit (n : Nat) : Char := hexDigits.getD (n % 16) '0'

/-- The `n` low hexadecimal digits of a number, most significant first. -/
def hexOf : Nat → Nat → List Char
  | 0, _ => []
  | n + 1, x => hexOf n (x / 16) ++ [hexDigit x]

/-- The digest of a message as 64 lowercase hexadecimal characters. -/
def hexChars : List Char := (digestWords message).flatMap (hexOf 8)

def hexDigest : String := String.ofList (hexChars message)

theorem hexDigit_isHexDigit (n : Nat) : isHexDigit (hexDigit n) = true := by
  have h : ∀ k < 16, isHexDigit (hexDigits.getD k '0') = true := by decide
  exact h (n % 16) (Nat.mod_lt _ (by decide))

theorem hexOf_length (n x : Nat) : (hexOf n x).length = n := by
  induction n generalizing x with
  | zero => rfl
  | succ n ih => simp [hexOf, ih]

theorem hexOf_isHexDigit (n x : Nat) : ∀ c ∈ hexOf n x, isHexDigit c = true := by
  induction n generalizing x with
  | zero => simp [hexOf]
  | succ n ih =>
    intro c hc
    rcases List.mem_append.mp hc with hc | hc
    · exact ih (x / 16) c hc
    · rw [List.mem_singleton.mp hc]
      exact hexDigit_isHexDigit x

theorem hexChars_length : (hexChars message).length = 64 := by
  simp [hexChars, digestWords, hexOf_length]

theorem hexChars_isHexDigit : ∀ c ∈ hexChars message, isHexDigit c = true := by
  intro c hc
  obtain ⟨w, _, hc⟩ := List.mem_flatMap.mp hc
  exact hexOf_isHexDigit 8 w c hc

end Sha256
