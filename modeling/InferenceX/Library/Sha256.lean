import Mathlib

/-!
# SHA-256

The digest of a byte string: padded to blocks of sixteen words, a schedule of
sixty-four words for each block, and one round of the state for each word.
-/

set_option autoImplicit false

namespace Library.Sha256

abbrev Word := BitVec 32

def roundConstants : List Word := [
  0x428a2f98, 0x71374491, 0xb5c0fbcf, 0xe9b5dba5, 0x3956c25b, 0x59f111f1, 0x923f82a4, 0xab1c5ed5,
  0xd807aa98, 0x12835b01, 0x243185be, 0x550c7dc3, 0x72be5d74, 0x80deb1fe, 0x9bdc06a7, 0xc19bf174,
  0xe49b69c1, 0xefbe4786, 0x0fc19dc6, 0x240ca1cc, 0x2de92c6f, 0x4a7484aa, 0x5cb0a9dc, 0x76f988da,
  0x983e5152, 0xa831c66d, 0xb00327c8, 0xbf597fc7, 0xc6e00bf3, 0xd5a79147, 0x06ca6351, 0x14292967,
  0x27b70a85, 0x2e1b2138, 0x4d2c6dfc, 0x53380d13, 0x650a7354, 0x766a0abb, 0x81c2c92e, 0x92722c85,
  0xa2bfe8a1, 0xa81a664b, 0xc24b8b70, 0xc76c51a3, 0xd192e819, 0xd6990624, 0xf40e3585, 0x106aa070,
  0x19a4c116, 0x1e376c08, 0x2748774c, 0x34b0bcb5, 0x391c0cb3, 0x4ed8aa4a, 0x5b9cca4f, 0x682e6ff3,
  0x748f82ee, 0x78a5636f, 0x84c87814, 0x8cc70208, 0x90befffa, 0xa4506ceb, 0xbef9a3f7, 0xc67178f2]

structure State where
  a : Word
  b : Word
  c : Word
  d : Word
  e : Word
  f : Word
  g : Word
  h : Word

def initial : State :=
  ⟨0x6a09e667, 0xbb67ae85, 0x3c6ef372, 0xa54ff53a, 0x510e527f, 0x9b05688c, 0x1f83d9ab, 0x5be0cd19⟩

namespace State

def add (s t : State) : State :=
  ⟨s.a+t.a, s.b+t.b, s.c+t.c, s.d+t.d, s.e+t.e, s.f+t.f, s.g+t.g, s.h+t.h⟩

def words (s : State) : List Word := [s.a, s.b, s.c, s.d, s.e, s.f, s.g, s.h]

def round (s : State) (p : Word × Word) : State :=
  let sum1 := s.e.rotateRight 6 ^^^ s.e.rotateRight 11 ^^^ s.e.rotateRight 25
  let choice := (s.e &&& s.f) ^^^ (~~~s.e &&& s.g)
  let t1 := s.h+sum1+choice+p.2+p.1
  let sum0 := s.a.rotateRight 2 ^^^ s.a.rotateRight 13 ^^^ s.a.rotateRight 22
  let majority := (s.a &&& s.b) ^^^ (s.a &&& s.c) ^^^ (s.b &&& s.c)
  ⟨t1+(sum0+majority), s.a, s.b, s.c, s.d+t1, s.e, s.f, s.g⟩

end State

/-- The schedule, newest word first; each new word is made of four older ones. -/
def extend : ℕ → List Word → List Word
  | 0, w => w
  | n+1, w =>
    let w15 := w.getD 14 0
    let w2 := w.getD 1 0
    let sigma0 := w15.rotateRight 7 ^^^ w15.rotateRight 18 ^^^ w15 >>> 3
    let sigma1 := w2.rotateRight 17 ^^^ w2.rotateRight 19 ^^^ w2 >>> 10
    extend n ((w.getD 15 0+sigma0+w.getD 6 0+sigma1)::w)

def schedule (block : List Word) : List Word := (extend 48 block.reverse).reverse

def compress (s : State) (block : List Word) : State :=
  s.add (((schedule block).zip roundConstants).foldl State.round s)

def bigEndian : ℕ → ℕ → List UInt8
  | 0, _ => []
  | n+1, x => UInt8.ofNat (x/256^n%256)::bigEndian n x

def pad (message : List UInt8) : List UInt8 :=
  message++0x80::(List.replicate ((119-message.length%64)%64) 0++bigEndian 8 (8*message.length))

def wordsOf : List UInt8 → List Word
  | a::b::c::d::rest =>
    BitVec.ofNat 32 (((a.toNat*256+b.toNat)*256+c.toNat)*256+d.toNat)::wordsOf rest
  | _ => []

def blocks : ℕ → List Word → List (List Word)
  | 0, _ => []
  | n+1, w => w.take 16::blocks n (w.drop 16)

def digest (message : List UInt8) : State :=
  let words := wordsOf (pad message)
  (blocks (words.length/16) words).foldl compress initial

def hexByte (b : UInt8) : List Char := [Nat.digitChar (b.toNat/16), Nat.digitChar (b.toNat%16)]

/-- `hashlib.sha256(message).hexdigest()`. -/
def hexdigest (message : List UInt8) : String :=
  String.ofList ((digest message).words.flatMap fun w => (bigEndian 4 w.toNat).flatMap hexByte)

/-- The two characters of an empty array. -/
example : hexdigest [0x5b, 0x5d] =
    "4f53cda18c2baa0c0354bb5f9a3ecbe5ed12ab4d8e11ba873c2f11161202b945" := by decide +kernel

end Library.Sha256
