import Mathlib

/-!
# JSON values and their compact text

Values are what `json.loads` returns: objects keep their members in text
order and a lookup takes the last member of a name. A float is kept as the
decimal text that `repr` prints, so no rounding enters the model. The
encoder uses the compact separators and is parametric in the escaping of one
character; `asciiEscape` is the `ensure_ascii` one.
-/

set_option autoImplicit false

namespace Library.JsonText

instance ten_ne_zero : NeZero 10 := ⟨by decide⟩

structure Digits where
  head : Fin 10
  tail : List (Fin 10)
  deriving DecidableEq, Repr

structure Exponent where
  negative : Bool
  digits : Digits
  deriving DecidableEq, Repr

inductive FloatTail where
  | frac (digits : Digits) (exponent : Option Exponent)
  | exp (exponent : Exponent)
  deriving DecidableEq, Repr

inductive FloatText where
  | nan
  | infinity (negative : Bool)
  | decimal (negative : Bool) (whole : ℕ) (tail : FloatTail)
  deriving DecidableEq, Repr

inductive Json where
  | null
  | bool (b : Bool)
  | int (z : ℤ)
  | float (x : FloatText)
  | str (s : String)
  | arr (items : List Json)
  | obj (members : List (String × Json))
  deriving Repr

/-- `payload[name]` of a dictionary read from text: a repeated name keeps its last value. -/
def member (name : String) : List (String × Json) → Option Json
  | [] => none
  | (k, v) :: rest => (member name rest).or (if k = name then some v else none)

namespace Digits

def all (ds : Digits) : List (Fin 10) := ds.head :: ds.tail

def chars (ds : Digits) : List Char := ds.all.map fun d => Nat.digitChar d.val

def toNat (ds : Digits) : ℕ := Nat.ofDigitChars 10 ds.chars 0

end Digits

namespace FloatTail

def exponentChars (e : Exponent) : List Char :=
  'e' :: (if e.negative then '-' else '+') :: e.digits.chars

def chars : FloatTail → List Char
  | .frac ds none => '.' :: ds.chars
  | .frac ds (some e) => '.' :: ds.chars ++ exponentChars e
  | .exp e => exponentChars e

end FloatTail

namespace FloatText

def repr : FloatText → List Char
  | .nan => ['n', 'a', 'n']
  | .infinity false => ['i', 'n', 'f']
  | .infinity true => ['-', 'i', 'n', 'f']
  | .decimal neg whole tail =>
    (if neg then ['-'] else []) ++ (Nat.toDigits 10 whole ++ tail.chars)

def chars : FloatText → List Char
  | .nan => ['N', 'a', 'N']
  | .infinity false => ['I', 'n', 'f', 'i', 'n', 'i', 't', 'y']
  | .infinity true => ['-', 'I', 'n', 'f', 'i', 'n', 'i', 't', 'y']
  | .decimal neg whole tail =>
    (if neg then ['-'] else []) ++ (Nat.toDigits 10 whole ++ tail.chars)

def exponentFactor : Option Exponent → ℚ
  | none => 1
  | some e => if e.negative then 1 / 10 ^ e.digits.toNat else 10 ^ e.digits.toNat

def magnitude (whole : ℕ) : FloatTail → ℚ
  | .frac ds e => (whole + (ds.toNat : ℚ) / 10 ^ ds.all.length) * exponentFactor e
  | .exp e => whole * exponentFactor (some e)

def value : FloatText → Option ℚ
  | .nan => none
  | .infinity _ => none
  | .decimal neg whole tail => some (if neg then - magnitude whole tail else magnitude whole tail)

def zeroBound : ℚ := 1/2^1075

def vanishes (whole : ℕ) (tail : FloatTail) : Bool := decide (magnitude whole tail ≤ zeroBound)

/-- `x <= 0` as Python compares a float with zero. -/
def nonpositive : FloatText → Bool
  | .nan => false
  | .infinity neg => neg
  | .decimal neg whole tail => neg || vanishes whole tail

/-- `bool(x)`: only the two zeros are false. -/
def truthy : FloatText → Bool
  | .decimal _ whole tail => !vanishes whole tail
  | _ => true

def short (whole : ℕ) (d : Fin 10) : FloatText := .decimal false whole (.frac ⟨d, []⟩ none)

end FloatText

def hexDigit (n : ℕ) : Char := Nat.digitChar (n % 16)

def unitChars (n : ℕ) : List Char :=
  ['u', hexDigit (n / 4096), hexDigit (n / 256), hexDigit (n / 16), hexDigit n]

def unicodeEscape (n : ℕ) : List Char := '\\' :: unitChars n

def highSurrogate (n : ℕ) : ℕ := 0xd800 + (n - 0x10000) / 1024

def lowSurrogate (n : ℕ) : ℕ := 0xdc00 + (n - 0x10000) % 1024

/-- The escaping of `ensure_ascii=True`: what is left plain is the printable
ASCII range without the quote and the backslash. -/
def asciiEscape (c : Char) : List Char :=
  if c = '\\' then ['\\', '\\']
  else if c = '"' then ['\\', '"']
  else if c = '\n' then ['\\', 'n']
  else if c = '\r' then ['\\', 'r']
  else if c = '\t' then ['\\', 't']
  else if c = Char.ofNat 8 then ['\\', 'b']
  else if c = Char.ofNat 12 then ['\\', 'f']
  else if 0x20 ≤ c.toNat ∧ c.toNat ≤ 0x7e then [c]
  else if c.toNat < 0x10000 then unicodeEscape c.toNat
  else unicodeEscape (highSurrogate c.toNat) ++ unicodeEscape (lowSurrogate c.toNat)

section Encoder
variable (escape : Char → List Char)

def quoted (s : String) : List Char := '"' :: (s.toList.flatMap escape ++ ['"'])

def intChars (z : ℤ) : List Char :=
  if z < 0 then '-' :: Nat.toDigits 10 z.natAbs else Nat.toDigits 10 z.natAbs

mutual

/-- `json.dumps(value, separators=(",", ":"))`. -/
def dumps : Json → List Char
  | .null => ['n', 'u', 'l', 'l']
  | .bool b => if b then ['t', 'r', 'u', 'e'] else ['f', 'a', 'l', 's', 'e']
  | .int z => intChars z
  | .float x => x.chars
  | .str s => quoted escape s
  | .arr items => '[' :: dumpsItems items
  | .obj members => '{' :: dumpsMembers members

def dumpsItems : List Json → List Char
  | [] => [']']
  | [v] => dumps v ++ [']']
  | v :: rest => dumps v ++ ',' :: dumpsItems rest

def dumpsMembers : List (String × Json) → List Char
  | [] => ['}']
  | [(k, v)] => quoted escape k ++ ':' :: (dumps v ++ ['}'])
  | (k, v) :: rest => quoted escape k ++ ':' :: (dumps v ++ ',' :: dumpsMembers rest)

end

end Encoder

/-- The encoder with `ensure_ascii=True`, the default of `json.dumps`. -/
def asciiDumps (v : Json) : List Char := dumps asciiEscape v

end Library.JsonText
