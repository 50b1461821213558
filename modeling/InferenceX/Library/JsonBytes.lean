import InferenceX.Library.JsonRead
import InferenceX.Library.Utf8Text

/-!
# JSON text in bytes

`json.loads` of bytes takes the encoding from a byte order mark or from the
zero bytes among the first four, and lets surrogates pass. A surrogate
without its partner has no scalar value and reads as U+FFFD.
-/

set_option autoImplicit false

namespace Library.JsonText
open Library.Utf8Text

inductive Encoding where
  | utf8
  | utf16 (big : Bool)
  | utf32 (big : Bool)
  deriving DecidableEq, Repr

def detectEncoding (data : List UInt8) : Encoding × ℕ :=
  match data with
  | 0x00::0x00::0xfe::0xff::_ => (.utf32 true, 4)
  | 0xff::0xfe::0x00::0x00::_ => (.utf32 false, 4)
  | 0xfe::0xff::_ => (.utf16 true, 2)
  | 0xff::0xfe::_ => (.utf16 false, 2)
  | 0xef::0xbb::0xbf::_ => (.utf8, 3)
  | a::b::c::d::_ =>
    if a = 0 then (if b = 0 then .utf32 true else .utf16 true, 0)
    else if b = 0 then (if c = 0 ∧ d = 0 then .utf32 false else .utf16 false, 0)
    else (.utf8, 0)
  | [a, b] => (if a = 0 then .utf16 true else if b = 0 then .utf16 false else .utf8, 0)
  | _ => (.utf8, 0)

def isSurrogate (n : ℕ) : Bool := 0xd800 ≤ n && n ≤ 0xdfff

def unitChar (n : ℕ) : Char := if isSurrogate n then Char.ofNat 0xfffd else Char.ofNat n

def passSurrogates : List UInt8 → List UInt8
  | a::b::c::rest =>
    if a = 0xed ∧ 0xa0 ≤ b ∧ b ≤ 0xbf ∧ 0x80 ≤ c ∧ c ≤ 0xbf then
      0xef::0xbf::0xbd::passSurrogates rest
    else a::passSurrogates (b::c::rest)
  | data => data

def units16 (big : Bool) : List UInt8 → Option (List ℕ)
  | [] => some []
  | [_] => none
  | a::b::rest =>
    let unit := if big then a.toNat*256+b.toNat else b.toNat*256+a.toNat
    (units16 big rest).map (unit::·)

def joinUnits : List ℕ → List Char
  | high::low::rest =>
    if 0xd800 ≤ high ∧ high ≤ 0xdbff ∧ 0xdc00 ≤ low ∧ low ≤ 0xdfff then
      Char.ofNat (pairedUnit high low)::joinUnits rest
    else unitChar high::joinUnits (low::rest)
  | [unit] => [unitChar unit]
  | [] => []

def units32 (big : Bool) : List UInt8 → Option (List Char)
  | [] => some []
  | a::b::c::d::rest =>
    let value := if big then ((a.toNat*256+b.toNat)*256+c.toNat)*256+d.toNat
      else ((d.toNat*256+c.toNat)*256+b.toNat)*256+a.toNat
    if value < 0x110000 then (units32 big rest).map (unitChar value::·) else none
  | _ => none

/-- `data.decode(detect_encoding(data), "surrogatepass")`. -/
def decodeDetected (data : List UInt8) : Option (List Char) :=
  let (encoding, mark) := detectEncoding data
  match encoding with
  | .utf8 => decode (passSurrogates (data.drop mark))
  | .utf16 big => (units16 big (data.drop mark)).map joinUnits
  | .utf32 big => units32 big (data.drop mark)

/-- `json.loads(data)`. -/
def loadsBytes (data : List UInt8) : Option Json := decodeDetected data >>= loads

theorem passSurrogates_cons (b : UInt8) (rest : List UInt8)
    (h : b = 0xed → ∀ c ∈ rest.head?, c < 0xa0) :
    passSurrogates (b::rest) = b::passSurrogates rest := by
  rcases rest with _ | ⟨c, _ | ⟨d, rest⟩⟩
  · rfl
  · rfl
  · rw [passSurrogates, if_neg]
    rintro ⟨hb, hc, -⟩
    exact absurd hc (UInt8.not_le.mpr (h hb c rfl))

theorem passSurrogates_encodeChar (c : Char) (rest : List UInt8) :
    passSurrogates (String.utf8EncodeChar c++rest) =
      String.utf8EncodeChar c++passSurrogates rest := by
  have hval : c.val.toNat < 0xd800 ∨ 0xdfff < c.val.toNat ∧ c.val.toNat < 0x110000 := c.valid
  have hne : ∀ n, n < 256 → n ≠ 0xed → UInt8.ofNat n ≠ 0xed := by
    intro n hn hne heq
    have hnat := congrArg UInt8.toNat heq
    rw [UInt8.toNat_ofNat'] at hnat
    exact hne ((Nat.mod_eq_of_lt hn).symm.trans hnat)
  generalize hv : c.val.toNat = v at hval
  unfold String.utf8EncodeChar
  simp only [hv]
  have hfree : ∀ n rest, n < 256 → n ≠ 0xed →
      passSurrogates (UInt8.ofNat n::rest) = UInt8.ofNat n::passSurrogates rest :=
    fun n rest hn hed => passSurrogates_cons _ _ fun h => absurd h (hne n hn hed)
  split_ifs with h1 h2 h3 <;> simp only [List.cons_append, List.nil_append]
  · rw [hfree _ _ (by omega) (by omega)]
  · rw [hfree _ _ (by omega) (by omega), hfree _ _ (by omega) (by omega)]
  · rw [passSurrogates_cons, hfree _ _ (by omega) (by omega), hfree _ _ (by omega) (by omega)]
    -- Behind the byte of the surrogates stands one below theirs.
    intro hed b hb
    have hlead := congrArg UInt8.toNat hed
    rw [UInt8.toNat_ofNat'] at hlead
    change _ = 0xed at hlead
    obtain rfl : UInt8.ofNat (v/64%64+0x80) = b := by simpa using hb
    rw [UInt8.lt_iff_toNat_lt, UInt8.toNat_ofNat']
    change _ < 0xa0
    omega
  · rw [hfree _ _ (by omega) (by omega), hfree _ _ (by omega) (by omega),
      hfree _ _ (by omega) (by omega), hfree _ _ (by omega) (by omega)]

theorem passSurrogates_encode (text : List Char) : passSurrogates (encode text) = encode text := by
  induction text with
  | nil => rfl
  | cons c text ih =>
    change passSurrogates (String.utf8EncodeChar c++encode text) = _
    rw [passSurrogates_encodeChar, ih]
    rfl

theorem detectEncoding_object (rest : List UInt8) :
    detectEncoding (0x7b::0x22::rest) = (.utf8, 0) := by
  rcases rest with _ | ⟨c, _ | ⟨d, rest⟩⟩ <;> rfl

theorem loadsBytes_object (text : List Char) :
    loadsBytes (encode ('{':: '"'::text)) = loads ('{':: '"'::text) := by
  have hcode : encode ('{':: '"'::text) = 0x7b::0x22::encode text := rfl
  rw [loadsBytes, decodeDetected, hcode, detectEncoding_object]
  simp only [List.drop_zero]
  rw [← hcode, passSurrogates_encode, decode_encode]
  rfl

end Library.JsonText
