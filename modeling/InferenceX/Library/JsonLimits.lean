import InferenceX.Library.JsonBytes

/-!
# What an interpreter reads of JSON

The reader opens brackets only as deep as its stack reaches and converts no
integer of more digits than the interpreter allows. Beyond either bound it
raises, where the grammar has a value.
-/

set_option autoImplicit false

namespace Library.JsonText

def maxStrDigits : ℕ := 4300

mutual

def within : ℕ → Json → Bool
  | _, .int z => decide ((Nat.toDigits 10 z.natAbs).length ≤ maxStrDigits)
  | 0, .arr _ => false
  | depth+1, .arr items => withinItems depth items
  | 0, .obj _ => false
  | depth+1, .obj members => withinMembers depth members
  | _, _ => true

def withinItems : ℕ → List Json → Bool
  | _, [] => true
  | depth, v::rest => within depth v && withinItems depth rest

def withinMembers : ℕ → List (String × Json) → Bool
  | _, [] => true
  | depth, (_, v)::rest => within depth v && withinMembers depth rest

end

def loadsWithin (depth : ℕ) (text : List Char) : Option Json := (loads text).filter (within depth)

def loadsBytesWithin (depth : ℕ) (data : List UInt8) : Option Json :=
  (loadsBytes data).filter (within depth)

end Library.JsonText
