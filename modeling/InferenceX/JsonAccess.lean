import InferenceX.Library.CharClasses
import InferenceX.Library.JsonLimits
import InferenceX.Library.TextLines
import InferenceX.PythonValues

/-!
# Parsed values under Python's operators

What `get`, `[0]`, `bool` and `int` give on a value of any type, with the
exception each raises on the others. Readers of a stream differ in which of
these they catch.
-/

set_option autoImplicit false

namespace InferenceX.JsonAccess
open Library.JsonText Library.TextLines Library.CharClasses
open InferenceX.PythonValues

/-- `json.loads(text)`. -/
def parse (text : List Char) : Except PyError Json :=
  match loads text with
  | some value => .ok value
  | none => .error .jsonDecodeError

/-- `value.get(name, fallback)`. -/
def dictGet (value : Json) (name : String) (fallback : Json) : Except PyError Json :=
  match value with
  | .obj members => .ok ((member name members).getD fallback)
  | _ => .error .attributeError

/-- `value[0]`. -/
def item0 : Json → Except PyError Json
  | .arr [] => .error .indexError
  | .arr (item::_) => .ok item
  | .str s =>
    match s.toList with
    | [] => .error .indexError
    | c::_ => .ok (.str (String.ofList [c]))
  | .obj _ => .error .keyError
  | _ => .error .typeError

/-- `bool(value)`. -/
def truthy : Json → Bool
  | .null => false
  | .bool b => b
  | .int z => z ≠ 0
  | .float x => x.truthy
  | .str s => s ≠ ""
  | .arr items => !items.isEmpty
  | .obj members => !members.isEmpty

def digitGroups (k : CharTable) (text : List Char) : Option (List ℕ) :=
  let groups := text.splitOn '_'
  if groups.all fun g => !g.isEmpty && g.all fun c => (k.digit c).isSome then
    some (groups.flatten.filterMap k.digit)
  else none

def isIntSpace (c : Char) : Bool := isSpace c && !(0x1c ≤ c.toNat && c.toNat ≤ 0x1f)

def signAndDigits (text : List Char) : ℤ × List Char :=
  match (text.dropWhile isIntSpace).rdropWhile isIntSpace with
  | '-'::digits => (-1, digits)
  | '+'::digits => (1, digits)
  | digits => (1, digits)

/-- `int(text)` of a string. -/
def intOfText (k : CharTable) (s : String) : Except PyError ℤ :=
  let (sign, digits) := signAndDigits s.toList
  match digitGroups k digits with
  | none => .error (.valueError ("invalid literal for int() with base 10: " ++ stringRepr s))
  | some ds =>
    if ds.length ≤ maxStrDigits then .ok (sign*ofDigits ds)
    else .error (.valueError (s!"Exceeds the limit ({maxStrDigits} digits) for integer string " ++
      s!"conversion: value has {ds.length} digits; use sys.set_int_max_str_digits() to " ++
      "increase the limit"))

/-- `int(value)`; a literal that no float holds was read as an infinity. -/
def toInt (k : CharTable) : Json → Except PyError ℤ
  | .bool b => .ok (if b then 1 else 0)
  | .int z => .ok z
  | .float x =>
    match x.value with
    | some q => if |q| < floatBound then .ok (truncate q) else .error .overflowError
    | none => .error (if x = .nan then .valueError "cannot convert float NaN to integer"
        else .overflowError)
  | .str s => intOfText k s
  | _ => .error .typeError

end InferenceX.JsonAccess
