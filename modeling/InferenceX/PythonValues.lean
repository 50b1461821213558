import InferenceX.Library.JsonText

/-!
# Exceptions and numbers of the Python source

One constructor for each exception class that a modelled path raises, catches
or forwards. The admission errors keep their messages, since the 429 handler
sends one of them to the client.
-/

set_option autoImplicit false

namespace InferenceX.PythonValues

inductive PyError where
  | contextTooLong (message : String)
  | engineSaturated (message : String) (retryAfterS : ℚ)
  | strictModeViolation (message : String)
  | valueError (message : String)
  | jsonDecodeError
  | attributeError
  | typeError
  | keyError
  | indexError
  | overflowError
  | runtimeError (message : String)
  | noVariantFits (message : String)
  | timeoutError
  | stopAsyncIteration
  | cancelledError
  | generatorExit
  | other (name : String)
  deriving DecidableEq, Repr

namespace PyError

/-- Subclasses of `Exception`; the two signals of the runtime are not. -/
def isException : PyError → Bool
  | .cancelledError => false
  | .generatorExit => false
  | _ => true

/-- `isinstance(exc, ValueError)`: two admission errors subclass it. -/
def isValueError : PyError → Bool
  | .contextTooLong _ => true
  | .strictModeViolation _ => true
  | .valueError _ => true
  | .jsonDecodeError => true
  | _ => false

end PyError

theorem bind_ok {A B : Type} {x : Except PyError A} {f : A → Except PyError B} {b : B}
    (h : x >>= f = .ok b) : ∃ a, x = .ok a ∧ f a = .ok b := by
  cases x with
  | error e => cases h
  | ok a => exact ⟨a, rfl, h⟩

theorem bind_error {A B : Type} {x : Except PyError A} {f : A → Except PyError B} {e : PyError}
    (h : x >>= f = .error e) : x = .error e ∨ ∃ a, x = .ok a ∧ f a = .error e := by
  cases x with
  | error e' => exact Or.inl (congrArg Except.error (Except.error.inj h))
  | ok a => exact Or.inr ⟨a, rfl, h⟩

theorem map_ok {A B : Type} {x : Except PyError A} {f : A → B} {b : B} (h : x.map f = .ok b) :
    ∃ a, x = .ok a ∧ f a = b := by
  cases x with
  | error e => cases h
  | ok a => exact ⟨a, rfl, Except.ok.inj h⟩

theorem mapM_ok {A B : Type} (f : A → Except PyError B) (xs : List A) (ys : List B)
    (h : xs.mapM f = .ok ys) : xs.map f = ys.map .ok := by
  induction xs generalizing ys with
  | nil =>
    obtain rfl : [] = ys := Except.ok.inj h
    rfl
  | cons x xs ih =>
    rw [List.mapM_cons] at h
    obtain ⟨y, hy, h⟩ := bind_ok h
    obtain ⟨zs, hzs, h⟩ := bind_ok h
    obtain rfl : y :: zs = ys := Except.ok.inj h
    rw [List.map_cons, List.map_cons, hy, ih zs hzs]

/-- `int(q)`, which drops the fractional part towards zero. -/
def truncate (q : ℚ) : ℤ := if 0 ≤ q then ⌊q⌋ else ⌈q⌉

/-- The least magnitude that no float holds: halfway from the largest one to `2 ^ 1024`. -/
def floatBound : ℕ := 2 ^ 1024 - 2 ^ 970

def toFloat (n : ℤ) : Except PyError ℚ :=
  if n.natAbs < floatBound then .ok n else .error .overflowError

/-- `round(q)`: the nearest integer, the even one of two. -/
def roundHalfEven (q : ℚ) : ℤ :=
  let rest := q - ⌊q⌋
  if rest < 1 / 2 then ⌊q⌋
  else if 1 / 2 < rest then ⌊q⌋ + 1
  else if ⌊q⌋ % 2 = 0 then ⌊q⌋ else ⌊q⌋ + 1

/-- `round(q, places)`. -/
def roundPlaces (places : ℕ) (q : ℚ) : ℚ := roundHalfEven (q * 10 ^ places) / 10 ^ places

/-- `format(q, ".{places}f")`. -/
def fixedText (places : ℕ) (q : ℚ) : String :=
  let n := (roundHalfEven (|q| * 10 ^ places)).natAbs
  let fraction := (toString (10 ^ places + n % 10 ^ places)).toList.drop 1
  (if q < 0 then "-" else "") ++ toString (n / 10 ^ places) ++
    (if places = 0 then "" else "." ++ String.ofList fraction)

/-- `a or b` on an optional integer: zero is as false as an absent value. -/
def pyOr (a b : Option ℤ) : Option ℤ :=
  match a with
  | some z => if z = 0 then b else some z
  | none => b

/-- `repr` of one character inside a string; characters past ASCII are taken
to be printable. -/
def reprChar (quote c : Char) : List Char :=
  if c = '\\' then ['\\', '\\']
  else if c = quote then ['\\', c]
  else if c = '\t' then ['\\', 't']
  else if c = '\n' then ['\\', 'n']
  else if c = '\r' then ['\\', 'r']
  else if c.toNat < 0x20 ∨ c.toNat = 0x7f then
    ['\\', 'x', Library.JsonText.hexDigit (c.toNat / 16), Library.JsonText.hexDigit c.toNat]
  else [c]

/-- `repr(s)`: double quotes only around a text with single and no double ones. -/
def stringRepr (s : String) : String :=
  let quote := if s.toList.contains '\'' && !s.toList.contains '"' then '"' else '\''
  String.ofList (quote :: (s.toList.flatMap (reprChar quote) ++ [quote]))

/-- `str(names)` of a list of strings. -/
def listRepr (names : List String) : String :=
  "[" ++ ", ".intercalate (names.map stringRepr) ++ "]"

theorem roundHalfEven_floor (q : ℚ) :
    ⌊q⌋ ≤ roundHalfEven q ∧ roundHalfEven q ≤ ⌊q⌋ + 1 := by
  simp only [roundHalfEven]
  split_ifs <;> omega

theorem roundHalfEven_mono : Monotone roundHalfEven := by
  intro q r h
  rcases (Int.floor_le_floor h).lt_or_eq with hlt | heq
  · have hq := (roundHalfEven_floor q).2
    have hr := (roundHalfEven_floor r).1
    omega
  · -- Between the same two integers the rests decide.
    have hrest : q - ⌊q⌋ ≤ r - ⌊r⌋ := by rw [heq]; linarith
    simp only [roundHalfEven]
    rw [heq] at hrest ⊢
    split_ifs <;> first | omega | linarith

theorem roundHalfEven_near (q : ℚ) : |(roundHalfEven q : ℚ) - q| ≤ 1 / 2 := by
  have hfloor := Int.floor_le q
  have hnext := Int.lt_floor_add_one q
  rw [abs_le]
  simp only [roundHalfEven]
  split_ifs <;> push_cast <;> constructor <;> linarith

theorem roundHalfEven_int (n : ℤ) : roundHalfEven n = n := by
  simp [roundHalfEven]

theorem roundHalfEven_eq_zero (q : ℚ) (h : 0 ≤ q) : roundHalfEven q = 0 ↔ q ≤ 1 / 2 := by
  constructor
  · intro hzero
    have hnear := (abs_le.mp (roundHalfEven_near q)).1
    rw [hzero] at hnear
    push_cast at hnear
    linarith
  · intro hle
    have hfloor : ⌊q⌋ = 0 := Int.floor_eq_zero_iff.mpr ⟨h, by linarith⟩
    simp only [roundHalfEven, hfloor]
    split_ifs with hlow hhigh heven
    · rfl
    · push_cast at hhigh
      linarith
    · rfl
    · exact absurd rfl heven

theorem roundPlaces_mono (places : ℕ) : Monotone (roundPlaces places) := by
  intro q r h
  have hscaled : q * 10 ^ places ≤ r * 10 ^ places := by gcongr
  have hrounded : (roundHalfEven (q * 10 ^ places) : ℚ) ≤ roundHalfEven (r * 10 ^ places) := by
    exact_mod_cast roundHalfEven_mono hscaled
  simp only [roundPlaces]
  gcongr

theorem roundPlaces_near (places : ℕ) (q : ℚ) :
    |roundPlaces places q - q| ≤ 1 / 2 / 10 ^ places := by
  have hpos : (0 : ℚ) < 10 ^ places := by positivity
  have hscale : roundPlaces places q - q =
      (roundHalfEven (q * 10 ^ places) - q * 10 ^ places) / 10 ^ places := by
    rw [roundPlaces, sub_div, mul_div_cancel_right₀ _ hpos.ne']
  rw [hscale, abs_div, abs_of_pos hpos]
  gcongr
  exact roundHalfEven_near _

theorem roundPlaces_int (places : ℕ) (n : ℤ) : roundPlaces places n = n := by
  have hscaled : (n : ℚ) * 10 ^ places = ((n * 10 ^ places : ℤ) : ℚ) := by push_cast; rfl
  rw [roundPlaces, hscaled, roundHalfEven_int, ← hscaled]
  exact mul_div_cancel_right₀ _ (by positivity)

theorem roundPlaces_eq_zero (places : ℕ) (q : ℚ) (h : 0 ≤ q) :
    roundPlaces places q = 0 ↔ q * 10 ^ places ≤ 1 / 2 := by
  have hpos : (10 : ℚ) ^ places ≠ 0 := by positivity
  rw [roundPlaces, div_eq_zero_iff, or_iff_left hpos, Int.cast_eq_zero]
  exact roundHalfEven_eq_zero _ (by positivity)

theorem truncate_of_nonneg (q : ℚ) (h : 0 ≤ q) : truncate q = ⌊q⌋ := if_pos h

theorem truncate_le (q : ℚ) (h : 0 ≤ q) : (truncate q : ℚ) ≤ q := by
  rw [truncate_of_nonneg q h]
  exact Int.floor_le q

theorem le_truncate (q : ℚ) (n : ℕ) (h : (n : ℚ) ≤ q) : (n : ℤ) ≤ truncate q := by
  rw [truncate_of_nonneg q ((Nat.cast_nonneg n).trans h)]
  exact Int.le_floor.mpr (by simpa using h)

end InferenceX.PythonValues
