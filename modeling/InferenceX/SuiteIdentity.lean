import InferenceX.Library.CanonicalJson
import InferenceX.Library.Sha256
import InferenceX.Library.Utf8Text
import InferenceX.PythonValues

/-!
# The identity of a prompt suite

The version of a suite is the digest of the canonical text of its prompts. So
it stands for the prompts themselves, up to collisions of the digest, and a
suite is accepted exactly when it carries the version of its own prompts.
-/

set_option autoImplicit false

namespace InferenceX.SuiteIdentity
open Library.JsonText Library.Sha256 Library.Utf8Text
open InferenceX.PythonValues

/-- `json.dumps(prompts, sort_keys=True, ensure_ascii=False, separators=(",", ":"))`. -/
def canonical (prompts : Json) : List Char := dumps plainEscape (sortKeys prompts)

def computeSuiteVersion (prompts : Json) : String := hexdigest (encode (canonical prompts))

mutual

/-- `repr(value)`. -/
def pyRepr : Json → String
  | .null => "None"
  | .bool b => if b then "True" else "False"
  | .int z => toString z
  | .float x => String.ofList x.repr
  | .str s => stringRepr s
  | .arr items => "[" ++ ", ".intercalate (reprItems items) ++ "]"
  | .obj members => "\x7b" ++ ", ".intercalate (reprMembers members) ++ "\x7d"

def reprItems : List Json → List String
  | [] => []
  | v::rest => pyRepr v::reprItems rest

def reprMembers : List (String × Json) → List String
  | [] => []
  | (k, v)::rest => (stringRepr k ++ ": " ++ pyRepr v)::reprMembers rest

end

/-- `str(value)`. -/
def pyStr : Json → String
  | .str s => s
  | v => pyRepr v

inductive VerifyError where
  | suiteIdentity (message : String)
  | keyError
  deriving DecidableEq

def missingVersion : String :=
  "Suite is missing the 'suite_version' key. Generate it with `make suite-version`."

def versionMismatch (stored : Json) (computed : String) : String :=
  s!"Suite version mismatch: stored {pyStr stored}, computed {computed}. " ++
    "Regenerate it with `make suite-version`."

def verifySuite (data : List (String × Json)) : Except VerifyError (Json × Json) :=
  match member "suite_version" data with
  | none => .error (.suiteIdentity missingVersion)
  | some stored =>
    match member "prompts" data with
    | none => .error .keyError
    | some prompts =>
      let computed := computeSuiteVersion prompts
      match stored with
      | .str version =>
        if computed ≠ version then .error (.suiteIdentity (versionMismatch stored computed))
        else .ok (stored, prompts)
      | _ => .error (.suiteIdentity (versionMismatch stored computed))

/-- A suite is accepted exactly with the version of its own prompts. -/
theorem verifySuite_ok (data : List (String × Json)) (stored prompts : Json) :
    verifySuite data = .ok (stored, prompts) ↔
      member "suite_version" data = some stored ∧ member "prompts" data = some prompts ∧
        stored = .str (computeSuiteVersion prompts) := by
  rw [verifySuite]
  cases hs : member "suite_version" data with
  | none => simp
  | some s =>
    cases hp : member "prompts" data with
    | none => simp
    | some p =>
      cases s with
      | str version =>
        by_cases hv : computeSuiteVersion p = version
        · simp only [hv, ne_eq, not_true_eq_false, if_false, Except.ok.injEq, Prod.mk.injEq,
            Option.some.injEq]
          constructor
          · rintro ⟨rfl, rfl⟩
            exact ⟨rfl, rfl, congrArg Json.str hv.symm⟩
          · rintro ⟨rfl, rfl, -⟩
            exact ⟨rfl, rfl⟩
        · simp only [ne_eq, hv, not_false_eq_true, if_true, reduceCtorEq, Option.some.injEq,
            false_iff]
          rintro ⟨rfl, rfl, h⟩
          exact hv (Json.str.inj h).symm
      | null | bool b | int z | float x | arr xs | obj ms =>
        simp only [reduceCtorEq, Option.some.injEq, false_iff]
        rintro ⟨rfl, -, h⟩
        cases h

theorem computeSuiteVersion_eq_iff (a b : Json) (hd : Distinct a)
    (hfree : computeSuiteVersion a = computeSuiteVersion b →
      encode (canonical a) = encode (canonical b)) :
    computeSuiteVersion a = computeSuiteVersion b ↔ Same a b := by
  rw [← canonical_eq_iff a b hd]
  constructor
  · intro h
    have htext := congrArg decode (hfree h)
    rw [decode_encode, decode_encode] at htext
    exact Option.some.inj htext
  · intro h
    show hexdigest (encode (canonical a)) = _
    rw [canonical, h]
    rfl

/-- Where the digest has no collision on two collections of prompts, they have
one version exactly when they are the same value, and a document is accepted
exactly when its version is that of its prompts. -/
theorem suite_identity (a b : Json) (hd : Distinct a)
    (hfree : computeSuiteVersion a = computeSuiteVersion b →
      encode (canonical a) = encode (canonical b)) :
    (canonical a = canonical b ↔ Same a b) ∧
      (computeSuiteVersion a = computeSuiteVersion b ↔ Same a b) ∧
      ∀ data stored prompts, verifySuite data = .ok (stored, prompts) ↔
        member "suite_version" data = some stored ∧ member "prompts" data = some prompts ∧
          stored = .str (computeSuiteVersion prompts) :=
  ⟨canonical_eq_iff a b hd, computeSuiteVersion_eq_iff a b hd hfree, verifySuite_ok⟩

/-- One prompt, its members in either order. -/
theorem suite_identity_reordered :
    let a := Json.arr [.obj [("label", .str "a"), ("text", .str "hello")]]
    let b := Json.arr [.obj [("text", .str "hello"), ("label", .str "a")]]
    computeSuiteVersion a = computeSuiteVersion b ∧ Same a b := by
  intro a b
  have hd : Distinct a := by simp [a, Distinct, DistinctItems, DistinctMembers]
  have htext : canonical a = canonical b := by decide +kernel
  have hsame := suite_identity a b hd fun _ => congrArg encode htext
  exact ⟨congrArg (fun text => hexdigest (encode text)) htext, hsame.1.mp htext⟩

end InferenceX.SuiteIdentity
