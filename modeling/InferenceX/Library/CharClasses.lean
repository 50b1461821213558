import Mathlib

/-!
# Character classes of a pattern language

`\d` and `\w` follow the Unicode tables outside of ASCII, so the tables are a
structure with what holds of every version of them. A word boundary lies
between a word character and anything else.
-/

set_option autoImplicit false

namespace Library.CharClasses

structure CharTable where
  digit : Char → Option ℕ
  word : Char → Bool
  digit_ascii : ∀ c, c.toNat < 128 → digit c = if c.isDigit then some (c.toNat-48) else none
  word_ascii : ∀ c, c.toNat < 128 → word c = (c.isAlphanum || c == '_')
  digit_word : ∀ c, (digit c).isSome = true → word c = true

def ascii : CharTable where
  digit c := if c.isDigit then some (c.toNat-48) else none
  word c := c.isAlphanum || c == '_'
  digit_ascii _ _ := rfl
  word_ascii _ _ := rfl
  digit_word c h := by
    have hc : c.isDigit = true := by
      by_contra hd
      simp [hd] at h
    simp [Char.isAlphanum, hc]

namespace CharTable
variable (k : CharTable)

def digits : List Char → List ℕ × List Char
  | [] => ([], [])
  | c::rest =>
    match k.digit c with
    | some d => (d::(digits rest).1, (digits rest).2)
    | none => ([], c::rest)

def ends : List Char → Bool
  | [] => true
  | c::_ => !k.word c

end CharTable

def ofDigits (ds : List ℕ) : ℕ := ds.foldl (fun n d => 10*n+d) 0

end Library.CharClasses
