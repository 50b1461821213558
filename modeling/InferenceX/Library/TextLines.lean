import Mathlib

/-!
# Blanks and lines of a Python text

`str.strip` drops the characters of `str.isspace` from both ends.
`str.splitlines` ends a line at any of ten boundaries, the pair of carriage
return and line feed counting once, and gives no empty line at the end.
-/

set_option autoImplicit false

namespace Library.TextLines

def isSpace (c : Char) : Bool :=
  let n := c.toNat
  (9 ≤ n && n ≤ 13) || (0x1c ≤ n && n ≤ 0x20) || n == 0x85 || n == 0xa0 || n == 0x1680 ||
    (0x2000 ≤ n && n ≤ 0x200a) || n == 0x2028 || n == 0x2029 || n == 0x202f || n == 0x205f ||
    n == 0x3000

def strip (text : List Char) : List Char := (text.dropWhile isSpace).rdropWhile isSpace

def isLineBreak (c : Char) : Bool :=
  let n := c.toNat
  (10 ≤ n && n ≤ 13) || (0x1c ≤ n && n ≤ 0x1e) || n == 0x85 || n == 0x2028 || n == 0x2029

def extend (c : Char) : List (List Char) → List (List Char)
  | [] => [[c]]
  | l::ls => (c::l)::ls

def splitlines : List Char → List (List Char)
  | [] => []
  | '\r' :: '\n' :: rest => [] :: splitlines rest
  | c::rest => if isLineBreak c then []::splitlines rest else extend c (splitlines rest)

theorem strip_inner (c d : Char) (text : List Char) (hc : isSpace c = false)
    (hd : isSpace d = false) : strip (c::(text++[d])) = c::(text++[d]) := by
  rw [strip, List.dropWhile_cons_of_neg (by simp [hc]), ← List.cons_append,
    List.rdropWhile_concat_neg _ _ _ (by simp [hd])]

theorem strip_lead (c : Char) (text : List Char) (hc : isSpace c = true) :
    strip (c::text) = strip text := by
  rw [strip, List.dropWhile_cons_of_pos hc, strip]

/-- A text without boundaries is the line before the next line feed. -/
theorem splitlines_line (line rest : List Char) (hl : ∀ c ∈ line, isLineBreak c = false) :
    splitlines (line ++ '\n' :: rest) = line :: splitlines rest := by
  induction line with
  | nil => rfl
  | cons c line ih =>
    have hc := hl c (by simp)
    have hne : c ≠ '\r' := by
      rintro rfl
      cases hc
    rw [List.cons_append, splitlines, if_neg (by simp [hc]), ih fun d hd => hl d (by simp [hd])]
    · rfl
    · intro more hr _
      exact absurd hr hne

end Library.TextLines
