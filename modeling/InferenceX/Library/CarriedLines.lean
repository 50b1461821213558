import InferenceX.Library.TextLines

/-!
# Lines of a text that arrives in pieces

A reader appends each piece to the line it carries, gives out the lines of the
result and carries the last one on, unless a line feed closes it. Where every
piece stops inside a line or at a line feed, the words of the text, its lines
that are not empty, are those given out and the words of what is carried and
still to come.
-/

set_option autoImplicit false

namespace Library.CarriedLines
open TextLines

def nonblank (lines : List (List Char)) : List (List Char) := lines.filter fun l => l ≠ []

def words (text : List Char) : List (List Char) := nonblank (text.splitOnP isLineBreak)

def carry (buffer piece : List Char) : List (List Char) × List Char :=
  let lines := splitlines (buffer++piece)
  if lines ≠ [] ∧ piece.getLast? ≠ some '\n' then (lines.dropLast, lines.getLastD [])
  else (lines, [])

theorem nonblank_append (xs ys : List (List Char)) :
    nonblank (xs++ys) = nonblank xs++nonblank ys := List.filter_append xs ys

theorem words_break (b : Char) (front rest : List Char) (hb : isLineBreak b = true) :
    words (front++b::rest) = words front++words rest := by
  rw [words, List.splitOnP_append_cons front rest hb, nonblank_append, words, words]

theorem words_line (line : List Char) (hline : ∀ c ∈ line, isLineBreak c = false) :
    words line = nonblank [line] := by
  rw [words, List.splitOnP_eq_singleton hline]

theorem words_feed (rest : List Char) : words ('\n'::rest) = words rest :=
  words_break '\n' [] rest rfl

theorem words_more (rest more z : List Char) (h : more = rest ∨ rest = '\n'::more) :
    words (rest++z) = words (more++z) := by
  rcases h with rfl | rfl
  · rfl
  · exact words_feed (more++z)

theorem splitlines_single (line : List Char) (hline : ∀ c ∈ line, isLineBreak c = false) :
    splitlines line = nonblank [line] := by
  induction line with
  | nil => rfl
  | cons c line ih =>
    have hc := hline c (by simp)
    have hrest := ih fun d hd => hline d (by simp [hd])
    rw [splitlines, if_neg (by simp [hc]), hrest]
    · cases line <;> rfl
    · rintro more rfl -
      cases hc

theorem splitlines_break (line : List Char) (b : Char) (rest : List Char)
    (hline : ∀ c ∈ line, isLineBreak c = false) (hb : isLineBreak b = true) :
    ∃ more, (more = rest ∨ rest = '\n'::more) ∧
      splitlines (line++b::rest) = line::splitlines more := by
  induction line with
  | nil =>
    by_cases hpair : b = '\r' ∧ ∃ more, rest = '\n'::more
    · obtain ⟨rfl, more, rfl⟩ := hpair
      exact ⟨more, Or.inr rfl, rfl⟩
    · apply Exists.intro rest
      rw [List.nil_append, splitlines, if_pos hb]
      · exact ⟨Or.inl rfl, rfl⟩
      · rintro more hr rfl
        exact hpair ⟨hr, more, rfl⟩
  | cons c line ih =>
    have hc := hline c (by simp)
    obtain ⟨more, hmore, hlines⟩ := ih fun d hd => hline d (by simp [hd])
    apply Exists.intro more
    rw [List.cons_append, splitlines, if_neg (by simp [hc]), hlines]
    · exact ⟨hmore, rfl⟩
    · rintro _ rfl -
      cases hc

/-- A text is a line without any break, or a line in front of a break and a
text in which the same holds. -/
@[elab_as_elim]
theorem lines_induction {P : List Char → Prop} (text : List Char)
    (single : ∀ line, (∀ c ∈ line, isLineBreak c = false) → P line)
    (broken : ∀ line b rest more, (∀ c ∈ line, isLineBreak c = false) → isLineBreak b = true →
      (more = rest ∨ rest = '\n'::more) → splitlines (line++b::rest) = line::splitlines more →
      P more → P (line++b::rest)) : P text := by
  induction hn : text.length using Nat.strong_induction_on generalizing text with
  | _ n ih =>
    subst hn
    have hfront : ∀ c ∈ text.takeWhile (fun c => !isLineBreak c), isLineBreak c = false :=
      fun c hc => by simpa using List.mem_takeWhile_imp hc
    have hsplit := List.takeWhile_append_dropWhile (p := fun c => !isLineBreak c) (l := text)
    cases hback : text.dropWhile (fun c => !isLineBreak c) with
    | nil =>
      rw [hback, List.append_nil] at hsplit
      exact single text (hsplit ▸ hfront)
    | cons b rest =>
      have hb : isLineBreak b = true := by
        have hhead := List.head?_dropWhile_not (fun c => !isLineBreak c) text
        simpa [hback] using hhead
      obtain ⟨more, hmore, hlines⟩ := splitlines_break _ b rest hfront hb
      rw [hback] at hsplit
      rw [← hsplit]
      apply broken _ b rest more hfront hb hmore hlines
      apply ih more.length _ more rfl
      rw [← hsplit, List.length_append, List.length_cons]
      rcases hmore with rfl | rfl
      · omega
      · rw [List.length_cons]
        omega

theorem nonblank_splitlines (text : List Char) : nonblank (splitlines text) = words text := by
  induction text using lines_induction with
  | single line hline =>
    rw [splitlines_single line hline, words_line line hline, nonblank, nonblank, List.filter_filter]
    simp
  | broken line b rest more hline hb hmore hlines ih =>
    have hwords := words_more rest more [] hmore
    rw [List.append_nil, List.append_nil] at hwords
    rw [hlines, words_break b line rest hb, words_line line hline, hwords, ← ih]
    exact nonblank_append [line] (splitlines more)

/-- The last line of a text that stops inside it is open to what follows. -/
theorem splitlines_open (text : List Char) (c : Char) (hlast : text.getLast? = some c)
    (hc : isLineBreak c = false) : ∃ ls l, splitlines text = ls++[l] ∧
      ∀ z, words (text++z) = nonblank ls++words (l++z) := by
  induction text using lines_induction with
  | single line hline =>
    have hne : line ≠ [] := by
      rintro rfl
      cases hlast
    apply Exists.intro []
    apply Exists.intro line
    rw [splitlines_single line hline]
    simp [nonblank, hne]
  | broken line b rest more hline hb hmore hlines ih =>
    have hrest : rest.getLast? = some c := by
      cases rest with
      | nil =>
        obtain rfl : b = c := by simpa using hlast
        exact absurd hb (by simp [hc])
      | cons d rest => simpa [List.getLast?_append] using hlast
    have hlastmore : more.getLast? = some c := by
      rcases hmore with rfl | rfl
      · exact hrest
      · cases more with
        | nil =>
          obtain rfl : '\n' = c := by simpa using hrest
          cases hc
        | cons d more => simpa using hrest
    obtain ⟨ls, l, hl, hwords⟩ := ih hlastmore
    apply Exists.intro (line::ls)
    apply Exists.intro l
    rw [hlines, hl]
    apply And.intro rfl
    intro z
    rw [List.append_assoc, List.cons_append, words_break b line _ hb, words_line line hline,
      words_more rest more z hmore, hwords z, ← List.append_assoc, ← nonblank_append]
    rfl

theorem carry_feed (buffer piece : List Char) (hlast : piece.getLast? = some '\n') :
    carry buffer piece = (splitlines (buffer++piece), []) := by
  simp [carry, hlast]

/-- Nothing is lost of a piece that stops inside a line or at a line feed. -/
theorem carry_words (buffer piece z : List Char) (c : Char) (hlast : piece.getLast? = some c)
    (hc : isLineBreak c = true → c = '\n') :
    words (buffer++piece++z) =
      nonblank (carry buffer piece).1++words ((carry buffer piece).2++z) := by
  have hwhole : (buffer++piece).getLast? = some c := by simp [List.getLast?_append, hlast]
  by_cases hfeed : c = '\n'
  · subst hfeed
    obtain ⟨front, hfront⟩ := List.getLast?_eq_some_iff.mp hwhole
    rw [carry_feed buffer piece hlast, nonblank_splitlines, hfront, List.append_assoc,
      List.singleton_append, words_break '\n' front z rfl, words_break '\n' front [] rfl]
    simp [words, nonblank]
  · have hline : isLineBreak c = false := by
      by_contra hb
      exact hfeed (hc (by simpa using hb))
    obtain ⟨ls, l, hl, hwords⟩ := splitlines_open (buffer++piece) c hwhole hline
    have hcarry : carry buffer piece = (ls, l) := by simp [carry, hlast, hfeed, hl]
    rw [hcarry, hwords z]

end Library.CarriedLines
