import InferenceX.Library.JsonRead

/-!
# JSON text with blanks

The encoder with `indent` puts each item on a line of its own and a blank
behind a colon. A layout gives the blanks at each depth, so that the compact
text is the layout without any. `plainEscape` is the escaping of
`ensure_ascii=False`.
-/

set_option autoImplicit false

namespace Library.JsonText

def Blanks (text : List Char) : Prop := ∀ c ∈ text, isBlank c = true

structure Layout where
  item : ℕ → List Char
  close : ℕ → List Char
  colon : List Char
  item_blanks : ∀ depth, Blanks (item depth)
  close_blanks : ∀ depth, Blanks (close depth)
  colon_blanks : Blanks colon

def compact : Layout where
  item _ := []
  close _ := []
  colon := []
  item_blanks _ := List.forall_mem_nil _
  close_blanks _ := List.forall_mem_nil _
  colon_blanks := List.forall_mem_nil _

def newline (spaces : ℕ) : List Char := '\n'::List.replicate spaces ' '

theorem newline_blanks (spaces : ℕ) : Blanks (newline spaces) := by
  intro c hc
  rcases List.mem_cons.mp hc with rfl | hc
  · rfl
  · rw [List.eq_of_mem_replicate hc]
    rfl

/-- `indent=width`. -/
def indented (width : ℕ) : Layout where
  item depth := newline (width*(depth+1))
  close depth := newline (width*depth)
  colon := [' ']
  item_blanks _ := newline_blanks _
  close_blanks _ := newline_blanks _
  colon_blanks := by
    intro c hc
    rw [List.mem_singleton.mp hc]
    rfl

/-- The escaping of `ensure_ascii=False`. -/
def plainEscape (c : Char) : List Char :=
  if c = '\\' then ['\\', '\\']
  else if c = '"' then ['\\', '"']
  else if c = '\n' then ['\\', 'n']
  else if c = '\r' then ['\\', 'r']
  else if c = '\t' then ['\\', 't']
  else if c = Char.ofNat 8 then ['\\', 'b']
  else if c = Char.ofNat 12 then ['\\', 'f']
  else if c.toNat < 0x20 then unicodeEscape c.toNat
  else [c]

section Printer
variable (L : Layout) (escape : Char → List Char)

mutual

/-- `json.dumps(value)` in a layout, at a depth of brackets. -/
def print : ℕ → Json → List Char
  | _, .null => ['n', 'u', 'l', 'l']
  | _, .bool b => if b then ['t', 'r', 'u', 'e'] else ['f', 'a', 'l', 's', 'e']
  | _, .int z => intChars z
  | _, .float x => x.chars
  | _, .str s => quoted escape s
  | depth, .arr items => '[' :: printItems depth items
  | depth, .obj members => '{' :: printMembers depth members

def printItems : ℕ → List Json → List Char
  | _, [] => [']']
  | depth, [v] => L.item depth++(print (depth+1) v++(L.close depth++[']']))
  | depth, v::rest => L.item depth++(print (depth+1) v++(','::printItems depth rest))

def printMembers : ℕ → List (String × Json) → List Char
  | _, [] => ['}']
  | depth, [(k, v)] => L.item depth++(quoted escape k++(':'::(L.colon++
      (print (depth+1) v++(L.close depth++['}'])))))
  | depth, (k, v)::rest => L.item depth++(quoted escape k++(':'::(L.colon++
      (print (depth+1) v++(','::printMembers depth rest)))))

end

end Printer

section Compact
variable (escape : Char → List Char)

mutual

theorem print_compact (depth : ℕ) (v : Json) : print compact escape depth v = dumps escape v := by
  match v with
  | .null => rfl
  | .bool b => rfl
  | .int z => rfl
  | .float x => rfl
  | .str s => rfl
  | .arr items => rw [print, dumps, printItems_compact depth items]
  | .obj members => rw [print, dumps, printMembers_compact depth members]

theorem printItems_compact (depth : ℕ) (items : List Json) :
    printItems compact escape depth items = dumpsItems escape items := by
  match items with
  | [] => rfl
  | [v] =>
    rw [printItems, dumpsItems, print_compact (depth+1) v]
    rfl
  | v::w::rest =>
    have hrest := printItems_compact depth (w::rest)
    rw [printItems, dumpsItems, print_compact (depth+1) v, hrest]
    · rfl
    · simp
    · simp

theorem printMembers_compact (depth : ℕ) (members : List (String × Json)) :
    printMembers compact escape depth members = dumpsMembers escape members := by
  match members with
  | [] => rfl
  | [(k, v)] =>
    rw [printMembers, dumpsMembers, print_compact (depth+1) v]
    rfl
  | (k, v)::m::rest =>
    have hrest := printMembers_compact depth (m::rest)
    rw [printMembers, dumpsMembers, print_compact (depth+1) v, hrest]
    · rfl
    · simp
    · simp

end

end Compact

end Library.JsonText
