import InferenceX.Library.JsonRoundTrip

/-!
# Which characters the encoder writes

Every part of a text but its strings and blanks is printable ASCII. So any
class of characters with these and with what the layout and the escaping
write has all of the text: printable ASCII itself for the compact ASCII text.
-/

set_option autoImplicit false

namespace Library.JsonText

def Printable (c : Char) : Prop := 0x20 ≤ c.toNat ∧ c.toNat ≤ 0x7e

instance (c : Char) : Decidable (Printable c) :=
  inferInstanceAs (Decidable (_ ∧ _))

def AllPrintable (text : List Char) : Prop := ∀ c ∈ text, Printable c

theorem allPrintable_nil : AllPrintable [] := by
  intro c hc
  cases hc

theorem allPrintable_append (s t : List Char) (hs : AllPrintable s) (ht : AllPrintable t) :
    AllPrintable (s ++ t) := by
  intro c hc
  rcases List.mem_append.mp hc with h | h
  · exact hs c h
  · exact ht c h

theorem allPrintable_cons (c : Char) (t : List Char) (hc : Printable c) (ht : AllPrintable t) :
    AllPrintable (c :: t) :=
  allPrintable_append [c] t (by simpa [AllPrintable] using hc) ht

theorem allPrintable_of_check (text : List Char)
    (h : text.all (fun c => decide (Printable c)) = true) : AllPrintable text := by
  intro c hc
  simpa using List.all_eq_true.mp h c hc

theorem digit_printable (c : Char) (h : c.isDigit = true) : Printable c := by
  simp only [Char.isDigit, Bool.and_eq_true, decide_eq_true_eq, ge_iff_le] at h
  have h1 : 48 ≤ c.toNat := h.1
  have h2 : c.toNat ≤ 57 := h.2
  exact ⟨by omega, by omega⟩

theorem decimal_printable (n : ℕ) : AllPrintable (Nat.toDigits 10 n) :=
  fun c hc => digit_printable c (decimal_isDigit n c hc)

theorem digits_printable (ds : Digits) : AllPrintable ds.chars :=
  fun c hc => digit_printable c (digits_isDigit ds c hc)

theorem intChars_printable (z : ℤ) : AllPrintable (intChars z) := by
  unfold intChars
  split_ifs
  · exact allPrintable_cons _ _ (by decide) (decimal_printable _)
  · exact decimal_printable _

theorem exponent_printable (e : Exponent) : AllPrintable (FloatTail.exponentChars e) := by
  refine allPrintable_cons _ _ (by decide) (allPrintable_cons _ _ ?_ (digits_printable _))
  split <;> decide

theorem tail_printable (tail : FloatTail) : AllPrintable tail.chars := by
  rcases tail with ⟨ds, _ | e⟩ | e
  · exact allPrintable_cons _ _ (by decide) (digits_printable ds)
  · exact allPrintable_append ('.' :: ds.chars) _
      (allPrintable_cons _ _ (by decide) (digits_printable ds)) (exponent_printable e)
  · exact exponent_printable e

theorem decimal_text_printable (neg : Bool) (whole : ℕ) (tail : FloatTail) :
    AllPrintable ((if neg then ['-'] else []) ++ (Nat.toDigits 10 whole ++ tail.chars)) := by
  refine allPrintable_append _ _ ?_
    (allPrintable_append _ _ (decimal_printable whole) (tail_printable tail))
  cases neg <;> exact allPrintable_of_check _ rfl

theorem float_printable (x : FloatText) : AllPrintable x.chars := by
  cases x with
  | nan => exact allPrintable_of_check _ rfl
  | infinity neg => cases neg <;> exact allPrintable_of_check _ rfl
  | decimal neg whole tail => exact decimal_text_printable neg whole tail

theorem hexDigit_printable (n : ℕ) : Printable (hexDigit n) := by
  have h : ∀ d : Fin 16, Printable (Nat.digitChar d.val) := by decide
  have hn : n % 16 < 16 := Nat.mod_lt n (by decide)
  exact h ⟨n % 16, hn⟩

theorem unicodeEscape_printable (n : ℕ) : AllPrintable (unicodeEscape n) := by
  intro c hc
  simp only [unicodeEscape, unitChars, List.mem_cons, List.not_mem_nil, or_false] at hc
  rcases hc with rfl | rfl | rfl | rfl | rfl | rfl
  · decide
  · decide
  all_goals exact hexDigit_printable _

theorem asciiEscape_printable (c : Char) : AllPrintable (asciiEscape c) := by
  unfold asciiEscape
  split_ifs with h1 h2 h3 h4 h5 h6 h7 h8 h9
  all_goals first
    | exact allPrintable_of_check _ rfl
    | exact unicodeEscape_printable _
    | exact allPrintable_append _ _ (unicodeEscape_printable _) (unicodeEscape_printable _)
    | exact allPrintable_cons _ _ h8 allPrintable_nil

structure Covers (P : Char → Prop) (L : Layout) (escape : Char → List Char) : Prop where
  printable : ∀ c, Printable c → P c
  item : ∀ depth, ∀ c ∈ L.item depth, P c
  close : ∀ depth, ∀ c ∈ L.close depth, P c
  colon : ∀ c ∈ L.colon, P c
  escape : ∀ c, ∀ d ∈ escape c, P d

section Covered
variable {P : Char → Prop} {L : Layout} {escape : Char → List Char} (h : Covers P L escape)
include h

theorem Covers.text {text : List Char} (ht : AllPrintable text) : ∀ c ∈ text, P c :=
  fun c hc => h.printable c (ht c hc)

theorem Covers.check (text : List Char)
    (ht : text.all (fun c => decide (Printable c)) = true) : ∀ c ∈ text, P c :=
  h.text (allPrintable_of_check text ht)

theorem Covers.cons (c : Char) (t : List Char) (hc : Printable c) (ht : ∀ d ∈ t, P d) :
    ∀ d ∈ c :: t, P d := List.forall_mem_cons.mpr ⟨h.printable c hc, ht⟩

theorem quoted_covered (s : String) : ∀ c ∈ quoted escape s, P c := by
  refine h.cons _ _ (by decide) (List.forall_mem_append.mpr ⟨?_, h.check ['"'] rfl⟩)
  intro c hc
  obtain ⟨d, -, hd⟩ := List.mem_flatMap.mp hc
  exact h.escape d c hd

mutual

theorem print_covered (depth : ℕ) (v : Json) : ∀ c ∈ print L escape depth v, P c :=
  match v with
  | .null => h.check _ rfl
  | .bool b => by cases b <;> exact h.check _ rfl
  | .int z => h.text (intChars_printable z)
  | .float x => h.text (float_printable x)
  | .str s => quoted_covered h s
  | .arr items => h.cons _ _ (by decide) (printItems_covered depth items)
  | .obj members => h.cons _ _ (by decide) (printMembers_covered depth members)

theorem printItems_covered (depth : ℕ) (items : List Json) :
    ∀ c ∈ printItems L escape depth items, P c :=
  match items with
  | [] => h.check _ rfl
  | [v] => List.forall_mem_append.mpr ⟨h.item depth, List.forall_mem_append.mpr
      ⟨print_covered (depth+1) v, List.forall_mem_append.mpr ⟨h.close depth, h.check _ rfl⟩⟩⟩
  | v :: w :: ws => List.forall_mem_append.mpr ⟨h.item depth, List.forall_mem_append.mpr
      ⟨print_covered (depth+1) v, h.cons _ _ (by decide) (printItems_covered depth (w :: ws))⟩⟩

theorem printMembers_covered (depth : ℕ) (members : List (String × Json)) :
    ∀ c ∈ printMembers L escape depth members, P c :=
  match members with
  | [] => h.check _ rfl
  | [(k, v)] => List.forall_mem_append.mpr ⟨h.item depth, List.forall_mem_append.mpr
      ⟨quoted_covered h k, h.cons _ _ (by decide) (List.forall_mem_append.mpr
        ⟨h.colon, List.forall_mem_append.mpr ⟨print_covered (depth+1) v,
          List.forall_mem_append.mpr ⟨h.close depth, h.check _ rfl⟩⟩⟩)⟩⟩
  | (k, v) :: m :: ms => List.forall_mem_append.mpr ⟨h.item depth, List.forall_mem_append.mpr
      ⟨quoted_covered h k, h.cons _ _ (by decide) (List.forall_mem_append.mpr
        ⟨h.colon, List.forall_mem_append.mpr ⟨print_covered (depth+1) v,
          h.cons _ _ (by decide) (printMembers_covered depth (m :: ms))⟩⟩)⟩⟩

end

end Covered

theorem dumps_printable (v : Json) : AllPrintable (dumps asciiEscape v) := by
  rw [← print_compact asciiEscape 0 v]
  exact print_covered ⟨fun _ hc => hc, fun _ => List.forall_mem_nil _, fun _ =>
    List.forall_mem_nil _, List.forall_mem_nil _, asciiEscape_printable⟩ 0 v

theorem plainEscape_visible (c : Char) : ∀ d ∈ plainEscape c, 0x20 ≤ d.toNat := by
  have hplain : ∀ text, AllPrintable text → ∀ d ∈ text, 0x20 ≤ d.toNat :=
    fun text ht d hd => (ht d hd).1
  unfold plainEscape
  split_ifs with h1 h2 h3 h4 h5 h6 h7 h8
  all_goals first
    | exact hplain _ (allPrintable_of_check _ rfl)
    | exact hplain _ (unicodeEscape_printable _)
    | exact List.forall_mem_singleton.mpr (not_lt.mp h8)

theorem print_indented (width : ℕ) (v : Json) :
    ∀ c ∈ print (indented width) plainEscape 0 v, c = '\n' ∨ 0x20 ≤ c.toNat := by
  have hline : ∀ spaces, ∀ c ∈ newline spaces, c = '\n' ∨ 0x20 ≤ c.toNat := by
    intro spaces c hc
    rcases List.mem_cons.mp hc with rfl | hc
    · exact Or.inl rfl
    · rw [List.eq_of_mem_replicate hc]
      exact Or.inr (by decide)
  have hcolon : ∀ c ∈ (indented width).colon, c = '\n' ∨ 0x20 ≤ c.toNat := by
    intro c hc
    rw [List.mem_singleton.mp hc]
    exact Or.inr (by decide)
  exact print_covered ⟨fun _ hc => Or.inr hc.1, fun _ => hline _, fun _ => hline _, hcolon,
    fun c d hd => Or.inr (plainEscape_visible c d hd)⟩ 0 v

end Library.JsonText
