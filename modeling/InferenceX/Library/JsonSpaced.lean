import InferenceX.Library.JsonPrintable

/-!
# JSON text on one line

The encoder without arguments puts a blank behind each comma and each colon,
and none elsewhere, so its text is no layout of items. It is read back all the
same, and stays on one line.
-/

set_option autoImplicit false

namespace Library.JsonText

section Printer
variable (escape : Char → List Char)

mutual

/-- `json.dumps(value)`. -/
def spaced : Json → List Char
  | .null => ['n', 'u', 'l', 'l']
  | .bool b => if b then ['t', 'r', 'u', 'e'] else ['f', 'a', 'l', 's', 'e']
  | .int z => intChars z
  | .float x => x.chars
  | .str s => quoted escape s
  | .arr items => '[' :: spacedItems items
  | .obj members => '{' :: spacedMembers members

def spacedItems : List Json → List Char
  | [] => [']']
  | [v] => spaced v++[']']
  | v::rest => spaced v++(',' :: ' ' :: spacedItems rest)

def spacedMembers : List (String × Json) → List Char
  | [] => ['}']
  | [(k, v)] => quoted escape k++(':' :: ' ' :: (spaced v++['}']))
  | (k, v)::rest => quoted escape k++(':' :: ' ' :: (spaced v++(',' :: ' ' :: spacedMembers rest)))

end

end Printer

section Reading
variable (E : Escaping)

theorem spaced_opens (v : Json) : ∃ c t, spaced E.escape v = c::t ∧ Opens c := by
  cases v with
  | null => exact ⟨'n', _, rfl, by decide⟩
  | bool b => cases b <;> exact ⟨_, _, rfl, by decide⟩
  | int z =>
    obtain ⟨c, t, h, ho, -⟩ := signed_text_opens (decide (z < 0)) z.natAbs []
    exact ⟨c, t, by rw [spaced, intChars_eq, ← h, List.append_nil], ho⟩
  | float x =>
    cases x with
    | nan => exact ⟨'N', _, rfl, by decide⟩
    | infinity neg => cases neg <;> exact ⟨_, _, rfl, by decide⟩
    | decimal neg whole tail =>
      obtain ⟨c, t, h, ho, -⟩ := signed_text_opens neg whole tail.chars
      exact ⟨c, t, by rw [spaced, FloatText.chars, h], ho⟩
  | str s => exact ⟨'"', _, rfl, by decide⟩
  | arr items => exact ⟨'[', _, by rw [spaced], by decide⟩
  | obj members => exact ⟨'{', _, by rw [spaced], by decide⟩

theorem skipBlanks_spaced (v : Json) (rest : List Char) :
    skipBlanks (spaced E.escape v++rest) = spaced E.escape v++rest := by
  obtain ⟨c, t, h, ho⟩ := spaced_opens E v
  rw [h, List.cons_append, skipBlanks_cons c _ ho.1]

theorem skipBlanks_space (rest : List Char) : skipBlanks (' ' :: rest) = skipBlanks rest := rfl

theorem spacedItems_opens (v : Json) (vs : List Json) :
    ∃ c t, spacedItems E.escape (v::vs) = c::t ∧ Opens c := by
  obtain ⟨c, t, h, ho⟩ := spaced_opens E v
  cases vs with
  | nil => exact ⟨c, _, by rw [spacedItems, h, List.cons_append], ho⟩
  | cons w ws =>
    refine ⟨c, t++(',' :: ' ' :: spacedItems E.escape (w::ws)), ?_, ho⟩
    rw [spacedItems, h, List.cons_append]
    simp

theorem spacedMembers_opens (m : String × Json) (ms : List (String × Json)) :
    ∃ t, spacedMembers E.escape (m::ms) = '"' :: t := by
  obtain ⟨k, v⟩ := m
  cases ms with
  | nil => exact ⟨_, by rw [spacedMembers, quoted, List.cons_append]⟩
  | cons m ms =>
    rw [spacedMembers, quoted, List.cons_append]
    · exact ⟨_, rfl⟩
    · simp

def ReadsSpaced (fuel : ℕ) : Prop := ∀ v rest, Stops rest → weight v ≤ fuel →
  readValue fuel (spaced E.escape v++rest) = some (v, rest)

def ReadsSpacedItems (fuel : ℕ) : Prop := ∀ v vs rest, weightItems (v::vs) ≤ fuel →
  readItems fuel (spacedItems E.escape (v::vs)++rest) = some (v::vs, rest)

def ReadsSpacedMembers (fuel : ℕ) : Prop := ∀ m ms rest, weightMembers (m::ms) ≤ fuel →
  readMembers fuel (spacedMembers E.escape (m::ms)++rest) = some (m::ms, rest)

theorem spaced_step (n : ℕ) (hitems : ReadsSpacedItems E n) (hmembers : ReadsSpacedMembers E n) :
    ReadsSpaced E (n+1) := by
  intro v rest hr hf
  match v with
  | .null => rfl
  | .bool b => cases b <;> rfl
  | .int z =>
    rw [← readScalar_int z rest hr, spaced, intChars_eq, List.append_assoc, readValue_signed]
  | .float x =>
    rw [← readScalar_float x rest hr, spaced]
    cases x with
    | nan => rfl
    | infinity neg => cases neg <;> rfl
    | decimal neg whole tail =>
      rw [FloatText.chars, List.append_assoc, List.append_assoc, readValue_signed]
  | .str s =>
    simp only [weight] at hf
    have hs := readString_quoted E s rest (n+1) (by omega)
    simp [spaced, quoted, readValue, hs]
  | .arr [] => simp [spaced, spacedItems, readValue, skipBlanks, isBlank]
  | .arr (w::ws) =>
    have hi := hitems w ws rest (by simp only [weight] at hf; omega)
    obtain ⟨c, t, hc, ho⟩ := spacedItems_opens E w ws
    rw [hc, List.cons_append] at hi
    rw [spaced, List.cons_append, hc, List.cons_append,
      readValue_items n _ (t++rest) c (skipBlanks_cons c _ ho.1) ho.2.1, hi]
    rfl
  | .obj [] => simp [spaced, spacedMembers, readValue, skipBlanks, isBlank]
  | .obj (m::ms) =>
    have hm := hmembers m ms rest (by simp only [weight] at hf; omega)
    obtain ⟨t, ht⟩ := spacedMembers_opens E m ms
    rw [ht, List.cons_append] at hm
    rw [spaced, List.cons_append, ht, List.cons_append,
      readValue_members n _ (t++rest) '"' (skipBlanks_cons '"' _ rfl) (by decide), hm]
    rfl

theorem spacedItems_step (n : ℕ) (hvalue : ReadsSpaced E n) (hitems : ReadsSpacedItems E n) :
    ReadsSpacedItems E (n+1) := by
  intro v vs rest hf
  simp only [weightItems] at hf
  cases vs with
  | nil =>
    have hv := hvalue v (']' :: rest) (stops_cons _ _ rfl (by decide)) (by omega)
    simp [spacedItems, readItems, hv, skipBlanks_cons ']' _ rfl]
  | cons w ws =>
    have hv := hvalue v (',' :: ' ' :: (spacedItems E.escape (w::ws)++rest))
      (stops_cons _ _ rfl (by decide)) (by omega)
    have hi := hitems w ws rest (by simp only [weightItems] at hf ⊢; omega)
    obtain ⟨c, t, hc, ho⟩ := spacedItems_opens E w ws
    have hskip : skipBlanks (spacedItems E.escape (w::ws)++rest) =
        spacedItems E.escape (w::ws)++rest := by
      rw [hc, List.cons_append, skipBlanks_cons c _ ho.1]
    simp only [spacedItems, List.append_assoc, List.cons_append]
    simp [readItems, hv, hi, hskip, skipBlanks_space, skipBlanks_cons ',' _ rfl]

theorem spacedMembers_step (n : ℕ) (hvalue : ReadsSpaced E n) (hmembers : ReadsSpacedMembers E n) :
    ReadsSpacedMembers E (n+1) := by
  intro m ms rest hf
  obtain ⟨k, v⟩ := m
  simp only [weightMembers] at hf
  cases ms with
  | nil =>
    have hk := readString_quoted E k (':' :: ' ' :: (spaced E.escape v++('}' :: rest))) (n+1)
      (by omega)
    have hv := hvalue v ('}' :: rest) (stops_cons _ _ rfl (by decide)) (by omega)
    simp only [spacedMembers, quoted, List.append_assoc, List.cons_append, List.nil_append]
    simp [readMembers, hk, hv, skipBlanks_space, skipBlanks_spaced, skipBlanks_cons ':' _ rfl,
      skipBlanks_cons '}' _ rfl]
  | cons m ms =>
    have hk := readString_quoted E k (':' :: ' ' :: (spaced E.escape v++(',' :: ' ' ::
      (spacedMembers E.escape (m::ms)++rest)))) (n+1) (by omega)
    have hv := hvalue v (',' :: ' ' :: (spacedMembers E.escape (m::ms)++rest))
      (stops_cons _ _ rfl (by decide)) (by omega)
    have hm := hmembers m ms rest (by simp only [weightMembers] at hf ⊢; omega)
    obtain ⟨t, ht⟩ := spacedMembers_opens E m ms
    have hskip : skipBlanks (spacedMembers E.escape (m::ms)++rest) =
        spacedMembers E.escape (m::ms)++rest := by
      rw [ht, List.cons_append, skipBlanks_cons '"' _ rfl]
    simp only [spacedMembers, quoted, List.append_assoc, List.cons_append, List.nil_append]
    simp [readMembers, hk, hv, hm, hskip, skipBlanks_space, skipBlanks_spaced,
      skipBlanks_cons ':' _ rfl, skipBlanks_cons ',' _ rfl]

theorem reads_spaced (n : ℕ) :
    ReadsSpaced E n ∧ ReadsSpacedItems E n ∧ ReadsSpacedMembers E n := by
  induction n with
  | zero =>
    refine ⟨?_, ?_, ?_⟩
    · exact fun v rest _ hf => absurd hf (Nat.not_le.mpr (weight_pos v))
    · exact fun v vs rest hf => absurd hf (by simp only [weightItems]; omega)
    · exact fun m ms rest hf => absurd hf (by simp only [weightMembers]; omega)
  | succ n ih =>
    obtain ⟨hv, hi, hm⟩ := ih
    exact ⟨spaced_step E n hi hm, spacedItems_step E n hv hi, spacedMembers_step E n hv hm⟩

end Reading

inductive Spread : List Char → List Char → Prop where
  | nil : Spread [] []
  | keep (c : Char) {s t : List Char} (h : Spread s t) : Spread (c::s) (c::t)
  | blank {s t : List Char} (h : Spread s t) : Spread s (' ' :: t)

namespace Spread

theorem refl (s : List Char) : Spread s s := by
  induction s with
  | nil => exact nil
  | cons c s ih => exact keep c ih

theorem append {s t s' t' : List Char} (h : Spread s t) (h' : Spread s' t') :
    Spread (s++s') (t++t') := by
  induction h with
  | nil => exact h'
  | keep c _ ih => exact keep c ih
  | blank _ ih => exact blank ih

theorem length_le {s t : List Char} (h : Spread s t) : s.length ≤ t.length := by
  induction h with
  | nil => exact Nat.le_refl _
  | keep c _ ih => exact Nat.succ_le_succ ih
  | blank _ ih => exact ih.trans (Nat.le_succ _)

theorem printable {s t : List Char} (h : Spread s t) (hs : AllPrintable s) : AllPrintable t := by
  induction h with
  | nil => exact allPrintable_nil
  | keep c _ ih =>
    obtain ⟨hc, hrest⟩ := List.forall_mem_cons.mp hs
    exact allPrintable_cons c _ hc (ih hrest)
  | blank _ ih => exact allPrintable_cons ' ' _ (by decide) (ih hs)

end Spread

section Compact
variable (escape : Char → List Char)

mutual

theorem dumps_spread (v : Json) : Spread (dumps escape v) (spaced escape v) := by
  match v with
  | .null => exact Spread.refl _
  | .bool b => exact Spread.refl _
  | .int z => exact Spread.refl _
  | .float x => exact Spread.refl _
  | .str s => exact Spread.refl _
  | .arr items => exact (dumpsItems_spread items).keep '['
  | .obj members => exact (dumpsMembers_spread members).keep '{'

theorem dumpsItems_spread (items : List Json) :
    Spread (dumpsItems escape items) (spacedItems escape items) := by
  match items with
  | [] => exact Spread.refl _
  | [v] => exact (dumps_spread v).append (Spread.refl _)
  | v::w::rest =>
    exact (dumps_spread v).append ((dumpsItems_spread (w::rest)).blank.keep ',')

theorem dumpsMembers_spread (members : List (String × Json)) :
    Spread (dumpsMembers escape members) (spacedMembers escape members) := by
  match members with
  | [] => exact Spread.refl _
  | [(k, v)] =>
    exact (Spread.refl _).append (((dumps_spread v).append (Spread.refl _)).blank.keep ':')
  | (k, v)::m::rest =>
    exact (Spread.refl _).append
      (((dumps_spread v).append ((dumpsMembers_spread (m::rest)).blank.keep ',')).blank.keep ':')

end

end Compact

theorem spaced_printable (v : Json) : AllPrintable (spaced asciiEscape v) :=
  (dumps_spread asciiEscape v).printable (dumps_printable v)

theorem loads_spaced (E : Escaping) (v : Json) : loads (spaced E.escape v) = some v := by
  have hweight : weight v ≤ (spaced E.escape v).length := by
    have hcompact := weight_le_length compact E 0 v
    rw [print_compact] at hcompact
    exact hcompact.trans (dumps_spread E.escape v).length_le
  have hblanks := skipBlanks_spaced E v []
  have hread := (reads_spaced E (2*(spaced E.escape v).length+1)).1 v [] stops_nil (by omega)
  rw [List.append_nil] at hblanks hread
  rw [loads, hblanks, hread]
  rfl

end Library.JsonText
