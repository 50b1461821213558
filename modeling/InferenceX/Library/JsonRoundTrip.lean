import InferenceX.Library.JsonLayout

/-!
# Every value is read back from its text

Scanners are shown maximal first: a digit run stops where the next character
is no digit, and a number stops where nothing can continue it. A weight on
values covers the fuel of the reader and never exceeds the length of the text.
The layout and the escaping of the text are parameters: any escaping will do
that is read back and never starts with the closing quote.
-/

set_option autoImplicit false

namespace Library.JsonText

def NoDigit (rest : List Char) : Prop := ∀ c ∈ rest.head?, c.isDigit = false

def Stops (rest : List Char) : Prop :=
  ∀ c ∈ rest.head?, c.isDigit = false ∧ c ≠ '.' ∧ c ≠ 'e' ∧ c ≠ 'E'

theorem stops_nil : Stops [] := by
  intro c hc
  cases hc

theorem stops_cons (c : Char) (rest : List Char) (hd : c.isDigit = false)
    (hp : c ≠ '.' ∧ c ≠ 'e' ∧ c ≠ 'E') : Stops (c :: rest) := by
  intro d hd'
  obtain rfl : c = d := by simpa using hd'
  exact ⟨hd, hp⟩

theorem Stops.noDigit {rest : List Char} (h : Stops rest) : NoDigit rest :=
  fun c hc => (h c hc).1

theorem takeWhile_digits (ds rest : List Char) (hd : ∀ c ∈ ds, c.isDigit = true)
    (hr : NoDigit rest) : (ds ++ rest).takeWhile Char.isDigit = ds := by
  rw [List.takeWhile_append_of_pos hd]
  cases rest with
  | nil => simp
  | cons c rest => simp [hr c (by simp)]

theorem dropWhile_digits (ds rest : List Char) (hd : ∀ c ∈ ds, c.isDigit = true)
    (hr : NoDigit rest) : (ds ++ rest).dropWhile Char.isDigit = rest := by
  rw [List.dropWhile_append_of_pos hd]
  cases rest with
  | nil => simp
  | cons c rest => simp [hr c (by simp)]

theorem digitOf_digitChar (d : Fin 10) : digitOf (Nat.digitChar d.val) = d := by
  revert d
  decide

theorem digitChar_isDigit (d : Fin 10) : (Nat.digitChar d.val).isDigit = true := by
  revert d
  decide

theorem digits_isDigit (ds : Digits) : ∀ c ∈ ds.chars, c.isDigit = true := by
  intro c hc
  obtain ⟨d, -, rfl⟩ := List.mem_map.mp hc
  exact digitChar_isDigit d

theorem decimal_isDigit (n : ℕ) : ∀ c ∈ Nat.toDigits 10 n, c.isDigit = true :=
  fun _ hc => Nat.isDigit_of_mem_toDigits (by decide) (by decide) hc

theorem readDigits_chars (ds : Digits) (rest : List Char) (hr : NoDigit rest) :
    readDigits (ds.chars ++ rest) = some (ds, rest) := by
  rw [readDigits, takeWhile_digits _ _ (digits_isDigit ds) hr,
    dropWhile_digits _ _ (digits_isDigit ds) hr]
  obtain ⟨d, tail⟩ := ds
  have ht : (tail.map fun d : Fin 10 => Nat.digitChar d.val).map digitOf = tail := by
    rw [List.map_map]
    exact (List.map_congr_left fun x _ => digitOf_digitChar x).trans (List.map_id tail)
  simp [Digits.chars, Digits.all, digitOf_digitChar, ht]

theorem readExponent_chars (e : Exponent) (rest : List Char) (hr : NoDigit rest) :
    readExponent (FloatTail.exponentChars e ++ rest) = some (e, rest) := by
  obtain ⟨neg, ds⟩ := e
  cases neg <;> simp [FloatTail.exponentChars, readExponent, readDigits_chars ds rest hr]

theorem readExponent_stops (rest : List Char) (hr : Stops rest) : readExponent rest = none := by
  cases rest with
  | nil => rfl
  | cons c rest =>
    have h := hr c (by simp)
    simp [readExponent, h.2.2.1, h.2.2.2]

theorem readFraction_none (rest : List Char) (hr : ∀ c ∈ rest.head?, c ≠ '.') :
    readFraction rest = none := by
  cases rest with
  | nil => rfl
  | cons c rest =>
    have h := hr c (by simp)
    rw [readFraction]
    rintro r ⟨⟩
    exact h rfl

theorem readTail_float (neg : Bool) (whole : ℕ) (tail : FloatTail) (rest : List Char)
    (hr : Stops rest) :
    readTail neg whole (tail.chars ++ rest) = (.float (.decimal neg whole tail), rest) := by
  rcases tail with ⟨ds, _ | e⟩ | e
  · have hf : readFraction (FloatTail.chars (.frac ds none) ++ rest) = some (ds, rest) :=
      readDigits_chars ds rest hr.noDigit
    simp [readTail, hf, readExponent_stops rest hr]
  · have hd : NoDigit (FloatTail.exponentChars e ++ rest) := by
      intro c hc
      obtain rfl : 'e' = c := by simpa [FloatTail.exponentChars] using hc
      rfl
    have hf : readFraction (FloatTail.chars (.frac ds (some e)) ++ rest) =
        some (ds, FloatTail.exponentChars e ++ rest) := by
      have h := readDigits_chars ds _ hd
      simpa [FloatTail.chars, readFraction] using h
    simp [readTail, hf, readExponent_chars e rest hr.noDigit]
  · have hf : readFraction (FloatTail.chars (.exp e) ++ rest) = none := by
      apply readFraction_none
      intro c hc
      obtain rfl : 'e' = c := by simpa [FloatTail.chars, FloatTail.exponentChars] using hc
      decide
    have he : readExponent (FloatTail.chars (.exp e) ++ rest) = some (e, rest) :=
      readExponent_chars e rest hr.noDigit
    simp [readTail, hf, he]

theorem readTail_int (neg : Bool) (whole : ℕ) (rest : List Char) (hr : Stops rest) :
    readTail neg whole rest = (.int (signed neg whole), rest) := by
  have hf := readFraction_none rest fun c hc => (hr c hc).2.1
  simp [readTail, hf, readExponent_stops rest hr]

theorem toDigits_head (n : ℕ) (hn : 0 < n) : ∀ rest, Nat.toDigits 10 n ≠ '0' :: rest := by
  induction n using Nat.strong_induction_on with
  | _ n ih =>
    intro rest h
    by_cases hlt : n < 10
    · rw [Nat.toDigits_of_lt_base hlt] at h
      have hc : Nat.digitChar n = '0' := by simpa using congrArg List.head? h
      interval_cases n <;> revert hc <;> decide
    · have hq : 0 < n / 10 := Nat.div_pos (by omega) (by decide)
      rw [Nat.toDigits_of_base_le (by decide) (by omega)] at h
      cases hd : Nat.toDigits 10 (n / 10) with
      | nil => exact Nat.toDigits_ne_nil hd
      | cons c t =>
        rw [hd, List.cons_append] at h
        obtain ⟨rfl, -⟩ := List.cons.inj h
        exact ih (n / 10) (by omega) hq t hd

theorem readUnsigned_decimal (neg : Bool) (n : ℕ) (rest : List Char) (hr : NoDigit rest) :
    readUnsigned neg (Nat.toDigits 10 n ++ rest) = some (readTail neg n rest) := by
  rcases Nat.eq_zero_or_pos n with rfl | hn
  · rw [Nat.toDigits_zero]
    rfl
  · rw [readUnsigned, takeWhile_digits _ _ (decimal_isDigit n) hr,
      dropWhile_digits _ _ (decimal_isDigit n) hr]
    · split
      · exact absurd ‹_› Nat.toDigits_ne_nil
      · rw [Nat.ofDigitChars_ten_toDigits]
    · intro r h
      cases hd : Nat.toDigits 10 n with
      | nil => exact Nat.toDigits_ne_nil hd
      | cons c t =>
        rw [hd, List.cons_append] at h
        obtain ⟨rfl, -⟩ := List.cons.inj h
        exact toDigits_head n hn t hd

theorem decimal_cons (n : ℕ) : ∃ c t, Nat.toDigits 10 n = c :: t ∧ c.isDigit = true := by
  cases hd : Nat.toDigits 10 n with
  | nil => exact absurd hd Nat.toDigits_ne_nil
  | cons c t => exact ⟨c, t, rfl, decimal_isDigit n c (by simp [hd])⟩

theorem readNumber_signed (neg : Bool) (n : ℕ) (rest : List Char) (hr : NoDigit rest) :
    readNumber ((if neg then ['-'] else []) ++ (Nat.toDigits 10 n ++ rest)) =
      some (readTail neg n rest) := by
  cases neg with
  | true => simp [readNumber, readUnsigned_decimal true n rest hr]
  | false =>
    obtain ⟨c, t, hd, hc⟩ := decimal_cons n
    rw [← readUnsigned_decimal false n rest hr]
    simp only [Bool.false_eq_true, if_false, List.nil_append, hd, List.cons_append]
    rw [readNumber]
    rintro r ⟨⟩
    exact absurd hc (by decide)

/-- Text that starts with a digit, or with a minus and a digit, is none of the names. -/
theorem readScalar_number (neg : Bool) (n : ℕ) (rest : List Char) :
    readScalar ((if neg then ['-'] else []) ++ (Nat.toDigits 10 n ++ rest)) =
      readNumber ((if neg then ['-'] else []) ++ (Nat.toDigits 10 n ++ rest)) := by
  obtain ⟨c, t, hd, hc⟩ := decimal_cons n
  rw [hd, List.cons_append]
  generalize t ++ rest = u
  cases neg
  all_goals
    simp only [Bool.false_eq_true, if_false, if_true, List.nil_append, List.cons_append]
    rw [readScalar]
  all_goals
    rintro r ⟨⟩ <;> exact absurd hc (by decide)

theorem readScalar_int (z : ℤ) (rest : List Char) (hr : Stops rest) :
    readScalar (intChars z ++ rest) = some (.int z, rest) := by
  have ht : intChars z =
      (if decide (z < 0) then ['-'] else []) ++ Nat.toDigits 10 z.natAbs := by
    by_cases hz : z < 0 <;> simp [intChars, hz]
  have hs : signed (decide (z < 0)) z.natAbs = z := by
    by_cases hz : z < 0 <;> simp only [signed, hz, decide_true, decide_false, if_true,
      Bool.false_eq_true, if_false] <;> omega
  rw [ht, List.append_assoc, readScalar_number, readNumber_signed _ _ _ hr.noDigit,
    readTail_int _ _ _ hr, hs]

theorem tail_noDigit (tail : FloatTail) (rest : List Char) : NoDigit (tail.chars ++ rest) := by
  intro c hc
  rcases tail with ⟨ds, _ | e⟩ | e
  · obtain rfl : '.' = c := by simpa [FloatTail.chars] using hc
    rfl
  · obtain rfl : '.' = c := by simpa [FloatTail.chars] using hc
    rfl
  · obtain rfl : 'e' = c := by simpa [FloatTail.chars, FloatTail.exponentChars] using hc
    rfl

theorem readScalar_float (x : FloatText) (rest : List Char) (hr : Stops rest) :
    readScalar (x.chars ++ rest) = some (.float x, rest) := by
  cases x with
  | nan => rfl
  | infinity neg => cases neg <;> rfl
  | decimal neg whole tail =>
    rw [FloatText.chars, List.append_assoc, List.append_assoc, readScalar_number,
      readNumber_signed _ _ _ (tail_noDigit tail rest), readTail_float _ _ _ _ hr]

theorem hexValue_hexDigit (n : ℕ) : hexValue (hexDigit n) = some (n % 16) := by
  have h : ∀ d : Fin 16, hexValue (Nat.digitChar d.val) = some d.val := by decide
  have hn : n % 16 < 16 := Nat.mod_lt n (by decide)
  simpa only [hexDigit] using h ⟨n % 16, hn⟩

theorem unit_digits (n : ℕ) (hn : n < 0x10000) :
    4096 * (n / 4096 % 16) + 256 * (n / 256 % 16) + 16 * (n / 16 % 16) + n % 16 = n := by
  omega

theorem readUnit_chars (n : ℕ) (hn : n < 0x10000) (rest : List Char) :
    readUnit (unitChars n ++ rest) = some (n, rest) := by
  simp only [unitChars, List.cons_append, List.nil_append, readUnit, hexValue_hexDigit,
    Option.bind_eq_bind, Option.bind_some]
  rw [unit_digits n hn]

theorem readChar_unicode (n : ℕ) (rest : List Char) :
    readChar (unicodeEscape n ++ rest) = readUnicode (unitChars n ++ rest) := rfl

theorem char_not_surrogate (c : Char) :
    c.toNat < 0xd800 ∨ 0xdfff < c.toNat ∧ c.toNat < 0x110000 := by
  have h := c.valid
  simp only [UInt32.isValidChar, Nat.isValidChar] at h
  exact h

theorem readUnicode_bmp (c : Char) (hc : c.toNat < 0x10000) (rest : List Char) :
    readUnicode (unitChars c.toNat ++ rest) = some (c, rest) := by
  have hs := char_not_surrogate c
  have h1 : ¬ (0xd800 ≤ c.toNat ∧ c.toNat ≤ 0xdbff) := by omega
  have h2 : ¬ (0xdc00 ≤ c.toNat ∧ c.toNat ≤ 0xdfff) := by omega
  simp only [readUnicode, readUnit_chars _ hc, Option.bind_eq_bind, Option.bind_some,
    if_neg h1, if_neg h2, Char.ofNat_toNat]

theorem paired_surrogates (n : ℕ) (hn : 0x10000 ≤ n) :
    pairedUnit (highSurrogate n) (lowSurrogate n) = n := by
  have h := Nat.div_add_mod (n - 0x10000) 1024
  unfold pairedUnit highSurrogate lowSurrogate
  generalize (n - 0x10000) / 1024 = q at *
  generalize (n - 0x10000) % 1024 = r at *
  omega

theorem highSurrogate_range (n : ℕ) (hn : n < 0x110000) :
    0xd800 ≤ highSurrogate n ∧ highSurrogate n ≤ 0xdbff := by
  simp only [highSurrogate]
  omega

theorem lowSurrogate_range (n : ℕ) : 0xdc00 ≤ lowSurrogate n ∧ lowSurrogate n ≤ 0xdfff := by
  simp only [lowSurrogate]
  omega

theorem readUnicode_units (high low : ℕ) (hh : 0xd800 ≤ high ∧ high ≤ 0xdbff)
    (hl : 0xdc00 ≤ low ∧ low ≤ 0xdfff) (rest : List Char) :
    readUnicode (unitChars high ++ '\\' :: (unitChars low ++ rest)) =
      some (Char.ofNat (pairedUnit high low), rest) := by
  have hhigh := readUnit_chars high (by omega) ('\\' :: (unitChars low ++ rest))
  have hlow := readUnit_chars low (by omega) rest
  simp only [readUnicode, hhigh, Option.bind_eq_bind, Option.bind_some, if_pos hh, hlow,
    if_pos hl]

theorem readUnicode_pair (c : Char) (hc : 0x10000 ≤ c.toNat) (rest : List Char) :
    readUnicode (unitChars (highSurrogate c.toNat) ++
      (unicodeEscape (lowSurrogate c.toNat) ++ rest)) = some (c, rest) := by
  have hs := char_not_surrogate c
  have hh := highSurrogate_range c.toNat (by omega)
  rw [unicodeEscape, List.cons_append, readUnicode_units _ _ hh (lowSurrogate_range _),
    paired_surrogates _ hc, Char.ofNat_toNat]

theorem readChar_plain (c : Char) (rest : List Char) :
    readChar (plainEscape c ++ rest) = some (c, rest) := by
  unfold plainEscape
  split_ifs with h1 h2 h3 h4 h5 h6 h7 h8
  · subst h1; rfl
  · subst h2; rfl
  · subst h3; rfl
  · subst h4; rfl
  · subst h5; rfl
  · subst h6; rfl
  · subst h7; rfl
  · rw [readChar_unicode, readUnicode_bmp c (by omega)]
  · rw [List.cons_append, List.nil_append, readChar]
    · simp [h8]
    · exact h1

theorem plainEscape_opens (c : Char) : ∃ d t, plainEscape c = d :: t ∧ d ≠ '"' := by
  unfold plainEscape
  split_ifs with h1 h2
  all_goals first
    | exact ⟨_, _, rfl, h2⟩
    | exact ⟨_, _, rfl, by decide⟩

theorem asciiEscape_low (c : Char) (hc : c.toNat ≤ 0x7e) : asciiEscape c = plainEscape c := by
  unfold asciiEscape plainEscape
  split_ifs
  all_goals first
    | rfl
    | omega

theorem asciiEscape_high (c : Char) (hc : ¬ c.toNat ≤ 0x7e) :
    asciiEscape c = if c.toNat < 0x10000 then unicodeEscape c.toNat
      else unicodeEscape (highSurrogate c.toNat) ++ unicodeEscape (lowSurrogate c.toNat) := by
  have hne (d : Char) (hd : d.toNat ≤ 0x7e) : c ≠ d := by
    rintro rfl
    exact hc hd
  rw [asciiEscape, if_neg (hne _ (by decide)), if_neg (hne _ (by decide)),
    if_neg (hne _ (by decide)), if_neg (hne _ (by decide)), if_neg (hne _ (by decide)),
    if_neg (hne _ (by decide)), if_neg (hne _ (by decide)), if_neg fun h => hc h.2]

theorem readChar_escape (c : Char) (rest : List Char) :
    readChar (asciiEscape c ++ rest) = some (c, rest) := by
  by_cases hc : c.toNat ≤ 0x7e
  · rw [asciiEscape_low c hc, readChar_plain]
  · rw [asciiEscape_high c hc]
    split_ifs with hbmp
    · rw [readChar_unicode, readUnicode_bmp c hbmp]
    · rw [List.append_assoc, readChar_unicode, readUnicode_pair c (by omega)]

structure Escaping where
  escape : Char → List Char
  opens : ∀ c, ∃ d t, escape c = d :: t ∧ d ≠ '"'
  reads : ∀ c rest, readChar (escape c ++ rest) = some (c, rest)

def plainEscaping : Escaping where
  escape := plainEscape
  opens := plainEscape_opens
  reads := readChar_plain

def asciiEscaping : Escaping where
  escape := asciiEscape
  opens c := by
    by_cases hc : c.toNat ≤ 0x7e
    · rw [asciiEscape_low c hc]
      exact plainEscape_opens c
    · rw [asciiEscape_high c hc]
      split_ifs
      · exact ⟨_, _, rfl, by decide⟩
      · exact ⟨_, _, rfl, by decide⟩
  reads := readChar_escape

section Strings
variable (E : Escaping)

theorem readString_escaped (cs : List Char) (rest : List Char) (fuel : ℕ)
    (hf : cs.length < fuel) :
    readString fuel (cs.flatMap E.escape ++ '"' :: rest) = some (cs, rest) := by
  induction cs generalizing fuel with
  | nil =>
    obtain ⟨n, rfl⟩ : ∃ n, fuel = n+1 := ⟨fuel-1, by simp at hf; omega⟩
    rfl
  | cons c cs ih =>
    obtain ⟨n, rfl⟩ : ∃ n, fuel = n+1 := ⟨fuel-1, by simp at hf; omega⟩
    have hc := E.reads c (cs.flatMap E.escape ++ '"' :: rest)
    obtain ⟨d, t, hd, hq⟩ := E.opens c
    rw [List.flatMap_cons, List.append_assoc]
    rw [hd] at hc ⊢
    rw [List.cons_append] at hc ⊢
    rw [readString]
    · simp [hc, ih n (by simpa using hf)]
    · rintro r ⟨⟩
      exact hq rfl

theorem readString_quoted (s : String) (rest : List Char) (fuel : ℕ)
    (hf : s.toList.length < fuel) :
    readString fuel (s.toList.flatMap E.escape ++ '"' :: rest) = some (s.toList, rest) :=
  readString_escaped E s.toList rest fuel hf

theorem escaped_length (cs : List Char) : cs.length ≤ (cs.flatMap E.escape).length := by
  induction cs with
  | nil => simp
  | cons c cs ih =>
    obtain ⟨d, t, hd, -⟩ := E.opens c
    simp only [List.flatMap_cons, List.length_append, List.length_cons, hd]
    omega

end Strings

mutual

def weight : Json → ℕ
  | .str s => s.toList.length + 1
  | .arr items => 1 + weightItems items
  | .obj members => 1 + weightMembers members
  | _ => 1

def weightItems : List Json → ℕ
  | [] => 0
  | v :: rest => 1 + weight v + weightItems rest

def weightMembers : List (String × Json) → ℕ
  | [] => 0
  | (k, v) :: rest => 2 + k.toList.length + weight v + weightMembers rest

end

theorem weight_pos (v : Json) : 0 < weight v := by
  cases v <;> simp only [weight] <;> omega

def Opens (c : Char) : Prop := isBlank c = false ∧ c ≠ ']' ∧ c ≠ '}'

instance (c : Char) : Decidable (Opens c) :=
  inferInstanceAs (Decidable (_ ∧ _ ∧ _))

theorem skipBlanks_cons (c : Char) (t : List Char) (h : isBlank c = false) :
    skipBlanks (c :: t) = c :: t := by
  simp [skipBlanks, h]

theorem digit_opens (c : Char) (h : c.isDigit = true) : Opens c := by
  refine ⟨?_, ?_, ?_⟩
  · by_contra hb
    simp only [isBlank, Bool.not_eq_false, Bool.or_eq_true, beq_iff_eq] at hb
    rcases hb with ((rfl | rfl) | rfl) | rfl <;> revert h <;> decide
  · rintro rfl
    revert h
    decide
  · rintro rfl
    revert h
    decide

theorem signed_text_opens (neg : Bool) (n : ℕ) (rest : List Char) :
    ∃ c t, (if neg then ['-'] else []) ++ (Nat.toDigits 10 n ++ rest) = c :: t ∧
      Opens c ∧ (c = '-' ∨ c.isDigit = true) := by
  obtain ⟨c, t, hd, hc⟩ := decimal_cons n
  cases neg with
  | true => exact ⟨'-', _, rfl, by decide, Or.inl rfl⟩
  | false => exact ⟨c, t ++ rest, by simp [hd], digit_opens c hc, Or.inr hc⟩

theorem intChars_eq (z : ℤ) :
    intChars z = (if decide (z < 0) then ['-'] else []) ++ Nat.toDigits 10 z.natAbs := by
  by_cases hz : z < 0 <;> simp [intChars, hz]

theorem skipBlanks_blanks (blanks rest : List Char) (h : Blanks blanks) :
    skipBlanks (blanks ++ rest) = skipBlanks rest := List.dropWhile_append_of_pos h

theorem stops_blanks (blanks : List Char) (c : Char) (rest : List Char) (h : Blanks blanks)
    (hc : Stops (c :: rest)) : Stops (blanks ++ c :: rest) := by
  cases blanks with
  | nil => exact hc
  | cons b blanks =>
    have hb := h b (by simp)
    simp only [isBlank, Bool.or_eq_true, beq_iff_eq] at hb
    rcases hb with ((rfl | rfl) | rfl) | rfl <;> exact stops_cons _ _ rfl (by decide)

theorem readValue_scalar (fuel : ℕ) (c : Char) (t : List Char)
    (hc : c ≠ '"' ∧ c ≠ '[' ∧ c ≠ '{') :
    readValue (fuel+1) (c :: t) = readScalar (c :: t) := by
  rw [readValue]
  · rintro r ⟨⟩
    exact hc.1 rfl
  · rintro r ⟨⟩
    exact hc.2.1 rfl
  · rintro r ⟨⟩
    exact hc.2.2 rfl

theorem readValue_signed (fuel : ℕ) (neg : Bool) (n : ℕ) (rest : List Char) :
    readValue (fuel+1) ((if neg then ['-'] else []) ++ (Nat.toDigits 10 n ++ rest)) =
      readScalar ((if neg then ['-'] else []) ++ (Nat.toDigits 10 n ++ rest)) := by
  obtain ⟨c, t, h, -, hc⟩ := signed_text_opens neg n rest
  rw [h]
  apply readValue_scalar
  rcases hc with rfl | hc
  · decide
  · refine ⟨?_, ?_, ?_⟩ <;> rintro rfl <;> revert hc <;> decide

theorem readValue_items (fuel : ℕ) (text t : List Char) (c : Char)
    (h : skipBlanks text = c :: t) (hc : c ≠ ']') :
    readValue (fuel+1) ('[' :: text) =
      (readItems fuel (c :: t)).map fun (vs, after) => (.arr vs, after) := by
  rw [readValue, h]
  split
  · exact absurd (List.cons.inj ‹_›).1 hc
  · rfl

theorem readValue_members (fuel : ℕ) (text t : List Char) (c : Char)
    (h : skipBlanks text = c :: t) (hc : c ≠ '}') :
    readValue (fuel+1) ('{' :: text) =
      (readMembers fuel (c :: t)).map fun (ms, after) => (.obj ms, after) := by
  rw [readValue, h]
  split
  · exact absurd (List.cons.inj ‹_›).1 hc
  · rfl

section Layouts
variable (L : Layout) (E : Escaping)

theorem print_opens (depth : ℕ) (v : Json) :
    ∃ c t, print L E.escape depth v = c :: t ∧ Opens c := by
  cases v with
  | null => exact ⟨'n', _, rfl, by decide⟩
  | bool b => cases b <;> exact ⟨_, _, rfl, by decide⟩
  | int z =>
    obtain ⟨c, t, h, ho, -⟩ := signed_text_opens (decide (z < 0)) z.natAbs []
    exact ⟨c, t, by rw [print, intChars_eq, ← h, List.append_nil], ho⟩
  | float x =>
    cases x with
    | nan => exact ⟨'N', _, rfl, by decide⟩
    | infinity neg => cases neg <;> exact ⟨_, _, rfl, by decide⟩
    | decimal neg whole tail =>
      obtain ⟨c, t, h, ho, -⟩ := signed_text_opens neg whole tail.chars
      exact ⟨c, t, by rw [print, FloatText.chars, h], ho⟩
  | str s => exact ⟨'"', _, rfl, by decide⟩
  | arr items => exact ⟨'[', _, by rw [print], by decide⟩
  | obj members => exact ⟨'{', _, by rw [print], by decide⟩

theorem skipBlanks_print (depth : ℕ) (v : Json) (rest : List Char) :
    skipBlanks (print L E.escape depth v ++ rest) = print L E.escape depth v ++ rest := by
  obtain ⟨c, t, h, ho⟩ := print_opens L E depth v
  rw [h, List.cons_append, skipBlanks_cons c _ ho.1]

theorem skipBlanks_item (depth : ℕ) (v : Json) (rest : List Char) :
    skipBlanks (L.item depth ++ (print L E.escape (depth+1) v ++ rest)) =
      print L E.escape (depth+1) v ++ rest := by
  rw [skipBlanks_blanks _ _ (L.item_blanks depth), skipBlanks_print]

theorem skipBlanks_colon (depth : ℕ) (v : Json) (rest : List Char) :
    skipBlanks (L.colon ++ (print L E.escape depth v ++ rest)) =
      print L E.escape depth v ++ rest := by
  rw [skipBlanks_blanks _ _ L.colon_blanks, skipBlanks_print]

theorem skipBlanks_close (depth : ℕ) (c : Char) (rest : List Char) (hc : isBlank c = false) :
    skipBlanks (L.close depth ++ c :: rest) = c :: rest := by
  rw [skipBlanks_blanks _ _ (L.close_blanks depth), skipBlanks_cons c rest hc]

theorem skipBlanks_items (depth : ℕ) (v : Json) (vs : List Json) (rest : List Char) :
    ∃ c t, skipBlanks (printItems L E.escape depth (v :: vs) ++ rest) = c :: t ∧ Opens c := by
  obtain ⟨c, t, h, ho⟩ := print_opens L E (depth+1) v
  cases vs with
  | nil =>
    rw [printItems, List.append_assoc, List.append_assoc, skipBlanks_item, h]
    exact ⟨c, _, rfl, ho⟩
  | cons w ws =>
    rw [printItems, List.append_assoc, List.append_assoc, skipBlanks_item, h]
    · exact ⟨c, _, rfl, ho⟩
    · simp

theorem skipBlanks_members (depth : ℕ) (k : String) (v : Json) (ms : List (String × Json))
    (rest : List Char) :
    ∃ t, skipBlanks (printMembers L E.escape depth ((k, v) :: ms) ++ rest) = '"' :: t := by
  cases ms with
  | nil =>
    rw [printMembers, List.append_assoc, skipBlanks_blanks _ _ (L.item_blanks depth), quoted,
      List.cons_append, List.cons_append, skipBlanks_cons _ _ rfl]
    exact ⟨_, rfl⟩
  | cons m ms =>
    rw [printMembers, List.append_assoc, skipBlanks_blanks _ _ (L.item_blanks depth), quoted,
      List.cons_append, List.cons_append, skipBlanks_cons _ _ rfl]
    · exact ⟨_, rfl⟩
    · simp

def ReadsValue (fuel : ℕ) : Prop := ∀ depth v rest, Stops rest → weight v ≤ fuel →
  readValue fuel (print L E.escape depth v ++ rest) = some (v, rest)

def ReadsItems (fuel : ℕ) : Prop := ∀ depth v vs rest, weightItems (v :: vs) ≤ fuel →
  readItems fuel (skipBlanks (printItems L E.escape depth (v :: vs) ++ rest)) =
    some (v :: vs, rest)

def ReadsMembers (fuel : ℕ) : Prop := ∀ depth k v ms rest, weightMembers ((k, v) :: ms) ≤ fuel →
  readMembers fuel (skipBlanks (printMembers L E.escape depth ((k, v) :: ms) ++ rest)) =
    some ((k, v) :: ms, rest)

theorem value_step (n : ℕ) (hitems : ReadsItems L E n) (hmembers : ReadsMembers L E n) :
    ReadsValue L E (n+1) := by
  intro depth v rest hr hf
  match v with
  | .null => rfl
  | .bool b => cases b <;> rfl
  | .int z =>
    rw [← readScalar_int z rest hr, print, intChars_eq, List.append_assoc, readValue_signed]
  | .float x =>
    rw [← readScalar_float x rest hr, print]
    cases x with
    | nan => rfl
    | infinity neg => cases neg <;> rfl
    | decimal neg whole tail =>
      rw [FloatText.chars, List.append_assoc, List.append_assoc, readValue_signed]
  | .str s =>
    simp only [weight] at hf
    have hs := readString_quoted E s rest (n+1) (by omega)
    simp [print, quoted, readValue, hs]
  | .arr [] => simp [print, printItems, readValue, skipBlanks, isBlank]
  | .arr (w :: ws) =>
    have hi := hitems depth w ws rest (by simp only [weight] at hf; omega)
    obtain ⟨c, t, hc, ho⟩ := skipBlanks_items L E depth w ws rest
    rw [print, List.cons_append, readValue_items n _ t c hc ho.2.1, ← hc, hi]
    rfl
  | .obj [] => simp [print, printMembers, readValue, skipBlanks, isBlank]
  | .obj ((k, w) :: ms) =>
    have hm := hmembers depth k w ms rest (by simp only [weight] at hf; omega)
    obtain ⟨t, ht⟩ := skipBlanks_members L E depth k w ms rest
    rw [print, List.cons_append, readValue_members n _ t '"' ht (by decide), ← ht, hm]
    rfl

theorem items_step (n : ℕ) (hvalue : ReadsValue L E n) (hitems : ReadsItems L E n) :
    ReadsItems L E (n+1) := by
  intro depth v vs rest hf
  simp only [weightItems] at hf
  cases vs with
  | nil =>
    have hv := hvalue (depth+1) v (L.close depth ++ ']' :: rest)
      (stops_blanks _ _ _ (L.close_blanks depth) (stops_cons _ _ rfl (by decide))) (by omega)
    have hclose := skipBlanks_close L depth ']' rest rfl
    simp only [printItems, List.append_assoc, List.cons_append, List.nil_append, skipBlanks_item]
    simp [readItems, hv, hclose]
  | cons w ws =>
    have hv := hvalue (depth+1) v (',' :: (printItems L E.escape depth (w :: ws) ++ rest))
      (stops_cons _ _ rfl (by decide)) (by omega)
    have hi := hitems depth w ws rest (by simp only [weightItems] at hf ⊢; omega)
    simp only [printItems, List.append_assoc, List.cons_append, skipBlanks_item]
    simp [readItems, hv, hi, skipBlanks_cons ',' _ rfl]

theorem members_step (n : ℕ) (hvalue : ReadsValue L E n) (hmembers : ReadsMembers L E n) :
    ReadsMembers L E (n+1) := by
  intro depth k v ms rest hf
  simp only [weightMembers] at hf
  cases ms with
  | nil =>
    have hk := readString_quoted E k
      (':' :: (L.colon ++ (print L E.escape (depth+1) v ++ (L.close depth ++ '}' :: rest)))) (n+1)
      (by omega)
    have hv := hvalue (depth+1) v (L.close depth ++ '}' :: rest)
      (stops_blanks _ _ _ (L.close_blanks depth) (stops_cons _ _ rfl (by decide))) (by omega)
    have hclose := skipBlanks_close L depth '}' rest rfl
    simp only [printMembers, quoted, List.append_assoc, List.cons_append, List.nil_append,
      skipBlanks_blanks _ _ (L.item_blanks depth), skipBlanks_cons '"' _ rfl]
    simp [readMembers, hk, hv, hclose, skipBlanks_colon, skipBlanks_cons ':' _ rfl]
  | cons m ms =>
    obtain ⟨k', w⟩ := m
    have hk := readString_quoted E k (':' :: (L.colon ++ (print L E.escape (depth+1) v ++
      (',' :: (printMembers L E.escape depth ((k', w) :: ms) ++ rest))))) (n+1) (by omega)
    have hv := hvalue (depth+1) v
      (',' :: (printMembers L E.escape depth ((k', w) :: ms) ++ rest))
      (stops_cons _ _ rfl (by decide)) (by omega)
    have hm := hmembers depth k' w ms rest (by simp only [weightMembers] at hf ⊢; omega)
    simp only [printMembers, quoted, List.append_assoc, List.cons_append, List.nil_append,
      skipBlanks_blanks _ _ (L.item_blanks depth), skipBlanks_cons '"' _ rfl]
    simp [readMembers, hk, hv, hm, skipBlanks_colon, skipBlanks_cons ':' _ rfl,
      skipBlanks_cons ',' _ rfl]

/-- Enough fuel reads back values, array elements and object members alike. -/
theorem reads_back (n : ℕ) : ReadsValue L E n ∧ ReadsItems L E n ∧ ReadsMembers L E n := by
  induction n with
  | zero =>
    refine ⟨?_, ?_, ?_⟩
    · exact fun _ v rest _ hf => absurd hf (Nat.not_le.mpr (weight_pos v))
    · exact fun _ v vs rest hf => absurd hf (by simp only [weightItems]; omega)
    · exact fun _ k v ms rest hf => absurd hf (by simp only [weightMembers]; omega)
  | succ n ih =>
    obtain ⟨hv, hi, hm⟩ := ih
    exact ⟨value_step L E n hi hm, items_step L E n hv hi, members_step L E n hv hm⟩

mutual

theorem weight_le_length (depth : ℕ) (v : Json) :
    weight v ≤ (print L E.escape depth v).length := by
  obtain ⟨c, t, h, -⟩ := print_opens L E depth v
  match v with
  | .null => simp [weight, print]
  | .bool b => cases b <;> simp [weight, print]
  | .int z => rw [h]; simp [weight]
  | .float x => rw [h]; simp [weight]
  | .str s =>
    have hs := escaped_length E s.toList
    simp only [weight, print, quoted, List.length_cons, List.length_append, List.length_nil]
    omega
  | .arr items =>
    have hi := weightItems_le_length depth items
    simp only [weight, print, List.length_cons]
    omega
  | .obj members =>
    have hm := weightMembers_le_length depth members
    simp only [weight, print, List.length_cons]
    omega

theorem weightItems_le_length (depth : ℕ) (items : List Json) :
    weightItems items ≤ (printItems L E.escape depth items).length := by
  match items with
  | [] => simp [weightItems]
  | [v] =>
    have hv := weight_le_length (depth+1) v
    simp only [weightItems, printItems, List.length_append, List.length_cons, List.length_nil]
    omega
  | v :: w :: ws =>
    have hv := weight_le_length (depth+1) v
    have hi := weightItems_le_length depth (w :: ws)
    rw [weightItems, printItems]
    · simp only [List.length_append, List.length_cons]
      omega
    · simp

theorem weightMembers_le_length (depth : ℕ) (members : List (String × Json)) :
    weightMembers members ≤ (printMembers L E.escape depth members).length := by
  match members with
  | [] => simp [weightMembers]
  | [(k, v)] =>
    have hv := weight_le_length (depth+1) v
    have hk := escaped_length E k.toList
    simp only [weightMembers, printMembers, quoted, List.length_append, List.length_cons,
      List.length_nil]
    omega
  | (k, v) :: m :: ms =>
    have hv := weight_le_length (depth+1) v
    have hk := escaped_length E k.toList
    have hm := weightMembers_le_length depth (m :: ms)
    rw [weightMembers, printMembers]
    · simp only [quoted, List.length_append, List.length_cons, List.length_nil]
      omega
    · simp

end

/-- Reading inverts the encoder on every value, in every layout and escaping. -/
theorem loads_print (depth : ℕ) (v : Json) : loads (print L E.escape depth v) = some v := by
  have hw := weight_le_length L E depth v
  have hb := skipBlanks_print L E depth v []
  have hv := (reads_back L E (2 * (print L E.escape depth v).length + 1)).1 depth v [] stops_nil
    (by omega)
  simp only [List.append_nil] at hb hv
  rw [loads]
  rw [hb, hv]
  rfl

end Layouts

theorem loads_dumps (v : Json) : loads (asciiDumps v) = some v := by
  rw [asciiDumps, ← print_compact asciiEscape 0 v]
  exact loads_print compact asciiEscaping 0 v

end Library.JsonText
