import Mathlib

/-!
# UTF-8 text and its lenient decoders

`encode` writes the bytes of a text. `decodeIgnore` is the decoder with
`errors="ignore"`: a byte that cannot continue the sequence at hand drops what
was read of it and is tried as the start of another. `decodeReplace` marks
what is dropped. On encoded text both are the inverse of `encode`.
-/

set_option autoImplicit false

namespace Library.Utf8Text

def encode (text : List Char) : List UInt8 := text.flatMap String.utf8EncodeChar

/-- A sequence read in part: its bits, the continuation bytes that follow the
next one, and the range the next one lies in. -/
structure Sequence where
  code : ℕ
  owed : ℕ
  low : ℕ
  high : ℕ
  deriving DecidableEq, Repr

/-- The sequence a leading byte starts. The second byte's range rules out
overlong forms, surrogates and values past the last code point. -/
def leading (b : ℕ) : Option Sequence :=
  if 0xc2 ≤ b ∧ b ≤ 0xdf then some ⟨b % 32, 0, 0x80, 0xbf⟩
  else if b = 0xe0 then some ⟨0, 1, 0xa0, 0xbf⟩
  else if b = 0xed then some ⟨13, 1, 0x80, 0x9f⟩
  else if 0xe1 ≤ b ∧ b ≤ 0xef then some ⟨b % 16, 1, 0x80, 0xbf⟩
  else if b = 0xf0 then some ⟨0, 2, 0x90, 0xbf⟩
  else if b = 0xf4 then some ⟨4, 2, 0x80, 0x8f⟩
  else if 0xf1 ≤ b ∧ b ≤ 0xf3 then some ⟨b % 8, 2, 0x80, 0xbf⟩
  else none

def start (b : ℕ) : Option Char × Option Sequence :=
  if b < 0x80 then (some (Char.ofNat b), none) else (none, leading b)

def advance (open? : Option Sequence) (b : ℕ) : Option Char × Option Sequence :=
  match open? with
  | none => start b
  | some s =>
    if s.low ≤ b ∧ b ≤ s.high then
      if s.owed = 0 then (some (Char.ofNat (s.code * 64 + b % 64)), none)
      else (none, some ⟨s.code * 64 + b % 64, s.owed-1, 0x80, 0xbf⟩)
    else start b

def decodeFrom : Option Sequence → List UInt8 → List Char
  | _, [] => []
  | open?, b::bs =>
    (advance open? b.toNat).1.toList ++ decodeFrom (advance open? b.toNat).2 bs

/-- `data.decode("utf-8", errors="ignore")`. -/
def decodeIgnore (data : List UInt8) : List Char := decodeFrom none data

theorem decodeFrom_cons (open? : Option Sequence) (n : ℕ) (hn : n < 256) (rest : List UInt8) :
    decodeFrom open? (UInt8.ofNat n::rest) =
      (advance open? n).1.toList++decodeFrom (advance open? n).2 rest := by
  have hb : (UInt8.ofNat n).toNat = n := by simpa using hn
  rw [decodeFrom, hb]

theorem start_ascii (n : ℕ) (hn : n < 0x80) : start n = (some (Char.ofNat n), none) := if_pos hn

theorem start_leading (n : ℕ) (hn : 0x80 ≤ n) : start n = (none, leading n) :=
  if_neg (not_lt.mpr hn)

theorem leading_two (m : ℕ) (h : 2 ≤ m) (h' : m < 32) :
    leading (m+0xc0) = some ⟨m, 0, 0x80, 0xbf⟩ := by
  rw [leading, if_pos (by omega)]
  simp; omega

theorem leading_three (m : ℕ) (h : m < 16) : leading (m+0xe0) =
    some ⟨m, 1, if m = 0 then 0xa0 else 0x80, if m = 13 then 0x9f else 0xbf⟩ := by
  interval_cases m <;> rfl

theorem leading_four (m : ℕ) (h : m < 5) : leading (m+0xf0) =
    some ⟨m, 2, if m = 0 then 0x90 else 0x80, if m = 4 then 0x8f else 0xbf⟩ := by
  interval_cases m <;> rfl

theorem advance_more (code owed low high n : ℕ) (h : low ≤ n+0x80 ∧ n+0x80 ≤ high)
    (hn : n < 64) : advance (some ⟨code, owed+1, low, high⟩) (n+0x80) =
      (none, some ⟨code*64+n, owed, 0x80, 0xbf⟩) := by
  have hmod : (n+0x80) % 64 = n := by omega
  simp [advance, h, hmod]

theorem advance_last (code low high n : ℕ) (h : low ≤ n+0x80 ∧ n+0x80 ≤ high) (hn : n < 64) :
    advance (some ⟨code, 0, low, high⟩) (n+0x80) = (some (Char.ofNat (code*64+n)), none) := by
  have hmod : (n+0x80) % 64 = n := by omega
  simp [advance, h, hmod]

/-- The bytes lead from one state of the decoder to a character and to no
other, and none of them breaks an open sequence. -/
inductive Completes (c : Char) : Option Sequence → List UInt8 → Prop
  | last {open? : Option Sequence} (n : ℕ) (hn : n < 256)
      (hfits : ∀ s ∈ open?, s.low ≤ n ∧ n ≤ s.high) (h : advance open? n = (some c, none)) :
      Completes c open? [UInt8.ofNat n]
  | more {open? : Option Sequence} {s : Sequence} {bytes : List UInt8} (n : ℕ) (hn : n < 256)
      (hfits : ∀ s ∈ open?, s.low ≤ n ∧ n ≤ s.high) (h : advance open? n = (none, some s))
      (hbytes : Completes c (some s) bytes) : Completes c open? (UInt8.ofNat n::bytes)

theorem Completes.leading {c : Char} {s : Sequence} {bytes : List UInt8} (n : ℕ)
    (hn : 0x80 ≤ n ∧ n < 256) (hs : Utf8Text.leading n = some s)
    (hbytes : Completes c (some s) bytes) : Completes c none (UInt8.ofNat n::bytes) :=
  .more n hn.2 (by simp) (by rw [advance, start_leading n hn.1, hs]) hbytes

theorem Completes.continued {c : Char} {bytes : List UInt8} {code owed low high : ℕ} (n : ℕ)
    (h : low ≤ n+0x80 ∧ n+0x80 ≤ high) (hn : n < 64)
    (hbytes : Completes c (some ⟨code*64+n, owed, 0x80, 0xbf⟩) bytes) :
    Completes c (some ⟨code, owed+1, low, high⟩) (UInt8.ofNat (n+0x80)::bytes) :=
  .more _ (by omega) (by simpa using h) (advance_more code owed low high n h hn) hbytes

theorem Completes.final {c : Char} {code low high : ℕ} (n : ℕ) (h : low ≤ n+0x80 ∧ n+0x80 ≤ high)
    (hn : n < 64) (hc : Char.ofNat (code*64+n) = c) :
    Completes c (some ⟨code, 0, low, high⟩) [UInt8.ofNat (n+0x80)] :=
  .last _ (by omega) (by simpa using h) (by rw [advance_last code low high n h hn, hc])

theorem encodeChar_completes (c : Char) : Completes c none (String.utf8EncodeChar c) := by
  have hval : c.val.toNat < 0xd800 ∨ 0xdfff < c.val.toNat ∧ c.val.toNat < 0x110000 := c.valid
  have hc : Char.ofNat c.val.toNat = c := Char.ofNat_toNat c
  generalize hv : c.val.toNat = v at hval hc
  unfold String.utf8EncodeChar
  simp only [hv]
  split_ifs with h1 h2 h3
  · apply Completes.last v (by omega) (by simp)
    rw [advance, start_ascii v (by omega), hc]
  · have hsum : v/64%32*64+v%64 = v := by omega
    apply Completes.leading _ (by omega) (leading_two (v/64%32) (by omega) (by omega))
    exact .final _ (by omega) (by omega) (by rw [hsum, hc])
  · have hsum : (v/4096%16*64+v/64%64)*64+v%64 = v := by omega
    apply Completes.leading _ (by omega) (leading_three (v/4096%16) (by omega))
    apply Completes.continued _ (by split_ifs <;> omega) (by omega)
    exact .final _ (by omega) (by omega) (by rw [hsum, hc])
  · have hsum : ((v/262144%8*64+v/4096%64)*64+v/64%64)*64+v%64 = v := by omega
    apply Completes.leading _ (by omega) (leading_four (v/262144%8) (by omega))
    apply Completes.continued _ (by split_ifs <;> omega) (by omega)
    apply Completes.continued _ (by omega) (by omega)
    exact .final _ (by omega) (by omega) (by rw [hsum, hc])

theorem decodeFrom_completes {c : Char} {open? : Option Sequence} {bytes : List UInt8}
    (h : Completes c open? bytes) (rest : List UInt8) :
    decodeFrom open? (bytes++rest) = c::decodeFrom none rest := by
  induction h with
  | last n hn hfits h =>
    rw [List.singleton_append, decodeFrom_cons _ n hn, h]
    rfl
  | more n hn hfits h hbytes ih =>
    rw [List.cons_append, decodeFrom_cons _ n hn, h, ← ih]
    rfl

theorem decodeIgnore_encode (text : List Char) : decodeIgnore (encode text) = text := by
  induction text with
  | nil => rfl
  | cons c text ih =>
    have hcons : encode (c::text) = String.utf8EncodeChar c++encode text := List.flatMap_cons
    rw [decodeIgnore, hcons, decodeFrom_completes (encodeChar_completes c)]
    exact congrArg (c::·) ih

def replacement : Char := Char.ofNat 0xfffd

/-- One byte with `errors="replace"`: a sequence that it breaks and a byte that
starts none are marked. -/
def advanceReplace (open? : Option Sequence) (b : ℕ) : List Char × Option Sequence :=
  let read :=
    match advance open? b with
    | (none, none) => ([replacement], none)
    | (c, next) => (c.toList, next)
  if ∀ s ∈ open?, s.low ≤ b ∧ b ≤ s.high then read else (replacement::read.1, read.2)

def decodeReplaceFrom : Option Sequence → List UInt8 → List Char
  | none, [] => []
  | some _, [] => [replacement]
  | open?, b::bs =>
    (advanceReplace open? b.toNat).1++decodeReplaceFrom (advanceReplace open? b.toNat).2 bs

/-- `data.decode("utf-8", errors="replace")`. -/
def decodeReplace (data : List UInt8) : List Char := decodeReplaceFrom none data

theorem decodeReplaceFrom_cons (open? : Option Sequence) (n : ℕ) (hn : n < 256)
    (rest : List UInt8) : decodeReplaceFrom open? (UInt8.ofNat n::rest) =
      (advanceReplace open? n).1++decodeReplaceFrom (advanceReplace open? n).2 rest := by
  have hb : (UInt8.ofNat n).toNat = n := by simpa using hn
  rw [decodeReplaceFrom, hb]

theorem decodeReplaceFrom_completes {c : Char} {open? : Option Sequence} {bytes : List UInt8}
    (h : Completes c open? bytes) (rest : List UInt8) :
    decodeReplaceFrom open? (bytes++rest) = c::decodeReplaceFrom none rest := by
  induction h with
  | last n hn hfits h =>
    rw [List.singleton_append, decodeReplaceFrom_cons _ n hn, advanceReplace, if_pos hfits, h]
    rfl
  | more n hn hfits h hbytes ih =>
    rw [List.cons_append, decodeReplaceFrom_cons _ n hn, advanceReplace, if_pos hfits, h, ← ih]
    rfl

theorem decodeReplace_append (text : List Char) (rest : List UInt8) :
    decodeReplace (encode text++rest) = text++decodeReplace rest := by
  induction text with
  | nil => rfl
  | cons c text ih =>
    have hcons : encode (c::text) = String.utf8EncodeChar c++encode text := List.flatMap_cons
    rw [decodeReplace, hcons, List.append_assoc,
      decodeReplaceFrom_completes (encodeChar_completes c)]
    exact congrArg (c::·) ih

theorem decodeReplace_encode (text : List Char) : decodeReplace (encode text) = text := by
  have hnil : decodeReplace [] = [] := rfl
  have hall := decodeReplace_append text []
  rwa [List.append_nil, hnil, List.append_nil] at hall

/-- What an encoded text begins with is the beginning of the text. -/
theorem encode_rest (front text : List Char) (rest : List UInt8)
    (h : encode front++rest = encode text) : ∃ more, text = front++more ∧ rest = encode more := by
  have htext : text = front++decodeReplace rest := by
    rw [← decodeReplace_append, h, decodeReplace_encode]
  apply Exists.intro (decodeReplace rest)
  apply And.intro htext
  rw [htext, encode, encode, List.flatMap_append] at h
  exact List.append_cancel_left h

/-- The euro sign without its last byte, and a byte of no sequence before a letter. -/
example : decodeReplace [0xe2, 0x82] = [replacement] ∧
    decodeReplace [0xe2, 0x41, 0xff, 0x42] = [replacement, 'A', replacement, 'B'] := by decide

/-- `data.decode("utf-8")`: data is an encoded text or no text at all. -/
def decode (data : List UInt8) : Option (List Char) :=
  if encode (decodeIgnore data) = data then some (decodeIgnore data) else none

theorem decode_encode (text : List Char) : decode (encode text) = some text := by
  rw [decode, decodeIgnore_encode, if_pos rfl]

theorem encode_append (s t : List Char) : encode (s++t) = encode s++encode t :=
  List.flatMap_append

/-- A byte below the continuation range is a character of its own. -/
theorem ascii_of_encodeChar (c : Char) (n : ℕ) (hn : n < 0x80)
    (h : UInt8.ofNat n ∈ String.utf8EncodeChar c) : c = Char.ofNat n := by
  have hc : Char.ofNat c.val.toNat = c := Char.ofNat_toNat c
  have hbyte : ∀ m, 0x80 ≤ m → m < 256 → UInt8.ofNat n ≠ UInt8.ofNat m := by
    intro m hlow hhigh heq
    have hnm := congrArg UInt8.toNat heq
    simp only [UInt8.toNat_ofNat'] at hnm
    omega
  generalize hv : c.val.toNat = v at hc
  unfold String.utf8EncodeChar at h
  simp only [hv] at h
  split_ifs at h with h1 h2 h3
  · have hnv := congrArg UInt8.toNat (List.mem_singleton.mp h)
    simp only [UInt8.toNat_ofNat'] at hnv
    obtain rfl : n = v := by omega
    exact hc.symm
  all_goals simp only [List.mem_cons, List.not_mem_nil, or_false] at h
  · rcases h with h | h <;> exact absurd h (hbyte _ (by omega) (by omega))
  · rcases h with h | h | h <;> exact absurd h (hbyte _ (by omega) (by omega))
  · rcases h with h | h | h | h <;> exact absurd h (hbyte _ (by omega) (by omega))

theorem ascii_of_encode (text : List Char) (n : ℕ) (hn : n < 0x80)
    (h : UInt8.ofNat n ∈ encode text) : Char.ofNat n ∈ text := by
  obtain ⟨c, hc, hb⟩ := List.mem_flatMap.mp h
  exact ascii_of_encodeChar c n hn hb ▸ hc

end Library.Utf8Text
