import InferenceX.Library.TextLines
import InferenceX.Library.Utf8Text
import InferenceX.StreamEvents

/-!
# The frame of an event

Every event is one line of printable ASCII behind the `data:` name, and an
empty line. The timeout event is written by hand and still is the text of a
payload, since the printed bound has nothing to escape.
-/

set_option autoImplicit false

namespace InferenceX.StreamFrames
open Library.JsonText Library.TextLines Library.Utf8Text
open InferenceX.ChatSchema InferenceX.StreamEvents

def doneText : List Char := ['[', 'D', 'O', 'N', 'E', ']']

def eventData (e : SseEvent) : List Char :=
  match e.payload with
  | some payload => asciiDumps payload
  | none => doneText

def frame (e : SseEvent) : List Char := dataPrefix++eventData e

def Plain (c : Char) : Prop := Printable c ∧ c ≠ '"' ∧ c ≠ '\\'

instance (c : Char) : Decidable (Plain c) :=
  inferInstanceAs (Decidable (Printable c ∧ c ≠ '"' ∧ c ≠ '\\'))

theorem escape_plain (c : Char) (h : Plain c) : asciiEscape c = [c] := by
  obtain ⟨hp, hq, hb⟩ := h
  have hne : ∀ d : Char, d.toNat < 0x20 → c ≠ d := by
    rintro d hd rfl
    exact absurd hp.1 (not_le.mpr hd)
  rw [asciiEscape, if_neg hb, if_neg hq, if_neg (hne '\n' (by decide)),
    if_neg (hne '\r' (by decide)), if_neg (hne '\t' (by decide)), if_neg (hne _ (by decide)),
    if_neg (hne _ (by decide)),
    if_pos (show 0x20 ≤ c.toNat ∧ c.toNat ≤ 0x7e from hp)]

theorem escape_plains (cs : List Char) (h : ∀ c ∈ cs, Plain c) : cs.flatMap asciiEscape = cs := by
  induction cs with
  | nil => rfl
  | cons c cs ih =>
    rw [List.flatMap_cons, escape_plain c (h c (by simp)), ih fun d hd => h d (by simp [hd])]
    rfl

theorem plain_of_check (cs : List Char) (h : cs.all (fun c => decide (Plain c)) = true) :
    ∀ c ∈ cs, Plain c := fun c hc => by simpa using List.all_eq_true.mp h c hc

theorem digit_plain (c : Char) (h : c.isDigit = true) : Plain c := by
  refine ⟨digit_printable c h, ?_, ?_⟩ <;> (rintro rfl; cases h)

theorem tail_plain (tail : FloatTail) : ∀ c ∈ tail.chars, Plain c := by
  have hdigits : ∀ ds : Digits, ∀ c ∈ ds.chars, Plain c :=
    fun ds c hc => digit_plain c (digits_isDigit ds c hc)
  have hexp : ∀ e : Exponent, ∀ c ∈ FloatTail.exponentChars e, Plain c := by
    intro e c hc
    simp only [FloatTail.exponentChars, List.mem_cons] at hc
    rcases hc with rfl | rfl | hc
    · decide
    · split <;> decide
    · exact hdigits _ c hc
  intro c hc
  rcases tail with ⟨ds, _ | e⟩ | e
  · simp only [FloatTail.chars, List.mem_cons] at hc
    rcases hc with rfl | hc
    · decide
    · exact hdigits ds c hc
  · simp only [FloatTail.chars, List.cons_append, List.mem_cons, List.mem_append] at hc
    rcases hc with rfl | hc | hc
    · decide
    · exact hdigits ds c hc
    · exact hexp e c hc
  · exact hexp e c hc

theorem repr_plain (x : FloatText) : ∀ c ∈ x.repr, Plain c := by
  rcases x with _ | ⟨_ | _⟩ | ⟨neg, whole, tail⟩
  · exact plain_of_check _ (by decide)
  · exact plain_of_check _ (by decide)
  · exact plain_of_check _ (by decide)
  · intro c hc
    simp only [FloatText.repr, List.mem_append] at hc
    rcases hc with hc | hc | hc
    · cases neg
      · cases hc
      · obtain rfl : c = '-' := by simpa using hc
        decide
    · exact digit_plain c (decimal_isDigit whole c hc)
    · exact tail_plain tail c hc

theorem text_eq (e : SseEvent) : e.text = frame e++['\n', '\n'] := by
  cases e with
  | error bound =>
    have hmsg : ("stream timed out after "++String.ofList bound.repr++"s").toList.flatMap
        asciiEscape = "stream timed out after ".toList++bound.repr++"s".toList := by
      rw [String.toList_append, String.toList_append,
        show (String.ofList bound.repr).toList = bound.repr from String.toList_ofList]
      refine escape_plains _ fun c hc => ?_
      simp only [List.mem_append] at hc
      rcases hc with (hc | hc) | hc
      · exact plain_of_check _ (by decide) c hc
      · exact repr_plain bound c hc
      · exact plain_of_check _ (by decide) c hc
    have hkey : quoted asciiEscape "error" = "\"error\"".toList := by decide +kernel
    simp only [SseEvent.text, frame, eventData, SseEvent.payload, asciiDumps, dumps, dumpsMembers,
      hkey]
    rw [quoted, hmsg]
    simp
  | done => rfl
  | _ => simp [SseEvent.text, eventText, frame, eventData, SseEvent.payload]

theorem payload_obj (e : SseEvent) (payload : Json) (h : e.payload = some payload) :
    ∃ members, payload = .obj members := by
  cases e <;> first | exact ⟨_, (Option.some.inj h).symm⟩ | cases h

theorem dumpsMembers_brace (members : List (String × Json)) :
    ∃ inner, dumpsMembers asciiEscape members = inner++['}'] := by
  induction members with
  | nil => exact ⟨[], rfl⟩
  | cons m ms ih =>
    obtain ⟨k, v⟩ := m
    obtain ⟨inner, hi⟩ := ih
    cases ms with
    | nil => exact ⟨quoted asciiEscape k ++ ':' :: dumps asciiEscape v, by simp [dumpsMembers]⟩
    | cons m' ms =>
      exact ⟨quoted asciiEscape k ++ ':' :: (dumps asciiEscape v ++ ',' :: inner), by
        rw [dumpsMembers, hi] <;> simp⟩

theorem data_bracketed (e : SseEvent) : ∃ c inner d, eventData e = c::(inner++[d]) ∧
    isSpace c = false ∧ isSpace d = false := by
  cases hp : e.payload with
  | none =>
    exact ⟨'[', ['D', 'O', 'N', 'E'], ']', by simp [eventData, hp, doneText], rfl, rfl⟩
  | some payload =>
    obtain ⟨members, rfl⟩ := payload_obj e payload hp
    obtain ⟨inner, hi⟩ := dumpsMembers_brace members
    exact ⟨'{', inner, '}', by simp [eventData, hp, asciiDumps, dumps, hi], rfl, rfl⟩

theorem strip_data (e : SseEvent) : strip (' ' :: eventData e) = eventData e := by
  obtain ⟨c, inner, d, h, hc, hd⟩ := data_bracketed e
  rw [strip_lead ' ' _ rfl, h, strip_inner c d inner hc hd]

theorem strip_frame (e : SseEvent) : strip (frame e) = frame e := by
  obtain ⟨c, inner, d, h, hc, hd⟩ := data_bracketed e
  have hf : frame e = 'd' :: ((['a', 't', 'a', ':', ' ', c]++inner)++[d]) := by
    simp [frame, dataPrefix, h]
  rw [hf, strip_inner 'd' d _ rfl hd]

theorem data_ne_done (e : SseEvent) (payload : Json) (h : e.payload = some payload) :
    eventData e ≠ doneText := by
  obtain ⟨members, rfl⟩ := payload_obj e payload h
  simp [eventData, h, asciiDumps, dumps, doneText]

theorem loads_data (e : SseEvent) (payload : Json) (h : e.payload = some payload) :
    loads (eventData e) = some payload := by
  simp [eventData, h, loads_dumps]

theorem frame_printable (e : SseEvent) : AllPrintable (frame e) := by
  refine allPrintable_append _ _ (allPrintable_of_check _ (by decide)) ?_
  cases hp : e.payload with
  | none => simpa [eventData, hp] using allPrintable_of_check doneText (by decide)
  | some payload => simpa [eventData, hp, asciiDumps] using dumps_printable payload

theorem printable_no_break (c : Char) (h : Printable c) : isLineBreak c = false := by
  obtain ⟨hl, hh⟩ := h
  simp [isLineBreak]
  omega

theorem frame_line (e : SseEvent) : ∀ c ∈ frame e, isLineBreak c = false :=
  fun c hc => printable_no_break c (frame_printable e c hc)

def eventLines (es : List SseEvent) : List (List Char) := es.flatMap fun e => [frame e, []]

theorem splitlines_events (es : List SseEvent) :
    splitlines (es.flatMap SseEvent.text) = eventLines es := by
  induction es with
  | nil => rfl
  | cons e es ih =>
    have hcut : frame e++['\n', '\n']++es.flatMap SseEvent.text =
        frame e ++ '\n' :: ([] ++ '\n' :: es.flatMap SseEvent.text) := by simp
    rw [List.flatMap_cons, text_eq, hcut, splitlines_line _ _ (frame_line e),
      splitlines_line _ _ (by simp), ih]
    rfl

/-- The bytes of a stream: no frame holds the first byte of a blank line. -/
theorem frame_bytes (e : SseEvent) : 10 ∉ encode (frame e) := by
  intro h
  have hbreak := frame_line e _ (ascii_of_encode (frame e) 10 (by decide) h)
  cases hbreak

theorem encode_events (es : List SseEvent) : encode (es.flatMap SseEvent.text) =
    (es.map fun e => encode (frame e)).flatMap (·++[10, 10]) := by
  induction es with
  | nil => rfl
  | cons e es ih =>
    rw [List.flatMap_cons, encode_append, text_eq, encode_append, ih]
    rfl

end InferenceX.StreamFrames
