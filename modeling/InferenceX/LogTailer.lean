import InferenceX.Library.CarriedLines
import InferenceX.LogFeed
import InferenceX.ResultStore

/-!
# Log lines and the polls that read them

The tailer decodes what is new in the file on its own and carries an unfinished
line in its buffer. A read that ends inside a character marks both halves of
it, and one that ends behind a line break other than a line feed or a carriage
return leaves a finished line open, so that the next one is joined to it. Where
no read ends so, the feed is that of a single read of the whole text.
-/

set_option autoImplicit false

namespace InferenceX.LogTailer
open Library.CarriedLines Library.CharClasses Library.TextLines Library.Utf8Text
open InferenceX.LogFeed InferenceX.PythonValues InferenceX.ResultStore

structure Feed where
  shown : List (List Char)
  raised : Option PyError
  deriving DecidableEq, Repr

def Feed.fresh : Feed := ⟨[], none⟩

structure Tailer where
  file : List UInt8
  offset : ℕ
  buffer : List Char
  feed : Feed
  deriving DecidableEq, Repr

/-- What happens to the file and the task. A poll is missed where the file is
not there or cannot be read. -/
inductive Event where
  | append (bytes : List UInt8)
  | poll
  | missed
  deriving DecidableEq, Repr

section
variable (k : CharTable)

def emitLine (feed : Feed) (line : List Char) : Feed :=
  match feed.raised with
  | some _ => feed
  | none =>
    match formatLogLine k defaultMaxLen line with
    | .error e => { feed with raised := some e }
    | .ok none => feed
    | .ok (some formatted) =>
      if formatted = [] then feed else { feed with shown := feed.shown++[formatted] }

def pollOnce (s : Tailer) : Tailer :=
  let chunk := universalNewlines (decodeReplace (s.file.drop s.offset))
  let read := { s with offset := s.file.length }
  if chunk = [] then read
  else
    let (lines, buffer) := carry s.buffer chunk
    { read with buffer := buffer, feed := lines.foldl (emitLine k) s.feed }

def step (s : Tailer) : Event → Tailer
  | .append bytes => { s with file := s.file++bytes }
  | .poll => if s.feed.raised = none then pollOnce k s else s
  | .missed => s

/-- `start`, at the end of the file as it is; behind an offset in the file lies
the first piece. -/
def start (base : List UInt8) : Tailer := ⟨base, base.length, [], .fresh⟩

def run (base : List UInt8) (es : List Event) : Tailer := es.foldl (step k) (start base)

/-- `format_log_line` on the lines one after the other; those with `None` are
skipped, and an exception is the end. -/
def formatLines : List (List Char) → Feed
  | [] => .fresh
  | line::lines =>
    match formatLogLine k defaultMaxLen line with
    | .error e => ⟨[], some e⟩
    | .ok none => formatLines lines
    | .ok (some formatted) => ⟨formatted::(formatLines lines).shown, (formatLines lines).raised⟩

def readAtOnce (text : List Char) : Feed := formatLines k (splitlines (universalNewlines text))

end

def Event.bytes : Event → List UInt8
  | .append bytes => bytes
  | .poll => []
  | .missed => []

def appended (es : List Event) : List UInt8 := es.flatMap Event.bytes

/-- A read may end here: behind a whole character, and not behind a line break
other than a line feed or a carriage return. -/
def settled (bytes : List UInt8) : Bool :=
  match decode bytes with
  | some text => text.getLast?.all fun c => !isLineBreak c || c == '\n' || c == '\r'
  | none => false

def meetsSettled (read : List UInt8) (s : Tailer) : Event → Bool
  | .append _ => true
  | .poll => s.feed.raised.isSome || settled read
  | .missed => true

def settledPolls (k : CharTable) : List UInt8 → Tailer → List Event → Bool
  | _, _, [] => true
  | read, s, e::es => meetsSettled read s e && settledPolls k (read++e.bytes) (step k s e) es

theorem universalNewlines_last (text : List Char) : (universalNewlines text).getLast? =
    text.getLast?.map fun c => if c = '\r' then '\n' else c := by
  induction text using universalNewlines.induct with
  | case1 rest ih =>
    rw [universalNewlines, List.getLast?_cons, ih]
    cases rest <;> simp [List.getLast?_cons]
  | case2 c rest hpair ih =>
    rw [universalNewlines, List.getLast?_cons, ih]
    · cases rest <;> simp [List.getLast?_cons]
    · exact hpair
  | case3 => rfl

/-- A settled text ends as a read of it does, with a line feed or inside a line. -/
theorem newlines_settled (text : List Char) (c : Char) (hc : text.getLast? = some c)
    (hbreak : isLineBreak c = true → c = '\n' ∨ c = '\r') :
    ∃ d, (universalNewlines text).getLast? = some d ∧ (isLineBreak d = true → d = '\n') ∧
      (c = '\n' → d = '\n') := by
  by_cases hr : c = '\r'
  · subst hr
    apply Exists.intro '\n'
    rw [universalNewlines_last, hc]
    exact ⟨rfl, fun _ => rfl, fun _ => rfl⟩
  · apply Exists.intro c
    rw [universalNewlines_last, hc, Option.map_some, if_neg hr]
    exact ⟨rfl, fun hb => (hbreak hb).resolve_right hr, id⟩

theorem words_newlines (front text back : List Char) :
    words (front++(universalNewlines text++back)) = words (front++(text++back)) := by
  induction text using universalNewlines.induct generalizing front with
  | case1 rest ih =>
    have hrest := ih []
    rw [List.nil_append, List.nil_append] at hrest
    show words (front++ '\n'::(universalNewlines rest++back)) =
      words (front++ '\r' :: '\n' :: (rest++back))
    rw [words_break '\n' front _ rfl, words_break '\r' front _ rfl, words_feed, hrest]
  | case2 c rest hpair ih =>
    rw [universalNewlines]
    · by_cases hc : c = '\r'
      · have hrest := ih []
        rw [List.nil_append, List.nil_append] at hrest
        subst hc
        show words (front++ '\n'::(universalNewlines rest++back)) =
          words (front++ '\r'::(rest++back))
        rw [words_break '\n' front _ rfl, words_break '\r' front _ rfl, hrest]
      · rw [if_neg hc, List.cons_append, List.cons_append, List.append_cons, ih, ← List.append_cons]
    · exact hpair
  | case3 => rfl

theorem settled_text (bytes : List UInt8) (h : settled bytes = true) : ∃ text,
    bytes = encode text ∧ ∀ c ∈ text.getLast?, isLineBreak c = true → c = '\n' ∨ c = '\r' := by
  unfold settled decode at h
  split_ifs at h with hbytes
  apply Exists.intro (decodeIgnore bytes)
  apply And.intro hbytes.symm
  intro c hc hbreak
  simpa [Option.mem_def.mp hc, hbreak] using h

section
variable (k : CharTable)

theorem emit_raised (feed : Feed) (e : PyError) (h : feed.raised = some e)
    (lines : List (List Char)) : lines.foldl (emitLine k) feed = feed := by
  induction lines with
  | nil => rfl
  | cons line lines ih =>
    have hline : emitLine k feed line = feed := by rw [emitLine, h]
    rw [List.foldl_cons, hline, ih]

/-- The loop shows what formatting one line after the other gives. -/
theorem emit_lines (feed : Feed) (h : feed.raised = none) (lines : List (List Char)) :
    lines.foldl (emitLine k) feed =
      ⟨feed.shown++(formatLines k lines).shown, (formatLines k lines).raised⟩ := by
  induction lines generalizing feed with
  | nil =>
    obtain ⟨shown, raised⟩ := feed
    obtain rfl : raised = none := h
    rw [formatLines, List.foldl_nil, Feed.fresh, List.append_nil]
  | cons line lines ih =>
    rw [List.foldl_cons, emitLine, h, formatLines]
    cases hline : formatLogLine k defaultMaxLen line with
    | error e =>
      dsimp only
      rw [emit_raised k _ e rfl, List.append_nil]
    | ok formatted =>
      cases formatted with
      | none => exact ih feed h
      | some formatted =>
        obtain ⟨mark, -, text, rfl⟩ := formatLogLine_shown k defaultMaxLen line formatted hline
        have hne : marked mark text ≠ [] := List.cons_ne_nil mark _
        dsimp only
        rw [if_neg hne, ih ⟨feed.shown++[marked mark text], none⟩ rfl, List.append_assoc]
        rfl

theorem emit_nonblank (feed : Feed) (lines : List (List Char)) :
    (nonblank lines).foldl (emitLine k) feed = lines.foldl (emitLine k) feed := by
  induction lines generalizing feed with
  | nil => rfl
  | cons line lines ih =>
    by_cases hline : line = []
    · have hskip : emitLine k feed [] = feed := by
        rw [emitLine, formatLogLine_nil]
        cases feed.raised <;> rfl
      subst hline
      rw [List.foldl_cons, hskip, ← ih]
      rfl
    · rw [nonblank, List.filter_cons_of_pos (by simpa using hline)]
      exact ih _

theorem readAtOnce_words (text : List Char) :
    (words text).foldl (emitLine k) .fresh = readAtOnce k text := by
  have hwords := words_newlines [] text []
  rw [List.nil_append, List.nil_append, List.append_nil, List.append_nil] at hwords
  rw [← hwords, ← nonblank_splitlines, emit_nonblank, emit_lines k .fresh rfl, readAtOnce]
  rfl

/-- Lines given out now are those that would be given out with what follows. -/
theorem emit_carry (feed : Feed) (buffer piece z : List Char) (c : Char)
    (hlast : piece.getLast? = some c) (hc : isLineBreak c = true → c = '\n') :
    (words (buffer++piece++z)).foldl (emitLine k) feed =
      (words ((carry buffer piece).2++z)).foldl (emitLine k)
        ((carry buffer piece).1.foldl (emitLine k) feed) := by
  rw [carry_words buffer piece z c hlast hc, List.foldl_append, emit_nonblank]

/-- The text was read. What the feed will show of any text behind it depends on
that text and the buffer alone. -/
structure Reading (base : List UInt8) (text : List Char) (s : Tailer) : Prop where
  offset : s.feed.raised = none → s.offset = base.length+(encode text).length
  carried : ∀ z, (words (text++z)).foldl (emitLine k) .fresh =
    (words (s.buffer++z)).foldl (emitLine k) s.feed
  closed : text.getLast? = some '\n' → s.buffer = []

theorem reading_start (base : List UInt8) : Reading k base [] (start base) where
  offset _ := rfl
  carried _ := rfl
  closed _ := rfl

theorem reading_poll (base : List UInt8) (text more : List Char) (s : Tailer)
    (h : Reading k base text s) (halive : s.feed.raised = none)
    (hfile : s.file = base++encode (text++more))
    (hlast : ∀ c ∈ (text++more).getLast?, isLineBreak c = true → c = '\n' ∨ c = '\r') :
    Reading k base (text++more) (pollOnce k s) := by
  have hnew : s.file.drop s.offset = encode more := by
    rw [hfile, h.offset halive, encode_append, ← List.append_assoc, ← List.length_append,
      List.drop_left]
  have hlength : s.file.length = base.length+(encode (text++more)).length := by
    rw [hfile, List.length_append]
  unfold pollOnce
  rw [hnew, decodeReplace_encode]
  dsimp only
  cases hmore : more.getLast? with
  | none =>
    obtain rfl : more = [] := List.getLast?_eq_none_iff.mp hmore
    rw [List.append_nil] at hlength ⊢
    exact ⟨fun _ => hlength, h.carried, h.closed⟩
  | some c =>
    have hall : (text++more).getLast? = some c := by
      rw [List.getLast?_append, hmore, Option.some_or]
    obtain ⟨d, hd, hbreak, hfeed⟩ := newlines_settled more c hmore (hlast c hall)
    have hne : universalNewlines more ≠ [] := by
      intro hnil
      rw [hnil] at hd
      cases hd
    rw [if_neg hne]
    constructor
    · exact fun _ => hlength
    · intro z
      rw [List.append_assoc, h.carried, ← words_newlines, ← List.append_assoc]
      exact emit_carry k s.feed s.buffer _ z d hd hbreak
    · intro hclosed
      rw [hall] at hclosed
      obtain rfl := hfeed (Option.some.inj hclosed)
      exact congrArg Prod.snd (carry_feed s.buffer _ hd)

theorem pollOnce_file (s : Tailer) : (pollOnce k s).file = s.file := by
  unfold pollOnce
  dsimp only
  split_ifs <;> rfl

def Follows (base read : List UInt8) (s : Tailer) : Prop :=
  s.file = base++read ∧ ∃ text rest, read = encode text++rest ∧ Reading k base text s

theorem follows_step (base read : List UInt8) (s : Tailer) (e : Event) (h : Follows k base read s)
    (hpoll : meetsSettled read s e = true) : Follows k base (read++e.bytes) (step k s e) := by
  obtain ⟨hfile, text, rest, hread, hreading⟩ := h
  cases e with
  | append bytes =>
    apply And.intro
    · show s.file++bytes = base++(read++bytes)
      rw [hfile, List.append_assoc]
    · refine ⟨text, rest++bytes, ?_, hreading.offset, hreading.carried, hreading.closed⟩
      show read++bytes = encode text++(rest++bytes)
      rw [hread, List.append_assoc]
  | missed =>
    rw [Event.bytes, List.append_nil]
    exact ⟨hfile, text, rest, hread, hreading⟩
  | poll =>
    rw [Event.bytes, List.append_nil]
    by_cases halive : s.feed.raised = none
    · have hsettled : settled read = true := by simpa [meetsSettled, halive] using hpoll
      obtain ⟨whole, hwhole, hlast⟩ := settled_text read hsettled
      obtain ⟨more, rfl, -⟩ := encode_rest text whole rest (hread.symm.trans hwhole)
      rw [hwhole] at hfile
      have hnext := reading_poll k base text more s hreading halive hfile hlast
      rw [step, if_pos halive]
      refine ⟨?_, text++more, [], by rw [hwhole, List.append_nil], hnext⟩
      rw [pollOnce_file, hfile, hwhole]
    · rw [step, if_neg halive]
      exact ⟨hfile, text, rest, hread, hreading⟩

theorem follows_run (base read : List UInt8) (s : Tailer) (es : List Event)
    (h : Follows k base read s) (hpolls : settledPolls k read s es = true) :
    Follows k base (read++appended es) (es.foldl (step k) s) := by
  induction es generalizing read s with
  | nil => simpa [appended] using h
  | cons e es ih =>
    obtain ⟨hpoll, hrest⟩ := Bool.and_eq_true_iff.mp hpolls
    rw [List.foldl_cons, appended, List.flatMap_cons, ← List.append_assoc]
    exact ih _ _ (follows_step k base read s e h hpoll) hrest

def Quiet (s : Tailer) : Prop := s.feed.raised ≠ none ∨ s.offset = s.file.length

theorem quiet_step (s : Tailer) (e : Event) (h : Quiet s) (he : e.bytes = []) :
    Quiet (step k s e) ∧ (step k s e).feed = s.feed := by
  cases e with
  | append bytes =>
    obtain rfl : bytes = [] := he
    rw [step, List.append_nil]
    exact ⟨h, rfl⟩
  | missed => exact ⟨h, rfl⟩
  | poll =>
    by_cases halive : s.feed.raised = none
    · have hend := h.resolve_left (not_not.mpr halive)
      have hpoll : pollOnce k s = { s with offset := s.file.length } := by
        rw [pollOnce, hend, List.drop_length]
        rfl
      rw [step, if_pos halive, hpoll]
      exact ⟨Or.inr rfl, rfl⟩
    · rw [step, if_neg halive]
      exact ⟨h, rfl⟩

theorem quiet_run (s : Tailer) (es : List Event) (h : Quiet s) (hes : appended es = []) :
    (es.foldl (step k) s).feed = s.feed := by
  induction es generalizing s with
  | nil => rfl
  | cons e es ih =>
    obtain ⟨he, hrest⟩ := List.append_eq_nil_iff.mp hes
    obtain ⟨hquiet, hfeed⟩ := quiet_step k s e h he
    rw [List.foldl_cons, ih _ hquiet hrest, hfeed]

theorem poll_whole (base : List UInt8) (text : List Char) (s : Tailer)
    (h : Follows k base (encode text) s) (hend : text.getLast? = some '\n') :
    Quiet (step k s .poll) ∧ (step k s .poll).feed = readAtOnce k text := by
  obtain ⟨hfile, seen, rest, hread, hreading⟩ := h
  obtain ⟨more, rfl, -⟩ := encode_rest seen text rest hread.symm
  rw [← readAtOnce_words]
  by_cases halive : s.feed.raised = none
  · have hlast : ∀ c ∈ (seen++more).getLast?, isLineBreak c = true → c = '\n' ∨ c = '\r' := by
      intro c hc _
      rw [hend] at hc
      exact Or.inl (Option.some.inj hc).symm
    have hnext := reading_poll k base seen more s hreading halive hfile hlast
    have hall := hnext.carried []
    rw [hnext.closed hend, List.append_nil, List.append_nil] at hall
    rw [step, if_pos halive, hall]
    apply And.intro _ rfl
    by_cases hraised : (pollOnce k s).feed.raised = none
    · right
      rw [hnext.offset hraised, pollOnce_file, hfile, List.length_append]
    · exact Or.inl hraised
  · -- The exception ended the feed of the whole text as well.
    obtain ⟨e, he⟩ := Option.ne_none_iff_exists'.mp halive
    rw [step, if_neg halive, hreading.carried more, emit_raised k s.feed e he]
    exact ⟨Or.inl halive, rfl⟩

/-- The feed of a text that ends with a line feed and was polled is that of a
single read, where every poll on the way met a settled text. -/
theorem feed_of_settled_polls (base : List UInt8) (text : List Char) (before after : List Event)
    (htext : appended before = encode text) (hend : text.getLast? = some '\n')
    (hafter : appended after = [])
    (hpolls : settledPolls k [] (start base) before = true) :
    (run k base (before++.poll::after)).feed = readAtOnce k text := by
  have hstart : Follows k base [] (start base) :=
    ⟨(List.append_nil base).symm, [], [], rfl, reading_start k base⟩
  have hbefore := follows_run k base [] (start base) before hstart hpolls
  rw [List.nil_append, htext] at hbefore
  obtain ⟨hquiet, hfeed⟩ := poll_whole k base text _ hbefore hend
  rw [run, List.foldl_append, List.foldl_cons, quiet_run k _ after hquiet hafter, hfeed]

end

/-- The polls meet a text behind a part of a line, behind a carriage return and
behind its line feed. -/
theorem feed_of_settled_polls_example :
    (run ascii [] ([.append (encode "ValueErr".toList), .poll, .missed,
      .append (encode "or: é\r".toList), .poll, .append (encode "\nWARNING: on\n".toList)]++
      .poll::[.missed, .poll])).feed = readAtOnce ascii "ValueError: é\r\nWARNING: on\n".toList :=
  feed_of_settled_polls ascii [] _ _ _ (by decide +kernel) (by decide +kernel) (by decide +kernel)
    (by decide +kernel)

/-- A poll between the two bytes of a letter puts two marks in its place. -/
theorem feed_depends_on_polls : ¬ ∀ (k : CharTable) (base : List UInt8) (text : List Char)
    (before after : List Event), appended before = encode text → text.getLast? = some '\n' →
      appended after = [] → (run k base (before++.poll::after)).feed = readAtOnce k text := by
  intro h
  have hcut := h ascii [] "ValueError: é\n".toList
    [.append (encode "ValueError: ".toList++[0xc3]), .poll, .append [0xa9, 0x0a]] []
    (by decide +kernel) (by decide +kernel) rfl
  revert hcut
  decide +kernel

end InferenceX.LogTailer
