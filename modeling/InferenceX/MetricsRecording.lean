import InferenceX.ChatRoute
import InferenceX.Library.JsonLimits
import InferenceX.StreamFraming

/-!
# One record for each request

The middleware calls the recorder where the application raised, at its own
end, or in the `finally` of the wrapper around a stream. Storage and exporter
may raise on any record. The one thing between a request and its record is
the rate of a stream, which is computed outside of every `try`: a count that
no float holds raises there.
-/

set_option autoImplicit false

namespace InferenceX.MetricsRecording
open Library.JsonText Library.ChunkedFrames Library.Utf8Text Library.TextLines
open Library.CharClasses
open InferenceX.PythonValues InferenceX.JsonAccess InferenceX.SseReaders InferenceX.SseRecording
open InferenceX.ChatSchema InferenceX.ChatRoute InferenceX.StreamEvents InferenceX.StreamFrames
open InferenceX.StreamFraming

/-- What `except Exception` catches. -/
def Raised := {e : PyError // e.isException = true}

structure RequestRecord where
  requestId : String
  path : String
  method : String
  statusCode : ℕ
  latencyMs : ℚ
  model : Option Json
  promptTokens : Option ℤ
  completionTokens : Option ℤ
  totalTokens : Option ℤ
  error : Bool
  ttftMs : Option ℚ
  tokensPerSec : Option ℚ

/-- What the storage and the exporter raise on a record. -/
structure Sinks where
  storage : RequestRecord → Option Raised
  exporter : RequestRecord → Option Raised

def raising (raised : Option Raised) : Except PyError Unit :=
  match raised with
  | some e => .error e.val
  | none => .ok ()

/-- `try: … except Exception: log`. -/
def swallow {A : Type} (x : Except PyError A) : Except PyError Unit :=
  match x with
  | .ok _ => .ok ()
  | .error e => if e.isException then .ok () else .error e

def record (sinks : Sinks) (requestId : String) (call : RecordCall) :
    Except PyError RequestRecord := do
  let record : RequestRecord := {
    requestId := requestId
    path := call.path
    method := call.method
    statusCode := call.statusCode
    latencyMs := roundPlaces 3 call.latencyMs
    model := call.model
    promptTokens := call.promptTokens
    completionTokens := call.completionTokens
    totalTokens := call.totalTokens
    error := call.error
    ttftMs := call.ttftMs.map (roundPlaces 3)
    tokensPerSec := call.tokensPerSec.map (roundPlaces 3) }
  swallow (raising (sinks.storage record))
  swallow (raising (sinks.exporter record))
  return record

theorem swallow_raising (raised : Option Raised) : swallow (raising raised) = .ok () := by
  cases raised with
  | none => rfl
  | some e => exact if_pos e.property

theorem record_ok (sinks : Sinks) (requestId : String) (call : RecordCall) :
    ∃ r, record sinks requestId call = .ok r := by
  simp only [record, swallow_raising]
  exact ⟨_, rfl⟩

structure Request where
  method : String
  path : String
  body : Except Raised (List UInt8)

inductive BodyExit where
  | completed
  | raised (e : Raised)
  | closed

def BodyExit.error : BodyExit → Option PyError
  | .completed => none
  | .raised e => some e.val
  | .closed => some .generatorExit

/-- A response, the part of its body that was iterated, and how that ended. -/
structure Response where
  head : Head
  mediaType : Option String
  body : List Arrival
  exit : BodyExit

namespace Response
variable (r : Response)

def chunks : List (List UInt8) := r.body.map fun a => a.chunk.raw

def bytes : List UInt8 := r.chunks.flatten

end Response

inductive Answer where
  | raises (e : Raised)
  | returns (r : Response)

/-- The clock at the start, behind `call_next` and when a stream ends. -/
structure Clock where
  start : ℚ
  answered : ℚ
  finish : ℚ

inductive Outcome where
  | raised (e : PyError)
  | response (head : Head) (chunks : List (List UInt8)) (exit : Option PyError)

structure Served where
  calls : List RecordCall
  outcome : Outcome

/-- The framework's `Response(content, status_code, headers, media_type)`, which
has the status it is made with. -/
structure Responses where
  head : List UInt8 → ℕ → List (String × String) → Option String → Head
  status_kept : ∀ content status headers mediaType,
    (head content status headers mediaType).status = status

/-- The character tables of the interpreter, and how many brackets `json.loads`
can have open before its stack ends. -/
structure Interpreter where
  classes : CharTable
  depth : ℕ

def readMetadata (payload : Json) : Except PyError (Option Json × Bool) := do
  let model ← dictGet payload "model" .null
  let stream ← dictGet payload "stream" .null
  return (if truthy model then some model else none, truthy stream)

def extractChatRequestMetadata (py : Interpreter) (body : Except Raised (List UInt8)) :
    Option Json × Bool :=
  match body with
  | .error _ => (none, false)
  | .ok bytes =>
    match (loadsBytesWithin py.depth bytes).map readMetadata with
    | some (.ok metadata) => metadata
    | _ => (none, false)

structure TokenCounts where
  promptTokens : Option ℤ
  completionTokens : Option ℤ
  totalTokens : Option ℤ

/-- `int(value) if value is not None else None`. -/
def optionalInt (k : CharTable) : Json → Except PyError (Option ℤ)
  | .null => .ok none
  | value => (toInt k value).map some

def readTokens (k : CharTable) (payload : Json) : Except PyError TokenCounts := do
  let found ← dictGet payload "usage" .null
  let usage := if truthy found then found else .obj []
  let prompt ← dictGet usage "prompt_tokens" .null
  let completion ← dictGet usage "completion_tokens" .null
  let total ← dictGet usage "total_tokens" .null
  return ⟨← optionalInt k prompt, ← optionalInt k completion, ← optionalInt k total⟩

def bufferAndExtractTokens (py : Interpreter) (r : Response) : List UInt8 × TokenCounts :=
  match r.exit, (loadsBytesWithin py.depth r.bytes).map (readTokens py.classes) with
  | .completed, some (.ok counts) => (r.bytes, counts)
  | _, _ => (r.bytes, ⟨none, none, none⟩)

def reads (py : Interpreter) (line : List UInt8) : Bool :=
  match dataText (strip (decodeIgnore line)) with
  | none => true
  | some data => (loadsWithin py.depth data).isSome

/-- The frame of an event is read where the interpreter can hold its payload. -/
theorem reads_event (py : Interpreter) (e : SseEvent) :
    reads py (encode (frame e)) = e.payload.all (within py.depth) := by
  rw [reads, decodeIgnore_encode, dataText_stripped]
  cases h : e.payload with
  | none => rfl
  | some payload =>
    cases hw : within py.depth payload <;> simp [loadsWithin, loads_data e payload h, hw]

def readFrame (py : Interpreter) (start now : ℚ) (g : Figures) (line : List UInt8) : Figures :=
  if reads py line then g.line py.classes start now line else g

def isEventStreamResponse (r : Response) : Bool :=
  isEventStream r.head || (r.mediaType.getD "").toList.tails.any fun t =>
    "text/event-stream".toList.isPrefixOf t

/-- `completion_tokens / elapsed_ms * 1000`, where there is a count and some time. -/
def ratePerSec (elapsed : ℚ) (completion : Option ℤ) : Except PyError (Option ℚ) :=
  match completion with
  | none => .ok none
  | some n =>
    if n ≠ 0 ∧ elapsed > 0 then (toFloat n).map fun x => some (x/elapsed*1000) else .ok none

def finallyCall (request : RecordedRequest) (finish : ℚ) (exit : Option PyError) (g : Figures) :
    Except PyError RecordCall :=
  (ratePerSec (elapsedMs request.start finish) g.completionTokens).map fun rate =>
    { recordCall request finish exit g with tokensPerSec := rate }

def isScrape (path : String) : Bool := "/metrics".toList.isPrefixOf path.toList

def chatPath : String := "/v1/chat/completions"

def isChat (request : Request) : Prop := request.method = "POST" ∧ request.path = chatPath

instance (request : Request) : Decidable (isChat request) :=
  inferInstanceAs (Decidable (_ ∧ _))

section Dispatch
variable (C : Responses) (sinks : Sinks) (requestId : String) (py : Interpreter)
  (clock : Clock) (request : Request)

def recording (call : RecordCall) (after : Outcome) : Served :=
  match record sinks requestId call with
  | .ok _ => ⟨[call], after⟩
  | .error e => ⟨[call], .raised e⟩

def wrapAndRecord (about : RecordedRequest) (finish : ℚ) (r : Response) : Served :=
  let (yielded, last) := relay (readFrame py about.start) ⟨[], .unset⟩ r.body
  match finallyCall about finish r.exit.error last.figures with
  | .error e => ⟨[], .response r.head yielded (some e)⟩
  | .ok call =>
    match swallow (record sinks requestId call) with
    | .ok _ => ⟨[call], .response r.head yielded r.exit.error⟩
    | .error e => ⟨[call], .response r.head yielded (some e)⟩

def plainCall (model : Option Json) (statusCode : ℕ) (error : Bool) (counts : TokenCounts) :
    RecordCall where
  path := request.path
  method := request.method
  statusCode := statusCode
  latencyMs := elapsedMs clock.start clock.answered
  model := model
  promptTokens := counts.promptTokens
  completionTokens := counts.completionTokens
  totalTokens := counts.totalTokens
  error := error
  ttftMs := none
  tokensPerSec := none

def rebuild (r : Response) (content : List UInt8) : Outcome :=
  .response (C.head content r.head.status
    (dictOf (r.head.headers.filter fun p => p.1.toLower ≠ "content-length")) r.mediaType)
    [content] none

def untouched (r : Response) : Outcome := .response r.head r.chunks r.exit.error

def dispatch (answer : Answer) : Served :=
  if isScrape request.path then
    match answer with
    | .raises e => ⟨[], .raised e.val⟩
    | .returns r => ⟨[], untouched r⟩
  else
    let (model, streamRequested) :=
      if isChat request then extractChatRequestMetadata py request.body else (none, false)
    match answer with
    | .raises e =>
      recording sinks requestId (plainCall clock request model 500 true ⟨none, none, none⟩)
        (.raised e.val)
    | .returns r =>
      if isChat request ∧ r.head.status = 200 ∧ isEventStreamResponse r = true then
        wrapAndRecord sinks requestId py ⟨clock.start, model, request.path, request.method⟩
          clock.finish r
      else if isChat request ∧ r.head.status = 200 ∧ streamRequested = false ∧
          isEventStreamResponse r = false then
        let (content, counts) := bufferAndExtractTokens py r
        recording sinks requestId
          (plainCall clock request model r.head.status (r.head.status ≥ 500) counts)
          (rebuild C r content)
      else
        recording sinks requestId
          (plainCall clock request model r.head.status (r.head.status ≥ 500) ⟨none, none, none⟩)
          (untouched r)

end Dispatch

section Places
variable (sinks : Sinks) (requestId : String) (py : Interpreter)

theorem recording_eq (call : RecordCall) (after : Outcome) :
    recording sinks requestId call after = ⟨[call], after⟩ := by
  obtain ⟨r, hr⟩ := record_ok sinks requestId call
  rw [recording, hr]

def lastCount (bytes : List UInt8) : Option ℤ :=
  (lastUsage py.classes ((blankLines.drain bytes).1.filter (reads py))).map Prod.snd

/-- A float holds the last count of a stream, or no time went by. -/
def RateFits (start finish : ℚ) (bytes : List UInt8) : Prop :=
  finish ≤ start ∨ ∀ n ∈ lastCount py bytes, n.natAbs < floatBound

theorem fold_reads (start : ℚ) (g : Figures) (ps : List (List UInt8 × ℚ)) :
    ps.foldl (fun g p => readFrame py start p.2 g p.1) g =
      (ps.filter fun p => reads py p.1).foldl (fun g p => g.line py.classes start p.2 p.1) g :=
  List.foldl_filter.symm

theorem drained_marked (body : List Arrival) :
    (blankLines.marked [] (body.map Arrival.marked)).map Prod.fst =
      (blankLines.drain (body.map fun a => a.chunk.raw).flatten).1 := by
  have hframes := blankLines.marked_drain [] (body.map Arrival.marked) blankLines.next_nil
  rwa [List.map_map, List.nil_append] at hframes

theorem relay_count (start : ℚ) (body : List Arrival) :
    (relay (readFrame py start) ⟨[], .unset⟩ body).2.figures.completionTokens =
      lastCount py (body.map fun a => a.chunk.raw).flatten := by
  rw [relay_figures, fold_reads, fold_completion, lastCount, ← drained_marked, List.filter_map]
  exact Option.or_none

theorem elapsed_pos (start finish : ℚ) : 0 < elapsedMs start finish ↔ start < finish := by
  rw [elapsedMs]
  constructor <;> intro h <;> linarith

theorem floatBound_ge : 2 ^ 970 ≤ floatBound := by
  have hdouble : 2 ^ 971 ≤ 2 ^ 1024 := Nat.pow_le_pow_right Nat.two_pos (by omega)
  rw [floatBound]
  omega

theorem ratePerSec_ok (elapsed : ℚ) (completion : Option ℤ)
    (h : elapsed ≤ 0 ∨ ∀ n ∈ completion, n.natAbs < floatBound) :
    ratePerSec elapsed completion = .ok (tokensPerSec elapsed completion) := by
  cases completion with
  | none => rfl
  | some n =>
    by_cases hn : n ≠ 0 ∧ elapsed > 0
    · have hfits : toFloat n = .ok (n : ℚ) := if_pos ((h.resolve_left (not_le.mpr hn.2)) n rfl)
      simp only [ratePerSec, tokensPerSec, if_pos hn, hfits]
      rfl
    · simp only [ratePerSec, tokensPerSec, if_neg hn]

theorem ratePerSec_error (elapsed : ℚ) (n : ℤ) (he : 0 < elapsed)
    (h : ¬ n.natAbs < floatBound) : ratePerSec elapsed (some n) = .error .overflowError := by
  have hn : n ≠ 0 := by
    rintro rfl
    exact h ((Nat.two_pow_pos 970).trans_le floatBound_ge)
  have hraises : toFloat n = .error .overflowError := if_neg h
  simp only [ratePerSec, if_pos (And.intro hn he), hraises]
  rfl

variable (about : RecordedRequest) (finish : ℚ) (r : Response)

def streamCall (exit : Option PyError) (body : List Arrival) : RecordCall :=
  recordCall about finish exit (relay (readFrame py about.start) ⟨[], .unset⟩ body).2.figures

/-- Where all frames are read it is the record of the plain wrapper. -/
theorem streamCall_eq (exit : Option PyError) (body : List Arrival)
    (h : ∀ line ∈ (blankLines.drain (body.map fun a => a.chunk.raw).flatten).1,
      reads py line = true) :
    streamCall py about finish exit body =
      (wrapAndRecordSse py.classes about finish body exit).2 := by
  have hall : (blankLines.marked [] (body.map Arrival.marked)).filter (fun p => reads py p.1) =
      blankLines.marked [] (body.map Arrival.marked) := by
    refine List.filter_eq_self.mpr fun p hp => h p.1 ?_
    rw [← drained_marked]
    exact List.mem_map_of_mem hp
  simp only [streamCall, wrapAndRecordSse, relay_figures, fold_reads, hall]

theorem finallyCall_ok (exit : Option PyError) (body : List Arrival)
    (h : RateFits py about.start finish (body.map fun a => a.chunk.raw).flatten) :
    finallyCall about finish exit (relay (readFrame py about.start) ⟨[], .unset⟩ body).2.figures =
      .ok (streamCall py about finish exit body) := by
  have hrate := ratePerSec_ok (elapsedMs about.start finish)
    (relay (readFrame py about.start) ⟨[], .unset⟩ body).2.figures.completionTokens (by
      rw [relay_count]
      refine h.imp_left fun hle => ?_
      rw [← not_lt, elapsed_pos]
      exact not_lt.mpr hle)
  rw [finallyCall, hrate]
  rfl

/-- A stream whose rate fits leaves the wrapper's record and goes on unchanged. -/
theorem wrapAndRecord_fits (h : RateFits py about.start finish r.bytes) :
    wrapAndRecord sinks requestId py about finish r =
      ⟨[(streamCall py about finish r.exit.error r.body)], untouched r⟩ := by
  obtain ⟨stored, hstored⟩ := record_ok sinks requestId
    (streamCall py about finish r.exit.error r.body)
  simp only [wrapAndRecord, finallyCall_ok py about finish r.exit.error r.body h, hstored, swallow,
    relay_yielded]
  rfl

/-- A count no float holds leaves no record, and its own exception. -/
theorem wrapAndRecord_overflow (h : ¬ RateFits py about.start finish r.bytes) :
    wrapAndRecord sinks requestId py about finish r =
      ⟨[], .response r.head r.chunks (some .overflowError)⟩ := by
  obtain ⟨hlate, hbig⟩ := not_or.mp h
  push Not at hlate hbig
  obtain ⟨n, hn, hbound⟩ := hbig
  have hcount := relay_count py about.start r.body
  have hrate := ratePerSec_error (elapsedMs about.start finish) n
    ((elapsed_pos _ _).mpr hlate) (not_lt.mpr hbound)
  rw [← Option.mem_def.mp hn, Response.bytes, Response.chunks, ← hcount] at hrate
  simp only [wrapAndRecord, finallyCall, hrate, relay_yielded]
  rfl

end Places

def BodyExit.isRaised : BodyExit → Bool
  | .raised _ => true
  | _ => false

namespace Answer

def failed : Answer → Bool
  | .raises _ => true
  | .returns r => r.exit.isRaised || 500 ≤ r.head.status

def status : Answer → ℕ
  | .raises _ => 500
  | .returns r => if r.exit.isRaised then 500 else r.head.status

end Answer

section Once
variable (C : Responses) (sinks : Sinks) (requestId : String) (py : Interpreter) (clock : Clock)
  (request : Request)

def Wraps (r : Response) : Prop :=
  isScrape request.path = false ∧ isChat request ∧ r.head.status = 200 ∧
    isEventStreamResponse r = true

def Rebuilds (r : Response) : Prop :=
  isScrape request.path = false ∧ isChat request ∧ r.head.status = 200 ∧
    (extractChatRequestMetadata py request.body).2 = false ∧ isEventStreamResponse r = false

def Iterates (answer : Answer) : Prop :=
  ∀ r, answer = .returns r → ¬ Wraps request r → r.exit = .completed

/-- Outside the scrape paths one call, which tells whether the answer failed. -/
def RecordedOnce (answer : Answer) (calls : List RecordCall) : Prop :=
  if isScrape request.path then calls = []
  else ∃ call, calls = [call] ∧ call.path = request.path ∧ call.method = request.method ∧
    call.error = answer.failed ∧ call.statusCode = answer.status

/-- The exception of the application, or its response: the same status, bytes
and end of the body, and the same head and chunks unless it was made again. -/
def Unchanged (answer : Answer) : Outcome → Prop
  | .raised e => ∃ raised, answer = .raises raised ∧ e = raised.val
  | .response head chunks exit => ∃ r, answer = .returns r ∧ head.status = r.head.status ∧
      chunks.flatten = r.bytes ∧ exit = r.exit.error ∧
      (¬ Rebuilds py request r → head = r.head ∧ chunks = r.chunks) ∧
      (Rebuilds py request r → head = C.head r.bytes r.head.status
        (dictOf (r.head.headers.filter fun p => p.1.toLower ≠ "content-length")) r.mediaType)

theorem untouched_unchanged (r : Response) (h : ¬ Rebuilds py request r) :
    Unchanged C py request (.returns r) (untouched r) :=
  ⟨r, rfl, rfl, rfl, rfl, fun _ => ⟨rfl, rfl⟩, fun hr => absurd hr h⟩

theorem rebuild_unchanged (r : Response) (h : Rebuilds py request r) (hexit : r.exit = .completed) :
    Unchanged C py request (.returns r) (rebuild C r r.bytes) :=
  ⟨r, rfl, C.status_kept _ _ _ _, List.append_nil _, by rw [hexit]; rfl,
    fun hr => absurd h hr, fun _ => rfl⟩

theorem buffer_bytes (r : Response) : (bufferAndExtractTokens py r).1 = r.bytes := by
  rw [bufferAndExtractTokens]
  split <;> rfl

theorem dispatch_scrape (answer : Answer) (h : isScrape request.path = true) :
    (dispatch C sinks requestId py clock request answer).calls = [] ∧
      Unchanged C py request answer
        (dispatch C sinks requestId py clock request answer).outcome := by
  cases answer with
  | raises e =>
    simp only [dispatch, h, if_true]
    exact ⟨trivial, e, rfl, rfl⟩
  | returns r =>
    have hr : ¬ Rebuilds py request r := fun hr => absurd (hr.1.symm.trans h) (by decide)
    simp only [dispatch, h, if_true]
    exact ⟨trivial, untouched_unchanged C py request r hr⟩

theorem dispatch_raises (e : Raised) (h : isScrape request.path = false) :
    RecordedOnce request (.raises e)
        (dispatch C sinks requestId py clock request (.raises e)).calls ∧
      Unchanged C py request (.raises e)
        (dispatch C sinks requestId py clock request (.raises e)).outcome := by
  simp only [dispatch, RecordedOnce, h, Bool.false_eq_true, if_false, recording_eq]
  exact ⟨⟨_, rfl, rfl, rfl, rfl, rfl⟩, e, rfl, rfl⟩

theorem dispatch_wraps (r : Response) (h : Wraps request r) :
    ∃ model, dispatch C sinks requestId py clock request (.returns r) =
      wrapAndRecord sinks requestId py ⟨clock.start, model, request.path, request.method⟩
        clock.finish r := by
  obtain ⟨hscrape, hrest⟩ := h
  simp only [dispatch, hscrape, Bool.false_eq_true, if_false, if_pos hrest]
  exact ⟨_, rfl⟩

theorem dispatch_plain (r : Response) (h : isScrape request.path = false)
    (hw : ¬ Wraps request r) (hexit : r.exit = .completed) :
    RecordedOnce request (.returns r)
        (dispatch C sinks requestId py clock request (.returns r)).calls ∧
      Unchanged C py request (.returns r)
        (dispatch C sinks requestId py clock request (.returns r)).outcome := by
  have hwrap : ¬ (isChat request ∧ r.head.status = 200 ∧ isEventStreamResponse r = true) :=
    fun hc => hw ⟨h, hc⟩
  have herror : decide (r.head.status ≥ 500) = (Answer.returns r).failed := by
    simp [Answer.failed, hexit, BodyExit.isRaised]
  have hstatus : r.head.status = (Answer.returns r).status := by
    simp [Answer.status, hexit, BodyExit.isRaised]
  simp only [dispatch, RecordedOnce, h, Bool.false_eq_true, if_false, if_neg hwrap, buffer_bytes,
    recording_eq]
  by_cases hc : isChat request
  · simp only [hc, true_and, if_true]
    split_ifs with hr
    · exact ⟨⟨_, rfl, rfl, rfl, herror, hstatus⟩,
        rebuild_unchanged C py request r ⟨h, hc, hr⟩ hexit⟩
    · exact ⟨⟨_, rfl, rfl, rfl, herror, hstatus⟩,
        untouched_unchanged C py request r fun hb => hr hb.2.2⟩
  · simp only [hc, false_and, if_false]
    exact ⟨⟨_, rfl, rfl, rfl, herror, hstatus⟩,
      untouched_unchanged C py request r fun hb => hc hb.2.1⟩

theorem failed_wrapped (exit : BodyExit) :
    (exit.error.any PyError.isException) = exit.isRaised := by
  cases exit with
  | raised e => exact e.property
  | _ => rfl

/-- A wrapped stream has its record where its rate fits, and none elsewhere. -/
theorem dispatch_stream (r : Response) (hw : Wraps request r) :
    (RecordedOnce request (.returns r)
        (dispatch C sinks requestId py clock request (.returns r)).calls ∧
      Unchanged C py request (.returns r)
        (dispatch C sinks requestId py clock request (.returns r)).outcome) ↔
      RateFits py clock.start clock.finish r.bytes := by
  obtain ⟨model, hd⟩ := dispatch_wraps C sinks requestId py clock request r hw
  have hplain : ¬ Rebuilds py request r :=
    fun hb => absurd (hb.2.2.2.2.symm.trans hw.2.2.2) (by decide)
  constructor
  · rintro ⟨hone, -⟩
    by_contra hfits
    rw [hd, wrapAndRecord_overflow _ _ _ _ _ _ hfits, RecordedOnce, hw.1] at hone
    obtain ⟨call, hcall, -⟩ := hone
    cases hcall
  · intro hfits
    rw [hd, wrapAndRecord_fits _ _ _ _ _ _ hfits, RecordedOnce, hw.1]
    refine ⟨⟨_, rfl, rfl, rfl, ?_, ?_⟩, untouched_unchanged C py request r hplain⟩
    · simp [streamCall, recordCall, failed_wrapped, Answer.failed, hw.2.2.1]
    · simp [streamCall, recordCall, failed_wrapped, Answer.status, hw.2.2.1]

end Once

theorem floatBound_le : floatBound ≤ 10 ^ 400 :=
  calc floatBound ≤ 2 ^ 1024 := Nat.sub_le _ _
    _ ≤ 2 ^ (3 * 400) := Nat.pow_le_pow_right Nat.two_pos (by omega)
    _ = 8 ^ 400 := Nat.pow_mul 2 3 400
    _ ≤ 10 ^ 400 := Nat.pow_le_pow_left (by omega) 400

def plainResponses : Responses := ⟨fun _ status headers _ => ⟨status, headers⟩, fun _ _ _ _ => rfl⟩

def cpython : Interpreter := ⟨ascii, 300⟩

def quietSinks : Sinks := ⟨fun _ => none, fun _ => none⟩

def streamRequest : Request :=
  ⟨"POST", chatPath, .ok (encode "\x7b\"stream\": true\x7d".toList)⟩

def streamOf (e : SseEvent) : Response :=
  ⟨⟨200, [("content-type", "text/event-stream")]⟩, none, [⟨.bytes (encode e.text), 1⟩],
    .completed⟩

def usageOf (completion : ℤ) : SseEvent := .usage "chatcmpl-1" ⟨1, completion, completion+1⟩ none

theorem streamOf_wraps (e : SseEvent) : Wraps streamRequest (streamOf e) := by
  have hhead : isEventStream ⟨200, [("content-type", "text/event-stream")]⟩ = true := by
    decide +kernel
  refine ⟨by decide, ⟨rfl, rfl⟩, rfl, ?_⟩
  simp only [isEventStreamResponse, streamOf, hhead, Bool.true_or]

/-- An interpreter reads the count of a usage event if it is not too long. -/
theorem usageOf_reads (n : ℕ) (h : n+1 < 10^maxStrDigits) :
    reads cpython (encode (frame (usageOf n))) = true := by
  have hdigits : ∀ m, m < 10^maxStrDigits → (Nat.toDigits 10 m).length ≤ maxStrDigits :=
    fun m hm => (Nat.length_toDigits_le_iff (by decide) (by decide)).mpr hm
  have hone : (Nat.toDigits 10 1).length ≤ maxStrDigits := by decide
  have htotal : ((n : ℤ)+1).natAbs = n+1 := Int.natAbs_natCast (n+1)
  rw [reads_event]
  simp [usageOf, SseEvent.payload, within, withinMembers, withinItems, chunkHead,
    ChatCompletionUsage.dump, timingMember, cpython, htotal, hone, hdigits n (by omega),
    hdigits (n+1) h]

theorem count_fits (n digits : ℕ) (hd : digits < maxStrDigits) (h : n < 10^digits) :
    n+1 < 10^maxStrDigits :=
  (Nat.succ_le_of_lt h).trans_lt (Nat.pow_lt_pow_right (by decide) hd)

theorem streamOf_count (n : ℕ) (h : n+1 < 10^maxStrDigits) :
    lastCount cpython (streamOf (usageOf n)).bytes = some (n : ℤ) := by
  have hcarries : Carries [usageOf n] (streamOf (usageOf n)).body := by
    simp [Carries, streamOf, BodyChunk.raw]
  have hframes := blankLines.marked_drain [] ((streamOf (usageOf n)).body.map
    Arrival.marked) blankLines.next_nil
  rw [marked_lines _ _ hcarries] at hframes
  have hbytes : (streamOf (usageOf n)).bytes =
      []++(((streamOf (usageOf n)).body.map Arrival.marked).map Prod.fst).flatten := rfl
  have hall : (lines [usageOf n]).filter (reads cpython) = lines [usageOf n] :=
    List.filter_eq_self.mpr (List.forall_mem_singleton.mpr (usageOf_reads n h))
  rw [lastCount, hbytes, ← hframes, hall, lastUsage_lines]
  rfl

/-- One record for each request, and the answer unchanged, exactly where the
rate of a wrapped stream can be computed. -/
theorem recorded_once_iff (C : Responses) (sinks : Sinks) (requestId : String) (py : Interpreter)
    (clock : Clock) (request : Request) (answer : Answer) (hi : Iterates request answer) :
    (RecordedOnce request answer (dispatch C sinks requestId py clock request answer).calls ∧
      Unchanged C py request answer
        (dispatch C sinks requestId py clock request answer).outcome) ↔
      ∀ r, answer = .returns r → Wraps request r → RateFits py clock.start clock.finish r.bytes := by
  cases answer with
  | raises e =>
    refine iff_of_true ?_ fun r hr => by cases hr
    cases h : isScrape request.path with
    | false => exact dispatch_raises C sinks requestId py clock request e h
    | true =>
      obtain ⟨hcalls, hout⟩ := dispatch_scrape C sinks requestId py clock request (.raises e) h
      exact ⟨by rw [RecordedOnce, h, hcalls]; rfl, hout⟩
  | returns r =>
    by_cases hw : Wraps request r
    · rw [dispatch_stream C sinks requestId py clock request r hw]
      exact ⟨fun h r' hr _ => by cases hr; exact h, fun h => h r rfl hw⟩
    · refine iff_of_true ?_ fun r' hr hw' => by cases hr; exact absurd hw' hw
      cases h : isScrape request.path with
      | false => exact dispatch_plain C sinks requestId py clock request r h hw (hi r rfl hw)
      | true =>
        obtain ⟨hcalls, hout⟩ := dispatch_scrape C sinks requestId py clock request (.returns r) h
        exact ⟨by rw [RecordedOnce, h, hcalls]; rfl, hout⟩

theorem streamOf_iterates (e : SseEvent) : Iterates streamRequest (.returns (streamOf e)) := by
  rintro r ⟨⟩ -
  rfl

theorem recorded_once_three :
    RecordedOnce streamRequest (.returns (streamOf (usageOf 3)))
      (dispatch plainResponses quietSinks "00" cpython ⟨0, 1, 2⟩ streamRequest
        (.returns (streamOf (usageOf 3)))).calls := by
  refine ((recorded_once_iff plainResponses quietSinks "00" cpython ⟨0, 1, 2⟩ streamRequest
    (.returns (streamOf (usageOf 3))) (streamOf_iterates _)).mpr ?_).1
  rintro r ⟨⟩ -
  refine Or.inr fun n hn => ?_
  rw [show usageOf 3 = usageOf (3 : ℕ) from rfl,
    streamOf_count 3 (count_fits 3 1 (by decide) (by decide))] at hn
  obtain rfl : 3 = n := Option.some.inj hn
  exact (by norm_num : (3 : ℤ).natAbs < 2 ^ 3).trans_le (Nat.pow_le_pow_right Nat.two_pos
    (by omega) |>.trans floatBound_ge)

/-- A stream whose usage event counts `10 ^ 400` tokens leaves no record, and
ends with an exception of the middleware's own. -/
theorem stream_unrecorded :
    Iterates streamRequest (.returns (streamOf (usageOf (10 ^ 400)))) ∧
    dispatch plainResponses quietSinks "00" cpython ⟨0, 1, 2⟩ streamRequest
      (.returns (streamOf (usageOf (10 ^ 400)))) =
        ⟨[], .response (streamOf (usageOf (10 ^ 400))).head
          (streamOf (usageOf (10 ^ 400))).chunks (some .overflowError)⟩ ∧
    ¬ RecordedOnce streamRequest (.returns (streamOf (usageOf (10 ^ 400))))
      (dispatch plainResponses quietSinks "00" cpython ⟨0, 1, 2⟩ streamRequest
        (.returns (streamOf (usageOf (10 ^ 400))))).calls ∧
    ¬ Unchanged plainResponses cpython streamRequest (.returns (streamOf (usageOf (10 ^ 400))))
      (dispatch plainResponses quietSinks "00" cpython ⟨0, 1, 2⟩ streamRequest
        (.returns (streamOf (usageOf (10 ^ 400))))).outcome := by
  have hlong : 10 ^ 400+1 < 10^maxStrDigits :=
    count_fits _ 401 (by decide) (Nat.pow_lt_pow_right (by decide) (by decide))
  have hcount : lastCount cpython (streamOf (usageOf (10 ^ 400))).bytes = some (10 ^ 400) := by
    have h := streamOf_count (10 ^ 400) hlong
    rwa [Nat.cast_pow] at h
  have hfits : ¬ RateFits cpython 0 2 (streamOf (usageOf (10 ^ 400))).bytes := by
    rw [RateFits, hcount]
    rintro (h | h)
    · norm_num at h
    · have hlt := h (10 ^ 400) rfl
      rw [Int.natAbs_pow] at hlt
      exact absurd hlt (not_lt.mpr floatBound_le)
  obtain ⟨model, hd⟩ := dispatch_wraps plainResponses quietSinks "00" cpython ⟨0, 1, 2⟩
    streamRequest _ (streamOf_wraps (usageOf (10 ^ 400)))
  rw [wrapAndRecord_overflow _ _ _ _ _ _ hfits] at hd
  refine ⟨streamOf_iterates _, hd, ?_, ?_⟩
  · rw [hd]
    rintro ⟨call, hcall, -⟩
    cases hcall
  · rw [hd]
    rintro ⟨r, hr, -, -, hexit, -⟩
    cases hr
    cases hexit

end InferenceX.MetricsRecording
