import InferenceX.Library.ChunkedFrames
import InferenceX.SseReaders

/-!
# The middleware's wrapper around a stream

The wrapper passes every chunk of the body on and reads blank-line frames out
of the bytes so far. It records the time of the first frame with generated
text and the figures of the last usage frame, in one record when the body
ends. Times are exact rationals.
-/

set_option autoImplicit false

namespace InferenceX.SseRecording
open Library.JsonText Library.ChunkedFrames Library.Utf8Text Library.CharClasses
open InferenceX.PythonValues InferenceX.SseReaders

inductive BodyChunk where
  | bytes (raw : List UInt8)
  | text (s : String)
  deriving DecidableEq, Repr

def BodyChunk.raw : BodyChunk → List UInt8
  | .bytes raw => raw
  | .text s => encode s.toList

structure Arrival where
  chunk : BodyChunk
  clock : ℚ
  deriving DecidableEq

def Arrival.marked (a : Arrival) : List UInt8 × ℚ := (a.chunk.raw, a.clock)

structure Figures where
  ttftMs : Option ℚ
  promptTokens : Option ℤ
  completionTokens : Option ℤ
  deriving DecidableEq

def Figures.unset : Figures := ⟨none, none, none⟩

def elapsedMs (start now : ℚ) : ℚ := (now-start)*1000

def Figures.line (k : CharTable) (start now : ℚ) (g : Figures) (line : List UInt8) : Figures :=
  let g := if g.ttftMs = none ∧ hasContentDelta line = true then
      { g with ttftMs := some (elapsedMs start now) } else g
  match extractSseUsage k line with
  | some (prompt, completion) =>
    { g with promptTokens := some prompt, completionTokens := some completion }
  | none => g

/-- `buffer.split(b"\n\n", 1)`. -/
def blankLines : Framer UInt8 (List UInt8) := delimited [10, 10] (by decide)

structure Recording where
  buffer : List UInt8
  figures : Figures
  deriving DecidableEq

section Relay
-- What a frame does to the figures at a clock reading.
variable (read : ℚ → Figures → List UInt8 → Figures)

def Recording.chunk (r : Recording) (a : Arrival) : Recording :=
  let (lines, rest) := blankLines.drain (r.buffer++a.chunk.raw)
  ⟨rest, lines.foldl (read a.clock) r.figures⟩

def relay : Recording → List Arrival → List (List UInt8) × Recording
  | r, [] => ([], r)
  | r, a::body =>
    let (yielded, last) := relay (r.chunk read a) body
    (a.chunk.raw::yielded, last)

end Relay

/-- The request a record is about; its model is any value of a request body. -/
structure RecordedRequest where
  start : ℚ
  model : Option Json
  path : String
  method : String

structure RecordCall where
  path : String
  method : String
  statusCode : ℕ
  latencyMs : ℚ
  model : Option Json
  promptTokens : Option ℤ
  completionTokens : Option ℤ
  totalTokens : Option ℤ
  error : Bool
  ttftMs : Option ℚ
  tokensPerSec : Option ℚ

def totalTokens (g : Figures) : Option ℤ :=
  match g.promptTokens, g.completionTokens with
  | some prompt, some completion => some (prompt+completion)
  | _, _ => none

def tokensPerSec (elapsed : ℚ) (completion : Option ℤ) : Option ℚ :=
  match completion with
  | none => none
  | some n => if n ≠ 0 ∧ elapsed > 0 then some (n/elapsed*1000) else none

/-- The `finally` of the wrapper, run at `finish`; `exit` is what left the loop. -/
def recordCall (request : RecordedRequest) (finish : ℚ) (exit : Option PyError) (g : Figures) :
    RecordCall :=
  let failed := exit.any PyError.isException
  { path := request.path
    method := request.method
    statusCode := if failed then 500 else 200
    latencyMs := elapsedMs request.start finish
    model := request.model
    promptTokens := g.promptTokens
    completionTokens := g.completionTokens
    totalTokens := totalTokens g
    error := failed
    ttftMs := g.ttftMs
    tokensPerSec := tokensPerSec (elapsedMs request.start finish) g.completionTokens }

/-- `_wrap_and_record_sse` over the part of a body that arrived, where the
interpreter reads all of its frames. -/
def wrapAndRecordSse (k : CharTable) (request : RecordedRequest) (finish : ℚ)
    (body : List Arrival) (exit : Option PyError) : List (List UInt8) × RecordCall :=
  let (yielded, last) := relay (Figures.line k request.start) ⟨[], .unset⟩ body
  (yielded, recordCall request finish exit last.figures)

theorem relay_yielded (read : ℚ → Figures → List UInt8 → Figures) (r : Recording)
    (body : List Arrival) : (relay read r body).1 = body.map fun a => a.chunk.raw := by
  induction body generalizing r with
  | nil => rfl
  | cons a body ih => simp [relay, ih]

theorem relay_figures (read : ℚ → Figures → List UInt8 → Figures) (r : Recording)
    (body : List Arrival) : (relay read r body).2.figures =
      (blankLines.marked r.buffer (body.map Arrival.marked)).foldl
        (fun g p => read p.2 g p.1) r.figures := by
  induction body generalizing r with
  | nil => rfl
  | cons a body ih =>
    rw [List.map_cons, Arrival.marked, Framer.marked, List.foldl_append, List.foldl_map]
    exact ih (r.chunk read a)

section Line
variable (k : CharTable) (start now : ℚ) (g : Figures) (line : List UInt8)

theorem line_ttft : (g.line k start now line).ttftMs =
    g.ttftMs.or (if hasContentDelta line then some (elapsedMs start now) else none) := by
  rw [Figures.line]
  cases ht : g.ttftMs <;> cases extractSseUsage k line <;> by_cases hc : hasContentDelta line <;>
    simp [hc, ht]

theorem line_prompt : (g.line k start now line).promptTokens =
    ((extractSseUsage k line).map Prod.fst).or g.promptTokens := by
  rw [Figures.line]
  cases extractSseUsage k line <;> split_ifs <;> rfl

theorem line_completion : (g.line k start now line).completionTokens =
    ((extractSseUsage k line).map Prod.snd).or g.completionTokens := by
  rw [Figures.line]
  cases extractSseUsage k line <;> split_ifs <;> rfl

end Line

section Fold
variable (k : CharTable) (start : ℚ) (g : Figures) (ps : List (List UInt8 × ℚ))

def lastUsage (lines : List (List UInt8)) : Option (ℤ × ℤ) :=
  (lines.filterMap (extractSseUsage k)).getLast?

theorem lastUsage_cons (line : List UInt8) (lines : List (List UInt8)) :
    lastUsage k (line::lines) = (lastUsage k lines).or (extractSseUsage k line) := by
  simp only [lastUsage, List.filterMap_cons]
  cases extractSseUsage k line with
  | none => simp
  | some usage =>
    cases h : (lines.filterMap (extractSseUsage k)).getLast? <;> simp [List.getLast?_cons, h]

theorem fold_ttft : (ps.foldl (fun g p => g.line k start p.2 p.1) g).ttftMs =
    g.ttftMs.or ((ps.find? fun p => hasContentDelta p.1).map fun p => elapsedMs start p.2) := by
  induction ps generalizing g with
  | nil => simp
  | cons p ps ih =>
    rw [List.foldl_cons, ih, line_ttft]
    by_cases hc : hasContentDelta p.1 <;> cases g.ttftMs <;> simp [hc]

theorem fold_prompt : (ps.foldl (fun g p => g.line k start p.2 p.1) g).promptTokens =
    ((lastUsage k (ps.map Prod.fst)).map Prod.fst).or g.promptTokens := by
  induction ps generalizing g with
  | nil => rfl
  | cons p ps ih =>
    rw [List.foldl_cons, ih, line_prompt, List.map_cons, lastUsage_cons]
    cases lastUsage k (ps.map Prod.fst) <;> simp

theorem fold_completion : (ps.foldl (fun g p => g.line k start p.2 p.1) g).completionTokens =
    ((lastUsage k (ps.map Prod.fst)).map Prod.snd).or g.completionTokens := by
  induction ps generalizing g with
  | nil => rfl
  | cons p ps ih =>
    rw [List.foldl_cons, ih, line_completion, List.map_cons, lastUsage_cons]
    cases lastUsage k (ps.map Prod.fst) <;> simp

end Fold

end InferenceX.SseRecording
