import InferenceX.Library.AppendedLines
import InferenceX.Library.DecimalFloat
import InferenceX.Library.JsonSpaced
import InferenceX.Library.KeyedWrites
import InferenceX.RecordBuffer

/-!
# The buffer and the exported file

The recorder puts a record into the buffer and, where a file is configured,
appends it there as a line of JSON. Either may fail without the other, and a
restart empties the buffer and leaves the file. The lines tell what the buffer
holds as long as nothing fails, and what arrived whole in any case.
-/

set_option autoImplicit false

namespace InferenceX.MetricsExport
open Library.JsonText Library.TextLines Library.DecimalFloat Library.KeyedWrites
open Library.BoundedHistory Library.AppendedLines
open InferenceX.PythonValues InferenceX.SseRecording InferenceX.MetricsRecording
open InferenceX.MetricsSummary InferenceX.RecordBuffer InferenceX.StreamFrames

mutual

def asDict : Json → Json
  | .arr items => .arr (asDictItems items)
  | .obj members => .obj (puts (asDictMembers members) [])
  | value => value

def asDictItems : List Json → List Json
  | [] => []
  | v::rest => asDict v::asDictItems rest

def asDictMembers : List (String × Json) → List (String × Json)
  | [] => []
  | (k, v)::rest => (k, asDict v)::asDictMembers rest

end

section Lines
variable (F : FloatRepr 3)

def intOrNull : Option ℤ → Json
  | none => .null
  | some z => .int z

def floatOrNull : Option ℚ → Json
  | none => .null
  | some q => .float (F.text q)

def toDict (r : RequestRecord) : Json :=
  .obj [("request_id", .str r.requestId),
    ("path", .str r.path),
    ("method", .str r.method),
    ("status_code", .int r.statusCode),
    ("latency_ms", .float (F.text r.latencyMs)),
    ("model", (r.model.map asDict).getD .null),
    ("prompt_tokens", intOrNull r.promptTokens),
    ("completion_tokens", intOrNull r.completionTokens),
    ("total_tokens", intOrNull r.totalTokens),
    ("error", .bool r.error),
    ("ttft_ms", floatOrNull F r.ttftMs),
    ("tokens_per_sec", floatOrNull F r.tokensPerSec)]

/-- `json.dumps(record.to_dict(), default=str)`; the dictionary needs no default. -/
def exportLine (r : RequestRecord) : List Char := spaced asciiEscape (toDict F r)

theorem exportLine_unbroken (r : RequestRecord) : ∀ c ∈ exportLine F r, isLineBreak c = false :=
  fun c hc => printable_no_break c (spaced_printable (toDict F r) c hc)

theorem loads_exportLine (r : RequestRecord) : loads (exportLine F r) = some (toDict F r) :=
  loads_spaced asciiEscaping (toDict F r)

end Lines

def told (r : RequestRecord) : RequestRecord :=
  { r with model := some ((r.model.map asDict).getD .null) }

theorem intOrNull_inj {a b : Option ℤ} (h : intOrNull a = intOrNull b) : a = b := by
  cases a <;> cases b <;> simp_all [intOrNull]

section Told
variable (F : FloatRepr 3)

theorem text_inj (p q : ℚ) (h : F.text (roundPlaces 3 p) = F.text (roundPlaces 3 q)) :
    roundPlaces 3 p = roundPlaces 3 q := by
  have hvalue := congrArg FloatText.value h
  rw [roundPlaces, roundPlaces, F.value_text, F.value_text] at hvalue
  exact Option.some.inj hvalue

theorem floatOrNull_inj {a b : Option ℚ}
    (h : floatOrNull F (a.map (roundPlaces 3)) = floatOrNull F (b.map (roundPlaces 3))) :
    a.map (roundPlaces 3) = b.map (roundPlaces 3) := by
  cases a with
  | none => cases b <;> simp_all [floatOrNull]
  | some p =>
    cases b with
    | none => simp_all [floatOrNull]
    | some q =>
      simp only [Option.map_some, floatOrNull, Json.float.injEq] at h
      rw [Option.map_some, Option.map_some, text_inj F p q h]

end Told

inductive Exporter where
  | null
  | jsonLine (path : String)
  deriving DecidableEq, Repr

def buildExporter (metricsFile : Option String) : Exporter :=
  let path := strip (metricsFile.getD "").toList
  if path.isEmpty then .null else .jsonLine (String.ofList path)

structure Attempt where
  requestId : String
  call : RecordCall
  storage : Option Raised
  write : Write

inductive Event where
  | record (a : Attempt)
  | restart

structure State where
  storage : InMemoryStorage
  file : List Char

def Attempt.built (a : Attempt) : RequestRecord where
  requestId := a.requestId
  path := a.call.path
  method := a.call.method
  statusCode := a.call.statusCode
  latencyMs := roundPlaces 3 a.call.latencyMs
  model := a.call.model
  promptTokens := a.call.promptTokens
  completionTokens := a.call.completionTokens
  totalTokens := a.call.totalTokens
  error := a.call.error
  ttftMs := a.call.ttftMs.map (roundPlaces 3)
  tokensPerSec := a.call.tokensPerSec.map (roundPlaces 3)

theorem record_built (sinks : Sinks) (a : Attempt) :
    record sinks a.requestId a.call = .ok a.built := by
  simp only [record, swallow_raising]
  rfl

/-- Two records share their line exactly where they are the same to its reader. -/
theorem line_tells (F : FloatRepr 3) (a b : Attempt) :
    exportLine F a.built = exportLine F b.built ↔ told a.built = told b.built := by
  constructor
  · intro h
    have hdict := (loads_exportLine F a.built).symm.trans
      ((congrArg loads h).trans (loads_exportLine F b.built))
    simp only [toDict, Option.some.injEq, Json.obj.injEq, List.cons.injEq, Prod.mk.injEq, true_and,
      and_true, Json.str.injEq, Json.int.injEq, Json.float.injEq, Json.bool.injEq,
      Nat.cast_inj] at hdict
    obtain ⟨hid, hpath, hmethod, hstatus, hlatency, hmodel, hprompt, hcompletion, htotal, herror,
      httft, hrate⟩ := hdict
    have hlatency := text_inj F _ _ hlatency
    have httft := floatOrNull_inj F httft
    have hrate := floatOrNull_inj F hrate
    simp only [told, RequestRecord.mk.injEq]
    exact ⟨hid, hpath, hmethod, hstatus, hlatency, congrArg some hmodel, intOrNull_inj hprompt,
      intOrNull_inj hcompletion, intOrNull_inj htotal, herror, httft, hrate⟩
  · intro h
    simp only [told, RequestRecord.mk.injEq] at h
    obtain ⟨hid, hpath, hmethod, hstatus, hlatency, hmodel, hprompt, hcompletion, htotal, herror,
      httft, hrate⟩ := h
    rw [exportLine, exportLine, toDict, toDict, hid, hpath, hmethod, hstatus, hlatency,
      Option.some.inj hmodel, hprompt, hcompletion, htotal, herror, httft, hrate]

section Run
variable (F : FloatRepr 3) (exporter : Exporter)

def exportTo (write : Write) (r : RequestRecord) (file : List Char) : List Char :=
  match exporter with
  | .null => file
  | .jsonLine _ => file++piece (exportLine F r) write

def observe (s : State) : Event → Except PyError State
  | .record a => do
    let r ← record ⟨fun _ => a.storage, fun _ => none⟩ a.requestId a.call
    return {
      storage := if a.storage.isNone then s.storage.append r else s.storage
      file := exportTo F exporter a.write r s.file }
  | .restart => .ok { s with storage := .create s.storage.maxRecords }

def run (k : ℕ) (events : List Event) : Except PyError State :=
  events.foldlM (observe F exporter) ⟨.create k, []⟩

end Run

def Event.kept : Event → List (Operation RequestRecord)
  | .record a => if a.storage.isNone then [.append a.built] else []
  | .restart => [.clear]

def Event.written : Event → Option (RequestRecord × Write)
  | .record a => some (a.built, a.write)
  | .restart => none

def Event.Faultless : Event → Prop
  | .record a => a.storage = none ∧ a.write = .whole
  | .restart => True

def kept (events : List Event) : List (Operation RequestRecord) := events.flatMap Event.kept

def written (events : List Event) : List (RequestRecord × Write) := events.filterMap Event.written

section Histories
variable (F : FloatRepr 3) (path : String)

theorem observe_ok (s : State) (event : Event) : observe F (.jsonLine path) s event =
    .ok ⟨event.kept.foldl operate s.storage,
      s.file++contents (exportLine F) event.written.toList⟩ := by
  cases event with
  | record a =>
    have hfile : contents (exportLine F) [(a.built, a.write)] =
        piece (exportLine F a.built) a.write := List.append_nil _
    rw [observe, record_built, Event.kept, Event.written, Option.toList_some, hfile]
    cases a.storage with
    | none => rfl
    | some e => rfl
  | restart =>
    rw [observe, Event.written, Option.toList_none, contents, List.flatMap_nil, List.append_nil]
    rfl

theorem written_cons (event : Event) (events : List Event) :
    written (event::events) = event.written.toList++written events := by
  rw [written, List.filterMap_cons]
  cases event.written with
  | none => rfl
  | some w => rfl

theorem run_from (events : List Event) (s : State) :
    events.foldlM (observe F (.jsonLine path)) s =
      .ok ⟨(kept events).foldl operate s.storage,
        s.file++contents (exportLine F) (written events)⟩ := by
  induction events generalizing s with
  | nil =>
    have hfile : s.file++contents (exportLine F) (written []) = s.file := List.append_nil s.file
    rw [hfile]
    rfl
  | cons event events ih =>
    have hkept : kept (event::events) = event.kept++kept events := List.flatMap_cons
    have hfile : contents (exportLine F) (written (event::events)) =
        contents (exportLine F) event.written.toList++contents (exportLine F) (written events) := by
      rw [written_cons, contents, List.flatMap_append]
      rfl
    rw [List.foldlM_cons, observe_ok, hkept, hfile, List.foldl_append, ← List.append_assoc]
    exact ih _

/-- The run never raises; the buffer follows its operations and the file its writes. -/
theorem run_ok (k : ℕ) (events : List Event) : run F (.jsonLine path) k events =
    .ok ⟨after k (kept events), contents (exportLine F) (written events)⟩ :=
  run_from F path events ⟨.create k, []⟩

end Histories

section Agree
variable (F : FloatRepr 3)

theorem faultless_whole (events : List Event) (h : ∀ event ∈ events, event.Faultless) :
    ∀ w ∈ written events, w.2 = .whole := by
  intro w hw
  obtain ⟨event, hevent, hwritten⟩ := List.mem_filterMap.mp hw
  cases event with
  | record a =>
    obtain rfl : (a.built, a.write) = w := Option.some.inj hwritten
    exact (h _ hevent).2
  | restart => cases hwritten

theorem faultless_appended (events : List Event) (h : ∀ event ∈ events, event.Faultless) :
    (written events).map Prod.fst = appended (kept events) := by
  induction events with
  | nil => rfl
  | cons event events ih =>
    obtain ⟨hevent, hrest⟩ := List.forall_mem_cons.mp h
    have hkept : appended (kept (event::events)) = appended event.kept++appended (kept events) := by
      rw [kept, List.flatMap_cons, appended, List.flatMap_append]
      rfl
    rw [written_cons, List.map_append, ih hrest, hkept]
    congr 1
    cases event with
    | record a =>
      rw [Event.kept, hevent.1]
      rfl
    | restart => rfl

theorem kept_suffix (k : ℕ) (events : List Event) :
    (after k (kept events)).all <:+ appended (kept events) := by
  rw [after_all]
  exact (List.drop_suffix _ _).trans (history_suffix _)

theorem buffer_read (k : ℕ) (events : List Event) (h : ∀ event ∈ events, event.Faultless) :
    ((splitlines (contents (exportLine F) (written events))).map loads).rtake
        (len (after k (kept events))) =
      (after k (kept events)).all.map fun r => some (toDict F r) := by
  obtain ⟨earlier, hearlier⟩ := kept_suffix k events
  have hlines : (splitlines (contents (exportLine F) (written events))).map loads =
      (appended (kept events)).map fun r => some (toDict F r) := by
    rw [whole_read _ (exportLine_unbroken F) _ (faultless_whole events h),
      ← faultless_appended events h, List.map_map, List.map_map]
    exact List.map_congr_left fun w _ => loads_exportLine F w.1
  have hlen : len (after k (kept events)) = (after k (kept events)).all.length := rfl
  rw [hlines, ← hearlier, hlen, List.map_append, List.rtake_eq_reverse_take_reverse]
  simp

/-- The recorder never raises, whatever its sinks do. The buffer holds the last
records it took since the start of the process, and the file gives back, in
order, what was written whole behind a line feed: all but two for each broken
write. Where nothing fails its last lines are the buffer. -/
theorem sinks_agree (k : ℕ) (metricsFile : String) (h : strip metricsFile.toList ≠ [])
    (events : List Event) :
    ∃ s, run F (buildExporter (some metricsFile)) k events = .ok s ∧
      s.storage.all = (history (kept events)).rtake k ∧
      ((intact (exportLine F) true (written events)).map fun r => some (toDict F r)).Sublist
        ((splitlines s.file).map loads) ∧
      (written events).length ≤ (intact (exportLine F) true (written events)).length+
        2*((written events).countP fun w => w.2.isTorn) ∧
      ((∀ event ∈ events, event.Faultless) → ((splitlines s.file).map loads).rtake (len s.storage) =
        s.storage.all.map fun r => some (toDict F r)) := by
  have hexporter : buildExporter (some metricsFile) =
      .jsonLine (String.ofList (strip metricsFile.toList)) :=
    if_neg (by simpa using h)
  rw [hexporter]
  refine ⟨_, run_ok F _ k events, after_all k _, ?_, ?_, buffer_read F k events⟩
  · have hread := (intact_read (exportLine F) (exportLine_unbroken F) (written events)).map loads
    rw [List.map_map] at hread
    have hline : loads ∘ exportLine F = fun r => some (toDict F r) :=
      funext fun r => loads_exportLine F r
    rwa [hline] at hread
  · exact length_intact (exportLine F) true (written events)

end Agree

def attempt (latencyMs : ℚ) (write : Write) : Attempt :=
  ⟨"r", ⟨"/v1/models", "GET", 200, latencyMs, none, none, none, none, false, none, none⟩, none,
    write⟩

/-- A buffer of one record is the last line of the file. -/
theorem sinks_agree_two : ∃ s,
    run (decimals 2) (buildExporter (some " metrics.ndjson")) 1
      [.record (attempt 10 .whole), .record (attempt (25/2) .whole)] = .ok s ∧
    ((splitlines s.file).map loads).rtake 1 =
      [some (toDict (decimals 2) (attempt (25/2) .whole).built)] := by
  obtain ⟨s, hrun, hall, -, -, hlines⟩ := sinks_agree (decimals 2) 1 " metrics.ndjson"
    (by decide +kernel) [.record (attempt 10 .whole), .record (attempt (25/2) .whole)]
  have hone : s.storage.all = [(attempt (25/2) .whole).built] := hall
  have hlen : len s.storage = 1 := congrArg List.length hone
  have hlast := hlines (by
    intro event hevent
    rcases List.mem_pair.mp hevent with rfl | rfl <;> exact ⟨rfl, rfl⟩)
  rw [hlen, hone] at hlast
  exact ⟨s, hrun, hlast⟩

end InferenceX.MetricsExport
