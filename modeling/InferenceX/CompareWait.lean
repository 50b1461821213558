import InferenceX.ChatRoute
import InferenceX.Library.ChunkedFrames
import InferenceX.Library.JsonBytes
import InferenceX.Library.JsonRoundTrip
import InferenceX.Library.PollLoop

/-!
# Waiting for the model of a sequential compare

Between its two phases the client polls the server until it serves the second
model. It takes a server with another model for one to wait for by the words of
the error, but the handler of the server leaves no word of it in its answer. So
the wait ends in an error at the first such poll.
-/

set_option autoImplicit false

namespace InferenceX.CompareWait
open Library.JsonText Library.Utf8Text Library.PollLoop Library.StepRuns
open Library.ChunkedFrames (splitOnce)
open InferenceX.PythonValues InferenceX.ChatSchema InferenceX.ModelRegistry
open InferenceX.AdmissionGates InferenceX.ChatDispatch InferenceX.ChatRoute
open InferenceX.StreamEvents InferenceX.StreamMachine

inductive Exchange where
  | refused (reason : String)
  | reply (status : ℕ) (body : List UInt8)

def chatPayload (prompt model : String) (temperature : FloatText) (maxTokens : ℤ) :
    ChatPayload where
  model := model
  messages := [⟨.user, prompt⟩]
  temperature := some (some temperature)
  maxTokens := some (some maxTokens)
  topP := none
  stream := none
  maxContextTokens := none
  maxOutputTokens := none
  priority := none
  streamOptions := none
  seed := none
  strict := none

def chatCompletion (baseUrl : String) : Exchange → Except PyError Json
  | .refused reason =>
    .error (.runtimeError (s!"Cannot reach server at {baseUrl}: {reason}\n" ++
      "Is the server running? Try: ./scripts/dev.sh serve"))
  | .reply status body =>
    if 200 ≤ status ∧ status < 300 then
      match loadsBytes body with
      | none => .error .jsonDecodeError
      | some value => .ok value
    else
      .error (.runtimeError (s!"HTTP {status} from server: " ++ String.ofList (decodeReplace body)))

/-- `"loaded model is" in str(exc)`. -/
def namesLoaded (message : String) : Bool :=
  (splitOnce "loaded model is".toList message.toList).isSome

def ping (expectedModel : String) : ChatCompletionRequest :=
  (chatPayload "ping" expectedModel (.short 0 7) 1).request

section Server
variable {E : Type}

def exitOf (job : Job E) (es : List CompleteInput) :
    Option (Except PyError ChatCompletionResponse) :=
  match run (completeStep job) .created es with
  | some (.finished exit, _) => some exit
  | _ => none

def render (r : JsonResponse) : Exchange :=
  .reply r.head.status (encode (dumps plainEscape r.content))

/-- The answer to an exception of the route. One without a handler is an internal error;
one that is no `Exception` closes the connection, which `urlopen` raises. -/
def raised (e : PyError) : Except PyError Exchange :=
  if e.isException then
    match handlerFor e with
    | some response => .ok (render response)
    | none => .ok (.reply 500 (encode "Internal Server Error".toList))
  else .error (.other "RemoteDisconnected")

/-- The answer to a call that is left so; the client's timeout breaks off one that runs. -/
def respond (serialize : ChatCompletionResponse → List UInt8) :
    Option (Except PyError ChatCompletionResponse) → Except PyError Exchange
  | some (.ok response) => .ok (.reply 200 (serialize response))
  | some (.error e) => raised e
  | none => .error .timeoutError

/-- The state of the server at a poll. Where it is up its registry has the expected
model; where it serves that, admission and the engine answer the ping by `es`. -/
inductive Server (E : Type) (expectedModel : String) where
  | unreachable (reason : String)
  | other (job : Job E) (asked : job.request.val = ping expectedModel)
      (registered : job.service.router.registry.contains expectedModel = true)
      (absent : job.service.pool.get expectedModel = none)
  | served (job : Job E) (asked : job.request.val = ping expectedModel)
      (registered : job.service.router.registry.contains expectedModel = true)
      (present : job.service.pool.get expectedModel ≠ none) (es : List CompleteInput)

namespace Server
variable {expectedModel : String}

def healthCheck : Server E expectedModel → Bool
  | .unreachable _ => false
  | _ => true

def exchange (serialize : ChatCompletionResponse → List UInt8) :
    Server E expectedModel → Except PyError Exchange
  | .unreachable reason => .ok (.refused reason)
  | .other job _ _ _ => respond serialize (exitOf job [.start])
  | .served job _ _ _ es => respond serialize (exitOf job es)

def isServed : Server E expectedModel → Bool
  | .served .. => true
  | _ => false

def isOther : Server E expectedModel → Bool
  | .other .. => true
  | _ => false

def Completes : Server E expectedModel → Prop
  | .served _ _ _ _ es => ∃ result response, es = [.start, .admitted result, .generated response]
  | _ => True

end Server
end Server

/-- A call of `wait_for_loaded_model`: the clock when it starts and at the top of each
pass, and the server as each pass finds it. The clock passes every deadline, and what
the framework sends of a response is JSON text. -/
structure Wait (E : Type) where
  baseUrl : String
  expectedModel : String
  timeout : ℚ
  started : ℚ
  clock : ℕ → ℚ
  observed : ℕ → Server E expectedModel
  serialize : ChatCompletionResponse → List UInt8
  passes : ∃ n, started+timeout ≤ clock n
  readable : ∀ response, ∃ completion, loadsBytes (serialize response) = some completion

namespace Wait
variable {E : Type} (w : Wait E)

def deadline : ℚ := w.started+w.timeout

/-- One pass behind the deadline check; without a result the loop sleeps and goes on. -/
def pass (server : Server E w.expectedModel) : Option (Except PyError Bool) :=
  if server.healthCheck = false then none
  else
    match server.exchange w.serialize >>= chatCompletion w.baseUrl with
    | .ok _ => some (.ok true)
    | .error (.runtimeError message) =>
      if namesLoaded message then none else some (.error (.runtimeError message))
    | .error e => some (.error e)

def stop (i : ℕ) : Option (Except PyError Bool) :=
  if w.clock i < w.deadline then w.pass (w.observed i) else some (.ok false)

def waitForLoadedModel (fuel : ℕ) : Option (Except PyError Bool) := poll w.stop fuel 0

def Returns (k : ℕ) (result : Except PyError Bool) : Prop :=
  ∀ fuel, w.waitForLoadedModel fuel = if k < fuel then some result else none

theorem returns_first (k : ℕ) (result : Except PyError Bool) (hfirst : ∀ j < k, w.stop j = none)
    (h : w.stop k = some result) : w.Returns k result := StopsAt.of_first hfirst h

theorem stops_of_returns {k : ℕ} {result : Except PyError Bool} (h : w.Returns k result) :
    (∀ j < k, w.stop j = none) ∧ w.stop k = some result := StopsAt.first h

def Led : List CompleteInput → CompletePc E → Prop
  | es, .created => es = []
  | es, .admitting _ _ => es = [.start]
  | es, .generating _ => ∃ result, es = [.start, .admitted result]
  | es, .finished (.ok _) =>
    ∃ result response, es = [.start, .admitted result, .generated response]
  | _, .finished (.error _) => True

theorem completeStep_led (job : Job E) (es : List CompleteInput) (pc pc' : CompletePc E)
    (e : CompleteInput) (os : List (Output E)) (h : Led es pc)
    (hstep : completeStep job pc e = some (pc', os)) : Led (es++[e]) pc' := by
  cases pc with
  | created =>
    obtain rfl : es = [] := h
    cases e with
    | start =>
      rw [completeStep] at hstep
      split at hstep
      · obtain ⟨rfl, -⟩ := step_inj hstep
        trivial
      · obtain ⟨rfl, -⟩ := step_inj hstep
        rfl
    | _ => cases hstep
  | admitting model engine =>
    obtain rfl : es = [.start] := h
    cases e with
    | admitted result =>
      obtain ⟨rfl, -⟩ := step_inj hstep
      exact ⟨result, rfl⟩
    | admitRaised e =>
      obtain ⟨rfl, -⟩ := step_inj hstep
      trivial
    | _ => cases hstep
  | generating a =>
    obtain ⟨result, rfl⟩ := h
    cases e with
    | generated response =>
      obtain ⟨rfl, -⟩ := step_inj hstep
      exact ⟨result, response, rfl⟩
    | generateRaised e =>
      obtain ⟨rfl, -⟩ := step_inj hstep
      trivial
    | _ => cases hstep
  | finished exit => cases e <;> cases hstep

/-- `complete` returns a response only to a result of admission and one of the engine. -/
theorem exitOf_ok (job : Job E) (es : List CompleteInput) (response : ChatCompletionResponse)
    (h : exitOf job es = some (.ok response)) :
    ∃ result response, es = [.start, .admitted result, .generated response] := by
  rw [exitOf] at h
  split at h
  · rename_i exit oss hrun
    obtain rfl := Option.some.inj h
    exact run_history (fun es _ pc => Led es pc)
      (fun es _ pc e pc' os hled hstep => completeStep_led job es pc pc' e os hled hstep)
      .created _ es oss rfl hrun
  · cases h

def rejected : String :=
  "HTTP 400 from server: " ++ String.ofList (dumps plainEscape valueErrorHandler.content)

section Up
variable (job : Job E) (asked : job.request.val = ping w.expectedModel)
  (registered : job.service.router.registry.contains w.expectedModel = true)

include asked registered in
theorem select_expected : job.service.router.select job.request.val = w.expectedModel := by
  rw [asked]
  exact (select_same_iff _ _).mpr registered

theorem pass_other (absent : job.service.pool.get w.expectedModel = none) :
    w.pass (.other job asked registered absent) = some (.error (.runtimeError rejected)) := by
  have hresolve : job.service.resolveEngine job.request.val =
      .error (notLoaded w.expectedModel job.service.pool.loadedModels) := by
    rw [ChatService.resolveEngine, w.select_expected job asked registered, absent]
  have hexit : exitOf job [.start] =
      some (.error (notLoaded w.expectedModel job.service.pool.loadedModels)) := by
    simp [exitOf, run, completeStep, hresolve]
  have hanswer : respond w.serialize (exitOf job [.start]) =
      .ok (.reply 400 (encode (dumps plainEscape valueErrorHandler.content))) := by
    rw [hexit]
    rfl
  -- The handler's text does not name the loaded model.
  have hwords : namesLoaded rejected = false := by decide +kernel
  have hcall : (respond w.serialize (exitOf job [.start]) >>= chatCompletion w.baseUrl) =
      .error (.runtimeError rejected) := by
    rw [hanswer]
    change chatCompletion w.baseUrl (.reply 400 _) = _
    rw [chatCompletion, if_neg (by omega), decodeReplace_encode]
    rfl
  simp [pass, Server.healthCheck, Server.exchange, hcall, hwords]

variable (present : job.service.pool.get w.expectedModel ≠ none)

theorem pass_completes (result : AdmissionResult) (response : ChatCompletionResponse) :
    w.pass (.served job asked registered present [.start, .admitted result, .generated response]) =
      some (.ok true) := by
  obtain ⟨engine, hengine⟩ := Option.ne_none_iff_exists'.mp present
  have hresolve : job.service.resolveEngine job.request.val = .ok (w.expectedModel, engine) := by
    rw [ChatService.resolveEngine, w.select_expected job asked registered, hengine]
  have hexit : ∃ attached, exitOf job [.start, .admitted result, .generated response] =
      some (.ok attached) := by
    simp [exitOf, run, completeStep, hresolve]
  obtain ⟨attached, hexit⟩ := hexit
  obtain ⟨completion, hread⟩ := w.readable attached
  simp [pass, Server.healthCheck, Server.exchange, hexit, respond, bind, Except.bind,
    chatCompletion, hread]

end Up

/-- A server that does not serve another model, and lets a ping complete where it
serves the expected one, ends the wait at that model or leaves it running. -/
theorem pass_met (server : Server E w.expectedModel) (hother : server.isOther = false)
    (hc : server.Completes) :
    w.pass server = if server.isServed = true then some (.ok true) else none := by
  cases server with
  | unreachable reason => rfl
  | other job asked registered absent => cases hother
  | served job asked registered present es =>
    obtain ⟨result, response, rfl⟩ := hc
    exact w.pass_completes job asked registered present result response

theorem handlerFor_status (e : PyError) (r : JsonResponse) (h : handlerFor e = some r) :
    400 ≤ r.head.status := by
  rw [handlerFor.eq_def] at h
  split at h
  · obtain rfl := Option.some.inj h
    simp [engineSaturatedErrorHandler]
  · obtain rfl := Option.some.inj h
    simp [runtimeErrorHandler]
  · obtain rfl := Option.some.inj h
    simp [runtimeErrorHandler]
  · split_ifs at h
    obtain rfl := Option.some.inj h
    simp [valueErrorHandler]

theorem raised_error (e : PyError) : ∃ e', raised e >>= chatCompletion w.baseUrl = .error e' := by
  rw [raised]
  split_ifs
  · cases he : handlerFor e with
    | none => exact ⟨_, rfl⟩
    | some response =>
      have hstatus := handlerFor_status e response he
      have hfailed : ¬ (200 ≤ response.head.status ∧ response.head.status < 300) := by omega
      exact ⟨_, if_neg hfailed⟩
  · exact ⟨_, rfl⟩

theorem pass_error (server : Server E w.expectedModel) (e : PyError)
    (h : server.exchange w.serialize >>= chatCompletion w.baseUrl = .error e) :
    w.pass server ≠ some (.ok true) := by
  rw [pass, h]
  by_cases hdown : server.healthCheck = false
  · simp [hdown]
  · cases e with
    | runtimeError message => by_cases hwords : namesLoaded message = true <;> simp [hdown, hwords]
    | _ => simp [hdown]

/-- The wait ends well only at the expected model, with a ping that completes. -/
theorem pass_true (server : Server E w.expectedModel) (h : w.pass server = some (.ok true)) :
    server.isOther = false ∧ server.Completes := by
  cases server with
  | unreachable reason => exact ⟨rfl, trivial⟩
  | other job asked registered absent =>
    rw [pass_other] at h
    cases h
  | served job asked registered present es =>
    refine ⟨rfl, ?_⟩
    cases hexit : exitOf job es with
    | none =>
      refine absurd h (w.pass_error _ .timeoutError ?_)
      rw [Server.exchange, hexit]
      rfl
    | some exit =>
      cases exit with
      | ok response => exact exitOf_ok job es response hexit
      | error e =>
        obtain ⟨e', he'⟩ := w.raised_error e
        refine absurd h (w.pass_error _ e' ?_)
        rw [Server.exchange, hexit, respond, he']

def FoundAt (k : ℕ) : Prop :=
  (∀ j ≤ k, w.clock j < w.deadline) ∧ (w.observed k).isServed = true ∧
    ∀ j < k, (w.observed j).isServed = false

def ExpiredAt (k : ℕ) : Prop :=
  w.deadline ≤ w.clock k ∧ ∀ j < k, w.clock j < w.deadline ∧ (w.observed j).isServed = false

/-- The wait returns `True` at the first pass that finds the expected model,
and `False` at the deadline where none does. -/
def WaitsOut : Prop :=
  ∃ k, (w.FoundAt k ∧ w.Returns k (.ok true)) ∨ (w.ExpiredAt k ∧ w.Returns k (.ok false))

/-- No pass before the deadline meets another model ahead of the expected one, and
the ping of the first pass that meets the expected one completes. -/
def Spared : Prop :=
  ∀ k, (∀ j ≤ k, w.clock j < w.deadline) → (∀ j < k, (w.observed j).isServed = false) →
    (w.observed k).isOther = false ∧ (w.observed k).Completes

theorem stop_expired (k : ℕ) (h : w.deadline ≤ w.clock k) : w.stop k = some (.ok false) :=
  if_neg (not_lt.mpr h)

theorem stop_running (k : ℕ) (h : w.clock k < w.deadline) : w.stop k = w.pass (w.observed k) :=
  if_pos h

theorem running_of_none (j : ℕ) (h : w.stop j = none) : w.clock j < w.deadline := by
  by_contra hexpired
  rw [w.stop_expired j (not_lt.mp hexpired)] at h
  cases h

theorem waitsOut_of_spared (h : w.Spared) : w.WaitsOut := by
  obtain ⟨n, hn⟩ := w.passes
  have hstops : w.stop n ≠ none := by
    rw [w.stop_expired n hn]
    exact Option.some_ne_none _
  obtain ⟨k, r, hr, hfirst⟩ := exists_first n hstops
  have hclocks : ∀ j < k, w.clock j < w.deadline := fun j hj => w.running_of_none j (hfirst j hj)
  have hmissed : ∀ j < k, (w.observed j).isServed = false := by
    intro j
    induction j using Nat.strong_induction_on with
    | h j ih =>
      intro hj
      obtain ⟨hother, hcompletes⟩ := h j (fun i hi => hclocks i (lt_of_le_of_lt hi hj))
        fun i hi => ih i hi (hi.trans hj)
      have hnone := hfirst j hj
      rw [w.stop_running j (hclocks j hj), w.pass_met _ hother hcompletes] at hnone
      simpa using hnone
  have hat := w.returns_first k r hfirst hr
  by_cases hclock : w.clock k < w.deadline
  · have hrunning : ∀ j ≤ k, w.clock j < w.deadline := by
      intro j hj
      rcases hj.eq_or_lt with rfl | hlt
      · exact hclock
      · exact hclocks j hlt
    obtain ⟨hother, hcompletes⟩ := h k hrunning hmissed
    rw [w.stop_running k hclock, w.pass_met _ hother hcompletes] at hr
    split_ifs at hr with hserved
    obtain rfl := Option.some.inj hr
    exact ⟨k, Or.inl ⟨⟨hrunning, hserved, hmissed⟩, hat⟩⟩
  · rw [w.stop_expired k (not_lt.mp hclock)] at hr
    obtain rfl := Option.some.inj hr
    exact ⟨k, Or.inr ⟨⟨not_lt.mp hclock, fun j hj => ⟨hclocks j hj, hmissed j hj⟩⟩, hat⟩⟩

/-- A pass that the loop goes on behind, and that does not meet the expected model,
meets no other either. -/
theorem of_stop_none (j : ℕ) (h : w.stop j = none) (hserved : (w.observed j).isServed = false) :
    (w.observed j).isOther = false ∧ (w.observed j).Completes := by
  rw [w.stop_running j (w.running_of_none j h)] at h
  cases hs : w.observed j with
  | unreachable reason => exact ⟨rfl, trivial⟩
  | other job asked registered absent =>
    rw [hs, pass_other] at h
    cases h
  | served job asked registered present es =>
    rw [hs] at hserved
    cases hserved

theorem spared_of_waitsOut (h : w.WaitsOut) : w.Spared := by
  intro l hrunning hmissed
  rcases h with ⟨k, ⟨⟨-, hserved, hbefore⟩, hat⟩ | ⟨⟨hexpired, hbefore⟩, hat⟩⟩
  · obtain ⟨hnone, hstop⟩ := w.stops_of_returns hat
    rcases lt_trichotomy l k with hlt | rfl | hgt
    · exact w.of_stop_none l (hnone l hlt) (hbefore l hlt)
    · rw [w.stop_running l (hrunning l (le_refl l))] at hstop
      exact w.pass_true _ hstop
    · rw [hmissed k hgt] at hserved
      cases hserved
  · obtain ⟨hnone, -⟩ := w.stops_of_returns hat
    have hlt : l < k := by
      by_contra hkl
      exact absurd hexpired (not_le.mpr (hrunning k (not_lt.mp hkl)))
    exact w.of_stop_none l (hnone l hlt) (hbefore l hlt).2

/-- The wait is over at the first pass with the expected model, or at the
deadline, exactly where it meets no other model before and that model answers. -/
theorem waitsOut_iff : w.WaitsOut ↔ w.Spared := ⟨w.spared_of_waitsOut, w.waitsOut_of_spared⟩

end Wait

def otherModel : ValidEntry := ⟨{ plainEntry with name := "b" }, by decide⟩

def busyService (engine : BaseEngine) : ChatService BaseEngine where
  pool := ⟨[("m", engine)], List.cons_ne_nil _ _, by simp⟩
  router := ⟨.ofModels [uncapped, otherModel], "m", by decide⟩
  admission := smallController

def busyJob (engine : BaseEngine) : Job BaseEngine :=
  { smallJob engine ⟨ping "b", by decide +kernel⟩ with service := busyService engine }

def restartedJob (engine : BaseEngine) : Job BaseEngine :=
  { busyJob engine with service :=
      { busyService engine with pool := ⟨[("b", engine)], List.cons_ne_nil _ _, by simp⟩ } }

def completion (r : ChatCompletionResponse) : Json :=
  .obj [("object", .str "chat.completion"), ("model", .str r.model),
    ("choices", .arr (r.choices.map fun c => .obj [("index", .int c.index),
      ("message", .obj [("role", .str "assistant"), ("content", .str c.content)]),
      ("finish_reason", .str c.finishReason.text)])),
    ("usage", ChatCompletionUsage.dump r.usage),
    ("warnings", .arr (r.warnings.map ResponseWarning.dump))]

theorem completion_reads (r : ChatCompletionResponse) :
    loadsBytes (encode (dumps plainEscape (completion r))) = some (completion r) := by
  obtain ⟨rest, hrest⟩ : ∃ rest, dumps plainEscape (completion r) = '{':: '"'::rest := by
    rw [completion]
    exact ⟨_, rfl⟩
  have hread : loads (dumps plainEscape (completion r)) = some (completion r) := by
    rw [← print_compact plainEscape 0]
    exact loads_print compact plainEscaping 0 _
  rw [hrest] at hread ⊢
  rw [loadsBytes_object, hread]

def waitFor (observed : ℕ → Server BaseEngine "b") : Wait BaseEngine where
  baseUrl := "http://localhost:8000"
  expectedModel := "b"
  timeout := 600
  started := 0
  clock := fun n => 300*n
  observed := observed
  serialize := fun r => encode (dumps plainEscape (completion r))
  passes := ⟨2, by norm_num⟩
  readable := fun r => ⟨_, completion_reads r⟩

def earlyWait : Wait BaseEngine :=
  waitFor fun _ => .other (busyJob (countingEngine 10 none)) rfl (by decide) (by decide)

/-- The model that is still loaded ends the wait in an error. -/
theorem early_wait_raises : ¬ earlyWait.WaitsOut := by
  have hclock : earlyWait.clock 0 < earlyWait.deadline := by
    norm_num [earlyWait, waitFor, Wait.deadline]
  rintro ⟨k, ⟨⟨-, hserved, -⟩, -⟩ | ⟨-, hat⟩⟩
  · cases hserved
  · obtain ⟨hnone, hstop⟩ := earlyWait.stops_of_returns hat
    have hfirst : earlyWait.stop 0 = some (.error (.runtimeError Wait.rejected)) := by
      rw [earlyWait.stop_running 0 hclock]
      exact earlyWait.pass_other _ _ _ _
    rcases Nat.eq_zero_or_pos k with rfl | hpos
    · rw [hfirst] at hstop
      cases hstop
    · rw [hnone 0 hpos] at hfirst
      cases hfirst

/-- From the moment the first process is gone; the second one is up at the next look. -/
def restartedWait : Wait BaseEngine :=
  waitFor fun
    | 0 => .unreachable "Connection refused"
    | _+1 => .served (restartedJob (countingEngine 10 none)) rfl (by decide) (by decide)
        [.start, .admitted ⟨1, 11, []⟩,
          .generated ⟨"b", [⟨0, "p", .length⟩], ⟨10, 1, 11⟩, none, none, []⟩]

/-- A wait that meets no other model is over when the expected one answers. -/
theorem restarted_wait_found : restartedWait.WaitsOut := by
  refine restartedWait.waitsOut_iff.mpr fun k _ _ => ?_
  cases k with
  | zero => exact ⟨rfl, trivial⟩
  | succ k => exact ⟨rfl, ⟨_, _, rfl⟩⟩

end InferenceX.CompareWait
