import InferenceX.CompareWait
import InferenceX.DefaultRoute
import InferenceX.Library.JsonRoundTrip
import InferenceX.SuiteIdentity

/-!
# What a server tells of its health

The health route sends the names of its pool as a JSON body, under a status
that says whether every engine is well. Five readers probe it, each in its own
way: they read other members, ask for other types and catch other exceptions.
On a server behind its startup they all see the same.
-/

set_option autoImplicit false

namespace InferenceX.HealthProbe
open Library.JsonText Library.Utf8Text
open InferenceX.PythonValues InferenceX.ChatSchema InferenceX.ModelRegistry InferenceX.JsonAccess
open InferenceX.AdmissionGates InferenceX.ChatDispatch InferenceX.ChatRoute InferenceX.CompareWait
open InferenceX.VllmPoolConfig InferenceX.Startup InferenceX.DefaultRoute InferenceX.SuiteIdentity

/-- A server process behind its startup; `healthy` is what its engines tell now. -/
structure Running (E : Type) where
  hub : Hub
  runtime : Runtime E
  registry : Registry
  settings : Settings
  forRouter : Reading
  forPool : Reading
  again : Probe
  router : TaskRouter
  pool : EnginePool E
  started : initializeApp hub runtime registry settings forRouter forPool again =
    .ok (router, pool)
  healthy : E → Bool

section Route
variable {E : Type} (s : Running E)

def Running.allHealthy : Bool := s.pool.engines.all fun e => s.healthy e.2

def Running.service (admission : AdmissionController) : ChatService E :=
  ⟨s.pool, s.router, admission⟩

def Running.health : JsonResponse :=
  ⟨⟨if s.allHealthy then 200 else 503, []⟩,
    .obj [("status", .str (if s.allHealthy then "healthy" else "degraded")),
      ("engine", .str (if s.allHealthy then "ok" else "unavailable")),
      ("loaded_models", .arr (s.pool.loadedModels.map .str))]⟩

end Route

/-- `response.json()`. -/
def parseBody (body : List UInt8) : Except PyError Json :=
  match loadsBytes body with
  | some value => .ok value
  | none => .error .jsonDecodeError

def fetchLoadedModels : Exchange → Except PyError (List String)
  | .refused _ => .ok []
  | .reply status body =>
    if status = 200 then do
      let loaded ← dictGet (← parseBody body) "loaded_models" .null
      match loaded with
      | .arr items => .ok (items.map pyStr)
      | _ => .ok []
    else .ok []

def isText (text : String) : Json → Bool
  | .str s => s = text
  | _ => false

/-- `text in value`. -/
def contains (text : String) : Json → Except PyError Bool
  | .arr items => .ok (items.any (isText text))
  | .str s => .ok (occurs text.toList s.toList)
  | .obj members => .ok (member text members).isSome
  | _ => .error .typeError

/-- `resp.json().get("loaded_models") or []`. -/
def readLoaded (body : List UInt8) : Except PyError Json := do
  let loaded ← dictGet (← parseBody body) "loaded_models" .null
  return if truthy loaded then loaded else .arr []

def listsModel (model : String) : Exchange → Except PyError Bool
  | .refused _ => .ok false
  | .reply status body => if status = 200 then readLoaded body >>= contains model else .ok false

def answersOk : Exchange → Bool
  | .refused _ => false
  | .reply status _ => status = 200

def fetchHealth : Exchange → Except PyError Bool
  | .refused _ => .ok false
  | .reply status body =>
    if status = 200 then
      match parseBody body >>= fun payload => dictGet payload "status" .null with
      | .ok value => .ok (isText "healthy" value)
      | .error e => if e.isValueError then .ok false else .error e
    else .ok false

/-- `_check_model_loaded` of the benchmark script; `raise_for_status` wants a 2xx. -/
def checkModelLoaded (model : String) : Exchange → Except PyError (Bool × Json)
  | .refused _ => .ok (false, .arr [])
  | .reply status body =>
    if 200 ≤ status ∧ status < 300 then do
      let loaded ← readLoaded body
      return (← contains model loaded, loaded)
    else .ok (false, .arr [])

section Readings
variable {E : Type} (s : Running E)

/-- A startup that went through left one model, which its registry has. -/
theorem one_model : ∃ loaded engine, s.pool = onePool loaded engine ∧
    s.registry.contains loaded = true ∧ s.router.registry = s.registry := by
  obtain ⟨router, hrouter, h⟩ := bind_ok s.started
  obtain ⟨pool, hpool, h⟩ := bind_ok h
  split_ifs at h
  obtain ⟨hr, hp⟩ := Prod.mk.inj (Except.ok.inj h)
  subst hr hp
  obtain ⟨default, hd, hrouter, -⟩ := buildRouter_ok s.hub s.registry _ _ _ hrouter
  obtain ⟨resolved, -, hpool⟩ := bind_ok hpool
  split at hpool
  · cases hpool
  · rename_i loaded _
    obtain ⟨entry, hentry, hpool⟩ := bind_ok hpool
    obtain ⟨engine, -, hpool⟩ := map_ok hpool
    refine ⟨loaded, engine, hpool.symm, ?_, by rw [hrouter]⟩
    cases hreg : s.registry.contains loaded with
    | true => rfl
    | false =>
      rw [registryGet_error s.registry loaded hreg] at hentry
      cases hentry
  · cases hpool

theorem body_reads : parseBody (encode (dumps plainEscape s.health.content)) =
    .ok s.health.content := by
  obtain ⟨rest, hrest⟩ : ∃ rest, dumps plainEscape s.health.content = '{':: '"'::rest := by
    rw [Running.health]
    exact ⟨_, rfl⟩
  have hread : loads (dumps plainEscape s.health.content) = some s.health.content := by
    rw [← print_compact plainEscape 0]
    exact loads_print compact plainEscaping 0 _
  rw [hrest] at hread ⊢
  rw [parseBody, loadsBytes_object, hread]

theorem status_ok : s.health.head.status = 200 ↔ s.allHealthy = true := by
  rw [Running.health]
  cases s.allHealthy <;> simp

theorem any_isText (model : String) (names : List String) :
    (names.map Json.str).any (isText model) = decide (model ∈ names) := by
  induction names with
  | nil => rfl
  | cons name names ih =>
    simp only [List.map_cons, List.any_cons, ih, isText, List.mem_cons, Bool.decide_or]
    rw [decide_eq_decide.mpr eq_comm]

theorem readLoaded_health : readLoaded (encode (dumps plainEscape s.health.content)) =
    .ok (.arr (s.pool.loadedModels.map .str)) := by
  obtain ⟨loaded, engine, hpool, -⟩ := one_model s
  have htruthy : truthy (.arr (s.pool.loadedModels.map .str)) = true := by
    rw [hpool]
    rfl
  rw [readLoaded, body_reads]
  exact congrArg Except.ok (if_pos htruthy)

/-- Every reader sees the pool of a healthy server, and nothing of another. -/
theorem readers_agree (model : String) :
    answersOk (render s.health) = s.allHealthy ∧
    fetchHealth (render s.health) = .ok s.allHealthy ∧
    fetchLoadedModels (render s.health) =
      .ok (if s.allHealthy then s.pool.loadedModels else []) ∧
    listsModel model (render s.health) =
      .ok (s.allHealthy && decide (model ∈ s.pool.loadedModels)) ∧
    (checkModelLoaded model (render s.health)).map Prod.fst =
      .ok (s.allHealthy && decide (model ∈ s.pool.loadedModels)) := by
  have hlisted : readLoaded (encode (dumps plainEscape s.health.content)) >>= contains model =
      .ok (decide (model ∈ s.pool.loadedModels)) := by
    rw [readLoaded_health]
    exact congrArg Except.ok (any_isText model _)
  cases hall : s.allHealthy with
  | false =>
    have hstatus : s.health.head.status = 503 := by
      rw [Running.health, hall]
      rfl
    simp [render, hstatus, answersOk, fetchHealth, fetchLoadedModels, listsModel,
      checkModelLoaded, Except.map]
  | true =>
    have hstatus : s.health.head.status = 200 := (status_ok s).mpr hall
    refine ⟨?_, ?_, ?_, ?_, ?_⟩
    · simp [render, hstatus, answersOk]
    · rw [render, fetchHealth, if_pos hstatus, body_reads, Running.health, hall]
      rfl
    · rw [render, fetchLoadedModels, if_pos hstatus, body_reads, if_pos rfl]
      have hstr : ∀ names : List String, (names.map Json.str).map pyStr = names := by
        intro names
        rw [List.map_map]
        exact List.map_id names
      exact congrArg Except.ok (hstr _)
    · rw [render, listsModel, if_pos hstatus, hlisted]
      rfl
    · rw [render, checkModelLoaded, if_pos (by rw [hstatus]; decide), readLoaded_health]
      exact congrArg Except.ok (any_isText model _)

/-- A listed model is registered, and a request for it reaches a healthy engine. -/
theorem listed_resolves (model : String) (hall : s.allHealthy = true)
    (hm : model ∈ s.pool.loadedModels) : s.registry.contains model = true ∧
      ∃ engine, s.healthy engine = true ∧ ∀ admission (r : ChatCompletionRequest),
        r.model = model → (s.service admission).resolveEngine r = .ok (model, engine) := by
  obtain ⟨loaded, engine, hpool, hreg, hrouter⟩ := one_model s
  rw [hpool] at hm
  obtain rfl : model = loaded := List.mem_singleton.mp hm
  rw [Running.allHealthy, hpool] at hall
  refine ⟨hreg, engine, by simpa [onePool] using hall, fun admission r hr => ?_⟩
  have hselect : s.router.select r = model := by
    rw [← hr]
    exact (select_same_iff s.router r).mpr (by rw [hrouter, hr, hreg])
  simp [ChatService.resolveEngine, Running.service, hselect, hpool, onePool_get]

end Readings

end InferenceX.HealthProbe
