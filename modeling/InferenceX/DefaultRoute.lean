import InferenceX.Startup

/-!
# Whether the default route is served

After startup the router falls back to the model that the default setting
stands for, and the pool holds the one that the loaded names stand for. An
unknown model name is served exactly where the two are one.
-/

set_option autoImplicit false

namespace InferenceX.DefaultRoute
open InferenceX.PythonValues InferenceX.ChatSchema InferenceX.ModelRegistry
open InferenceX.AdmissionGates InferenceX.ChatDispatch
open InferenceX.VllmPoolConfig InferenceX.VariantSelector InferenceX.Startup

/-- A registered name stands for itself, another for the variant of its family
that fits the memory, where the tier is known. -/
def StandsFor (hub : Hub) (registry : Registry) (tier : Option VramTier) (available : ℚ)
    (name model : String) : Prop :=
  (registry.contains name = true ∧ model = name) ∨
    (registry.contains name = false ∧
      ∃ t ∈ tier, selectVariant hub name registry t available = .ok model)

section Names
variable (hub : Hub) (registry : Registry) (tier : Option VramTier) (available : ℚ)

theorem standsFor_unique (name m n : String) (hm : StandsFor hub registry tier available name m)
    (hn : StandsFor hub registry tier available name n) : m = n := by
  rcases hm with ⟨hr, rfl⟩ | ⟨hr, t, ht, hm⟩ <;> rcases hn with ⟨hr', rfl⟩ | ⟨hr', t', ht', hn⟩
  · rfl
  · simp [hr] at hr'
  · simp [hr] at hr'
  · obtain rfl : t = t' := Option.some.inj (ht.symm.trans ht')
    exact Except.ok.inj (hm.symm.trans hn)

theorem registryGet_error (name : String) (h : registry.contains name = false) :
    registryGet registry name = .error (notRegistered name registry) := by
  have hfind : registry.find name = none := by simpa [Registry.contains] using h
  rw [registryGet, hfind]

theorem selectVariant_empty (t : VramTier) (name : String)
    (h : (variants registry name).isEmpty = true) :
    selectVariant hub name registry t available = .error (noVariants name registry) := if_pos h

theorem resolveLoadedName_ok (name model : String) :
    resolveLoadedName hub registry tier available name = .ok model ↔
      StandsFor hub registry tier available name model := by
  cases hr : registry.contains name with
  | true => simp [resolveLoadedName, StandsFor, hr, eq_comm]
  | false =>
    have hget := registryGet_error registry name hr
    cases tier with
    | none => simp [resolveLoadedName, StandsFor, hr, hget, bind, Except.bind]
    | some t =>
      cases he : (variants registry name).isEmpty with
      | true =>
        have hnone := selectVariant_empty hub registry available t name he
        simp [resolveLoadedName, StandsFor, hr, he, hget, hnone, bind, Except.bind]
      | false => simp [resolveLoadedName, StandsFor, hr, he]

theorem buildRouter_ok (defaultModel : String) (reading : Reading) (router : TaskRouter)
    (h : buildRouter hub registry defaultModel reading = .ok router) :
    ∃ model, ∃ hm : registry.contains model = true, router = ⟨registry, model, hm⟩ ∧
      StandsFor hub registry reading.tier reading.routerVram defaultModel model := by
  obtain ⟨model, hmodel, h⟩ := bind_ok h
  rw [taskRouter] at h
  split_ifs at h with hm
  refine ⟨model, hm, (Except.ok.inj h).symm, ?_⟩
  have hself : model = defaultModel →
      StandsFor hub registry reading.tier reading.routerVram defaultModel model :=
    fun heq => Or.inl ⟨heq ▸ hm, heq⟩
  cases ht : reading.tier with
  | none =>
    rw [ht] at hmodel hself
    exact hself (Except.ok.inj hmodel).symm
  | some t =>
    rw [ht] at hmodel hself
    simp only [resolveDefaultModel] at hmodel
    split_ifs at hmodel with hc
    · exact hself (Except.ok.inj hmodel).symm
    · have hr : registry.contains defaultModel = false := by simpa using (not_or.mp hc).1
      exact Or.inr ⟨hr, t, rfl, hmodel⟩

end Names

section Started
variable {E : Type} (hub : Hub) (runtime : Runtime E) (registry : Registry)

/-- The pool holds the one model that every loaded name stands for. -/
theorem buildEnginePool_ok (loaded : List String) (reading : Reading) (again : Probe)
    (pool : EnginePool E)
    (h : buildEnginePool hub runtime registry loaded reading again = .ok pool) :
    ∃ model engine, pool = onePool model engine ∧ loaded ≠ [] ∧
      ∀ name ∈ loaded, StandsFor hub registry reading.tier reading.poolVram name model := by
  obtain ⟨resolved, hresolved, h⟩ := bind_ok h
  cases hd : resolved.eraseDups with
  | nil =>
    rw [hd] at h
    cases h
  | cons model rest =>
    cases rest with
    | cons next rest =>
      rw [hd] at h
      cases h
    | nil =>
      rw [hd] at h
      obtain ⟨entry, -, h⟩ := bind_ok h
      obtain ⟨engine, -, rfl⟩ := map_ok h
      refine ⟨model, engine, rfl, ?_, fun name hn => ?_⟩
      · rintro rfl
        obtain rfl : [] = resolved := Except.ok.inj hresolved
        cases hd
      · have hmem := List.mem_map_of_mem (f := resolveLoadedName hub registry reading.tier
          reading.poolVram) hn
        rw [mapM_ok _ _ _ hresolved] at hmem
        obtain ⟨n, hn, hok⟩ := List.mem_map.mp hmem
        obtain rfl : n = model := by simpa [hd] using List.mem_eraseDups.mpr hn
        exact (resolveLoadedName_ok hub registry _ _ name n).mp hok.symm

theorem initializeApp_ok (settings : Settings) (forRouter forPool : Reading) (again : Probe)
    (router : TaskRouter) (pool : EnginePool E)
    (h : initializeApp hub runtime registry settings forRouter forPool again =
      .ok (router, pool)) :
    ∃ default loaded engine, ∃ hd : registry.contains default = true,
      router = ⟨registry, default, hd⟩ ∧ pool = onePool loaded engine ∧
      StandsFor hub registry forRouter.tier forRouter.routerVram settings.defaultModel default ∧
      settings.loadedModels ≠ [] ∧ ∀ name ∈ settings.loadedModels,
        StandsFor hub registry forPool.tier forPool.poolVram name loaded := by
  obtain ⟨router', hrouter, h⟩ := bind_ok h
  obtain ⟨pool', hpool, h⟩ := bind_ok h
  split_ifs at h
  obtain ⟨rfl, rfl⟩ := Prod.mk.inj (Except.ok.inj h)
  obtain ⟨default, hd, rfl, hdefault⟩ := buildRouter_ok hub registry _ _ _ hrouter
  obtain ⟨loaded, engine, rfl, hne, hloaded⟩ :=
    buildEnginePool_ok hub runtime registry _ _ _ _ hpool
  exact ⟨default, loaded, engine, hd, rfl, rfl, hdefault, hne, hloaded⟩

end Started

section Requests
variable {E : Type} (registry : Registry) (default loaded : String) (engine : E)
  (hd : registry.contains default = true) (admission : AdmissionController)

theorem select_unknown (r : ChatCompletionRequest) (h : registry.contains r.model = false) :
    (TaskRouter.mk registry ⟨default, hd⟩).select r = default := by
  have hnone : (TaskRouter.mk registry ⟨default, hd⟩).explicit.apply r = none := by
    simp [TaskRouter.explicit, ExplicitModelPolicy.apply, h]
  rw [TaskRouter.select, hnone]
  rfl

theorem onePool_get (name : String) :
    (onePool loaded engine).get name = if loaded = name then some engine else none := by
  by_cases h : loaded = name <;> simp [onePool, EnginePool.get, h]

/-- An unknown name is served exactly when the pool holds the default. -/
theorem resolve_unknown (r : ChatCompletionRequest) (h : registry.contains r.model = false) :
    (∃ e, (ChatService.mk (onePool loaded engine) ⟨registry, default, hd⟩ admission).resolveEngine
      r = .ok (default, e)) ↔ loaded = default := by
  rw [ChatService.resolveEngine, select_unknown registry default hd r h, onePool_get]
  by_cases hl : loaded = default <;> simp [hl]

theorem exists_unknown : ∃ r : ChatCompletionRequest, registry.contains r.model = false := by
  obtain ⟨name, hname⟩ := Infinite.exists_notMem_finset registry.names.toFinset
  refine ⟨{ helloRequest.val with model := name }, ?_⟩
  have hmem : name ∉ registry.names := by simpa using hname
  simpa [Registry.contains, Registry.find, Registry.names] using hmem

end Requests

/-- After startup the default route is served exactly where the default name
and the loaded names stand for one model. -/
theorem default_route_iff {E : Type} (hub : Hub) (runtime : Runtime E) (registry : Registry)
    (defaultModel loadedModels : Option String) (forRouter forPool : Reading) (again : Probe)
    (router : TaskRouter) (pool : EnginePool E) (admission : AdmissionController)
    (h : initializeApp hub runtime registry (appSettings defaultModel loadedModels) forRouter
      forPool again = .ok (router, pool)) :
    (∀ r : ChatCompletionRequest, registry.contains r.model = false →
      router.select r ∈ pool.loadedModels ∧
        ∃ engine, (ChatService.mk pool router admission).resolveEngine r =
          .ok (router.select r, engine)) ↔
      ∃ model, StandsFor hub registry forRouter.tier forRouter.routerVram
          (appSettings defaultModel loadedModels).defaultModel model ∧
        ∀ name ∈ (appSettings defaultModel loadedModels).loadedModels,
          StandsFor hub registry forPool.tier forPool.poolVram name model := by
  obtain ⟨default, loaded, engine, hd, rfl, rfl, hdefault, hne, hloaded⟩ :=
    initializeApp_ok hub runtime registry _ _ _ _ _ _ h
  constructor
  · intro hserved
    obtain ⟨r, hr⟩ := exists_unknown registry
    obtain ⟨-, e, he⟩ := hserved r hr
    rw [select_unknown registry default hd r hr] at he
    obtain rfl := (resolve_unknown registry default loaded engine hd admission r hr).mp ⟨e, he⟩
    exact ⟨loaded, hdefault, hloaded⟩
  · rintro ⟨model, hm, hnames⟩ r hr
    obtain rfl := standsFor_unique hub registry _ _ _ _ _ hdefault hm
    obtain ⟨name, hname⟩ := List.exists_mem_of_ne_nil _ hne
    obtain rfl := standsFor_unique hub registry _ _ _ _ _ (hloaded name hname) (hnames name hname)
    rw [select_unknown registry loaded hd r hr]
    exact ⟨List.mem_singleton_self _,
      (resolve_unknown registry loaded loaded engine hd admission r hr).mpr rfl⟩

def tinyEntry (name : String) : ModelEntry :=
  ⟨name, "/models/tiny-125m", none, some .auto, some 2048, none, none, none, true, none, none⟩

def twoModels : Registry := Registry.ofModels [⟨tinyEntry "a", rfl⟩, ⟨tinyEntry "b", rfl⟩]

def plainHub : Hub := ⟨fun _ => none, Library.CharClasses.ascii⟩

def plainRuntime : Runtime Unit := ⟨.ok (), fun _ => .ok (), fun _ => true⟩

def eightGib : Reading := ⟨none, some 7, some 8⟩

def startWith (loadedModels : Option String) : Except PyError (TaskRouter × EnginePool Unit) :=
  initializeApp plainHub plainRuntime twoModels (appSettings (some "a") loadedModels) eightGib
    eightGib eightGib.probe

theorem starts (loadedModels : Option String) (h : (startWith loadedModels).isOk = true) :
    ∃ router pool, startWith loadedModels = .ok (router, pool) := by
  cases hs : startWith loadedModels with
  | error e => simp [hs, Except.isOk, Except.toBool] at h
  | ok p => exact ⟨p.1, p.2, rfl⟩

theorem standsFor_self (name : String) (h : twoModels.contains name = true) :
    StandsFor plainHub twoModels none 7 name name := Or.inl ⟨h, rfl⟩

theorem default_route_unset : ∃ router pool, startWith none = .ok (router, pool) ∧
    ∀ r : ChatCompletionRequest, twoModels.contains r.model = false →
      router.select r ∈ pool.loadedModels := by
  obtain ⟨router, pool, hs⟩ := starts none (by decide +kernel)
  have hloaded : (appSettings (some "a") none).loadedModels = ["a"] := by decide +kernel
  have hserved := (default_route_iff plainHub plainRuntime twoModels (some "a") none eightGib
    eightGib eightGib.probe router pool smallController hs).mpr
      ⟨"a", standsFor_self "a" (by decide), by
        rw [hloaded]
        intro name hn
        obtain rfl := List.mem_singleton.mp hn
        exact standsFor_self "a" (by decide)⟩
  exact ⟨router, pool, hs, fun r hr => (hserved r hr).1⟩

/-- With the default model `a` and the loaded model `b` startup succeeds, and a
request for an unknown model is refused. -/
theorem default_route_unserved : ∃ router pool, startWith (some "b") = .ok (router, pool) ∧
    ∃ r : ChatCompletionRequest, twoModels.contains r.model = false ∧
      router.select r ∉ pool.loadedModels ∧
      (ChatService.mk pool router smallController).resolveEngine r =
        .error (notLoaded "a" ["b"]) := by
  obtain ⟨router, pool, hs⟩ := starts (some "b") (by decide +kernel)
  obtain ⟨default, loaded, engine, hd, rfl, rfl, hdefault, -, hloaded⟩ :=
    initializeApp_ok plainHub plainRuntime twoModels _ _ _ _ _ _ hs
  have hnames : (appSettings (some "a") (some "b")).loadedModels = ["b"] := by decide +kernel
  obtain rfl := standsFor_unique plainHub twoModels _ _ _ _ _ hdefault
    (standsFor_self "a" (by decide))
  obtain rfl := standsFor_unique plainHub twoModels _ _ _ _ _
    (hloaded "b" (by rw [hnames]; simp)) (standsFor_self "b" (by decide))
  obtain ⟨r, hr⟩ := exists_unknown twoModels
  have hselect := select_unknown twoModels "a" hd r hr
  refine ⟨_, _, hs, r, hr, ?_, ?_⟩
  · rw [hselect]
    exact fun h => absurd (List.mem_singleton.mp h) (show ¬ "a" = "b" by decide)
  · rw [ChatService.resolveEngine, hselect, onePool_get]
    rfl

end InferenceX.DefaultRoute
