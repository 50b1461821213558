import InferenceX.HealthProbe
import InferenceX.Library.DeadlinePoll
import InferenceX.ServerControl

/-!
# Waiting for the servers of a row

The launcher waits twice for each server, for its health route to answer and
for the model to be listed, both times in a loop with a deadline. What it makes
of the answers decides whether it gives out a mapping, and a model of that
mapping is one that its server serves.
-/

set_option autoImplicit false

namespace InferenceX.ServerWait
open Library.DeadlinePoll
open InferenceX.PythonValues InferenceX.ChatSchema InferenceX.ModelRegistry
open InferenceX.AdmissionGates InferenceX.ChatDispatch InferenceX.CompareWait
open InferenceX.Startup InferenceX.DefaultRoute InferenceX.HealthProbe InferenceX.ServerControl

section Waits
variable {E : Type} {timeout interval : ℚ}

def probe : Option (Running E) → Exchange
  | none => .refused "All connection attempts failed"
  | some s => render s.health

def passes (timeout interval : ℚ) : ℕ := ⌈timeout/interval⌉₊+1

def modelFound (model : String) (hosts : ℕ → Option (Running E)) (k : ℕ) :
    Option (Except PyError Bool) :=
  match listsModel model (probe (hosts k)) with
  | .ok true => some (.ok true)
  | .ok false => none
  | .error e => some (.error e)

def waitForModel (c : Clock timeout interval) (model : String)
    (hosts : ℕ → Option (Running E)) : Option (Except PyError Bool) :=
  c.loop (modelFound model hosts) (.ok false) (passes timeout interval)

/-- One round of `wait_for_health`; `failed` is `startup_failed_in_log`. -/
def healthFound (failed : ℕ → Bool) (hosts : ℕ → Option (Running E)) (k : ℕ) : Option Bool :=
  if answersOk (probe (hosts k)) then some true else if failed k then some false else none

def waitForHealth (c : Clock timeout interval) (failed : ℕ → Bool)
    (hosts : ℕ → Option (Running E)) : Option Bool :=
  c.loop (healthFound failed hosts) false (passes timeout interval)

def Up (host : Option (Running E)) : Prop := ∃ s ∈ host, s.allHealthy = true

def Serves (model : String) (host : Option (Running E)) : Prop :=
  ∃ s ∈ host, s.allHealthy = true ∧ model ∈ s.pool.loadedModels

theorem listsModel_probe (model : String) (host : Option (Running E)) :
    ∃ b, listsModel model (probe host) = .ok b ∧ (b = true ↔ Serves model host) := by
  cases host with
  | none => exact ⟨false, rfl, by simp [Serves]⟩
  | some s => exact ⟨_, (readers_agree s model).2.2.2.1, by simp [Serves]⟩

theorem fetched_probe (model : String) (host : Option (Running E)) :
    ∃ names, HealthProbe.fetchLoadedModels (probe host) = .ok names ∧
      (model ∈ names ↔ Serves model host) := by
  cases host with
  | none => exact ⟨[], rfl, by simp [Serves]⟩
  | some s =>
    refine ⟨_, (readers_agree s model).2.2.1, ?_⟩
    split_ifs with hall
    · simp [Serves, hall]
    · simp [Serves, hall]

theorem answersOk_probe (host : Option (Running E)) :
    answersOk (probe host) = true ↔ Up host := by
  cases host with
  | none => simp [Up, probe, answersOk]
  | some s =>
    rw [probe, (readers_agree s "").1]
    simp [Up]

theorem modelFound_some (model : String) (hosts : ℕ → Option (Running E)) (k : ℕ) :
    (modelFound model hosts k = some (.ok true) ↔ Serves model (hosts k)) ∧
      (modelFound model hosts k = none ↔ ¬ Serves model (hosts k)) := by
  obtain ⟨b, hb, hiff⟩ := listsModel_probe model (hosts k)
  rw [modelFound, hb, ← hiff]
  cases b <;> simp

theorem passes_enough (hi : 0 < interval) : timeout ≤ ⌈timeout/interval⌉₊*interval :=
  (div_le_iff₀ hi).mp (Nat.le_ceil _)

theorem exists_least (P Q : ℕ → Prop) (h : ∃ k, Q k ∧ P k) (hQ : ∀ j k, j ≤ k → Q k → Q j) :
    ∃ k, Q k ∧ P k ∧ ∀ j < k, ¬ P j := by
  classical
  obtain ⟨n, hq, hp⟩ := h
  have hex : ∃ k, P k := ⟨n, hp⟩
  exact ⟨Nat.find hex, hQ _ n (Nat.find_min' hex hp) hq, Nat.find_spec hex,
    fun j hj => Nat.find_min hex hj⟩

/-- The wait for a model always ends, and with success exactly where a pass
that it reaches finds the model listed. -/
theorem waitForModel_ends (c : Clock timeout interval) (hi : 0 < interval) (model : String)
    (hosts : ℕ → Option (Running E)) : ∃ b, waitForModel c model hosts = some (.ok b) ∧
      (b = true ↔ ∃ k, c.Reaches k ∧ Serves model (hosts k)) := by
  obtain ⟨r, hr, hcases⟩ := loop_returns c (modelFound model hosts) (.ok false) _ (passes_enough hi)
  have hiff := loop_iff c (modelFound model hosts) (.ok false) _ (passes_enough hi) (.ok true)
    (by simp)
  have hfirst : (∃ k, c.Reaches k ∧ Serves model (hosts k)) ↔ r = .ok true := by
    rw [← Option.some.injEq, ← hr, hiff]
    constructor
    · intro h
      obtain ⟨k, hk, hs, hbefore⟩ := exists_least _ _ h (reaches_earlier c)
      exact ⟨k, hk, (modelFound_some model hosts k).1.mpr hs,
        fun j hj => (modelFound_some model hosts j).2.mpr (hbefore j hj)⟩
    · rintro ⟨k, hk, hs, -⟩
      exact ⟨k, hk, (modelFound_some model hosts k).1.mp hs⟩
  have hok : ∃ b, r = .ok b := by
    rcases hcases with rfl | ⟨k, -, hk⟩
    · exact ⟨false, rfl⟩
    · obtain ⟨b, hb, -⟩ := listsModel_probe model (hosts k)
      rw [modelFound, hb] at hk
      cases b with
      | true => exact ⟨true, (Option.some.inj hk).symm⟩
      | false => cases hk
  obtain ⟨b, rfl⟩ := hok
  exact ⟨b, hr, by rw [hfirst, Except.ok.injEq]⟩

/-- So does the wait for the health route, unless the log tells of a failed
startup before. -/
theorem waitForHealth_ends (c : Clock timeout interval) (hi : 0 < interval) (failed : ℕ → Bool)
    (hosts : ℕ → Option (Running E)) : ∃ b, waitForHealth c failed hosts = some b ∧
      (b = true ↔ ∃ k, c.Reaches k ∧ Up (hosts k) ∧ ∀ j < k, failed j = false) := by
  obtain ⟨r, hr, -⟩ := loop_returns c (healthFound failed hosts) false _ (passes_enough hi)
  have hiff := loop_iff c (healthFound failed hosts) false _ (passes_enough hi) true (by simp)
  have hsome : ∀ k, healthFound failed hosts k = some true ↔ Up (hosts k) := by
    intro k
    rw [healthFound, ← answersOk_probe]
    split_ifs with h hf
    · simp [h]
    · simp [h]
    · simp [h]
  have hnone : ∀ k, healthFound failed hosts k = none ↔ ¬ Up (hosts k) ∧ failed k = false := by
    intro k
    rw [healthFound, ← answersOk_probe]
    split_ifs with h hf
    · simp [h]
    · simp [h, hf]
    · simp [h, hf]
  refine ⟨r, hr, ?_⟩
  rw [← Option.some.injEq r true, ← hr]
  rw [hiff]
  constructor
  · rintro ⟨k, hk, hs, hbefore⟩
    exact ⟨k, hk, (hsome k).mp hs, fun j hj => ((hnone j).mp (hbefore j hj)).2⟩
  · rintro ⟨n, hn, hup, hlog⟩
    obtain ⟨k, ⟨hk, hkn⟩, hs, hbefore⟩ := exists_least (fun k => Up (hosts k))
      (fun k => c.Reaches k ∧ k ≤ n) ⟨n, ⟨hn, le_rfl⟩, hup⟩
      fun j k hjk hk => ⟨reaches_earlier c j k hjk hk.1, hjk.trans hk.2⟩
    exact ⟨k, hk, (hsome k).mpr hs, fun j hj =>
      (hnone j).mpr ⟨hbefore j hj, hlog j (lt_of_lt_of_le hj hkn)⟩⟩

end Waits

/-- What the calls of one `ensure_models_loaded` meet: the server at each URL
when the launcher first looks, in each round of its two waits, and what the log
tells by then. -/
structure Network (E : Type) where
  now : String → Option (Running E)
  healthClock : String → Clock 120 2
  healthHosts : String → ℕ → Option (Running E)
  startupFailed : String → ℕ → Bool
  modelClock : String → String → Clock 600 2
  modelHosts : String → String → ℕ → Option (Running E)
  errorSummary : String → String

section Launcher
variable {E : Type} (net : Network E)

def Network.environment : Environment where
  loadedModels url := (HealthProbe.fetchLoadedModels (probe (net.now url))).toOption.getD []
  healthy url :=
    waitForHealth (net.healthClock url) (net.startupFailed url) (net.healthHosts url) = some true
  modelReady url model :=
    waitForModel (net.modelClock url model) model (net.modelHosts url model) = some (.ok true)
  errorSummary := net.errorSummary

def Network.Loaded (t : Target) : Prop := Serves t.model (net.now t.url)

/-- It comes up in time, before the log tells of a failed startup. -/
def Network.ComesUp (t : Target) : Prop :=
  ∃ k, (net.healthClock t.url).Reaches k ∧ Up (net.healthHosts t.url k) ∧
    ∀ j < k, net.startupFailed t.url j = false

def Network.Lists (t : Target) : Prop :=
  ∃ k, (net.modelClock t.url t.model).Reaches k ∧ Serves t.model (net.modelHosts t.url t.model k)

theorem loaded_iff (t : Target) :
    t.model ∈ net.environment.loadedModels t.url ↔ net.Loaded t := by
  obtain ⟨names, hnames, hiff⟩ := fetched_probe t.model (net.now t.url)
  rw [Network.Loaded, ← hiff, Network.environment]
  simp [hnames, Except.toOption]

theorem healthy_iff (t : Target) : net.environment.healthy t.url = true ↔ net.ComesUp t := by
  obtain ⟨b, hb, hiff⟩ := waitForHealth_ends (net.healthClock t.url) (by norm_num)
    (net.startupFailed t.url) (net.healthHosts t.url)
  rw [Network.ComesUp, ← hiff]
  simp [Network.environment, hb]

theorem ready_iff (t : Target) :
    net.environment.modelReady t.url t.model = true ↔ net.Lists t := by
  obtain ⟨b, hb, hiff⟩ := waitForModel_ends (net.modelClock t.url t.model) (by norm_num) t.model
    (net.modelHosts t.url t.model)
  rw [Network.Lists, ← hiff]
  simp [Network.environment, hb]

end Launcher

section Mapping
variable (L : UrlLibrary) (baseUrl : String) (u : L.Url)

theorem awaitEach_iff (env : Environment) (ready : Target → Bool)
    (waiting : Target → List Action) (ts : List Target) :
    (awaitEach env ready waiting ts).2 = true ↔ ∀ t ∈ ts, ready t = true := by
  constructor
  · induction ts with
    | nil => simp
    | cons t ts ih =>
      rw [awaitEach]
      split_ifs with ht
      · intro h
        exact List.forall_mem_cons.mpr ⟨ht, ih h⟩
      · intro h
        cases h
  · exact awaitEach_ready env ready waiting ts

theorem alreadyLoaded_iff (env : Environment) (h : L.parse baseUrl = .ok u)
    (wanted : List String) :
    alreadyLoaded L env (row L baseUrl u wanted) = .ok true ↔
      ∀ t ∈ row L baseUrl u wanted, t.model ∈ env.loadedModels t.url := by
  rw [row]
  induction wanted.zipIdx with
  | nil => simp [alreadyLoaded]
  | cons p ps ih =>
    rw [List.map_cons, alreadyLoaded, ServerControl.fetchLoadedModels,
      parse_urlTextAt L baseUrl u h, List.forall_mem_cons]
    change (if p.1 ∈ env.loadedModels (urlTextAt L baseUrl u p.2) then _ else _) = _ ↔ _
    split_ifs with hp
    · simp [ih, hp]
    · simp [hp]

/-- A base URL that no client can parse ends the run at the first look. -/
theorem parse_of_run (env : Environment) (models : List String) (run : Run)
    (hne : models ≠ []) (h : ensureModelsLoaded L env baseUrl models = .ok run) :
    ∃ u, L.parse baseUrl = .ok u := by
  obtain ⟨m, rest, rfl⟩ := List.exists_cons_of_ne_nil hne
  rw [ensureModelsLoaded, if_neg (by simp [List.eraseDups_cons])] at h
  obtain ⟨ts, hts, h⟩ := bind_ok h
  obtain ⟨loaded, hloaded, -⟩ := bind_ok h
  rw [List.eraseDups_cons, targets, List.zipIdx_cons, List.mapM_cons] at hts
  obtain ⟨t, ht, hts⟩ := bind_ok hts
  obtain ⟨rest', -, hts⟩ := bind_ok hts
  obtain rfl : t::rest' = ts := Except.ok.inj hts
  obtain ⟨url, hurl, rfl⟩ := map_ok ht
  obtain rfl : baseUrl = url := Except.ok.inj hurl
  obtain ⟨names, hnames, -⟩ := bind_ok hloaded
  obtain ⟨u, hu, -⟩ := map_ok hnames
  exact ⟨u, hu⟩

/-- A mapping is the row of the models, each at the URL of its server, and is
given out where the waits are successful. -/
theorem mapping_iff {E : Type} (net : Network E) (models : List String) (run : Run)
    (hrun : ensureModelsLoaded L net.environment baseUrl models = .ok run)
    (mapping : List (String × String)) :
    run.mapping = some mapping ↔ ∃ u, L.parse baseUrl = .ok u ∧ models ≠ [] ∧
      ((∀ t ∈ row L baseUrl u models.eraseDups, net.Loaded t) ∨
        ∀ t ∈ row L baseUrl u models.eraseDups, net.ComesUp t) ∧
      (∀ t ∈ row L baseUrl u models.eraseDups, net.Lists t) ∧
      mapping = (row L baseUrl u models.eraseDups).map fun t => (t.model, t.url) := by
  by_cases hmodels : models = []
  · subst hmodels
    obtain rfl := Except.ok.inj hrun
    simp
  have hne : models.eraseDups ≠ [] := by
    obtain ⟨m, rest, rfl⟩ := List.exists_cons_of_ne_nil hmodels
    simp [List.eraseDups_cons]
  obtain ⟨u, hu⟩ := parse_of_run L baseUrl _ models run hmodels hrun
  have hloaded := alreadyLoaded_iff L baseUrl u net.environment hu models.eraseDups
  have hready : (awaitModels net.environment (row L baseUrl u models.eraseDups)).2 = true ↔
      ∀ t ∈ row L baseUrl u models.eraseDups, net.Lists t := by
    rw [awaitModels, awaitEach_iff]
    simp only [ready_iff]
  have hup : (awaitServers net.environment (row L baseUrl u models.eraseDups)).2 = true ↔
      ∀ t ∈ row L baseUrl u models.eraseDups, net.ComesUp t := by
    rw [awaitServers, awaitEach_iff]
    simp only [healthy_iff]
  simp only [loaded_iff] at hloaded
  have hlast : ∀ before : List Action,
      (loading net.environment (row L baseUrl u models.eraseDups) before).mapping = some mapping ↔
        (∀ t ∈ row L baseUrl u models.eraseDups, net.Lists t) ∧
          mapping = (row L baseUrl u models.eraseDups).map fun t => (t.model, t.url) := by
    intro before
    rw [loading, ← hready]
    dsimp only
    split_ifs with hr
    · simp [hr, eq_comm]
    · simp [hr]
  have hunique : ∀ v, L.parse baseUrl = .ok v → v = u := fun v hv =>
    Except.ok.inj (hv.symm.trans hu)
  obtain ⟨b, hb⟩ := alreadyLoaded_ok L net.environment baseUrl u hu models.eraseDups
  cases b with
  | true =>
    rw [run_loaded L _ baseUrl u hu models hne hb] at hrun
    obtain rfl := Except.ok.inj hrun
    rw [hlast]
    constructor
    · exact fun h => ⟨u, hu, hmodels, Or.inl (hloaded.mp hb), h⟩
    · rintro ⟨v, hv, -, -, h⟩
      rwa [hunique v hv] at h
  | false =>
    have hfresh : ¬ ∀ t ∈ row L baseUrl u models.eraseDups, net.Loaded t := by
      rw [← hloaded, hb]
      simp
    obtain ⟨actions, hs, -⟩ := startServers_ok L baseUrl u hu models.eraseDups
    rw [run_started L _ baseUrl u hu models hne hb actions hs] at hrun
    have hrun := Except.ok.inj hrun
    split_ifs at hrun with hall
    · subst hrun
      rw [hlast]
      constructor
      · exact fun h => ⟨u, hu, hmodels, Or.inr (hup.mp hall), h⟩
      · rintro ⟨v, hv, -, -, h⟩
        rwa [hunique v hv] at h
    · subst hrun
      constructor
      · intro h
        cases h
      · rintro ⟨v, hv, -, hstart, -⟩
        rw [hunique v hv, ← hup] at hstart
        exact absurd hstart (not_or.mpr ⟨hfresh, hall⟩)

/-- Both waits for a server end, whatever their clocks read. The launcher gives out a
mapping exactly where every server lists its model already or comes up in time,
and then all of them list their models in time. A model of the mapping is a
registered one, and at an instant of the wait the server at its URL was well and
gave a request for it to the engine of that model. -/
theorem mapping_served {E : Type} (net : Network E) (models : List String) (run : Run)
    (hrun : ensureModelsLoaded L net.environment baseUrl models = .ok run) :
    (∀ t : Target,
      (∃ b, waitForHealth (net.healthClock t.url) (net.startupFailed t.url)
        (net.healthHosts t.url) = some b ∧ (b = true ↔ net.ComesUp t)) ∧
      ∃ b, waitForModel (net.modelClock t.url t.model) t.model
        (net.modelHosts t.url t.model) = some (.ok b) ∧ (b = true ↔ net.Lists t)) ∧
    (run.mapping.isSome = true ↔ ∃ u, L.parse baseUrl = .ok u ∧ models ≠ [] ∧
      ((∀ t ∈ row L baseUrl u models.eraseDups, net.Loaded t) ∨
        ∀ t ∈ row L baseUrl u models.eraseDups, net.ComesUp t) ∧
      ∀ t ∈ row L baseUrl u models.eraseDups, net.Lists t) ∧
    ∀ mapping, run.mapping = some mapping → mapping.map Prod.fst = models.eraseDups ∧
      ∀ p ∈ mapping, ∃ k, (net.modelClock p.2 p.1).Reaches k ∧
        ∃ s ∈ net.modelHosts p.2 p.1 k, s.allHealthy = true ∧ s.registry.contains p.1 = true ∧
          ∃ engine, s.healthy engine = true ∧ ∀ admission (r : ChatCompletionRequest),
            r.model = p.1 → (s.service admission).resolveEngine r = .ok (p.1, engine) := by
  have hiff := mapping_iff L baseUrl net models run hrun
  refine ⟨fun t => ⟨waitForHealth_ends _ (by norm_num) _ _,
    waitForModel_ends _ (by norm_num) _ _⟩, ?_, ?_⟩
  · rw [Option.isSome_iff_exists]
    constructor
    · rintro ⟨mapping, hm⟩
      obtain ⟨u, hu, hne, hstart, hlists, -⟩ := (hiff mapping).mp hm
      exact ⟨u, hu, hne, hstart, hlists⟩
    · rintro ⟨u, hu, hne, hstart, hlists⟩
      exact ⟨_, (hiff _).mpr ⟨u, hu, hne, hstart, hlists, rfl⟩⟩
  · intro mapping hm
    obtain ⟨u, -, -, -, hlists, rfl⟩ := (hiff mapping).mp hm
    constructor
    · rw [row, List.map_map, List.map_map]
      exact List.zipIdx_map_fst 0 models.eraseDups
    · intro p hp
      obtain ⟨t, ht, rfl⟩ := List.mem_map.mp hp
      obtain ⟨k, hk, s, hs, hall, hmem⟩ := hlists t ht
      obtain ⟨hreg, hengine⟩ := listed_resolves s t.model hall hmem
      exact ⟨k, hk, s, hs, hall, hreg, hengine⟩

end Mapping

def steadyClock (timeout : ℚ) : Clock timeout 2 where
  started := 0
  top k := 2*k
  polled k := 2*k
  started_le := by norm_num
  top_le _ := le_rfl
  sleeps k _ := by
    have hmin := min_le_left 2 (0+timeout-2*k)
    push_cast
    linarith

theorem steadyClock_reaches (timeout : ℚ) (ht : 2 < timeout) : (steadyClock timeout).Reaches 1 := by
  have hdeadline : (steadyClock timeout).deadline = timeout := zero_add timeout
  rw [Clock.Reaches, hdeadline]
  refine ⟨by norm_num [steadyClock, ht], fun j hj => ?_⟩
  obtain rfl := Nat.lt_one_iff.mp hj
  norm_num [steadyClock]
  linarith

/-- Nothing runs at first; what is launched is up at the second look. -/
def secondLook {E : Type} (s : Running E) (k : ℕ) : Option (Running E) :=
  if k = 0 then none else some s

def coldNetwork {E : Type} (s : Running E) : Network E where
  now _ := none
  healthClock _ := steadyClock 120
  healthHosts _ := secondLook s
  startupFailed _ _ := false
  modelClock _ _ := steadyClock 600
  modelHosts _ _ := secondLook s
  errorSummary _ := ""

/-- A launcher that starts the server of a model and waits for it twice. -/
theorem mapping_served_launched : ∃ (s : Running Unit) (run : Run),
    ensureModelsLoaded hostUrls (coldNetwork s).environment "http://localhost:8000" ["a"] =
      .ok run ∧ launched run.actions ≠ [] ∧ run.mapping.isSome = true := by
  obtain ⟨router, pool, hs⟩ := starts none (by decide +kernel)
  let s : Running Unit := ⟨plainHub, plainRuntime, twoModels, appSettings (some "a") none, eightGib,
    eightGib, eightGib.probe, router, pool, hs, fun _ => true⟩
  have hall : s.allHealthy = true := List.all_eq_true.mpr fun _ _ => rfl
  have hserves : Serves "a" (some s) := by
    obtain ⟨default, loaded, engine, hd, -, hpool, -, -, hloaded⟩ :=
      initializeApp_ok plainHub plainRuntime twoModels _ _ _ _ _ _ hs
    have hnames : (appSettings (some "a") none).loadedModels = ["a"] := by decide +kernel
    obtain rfl := standsFor_unique plainHub twoModels _ _ _ _ _
      (hloaded "a" (by rw [hnames]; exact List.mem_singleton_self _))
      (standsFor_self "a" (by decide))
    have hmem : "a" ∈ pool.loadedModels := hpool ▸ List.mem_singleton_self _
    exact ⟨s, rfl, hall, hmem⟩
  let u : HostUrl :=
    ⟨.http, ['l', 'o', 'c', 'a', 'l', 'h', 'o', 's', 't'], some 8000, by simp, by decide⟩
  have hparse : HostUrl.parse "http://localhost:8000" = .ok u :=
    u.parse_of_text _ (by decide +kernel)
  have htargets : ∀ t ∈ row hostUrls "http://localhost:8000" u (["a"].eraseDups),
      t.model = "a" := by
    intro t ht
    obtain ⟨i, hi, -⟩ := mem_row hostUrls _ u _ t ht
    simpa using List.mem_of_getElem? hi
  have hup : ∀ t ∈ row hostUrls "http://localhost:8000" u (["a"].eraseDups),
      (coldNetwork s).ComesUp t :=
    fun t _ => ⟨1, steadyClock_reaches 120 (by norm_num), ⟨s, rfl, hall⟩, fun _ _ => rfl⟩
  have hlists : ∀ t ∈ row hostUrls "http://localhost:8000" u (["a"].eraseDups),
      (coldNetwork s).Lists t := by
    intro t ht
    refine ⟨1, steadyClock_reaches 600 (by norm_num), ?_⟩
    rw [htargets t ht]
    exact hserves
  have hcold : ¬ ∀ t ∈ row hostUrls "http://localhost:8000" u (["a"].eraseDups),
      t.model ∈ (coldNetwork s).environment.loadedModels t.url := by
    intro hall
    obtain ⟨s', hs', -⟩ := (loaded_iff _ _).mp (hall _ List.mem_cons_self)
    cases hs'
  have hb : alreadyLoaded hostUrls (coldNetwork s).environment
      (row hostUrls "http://localhost:8000" u (["a"].eraseDups)) = .ok false := by
    obtain ⟨b, hb⟩ := alreadyLoaded_ok hostUrls (coldNetwork s).environment
      "http://localhost:8000" u hparse (["a"].eraseDups)
    rw [hb, Except.ok.injEq, ← Bool.not_eq_true]
    rintro rfl
    exact hcold ((alreadyLoaded_iff hostUrls "http://localhost:8000" u _ hparse _).mp hb)
  obtain ⟨actions, hstarts, hlaunched, -⟩ := startServers_ok hostUrls "http://localhost:8000" u
    hparse (["a"].eraseDups)
  have hrun := run_started hostUrls (coldNetwork s).environment "http://localhost:8000" u hparse
    ["a"] (by decide) hb actions hstarts
  refine ⟨s, _, hrun, ?_, ?_⟩
  · have hbefore := launched_append actions (awaitServers (coldNetwork s).environment
      (row hostUrls "http://localhost:8000" u (["a"].eraseDups))).1
    rw [launched_awaitServers, List.append_nil, hlaunched] at hbefore
    split_ifs
    · rw [loading_launched, hbefore]
      exact List.cons_ne_nil _ _
    · rw [hbefore]
      exact List.cons_ne_nil _ _
  apply (mapping_served hostUrls "http://localhost:8000" (coldNetwork s) ["a"] _ hrun).2.1.mpr
  exact ⟨u, hparse, List.cons_ne_nil _ _, Or.inr hup, hlists⟩

end InferenceX.ServerWait
