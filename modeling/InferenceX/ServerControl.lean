import InferenceX.PythonValues

/-!
# One server for each playground model

The first model is served at the base URL as it is written, each further one
on the port behind the one before. The launcher reads the port off the URL
again and takes 8000 where there is none to read, which is not the port that
such a URL addresses. So each server is where it is looked for exactly when
the base URL names a port and no URL of the row has the port of its scheme.
-/

set_option autoImplicit false

namespace InferenceX.ServerControl
open InferenceX.PythonValues

inductive Scheme where
  | http
  | https
  deriving DecidableEq

def Scheme.port : Scheme → ℕ
  | .http => 80
  | .https => 443

/-- `httpx.URL`, with what the module relies on: a URL reads back from its
text, the port of its scheme counts as none, and a copy with another port
keeps the scheme. -/
structure UrlLibrary where
  Url : Type
  parse : String → Except PyError Url
  text : Url → String
  scheme : Url → Scheme
  port : Url → Option ℕ
  copyWithPort : Url → ℕ → Url
  parse_text : ∀ u, parse (text u) = .ok u
  port_ne : ∀ u, port u ≠ some (scheme u).port
  copy_scheme : ∀ u p, scheme (copyWithPort u p) = scheme u
  copy_port : ∀ u p, port (copyWithPort u p) = if p = (scheme u).port then none else some p

/-- `port or 8000`. -/
def orDefault : Option ℕ → ℕ
  | some 0 => 8000
  | some p => p
  | none => 8000

namespace UrlLibrary
variable (L : UrlLibrary)

def addressed (u : L.Url) : ℕ := (L.port u).getD (L.scheme u).port

end UrlLibrary

def logPathFor (index : ℕ) : String :=
  if index = 0 then "logs/playground-server.log" else s!"logs/playground-server-{index}.log"

structure Environment where
  loadedModels : String → List String
  healthy : String → Bool
  modelReady : String → String → Bool
  errorSummary : String → String

structure Target where
  model : String
  url : String
  logPath : String

inductive Action where
  | status (message : String)
  | logLine (message : String)
  | stop
  | launch (model : String) (port : ℕ) (logPath : String)
  | awaitHealth (model url : String)
  | awaitModel (model url : String)

structure Run where
  actions : List Action
  mapping : Option (List (String × String))

section Program
variable (L : UrlLibrary) (env : Environment)

def targetUrl (baseUrl : String) (index : ℕ) : Except PyError String :=
  if index = 0 then .ok baseUrl
  else (L.parse baseUrl).map fun u => L.text (L.copyWithPort u (orDefault (L.port u)+index))

def targets (baseUrl : String) (wanted : List String) : Except PyError (List Target) :=
  wanted.zipIdx.mapM fun (model, i) =>
    (targetUrl L baseUrl i).map fun url => ⟨model, url, logPathFor i⟩

def fetchLoadedModels (url : String) : Except PyError (List String) :=
  (L.parse url).map fun _ => env.loadedModels url

/-- Whether every model is served already; the first one that is not ends the loop. -/
def alreadyLoaded : List Target → Except PyError Bool
  | [] => .ok true
  | t::ts => do
    let loaded ← fetchLoadedModels L env t.url
    if t.model ∈ loaded then alreadyLoaded ts else .ok false

def startServers (wanted : List String) (ts : List Target) : Except PyError (List Action) := do
  let launches ← ts.mapM fun t =>
    (L.parse t.url).map fun u => Action.launch t.model (orDefault (L.port u)) t.logPath
  let names := ", ".intercalate wanted
  return .status s!"Starting server(s) for {names}…"::.stop::launches

def awaitEach (ready : Target → Bool) (waiting : Target → List Action) :
    List Target → List Action × Bool
  | [] => ([], true)
  | t::ts =>
    if ready t then
      let rest := awaitEach ready waiting ts
      (waiting t++rest.1, rest.2)
    else (waiting t++[.logLine s!"✗ {env.errorSummary t.logPath}"], false)

def awaitServers (ts : List Target) : List Action × Bool :=
  awaitEach env (fun t => env.healthy t.url) (fun t =>
    [.status s!"Waiting for {t.model}'s server to respond…", .awaitHealth t.model t.url]) ts

def awaitModels (ts : List Target) : List Action × Bool :=
  awaitEach env (fun t => env.modelReady t.url t.model) (fun t =>
    [.status s!"Loading {t.model} (first run may download weights)…",
      .awaitModel t.model t.url]) ts

/-- `ensure_models_loaded`; `dict.fromkeys` keeps the first of equal models. -/
def ensureModelsLoaded (baseUrl : String) (models : List String) : Except PyError Run := do
  let wanted := models.eraseDups
  if wanted = [] then return ⟨[], none⟩
  let ts ← targets L baseUrl wanted
  let loaded ← alreadyLoaded L env ts
  let started ← if loaded then .ok [] else startServers L wanted ts
  let (health, healthy) := if loaded then ([], true) else awaitServers env ts
  if healthy then
    let (load, ready) := awaitModels env ts
    let mapping := if ready then some (ts.map fun t => (t.model, t.url)) else none
    return ⟨started++health++load, mapping⟩
  else return ⟨started++health, none⟩

end Program

def launched (actions : List Action) : List (String × ℕ) :=
  actions.filterMap fun action =>
    match action with
    | .launch model port _ => some (model, port)
    | _ => none

/-- Whenever servers are started, there is one for each model, on ports of
their own, and the URL at which a model is looked for, in the health check and
in the mapping, addresses the port of its server. -/
def StartedWhereLooked (L : UrlLibrary) (baseUrl : String) (models : List String) : Prop :=
  ∀ env run, ensureModelsLoaded L env baseUrl models = .ok run → launched run.actions ≠ [] →
    ((launched run.actions).map Prod.fst).Nodup ∧
    (∀ model, model ∈ (launched run.actions).map Prod.fst ↔ model ∈ models) ∧
    ((launched run.actions).map Prod.snd).Nodup ∧
    ∀ model port, (model, port) ∈ launched run.actions → ∀ url,
      (.awaitHealth model url ∈ run.actions ∨ ∃ mapping, run.mapping = some mapping ∧
        (model, url) ∈ mapping) →
      ∃ u, L.parse url = .ok u ∧ L.addressed u = port

/-- The base URL names a port, and the port of the scheme is not among those behind it. -/
def PortNamed (L : UrlLibrary) (u : L.Url) (n : ℕ) : Prop :=
  ∃ p, L.port u = some p ∧ p ≠ 0 ∧ ∀ i, 0 < i → i < n → p+i ≠ (L.scheme u).port

section Ports
variable (L : UrlLibrary) (baseUrl : String) (u : L.Url)

def urlAt (i : ℕ) : L.Url :=
  if i = 0 then u else L.copyWithPort u (orDefault (L.port u)+i)

def urlTextAt (i : ℕ) : String := if i = 0 then baseUrl else L.text (urlAt L u i)

def portAt (i : ℕ) : ℕ := orDefault (L.port (urlAt L u i))

theorem targetUrl_ok (h : L.parse baseUrl = .ok u) (i : ℕ) :
    targetUrl L baseUrl i = .ok (urlTextAt L baseUrl u i) := by
  rw [targetUrl, urlTextAt, urlAt]
  split_ifs with hi
  · rfl
  · rw [h]
    rfl

theorem parse_urlTextAt (h : L.parse baseUrl = .ok u) (i : ℕ) :
    L.parse (urlTextAt L baseUrl u i) = .ok (urlAt L u i) := by
  rw [urlTextAt]
  split_ifs with hi
  · rw [urlAt, if_pos hi, h]
  · exact L.parse_text _

theorem addressed_copy (p : ℕ) : L.addressed (L.copyWithPort u p) = p := by
  rw [UrlLibrary.addressed, L.copy_port, L.copy_scheme]
  split_ifs with hp
  · exact hp.symm
  · rfl

theorem orDefault_some (p : ℕ) (hp : p ≠ 0) : orDefault (some p) = p := by
  cases p with
  | zero => exact absurd rfl hp
  | succ p => rfl

theorem scheme_port_ne (s : Scheme) : s.port ≠ 8000 := by
  cases s <;> decide

/-- The base URL is launched where it is addressed exactly when it names a port. -/
theorem launched_base_iff :
    orDefault (L.port u) = L.addressed u ↔ ∃ p, L.port u = some p ∧ p ≠ 0 := by
  rw [UrlLibrary.addressed]
  rcases hp : L.port u with _ | _ | p
  · simpa [orDefault] using (scheme_port_ne (L.scheme u)).symm
  · simp [orDefault]
  · simp [orDefault]

/-- A later one is exactly when its port is not that of the scheme. -/
theorem launched_next_iff (p : ℕ) (hp : 0 < p) :
    orDefault (L.port (L.copyWithPort u p)) = L.addressed (L.copyWithPort u p) ↔
      p ≠ (L.scheme u).port := by
  rw [addressed_copy, L.copy_port]
  split_ifs with hs
  · simpa [orDefault, hs] using (scheme_port_ne (L.scheme u)).symm
  · simpa [orDefault_some p hp.ne'] using hs

/-- All of a row of servers are launched where they are addressed. -/
theorem row_iff (n : ℕ) (hn : 0 < n) :
    (∀ i < n, portAt L u i = L.addressed (urlAt L u i)) ↔ PortNamed L u n := by
  constructor
  · intro h
    obtain ⟨p, hp, hp0⟩ := (launched_base_iff L u).mp (h 0 hn)
    refine ⟨p, hp, hp0, fun i hi hin => ?_⟩
    have hnext := h i hin
    rw [portAt, urlAt, if_neg hi.ne', hp, orDefault_some p hp0] at hnext
    exact (launched_next_iff L u (p+i) (by omega)).mp hnext
  · rintro ⟨p, hp, hp0, hrow⟩ i hi
    rw [portAt, urlAt]
    split_ifs with hi0
    · exact (launched_base_iff L u).mpr ⟨p, hp, hp0⟩
    · rw [hp, orDefault_some p hp0]
      exact (launched_next_iff L u (p+i) (by omega)).mpr (hrow i (Nat.pos_of_ne_zero hi0) hi)

theorem row_ports (n : ℕ) (h : PortNamed L u n) (i : ℕ) (hi : i < n) :
    portAt L u i = orDefault (L.port u)+i := by
  rw [(row_iff L u n (by omega)).mpr h i hi, urlAt]
  split_ifs with hi0
  · obtain ⟨p, hp, hp0, -⟩ := h
    rw [hi0, Nat.add_zero]
    exact ((launched_base_iff L u).mpr ⟨p, hp, hp0⟩).symm
  · exact addressed_copy L u _

end Ports

theorem nodup_eraseDups (models : List String) : models.eraseDups.Nodup := by
  induction models using List.reverseRecOn with
  | nil => exact List.nodup_nil
  | append_singleton models m ih =>
    rw [List.eraseDups_append]
    by_cases hm : m ∈ models
    · simpa [List.removeAll, hm] using ih
    · have hlast : ([m].removeAll models).eraseDups = [m] := by
        simp [List.removeAll, hm, List.eraseDups_cons]
      rw [hlast]
      apply ih.append (List.nodup_singleton m)
      exact List.disjoint_singleton.mpr (by rwa [List.mem_eraseDups])

theorem launched_append (xs ys : List Action) :
    launched (xs++ys) = launched xs++launched ys := List.filterMap_append

section Runs
variable (L : UrlLibrary) (env : Environment) (baseUrl : String) (u : L.Url)

/-- Waiting acts as told for each target it reaches, and logs at the end. -/
theorem mem_awaitEach (ready : Target → Bool) (waiting : Target → List Action) (ts : List Target)
    (action : Action) (h : action ∈ (awaitEach env ready waiting ts).1) :
    (∃ t ∈ ts, action ∈ waiting t) ∨ ∃ message, action = .logLine message := by
  induction ts with
  | nil => cases h
  | cons t ts ih =>
    rw [awaitEach] at h
    split_ifs at h with hready
    · rcases List.mem_append.mp h with h | h
      · exact Or.inl ⟨t, List.mem_cons_self, h⟩
      · rcases ih h with ⟨t', ht', h⟩ | h
        · exact Or.inl ⟨t', List.mem_cons_of_mem _ ht', h⟩
        · exact Or.inr h
    · rcases List.mem_append.mp h with h | h
      · exact Or.inl ⟨t, List.mem_cons_self, h⟩
      · exact Or.inr ⟨_, List.mem_singleton.mp h⟩

theorem awaitEach_ready (ready : Target → Bool) (waiting : Target → List Action)
    (ts : List Target) (h : ∀ t ∈ ts, ready t = true) :
    (awaitEach env ready waiting ts).2 = true := by
  induction ts with
  | nil => rfl
  | cons t ts ih =>
    obtain ⟨ht, hts⟩ := List.forall_mem_cons.mp h
    rw [awaitEach, if_pos ht]
    exact ih hts

theorem launched_awaitEach (ready : Target → Bool) (waiting : Target → List Action)
    (hwaiting : ∀ t, launched (waiting t) = []) (ts : List Target) :
    launched (awaitEach env ready waiting ts).1 = [] := by
  induction ts with
  | nil => rfl
  | cons t ts ih =>
    rw [awaitEach]
    by_cases hready : ready t = true
    · rw [if_pos hready, launched_append, hwaiting, ih, List.append_nil]
    · rw [if_neg hready, launched_append, hwaiting]
      rfl

theorem launched_awaitServers (ts : List Target) : launched (awaitServers env ts).1 = [] :=
  launched_awaitEach env _ _ (fun _ => rfl) ts

theorem launched_awaitModels (ts : List Target) : launched (awaitModels env ts).1 = [] :=
  launched_awaitEach env _ _ (fun _ => rfl) ts

theorem health_awaitServers (ts : List Target) (model url : String)
    (h : .awaitHealth model url ∈ (awaitServers env ts).1) :
    ∃ t ∈ ts, t.model = model ∧ t.url = url := by
  rcases mem_awaitEach env _ _ ts _ h with ⟨t, ht, hin⟩ | ⟨message, hm⟩
  · obtain ⟨rfl, rfl⟩ : model = t.model ∧ url = t.url := by simpa using hin
    exact ⟨t, ht, rfl, rfl⟩
  · cases hm

theorem health_awaitModels (ts : List Target) (model url : String) :
    .awaitHealth model url ∉ (awaitModels env ts).1 := by
  intro h
  rcases mem_awaitEach env _ _ ts _ h with ⟨t, -, ht⟩ | ⟨message, hm⟩
  · simp at ht
  · cases hm

def loading (ts : List Target) (before : List Action) : Run :=
  ⟨before++(awaitModels env ts).1,
    if (awaitModels env ts).2 then some (ts.map fun t => (t.model, t.url)) else none⟩

theorem loading_launched (ts : List Target) (before : List Action) :
    launched (loading env ts before).actions = launched before := by
  rw [loading, launched_append, launched_awaitModels, List.append_nil]

/-- Where a run looks for a model once it loads them: where it looked before, or
at its target. -/
theorem loading_looks (ts : List Target) (before : List Action) (model url : String)
    (hlook : .awaitHealth model url ∈ (loading env ts before).actions ∨
      ∃ mapping, (loading env ts before).mapping = some mapping ∧ (model, url) ∈ mapping) :
    .awaitHealth model url ∈ before ∨ ∃ t ∈ ts, t.model = model ∧ t.url = url := by
  rcases hlook with hact | ⟨mapping, hmap, hin⟩
  · rcases List.mem_append.mp hact with hact | hact
    · exact Or.inl hact
    · exact absurd hact (health_awaitModels env ts model url)
  · dsimp only [loading] at hmap
    split_ifs at hmap
    obtain rfl := Option.some.inj hmap
    obtain ⟨t, ht, heq⟩ := List.mem_map.mp hin
    obtain ⟨rfl, rfl⟩ := Prod.mk.inj heq
    exact Or.inr ⟨t, ht, rfl, rfl⟩

def row (wanted : List String) : List Target :=
  wanted.zipIdx.map fun (model, i) => ⟨model, urlTextAt L baseUrl u i, logPathFor i⟩

theorem mem_row (wanted : List String) (t : Target) (h : t ∈ row L baseUrl u wanted) :
    ∃ i, wanted[i]? = some t.model ∧ t.url = urlTextAt L baseUrl u i := by
  obtain ⟨⟨model, i⟩, hi, rfl⟩ := List.mem_map.mp h
  exact ⟨i, List.mem_zipIdx_iff_getElem?.mp hi, rfl⟩

variable (h : L.parse baseUrl = .ok u)
include h

theorem targets_ok (wanted : List String) :
    targets L baseUrl wanted = .ok (row L baseUrl u wanted) := by
  have hone : (fun p : String × ℕ => (targetUrl L baseUrl p.2).map fun url =>
      (⟨p.1, url, logPathFor p.2⟩ : Target)) =
      fun p => pure ⟨p.1, urlTextAt L baseUrl u p.2, logPathFor p.2⟩ := by
    funext p
    rw [targetUrl_ok L baseUrl u h]
    rfl
  show wanted.zipIdx.mapM _ = _
  rw [hone, List.mapM_pure]
  rfl

theorem startServers_ok (wanted : List String) : ∃ actions,
    startServers L wanted (row L baseUrl u wanted) = .ok actions ∧
      launched actions = wanted.zipIdx.map (fun p => (p.1, portAt L u p.2)) ∧
      ∀ model url, .awaitHealth model url ∉ actions := by
  have hlaunch : ∀ ps : List (String × ℕ),
      (ps.map fun p => (⟨p.1, urlTextAt L baseUrl u p.2, logPathFor p.2⟩ : Target)).mapM
          (fun t => (L.parse t.url).map fun v =>
            Action.launch t.model (orDefault (L.port v)) t.logPath) =
        .ok (ps.map fun p => .launch p.1 (portAt L u p.2) (logPathFor p.2)) := by
    intro ps
    induction ps with
    | nil => rfl
    | cons p ps ih =>
      rw [List.map_cons, List.mapM_cons, ih, parse_urlTextAt L baseUrl u h]
      rfl
  refine ⟨_, by rw [startServers, row, hlaunch]; rfl, ?_, ?_⟩
  · simp [launched, List.filterMap_map]
  · simp

theorem alreadyLoaded_ok (wanted : List String) :
    ∃ b, alreadyLoaded L env (row L baseUrl u wanted) = .ok b := by
  rw [row]
  induction wanted.zipIdx with
  | nil => exact ⟨true, rfl⟩
  | cons p ps ih =>
    rw [List.map_cons, alreadyLoaded, fetchLoadedModels, parse_urlTextAt L baseUrl u h]
    by_cases hp : p.1 ∈ env.loadedModels (urlTextAt L baseUrl u p.2)
    · obtain ⟨b, hb⟩ := ih
      exact ⟨b, (if_pos hp).trans hb⟩
    · exact ⟨false, if_neg hp⟩

theorem run_loaded (models : List String) (hne : models.eraseDups ≠ [])
    (hb : alreadyLoaded L env (row L baseUrl u models.eraseDups) = .ok true) :
    ensureModelsLoaded L env baseUrl models =
      .ok (loading env (row L baseUrl u models.eraseDups) []) := by
  rw [ensureModelsLoaded]
  simp [hne, targets_ok L baseUrl u h, hb, loading, bind, Except.bind, pure, Except.pure]

theorem run_started (models : List String) (hne : models.eraseDups ≠ [])
    (hb : alreadyLoaded L env (row L baseUrl u models.eraseDups) = .ok false)
    (actions : List Action)
    (hs : startServers L models.eraseDups (row L baseUrl u models.eraseDups) = .ok actions) :
    ensureModelsLoaded L env baseUrl models =
      let ts := row L baseUrl u models.eraseDups
      let before := actions++(awaitServers env ts).1
      .ok (if (awaitServers env ts).2 then loading env ts before else ⟨before, none⟩) := by
  rw [ensureModelsLoaded]
  by_cases hready : (awaitServers env (row L baseUrl u models.eraseDups)).2 = true
  · simp [hne, targets_ok L baseUrl u h, hb, hs, hready, loading, bind, Except.bind, pure,
      Except.pure]
  · simp [hne, targets_ok L baseUrl u h, hb, hs, hready, bind, Except.bind, pure, Except.pure]

/-- A run that launches servers launches the row, and looks for each model at
its URL in the row. -/
theorem run_row (models : List String) (run : Run)
    (hrun : ensureModelsLoaded L env baseUrl models = .ok run) (hl : launched run.actions ≠ []) :
    launched run.actions = models.eraseDups.zipIdx.map (fun p => (p.1, portAt L u p.2)) ∧
      ∀ model url, (.awaitHealth model url ∈ run.actions ∨ ∃ mapping, run.mapping = some mapping ∧
          (model, url) ∈ mapping) →
        ∃ i, models.eraseDups[i]? = some model ∧ url = urlTextAt L baseUrl u i := by
  have hrow : ∀ model url, (∃ t ∈ row L baseUrl u models.eraseDups, t.model = model ∧ t.url = url) →
      ∃ i, models.eraseDups[i]? = some model ∧ url = urlTextAt L baseUrl u i := by
    rintro model url ⟨t, ht, rfl, rfl⟩
    exact mem_row L baseUrl u _ t ht
  by_cases hne : models.eraseDups = []
  · rw [ensureModelsLoaded, hne] at hrun
    obtain rfl := Except.ok.inj hrun
    exact absurd rfl hl
  obtain ⟨b, hb⟩ := alreadyLoaded_ok L env baseUrl u h models.eraseDups
  cases b with
  | true =>
    rw [run_loaded L env baseUrl u h models hne hb] at hrun
    obtain rfl := Except.ok.inj hrun
    exact absurd (loading_launched env _ []) hl
  | false =>
    obtain ⟨actions, hs, hlaunched, hquiet⟩ := startServers_ok L baseUrl u h models.eraseDups
    rw [run_started L env baseUrl u h models hne hb actions hs] at hrun
    have hbefore : ∀ model url, .awaitHealth model url ∈
        actions++(awaitServers env (row L baseUrl u models.eraseDups)).1 →
        ∃ t ∈ row L baseUrl u models.eraseDups, t.model = model ∧ t.url = url := by
      intro model url hin
      rcases List.mem_append.mp hin with hin | hin
      · exact absurd hin (hquiet model url)
      · exact health_awaitServers env _ model url hin
    have hrun := Except.ok.inj hrun
    split_ifs at hrun
    · subst hrun
      rw [loading_launched, launched_append, launched_awaitServers, List.append_nil]
      refine ⟨hlaunched, fun model url hlook => hrow model url ?_⟩
      rcases loading_looks env _ _ model url hlook with hin | hin
      · exact hbefore model url hin
      · exact hin
    · subst hrun
      rw [launched_append, launched_awaitServers, List.append_nil]
      refine ⟨hlaunched, fun model url hlook => hrow model url ?_⟩
      rcases hlook with hin | ⟨mapping, hmap, -⟩
      · exact hbefore model url hin
      · cases hmap

def freshEnvironment : Environment where
  loadedModels _ := []
  healthy _ := true
  modelReady _ _ := true
  errorSummary _ := ""

theorem run_fresh (models : List String) (hne : models ≠ []) :
    ∃ run, ensureModelsLoaded L freshEnvironment baseUrl models = .ok run ∧
      launched run.actions = models.eraseDups.zipIdx.map (fun p => (p.1, portAt L u p.2)) ∧
      run.mapping = some ((row L baseUrl u models.eraseDups).map fun t => (t.model, t.url)) := by
  obtain ⟨m, rest, rfl⟩ := List.exists_cons_of_ne_nil hne
  have hdups : (m::rest).eraseDups ≠ [] := by simp [List.eraseDups_cons]
  have hb : alreadyLoaded L freshEnvironment (row L baseUrl u (m::rest).eraseDups) = .ok false := by
    rw [List.eraseDups_cons, row, List.zipIdx_cons, List.map_cons, alreadyLoaded,
      fetchLoadedModels, parse_urlTextAt L baseUrl u h]
    rfl
  obtain ⟨actions, hs, hlaunched, -⟩ := startServers_ok L baseUrl u h (m::rest).eraseDups
  have hhealthy : (awaitServers freshEnvironment (row L baseUrl u (m::rest).eraseDups)).2 = true :=
    awaitEach_ready _ _ _ _ fun _ _ => rfl
  have hready : (awaitModels freshEnvironment (row L baseUrl u (m::rest).eraseDups)).2 = true :=
    awaitEach_ready _ _ _ _ fun _ _ => rfl
  refine ⟨_, run_started L _ baseUrl u h _ hdups hb actions hs, ?_, ?_⟩
  · rw [if_pos hhealthy, loading_launched, launched_append, launched_awaitServers, List.append_nil,
      hlaunched]
  · rw [if_pos hhealthy, loading, if_pos hready]

end Runs

theorem row_ports_nodup (L : UrlLibrary) (u : L.Url) (wanted : List String)
    (hp : PortNamed L u wanted.length) :
    (wanted.zipIdx.map fun p => portAt L u p.2).Nodup := by
  have hmap : (wanted.zipIdx.map fun p => portAt L u p.2) =
      (List.range wanted.length).map (portAt L u) := by
    rw [List.range_eq_range', ← List.zipIdx_map_snd, List.map_map]
    rfl
  rw [hmap]
  apply List.Nodup.map_on _ List.nodup_range
  intro i hi j hj hij
  rw [row_ports L u _ hp i (List.mem_range.mp hi),
    row_ports L u _ hp j (List.mem_range.mp hj)] at hij
  exact Nat.add_left_cancel hij

section Placement
variable (L : UrlLibrary) (baseUrl : String) (u : L.Url) (h : L.parse baseUrl = .ok u)
include h

theorem row_of_started (models : List String) (hne : models ≠ [])
    (hall : StartedWhereLooked L baseUrl models) (i : ℕ) (hi : i < models.eraseDups.length) :
    portAt L u i = L.addressed (urlAt L u i) := by
  obtain ⟨run, hrun, hlaunched, hmapping⟩ := run_fresh L baseUrl u h models hne
  have hmem : (models.eraseDups[i], i) ∈ models.eraseDups.zipIdx :=
    List.mem_zipIdx_iff_getElem?.mpr (List.getElem?_eq_getElem hi)
  have hin : (models.eraseDups[i], portAt L u i) ∈ launched run.actions := by
    rw [hlaunched]
    exact List.mem_map.mpr ⟨_, hmem, rfl⟩
  have hlooked : (models.eraseDups[i], urlTextAt L baseUrl u i) ∈
      (row L baseUrl u models.eraseDups).map fun t => (t.model, t.url) := by
    rw [row, List.map_map]
    exact List.mem_map.mpr ⟨_, hmem, rfl⟩
  have hfound := (hall _ run hrun (List.ne_nil_of_mem hin)).2.2.2 _ _ hin _
    (Or.inr ⟨_, hmapping, hlooked⟩)
  obtain ⟨v, hv, haddressed⟩ := hfound
  rw [parse_urlTextAt L baseUrl u h] at hv
  obtain rfl := Except.ok.inj hv
  exact haddressed.symm

theorem started_of_named (models : List String)
    (hp : PortNamed L u models.eraseDups.length) : StartedWhereLooked L baseUrl models := by
  intro env run hrun hl
  obtain ⟨hlaunched, hlook⟩ := run_row L env baseUrl u h models run hrun hl
  have hmodels : (launched run.actions).map Prod.fst = models.eraseDups := by
    rw [hlaunched, List.map_map]
    exact List.zipIdx_map_fst 0 models.eraseDups
  have hnodup := nodup_eraseDups models
  refine ⟨?_, fun model => ?_, ?_, ?_⟩
  · rwa [hmodels]
  · rw [hmodels, List.mem_eraseDups]
  · rw [hlaunched, List.map_map]
    exact row_ports_nodup L u _ hp
  · intro model port hin url hlooked
    rw [hlaunched] at hin
    obtain ⟨⟨m, i⟩, hi, heq⟩ := List.mem_map.mp hin
    obtain ⟨rfl, rfl⟩ := Prod.mk.inj heq
    have hi : models.eraseDups[i]? = some m := List.mem_zipIdx_iff_getElem?.mp hi
    obtain ⟨j, hj, rfl⟩ := hlook m url hlooked
    obtain ⟨hlt, -⟩ := List.getElem?_eq_some_iff.mp hi
    obtain rfl : i = j := (List.getElem?_inj hlt hnodup).mp (hi.trans hj.symm)
    exact ⟨_, parse_urlTextAt L baseUrl u h i, ((row_iff L u _ (by omega)).mpr hp i hlt).symm⟩

end Placement

/-- Every server is started where it is looked for exactly when the base URL
names its port and the row does not meet the port of the scheme. -/
theorem startedWhereLooked_iff (L : UrlLibrary) (baseUrl : String) (u : L.Url)
    (h : L.parse baseUrl = .ok u) (models : List String) :
    StartedWhereLooked L baseUrl models ↔
      models = [] ∨ PortNamed L u models.eraseDups.length := by
  constructor
  · intro hall
    by_cases hne : models = []
    · exact Or.inl hne
    · right
      apply (row_iff L u _ _).mp (row_of_started L baseUrl u h models hne hall)
      obtain ⟨m, rest, rfl⟩ := List.exists_cons_of_ne_nil hne
      simp [List.eraseDups_cons]
  · rintro (rfl | hp)
    · intro env run hrun hl
      obtain rfl := Except.ok.inj hrun
      exact absurd rfl hl
    · exact started_of_named L baseUrl u h models hp

structure HostUrl where
  scheme : Scheme
  host : List Char
  port : Option ℕ
  host_plain : ∀ c ∈ host, c ≠ ':'
  port_ne : port ≠ some scheme.port

namespace HostUrl

def ofPort (s : Scheme) (p : ℕ) : Option ℕ := if p = s.port then none else some p

theorem ofPort_ne (s : Scheme) (p : ℕ) : ofPort s p ≠ some s.port := by
  rw [ofPort]
  split_ifs with h
  · exact Option.some_ne_none _ ∘ Eq.symm
  · exact fun heq => h (Option.some.inj heq)

def schemeText : Scheme → List Char
  | .http => ['h', 't', 't', 'p', ':', '/', '/']
  | .https => ['h', 't', 't', 'p', 's', ':', '/', '/']

def portText : Option ℕ → List Char
  | none => []
  | some p => ':'::Nat.toDigits 10 p

def text (u : HostUrl) : String := String.ofList (schemeText u.scheme++(u.host++portText u.port))

def readPort (s : Scheme) : List Char → Except PyError { port : Option ℕ // port ≠ some s.port }
  | [] => .ok ⟨none, Option.some_ne_none _ ∘ Eq.symm⟩
  | _::ds =>
    if ds.all Char.isDigit then .ok ⟨ofPort s (Nat.ofDigitChars 10 ds 0), ofPort_ne s _⟩
    else .error (.other "InvalidURL")

def readHost (s : Scheme) (rest : List Char) : Except PyError HostUrl :=
  (readPort s (rest.dropWhile (· ≠ ':'))).map fun port =>
    ⟨s, rest.takeWhile (· ≠ ':'), port.val, fun _ hc => by simpa using List.mem_takeWhile_imp hc,
      port.property⟩

def parse (url : String) : Except PyError HostUrl :=
  if (schemeText .http).isPrefixOf url.toList then readHost .http (url.toList.drop 7)
  else if (schemeText .https).isPrefixOf url.toList then readHost .https (url.toList.drop 8)
  else .error (.other "InvalidURL")

theorem readPort_text (u : HostUrl) :
    readPort u.scheme (portText u.port) = .ok ⟨u.port, u.port_ne⟩ := by
  rcases u with ⟨s, host, _ | p, hhost, hport⟩
  · rfl
  · have hdigits : (Nat.toDigits 10 p).all Char.isDigit = true :=
      List.all_eq_true.mpr fun c hc => Nat.isDigit_of_mem_toDigits (by decide) (by decide) hc
    have hp : p ≠ s.port := fun heq => hport (congrArg some heq)
    simp [portText, readPort, hdigits, Nat.ofDigitChars_ten_toDigits, ofPort, hp]

theorem readHost_text (u : HostUrl) :
    readHost u.scheme (u.host++portText u.port) = .ok u := by
  have hplain : ∀ c ∈ u.host, decide (c ≠ ':') = true := fun c hc =>
    decide_eq_true (u.host_plain c hc)
  have htail : (portText u.port).takeWhile (· ≠ ':') = [] ∧
      (portText u.port).dropWhile (· ≠ ':') = portText u.port := by
    cases u.port <;> simp [portText]
  have htake : (u.host++portText u.port).takeWhile (· ≠ ':') = u.host := by
    rw [List.takeWhile_append_of_pos hplain, htail.1, List.append_nil]
  have hdrop : (u.host++portText u.port).dropWhile (· ≠ ':') = portText u.port := by
    rw [List.dropWhile_append_of_pos hplain, htail.2]
  simp only [readHost, hdrop, readPort_text, htake]
  rfl

theorem parse_text (u : HostUrl) : parse u.text = .ok u := by
  rw [← readHost_text u]
  cases hs : u.scheme with
  | http => simp [parse, text, schemeText, hs]
  | https => simp [parse, text, schemeText, hs]

theorem parse_of_text (u : HostUrl) (url : String) (h : u.text = url) : parse url = .ok u := by
  rw [← h, parse_text]

end HostUrl

def hostUrls : UrlLibrary where
  Url := HostUrl
  parse := HostUrl.parse
  text := HostUrl.text
  scheme := HostUrl.scheme
  port := HostUrl.port
  copyWithPort u p := { u with port := HostUrl.ofPort u.scheme p, port_ne := HostUrl.ofPort_ne _ _ }
  parse_text := HostUrl.parse_text
  port_ne := HostUrl.port_ne
  copy_scheme _ _ := rfl
  copy_port _ _ := rfl

/-- Two models from a base URL with a port. -/
theorem two_started : StartedWhereLooked hostUrls "http://localhost:8000" ["a", "b"] := by
  let u : HostUrl :=
    ⟨.http, ['l', 'o', 'c', 'a', 'l', 'h', 'o', 's', 't'], some 8000, by simp, by decide⟩
  have hparse : HostUrl.parse "http://localhost:8000" = .ok u :=
    u.parse_of_text _ (by decide +kernel)
  apply (startedWhereLooked_iff hostUrls "http://localhost:8000" u hparse ["a", "b"]).mpr
  refine Or.inr ⟨8000, rfl, by decide, fun i hi hn => ?_⟩
  show 8000+i ≠ 80
  omega

/-- Without a port the server is launched on 8000 and looked for on 80. -/
theorem portless_misplaced : ¬ StartedWhereLooked hostUrls "http://test" ["tinyllama-chat"] := by
  let u : HostUrl := ⟨.http, ['t', 'e', 's', 't'], none, by simp, by decide⟩
  have hparse : HostUrl.parse "http://test" = .ok u := u.parse_of_text _ (by decide +kernel)
  intro h
  obtain ⟨run, hrun, hlaunched, hmapping⟩ :=
    run_fresh hostUrls "http://test" u hparse ["tinyllama-chat"] (List.cons_ne_nil _ _)
  have hin : ("tinyllama-chat", 8000) ∈ launched run.actions := by
    rw [hlaunched]
    exact List.mem_singleton.mpr rfl
  obtain ⟨v, hv, haddressed⟩ := (h freshEnvironment run hrun (List.ne_nil_of_mem hin)).2.2.2
    _ _ hin "http://test" (Or.inr ⟨_, hmapping, List.mem_singleton.mpr rfl⟩)
  obtain rfl := Except.ok.inj (hparse.symm.trans hv)
  cases haddressed

end InferenceX.ServerControl
