import InferenceX.ServerLifetime

/-!
# The servers sessions leave behind

A session leaves a server only where it is quit between two of its launches,
and there it does leave all it has launched. What it kills it kills because it
launches servers itself: a session that finds its models served kills nothing.
-/

set_option autoImplicit false

namespace InferenceX.ServersLeft
open Library.StepRuns InferenceX.PythonValues InferenceX.ServerControl InferenceX.ServerLifetime

def spawnOf (l : String × ℕ) : Effect := .spawn l.1 l.2

theorem program_spawns (actions : List Action) :
    (actions.flatMap effects).filter Effect.isSpawn = (launched actions).map spawnOf := by
  induction actions with
  | nil => rfl
  | cons action actions ih =>
    have hsplit : launched (action::actions) = launched [action]++launched actions :=
      launched_append [action] actions
    rw [List.flatMap_cons, List.filter_append, ih, hsplit, List.map_append]
    cases action <;> rfl

theorem midLaunch_two {c : Session} (h : MidLaunch c) (r : Run) (hr : c.program = program r) :
    2 ≤ (launched r.actions).length := by
  obtain ⟨hsplit, ⟨d, hd, hds⟩, e, he, hes⟩ := h
  have hlen := congrArg List.length (program_spawns r.actions)
  have hprogram : r.actions.flatMap effects = c.done++c.pending := (hsplit.trans hr).symm
  rw [hprogram, List.filter_append, List.length_append, List.length_map] at hlen
  have hdone := List.length_pos_of_mem (List.mem_filter.mpr ⟨hd, hds⟩)
  have hpending := List.length_pos_of_mem (List.mem_filter.mpr ⟨he, hes⟩)
  omega

def Pauses (es : List Effect) : Prop := ∀ e ∈ es, e = .pause

theorem mapM_length {A B : Type} (f : A → Except PyError B) (xs : List A) (ys : List B)
    (h : xs.mapM f = .ok ys) : ys.length = xs.length := by
  simpa using (congrArg List.length (mapM_ok f xs ys h)).symm

section Launcher
variable (L : UrlLibrary) (env : Environment)

theorem launches_effects (ts : List Target) (actions : List Action)
    (h : ts.mapM (fun t => (L.parse t.url).map fun u =>
      Action.launch t.model (orDefault (L.port u)) t.logPath) = .ok actions) :
    actions.flatMap effects = (launched actions).map spawnOf ∧
      (launched actions).length = ts.length := by
  induction ts generalizing actions with
  | nil =>
    obtain rfl := Except.ok.inj h
    exact ⟨rfl, rfl⟩
  | cons t ts ih =>
    rw [List.mapM_cons] at h
    obtain ⟨action, haction, h⟩ := bind_ok h
    obtain ⟨rest, hrest, h⟩ := bind_ok h
    obtain rfl := Except.ok.inj h
    obtain ⟨u, -, rfl⟩ := map_ok haction
    obtain ⟨heffects, hlen⟩ := ih rest hrest
    constructor
    · rw [List.flatMap_cons, heffects]
      rfl
    · exact congrArg (· + 1) hlen

theorem awaitEach_pauses (ready : Target → Bool) (waiting : Target → List Action)
    (hw : ∀ t, ∀ action ∈ waiting t, Pauses (effects action)) (ts : List Target) :
    Pauses ((awaitEach env ready waiting ts).1.flatMap effects) := by
  intro e he
  obtain ⟨action, haction, he⟩ := List.mem_flatMap.mp he
  rcases mem_awaitEach env ready waiting ts action haction with ⟨t, -, ht⟩ | ⟨message, rfl⟩
  · exact hw t action ht e he
  · cases he

theorem awaitServers_pauses (ts : List Target) :
    Pauses ((awaitServers env ts).1.flatMap effects) :=
  awaitEach_pauses env _ _ (by simp [Pauses, effects]) ts

theorem awaitModels_pauses (ts : List Target) :
    Pauses ((awaitModels env ts).1.flatMap effects) :=
  awaitEach_pauses env _ _ (by simp [Pauses, effects]) ts

theorem launched_pauses (actions : List Action) (h : Pauses (actions.flatMap effects)) :
    launched actions = [] := by
  have hfilter : (actions.flatMap effects).filter Effect.isSpawn = [] := by
    refine List.filter_eq_nil_iff.mpr fun e he => ?_
    rw [h e he]
    exact Bool.false_ne_true
  rw [program_spawns] at hfilter
  exact List.map_eq_nil_iff.mp hfilter

/-- Stopping everything and launching a server for each target, with nothing
but waits behind. -/
theorem started_shape (wanted : List String) (ts : List Target) (hts : ts ≠ [])
    (started tail : List Action) (hs : startServers L wanted ts = .ok started)
    (ht : Pauses (tail.flatMap effects)) : launched (started++tail) ≠ [] ∧
      ∃ waits, Pauses waits ∧ (started++tail).flatMap effects =
        stopPlaygroundServer++((launched (started++tail)).map spawnOf++waits) := by
  obtain ⟨launches, hlaunches, hs⟩ := bind_ok hs
  obtain ⟨heffects, hlen⟩ := launches_effects L ts launches hlaunches
  have hlaunched : launched (started++tail) = launched launches := by
    rw [launched_append, launched_pauses tail ht, List.append_nil, ← Except.ok.inj hs]
    rfl
  rw [hlaunched]
  refine ⟨fun hnil => hts (List.length_eq_zero_iff.mp ?_), _, ht, ?_⟩
  · rw [← hlen, hnil, List.length_nil]
  · rw [List.flatMap_append, ← heffects, ← List.append_assoc, ← Except.ok.inj hs]
    rfl

/-- A run of the launcher only waits, or it stops everything, launches its
servers and waits then. -/
theorem program_shape (baseUrl : String) (models : List String) (r : Run)
    (h : ensureModelsLoaded L env baseUrl models = .ok r) :
    Pauses (program r) ∨ launched r.actions ≠ [] ∧ ∃ waits, Pauses waits ∧
      program r = stopPlaygroundServer++((launched r.actions).map spawnOf++waits) := by
  rw [ensureModelsLoaded] at h
  dsimp only at h
  by_cases hnil : models.eraseDups = []
  · rw [if_pos hnil] at h
    rw [← Except.ok.inj h]
    exact .inl (List.forall_mem_nil _)
  rw [if_neg hnil] at h
  obtain ⟨ts, hts, h⟩ := bind_ok h
  obtain ⟨loaded, -, h⟩ := bind_ok h
  have hmodels := awaitModels_pauses env ts
  cases loaded with
  | true =>
    rw [← Except.ok.inj h]
    exact .inl hmodels
  | false =>
    obtain ⟨started, hstarted, h⟩ := bind_ok h
    have hservers := awaitServers_pauses env ts
    have hsome : ts ≠ [] := by
      rw [← List.length_pos_iff, mapM_length _ _ _ hts, List.length_zipIdx, List.length_pos_iff]
      exact hnil
    refine .inr ?_
    cases hup : (awaitServers env ts).2 with
    | true =>
      have hboth : Pauses (((awaitServers env ts).1++(awaitModels env ts).1).flatMap effects) := by
        rw [List.flatMap_append]
        exact fun e he => (List.mem_append.mp he).elim (hservers e) (hmodels e)
      have hshape := started_shape L _ ts hsome started _ hstarted hboth
      rw [← List.append_assoc] at hshape
      simp only [Bool.false_eq_true, if_false, hup, if_true] at h
      rw [← Except.ok.inj h]
      exact hshape
    | false =>
      simp only [Bool.false_eq_true, if_false, hup] at h
      rw [← Except.ok.inj h]
      exact started_shape L _ ts hsome started _ hstarted hservers

end Launcher

section Runs
variable (commands : List (List Char)) (es : List Event) (m : Machine)
  (killed : List (List Process)) (h : run step (fresh commands) es = some (m, killed))
include h

/-- However sessions interleave, one that has ended leaves a server or a worker
only where it ended between two of its launches. -/
theorem servers_left (s : ℕ) (c : Session) (hc : m.sessions s = some c) (hend : c.phase = .ended)
    (p : Process) (hp : p ∈ m.processes) (ho : p.owner = some s) :
    ∃ r, .begins s r ∈ es ∧ 2 ≤ (launched r.actions).length ∧ c.done++c.pending = program r ∧
      Spawned c.done ∧ Spawned c.pending := by
  have hstanding := (run_kept commands es m killed h s).session hc
  rw [Standing, hend] at hstanding
  have hmid : MidLaunch c := hstanding ⟨p, hp, ho⟩
  obtain ⟨r, hr, hprogram⟩ := run_program commands es m killed h s c hc
  exact ⟨r, hr, midLaunch_two hmid r hprogram, hmid.1.trans hprogram, hmid.2⟩

omit h in
/-- A session quit behind the first of two launches. -/
theorem servers_left_first :
    let r : Run := ⟨[.stop, .launch "a" 8000 "", .launch "b" 8001 ""], none⟩
    ∃ m killed c, run step (fresh []) [.begins 0 r, .acts 0, .acts 0, .acts 0, .acts 0, .quits 0] =
        some (m, killed) ∧
      m.sessions 0 = some c ∧ ⟨serverCommand 8000, some 0⟩ ∈ m.processes ∧ Spawned c.pending := by
  intro r
  have hrun : ∃ m killed c, run step (fresh [])
      [.begins 0 r, .acts 0, .acts 0, .acts 0, .acts 0, .quits 0] = some (m, killed) ∧
      m.sessions 0 = some c ∧ c.phase = .ended ∧ ⟨serverCommand 8000, some 0⟩ ∈ m.processes :=
    ⟨_, _, _, rfl, rfl, rfl, List.mem_singleton.mpr rfl⟩
  obtain ⟨m, killed, c, hrun, hc, hend, hp⟩ := hrun
  obtain ⟨-, -, -, -, -, hpending⟩ := servers_left [] _ m killed hrun 0 c hc hend _ hp rfl
  exact ⟨m, killed, c, hrun, hc, hp, hpending⟩

/-- A process is killed only by a session that stops everything before it
launches its own servers. One that finds its models served kills nothing, not
even when it is quit. -/
theorem killer_launches (hl : ∀ s r, .begins s r ∈ es → ∃ L env baseUrl models,
      ensureModelsLoaded L env baseUrl models = .ok r) (m' : Machine) (e : Event)
    (o : List Process) (hs : step m e = some (m', o)) (ho : o ≠ []) :
    ∃ s r, e = .acts s ∧ .begins s r ∈ es ∧ launched r.actions ≠ [] := by
  cases e with
  | begins t r =>
    obtain ⟨-, rfl, -⟩ := step_begins hs
    exact absurd rfl ho
  | quits t =>
    obtain ⟨c, d, -, -, -, rfl⟩ := step_quits hs
    exact absurd rfl ho
  | works server detail =>
    rw [step] at hs
    split_ifs at hs
    obtain ⟨-, rfl⟩ := step_inj hs
    exact absurd rfl ho
  | appears command =>
    obtain ⟨-, rfl⟩ := step_inj hs
    exact absurd rfl ho
  | exits p =>
    obtain ⟨-, rfl⟩ := step_inj hs
    exact absurd rfl ho
  | acts s =>
    obtain ⟨c, e, d, hc, hn, -, rfl⟩ := step_acts hs
    obtain ⟨r, hr, hprogram⟩ := run_program commands es m killed h s c hc
    obtain ⟨L, env, baseUrl, models, hrun⟩ := hl s r hr
    refine ⟨s, r, rfl, hr, ?_⟩
    rcases program_shape L env baseUrl models r hrun with hpauses | ⟨hlaunched, -⟩
    · -- a program of waits never gets to a cleanup either
      exfalso
      have hnone : ¬ Spawned c.program := by
        rintro ⟨e, he, hspawn⟩
        rw [hpauses e (hprogram ▸ he)] at hspawn
        cases hspawn
      have hstanding := (run_kept commands es m killed h s).session hc
      obtain ⟨programOf, done, pending, started, phase⟩ := c
      cases phase with
      | running =>
        cases pending with
        | nil => cases hn
        | cons e' rest =>
          obtain ⟨rfl, -⟩ := Prod.mk.inj (Option.some.inj hn)
          have hmem : e' ∈ program r := by
            rw [← hprogram]
            exact hstanding.1 ▸ List.mem_append_right _ (List.mem_cons_self ..)
          rw [hpauses e' hmem] at ho
          exact ho rfl
      | cleaning => exact hnone hstanding.1
      | ended => cases pending <;> cases hn
    · exact hlaunched

end Runs

def localhost : HostUrl :=
  ⟨.http, ['l', 'o', 'c', 'a', 'l', 'h', 'o', 's', 't'], some 8000, by simp, by decide⟩

theorem localhost_parse : HostUrl.parse "http://localhost:8000" = .ok localhost :=
  localhost.parse_of_text _ (by decide +kernel)

/-- The first thing a session that launches a server does to another one. -/
theorem killer_launches_other :
    ∃ r m m' o, run step (fresh [serverPattern]) [.begins 0 r] = some (m, [[]]) ∧
      step m (.acts 0) = some (m', o) ∧ o = [⟨serverPattern, none⟩] ∧ launched r.actions ≠ [] := by
  obtain ⟨r, hr, hlaunched, -⟩ := run_fresh hostUrls "http://localhost:8000" localhost
    localhost_parse ["a"] (by simp)
  have hsome : launched r.actions ≠ [] := by
    rw [hlaunched]
    exact List.cons_ne_nil _ _
  obtain ⟨rest, hprogram⟩ : ∃ rest, program r = stopPlaygroundServer++rest := by
    rcases program_shape hostUrls _ _ _ r hr with hpauses | ⟨-, waits, -, hsplit⟩
    · exact absurd (launched_pauses r.actions hpauses) hsome
    · exact ⟨_, hsplit⟩
  have hrun : run step (fresh [serverPattern]) [.begins 0 r] =
      some ((fresh [serverPattern]).set 0 ⟨program r, [], program r, false, .running⟩
        (fresh [serverPattern]).processes, [[]]) := rfl
  have hstep : ∃ m', step ((fresh [serverPattern]).set 0
      ⟨program r, [], program r, false, .running⟩ (fresh [serverPattern]).processes) (.acts 0) =
      some (m', [⟨serverPattern, none⟩]) := by
    rw [hprogram]
    exact ⟨_, rfl⟩
  obtain ⟨m', hstep⟩ := hstep
  have hbegun : ∀ s q, Event.begins s q ∈ [Event.begins 0 r] → ∃ L env baseUrl models,
      ensureModelsLoaded L env baseUrl models = .ok q := by
    intro s q hq
    obtain ⟨-, rfl⟩ := Event.begins.inj (List.mem_singleton.mp hq)
    exact ⟨_, _, _, _, hr⟩
  obtain ⟨s, q, -, hq, hq'⟩ := killer_launches _ _ _ _ hrun hbegun m' _ _ hstep
    (List.cons_ne_nil _ _)
  obtain ⟨-, rfl⟩ := Event.begins.inj (List.mem_singleton.mp hq)
  exact ⟨q, _, m', _, hrun, hstep, rfl, hq'⟩

def performAll (s : ℕ) (ps : List Process) (es : List Effect) : List Process :=
  es.foldl (fun ps e => (perform s ps e).1) ps

theorem performAll_spawns (s : ℕ) (ps : List Process) (ls : List (String × ℕ)) :
    performAll s ps (ls.map spawnOf) = ps++ls.map fun l => ⟨serverCommand l.2, some s⟩ := by
  induction ls generalizing ps with
  | nil => exact (List.append_nil ps).symm
  | cons l ls ih =>
    rw [List.map_cons, List.map_cons, List.append_cons]
    exact ih _

/-- A session alone goes through its program, unmarked while a launch is left. -/
theorem acts_front (s : ℕ) (whole front back : List Effect) (hb : Spawned back) (done : List Effect)
    (m : Machine) (hm : m.sessions s = some ⟨whole, done, front++back, false, .running⟩) :
    ∃ m' killed, run step m (List.replicate front.length (.acts s)) = some (m', killed) ∧
      m'.sessions s = some ⟨whole, done++front, back, false, .running⟩ ∧
      m'.processes = performAll s m.processes front := by
  induction front generalizing done m with
  | nil => exact ⟨m, [], rfl, by simpa using hm, rfl⟩
  | cons e front ih =>
    have hrest : (front++back).any Effect.isSpawn = true := by
      obtain ⟨b, hb, hspawn⟩ := hb
      exact List.any_eq_true.mpr ⟨b, List.mem_append_right _ hb, hspawn⟩
    have hstep : step m (.acts s) = some (m.set s ⟨whole, done++[e], front++back, false, .running⟩
        (perform s m.processes e).1, (perform s m.processes e).2) := by
      simp [step, hm, Session.next, hrest]
    obtain ⟨m', killed, hrun, hsession, hprocesses⟩ := ih (done++[e]) _ (set_self m s _ _)
    refine ⟨m', (perform s m.processes e).2::killed, ?_, ?_, hprocesses⟩
    · exact (run_cons_iff _ _ _ _ _).mpr ⟨_, _, _, hstep, hrun, rfl⟩
    · rw [hsession, List.append_assoc]
      rfl

/-- For every point between two launches there is a run in which the session is
quit there, and exactly the servers launched by then are left. -/
theorem servers_left_each (L : UrlLibrary) (env : Environment) (baseUrl : String)
    (models : List String) (r : Run) (hr : ensureModelsLoaded L env baseUrl models = .ok r)
    (commands : List (List Char)) (k : ℕ) (h0 : 0 < k) (hk : k < (launched r.actions).length) :
    ∃ es m killed c, run step (fresh commands) es = some (m, killed) ∧
      m.sessions 0 = some c ∧ c.phase = .ended ∧ .begins 0 r ∈ es ∧
      m.processes = (performAll 0 (fresh commands).processes stopPlaygroundServer)++
        ((launched r.actions).take k).map fun l => ⟨serverCommand l.2, some 0⟩ := by
  have hsome : launched r.actions ≠ [] := List.ne_nil_of_length_pos (h0.trans hk)
  obtain ⟨waits, hsplit⟩ : ∃ waits, program r =
      stopPlaygroundServer++((launched r.actions).map spawnOf++waits) := by
    rcases program_shape L env baseUrl models r hr with hpauses | ⟨-, waits, -, hsplit⟩
    · exact absurd (launched_pauses r.actions hpauses) hsome
    · exact ⟨waits, hsplit⟩
  let front := stopPlaygroundServer++((launched r.actions).take k).map spawnOf
  let back := ((launched r.actions).drop k).map spawnOf++waits
  have hprogram : program r = front++back := by
    rw [hsplit, ← List.take_append_drop k (launched r.actions), List.map_append]
    simp only [front, back, List.append_assoc]
  have hback : Spawned back := by
    obtain ⟨l, rest, hl⟩ := List.exists_cons_of_length_pos
      (l := (launched r.actions).drop k) (by rw [List.length_drop]; omega)
    refine ⟨spawnOf l, ?_, rfl⟩
    simp only [back, hl, List.map_cons, List.cons_append, List.mem_cons, true_or]
  let begun := (fresh commands).set 0 ⟨program r, [], program r, false, .running⟩
    (fresh commands).processes
  have hbegun : begun.sessions 0 = some ⟨program r, [], front++back, false, .running⟩ := by
    rw [← hprogram]
    exact set_self _ _ _ _
  obtain ⟨m, killed, hrun, hsession, hprocesses⟩ := acts_front 0 _ front back hback [] begun hbegun
  have hquit : step m (.quits 0) = some (m.set 0 ⟨program r, front, back, false, .ended⟩
      m.processes, []) := by
    simp [step, hsession, Session.quit]
  have hall := run_append _ _ _ _ [.quits 0] _ _ hrun
    ((run_cons_iff _ _ _ _ _).mpr ⟨_, _, _, hquit, rfl, rfl⟩)
  refine ⟨.begins 0 r::(List.replicate front.length (.acts 0)++[.quits 0]), _, _, _,
    (run_cons_iff _ _ _ _ _).mpr ⟨begun, [], _, rfl, hall, rfl⟩, set_self _ _ _ _, rfl,
    List.mem_cons_self .., ?_⟩
  have hfold : performAll 0 begun.processes front = performAll 0
      (performAll 0 begun.processes stopPlaygroundServer)
      (((launched r.actions).take k).map spawnOf) := List.foldl_append
  exact hprocesses.trans (hfold.trans (performAll_spawns 0 _ _))

theorem servers_left_each_two : ∃ r es m killed c,
    run step (fresh []) es = some (m, killed) ∧ m.sessions 0 = some c ∧ c.phase = .ended ∧
      .begins 0 r ∈ es ∧ m.processes = [⟨serverCommand 8000, some 0⟩] := by
  obtain ⟨r, hr, hlaunched, -⟩ := run_fresh hostUrls "http://localhost:8000" localhost
    localhost_parse ["a", "b"] (by simp)
  have htwo : launched r.actions = [("a", 8000), ("b", 8001)] := by
    rw [hlaunched]
    decide
  obtain ⟨es, m, killed, c, hrun, hc, hend, hbegins, hprocesses⟩ :=
    servers_left_each hostUrls _ _ _ r hr [] 1 (by decide) (by rw [htwo]; decide)
  rw [htwo] at hprocesses
  exact ⟨r, es, m, killed, c, hrun, hc, hend, hbegins, hprocesses⟩

end InferenceX.ServersLeft
