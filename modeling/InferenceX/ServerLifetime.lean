import InferenceX.Library.StepRuns
import InferenceX.ServerControl

/-!
# The lifetime of the playground's servers

A playground session launches servers, marks that it has once all are launched
and stops them when it is quit, where the mark is set. Stopping is `pkill` on
two patterns, so it stops the servers of everyone. Sessions, servers and
engine workers interleave in any order, and a session may be quit at any point.
-/

set_option autoImplicit false

namespace InferenceX.ServerLifetime
open Library.StepRuns InferenceX.ServerControl

/-- A process by its command line. Its owner is the session that launched it
or the server that started it. -/
structure Process where
  command : List Char
  owner : Option ℕ
  deriving DecidableEq

/-- The pattern at the start of a text; a dot stands for any character. -/
def matchesAt : List Char → List Char → Bool
  | [], _ => true
  | _::_, [] => false
  | p::ps, c::cs => (p == '.' || p == c) && matchesAt ps cs

def found (pattern text : List Char) : Bool := text.tails.any (matchesAt pattern)

/-- `[u]vicorn inference_x.api.main:app`. -/
def serverPattern : List Char := "uvicorn inference_x.api.main:app".toList

/-- `VLLM::Engine[C]ore`. -/
def workerPattern : List Char := "VLLM::EngineCore".toList

def serverCommand (port : ℕ) : List Char :=
  "uv run ".toList++("uvicorn inference_x.api.main:app".toList++
    (" --host 127.0.0.1 --port ".toList++(toString port).toList))

theorem matchesAt_append (pattern rest : List Char) :
    matchesAt pattern (pattern++rest) = true := by
  induction pattern with
  | nil => rfl
  | cons p pattern ih => simp [matchesAt, ih]

theorem found_of_infix (pattern front rest : List Char) :
    found pattern (front++(pattern++rest)) = true :=
  List.any_eq_true.mpr ⟨pattern++rest, (List.mem_tails _ _).mpr ⟨front, rfl⟩,
    matchesAt_append pattern rest⟩

theorem serverCommand_found (port : ℕ) : found serverPattern (serverCommand port) = true :=
  found_of_infix serverPattern _ _

theorem worker_found (detail : List Char) : found workerPattern (workerPattern++detail) = true :=
  found_of_infix workerPattern [] detail

inductive Effect where
  | pkill (pattern : List Char)
  | spawn (model : String) (port : ℕ)
  | pause
  deriving DecidableEq

def stopPlaygroundServer : List Effect := [.pkill serverPattern, .pkill workerPattern, .pause]

def effects : Action → List Effect
  | .status _ => []
  | .logLine _ => []
  | .stop => stopPlaygroundServer
  | .launch model port _ => [.spawn model port]
  | .awaitHealth _ _ => [.pause]
  | .awaitModel _ _ => [.pause]

def program (run : Run) : List Effect := run.actions.flatMap effects

def Effect.isSpawn : Effect → Bool
  | .spawn _ _ => true
  | _ => false

inductive Phase where
  | running
  | cleaning
  | ended
  deriving DecidableEq

structure Session where
  program : List Effect
  done : List Effect
  pending : List Effect
  started : Bool
  phase : Phase

/-- The next effect, and the session behind it. The mark is set right behind
the last launch, and taken back at the end of the cleanup. -/
def Session.next (c : Session) : Option (Effect × Session) :=
  match c.phase, c.pending with
  | .running, e::rest => some (e, { c with
      done := c.done++[e]
      pending := rest
      started := c.started || (e.isSpawn && !rest.any Effect.isSpawn) })
  | .cleaning, [e] => some (e, { c with pending := [], started := false, phase := .ended })
  | .cleaning, e::rest => some (e, { c with pending := rest })
  | _, _ => none

/-- The session is quit or an exception ends it; either way `main` goes on to
`cleanup_playground_server_if_started_sync`. -/
def Session.quit (c : Session) : Option Session :=
  match c.phase with
  | .running =>
    some (if c.started then { c with pending := stopPlaygroundServer, phase := .cleaning }
      else { c with phase := .ended })
  | _ => none

structure Machine where
  processes : List Process
  sessions : ℕ → Option Session

inductive Event where
  | begins (s : ℕ) (run : Run)
  | acts (s : ℕ)
  | quits (s : ℕ)
  | works (server : Process) (detail : List Char)
  | appears (command : List Char)
  | exits (p : Process)

def perform (s : ℕ) (ps : List Process) : Effect → List Process × List Process
  | .pkill pattern => (ps.filter fun p => !found pattern p.command,
      ps.filter fun p => found pattern p.command)
  | .spawn _ port => (ps++[⟨serverCommand port, some s⟩], [])
  | .pause => (ps, [])

def Machine.set (m : Machine) (s : ℕ) (c : Session) (ps : List Process) : Machine :=
  ⟨ps, Function.update m.sessions s (some c)⟩

def step (m : Machine) : Event → Option (Machine × List Process)
  | .begins s run =>
    match m.sessions s with
    | none => some (m.set s ⟨program run, [], program run, false, .running⟩ m.processes, [])
    | some _ => none
  | .acts s => do
    let (e, c) ← (← m.sessions s).next
    return (m.set s c (perform s m.processes e).1, (perform s m.processes e).2)
  | .quits s => do
    let c ← (← m.sessions s).quit
    return (m.set s c m.processes, [])
  | .works server detail =>
    if server ∈ m.processes ∧ found serverPattern server.command = true then
      some (⟨m.processes++[⟨workerPattern++detail, server.owner⟩], m.sessions⟩, [])
    else none
  | .appears command => some (⟨m.processes++[⟨command, none⟩], m.sessions⟩, [])
  | .exits p => some (⟨m.processes.erase p, m.sessions⟩, [])

def fresh (commands : List (List Char)) : Machine :=
  ⟨commands.map fun command => ⟨command, none⟩, fun _ => none⟩

def Spawned (es : List Effect) : Prop := ∃ e ∈ es, e.isSpawn = true

def MidLaunch (c : Session) : Prop :=
  c.done++c.pending = c.program ∧ Spawned c.done ∧ Spawned c.pending

def Owns (s : ℕ) (ps : List Process) : Prop := ∃ p ∈ ps, p.owner = some s

def Standing (s : ℕ) (ps : List Process) (c : Session) : Prop :=
  match c.phase with
  | .running => c.done++c.pending = c.program ∧
      (c.started = true ↔ Spawned c.done ∧ ¬ Spawned c.pending) ∧ (Owns s ps → Spawned c.done)
  | .cleaning => Spawned c.program ∧ (c.pending = stopPlaygroundServer ∨
      (c.pending = [.pkill workerPattern, .pause] ∧
        ∀ p ∈ ps, p.owner = some s → found serverPattern p.command = false) ∨
      (c.pending = [.pause] ∧ ¬ Owns s ps))
  | .ended => Owns s ps → MidLaunch c

def Kept (s : ℕ) (m : Machine) : Prop :=
  (∀ p ∈ m.processes, p.owner = some s →
    found serverPattern p.command = true ∨ found workerPattern p.command = true) ∧
  match m.sessions s with
  | none => ¬ Owns s m.processes
  | some c => Standing s m.processes c

section Keep
variable (s : ℕ)

theorem Standing.fewer {ps qs : List Process} {c : Session} (h : Standing s ps c)
    (hsub : ∀ p ∈ qs, p.owner = some s → p ∈ ps) : Standing s qs c := by
  have howns : Owns s qs → Owns s ps := by
    rintro ⟨p, hp, ho⟩
    exact ⟨p, hsub p hp ho, ho⟩
  revert h
  rw [Standing, Standing]
  cases c.phase with
  | running => exact fun h => ⟨h.1, h.2.1, fun ho => h.2.2 (howns ho)⟩
  | cleaning =>
    rintro ⟨hspawned, h | ⟨h, hnone⟩ | ⟨h, hnone⟩⟩
    · exact ⟨hspawned, .inl h⟩
    · exact ⟨hspawned, .inr (.inl ⟨h, fun p hp ho => hnone p (hsub p hp ho) ho⟩)⟩
    · exact ⟨hspawned, .inr (.inr ⟨h, fun ho => hnone (howns ho)⟩)⟩
  | ended => exact fun h ho => h (howns ho)

theorem Standing.worker {ps : List Process} {c : Session} (h : Standing s ps c)
    (server : Process) (hs : server ∈ ps) (hfound : found serverPattern server.command = true)
    (ho : server.owner = some s) (p : Process) : Standing s (ps++[p]) c := by
  have howns : Owns s ps := ⟨server, hs, ho⟩
  revert h
  rw [Standing, Standing]
  cases c.phase with
  | running => exact fun h => ⟨h.1, h.2.1, fun _ => h.2.2 howns⟩
  | cleaning =>
    rintro ⟨hspawned, h | ⟨h, hnone⟩ | ⟨h, hnone⟩⟩
    · exact ⟨hspawned, .inl h⟩
    · rw [hnone server hs ho] at hfound
      cases hfound
    · exact absurd howns hnone
  | ended => exact fun h _ => h howns

/-- A step that only takes processes of the session away keeps its invariant. -/
theorem Kept.fewer {m m' : Machine} (h : Kept s m) (hsame : m'.sessions s = m.sessions s)
    (hsub : ∀ p ∈ m'.processes, p.owner = some s → p ∈ m.processes) : Kept s m' := by
  obtain ⟨hknown, h⟩ := h
  refine ⟨fun p hp ho => hknown p (hsub p hp ho) ho, ?_⟩
  rw [hsame]
  revert h
  cases m.sessions s with
  | none =>
    rintro h ⟨p, hp, ho⟩
    exact h ⟨p, hsub p hp ho, ho⟩
  | some c => exact fun h => h.fewer s hsub

theorem perform_owner (t : ℕ) (ps : List Process) (e : Effect) (p : Process)
    (h : p ∈ (perform t ps e).1) : p ∈ ps ∨ p.owner = some t := by
  cases e with
  | pkill pattern => exact .inl (List.mem_of_mem_filter h)
  | spawn model port =>
    rcases List.mem_append.mp h with h | h
    · exact .inl h
    · rw [List.mem_singleton.mp h]
      exact .inr rfl
  | pause => exact .inl h

theorem perform_known (ps : List Process) (e : Effect)
    (h : ∀ p ∈ ps, p.owner = some s →
      found serverPattern p.command = true ∨ found workerPattern p.command = true) :
    ∀ p ∈ (perform s ps e).1, p.owner = some s →
      found serverPattern p.command = true ∨ found workerPattern p.command = true := by
  cases e with
  | pkill pattern => exact fun p hp => h p (List.mem_of_mem_filter hp)
  | spawn model port =>
    intro p hp ho
    rcases List.mem_append.mp hp with hp | hp
    · exact h p hp ho
    · rw [List.mem_singleton.mp hp]
      exact .inl (serverCommand_found port)
  | pause => exact h

theorem spawned_append (es : List Effect) (e : Effect) :
    Spawned (es++[e]) ↔ Spawned es ∨ e.isSpawn = true := by
  simp [Spawned, or_and_right, exists_or]

theorem spawned_cons (es : List Effect) (e : Effect) :
    Spawned (e::es) ↔ e.isSpawn = true ∨ Spawned es := by
  simp [Spawned]

theorem any_isSpawn (es : List Effect) : es.any Effect.isSpawn = true ↔ Spawned es :=
  List.any_eq_true

theorem Standing.acts {ps : List Process} {c : Session} (h : Standing s ps c) (e : Effect)
    (d : Session) (hn : c.next = some (e, d))
    (hknown : ∀ p ∈ ps, p.owner = some s →
      found serverPattern p.command = true ∨ found workerPattern p.command = true) :
    Standing s (perform s ps e).1 d := by
  obtain ⟨program, done, pending, started, phase⟩ := c
  cases phase with
  | running =>
    cases pending with
    | nil => cases hn
    | cons e' rest =>
      obtain ⟨rfl, rfl⟩ := Prod.mk.inj (Option.some.inj hn)
      obtain ⟨hprogram, hstarted, howns⟩ := h
      refine ⟨by simpa using hprogram, ?_, ?_⟩
      · simp only [Bool.or_eq_true, Bool.and_eq_true, Bool.not_eq_true', ← Bool.not_eq_true,
          any_isSpawn, spawned_append]
        rw [hstarted, spawned_cons]
        tauto
      · rintro ⟨p, hp, ho⟩
        rw [spawned_append]
        cases e' with
        | pkill pattern => exact .inl (howns ⟨p, List.mem_of_mem_filter hp, ho⟩)
        | spawn model port => exact .inr rfl
        | pause => exact .inl (howns ⟨p, hp, ho⟩)
  | cleaning =>
    obtain ⟨hspawned, rfl | ⟨rfl, hnone⟩ | ⟨rfl, hnone⟩⟩ := h
    · obtain ⟨rfl, rfl⟩ := Prod.mk.inj (Option.some.inj hn)
      refine ⟨hspawned, .inr (.inl ⟨rfl, fun p hp _ => ?_⟩)⟩
      simpa using (List.mem_filter.mp hp).2
    · obtain ⟨rfl, rfl⟩ := Prod.mk.inj (Option.some.inj hn)
      refine ⟨hspawned, .inr (.inr ⟨rfl, ?_⟩)⟩
      rintro ⟨p, hp, ho⟩
      obtain ⟨hp, hlost⟩ := List.mem_filter.mp hp
      rcases hknown p hp ho with hf | hf
      · rw [hnone p hp ho] at hf
        cases hf
      · rw [hf] at hlost
        cases hlost
    · obtain ⟨rfl, rfl⟩ := Prod.mk.inj (Option.some.inj hn)
      exact fun ho => absurd ho hnone
  | ended => cases pending <;> cases hn

/-- Quitting: what is not cleaned up is left between two launches. -/
theorem Standing.quits {ps : List Process} {c : Session} (h : Standing s ps c) (d : Session)
    (hq : c.quit = some d) : Standing s ps d := by
  obtain ⟨program, done, pending, started, phase⟩ := c
  cases phase with
  | running =>
    obtain rfl := Option.some.inj hq
    obtain ⟨hprogram, hstarted, howns⟩ := h
    cases started with
    | true =>
      obtain ⟨e, he, hspawn⟩ := (hstarted.mp rfl).1
      exact ⟨⟨e, hprogram ▸ List.mem_append_left _ he, hspawn⟩, .inl rfl⟩
    | false =>
      intro ho
      refine ⟨hprogram, howns ho, ?_⟩
      by_contra hpending
      exact absurd (hstarted.mpr ⟨howns ho, hpending⟩) Bool.false_ne_true
  | cleaning => cases hq
  | ended => cases hq

end Keep

theorem step_begins {m m' : Machine} {s : ℕ} {run : Run} {o : List Process}
    (h : step m (.begins s run) = some (m', o)) : m.sessions s = none ∧ o = [] ∧
      m' = m.set s ⟨program run, [], program run, false, .running⟩ m.processes := by
  rw [step] at h
  split at h
  · obtain ⟨rfl, rfl⟩ := step_inj h
    exact ⟨‹_›, rfl, rfl⟩
  · cases h

theorem step_acts {m m' : Machine} {s : ℕ} {o : List Process}
    (h : step m (.acts s) = some (m', o)) : ∃ c e d, m.sessions s = some c ∧
      c.next = some (e, d) ∧ m' = m.set s d (perform s m.processes e).1 ∧
      o = (perform s m.processes e).2 := by
  obtain ⟨c, hc, h⟩ := Option.bind_eq_some_iff.mp h
  obtain ⟨⟨e, d⟩, hd, h⟩ := Option.bind_eq_some_iff.mp h
  obtain ⟨rfl, rfl⟩ := step_inj h
  exact ⟨c, e, d, hc, hd, rfl, rfl⟩

theorem step_quits {m m' : Machine} {s : ℕ} {o : List Process}
    (h : step m (.quits s) = some (m', o)) : ∃ c d, m.sessions s = some c ∧ c.quit = some d ∧
      m' = m.set s d m.processes ∧ o = [] := by
  obtain ⟨c, hc, h⟩ := Option.bind_eq_some_iff.mp h
  obtain ⟨d, hd, h⟩ := Option.bind_eq_some_iff.mp h
  obtain ⟨rfl, rfl⟩ := step_inj h
  exact ⟨c, d, hc, hd, rfl, rfl⟩

theorem set_self (m : Machine) (s : ℕ) (c : Session) (ps : List Process) :
    (m.set s c ps).sessions s = some c := Function.update_self _ _ _

theorem set_other (m : Machine) (s t : ℕ) (h : s ≠ t) (c : Session) (ps : List Process) :
    (m.set t c ps).sessions s = m.sessions s := Function.update_of_ne h _ _

theorem Kept.session {s : ℕ} {m : Machine} (h : Kept s m) {c : Session}
    (hc : m.sessions s = some c) : Standing s m.processes c := by
  have hstanding := h.2
  rwa [hc] at hstanding

theorem step_kept (s : ℕ) (m m' : Machine) (e : Event) (o : List Process) (hk : Kept s m)
    (h : step m e = some (m', o)) : Kept s m' := by
  cases e with
  | begins t run =>
    obtain ⟨hnone, -, rfl⟩ := step_begins h
    by_cases hst : s = t
    · subst hst
      have howns := hk.2
      rw [hnone] at howns
      refine ⟨hk.1, ?_⟩
      rw [set_self]
      exact ⟨rfl, by simp [Spawned], fun ho => absurd ho howns⟩
    · exact hk.fewer s (set_other m s t hst _ _) fun p hp _ => hp
  | acts t =>
    obtain ⟨c, e, d, hc, hn, rfl, -⟩ := step_acts h
    by_cases hst : s = t
    · subst hst
      refine ⟨perform_known s m.processes e hk.1, ?_⟩
      rw [set_self]
      exact (hk.session hc).acts s e d hn hk.1
    · refine hk.fewer s (set_other m s t hst _ _) fun p hp ho => ?_
      rcases perform_owner t m.processes e p hp with hp | hp
      · exact hp
      · exact absurd (Option.some.inj (ho.symm.trans hp)) hst
  | quits t =>
    obtain ⟨c, d, hc, hq, rfl, -⟩ := step_quits h
    by_cases hst : s = t
    · subst hst
      refine ⟨hk.1, ?_⟩
      rw [set_self]
      exact (hk.session hc).quits s d hq
    · exact hk.fewer s (set_other m s t hst _ _) fun p hp _ => hp
  | works server detail =>
    rw [step] at h
    split_ifs at h with hserver
    obtain ⟨rfl, -⟩ := step_inj h
    by_cases ho : server.owner = some s
    · refine ⟨fun p hp hpo => ?_, ?_⟩
      · rcases List.mem_append.mp hp with hp | hp
        · exact hk.1 p hp hpo
        · rw [List.mem_singleton.mp hp]
          exact .inr (worker_found detail)
      · have hstanding := hk.2
        cases hc : m.sessions s with
        | none =>
          rw [hc] at hstanding
          exact absurd ⟨server, hserver.1, ho⟩ hstanding
        | some c => exact (hk.session hc).worker s server hserver.1 hserver.2 ho _
    · refine hk.fewer s rfl fun p hp hpo => ?_
      rcases List.mem_append.mp hp with hp | hp
      · exact hp
      · rw [List.mem_singleton.mp hp] at hpo
        exact absurd hpo ho
  | appears command =>
    obtain ⟨rfl, -⟩ := step_inj h
    refine hk.fewer s rfl fun p hp hpo => ?_
    rcases List.mem_append.mp hp with hp | hp
    · exact hp
    · rw [List.mem_singleton.mp hp] at hpo
      cases hpo
  | exits p =>
    obtain ⟨rfl, -⟩ := step_inj h
    exact hk.fewer s rfl fun q hq _ => List.mem_of_mem_erase hq

theorem fresh_kept (commands : List (List Char)) (s : ℕ) : Kept s (fresh commands) := by
  have hothers : ∀ p ∈ (fresh commands).processes, p.owner = none := by
    intro p hp
    obtain ⟨command, -, rfl⟩ := List.mem_map.mp hp
    rfl
  constructor
  · intro p hp ho
    rw [hothers p hp] at ho
    cases ho
  · rintro ⟨p, hp, ho⟩
    rw [hothers p hp] at ho
    cases ho

theorem run_kept (commands : List (List Char)) (es : List Event) (m : Machine)
    (killed : List (List Process)) (h : run step (fresh commands) es = some (m, killed)) (s : ℕ) :
    Kept s m :=
  run_preserves (fun _ => True) (Kept s) (fun m e t o _ hk hs => step_kept s m t e o hk hs)
    (fresh commands) m es killed (fun _ _ => trivial) (fresh_kept commands s) h

theorem next_program {c d : Session} {e : Effect} (h : c.next = some (e, d)) :
    d.program = c.program := by
  rw [Session.next] at h
  split at h
  · obtain ⟨-, rfl⟩ := step_inj h
    rfl
  · obtain ⟨-, rfl⟩ := step_inj h
    rfl
  · obtain ⟨-, rfl⟩ := step_inj h
    rfl
  · cases h

theorem quit_program {c d : Session} (h : c.quit = some d) : d.program = c.program := by
  rw [Session.quit] at h
  split at h
  · rw [← Option.some.inj h]
    split_ifs <;> rfl
  · cases h

/-- A session goes through the program of the run with which it began. -/
theorem run_program (commands : List (List Char)) (es : List Event) (m : Machine)
    (killed : List (List Process)) (h : run step (fresh commands) es = some (m, killed)) :
    ∀ s c, m.sessions s = some c → ∃ r, .begins s r ∈ es ∧ c.program = program r := by
  refine run_history (fun es _ m => ∀ s c, m.sessions s = some c →
    ∃ r, .begins s r ∈ es ∧ c.program = program r) ?_ (fresh commands) m es killed
    (fun _ _ hc => by cases hc) h
  intro es os m e m' o hm hs s c hc
  have hold : ∀ c, m.sessions s = some c → ∃ r, .begins s r ∈ es++[e] ∧ c.program = program r := by
    intro c hc
    obtain ⟨r, hr, hp⟩ := hm s c hc
    exact ⟨r, List.mem_append_left _ hr, hp⟩
  cases e with
  | begins t r =>
    obtain ⟨-, -, rfl⟩ := step_begins hs
    by_cases hst : s = t
    · subst hst
      rw [set_self] at hc
      rw [← Option.some.inj hc]
      exact ⟨r, by simp, rfl⟩
    · rw [set_other m s t hst] at hc
      exact hold c hc
  | acts t =>
    obtain ⟨c', e, d, hc', hn, rfl, -⟩ := step_acts hs
    by_cases hst : s = t
    · subst hst
      rw [set_self] at hc
      rw [← Option.some.inj hc, next_program hn]
      exact hold c' hc'
    · rw [set_other m s t hst] at hc
      exact hold c hc
  | quits t =>
    obtain ⟨c', d, hc', hq, rfl, -⟩ := step_quits hs
    by_cases hst : s = t
    · subst hst
      rw [set_self] at hc
      rw [← Option.some.inj hc, quit_program hq]
      exact hold c' hc'
    · rw [set_other m s t hst] at hc
      exact hold c hc
  | works server detail =>
    rw [step] at hs
    split_ifs at hs
    obtain ⟨rfl, -⟩ := step_inj hs
    exact hold c hc
  | appears command =>
    obtain ⟨rfl, -⟩ := step_inj hs
    exact hold c hc
  | exits p =>
    obtain ⟨rfl, -⟩ := step_inj hs
    exact hold c hc

end InferenceX.ServerLifetime
