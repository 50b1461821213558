import Mathlib

/-!
# Runs of a partial step function with outputs

A step either is not enabled or gives the next state and one output. A run
is a list of events; its outputs are kept in order. Invariants may speak
about the history, that is about the events and outputs that led to a state.
-/

set_option autoImplicit false

namespace Library.StepRuns

variable {S E O : Type*}

def run (step : S → E → Option (S × O)) : S → List E → Option (S × List O)
  | s, [] => some (s, [])
  | s, e::es => (step s e).bind fun (t, o) => (run step t es).map fun (u, os) => (u, o::os)

theorem step_inj {t u : S} {o p : O} (h : some (t, o) = some (u, p)) : t = u ∧ o = p :=
  Prod.mk.inj (Option.some.inj h)

variable {step : S → E → Option (S × O)}

theorem run_cons_iff (s u : S) (e : E) (es : List E) (os : List O) :
    run step s (e::es) = some (u, os) ↔
      ∃ t o os', step s e = some (t, o) ∧ run step t es = some (u, os') ∧ os = o::os' := by
  constructor
  · intro h
    obtain ⟨⟨t, o⟩, ht, h⟩ := Option.bind_eq_some_iff.mp h
    obtain ⟨⟨u', os'⟩, hu, h⟩ := Option.map_eq_some_iff.mp h
    obtain ⟨rfl, rfl⟩ := Prod.mk.inj h
    exact ⟨t, o, os', ht, hu, rfl⟩
  · rintro ⟨t, o, os', ht, hu, rfl⟩
    simp [run, ht, hu]

theorem run_append (s t u : S) (es fs : List E) (os ps : List O)
    (h : run step s es = some (t, os)) (k : run step t fs = some (u, ps)) :
    run step s (es++fs) = some (u, os++ps) := by
  induction es generalizing s os with
  | nil =>
    obtain ⟨rfl, rfl⟩ := step_inj h
    exact k
  | cons e es ih =>
    obtain ⟨r, o, os', hr, ht, rfl⟩ := (run_cons_iff _ _ _ _ _).mp h
    exact (run_cons_iff _ _ _ _ _).mpr ⟨r, o, os'++ps, hr, ih r os' ht, rfl⟩

/-- What every step preserves about the history holds of the whole run. -/
theorem run_history (I : List E → List O → S → Prop)
    (hstep : ∀ es os s e t o, I es os s → step s e = some (t, o) → I (es++[e]) (os++[o]) t)
    (s u : S) (es : List E) (os : List O) (h0 : I [] [] s)
    (h : run step s es = some (u, os)) : I es os u := by
  suffices hg : ∀ (es : List E) (pre : List E) (post : List O) (s : S) (os : List O),
      I pre post s → run step s es = some (u, os) → I (pre++es) (post++os) u by
    simpa using hg es [] [] s os h0 h
  intro es
  induction es with
  | nil =>
    intro pre post s os hi hr
    obtain ⟨rfl, rfl⟩ := step_inj hr
    simpa using hi
  | cons e es ih =>
    intro pre post s os hi hr
    obtain ⟨t, o, os', ht, hu, rfl⟩ := (run_cons_iff _ _ _ _ _).mp hr
    have := ih (pre++[e]) (post++[o]) t os' (hstep pre post s e t o hi ht) hu
    simpa using this

theorem run_preserves (P : E → Prop) (I : S → Prop)
    (hstep : ∀ s e t o, P e → I s → step s e = some (t, o) → I t)
    (s u : S) (es : List E) (os : List O) (hP : ∀ e ∈ es, P e) (h0 : I s)
    (h : run step s es = some (u, os)) : I u := by
  induction es generalizing s os with
  | nil =>
    obtain ⟨rfl, -⟩ := step_inj h
    exact h0
  | cons e es ih =>
    obtain ⟨t, o, os', ht, hu, -⟩ := (run_cons_iff _ _ _ _ _).mp h
    exact ih t os' (fun f hf => hP f (by simp [hf])) (hstep s e t o (hP e (by simp)) h0 ht) hu

def Reachable (step : S → E → Option (S × O)) (s u : S) : Prop :=
  ∃ es os, run step s es = some (u, os)

end Library.StepRuns
