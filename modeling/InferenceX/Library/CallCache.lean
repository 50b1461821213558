import InferenceX.Library.StepRuns

/-!
# A cached factory

A cache of one entry over a factory, without a lock: a call that finds nothing
runs the factory, and so do those that come while it runs. The first to return
is kept for the calls to come; the later ones keep what they made. Instances
are numbered in the order in which they are made.
-/

set_option autoImplicit false

namespace Library.CallCache
open Library.StepRuns

variable {C : Type}

structure Cache (C : Type) where
  kept : Option ℕ
  made : ℕ
  running : List C
  given : List (C × ℕ)

def empty : Cache C := ⟨none, 0, [], []⟩

inductive Event (C : Type) where
  | call (c : C)
  | returned (c : C)
  | raised (c : C)
  deriving DecidableEq

inductive Outcome where
  | gave (k : ℕ)
  | missed
  | raised
  deriving DecidableEq

def Cache.give (s : Cache C) (c : C) (k : ℕ) : Cache C := { s with given := (c, k)::s.given }

section Steps
variable [DecidableEq C]

def Cache.finish (s : Cache C) (c : C) : Cache C where
  kept := some (s.kept.getD s.made)
  made := s.made+1
  running := s.running.erase c
  given := (c, s.made)::s.given

def step (s : Cache C) : Event C → Option (Cache C × Outcome)
  | .call c =>
    if c ∈ s.running then none
    else
      match s.kept with
      | some k => some (s.give c k, .gave k)
      | none => some ({ s with running := c::s.running }, .missed)
  | .returned c => if c ∈ s.running then some (s.finish c, .gave s.made) else none
  | .raised c =>
    if c ∈ s.running then some ({ s with running := s.running.erase c }, .raised) else none

inductive Stepped (s : Cache C) : Event C → Cache C → Prop
  | hit (c : C) (k : ℕ) (hk : s.kept = some k) : Stepped s (.call c) (s.give c k)
  | missed (c : C) (hk : s.kept = none) :
      Stepped s (.call c) { s with running := c::s.running }
  | finished (c : C) (hc : c ∈ s.running) : Stepped s (.returned c) (s.finish c)
  | raised (c : C) (hc : c ∈ s.running) :
      Stepped s (.raised c) { s with running := s.running.erase c }

theorem step_stepped (s t : Cache C) (e : Event C) (o : Outcome) (h : step s e = some (t, o)) :
    Stepped s e t := by
  cases e with
  | call c =>
    simp only [step] at h
    split_ifs at h
    split at h
    · rename_i k hk
      obtain ⟨rfl, -⟩ := step_inj h
      exact .hit c k hk
    · rename_i hk
      obtain ⟨rfl, -⟩ := step_inj h
      exact .missed c hk
  | returned c =>
    simp only [step] at h
    split_ifs at h with hc
    obtain ⟨rfl, -⟩ := step_inj h
    exact .finished c hc
  | raised c =>
    simp only [step] at h
    split_ifs at h with hc
    obtain ⟨rfl, -⟩ := step_inj h
    exact .raised c hc

theorem step_made (s t : Cache C) (e : Event C) (o : Outcome) (h : step s e = some (t, o)) :
    s.made ≤ t.made := by
  cases step_stepped s t e o h with
  | finished c hc => exact Nat.le_succ _
  | _ => exact le_rfl

theorem step_given (s t : Cache C) (e : Event C) (o : Outcome) (h : step s e = some (t, o))
    (p : C × ℕ) (hp : p ∈ s.given) : p ∈ t.given := by
  cases step_stepped s t e o h with
  | hit c k hk => exact List.mem_cons_of_mem _ hp
  | finished c hc => exact List.mem_cons_of_mem _ hp
  | _ => exact hp

end Steps

def Event.isCall : Event C → Bool
  | .call _ => true
  | _ => false

def Event.isReturn : Event C → Bool
  | .returned _ => true
  | _ => false

def overlapping (es : List (Event C)) : ℕ :=
  (es.takeWhile fun e => !e.isReturn).countP Event.isCall

/-- The first instance is the one kept, any other is given to the call that made it,
and there are no more instances than calls that came before the first was there. -/
structure Sound (es : List (Event C)) (s : Cache C) : Prop where
  kept : s.kept = if s.made = 0 then none else some 0
  unmade : s.made = 0 → ∀ e ∈ es, Event.isReturn e = false
  given : ∀ p ∈ s.given, p.2 < s.made
  own : ∀ p ∈ s.given, ∀ q ∈ s.given, p.2 = q.2 → p.2 ≠ 0 → p = q
  bound : s.made+s.running.length ≤ overlapping es

theorem overlapping_append (es : List (Event C)) (e : Event C) :
    overlapping es ≤ overlapping (es++[e]) := by
  rw [overlapping, overlapping, List.takeWhile_append]
  split_ifs with h
  · rw [List.countP_append, List.IsPrefix.eq_of_length (List.takeWhile_prefix _) h]
    omega
  · exact le_rfl

theorem overlapping_call (es : List (Event C)) (c : C) (h : ∀ e ∈ es, Event.isReturn e = false) :
    overlapping (es++[.call c]) = overlapping es+1 := by
  have hall : ∀ e ∈ es, (!Event.isReturn e) = true := fun e he => by rw [h e he]; rfl
  have htake : es.takeWhile (fun e => !e.isReturn) = es := List.takeWhile_eq_self_iff.mpr hall
  rw [overlapping, overlapping, List.takeWhile_append, htake, if_pos rfl, List.countP_append]
  rfl

theorem step_sound [DecidableEq C] (es : List (Event C)) (s t : Cache C) (e : Event C) (o : Outcome)
    (h : Sound es s) (hstep : step s e = some (t, o)) : Sound (es++[e]) t := by
  have hmore := overlapping_append es e
  have hbound := h.bound
  cases step_stepped s t e o hstep with
  | hit c k hk =>
    have hkept := h.kept
    rw [hk] at hkept
    split_ifs at hkept with hmade
    obtain rfl := Option.some.inj hkept
    refine ⟨h.kept, fun hz => absurd hz hmade, ?_, ?_, hbound.trans hmore⟩
    · intro p hp
      rcases List.mem_cons.mp hp with rfl | hp
      · exact Nat.pos_of_ne_zero hmade
      · exact h.given p hp
    · intro p hp q hq hpq hne
      rcases List.mem_cons.mp hp with rfl | hp
      · exact absurd rfl hne
      · rcases List.mem_cons.mp hq with rfl | hq
        · exact absurd hpq hne
        · exact h.own p hp q hq hpq hne
  | missed c hk =>
    have hkept := h.kept
    rw [hk] at hkept
    split_ifs at hkept with hmade
    have hunmade := h.unmade hmade
    refine ⟨h.kept, fun _ f hf => ?_, h.given, h.own, ?_⟩
    · rcases List.mem_append.mp hf with hf | hf
      · exact hunmade f hf
      · obtain rfl := List.mem_singleton.mp hf
        rfl
    · rw [overlapping_call es c hunmade]
      show s.made+(s.running.length+1) ≤ _
      omega
  | finished c hc =>
    have hpos := List.length_pos_of_mem hc
    have hlen := List.length_erase_of_mem hc
    refine ⟨?_, fun hz => absurd hz (Nat.succ_ne_zero _), ?_, ?_, ?_⟩
    · show some (s.kept.getD s.made) = if s.made+1 = 0 then none else some 0
      rw [if_neg (Nat.succ_ne_zero _), h.kept]
      split_ifs with hmade
      · exact congrArg some hmade
      · rfl
    · intro p hp
      show p.2 < s.made+1
      rcases List.mem_cons.mp hp with rfl | hp
      · exact Nat.lt_succ_self _
      · exact (h.given p hp).trans (Nat.lt_succ_self _)
    · intro p hp q hq hpq hne
      rcases List.mem_cons.mp hp with rfl | hp
      · rcases List.mem_cons.mp hq with rfl | hq
        · rfl
        · exact absurd hpq.symm (h.given q hq).ne
      · rcases List.mem_cons.mp hq with rfl | hq
        · exact absurd hpq (h.given p hp).ne
        · exact h.own p hp q hq hpq hne
    · show s.made+1+(s.running.erase c).length ≤ _
      omega
  | raised c hc =>
    have hlen := List.length_erase_of_mem hc
    refine ⟨h.kept, fun hz f hf => ?_, h.given, h.own, ?_⟩
    · rcases List.mem_append.mp hf with hf | hf
      · exact h.unmade hz f hf
      · obtain rfl := List.mem_singleton.mp hf
        rfl
    · show s.made+(s.running.erase c).length ≤ _
      omega

theorem empty_sound : Sound (C := C) [] empty :=
  ⟨rfl, fun _ _ h => absurd h List.not_mem_nil, fun _ h => absurd h List.not_mem_nil,
    fun _ h => absurd h List.not_mem_nil, le_rfl⟩

section Races
variable [DecidableEq C]

theorem run_given (s t : Cache C) (es : List (Event C)) (os : List Outcome)
    (h : run step s es = some (t, os)) (p : C × ℕ) (hp : p ∈ s.given) : p ∈ t.given :=
  run_preserves (fun _ => True) (fun s => p ∈ s.given)
    (fun s e t o _ hs hstep => step_given s t e o hstep p hs) s t es os (fun _ _ => trivial) hp h

theorem run_calls (s : Cache C) (hk : s.kept = none) (cs : List C)
    (hn : (cs++s.running).Nodup) : ∃ os, run step s (cs.reverse.map Event.call) =
      some ({ s with running := cs++s.running }, os) := by
  induction cs with
  | nil => exact ⟨[], rfl⟩
  | cons c cs ih =>
    obtain ⟨hc, hn⟩ := List.nodup_cons.mp hn
    obtain ⟨os, hrun⟩ := ih hn
    have hlast : run step { s with running := cs++s.running } [.call c] =
        some ({ s with running := c::(cs++s.running) }, [.missed]) := by
      simp [run, step, hk, List.mem_append.not.mp hc]
    rw [List.reverse_cons, List.map_append]
    exact ⟨_, run_append _ _ _ _ _ _ _ hrun hlast⟩

theorem run_returns (cs : List C) (s : Cache C) (h : s.running = cs) :
    ∃ t os, run step s (cs.map Event.returned) = some (t, os) ∧ t.made = s.made+cs.length ∧
      t.running = [] ∧ ∀ k c, cs[k]? = some c → (c, s.made+k) ∈ t.given := by
  induction cs generalizing s with
  | nil => exact ⟨s, [], rfl, rfl, h, by simp⟩
  | cons c cs ih =>
    have hrest : (s.finish c).running = cs := by simp [Cache.finish, h]
    obtain ⟨t, os, hrun, hmade, hrunning, hgiven⟩ := ih (s.finish c) hrest
    have hstep : step s (.returned c) = some (s.finish c, .gave s.made) := by simp [step, h]
    refine ⟨t, .gave s.made::os, ?_, ?_, hrunning, fun k d hd => ?_⟩
    · exact (run_cons_iff _ _ _ _ _).mpr ⟨_, _, os, hstep, hrun, rfl⟩
    · rw [hmade, List.length_cons]
      show s.made+1+cs.length = _
      omega
    · rcases k with _ | k
      · obtain rfl := Option.some.inj hd
        exact run_given _ _ _ _ hrun _ List.mem_cons_self
      · have hk := hgiven k d hd
        rwa [show (s.finish c).made+k = s.made+(k+1) by
          show s.made+1+k = _
          omega] at hk

theorem run_hits (cs : List C) (s : Cache C) (hk : s.kept = some 0) (hr : s.running = []) :
    ∃ t os, run step s (cs.map Event.call) = some (t, os) ∧ t.made = s.made ∧
      ∀ c ∈ cs, (c, 0) ∈ t.given := by
  induction cs generalizing s with
  | nil => exact ⟨s, [], rfl, rfl, by simp⟩
  | cons c cs ih =>
    obtain ⟨t, os, hrun, hmade, hgiven⟩ := ih (s.give c 0) hk hr
    have hstep : step s (.call c) = some (s.give c 0, .gave 0) := by simp [step, hk, hr]
    refine ⟨t, .gave 0::os, ?_, hmade, ?_⟩
    · exact (run_cons_iff _ _ _ _ _).mpr ⟨_, _, os, hstep, hrun, rfl⟩
    · exact List.forall_mem_cons.mpr ⟨run_given _ _ _ _ hrun _ List.mem_cons_self, hgiven⟩

theorem run_sound (t : Cache C) (es : List (Event C)) (os : List Outcome)
    (h : run step empty es = some (t, os)) : Sound es t :=
  run_history (fun es _ s => Sound es s)
    (fun es _ s e t o hs hstep => step_sound es s t e o hs hstep) empty t es os empty_sound h

/-- Calls that overlap are each given an instance of their own, and later ones the first. -/
theorem races (cs later : List C) (hn : cs.Nodup) (hne : cs ≠ []) : ∃ es t os,
    run step empty es = some (t, os) ∧ t.made = cs.length ∧
      (∀ k c, cs[k]? = some c → (c, k) ∈ t.given) ∧ ∀ c ∈ later, (c, 0) ∈ t.given := by
  obtain ⟨os, hcalls⟩ := run_calls (C := C) empty rfl cs (by simpa [empty] using hn)
  obtain ⟨t, ps, hreturns, hmade, hrunning, hgiven⟩ :=
    run_returns cs { empty with running := cs++empty.running } (by simp [empty])
  have hboth := run_append _ _ _ _ _ _ _ hcalls hreturns
  have hlen : t.made = cs.length := by simpa [empty] using hmade
  have hkept : t.kept = some 0 := by
    rw [(run_sound t _ _ hboth).kept, if_neg]
    rw [hlen]
    exact fun hz => hne (List.length_eq_zero_iff.mp hz)
  obtain ⟨u, qs, hhits, hsame, hlater⟩ := run_hits later t hkept hrunning
  refine ⟨_, u, _, run_append _ _ _ _ _ _ _ hboth hhits, by rw [hsame, hlen], fun k c hc => ?_,
    hlater⟩
  have hk := hgiven k c hc
  rw [show ({ empty with running := cs++empty.running } : Cache C).made+k = k from
    Nat.zero_add k] at hk
  exact run_given _ _ _ _ hhits _ hk

end Races

end Library.CallCache
