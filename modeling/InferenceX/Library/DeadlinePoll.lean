import InferenceX.Library.PollLoop

/-!
# Polling up to a deadline

A loop reads its clock before each poll and again behind it, and sleeps for its
interval or for the time that is left. So its timeout and its interval bound
the number of its polls, whatever they give.
-/

set_option autoImplicit false

namespace Library.DeadlinePoll
open Library.PollLoop

/-- The readings of one call: at its start, at the top of each pass and behind
the poll of that pass. A sleep lasts at least as long as it was asked to. -/
structure Clock (timeout interval : ℚ) where
  started : ℚ
  top : ℕ → ℚ
  polled : ℕ → ℚ
  started_le : started ≤ top 0
  top_le : ∀ k, top k ≤ polled k
  sleeps : ∀ k, polled k < started+timeout →
    polled k+min interval (started+timeout-polled k) ≤ top (k+1)

section Loop
variable {R : Type*} {timeout interval : ℚ} (c : Clock timeout interval)

def Clock.deadline : ℚ := c.started+timeout

def Clock.stop (found : ℕ → Option R) (late : R) (k : ℕ) : Option R :=
  if c.top k < c.deadline then
    (found k).or (if c.deadline ≤ c.polled k then some late else none)
  else some late

def Clock.loop (found : ℕ → Option R) (late : R) (fuel : ℕ) : Option R :=
  poll (c.stop found late) fuel 0

variable (found : ℕ → Option R) (late : R)

theorem stop_none (k : ℕ) : c.stop found late k = none ↔
    c.top k < c.deadline ∧ found k = none ∧ c.polled k < c.deadline := by
  rw [Clock.stop]
  split_ifs with ht hp
  · simp [ht, hp]
  · simp [ht, not_le.mp hp]
  · simp [ht]

theorem stop_some (k : ℕ) (r : R) (h : c.stop found late k = some r) :
    r = late ∨ c.top k < c.deadline ∧ found k = some r := by
  rw [Clock.stop] at h
  split_ifs at h with ht hp
  · cases hf : found k with
    | none =>
      rw [hf] at h
      exact Or.inl (Option.some.inj h).symm
    | some q =>
      rw [hf] at h
      exact Or.inr ⟨ht, h⟩
  · rw [Option.or_none] at h
    exact Or.inr ⟨ht, h⟩
  · exact Or.inl (Option.some.inj h).symm

/-- As long as no pass ends the loop, each lasts for an interval or to the deadline. -/
theorem passes_last (k : ℕ) (h : ∀ j < k, c.stop found late j = none) :
    c.started+k*interval ≤ c.top k ∨ c.deadline ≤ c.top k := by
  induction k with
  | zero => exact Or.inl (by simpa using c.started_le)
  | succ k ih =>
    obtain ⟨ht, -, hp⟩ := (stop_none c found late k).mp (h k (Nat.lt_succ_self k))
    have hsleep := c.sleeps k hp
    rcases le_total interval (c.started+timeout-c.polled k) with hle | hle
    · rw [min_eq_left hle] at hsleep
      rcases ih fun j hj => h j (Nat.lt_succ_of_lt hj) with hk | hk
      · have hmore := c.top_le k
        push_cast
        left
        linarith
      · exact absurd ht (not_lt.mpr hk)
    · rw [min_eq_right hle] at hsleep
      right
      rw [Clock.deadline]
      linarith

/-- The loop is over by the pass that the timeout leaves room for. -/
theorem stops_by (n : ℕ) (hn : timeout ≤ n*interval) :
    ∃ k ≤ n, ∃ r, c.stop found late k = some r ∧ ∀ j < k, c.stop found late j = none := by
  have hstop : ∃ m ≤ n, c.stop found late m ≠ none := by
    by_contra hnone
    push Not at hnone
    have hlast := passes_last c found late n fun j hj => hnone j hj.le
    obtain ⟨ht, -⟩ := (stop_none c found late n).mp (hnone n le_rfl)
    rw [Clock.deadline] at hlast ht
    rcases hlast with hlast | hlast
    · linarith
    · linarith
  obtain ⟨m, hm, hne⟩ := hstop
  obtain ⟨k, r, hr, hfirst⟩ := exists_first m hne
  have hk : k ≤ m := not_lt.mp fun hlt => hne (hfirst m hlt)
  exact ⟨k, hk.trans hm, r, hr, hfirst⟩

/-- With a pass for every interval and one more the loop returns, late or with
what a poll gave that began before the deadline. -/
theorem loop_returns (n : ℕ) (hn : timeout ≤ n*interval) :
    ∃ r, c.loop found late (n+1) = some r ∧
      (r = late ∨ ∃ k, c.top k < c.deadline ∧ found k = some r) := by
  obtain ⟨k, hk, r, hr, hfirst⟩ := stops_by c found late n hn
  have hat := StopsAt.of_first hfirst hr (n+1)
  rw [if_pos (by omega)] at hat
  exact ⟨r, hat, (stop_some c found late k r hr).imp_right fun h => ⟨k, h⟩⟩

theorem loop_found (n : ℕ) (hn : timeout ≤ n*interval) (k : ℕ) (r : R) (hr : found k = some r)
    (ht : c.top k < c.deadline)
    (hbefore : ∀ j < k, c.top j < c.deadline ∧ found j = none ∧ c.polled j < c.deadline) :
    c.loop found late (n+1) = some r := by
  have hstop : c.stop found late k = some r := by
    rw [Clock.stop, if_pos ht, hr, Option.some_or]
  have hfirst : ∀ j < k, c.stop found late j = none := fun j hj =>
    (stop_none c found late j).mpr (hbefore j hj)
  obtain ⟨m, hm, q, hsome, -⟩ := stops_by c found late n hn
  have hk : k ≤ m := by
    by_contra hlt
    rw [hfirst m (not_le.mp hlt)] at hsome
    cases hsome
  rw [Clock.loop, StopsAt.of_first hfirst hstop (n+1), if_pos (by omega)]

/-- The pass begins in time, and every one before it went to sleep in time. -/
def Clock.Reaches (k : ℕ) : Prop :=
  c.top k < c.deadline ∧ ∀ j < k, c.top j < c.deadline ∧ c.polled j < c.deadline

/-- Unless it is late, the loop returns what its first successful poll gave, in
a pass that it reached. -/
theorem loop_iff (n : ℕ) (hn : timeout ≤ n*interval) (r : R) (hr : r ≠ late) :
    c.loop found late (n+1) = some r ↔
      ∃ k, c.Reaches k ∧ found k = some r ∧ ∀ j < k, found j = none := by
  constructor
  · intro h
    obtain ⟨k, hk, q, hq, hfirst⟩ := stops_by c found late n hn
    have hat := StopsAt.of_first hfirst hq (n+1)
    rw [if_pos (by omega)] at hat
    obtain rfl : q = r := Option.some.inj (hat.symm.trans h)
    have hbefore := fun j hj => (stop_none c found late j).mp (hfirst j hj)
    rcases stop_some c found late k q hq with rfl | ⟨ht, hf⟩
    · exact absurd rfl hr
    · exact ⟨k, ⟨ht, fun j hj => ⟨(hbefore j hj).1, (hbefore j hj).2.2⟩⟩, hf,
        fun j hj => (hbefore j hj).2.1⟩
  · rintro ⟨k, ⟨ht, hbefore⟩, hf, hnone⟩
    exact loop_found c found late n hn k r hf ht fun j hj =>
      ⟨(hbefore j hj).1, hnone j hj, (hbefore j hj).2⟩

theorem reaches_earlier (j k : ℕ) (hj : j ≤ k) (hk : c.Reaches k) : c.Reaches j := by
  rcases hj.eq_or_lt with rfl | hlt
  · exact hk
  · exact ⟨(hk.2 j hlt).1, fun i hi => hk.2 i (hi.trans hlt)⟩

end Loop

end Library.DeadlinePoll
