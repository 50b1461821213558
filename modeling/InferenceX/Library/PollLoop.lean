import Mathlib

/-!
# Loops that poll

A loop polls until a poll stops it with a result. It returns the result of the
first poll that stops, at that poll and not before.
-/

set_option autoImplicit false

namespace Library.PollLoop
variable {R : Type*}

def poll (stop : ℕ → Option R) : ℕ → ℕ → Option R
  | 0, _ => none
  | fuel+1, i => (stop i).or (poll stop fuel (i+1))

def StopsAt (stop : ℕ → Option R) (k : ℕ) (r : R) : Prop :=
  ∀ fuel, poll stop fuel 0 = if k < fuel then some r else none

section Stops
variable {stop : ℕ → Option R} {k : ℕ} {r : R}

theorem poll_first (hfirst : ∀ j < k, stop j = none) (hr : stop k = some r) (i : ℕ) (hi : i ≤ k)
    (fuel : ℕ) : poll stop fuel i = if k < i+fuel then some r else none := by
  induction fuel generalizing i with
  | zero => rw [poll, if_neg (by omega)]
  | succ fuel ih =>
    rcases hi.eq_or_lt with rfl | hlt
    · rw [poll, hr, Option.some_or, if_pos (by omega)]
    · rw [poll, hfirst i hlt, Option.none_or, ih (i+1) hlt, Nat.add_right_comm, Nat.add_assoc]

theorem StopsAt.of_first (hfirst : ∀ j < k, stop j = none) (hr : stop k = some r) :
    StopsAt stop k r := by
  intro fuel
  rw [poll_first hfirst hr 0 (Nat.zero_le k) fuel, Nat.zero_add]

theorem StopsAt.result_unique {l : ℕ} {q : R} (h : StopsAt stop k r) (h' : StopsAt stop l q) :
    r = q := by
  have hk := h (k+l+1)
  have hl := h' (k+l+1)
  rw [if_pos (by omega)] at hk hl
  exact Option.some.inj (hk.symm.trans hl)

theorem StopsAt.index_le {l : ℕ} {q : R} (h : StopsAt stop k r) (h' : StopsAt stop l q) :
    l ≤ k := by
  have hk := h (k+1)
  have hl := h' (k+1)
  rw [if_pos (by omega)] at hk
  by_contra hlt
  rw [hk, if_neg (by omega)] at hl
  cases hl

theorem poll_none (hnone : ∀ n, stop n = none) (fuel i : ℕ) : poll stop fuel i = none := by
  induction fuel generalizing i with
  | zero => rfl
  | succ fuel ih => rw [poll, hnone i, Option.none_or, ih]

theorem exists_first (n : ℕ) (h : stop n ≠ none) :
    ∃ k r, stop k = some r ∧ ∀ j < k, stop j = none := by
  classical
  have hex : ∃ n, stop n ≠ none := ⟨n, h⟩
  obtain ⟨r, hr⟩ := Option.ne_none_iff_exists'.mp (Nat.find_spec hex)
  exact ⟨Nat.find hex, r, hr, fun j hj => not_not.mp (Nat.find_min hex hj)⟩

/-- What a loop returns is the result of the first poll that stops. -/
theorem StopsAt.first (h : StopsAt stop k r) : (∀ j < k, stop j = none) ∧ stop k = some r := by
  have hstops : ∃ n, stop n ≠ none := by
    by_contra hnone
    have hk := h (k+1)
    rw [if_pos (by omega), poll_none (by simpa using hnone)] at hk
    cases hk
  obtain ⟨n, hn⟩ := hstops
  obtain ⟨l, q, hq, hfirst⟩ := exists_first n hn
  have hl := StopsAt.of_first hfirst hq
  obtain rfl := le_antisymm (h.index_le hl) (hl.index_le h)
  obtain rfl := h.result_unique hl
  exact ⟨hfirst, hq⟩

end Stops

end Library.PollLoop
