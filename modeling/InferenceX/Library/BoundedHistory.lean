import Mathlib

/-!
# The last entries of a history

A history grows at its end and is cleared at times. A buffer of bounded size
that drops its oldest entry for a new one holds the last entries of it, as
many as it has room for.
-/

set_option autoImplicit false

namespace Library.BoundedHistory
open List

variable {A : Type*}

theorem length_rtake (xs : List A) (n : ℕ) : (xs.rtake n).length = min n xs.length := by
  rw [rtake, length_drop]
  omega

theorem rtake_full (xs : List A) (n : ℕ) (h : xs.length ≤ n) : xs.rtake n = xs := by
  rw [rtake, Nat.sub_eq_zero_of_le h, drop_zero]

theorem rtake_min (xs : List A) (n : ℕ) : xs.rtake (min n xs.length) = xs.rtake n := by
  rw [rtake, rtake]
  congr 1
  omega

theorem rtake_rtake (xs : List A) (m n : ℕ) : (xs.rtake m).rtake n = xs.rtake (min n m) := by
  rw [rtake, length_rtake, rtake, drop_drop, rtake]
  congr 1
  omega

/-- An entry more in a full buffer leaves the last ones of the longer history. -/
theorem rtake_snoc (xs : List A) (x : A) (n : ℕ) :
    (xs.rtake n++[x]).rtake n = (xs++[x]).rtake n := by
  rw [← rtake_concat_succ, rtake_rtake, Nat.min_eq_left n.le_succ]

inductive Operation (A : Type*) where
  | append (a : A)
  | clear

def Operation.record (past : List A) : Operation A → List A
  | .append a => past++[a]
  | .clear => []

def history (ops : List (Operation A)) : List A := ops.foldl Operation.record []

theorem history_snoc (ops : List (Operation A)) (op : Operation A) :
    history (ops++[op]) = op.record (history ops) := by
  rw [history, foldl_append]
  rfl

def appended (ops : List (Operation A)) : List A := ops.flatMap (Operation.record [])

theorem history_suffix (ops : List (Operation A)) : history ops <:+ appended ops := by
  induction ops using List.reverseRecOn with
  | nil => exact nil_suffix
  | append_singleton ops op ih =>
    have hlast : appended (ops++[op]) = appended ops++op.record [] := by
      rw [appended, flatMap_append, flatMap_singleton]
      rfl
    rw [history_snoc, hlast]
    cases op with
    | append a => exact suffix_append_self_iff.mpr ih
    | clear => exact nil_suffix

/-- A buffer that keeps its size, and the last entries at each step, keeps those
of the whole history. -/
theorem holds_history {S : Type*} (step : S → Operation A → S) (view : S → List A) (size : S → ℕ)
    (hsize : ∀ s op, size (step s op) = size s)
    (hstep : ∀ s op, view (step s op) = (op.record (view s)).rtake (size s))
    (start : S) (h0 : view start = []) (ops : List (Operation A)) :
    size (ops.foldl step start) = size start ∧
      view (ops.foldl step start) = (history ops).rtake (size start) := by
  induction ops using List.reverseRecOn with
  | nil => exact ⟨rfl, by rw [foldl_nil, h0, history, foldl_nil, rtake_nil]⟩
  | append_singleton ops op ih =>
    obtain ⟨hkept, hview⟩ := ih
    rw [foldl_append, foldl_cons, foldl_nil, hsize, hstep, hkept, hview, history_snoc]
    refine ⟨rfl, ?_⟩
    cases op with
    | append a => exact rtake_snoc _ a _
    | clear => rfl

end Library.BoundedHistory
