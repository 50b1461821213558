import InferenceX.Library.BoundedHistory
import InferenceX.MetricsSummary

/-!
# The record buffer and its history

Appending and clearing leave the last records since the last clear, as many as
the buffer holds. The most recent ones are a slice from a negated count, and a
count of zero is not negative, so zero records are asked for and all are given.
-/

set_option autoImplicit false

namespace InferenceX.RecordBuffer
open Library.BoundedHistory
open InferenceX.MetricsRecording InferenceX.MetricsSummary

/-- `items[start:]`. -/
def sliceFrom {A : Type} (items : List A) (start : ℤ) : List A :=
  if start < 0 then items.drop (items.length+start).toNat else items.drop start.toNat

def clear (s : InMemoryStorage) : InMemoryStorage := ⟨s.maxRecords, [], Nat.zero_le _⟩

def recent (s : InMemoryStorage) (n : ℤ) : List RequestRecord :=
  if n ≤ s.buf.length then sliceFrom s.buf (-n) else s.buf

def len (s : InMemoryStorage) : ℕ := s.buf.length

def operate (s : InMemoryStorage) : Operation RequestRecord → InMemoryStorage
  | .append record => s.append record
  | .clear => clear s

def after (k : ℕ) (ops : List (Operation RequestRecord)) : InMemoryStorage :=
  ops.foldl operate (.create k)

theorem operate_capacity (s : InMemoryStorage) (op : Operation RequestRecord) :
    (operate s op).maxRecords = s.maxRecords := by
  cases op with
  | append record => rfl
  | clear => rfl

theorem operate_all (s : InMemoryStorage) (op : Operation RequestRecord) :
    (operate s op).all = (op.record s.all).rtake s.maxRecords := by
  cases op with
  | append record =>
    show (s.buf++[record]).drop (s.buf.length+1-s.maxRecords) = _
    rw [Operation.record, List.rtake, List.length_append, List.length_singleton]
    rfl
  | clear => exact (List.rtake_nil _).symm

theorem after_all (k : ℕ) (ops : List (Operation RequestRecord)) :
    (after k ops).all = (history ops).rtake k :=
  (holds_history operate InMemoryStorage.all InMemoryStorage.maxRecords operate_capacity operate_all
    (.create k) rfl ops).2

theorem after_len (k : ℕ) (ops : List (Operation RequestRecord)) :
    len (after k ops) = min k (history ops).length := by
  rw [← length_rtake, ← after_all]
  rfl

/-- The end of a buffer of `n` records, unless none are asked for. -/
theorem recent_eq (s : InMemoryStorage) (n : ℕ) :
    recent s n = if n = 0 then s.all else s.all.rtake n := by
  have hall : s.buf = s.all := rfl
  rw [recent, hall]
  by_cases hzero : n = 0
  · rw [if_pos hzero, hzero]
    simp [sliceFrom]
  · rw [if_neg hzero]
    split_ifs with hle
    · have hneg : -(n : ℤ) < 0 := by omega
      rw [sliceFrom, if_pos hneg, List.rtake]
      congr 1
      omega
    · exact (rtake_full _ _ (by omega)).symm

/-- The buffer is the end of the history, and the most recent records are the
end of the buffer exactly where some are asked for or there are none. -/
theorem buffer_refines (k : ℕ) (hk : 1 ≤ k) (ops : List (Operation RequestRecord)) :
    (after k ops).all = (history ops).rtake (min k (history ops).length) ∧
    len (after k ops) = min k (history ops).length ∧
    ∀ n : ℕ, recent (after k ops) n = (after k ops).all.rtake (min n (len (after k ops))) ↔
      n ≠ 0 ∨ history ops = [] := by
  refine ⟨(after_all k ops).trans (rtake_min _ k).symm, after_len k ops, fun n => ?_⟩
  have hlen : len (after k ops) = (after k ops).all.length := rfl
  rw [recent_eq, hlen, rtake_min]
  by_cases hzero : n = 0
  · rw [if_pos hzero, hzero, List.rtake_zero, after_all]
    have hempty : (history ops).rtake k = [] ↔ history ops = [] := by
      rw [← List.length_eq_zero_iff, length_rtake, ← List.length_eq_zero_iff]
      omega
    simpa using hempty
  · exact iff_of_true (if_neg hzero) (Or.inl hzero)

theorem buffer_refines_full :
    recent (after 2 [.append (served 1), .append (served 2), .append (served 3)]) 1 =
      [served 3] := by
  have hiff := (buffer_refines 2 (by decide)
    [.append (served 1), .append (served 2), .append (served 3)]).2.2 1
  exact hiff.mpr (Or.inl (by decide))

/-- Asked for no record, a buffer of one gives it. -/
theorem none_recent : recent (after 1000 [.append (served 10)]) 0 = [served 10] ∧
    recent (after 1000 [.append (served 10)]) 0 ≠
      (after 1000 [.append (served 10)]).all.rtake
        (min 0 (len (after 1000 [.append (served 10)]))) :=
  ⟨rfl, List.cons_ne_nil _ _⟩

end InferenceX.RecordBuffer
