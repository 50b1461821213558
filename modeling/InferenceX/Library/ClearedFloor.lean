import Mathlib

/-!
# The highest cleared floor

Entries stand on floors, and a value clears those that are not above it. A
scan over the entries from the lowest floor up stops at the first one that is
not cleared. It finds an entry on the highest cleared floor, or one on the
lowest floor if none is cleared.
-/

set_option autoImplicit false

namespace Library.ClearedFloor

variable {A K : Type*} [LinearOrder K] (floor : A → K)

def Cleared (v : K) (entries : List A) (t : A) : Prop :=
  t ∈ entries ∧
    (floor t ≤ v ∧ (∀ a ∈ entries, floor a ≤ v → floor a ≤ floor t) ∨
      (∀ a ∈ entries, v < floor a) ∧ ∀ a ∈ entries, floor t ≤ floor a)

/-- `for entry in entries: if v >= floor: matched = entry else: break`. -/
def scan (v : K) (matched : A) : List A → A
  | [] => matched
  | a::rest => if floor a ≤ v then scan v a rest else matched

section Spec
variable {floor} {v v' : K} {entries : List A} {t t' : A}

theorem Cleared.perm {others : List A} (h : Cleared floor v entries t)
    (hperm : others.Perm entries) : Cleared floor v others t := by
  simpa only [Cleared, hperm.mem_iff] using h

theorem Cleared.mono (h : Cleared floor v entries t) (h' : Cleared floor v' entries t')
    (hv : v ≤ v') : floor t ≤ floor t' := by
  obtain ⟨ht, ⟨hle, -⟩ | ⟨-, hlow⟩⟩ := h
  · obtain ⟨-, ⟨-, hhigh⟩ | ⟨hnone, -⟩⟩ := h'
    · exact hhigh t ht (hle.trans hv)
    · exact absurd (hle.trans hv) (not_le.mpr (hnone t ht))
  · exact hlow t' h'.1

end Spec

section Scan
variable (v : K)

/-- Behind a cleared entry the scan finds the highest cleared floor. -/
theorem scan_cleared (matched : A) (entries : List A) (hle : floor matched ≤ v)
    (hs : (matched::entries).Pairwise fun a b => floor a ≤ floor b) :
    Cleared floor v (matched::entries) (scan floor v matched entries) := by
  induction entries generalizing matched with
  | nil =>
    refine ⟨List.mem_cons_self, Or.inl ⟨hle, fun a ha _ => ?_⟩⟩
    rw [List.mem_singleton.mp ha]
    exact le_rfl
  | cons a rest ih =>
    obtain ⟨hm, hrest⟩ := List.pairwise_cons.mp hs
    by_cases ha : floor a ≤ v
    · obtain ⟨hmem, hfound⟩ := ih a ha hrest
      rw [scan, if_pos ha]
      refine ⟨List.mem_cons_of_mem _ hmem, Or.inl ?_⟩
      rcases hfound with ⟨hcleared, hhigh⟩ | ⟨hnone, -⟩
      · refine ⟨hcleared, List.forall_mem_cons.mpr ⟨fun _ => ?_, hhigh⟩⟩
        exact (hm a List.mem_cons_self).trans (hhigh a List.mem_cons_self ha)
      · exact absurd ha (not_le.mpr (hnone a List.mem_cons_self))
    · -- Nothing behind the first uncleared entry is cleared.
      have habove : ∀ b ∈ a::rest, v < floor b := by
        intro b hb
        rcases List.mem_cons.mp hb with rfl | hb
        · exact not_le.mp ha
        · exact (not_le.mp ha).trans_le (List.rel_of_pairwise_cons hrest hb)
      rw [scan, if_neg ha]
      refine ⟨List.mem_cons_self, Or.inl ⟨hle, fun b hb hbv => ?_⟩⟩
      rcases List.mem_cons.mp hb with rfl | hb
      · exact le_rfl
      · exact absurd hbv (not_le.mpr (habove b hb))

theorem scan_head (first : A) (rest : List A)
    (hs : (first::rest).Pairwise fun a b => floor a ≤ floor b) :
    Cleared floor v (first::rest) (scan floor v first (first::rest)) := by
  by_cases hfirst : floor first ≤ v
  · rw [scan, if_pos hfirst]
    exact scan_cleared floor v first rest hfirst hs
  · rw [scan, if_neg hfirst]
    have hlow : ∀ a ∈ first::rest, floor first ≤ floor a :=
      List.forall_mem_cons.mpr ⟨le_rfl, fun a ha => List.rel_of_pairwise_cons hs ha⟩
    exact ⟨List.mem_cons_self, Or.inr ⟨fun a ha => (not_le.mp hfirst).trans_le (hlow a ha), hlow⟩⟩

end Scan

end Library.ClearedFloor
