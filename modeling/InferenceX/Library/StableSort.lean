import Mathlib

/-!
# What a stable sort leaves in place

Sorting by a total preorder commutes with selecting entries, so the entries
of one rank keep their order, and the first entry of a kind in the sorted
list is the earliest of the best of that kind in the list itself. Entries with
distinct keys have one sorted order. In a sorted list the entries up to a
bound are counted by their place.
-/

set_option autoImplicit false

namespace Library.StableSort
open List

/-- The earliest of the best entries is the front one, where no other is better,
or else that of the others, where it is better than the front one. -/
theorem earliest_cons {A : Type*} (r : A → A → Prop) (a x : A) (l : List A) :
    (∃ before after, a::l = before++x::after ∧ (∀ y ∈ before, ¬ r y x) ∧ ∀ y ∈ after, r x y) ↔
      (a = x ∧ ∀ y ∈ l, r x y) ∨ (¬ r a x ∧
        ∃ before after, l = before++x::after ∧ (∀ y ∈ before, ¬ r y x) ∧ ∀ y ∈ after, r x y) := by
  constructor
  · rintro ⟨before, after, hl, hbefore, hafter⟩
    cases before with
    | nil =>
      obtain ⟨rfl, rfl⟩ := cons.inj hl
      exact Or.inl ⟨rfl, hafter⟩
    | cons c before =>
      obtain ⟨rfl, htail⟩ := cons.inj hl
      obtain ⟨hc, hbefore⟩ := forall_mem_cons.mp hbefore
      exact Or.inr ⟨hc, before, after, htail, hbefore, hafter⟩
  · rintro (⟨rfl, hbest⟩ | ⟨hax, before, after, rfl, hbefore, hafter⟩)
    · exact ⟨[], l, rfl, forall_mem_nil _, hbest⟩
    · exact ⟨a::before, after, rfl, forall_mem_cons.mpr ⟨hax, hbefore⟩, hafter⟩

section Preorder
variable {A : Type*} (r : A → A → Prop) [DecidableRel r]

theorem head?_orderedInsert (a : A) (s : List A) :
    (s.orderedInsert r a).head? =
      match s.head? with
      | none => some a
      | some b => if r a b then some a else some b := by
  cases s with
  | nil => rfl
  | cons b s =>
    by_cases h : r a b
    · simp [h]
    · simp [h]

variable [IsTrans A r]

theorem filter_orderedInsert (p : A → Bool) (a : A) (s : List A) (hs : s.Pairwise r) :
    (s.orderedInsert r a).filter p =
      if p a then (s.filter p).orderedInsert r a else s.filter p := by
  induction s with
  | nil => by_cases ha : p a = true <;> simp [ha]
  | cons b s ih =>
    obtain ⟨hb, hs'⟩ := pairwise_cons.mp hs
    by_cases hab : r a b
    · rw [orderedInsert_cons_of_le r s hab, filter_cons]
      split_ifs with ha
      · -- All that stays stands behind `b`, so behind `a`.
        have hmin : ∀ c ∈ (b::s).filter p, r a c := by
          intro c hc
          rcases mem_cons.mp (mem_of_mem_filter hc) with rfl | hc
          · exact hab
          · exact IsTrans.trans a b c hab (hb c hc)
        cases hf : (b::s).filter p with
        | nil => rfl
        | cons c t =>
          rw [hf] at hmin
          exact (orderedInsert_cons_of_le r t (hmin c mem_cons_self)).symm
      · rfl
    · rw [orderedInsert_of_not_le r s hab, filter_cons, ih hs', filter_cons]
      by_cases ha : p a = true
      · by_cases hpb : p b = true
        · simp [ha, hpb, hab]
        · simp [ha, hpb]
      · by_cases hpb : p b = true
        · simp [ha, hpb]
        · simp [ha, hpb]

variable [Std.Total r]

theorem filter_insertionSort (p : A → Bool) (l : List A) :
    (l.insertionSort r).filter p = (l.filter p).insertionSort r := by
  induction l with
  | nil => rfl
  | cons a l ih =>
    rw [insertionSort_cons, filter_orderedInsert r p a _ (pairwise_insertionSort r l), ih]
    by_cases ha : p a = true
    · rw [if_pos ha, filter_cons_of_pos ha, insertionSort_cons]
    · rw [if_neg ha, filter_cons_of_neg ha]

theorem filter_level (p : A → Bool) (l : List A) (h : ∀ a ∈ l, ∀ b ∈ l, p a → p b → r a b) :
    (l.insertionSort r).filter p = l.filter p := by
  rw [filter_insertionSort]
  apply Pairwise.insertionSort_eq
  apply pairwise_of_forall_mem_list
  intro a ha b hb
  obtain ⟨ha, hpa⟩ := mem_filter.mp ha
  obtain ⟨hb, hpb⟩ := mem_filter.mp hb
  exact h a ha b hb hpa hpb

/-- Where only entries of one rank can break a relation, the sorted list keeps
it exactly where the list does among these entries. -/
theorem pairwise_level (p : A → Bool) (R : A → A → Prop) (l : List A)
    (hlevel : ∀ a ∈ l, ∀ b ∈ l, p a → p b → r a b)
    (hbroken : ∀ a ∈ l, ∀ b ∈ l, r a b → ¬ R a b → p a ∧ p b) :
    (l.insertionSort r).Pairwise R ↔ l.Pairwise fun a b => p a → p b → R a b := by
  rw [← pairwise_filter, ← filter_level r p l hlevel, pairwise_filter]
  constructor
  · exact Pairwise.imp fun h _ _ => h
  · intro h
    apply Pairwise.imp_of_mem _ (h.and (pairwise_insertionSort r l))
    rintro a b ha hb ⟨hR, hr⟩
    by_contra hn
    obtain ⟨hpa, hpb⟩ := hbroken a ((mem_insertionSort r).mp ha) b ((mem_insertionSort r).mp hb) hr hn
    exact hn (hR hpa hpb)

/-- The head of the sorted list is the earliest of the best entries. -/
theorem head?_insertionSort (l : List A) (x : A) :
    (l.insertionSort r).head? = some x ↔
      ∃ before after, l = before++x::after ∧ (∀ y ∈ before, ¬ r y x) ∧ ∀ y ∈ after, r x y := by
  induction l generalizing x with
  | nil => simp
  | cons a l ih =>
    rw [insertionSort_cons, head?_orderedInsert, earliest_cons, ← ih x]
    have hmem : ∀ y ∈ l, y ∈ l.insertionSort r := fun y hy => (mem_insertionSort r).mpr hy
    have hsorted := pairwise_insertionSort r l
    cases hs : l.insertionSort r with
    | nil =>
      rw [hs] at hmem
      simpa using fun _ y hy => absurd (hmem y hy) not_mem_nil
    | cons b s =>
      rw [hs] at hmem hsorted
      have hb : b ∈ l := (mem_insertionSort r).mp (hs ▸ mem_cons_self)
      by_cases hab : r a b
      · -- The front entry is no worse than the best of the others.
        have hbest : ∀ y ∈ l, r a y := by
          intro y hy
          rcases mem_cons.mp (hmem y hy) with rfl | hy
          · exact hab
          · exact IsTrans.trans a b y hab (rel_of_pairwise_cons hsorted hy)
        simp only [head?_cons, if_pos hab, Option.some.injEq]
        constructor
        · rintro rfl
          exact Or.inl ⟨rfl, hbest⟩
        · rintro (⟨rfl, -⟩ | ⟨hax, rfl⟩)
          · rfl
          · exact absurd hab hax
      · simp only [head?_cons, if_neg hab, Option.some.injEq]
        constructor
        · rintro rfl
          exact Or.inr ⟨hab, rfl⟩
        · rintro (⟨rfl, hbest⟩ | ⟨-, rfl⟩)
          · exact absurd (hbest b hb) hab
          · rfl

theorem find?_insertionSort (p : A → Bool) (l : List A) (x : A) :
    (l.insertionSort r).find? p = some x ↔
      ∃ before after, l = before++x::after ∧ p x ∧ (∀ y ∈ before, p y → ¬ r y x) ∧
        ∀ y ∈ after, p y → r x y := by
  rw [← head?_filter, filter_insertionSort, head?_insertionSort]
  constructor
  · rintro ⟨before, after, hl, hbefore, hafter⟩
    obtain ⟨front, rest, rfl, rfl, hrest⟩ := filter_eq_append_iff.mp hl
    obtain ⟨skipped, behind, rfl, hskipped, hx, rfl⟩ := filter_eq_cons_iff.mp hrest
    refine ⟨front++skipped, behind, by simp, hx, fun y hy hpy => ?_, fun y hy hpy => ?_⟩
    · rcases mem_append.mp hy with hy | hy
      · exact hbefore y (mem_filter.mpr ⟨hy, hpy⟩)
      · exact absurd hpy (hskipped y hy)
    · exact hafter y (mem_filter.mpr ⟨hy, hpy⟩)
  · rintro ⟨before, after, rfl, hx, hbefore, hafter⟩
    refine ⟨before.filter p, after.filter p, by simp [hx], fun y hy => ?_, fun y hy => ?_⟩
    · exact hbefore y (mem_of_mem_filter hy) (mem_filter.mp hy).2
    · exact hafter y (mem_of_mem_filter hy) (mem_filter.mp hy).2

end Preorder

/-- Entries with distinct keys are sorted to one list from any order. -/
theorem insertionSort_eq_of_perm {A K : Type*} [LinearOrder K] (key : A → K)
    [DecidableRel fun a b : A => key a ≤ key b] (xs ys : List A) (h : xs.Perm ys)
    (hd : (xs.map key).Nodup) :
    xs.insertionSort (fun a b => key a ≤ key b) = ys.insertionSort fun a b => key a ≤ key b := by
  have htotal : Std.Total fun a b : A => key a ≤ key b := ⟨fun a b => le_total (key a) (key b)⟩
  have htrans : IsTrans A fun a b => key a ≤ key b := ⟨fun _ _ _ hab hbc => hab.trans hbc⟩
  have hxs := perm_insertionSort (fun a b : A => key a ≤ key b) xs
  have hys := perm_insertionSort (fun a b : A => key a ≤ key b) ys
  apply Perm.eq_of_pairwise _ (pairwise_insertionSort _ xs) (pairwise_insertionSort _ ys)
    (hxs.trans (h.trans hys.symm))
  intro a b ha hb hab hba
  apply inj_on_of_nodup_map hd (hxs.mem_iff.mp ha) (h.mem_iff.mpr (hys.mem_iff.mp hb))
  exact le_antisymm hab hba

/-- The entries up to a bound reach past a place exactly where its entry is one of them. -/
theorem getElem_le_iff {A : Type*} [LinearOrder A] (l : List A) (hl : l.Pairwise (· ≤ ·)) (k : ℕ)
    (hk : k < l.length) (x : A) : l[k] ≤ x ↔ k < l.countP (· ≤ x) := by
  induction l generalizing k with
  | nil => cases hk
  | cons a l ih =>
    obtain ⟨ha, hl⟩ := pairwise_cons.mp hl
    by_cases hax : a ≤ x
    · rw [countP_cons_of_pos (by simpa using hax)]
      cases k with
      | zero => simp [hax]
      | succ k =>
        rw [getElem_cons_succ, ih hl k (Nat.succ_lt_succ_iff.mp hk)]
        exact Nat.succ_lt_succ_iff.symm
    · have hnone : (a::l).countP (· ≤ x) = 0 := by
        rw [countP_eq_zero]
        intro b hb
        rcases mem_cons.mp hb with rfl | hb
        · simpa using hax
        · simpa using (not_le.mp hax).trans_le (ha b hb)
      rw [hnone]
      refine iff_of_false (fun hle => hax ?_) (Nat.not_lt_zero k)
      cases k with
      | zero => exact hle
      | succ k => exact (ha _ (getElem_mem _)).trans hle

end Library.StableSort
