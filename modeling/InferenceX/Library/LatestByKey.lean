import InferenceX.Library.KeyedWrites

/-!
# The latest value under each key

A pass over values keeps under each key the first one of the highest rank. If
no two values of one key have one rank, what is kept depends on the values
alone and not on their order.
-/

set_option autoImplicit false

namespace Library.LatestByKey
open Library.KeyedWrites

variable {K V R : Type*} [DecidableEq K] [LinearOrder R] (key : V → K) (rank : V → R)

def keep (store : List (K × V)) (v : V) : List (K × V) :=
  match store.lookup (key v) with
  | none => put (key v, v) store
  | some w => if rank w < rank v then put (key v, v) store else store

def latest (vs : List V) : List (K × V) := vs.foldl (keep key rank) []

def Newest (vs : List V) (k : K) (v : V) : Prop :=
  v ∈ vs ∧ key v = k ∧ ∀ w ∈ vs, key w = k → rank w ≤ rank v

theorem lookup_cons_if (x : K × V) (store : List (K × V)) (k : K) :
    (x::store).lookup k = if k = x.1 then some x.2 else store.lookup k := by
  rw [List.lookup_cons]
  by_cases hk : k = x.1
  · rw [if_pos hk, beq_iff_eq.mpr hk]
  · rw [if_neg hk, beq_eq_false_iff_ne.mpr hk]

theorem lookup_put (e : K × V) (store : List (K × V)) (k : K) :
    (put e store).lookup k = if k = e.1 then some e.2 else store.lookup k := by
  induction store with
  | nil => exact lookup_cons_if e [] k
  | cons x xs ih =>
    rw [put]
    split_ifs with hx hk
    · rw [lookup_cons_if, if_pos hk]
    · rw [lookup_cons_if, if_neg hk, lookup_cons_if, if_neg (hx ▸ hk)]
    · rw [lookup_cons_if, if_neg fun hkx => hx (hkx.symm.trans ‹k = e.1›), ih, if_pos ‹k = e.1›]
    · rw [lookup_cons_if, lookup_cons_if, ih, if_neg ‹¬ k = e.1›]

def KeptAt (seen : List V) (k : K) : Option V → Prop
  | none => ∀ w ∈ seen, key w ≠ k
  | some v => Newest key rank seen k v

omit [DecidableEq K] in
theorem KeptAt.snoc {seen : List V} {k : K} {kept : Option V} (h : KeptAt key rank seen k kept)
    (u : V) (hu : key u = k → ∃ v, kept = some v ∧ rank u ≤ rank v) :
    KeptAt key rank (seen++[u]) k kept := by
  cases kept with
  | none =>
    intro w hw hwk
    rcases List.mem_append.mp hw with hw | hw
    · exact h w hw hwk
    · rw [List.mem_singleton.mp hw] at hwk
      obtain ⟨v, hv, -⟩ := hu hwk
      cases hv
  | some v =>
    obtain ⟨hv, hvk, hmax⟩ := h
    refine ⟨List.mem_append_left _ hv, hvk, fun w hw hwk => ?_⟩
    rcases List.mem_append.mp hw with hw | hw
    · exact hmax w hw hwk
    · rw [List.mem_singleton.mp hw] at hwk ⊢
      obtain ⟨v', hv', hle⟩ := hu hwk
      rwa [Option.some.inj hv']

omit [DecidableEq K] in
theorem newest_snoc (seen : List V) (v : V) (h : ∀ w ∈ seen, key w = key v → rank w ≤ rank v) :
    Newest key rank (seen++[v]) (key v) v := by
  refine ⟨by simp, rfl, fun w hw hwk => ?_⟩
  rcases List.mem_append.mp hw with hw | hw
  · exact h w hw hwk
  · rw [List.mem_singleton.mp hw]

theorem keep_keptAt (seen : List V) (store : List (K × V)) (v : V)
    (h : ∀ k, KeptAt key rank seen k (store.lookup k)) (k : K) :
    KeptAt key rank (seen++[v]) k ((keep key rank store v).lookup k) := by
  have hwritten : (∀ w ∈ seen, key w = key v → rank w ≤ rank v) →
      KeptAt key rank (seen++[v]) k ((put (key v, v) store).lookup k) := by
    intro hbest
    rw [lookup_put]
    split_ifs with hk
    · subst hk
      exact newest_snoc key rank seen v hbest
    · exact (h k).snoc key rank v fun hvk => absurd hvk.symm hk
  have hnow := h (key v)
  rw [keep]
  cases hl : store.lookup (key v) with
  | none =>
    rw [hl] at hnow
    exact hwritten fun w hw hwk => absurd hwk (hnow w hw)
  | some u =>
    rw [hl] at hnow
    dsimp only
    split_ifs with hlt
    · exact hwritten fun w hw hwk => (hnow.2.2 w hw hwk).trans hlt.le
    · apply (h k).snoc key rank v
      rintro rfl
      exact ⟨u, hl, not_lt.mp hlt⟩

theorem latest_keptAt (vs : List V) (k : K) :
    KeptAt key rank vs k ((latest key rank vs).lookup k) := by
  induction vs using List.reverseRecOn generalizing k with
  | nil => exact List.forall_mem_nil _
  | append_singleton vs v ih =>
    rw [latest, List.foldl_append]
    exact keep_keptAt key rank vs _ v ih k

/-- Where the ranks of a key are distinct, the one newest value is kept. -/
theorem lookup_latest_iff (vs : List V) (hd : (vs.map fun v => (key v, rank v)).Nodup) (k : K)
    (v : V) : (latest key rank vs).lookup k = some v ↔ Newest key rank vs k v := by
  have hkept := latest_keptAt key rank vs k
  constructor
  · intro h
    rwa [h] at hkept
  · rintro ⟨hv, hk, hmax⟩
    cases hl : (latest key rank vs).lookup k with
    | none =>
      rw [hl] at hkept
      exact absurd hk (hkept v hv)
    | some w =>
      rw [hl] at hkept
      obtain ⟨hw, hwk, hwmax⟩ := hkept
      have hrank : rank w = rank v := le_antisymm (hmax w hw hwk) (hwmax v hv hk)
      rw [List.inj_on_of_nodup_map hd hw hv (Prod.ext (hwk.trans hk.symm) hrank)]

theorem lookup_of_mem (store : List (K × V)) (hn : (store.map Prod.fst).Nodup) (k : K) (v : V)
    (h : (k, v) ∈ store) : store.lookup k = some v := by
  induction store with
  | nil => cases h
  | cons x xs ih =>
    obtain ⟨hx, hxs⟩ := List.nodup_cons.mp hn
    rw [lookup_cons_if]
    rcases List.mem_cons.mp h with rfl | h
    · exact if_pos rfl
    · have hne : k ≠ x.1 := fun he => hx (he ▸ List.mem_map.mpr ⟨(k, v), h, rfl⟩)
      rw [if_neg hne, ih hxs h]

theorem mem_of_lookup (store : List (K × V)) (k : K) (v : V) (h : store.lookup k = some v) :
    (k, v) ∈ store := by
  obtain ⟨front, back, rfl, -⟩ := List.lookup_eq_some_iff.mp h
  simp

theorem latest_keys_nodup (vs : List V) : ((latest key rank vs).map Prod.fst).Nodup := by
  induction vs using List.reverseRecOn with
  | nil => exact List.nodup_nil
  | append_singleton vs v ih =>
    rw [latest, List.foldl_append, List.foldl_cons, List.foldl_nil, keep]
    split
    · exact put_nodup _ _ ih
    · split_ifs
      · exact put_nodup _ _ ih
      · exact ih

/-- The pairs kept are the keys that occur, each with its one newest value. -/
theorem mem_latest_iff (vs : List V) (hd : (vs.map fun v => (key v, rank v)).Nodup) (k : K)
    (v : V) : (k, v) ∈ latest key rank vs ↔ Newest key rank vs k v := by
  rw [← lookup_latest_iff key rank vs hd]
  exact ⟨lookup_of_mem _ (latest_keys_nodup key rank vs) k v, mem_of_lookup _ k v⟩

end Library.LatestByKey
