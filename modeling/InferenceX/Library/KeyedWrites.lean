import Mathlib

/-!
# Writes under keys

A store of entries under keys, where a later write replaces an earlier one of
its key. A sequence of writes is all there afterwards, as a multiset, exactly
when no key is written twice.
-/

set_option autoImplicit false

namespace Library.KeyedWrites

variable {K V : Type*} [DecidableEq K]

def put (e : K × V) : List (K × V) → List (K × V)
  | [] => [e]
  | x::xs => if x.1 = e.1 then e::xs else x::put e xs

def puts (es store : List (K × V)) : List (K × V) := es.foldl (fun d e => put e d) store

theorem put_fresh (e : K × V) (store : List (K × V)) (h : e.1 ∉ store.map Prod.fst) :
    put e store = store++[e] := by
  induction store with
  | nil => rfl
  | cons x xs ih =>
    rw [List.map_cons, List.mem_cons, not_or] at h
    rw [put, if_neg (Ne.symm h.1), ih h.2, List.cons_append]

theorem put_keys (e : K × V) (store : List (K × V)) : (put e store).map Prod.fst =
    if e.1 ∈ store.map Prod.fst then store.map Prod.fst else store.map Prod.fst++[e.1] := by
  induction store with
  | nil => rfl
  | cons x xs ih =>
    rw [put]
    by_cases hx : x.1 = e.1
    · simp [hx]
    · have hmem : e.1 ∈ (x::xs).map Prod.fst ↔ e.1 ∈ xs.map Prod.fst := by
        simp [Ne.symm hx]
      rw [if_neg hx, List.map_cons, List.map_cons, ih, ← List.map_cons]
      simp only [hmem]
      split_ifs <;> rfl

theorem put_length (e : K × V) (store : List (K × V)) :
    (put e store).length = store.length+(if e.1 ∈ store.map Prod.fst then 0 else 1) := by
  have hlen := congrArg List.length (put_keys e store)
  rw [List.length_map] at hlen
  rw [hlen]
  split_ifs with h
  · exact List.length_map _
  · rw [List.length_append, List.length_map, List.length_singleton]

theorem put_nodup (e : K × V) (store : List (K × V)) (h : (store.map Prod.fst).Nodup) :
    ((put e store).map Prod.fst).Nodup := by
  rw [put_keys]
  split_ifs with hmem
  · exact h
  · rw [← List.concat_eq_append]
    exact h.concat hmem

theorem mem_put_keys (e : K × V) (store : List (K × V)) (k : K) :
    k ∈ (put e store).map Prod.fst ↔ k = e.1 ∨ k ∈ store.map Prod.fst := by
  rw [put_keys]
  split_ifs with he
  · exact (or_iff_right_of_imp fun hk => hk ▸ he).symm
  · rw [List.mem_append, List.mem_singleton, or_comm]

theorem mem_puts_keys (es store : List (K × V)) (k : K) :
    k ∈ (puts es store).map Prod.fst ↔ k ∈ es.map Prod.fst ∨ k ∈ store.map Prod.fst := by
  induction es generalizing store with
  | nil => simp [puts]
  | cons e es ih =>
    rw [puts, List.foldl_cons]
    change k ∈ (puts es (put e store)).map Prod.fst ↔ _
    rw [ih, mem_put_keys, List.map_cons, List.mem_cons, or_assoc, or_left_comm]

theorem mem_put (e d : K × V) (store : List (K × V)) (h : d ∈ put e store) :
    d = e ∨ d ∈ store := by
  induction store with
  | nil => simpa [put] using h
  | cons x xs ih =>
    rw [put] at h
    split_ifs at h with hx
    · exact (List.mem_cons.mp h).imp_right (List.mem_cons_of_mem x)
    · rcases List.mem_cons.mp h with rfl | h
      · exact Or.inr (List.mem_cons_self ..)
      · exact (ih h).imp_right (List.mem_cons_of_mem x)

theorem mem_puts (es store : List (K × V)) (d : K × V) (h : d ∈ puts es store) :
    d ∈ es ∨ d ∈ store := by
  induction es generalizing store with
  | nil => exact Or.inr h
  | cons e es ih =>
    rcases ih (put e store) h with hd | hd
    · exact Or.inl (List.mem_cons_of_mem e hd)
    · refine (mem_put e d store hd).imp_left fun hde => ?_
      rw [hde]
      exact List.mem_cons_self ..

theorem puts_fresh (es store : List (K × V)) (h : ((store++es).map Prod.fst).Nodup) :
    puts es store = store++es := by
  induction es generalizing store with
  | nil => exact (List.append_nil store).symm
  | cons e es ih =>
    have hsplit : store++e::es = (store++[e])++es := List.append_cons store e es
    have hnew : e.1 ∉ store.map Prod.fst := by
      rw [List.map_append, List.nodup_append] at h
      exact fun hm => h.2.2 _ hm _ (by simp) rfl
    rw [puts, List.foldl_cons, put_fresh e store hnew]
    rw [hsplit] at h ⊢
    exact ih (store++[e]) h

theorem puts_le (es store : List (K × V)) : (puts es store).length ≤ store.length+es.length := by
  induction es generalizing store with
  | nil => exact le_refl _
  | cons e es ih =>
    have hlen := put_length e store
    have hrest := ih (put e store)
    rw [puts, List.foldl_cons, List.length_cons]
    change (puts es (put e store)).length ≤ _
    split_ifs at hlen <;> omega

theorem puts_short (es store : List (K × V)) (hs : (store.map Prod.fst).Nodup)
    (h : ¬ ((store++es).map Prod.fst).Nodup) :
    (puts es store).length < store.length+es.length := by
  induction es generalizing store with
  | nil => exact absurd (by simpa using hs) h
  | cons e es ih =>
    have hlen := put_length e store
    rw [puts, List.foldl_cons, List.length_cons]
    change (puts es (put e store)).length < _
    by_cases he : e.1 ∈ store.map Prod.fst
    · have hle := puts_le es (put e store)
      rw [if_pos he] at hlen
      omega
    · rw [put_fresh e store he]
      have hsnoc : ((store++[e]).map Prod.fst).Nodup := by
        rw [List.map_append, List.nodup_append]
        refine ⟨hs, List.nodup_singleton _, fun a ha b hb hab => he ?_⟩
        obtain rfl : b = e.1 := List.mem_singleton.mp hb
        exact hab ▸ ha
      have hlt := ih (store++[e]) hsnoc (by rwa [List.append_assoc])
      rw [List.length_append, List.length_singleton] at hlt
      omega

end Library.KeyedWrites
