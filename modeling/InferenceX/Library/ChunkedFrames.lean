import Mathlib

/-!
# Frames cut out of a stream that arrives in chunks

A reader appends each chunk to a buffer and takes frames off its front while
it finds one. Two laws make the frames independent of the cuts: a frame
shortens the buffer, and more input leaves a frame that was found as it is.
The chunk that completes a frame is told by the length of the stream so far.
-/

set_option autoImplicit false

namespace Library.ChunkedFrames

variable {A F T : Type*}

structure Framer (A F : Type*) where
  next : List A → Option (F × List A)
  shrinks : ∀ buffer f rest, next buffer = some (f, rest) → rest.length < buffer.length
  stable : ∀ buffer more f rest, next buffer = some (f, rest) →
    next (buffer++more) = some (f, rest++more)

namespace Framer
variable (r : Framer A F)

def drainWith : ℕ → List A → List F × List A
  | 0, buffer => ([], buffer)
  | fuel+1, buffer =>
    match r.next buffer with
    | none => ([], buffer)
    | some (f, rest) => (f::(drainWith fuel rest).1, (drainWith fuel rest).2)

def drain (buffer : List A) : List F × List A := r.drainWith buffer.length buffer

theorem next_nil : r.next [] = none := by
  cases h : r.next [] with
  | none => rfl
  | some p => exact absurd (r.shrinks [] p.1 p.2 h) (Nat.not_lt_zero _)

theorem drainWith_none (fuel : ℕ) (buffer : List A) (h : r.next buffer = none) :
    r.drainWith fuel buffer = ([], buffer) := by
  cases fuel <;> simp [drainWith, h]

theorem drainWith_fuel (n m : ℕ) (buffer : List A) (hn : buffer.length ≤ n)
    (hm : buffer.length ≤ m) : r.drainWith n buffer = r.drainWith m buffer := by
  induction n generalizing m buffer with
  | zero =>
    obtain rfl : buffer = [] := List.eq_nil_of_length_eq_zero (by omega)
    rw [r.drainWith_none 0 _ r.next_nil, r.drainWith_none m _ r.next_nil]
  | succ n ih =>
    cases h : r.next buffer with
    | none => rw [r.drainWith_none _ _ h, r.drainWith_none _ _ h]
    | some p =>
      obtain ⟨f, rest⟩ := p
      have hs := r.shrinks buffer f rest h
      obtain ⟨k, rfl⟩ : ∃ k, m = k+1 := ⟨m-1, by omega⟩
      simp only [drainWith, h]
      rw [ih k rest (by omega) (by omega)]

theorem drain_none (buffer : List A) (h : r.next buffer = none) :
    r.drain buffer = ([], buffer) := r.drainWith_none _ buffer h

theorem drain_some (buffer : List A) (f : F) (rest : List A) (h : r.next buffer = some (f, rest)) :
    r.drain buffer = (f::(r.drain rest).1, (r.drain rest).2) := by
  have hs := r.shrinks buffer f rest h
  obtain ⟨n, hn⟩ : ∃ n, buffer.length = n+1 := ⟨buffer.length-1, by omega⟩
  have hfuel : r.drainWith n rest = r.drain rest :=
    r.drainWith_fuel n rest.length rest (by omega) (le_refl _)
  rw [drain, hn]
  simp only [drainWith, h, hfuel]

theorem drain_induction (P : List A → Prop) (hnone : ∀ buffer, r.next buffer = none → P buffer)
    (hsome : ∀ buffer f rest, r.next buffer = some (f, rest) → P rest → P buffer)
    (buffer : List A) : P buffer := by
  induction hn : buffer.length using Nat.strong_induction_on generalizing buffer with
  | _ n ih =>
    cases h : r.next buffer with
    | none => exact hnone buffer h
    | some p =>
      have hs := r.shrinks buffer p.1 p.2 h
      exact hsome buffer p.1 p.2 h (ih p.2.length (hn ▸ hs) p.2 rfl)

theorem next_rest (buffer : List A) : r.next (r.drain buffer).2 = none := by
  induction buffer using r.drain_induction with
  | hnone buffer h => rw [r.drain_none buffer h]; exact h
  | hsome buffer f rest h ih => rw [r.drain_some buffer f rest h]; exact ih

theorem drain_append (buffer more : List A) : r.drain (buffer++more) =
    ((r.drain buffer).1++(r.drain ((r.drain buffer).2++more)).1,
      (r.drain ((r.drain buffer).2++more)).2) := by
  induction buffer using r.drain_induction with
  | hnone buffer h => rw [r.drain_none buffer h]; rfl
  | hsome buffer f rest h ih =>
    rw [r.drain_some _ _ _ (r.stable buffer more f rest h), r.drain_some buffer f rest h, ih]
    rfl

section Written
variable (enc : F → List A)

def Reads (f : F) : Prop := ∀ rest, r.next (enc f++rest) = some (f, rest)

/-- A prefix of written frames gives the frames that are complete in it. -/
theorem drain_prefix (fs : List F) (hfs : ∀ f ∈ fs, r.Reads enc f) (buffer more : List A)
    (h : buffer++more = fs.flatMap enc) : ∃ k, (r.drain buffer).1 = fs.take k ∧
      (r.drain buffer).2++more = (fs.drop k).flatMap enc := by
  induction fs generalizing buffer with
  | nil =>
    obtain ⟨rfl, rfl⟩ := List.append_eq_nil_iff.mp h
    exact ⟨0, by rw [r.drain_none [] r.next_nil]; exact ⟨rfl, rfl⟩⟩
  | cons f fs ih =>
    cases hb : r.next buffer with
    | none => exact ⟨0, by rw [r.drain_none buffer hb]; exact ⟨rfl, h⟩⟩
    | some p =>
      obtain ⟨g, rest⟩ := p
      have hnext := r.stable buffer more g rest hb
      rw [h, List.flatMap_cons, hfs f (by simp)] at hnext
      obtain ⟨rfl, hrest⟩ := Prod.mk.inj (Option.some.inj hnext)
      obtain ⟨k, hk, hk'⟩ := ih (fun g hg => hfs g (by simp [hg])) rest hrest.symm
      exact ⟨k+1, by rw [r.drain_some buffer f rest hb]; exact ⟨by simp [hk], by simpa using hk'⟩⟩

end Written

def marked : List A → List (List A × T) → List (F × T)
  | _, [] => []
  | buffer, (chunk, mark)::chunks =>
    (r.drain (buffer++chunk)).1.map (·, mark)++marked (r.drain (buffer++chunk)).2 chunks

/-- The frames of a stream are those of its bytes, however they are cut. -/
theorem marked_drain (buffer : List A) (chunks : List (List A × T)) (h : r.next buffer = none) :
    (r.marked buffer chunks).map Prod.fst =
      (r.drain (buffer++(chunks.map Prod.fst).flatten)).1 := by
  induction chunks generalizing buffer with
  | nil => simp [marked, r.drain_none buffer h]
  | cons p chunks ih =>
    obtain ⟨chunk, mark⟩ := p
    rw [marked, List.map_append, List.map_map, ih _ (r.next_rest _), List.map_cons,
      List.flatten_cons, ← List.append_assoc, r.drain_append (buffer++chunk)]
    congr 1
    exact (List.map_congr_left fun f _ => rfl).trans (List.map_id _)

end Framer

def arrival (n : ℕ) : List (List A × T) → Option T
  | [] => none
  | (chunk, mark)::chunks =>
    if n ≤ chunk.length then some mark else arrival (n-chunk.length) chunks

def ends (enc : F → List A) : ℕ → List F → List (F × ℕ)
  | _, [] => []
  | offset, f::fs => (f, offset+(enc f).length)::ends enc (offset+(enc f).length) fs

section Ends
variable (enc : F → List A)

theorem ends_append (offset : ℕ) (fs gs : List F) : ends enc offset (fs++gs) =
    ends enc offset fs++ends enc (offset+(fs.flatMap enc).length) gs := by
  induction fs generalizing offset with
  | nil => simp [ends]
  | cons f fs ih =>
    rw [List.cons_append, ends, ends, ih, List.flatMap_cons, List.length_append, Nat.add_assoc]
    rfl

theorem ends_shift (offset shift : ℕ) (fs : List F) : ends enc (shift+offset) fs =
    (ends enc offset fs).map fun p => (p.1, shift+p.2) := by
  induction fs generalizing offset with
  | nil => rfl
  | cons f fs ih =>
    rw [ends, ends, Nat.add_assoc, ih]
    rfl

theorem ends_map_fst (offset : ℕ) (fs : List F) : (ends enc offset fs).map Prod.fst = fs := by
  induction fs generalizing offset with
  | nil => rfl
  | cons f fs ih => rw [ends, List.map_cons, ih]

theorem ends_le (offset : ℕ) (fs : List F) :
    ∀ p ∈ ends enc offset fs, p.2 ≤ offset+(fs.flatMap enc).length := by
  induction fs generalizing offset with
  | nil => simp [ends]
  | cons f fs ih =>
    intro p hp
    rw [List.flatMap_cons, List.length_append]
    rcases List.mem_cons.mp hp with rfl | hp
    · exact Nat.add_le_add_left (Nat.le_add_right _ _) offset
    · exact (ih _ p hp).trans (by omega)

theorem le_ends (offset : ℕ) (f : F) (fs : List F) :
    ∀ p ∈ ends enc offset (f::fs), offset+(enc f).length ≤ p.2 := by
  induction fs generalizing offset f with
  | nil => simp [ends]
  | cons g fs ih =>
    intro p hp
    rcases List.mem_cons.mp hp with rfl | hp
    · exact le_refl _
    · exact (Nat.le_add_right _ _).trans (ih _ g p hp)

end Ends

section Marks
variable (r : Framer A F) (enc : F → List A)

theorem buffer_short (f : F) (fs : List F) (hf : r.Reads enc f) (buffer more : List A)
    (hb : r.next buffer = none) (h : buffer++more = (f::fs).flatMap enc) :
    buffer.length < (enc f).length := by
  by_contra hle
  have hpre : enc f <+: buffer := by
    refine List.prefix_of_prefix_length_le ?_ (List.prefix_append buffer more) (not_lt.mp hle)
    rw [h, List.flatMap_cons]
    exact List.prefix_append _ _
  obtain ⟨t, rfl⟩ := hpre
  rw [hf t] at hb
  cases hb

/-- Frames that end within the buffered text and the next chunk bear its mark. -/
theorem arrival_now (fs : List F) (held : ℕ) (chunk : List A) (mark : T)
    (chunks : List (List A × T)) (h : (fs.flatMap enc).length ≤ held+chunk.length) :
    fs.map (fun f => (f, some mark)) =
      (ends enc 0 fs).map fun p => (p.1, arrival (p.2-held) ((chunk, mark)::chunks)) := by
  have hfst := congrArg (List.map fun f => (f, some mark)) (ends_map_fst enc 0 fs)
  rw [← hfst, List.map_map]
  refine List.map_congr_left fun p hp => ?_
  have hle := ends_le enc 0 fs p hp
  have hreach : p.2-held ≤ chunk.length := by omega
  rw [arrival, if_pos hreach]
  rfl

/-- Later frames are marked as in the rest of the stream, with the text that
is left in the buffer. -/
theorem arrival_later (fs : List F) (hfs : ∀ f ∈ fs, r.Reads enc f) (held used : ℕ)
    (chunk rest more : List A) (mark : T) (chunks : List (List A × T))
    (hrest : r.next rest = none) (h : rest++more = fs.flatMap enc)
    (hlen : used+rest.length = held+chunk.length) :
    (ends enc 0 fs).map (fun p => (p.1, arrival (p.2-rest.length) chunks)) =
      (ends enc used fs).map fun p => (p.1, arrival (p.2-held) ((chunk, mark)::chunks)) := by
  rw [← Nat.add_zero used, ends_shift, List.map_map]
  refine List.map_congr_left fun p hp => ?_
  have hlate : rest.length < p.2 := by
    cases fs with
    | nil => cases hp
    | cons g gs =>
      have hshort := buffer_short r enc g gs (hfs g (by simp)) rest more hrest h
      have hge := le_ends enc 0 g gs p hp
      omega
  have hnot : ¬ used+p.2-held ≤ chunk.length := by omega
  have hsub : used+p.2-held-chunk.length = p.2-rest.length := by omega
  simp only [Function.comp_apply, arrival, if_neg hnot, hsub]

/-- Every frame is completed by the chunk in which the stream reaches its end,
however the stream is cut. -/
theorem marked_eq (fs : List F) (hfs : ∀ f ∈ fs, r.Reads enc f) (buffer : List A)
    (chunks : List (List A × T)) (hb : r.next buffer = none)
    (h : buffer++(chunks.map Prod.fst).flatten = fs.flatMap enc) :
    (r.marked buffer chunks).map (fun p => (p.1, some p.2)) =
      (ends enc 0 fs).map fun p => (p.1, arrival (p.2-buffer.length) chunks) := by
  induction chunks generalizing buffer fs with
  | nil =>
    cases fs with
    | nil => rfl
    | cons f fs =>
      have hshort := buffer_short r enc f fs (hfs f (by simp)) buffer [] hb (by simpa using h)
      have hlen := congrArg List.length h
      simp only [List.map_nil, List.flatten_nil, List.append_nil, List.flatMap_cons,
        List.length_append] at hlen
      omega
  | cons c chunks ih =>
    obtain ⟨chunk, mark⟩ := c
    have hsplit : (buffer++chunk)++(chunks.map Prod.fst).flatten = fs.flatMap enc := by
      simpa using h
    obtain ⟨k, hk, hrest⟩ := r.drain_prefix enc fs hfs _ _ hsplit
    have hfs' : ∀ f ∈ fs.drop k, r.Reads enc f := fun f hf => hfs f (List.mem_of_mem_drop hf)
    have hlen : ((fs.take k).flatMap enc).length+(r.drain (buffer++chunk)).2.length =
        buffer.length+chunk.length := by
      have htotal := congrArg List.length hsplit
      have hdrop := congrArg List.length hrest
      have happ : ((fs.take k).flatMap enc).length+((fs.drop k).flatMap enc).length =
          (fs.flatMap enc).length := by
        rw [← List.length_append, ← List.flatMap_append, List.take_append_drop]
      simp only [List.length_append] at htotal hdrop
      omega
    have hnow := arrival_now enc (fs.take k) buffer.length chunk mark chunks (by omega)
    have hlater := arrival_later r enc (fs.drop k) hfs' buffer.length _ chunk _ _ mark chunks
      (r.next_rest _) hrest hlen
    have hends := ends_append enc 0 (fs.take k) (fs.drop k)
    rw [List.take_append_drop, Nat.zero_add] at hends
    rw [Framer.marked, List.map_append, hk, List.map_map, ih _ hfs' _ (r.next_rest _) hrest,
      hends, List.map_append, ← hlater, ← hnow]
    rfl

theorem marked_frames (fs : List F) (hfs : ∀ f ∈ fs, r.Reads enc f)
    (chunks : List (List A × T)) (h : (chunks.map Prod.fst).flatten = fs.flatMap enc) :
    (r.marked [] chunks).map Prod.fst = fs := by
  have hfst := congrArg (List.map Prod.fst) (marked_eq r enc fs hfs [] chunks r.next_nil h)
  rw [List.map_map, List.map_map] at hfst
  exact hfst.trans (ends_map_fst enc 0 fs)

/-- The first frame with property `p` bears the mark of the chunk that brings
the stream to its end. -/
theorem marked_find (p : F → Bool) (fs : List F) (hfs : ∀ f ∈ fs, r.Reads enc f)
    (chunks : List (List A × T)) (h : (chunks.map Prod.fst).flatten = fs.flatMap enc) :
    ((r.marked [] chunks).find? fun q => p q.1).map Prod.snd =
      (((ends enc 0 fs).find? fun q => p q.1).map Prod.snd).bind fun n => arrival n chunks := by
  have hfind := congrArg (List.find? fun q : F × Option T => p q.1)
    (marked_eq r enc fs hfs [] chunks r.next_nil h)
  rw [List.find?_map, List.find?_map] at hfind
  have hmark := congrArg (fun o : Option (F × Option T) => o.bind Prod.snd) hfind
  simp only [Option.bind_map, Function.comp_def, List.length_nil, Nat.sub_zero] at hmark
  rw [Option.bind_map, Option.map_eq_bind]
  exact hmark

end Marks

section Delimited
variable [DecidableEq A]

/-- `buffer.split(d, 1)`: what stands before and after the first `d`. -/
def splitOnce (d : List A) : List A → Option (List A × List A)
  | [] => none
  | x::xs =>
    if d.isPrefixOf (x::xs) then some ([], (x::xs).drop d.length)
    else (splitOnce d xs).map fun (before, after) => (x::before, after)

theorem splitOnce_eq (d buffer before after : List A)
    (h : splitOnce d buffer = some (before, after)) : buffer = before++d++after := by
  induction buffer generalizing before with
  | nil => cases h
  | cons x xs ih =>
    simp only [splitOnce] at h
    split at h
    · rename_i hp
      obtain ⟨rfl, rfl⟩ := Prod.mk.inj (Option.some.inj h)
      obtain ⟨t, ht⟩ := List.isPrefixOf_iff_prefix.mp hp
      rw [← ht]
      simp
    · obtain ⟨⟨b, c⟩, hs, hbc⟩ := Option.map_eq_some_iff.mp h
      obtain ⟨rfl, rfl⟩ := Prod.mk.inj hbc
      simp [ih b hs]

theorem splitOnce_append (d buffer more before after : List A)
    (h : splitOnce d buffer = some (before, after)) :
    splitOnce d (buffer++more) = some (before, after++more) := by
  induction buffer generalizing before with
  | nil => cases h
  | cons x xs ih =>
    simp only [splitOnce] at h
    split at h
    · rename_i hp
      obtain ⟨rfl, rfl⟩ := Prod.mk.inj (Option.some.inj h)
      have hpre := List.isPrefixOf_iff_prefix.mp hp
      have hmore : d.isPrefixOf (x::(xs++more)) = true :=
        List.isPrefixOf_iff_prefix.mpr (hpre.trans (List.prefix_append (x::xs) more))
      simp only [List.cons_append, splitOnce, hmore, if_true]
      rw [← List.cons_append, List.drop_append_of_le_length hpre.length_le]
    · rename_i hp
      obtain ⟨⟨b, c⟩, hs, hbc⟩ := Option.map_eq_some_iff.mp h
      obtain ⟨rfl, rfl⟩ := Prod.mk.inj hbc
      have hmore : ¬ d.isPrefixOf (x::(xs++more)) = true := by
        intro hd
        apply hp
        have hle : d.length ≤ (x::xs).length := by
          rw [List.length_cons, splitOnce_eq d xs b c hs]
          simp only [List.length_append]
          omega
        exact List.isPrefixOf_iff_prefix.mpr (List.prefix_of_prefix_length_le
          (List.isPrefixOf_iff_prefix.mp hd) (List.prefix_append (x::xs) more) hle)
      simp only [List.cons_append, splitOnce, if_neg hmore, ih b hs, Option.map_some]

def delimited (d : List A) (hd : d ≠ []) : Framer A (List A) where
  next := splitOnce d
  shrinks buffer f rest h := by
    have hpos := List.length_pos_of_ne_nil hd
    rw [splitOnce_eq d buffer f rest h]
    simp only [List.length_append]
    omega
  stable buffer more f rest h := splitOnce_append d buffer more f rest h

theorem delimited_reads (x : A) (d f : List A) (hf : x ∉ f) :
    (delimited (x::d) (List.cons_ne_nil x d)).Reads (·++x::d) f := by
  intro rest
  show splitOnce (x::d) ((f++x::d)++rest) = some (f, rest)
  induction f with
  | nil =>
    have hp : (x::d).isPrefixOf (x::(d++rest)) = true :=
      List.isPrefixOf_iff_prefix.mpr (List.prefix_append (x::d) rest)
    simp [splitOnce, hp]
  | cons y ys ih =>
    have hp : ¬ (x::d).isPrefixOf (y::((ys++x::d)++rest)) = true := by
      intro h
      obtain ⟨t, ht⟩ := List.isPrefixOf_iff_prefix.mp h
      obtain rfl : x = y := (List.cons.inj ht).1
      exact hf (by simp)
    simp only [List.cons_append, splitOnce, if_neg hp, ih fun h => hf (by simp [h]),
      Option.map_some]

end Delimited

end Library.ChunkedFrames
