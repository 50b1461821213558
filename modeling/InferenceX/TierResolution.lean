import InferenceX.Library.ClearedFloor
import InferenceX.Library.StableSort
import InferenceX.ModelRegistry

/-!
# The tier of a GPU

The rows of the tier file are sorted by their floors, and the memory of a GPU
resolves to the last row before the first floor it does not clear. So it gets
the highest floor it clears, or the lowest one with a warning, whatever the
order of the rows.
-/

set_option autoImplicit false

namespace InferenceX.TierResolution
open Library.ClearedFloor Library.StableSort
open InferenceX.PythonValues InferenceX.ModelRegistry

/-- A row of the file; what is absent takes its default. -/
structure RawTier where
  name : String
  minVramGb : ℚ
  gpuMemoryUtilizationCeiling : ℚ
  maxModelLenCap : ℤ
  maxNumSeqs : ℤ
  blockSize : Option ℤ
  kvCacheDtype : Option String
  maxNumBatchedTokens : Option ℤ
  enablePrefixCaching : Option Bool

def fromDict (data : RawTier) : VramTier where
  name := data.name
  minVramGb := data.minVramGb
  gpuMemoryUtilizationCeiling := data.gpuMemoryUtilizationCeiling
  maxModelLenCap := data.maxModelLenCap
  maxNumSeqs := data.maxNumSeqs
  blockSize := data.blockSize.getD 16
  kvCacheDtype := data.kvCacheDtype.getD "auto"
  maxNumBatchedTokens := data.maxNumBatchedTokens
  enablePrefixCaching := data.enablePrefixCaching.getD false

/-- A path, and the rows of the file there if there is one. -/
structure TierFile where
  path : String
  tiers : Option (List RawTier)

/-- `sorted(tiers, key=lambda t: t.min_vram_gb)`. -/
def sortedTiers (tiers : List VramTier) : List VramTier :=
  tiers.insertionSort fun a b => a.minVramGb ≤ b.minVramGb

def loadTiers (file : TierFile) : Except PyError (List VramTier) :=
  match file.tiers with
  | none => .error (.other "FileNotFoundError")
  | some [] => .error (.valueError s!"No tiers defined in {file.path}")
  | some raw => .ok (sortedTiers (raw.map fromDict))

def belowFloor (vramTotalGb : ℚ) (lowest : VramTier) : Option String :=
  if vramTotalGb < lowest.minVramGb then
    some (s!"Probed VRAM ({fixedText 1 vramTotalGb} GiB) is below the lowest tier floor " ++
      s!"({lowest.name}, >= {fixedText 0 lowest.minVramGb} GiB); " ++
      s!"using {lowest.name} anyway as the most conservative option.")
  else none

/-- `resolve_tier`, with its warning; the file is read where no tiers are given. -/
def resolveTier (file : TierFile) (vramTotalGb : ℚ) (tiers : Option (List VramTier)) :
    Except PyError (VramTier × Option String) := do
  let tiers ← match tiers with
    | none => loadTiers file
    | some tiers => .ok tiers
  match tiers with
  | [] => .error (.valueError "No VRAM tiers available to resolve against")
  | lowest::_ =>
    return (scan VramTier.minVramGb vramTotalGb lowest tiers, belowFloor vramTotalGb lowest)

section Resolution
variable (file : TierFile) (tiers : List VramTier)

theorem sortedTiers_sorted :
    (sortedTiers tiers).Pairwise fun a b => a.minVramGb ≤ b.minVramGb := by
  have htotal : Std.Total fun a b : VramTier => a.minVramGb ≤ b.minVramGb :=
    ⟨fun a b => le_total a.minVramGb b.minVramGb⟩
  have htrans : IsTrans VramTier fun a b => a.minVramGb ≤ b.minVramGb :=
    ⟨fun _ _ _ hab hbc => hab.trans hbc⟩
  exact List.pairwise_insertionSort _ _

theorem sortedTiers_perm : (sortedTiers tiers).Perm tiers := List.perm_insertionSort _ _

/-- Rows on distinct floors are sorted to one list from any order. -/
theorem sortedTiers_order (others : List VramTier) (hperm : others.Perm tiers)
    (hd : (tiers.map VramTier.minVramGb).Nodup) : sortedTiers others = sortedTiers tiers :=
  (insertionSort_eq_of_perm VramTier.minVramGb tiers others hperm.symm hd).symm

theorem loadTiers_ok (path : String) (raw : List RawTier) (h : raw ≠ []) :
    loadTiers ⟨path, some raw⟩ = .ok (sortedTiers (raw.map fromDict)) := by
  cases raw with
  | nil => exact absurd rfl h
  | cons r raw => rfl

theorem resolveTier_sorted (v : ℚ) (h : tiers ≠ []) :
    ∃ t warning, resolveTier file v (some (sortedTiers tiers)) = .ok (t, warning) ∧
      Cleared VramTier.minVramGb v tiers t := by
  cases hs : sortedTiers tiers with
  | nil =>
    have hperm := sortedTiers_perm tiers
    rw [hs] at hperm
    exact absurd hperm.nil_eq.symm h
  | cons lowest rest =>
    have hsorted := sortedTiers_sorted tiers
    rw [hs] at hsorted
    have hfound := (scan_head VramTier.minVramGb v lowest rest hsorted).perm
      (hs ▸ (sortedTiers_perm tiers).symm)
    exact ⟨_, _, rfl, hfound⟩

end Resolution

/-- The resolved tier has the highest floor not above the memory, or the lowest
one where there is none. More memory never resolves to a lower floor, and on
distinct floors the order of the rows is of no matter. -/
theorem tier_resolution (file : TierFile) (path : String) (raw : List RawTier) (h : raw ≠ []) :
    ∃ tiers, loadTiers ⟨path, some raw⟩ = .ok tiers ∧
      (∀ v, ∃ t warning, resolveTier file v (some tiers) = .ok (t, warning) ∧
        t ∈ raw.map fromDict ∧
        (t.minVramGb ≤ v ∧
            (∀ a ∈ raw.map fromDict, a.minVramGb ≤ v → a.minVramGb ≤ t.minVramGb) ∨
          (∀ a ∈ raw.map fromDict, v < a.minVramGb) ∧
            ∀ a ∈ raw.map fromDict, t.minVramGb ≤ a.minVramGb)) ∧
      (∀ v v' t t' w w', v ≤ v' → resolveTier file v (some tiers) = .ok (t, w) →
        resolveTier file v' (some tiers) = .ok (t', w') → t.minVramGb ≤ t'.minVramGb) ∧
      ((raw.map RawTier.minVramGb).Nodup → ∀ raw' : List RawTier, raw'.Perm raw →
        loadTiers ⟨path, some raw'⟩ = .ok tiers) := by
  have hne : raw.map fromDict ≠ [] := fun hnil => h (List.map_eq_nil_iff.mp hnil)
  refine ⟨_, loadTiers_ok path raw h, fun v => resolveTier_sorted file _ v hne, ?_, ?_⟩
  · intro v v' t t' w w' hv ht ht'
    obtain ⟨found, _, heq, hfound⟩ := resolveTier_sorted file _ v hne
    obtain ⟨found', _, heq', hfound'⟩ := resolveTier_sorted file _ v' hne
    obtain ⟨rfl, -⟩ := Prod.mk.inj (Except.ok.inj (heq.symm.trans ht))
    obtain ⟨rfl, -⟩ := Prod.mk.inj (Except.ok.inj (heq'.symm.trans ht'))
    exact hfound.mono hfound' hv
  · intro hd raw' hperm
    have hne' : raw' ≠ [] := fun hnil => h (hperm.symm.trans (hnil ▸ List.Perm.refl _)).eq_nil
    have hfloors : ((raw.map fromDict).map VramTier.minVramGb).Nodup := by
      rw [List.map_map]
      exact hd
    rw [loadTiers_ok path raw' hne', sortedTiers_order _ _ (hperm.map fromDict) hfloors]

def row (name : String) (minVramGb : ℚ) : RawTier :=
  ⟨name, minVramGb, 9/10, 4096, 8, none, none, none, none⟩

/-- Between two floors the lower one is cleared, in whatever order they are listed. -/
theorem tier_resolution_two : ∃ tiers, loadTiers ⟨"t", some [row "12gb" 10, row "6gb" 0]⟩ =
      .ok tiers ∧ loadTiers ⟨"t", some [row "6gb" 0, row "12gb" 10]⟩ = .ok tiers ∧
    ∃ t warning, resolveTier ⟨"t", none⟩ 8 (some tiers) = .ok (t, warning) ∧ t.minVramGb ≤ 8 := by
  obtain ⟨tiers, hload, hfound, -, horder⟩ := tier_resolution ⟨"t", none⟩ "t"
    [row "12gb" 10, row "6gb" 0] (List.cons_ne_nil _ _)
  obtain ⟨t, warning, ht, -, hcleared⟩ := hfound 8
  refine ⟨tiers, hload, horder (by decide +kernel) _ (List.Perm.swap _ _ _), t, warning, ht, ?_⟩
  rcases hcleared with ⟨hle, -⟩ | ⟨hnone, -⟩
  · exact hle
  · exact absurd (hnone (fromDict (row "6gb" 0)) (by simp)) (by decide +kernel)

end InferenceX.TierResolution
