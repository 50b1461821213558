import InferenceX.HubEstimates
import InferenceX.Library.StableSort
import InferenceX.UtilizationCap
import InferenceX.VariantSelector

/-!
# Which variant is selected

The variants of a family are sorted by precision and the first one that fits
is taken, so it is the earliest of the most precise ones that fit. More memory
lets more variants fit, and what fits the budget of a tier passes the check in
front of the engine, as far as the ceiling of the tier is the safe share.
-/

set_option autoImplicit false

namespace InferenceX.VariantChoice
open Library.StableSort
open InferenceX.PythonValues InferenceX.ModelRegistry InferenceX.VllmPoolConfig
open InferenceX.HubEstimates InferenceX.UtilizationCap InferenceX.VariantSelector

/-- `estimate_weight_gib(variant) <= budget_gib`. -/
def fits (hub : Hub) (budget : ℚ) (e : ValidEntry) : Bool :=
  match weightsOf hub e with
  | .ok weights => weights ≤ budget
  | .error _ => false

def precision (e : ValidEntry) : ℚ := bytesPerParam e.val.quantization

/-- The earliest of the most precise entries that fit. -/
def BestFit (hub : Hub) (budget : ℚ) (entries : List ValidEntry) (e : ValidEntry) : Prop :=
  ∃ before after, entries = before++e::after ∧ fits hub budget e = true ∧
    (∀ y ∈ before, fits hub budget y = true → precision y < precision e) ∧
    ∀ y ∈ after, fits hub budget y = true → precision y ≤ precision e

instance : Std.Total Precedes := ⟨fun _ _ => le_total _ _⟩

instance : IsTrans ValidEntry Precedes := ⟨fun _ _ _ hab hbc => le_trans hbc hab⟩

section Fits
variable (hub : Hub) (budget : ℚ)

theorem fits_iff (e : ValidEntry) (w : ℚ) (h : weightsOf hub e = .ok w) :
    fits hub budget e = true ↔ w ≤ budget := by
  simp [fits, h]

theorem bestFit_iff (entries : List ValidEntry) (e : ValidEntry) :
    (sortedByPrecision entries).find? (fits hub budget) = some e ↔
      BestFit hub budget entries e := by
  rw [sortedByPrecision, find?_insertionSort, BestFit]
  simp only [Precedes, not_le]
  rfl

theorem BestFit.mem {entries : List ValidEntry} {e : ValidEntry}
    (h : BestFit hub budget entries e) : e ∈ entries := by
  obtain ⟨before, after, rfl, -⟩ := h
  simp

theorem BestFit.not_refused {entries : List ValidEntry} {e : ValidEntry}
    (h : BestFit hub budget entries e) : fits hub budget e ≠ false := by
  obtain ⟨before, after, -, hfits, -⟩ := h
  rw [hfits]
  exact Bool.noConfusion

theorem BestFit.best {entries : List ValidEntry} {e : ValidEntry}
    (h : BestFit hub budget entries e) (y : ValidEntry) (hy : y ∈ entries)
    (hfits : fits hub budget y = true) : precision y ≤ precision e := by
  obtain ⟨before, after, rfl, -, hbefore, hafter⟩ := h
  rcases List.mem_append.mp hy with hy | hy
  · exact (hbefore y hy hfits).le
  · rcases List.mem_cons.mp hy with rfl | hy
    · exact le_refl _
    · exact hafter y hy hfits

end Fits

section Select
variable (hub : Hub) (hs : Sized hub) (registry : Registry) (family : String) (tier : VramTier)
include hs

theorem weightsOf_sized (e : ValidEntry) : ∃ w, 0 < w ∧ weightsOf hub e = .ok w :=
  estimateWeightGib_sized hub hs e.val.modelPath e.val.quantization

theorem firstFitting_find (budget : ℚ) (es : List ValidEntry) :
    firstFitting hub budget es =
      .ok ((es.find? (fits hub budget)).map fun e => e.val.name) := by
  induction es with
  | nil => rfl
  | cons e es ih =>
    obtain ⟨w, -, hw⟩ := weightsOf_sized hub hs e
    rw [firstFitting, hw]
    by_cases hle : w ≤ budget
    · have hfits : fits hub budget e = true := (fits_iff hub budget e w hw).mpr hle
      rw [List.find?_cons_of_pos hfits]
      simp only [bind, Except.bind, if_pos hle]
      rfl
    · have hfits : ¬ fits hub budget e = true := fun h => hle ((fits_iff hub budget e w hw).mp h)
      rw [List.find?_cons_of_neg hfits, ← ih]
      simp only [bind, Except.bind, if_neg hle]

theorem sizeTexts_ok (es : List ValidEntry) : ∃ texts, es.mapM (sizeText hub) = .ok texts := by
  induction es with
  | nil => exact ⟨[], rfl⟩
  | cons e es ih =>
    obtain ⟨w, -, hw⟩ := weightsOf_sized hub hs e
    obtain ⟨texts, htexts⟩ := ih
    have htext : sizeText hub e = .ok (e.val.name ++ " (~" ++ fixedText 2 w ++ " GiB)") := by
      rw [sizeText, hw]
      rfl
    exact ⟨_, by rw [List.mapM_cons, htext, htexts]; rfl⟩

theorem selectVariant_cases (available : ℚ) :
    (∃ e, BestFit hub (available*tier.gpuMemoryUtilizationCeiling) (variants registry family) e ∧
      selectVariant hub family registry tier available = .ok e.val.name) ∨
    ((∀ e ∈ variants registry family,
        fits hub (available*tier.gpuMemoryUtilizationCeiling) e = false) ∧
      ∃ message, selectVariant hub family registry tier available =
        .error (.noVariantFits message)) := by
  rw [selectVariant]
  split_ifs with hempty
  · right
    rw [List.isEmpty_iff.mp hempty]
    exact ⟨List.forall_mem_nil _, _, rfl⟩
  · have hfirst := firstFitting_find hub hs (available*tier.gpuMemoryUtilizationCeiling)
      (sortedByPrecision (variants registry family))
    cases hf : (sortedByPrecision (variants registry family)).find?
        (fits hub (available*tier.gpuMemoryUtilizationCeiling)) with
    | some e =>
      left
      refine ⟨e, (bestFit_iff _ _ _ e).mp hf, ?_⟩
      simp only [hfirst, hf]
      rfl
    | none =>
      right
      obtain ⟨texts, htexts⟩ := sizeTexts_ok hub hs (sortedByPrecision (variants registry family))
      refine ⟨fun e he => ?_, _, by simp only [hfirst, hf, htexts]; rfl⟩
      have hnone := List.find?_eq_none.mp hf e ((mem_sortedByPrecision _ e).mpr he)
      simpa using hnone

end Select

section Chosen
variable (hub : Hub) (hs : Sized hub) (registry : Registry) (family : String) (tier : VramTier)

theorem mem_variants (e : ValidEntry) :
    e ∈ variants registry family ↔ e ∈ registry.entries ∧ familyOf e.val = family := by
  simp [variants]

omit registry family in
theorem windowOf_nonneg (e : ValidEntry) : 0 ≤ windowOf (modelDump e.val) := by
  have hvalid := e.property
  simp only [ModelEntry.valid, Bool.and_eq_true] at hvalid
  rw [windowOf, modelDump]
  cases hlen : e.val.maxModelLen with
  | none => decide
  | some n =>
    have hpos : 1 ≤ n := by simpa [hlen, positive] using hvalid.1.1.1.1.2
    dsimp only
    split_ifs <;> omega

theorem name_injective (e e' : ValidEntry) (he : e ∈ registry.entries)
    (he' : e' ∈ registry.entries) (h : e.val.name = e'.val.name) : e = e' := by
  have hfind := registry.find_mem e he
  rw [h, registry.find_mem e' he'] at hfind
  exact (Option.some.inj hfind).symm

include hs

theorem BestFit.fits {budget : ℚ} {entries : List ValidEntry} {e : ValidEntry}
    (h : BestFit hub budget entries e) : ∃ w, 0 < w ∧ w ≤ budget ∧ weightsOf hub e = .ok w := by
  obtain ⟨before, after, -, hfits, -⟩ := h
  obtain ⟨w, hpos, hw⟩ := weightsOf_sized hub hs e
  exact ⟨w, hpos, (fits_iff hub budget e w hw).mp hfits, hw⟩

theorem fits_mono {budget more : ℚ} (h : budget ≤ more) (e : ValidEntry)
    (hfits : VariantChoice.fits hub budget e = true) : VariantChoice.fits hub more e = true := by
  obtain ⟨w, -, hw⟩ := weightsOf_sized hub hs e
  rw [fits_iff hub _ e w hw] at hfits ⊢
  exact hfits.trans h

theorem selectVariant_ok (available : ℚ) (name : String) :
    selectVariant hub family registry tier available = .ok name ↔
      ∃ e, BestFit hub (available*tier.gpuMemoryUtilizationCeiling)
        (variants registry family) e ∧ e.val.name = name := by
  rcases selectVariant_cases hub hs registry family tier available with
    ⟨e, he, heq⟩ | ⟨hnone, message, heq⟩
  · rw [heq]
    constructor
    · exact fun h => ⟨e, he, Except.ok.inj h⟩
    · rintro ⟨e', he', rfl⟩
      have hsome := ((bestFit_iff hub _ _ e').mpr he').symm.trans ((bestFit_iff hub _ _ e).mpr he)
      rw [Option.some.inj hsome]
  · rw [heq]
    apply iff_of_false
    · intro h
      cases h
    · rintro ⟨e, he, -⟩
      exact he.not_refused hub _ (hnone e he.mem)

theorem selectVariant_error (available : ℚ) :
    (∃ message, selectVariant hub family registry tier available =
        .error (.noVariantFits message)) ↔
      ∀ e ∈ variants registry family,
        VariantChoice.fits hub (available*tier.gpuMemoryUtilizationCeiling) e = false := by
  rcases selectVariant_cases hub hs registry family tier available with
    ⟨e, he, heq⟩ | ⟨hnone, message, heq⟩
  · apply iff_of_false
    · rintro ⟨message, h⟩
      rw [heq] at h
      cases h
    · exact fun hnone => he.not_refused hub _ (hnone e he.mem)
  · exact iff_of_true ⟨message, heq⟩ hnone

/-- What fits the safe share of the free memory passes the check in front of the engine. -/
theorem validateModelFits_ok (e : ValidEntry) (knobs : Option VramTier) (w total free : ℚ)
    (hw : weightsOf hub e = .ok w) (h : w ≤ free*freeVramSafety) :
    validateModelFits hub (applyTierKnobs (modelDump e.val) knobs) total (some free) =
      .ok () := by
  obtain ⟨hpath, hquant, hwindow, -⟩ := applyTierKnobs_sizing (modelDump e.val) knobs
  have hw' : estimateWeightGib hub e.val.modelPath e.val.quantization = .ok w := hw
  obtain ⟨f, hf⟩ := estimateEngineFootprintGib_sized hub hs e.val.modelPath e.val.quantization
    (windowOf (modelDump e.val)) (windowOf_nonneg e)
  have hmodel : (modelDump e.val).entry = e.val := rfl
  have hcheck : weightsFit hub (applyTierKnobs (modelDump e.val) knobs) total (some free) =
      .ok () := by
    simp only [weightsFit, hpath, hquant, hmodel, hw', bind, Except.bind, if_neg (not_lt.mpr h)]
    split_ifs <;> rfl
  rw [validateModelFits, singleEngineUtilization, hpath, hquant, hwindow, hcheck, hmodel]
  by_cases htotal : total ≤ 0
  · simp only [weightsOnlyUtilization, minimumUtilization, if_pos htotal, bind, Except.bind]
    rfl
  · simp only [weightsOnlyUtilization, minimumUtilization, if_neg htotal, hw', hf, bind,
      Except.bind, Except.map]
    rfl

end Chosen

/-- The selection takes the earliest of the most precise variants that fit and
fails where none does; more memory never selects a less precise one; and under
a ceiling of at most the safe share the selected entry passes the check in
front of the engine. -/
theorem selectVariant_best (hub : Hub) (hs : Sized hub) (registry : Registry) (family : String)
    (tier : VramTier) (available : ℚ) (h0 : 0 ≤ available) :
    (∀ name, selectVariant hub family registry tier available = .ok name ↔
      ∃ e, BestFit hub (available*tier.gpuMemoryUtilizationCeiling)
        (variants registry family) e ∧ e.val.name = name) ∧
    ((∃ message, selectVariant hub family registry tier available =
        .error (.noVariantFits message)) ↔
      ∀ e ∈ variants registry family,
        fits hub (available*tier.gpuMemoryUtilizationCeiling) e = false) ∧
    (∀ e ∈ registry.entries, selectVariant hub family registry tier available = .ok e.val.name →
      ∀ more, available ≤ more → ∃ e' ∈ variants registry family,
        selectVariant hub family registry tier more = .ok e'.val.name ∧
          precision e ≤ precision e') ∧
    (tier.gpuMemoryUtilizationCeiling ≤ 98/100 →
      ∀ e ∈ registry.entries, selectVariant hub family registry tier available = .ok e.val.name →
        ∀ (knobs : Option VramTier) (total : ℚ),
          validateModelFits hub (applyTierKnobs (modelDump e.val) knobs) total (some available) =
            .ok ()) := by
  have hchosen : ∀ e ∈ registry.entries,
      selectVariant hub family registry tier available = .ok e.val.name →
        BestFit hub (available*tier.gpuMemoryUtilizationCeiling) (variants registry family) e := by
    intro e he h
    obtain ⟨best, hbest, hname⟩ := (selectVariant_ok hub hs registry family tier available _).mp h
    have hmem := ((mem_variants registry family best).mp hbest.mem).1
    rwa [← name_injective registry best e hmem he hname]
  refine ⟨selectVariant_ok hub hs registry family tier available,
    selectVariant_error hub hs registry family tier available, ?_, ?_⟩
  · intro e he h more hmore
    have hbest := hchosen e he h
    obtain ⟨w, hpos, hle, hw⟩ := hbest.fits hub hs
    -- Something fits, so the ceiling is no negative share.
    have hceiling : 0 ≤ tier.gpuMemoryUtilizationCeiling := by
      by_contra hneg
      nlinarith
    have hbudget : available*tier.gpuMemoryUtilizationCeiling ≤
        more*tier.gpuMemoryUtilizationCeiling := by gcongr
    have hfits := fits_mono hub hs hbudget e ((fits_iff hub _ e w hw).mpr hle)
    rcases selectVariant_cases hub hs registry family tier more with
      ⟨e', he', heq⟩ | ⟨hnone, -⟩
    · exact ⟨e', he'.mem, heq, he'.best hub _ e hbest.mem hfits⟩
    · rw [hnone e hbest.mem] at hfits
      cases hfits
  · intro hsafe e he h knobs total
    obtain ⟨w, -, hle, hw⟩ := (hchosen e he h).fits hub hs
    apply validateModelFits_ok hub hs e knobs w total available hw
    calc
      w ≤ available*tier.gpuMemoryUtilizationCeiling := hle
      _ ≤ available*freeVramSafety := by
        unfold freeVramSafety
        gcongr

def variantEntry (name : String) (quantization : Option String) : ModelEntry :=
  { localEntry .auto with name := name, family := some "acme-3b", quantization := quantization }

def acmeFamily : Registry :=
  Registry.ofModels [⟨variantEntry "acme-3b-awq" (some "awq"), rfl⟩,
    ⟨variantEntry "acme-3b-bf16" none, rfl⟩]

theorem localHub_sized : Sized localHub := by
  intro path config h
  cases h

/-- With 7.8 GiB free the variant without quantization is taken and passes the check. -/
theorem selectVariant_best_bf16 :
    selectVariant localHub "acme-3b" acmeFamily smallTier (78/10) = .ok "acme-3b-bf16" ∧
    ∀ (knobs : Option VramTier) (total : ℚ),
      validateModelFits localHub (applyTierKnobs (modelDump (variantEntry "acme-3b-bf16" none))
        knobs) total (some (78/10)) = .ok () := by
  have hselect : selectVariant localHub "acme-3b" acmeFamily smallTier (78/10) =
      .ok "acme-3b-bf16" := by decide +kernel
  exact ⟨hselect, (selectVariant_best localHub localHub_sized acmeFamily "acme-3b" smallTier (78/10)
    (by norm_num)).2.2.2 (by norm_num [smallTier]) ⟨variantEntry "acme-3b-bf16" none, rfl⟩
      (by decide) hselect⟩

end InferenceX.VariantChoice
