import InferenceX.ModelAdvisor

/-!
# The scores of a report

With measurements that are not negative the ranking never divides by zero. It
is the stable sort of one entry for each result of the hardware. The score of
a model with room for it is a weighted mean of three shares between zero and
one, each monotone in its measurement.
-/

set_option autoImplicit false

namespace InferenceX.AdvisorScores
open Library.JsonText Library.StableSort
open InferenceX.PythonValues InferenceX.BenchmarkSchemas InferenceX.ModelAdvisor

def NonNegative (x : FloatText) : Prop := ∃ q, x.value = some q ∧ 0 ≤ q

structure Measured (result : BenchmarkResult) : Prop where
  throughput : NonNegative result.meanThroughputTps
  vram : NonNegative result.vramDeviceOccupiedGib
  ttft : ∀ p ∈ result.promptResults, NonNegative p.ttftMs

theorem number_nonneg (x : FloatText) (h : NonNegative x) : 0 ≤ number x := by
  obtain ⟨q, hq, h0⟩ := h
  rw [number, hq]
  exact h0

theorem warmTtftMs_nonneg (r : BenchmarkResult) (h : Measured r) : 0 ≤ warmTtftMs r := by
  have hwarm : ∀ p ∈ warmResults r, p ∈ r.promptResults := by
    intro p hp
    rw [warmResults] at hp
    split_ifs at hp
    · exact List.mem_of_mem_drop hp
    · exact hp
  rw [warmTtftMs]
  split_ifs
  · exact le_refl 0
  · apply div_nonneg _ (Nat.cast_nonneg _)
    apply List.sum_nonneg
    intro x hx
    obtain ⟨p, hp, rfl⟩ := List.mem_map.mp hx
    exact number_nonneg _ (h.ttft p (hwarm p hp))

theorem le_maximum (xs : List ℚ) (x : ℚ) (h : x ∈ xs) : x ≤ maximum xs := by
  rw [maximum]
  cases hm : xs.max? with
  | none =>
    rw [List.max?_eq_none_iff.mp hm] at h
    cases h
  | some m => exact (List.max?_eq_some_iff.mp hm).2 x h

def share (a m : ℚ) : ℚ := if m > 0 then a/m else 0

theorem safeDiv_share (a m : ℚ) : safeDiv a m 0 = .ok (share a m) := by
  rw [safeDiv, share]
  split_ifs with hm
  · exact if_neg (ne_of_gt hm)
  · rfl

theorem share_bounds (a m : ℚ) (h0 : 0 ≤ a) (hm : a ≤ m) : 0 ≤ share a m ∧ share a m ≤ 1 := by
  rw [share]
  split_ifs with hpos
  · exact ⟨div_nonneg h0 hpos.le, (div_le_one hpos).mpr hm⟩
  · exact ⟨le_refl 0, zero_le_one⟩

theorem share_mono (m : ℚ) : Monotone fun a => share a m := by
  intro a b h
  simp only [share]
  split_ifs with hpos
  · exact div_le_div_of_nonneg_right h hpos.le
  · exact le_refl 0

def headroom (hardware : HardwareProfile) (r : BenchmarkResult) : ℚ :=
  if hardware.hasGpu then
    max 0 (min 1 ((number hardware.vramTotalGb-vramRequired r)/number hardware.vramTotalGb))
  else 1

theorem headroom_bounds (hardware : HardwareProfile) (r : BenchmarkResult) :
    0 ≤ headroom hardware r ∧ headroom hardware r ≤ 1 := by
  rw [headroom]
  split_ifs
  · exact ⟨le_max_left _ _, max_le zero_le_one (min_le_left _ _)⟩
  · exact ⟨zero_le_one, le_refl 1⟩

section Viable
variable (hardware : HardwareProfile) (r : BenchmarkResult)

theorem vramTotal_pos (h : Measured r) (hgpu : hardware.hasGpu = true)
    (hv : viableByVram hardware r = true) : 0 < number hardware.vramTotalGb := by
  have hused := number_nonneg _ h.vram
  rw [viableByVram, if_pos hgpu, decide_eq_true_eq, vramRequired, vramSafetyBufferGb] at hv
  linarith

theorem vramScore_headroom (h : Measured r) (hv : viableByVram hardware r = true) :
    vramScore hardware r = .ok (headroom hardware r) := by
  rw [vramScore, headroom]
  split_ifs with hgpu
  · rw [divide, if_neg (vramTotal_pos hardware r h hgpu hv).ne']
    rfl
  · rfl

theorem headroom_anti (q : BenchmarkResult) (h : Measured r) (hv : viableByVram hardware r = true)
    (hle : number r.vramDeviceOccupiedGib ≤ number q.vramDeviceOccupiedGib) :
    headroom hardware q ≤ headroom hardware r := by
  rw [headroom, headroom]
  split_ifs with hgpu
  · have hpos := vramTotal_pos hardware r h hgpu hv
    rw [vramRequired, vramRequired]
    gcongr
  · exact le_refl 1

end Viable

section Entries
variable (hardware : HardwareProfile) (maxThroughput maxTtft : ℚ)

def composition (r : BenchmarkResult) : ℚ :=
  4/9*share (number r.meanThroughputTps) maxThroughput+1/3*(1-share (warmTtftMs r) maxTtft)+
    2/9*headroom hardware r

def advised (r : BenchmarkResult) : AdvisorResult :=
  if viableByVram hardware r then
    entry r (composition hardware maxThroughput maxTtft r*100) true (viableText r)
  else entry r 0 false (skipText hardware r)

theorem advise_advised (r : BenchmarkResult) (h : Measured r) :
    advise hardware maxThroughput maxTtft r = .ok (advised hardware maxThroughput maxTtft r) := by
  rw [advise, advised]
  split_ifs with hv
  · rw [safeDiv_share, safeDiv_share, vramScore_headroom hardware r h hv]
    rfl
  · rfl

theorem advised_viable (r : BenchmarkResult) :
    (advised hardware maxThroughput maxTtft r).viable = viableByVram hardware r := by
  rw [advised]
  split_ifs with hv
  · exact hv.symm
  · simpa [entry] using hv

theorem advised_score (r : BenchmarkResult) :
    (advised hardware maxThroughput maxTtft r).score =
      if viableByVram hardware r then
        roundPlaces 2 (composition hardware maxThroughput maxTtft r*100)
      else 0 := by
  rw [advised]
  split_ifs
  · rfl
  · exact roundPlaces_int 2 0

theorem score_viable (r : BenchmarkResult) (hv : viableByVram hardware r = true) :
    (advised hardware maxThroughput maxTtft r).score =
      roundPlaces 2 (composition hardware maxThroughput maxTtft r*100) := by
  rw [advised_score, if_pos hv]

theorem mapM_advise (rs : List BenchmarkResult) (h : ∀ r ∈ rs, Measured r) :
    rs.mapM (advise hardware maxThroughput maxTtft) =
      .ok (rs.map (advised hardware maxThroughput maxTtft)) := by
  induction rs with
  | nil => rfl
  | cons r rs ih =>
    rw [List.mapM_cons, advise_advised _ _ _ r (h r (by simp)),
      ih fun q hq => h q (List.mem_cons_of_mem r hq)]
    rfl

end Entries

def fastest (eligible : List BenchmarkResult) : ℚ :=
  maximum (eligible.map fun r => number r.meanThroughputTps)

def slowest (eligible : List BenchmarkResult) : ℚ := maximum (eligible.map warmTtftMs)

theorem le_fastest (eligible : List BenchmarkResult) (r : BenchmarkResult) (h : r ∈ eligible) :
    number r.meanThroughputTps ≤ fastest eligible :=
  le_maximum _ _ (List.mem_map.mpr ⟨r, h, rfl⟩)

theorem le_slowest (eligible : List BenchmarkResult) (r : BenchmarkResult) (h : r ∈ eligible) :
    warmTtftMs r ≤ slowest eligible := le_maximum _ _ (List.mem_map.mpr ⟨r, h, rfl⟩)

def entries (hardware : HardwareProfile) (eligible : List BenchmarkResult) :
    List AdvisorResult :=
  eligible.map (advised hardware (fastest eligible) (slowest eligible))

section Rank
variable (lowercase : String → String) (hardware : HardwareProfile)
  (results : List BenchmarkResult) (modelMaxLens : Option (List (String × Option ℤ)))

theorem rank_sorted (h : ∀ r ∈ results, Measured r) :
    rank lowercase hardware results modelMaxLens =
      .ok ⟨(entries hardware (results.filter (isEligible lowercase hardware))).insertionSort
        RanksBefore, results.flatMap (warningsOf lowercase hardware modelMaxLens)⟩ := by
  rw [rank]
  split_ifs with hnil
  · rw [hnil]
    rfl
  dsimp only
  split_ifs with hnone
  · rw [hnone]
    rfl
  · rw [mapM_advise _ _ _ _ fun r hr => h r (List.mem_of_mem_filter hr)]
    rfl

end Rank

instance : Std.Total RanksBefore := ⟨fun a b => le_total b.score a.score⟩

instance : IsTrans AdvisorResult RanksBefore := ⟨fun _ _ _ hab hbc => le_trans hbc hab⟩

section Bounds
variable (hardware : HardwareProfile) (eligible : List BenchmarkResult) (r : BenchmarkResult)
  (hr : r ∈ eligible) (h : Measured r)
include hr h

theorem composition_bounds : 0 ≤ composition hardware (fastest eligible) (slowest eligible) r ∧
    composition hardware (fastest eligible) (slowest eligible) r ≤ 1 := by
  obtain ⟨ht0, ht1⟩ := share_bounds _ _ (number_nonneg _ h.throughput) (le_fastest eligible r hr)
  obtain ⟨hf0, hf1⟩ := share_bounds _ _ (warmTtftMs_nonneg r h) (le_slowest eligible r hr)
  obtain ⟨hv0, hv1⟩ := headroom_bounds hardware r
  rw [composition]
  constructor
  · linarith
  · linarith

theorem score_bounds :
    0 ≤ (advised hardware (fastest eligible) (slowest eligible) r).score ∧
      (advised hardware (fastest eligible) (slowest eligible) r).score ≤ 100 := by
  obtain ⟨h0, h1⟩ := composition_bounds hardware eligible r hr h
  have hzero : roundPlaces 2 0 = 0 := roundPlaces_int 2 0
  have hfull : roundPlaces 2 100 = 100 := roundPlaces_int 2 100
  rw [advised_score]
  split_ifs
  · constructor
    · exact hzero.symm.le.trans (roundPlaces_mono 2 (by linarith))
    · exact (roundPlaces_mono 2 (by linarith)).trans hfull.le
  · norm_num

/-- Only what is left of less than half a hundredth of a point rounds to zero. -/
theorem score_eq_zero (hv : viableByVram hardware r = true) :
    (advised hardware (fastest eligible) (slowest eligible) r).score = 0 ↔
      4*share (number r.meanThroughputTps) (fastest eligible)+
        3*(1-share (warmTtftMs r) (slowest eligible))+2*headroom hardware r ≤ 9/20000 := by
  obtain ⟨h0, -⟩ := composition_bounds hardware eligible r hr h
  rw [score_viable _ _ _ r hv, roundPlaces_eq_zero 2 _ (by positivity), composition]
  constructor
  · intro hle
    linarith
  · intro hle
    linarith

end Bounds

end InferenceX.AdvisorScores
