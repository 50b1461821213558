import InferenceX.AdvisorScores

/-!
# The order of a report

The report is sorted by the scores alone. A model without room scores zero,
and so does one with room that is last in all three measurements, so the two
stand in the order in which they came. Of two models with room the one that is
better in every measurement scores no less.
-/

set_option autoImplicit false

namespace InferenceX.AdvisorRanking
open Library.JsonText Library.StableSort
open InferenceX.PythonValues InferenceX.BenchmarkSchemas InferenceX.ModelAdvisor
open InferenceX.AdvisorScores

/-- The report is a permutation of the eligible results by falling scores, in
which no model without room stands before one that has it. -/
def RankedViableFirst (hardware : HardwareProfile) (eligible : List BenchmarkResult)
    (report : AdvisorReport) : Prop :=
  report.ranked.Perm (entries hardware eligible) ∧
    report.ranked.Pairwise (fun a b => b.score ≤ a.score) ∧
    report.ranked.Pairwise fun a b => ¬ (a.viable = false ∧ b.viable = true)

/-- Next to nothing is left of the three weighted shares: the model is all but
last in throughput, in warm latency and in headroom. -/
def Negligible (hardware : HardwareProfile) (eligible : List BenchmarkResult)
    (r : BenchmarkResult) : Prop :=
  4*share (number r.meanThroughputTps) (fastest eligible)+
    3*(1-share (warmTtftMs r) (slowest eligible))+2*headroom hardware r ≤ 9/20000

section Order
variable (hardware : HardwareProfile) (eligible : List BenchmarkResult)
  (h : ∀ r ∈ eligible, Measured r)
include h

/-- A model without room is before one with room only if both score zero. -/
theorem sorted_viable_iff :
    ((entries hardware eligible).insertionSort RanksBefore).Pairwise
        (fun a b => ¬ (a.viable = false ∧ b.viable = true)) ↔
      eligible.Pairwise fun a b => ¬ (viableByVram hardware a = false ∧
        viableByVram hardware b = true ∧ Negligible hardware eligible b) := by
  rw [pairwise_level RanksBefore fun a => decide (a.score = 0)]
  · rw [entries, List.pairwise_map]
    apply List.Pairwise.iff_of_mem
    intro a b ha hb
    rw [advised_viable, advised_viable]
    have hgated : viableByVram hardware a = false →
        (advised hardware (fastest eligible) (slowest eligible) a).score = 0 := by
      intro hv
      rw [advised_score, if_neg (by simp [hv])]
    constructor
    · rintro hne ⟨hva, hvb, hneg⟩
      have hzero := (score_eq_zero hardware eligible b hb (h b hb) hvb).mpr hneg
      exact hne (by simpa using hgated hva) (by simpa using hzero) ⟨hva, hvb⟩
    · rintro hne - hb0 ⟨hva, hvb⟩
      have hb0' : (advised hardware (fastest eligible) (slowest eligible) b).score = 0 := by
        simpa using hb0
      exact hne ⟨hva, hvb, (score_eq_zero hardware eligible b hb (h b hb) hvb).mp hb0'⟩
  · intro a _ b _ ha hb
    have ha' : a.score = 0 := by simpa using ha
    have hb' : b.score = 0 := by simpa using hb
    rw [RanksBefore, ha', hb']
  · intro a ha b hb hle hbroken
    obtain ⟨x, hx, rfl⟩ := List.mem_map.mp ha
    obtain ⟨y, hy, rfl⟩ := List.mem_map.mp hb
    obtain ⟨hva, -⟩ := not_not.mp hbroken
    rw [advised_viable] at hva
    have hx0 : (advised hardware (fastest eligible) (slowest eligible) x).score = 0 := by
      rw [advised_score, if_neg (by simp [hva])]
    have hy0 := (score_bounds hardware eligible y hy (h y hy)).1
    have hle' : (advised hardware (fastest eligible) (slowest eligible) y).score ≤ 0 :=
      hx0 ▸ hle
    exact ⟨by simpa using hx0, by simpa using le_antisymm hle' hy0⟩

end Order

/-- The viable models come first exactly where no model without room stands in
the list before a negligible one. -/
theorem viable_first_iff (lowercase : String → String) (hardware : HardwareProfile)
    (results : List BenchmarkResult) (modelMaxLens : Option (List (String × Option ℤ)))
    (h : ∀ r ∈ results, Measured r) :
    ∃ report, rank lowercase hardware results modelMaxLens = .ok report ∧
      (RankedViableFirst hardware (results.filter (isEligible lowercase hardware)) report ↔
        (results.filter (isEligible lowercase hardware)).Pairwise fun a b =>
          ¬ (viableByVram hardware a = false ∧ viableByVram hardware b = true ∧
            Negligible hardware (results.filter (isEligible lowercase hardware)) b)) := by
  have heligible : ∀ r ∈ results.filter (isEligible lowercase hardware), Measured r :=
    fun r hr => h r (List.mem_of_mem_filter hr)
  refine ⟨_, rank_sorted lowercase hardware results modelMaxLens h, ?_⟩
  rw [← sorted_viable_iff hardware _ heligible]
  constructor
  · exact fun hranked => hranked.2.2
  · intro hviable
    exact ⟨List.perm_insertionSort _ _, List.pairwise_insertionSort _ _, hviable⟩

def tenGb : HardwareProfile := ⟨some "RTX", .short 10 0, .short 5 0, 8, .short 32 0, true⟩

def measured (modelName : String) (throughput ttft vram : FloatText) : BenchmarkResult where
  modelName := modelName
  suiteVersion := "v1"
  timestamp := "2026-06-08T12:00:00+00:00"
  concurrency := 1
  promptResults := [⟨"short", 64, ttft, ttft, throughput⟩]
  p50LatencyMs := zeroFloat
  p95LatencyMs := zeroFloat
  p99LatencyMs := zeroFloat
  meanThroughputTps := throughput
  vramDeviceOccupiedGib := vram
  hardware := none
  maxModelLen := none
  vramBudgetExceeded := false
  vramBudgetWarning := none

theorem measured_short (modelName : String) (a b c : ℕ) (x y z : Fin 10) :
    Measured (measured modelName (.short a x) (.short b y) (.short c z)) := by
  have hshort (n : ℕ) (d : Fin 10) : NonNegative (.short n d) := by
    refine ⟨_, rfl, ?_⟩
    simp only [Bool.false_eq_true, if_false, FloatText.magnitude, FloatText.exponentFactor]
    positivity
  refine ⟨hshort _ _, hshort _ _, fun p hp => ?_⟩
  rw [List.mem_singleton.mp hp]
  exact hshort _ _

def gated : BenchmarkResult := measured "gated" (.short 80 0) (.short 20 0) (.short 9 6)

def worstViable : BenchmarkResult :=
  measured "worst-viable" (.short 0 0) (.short 1000 0) (.short 9 5)

theorem pair_measured : ∀ r ∈ [gated, worstViable], Measured r :=
  List.forall_mem_cons.mpr ⟨measured_short _ _ _ _ _ _ _,
    List.forall_mem_singleton.mpr (measured_short _ _ _ _ _ _ _)⟩

theorem viable_first_good : ∃ report, rank id tenGb [worstViable, gated] none = .ok report ∧
    RankedViableFirst tenGb [worstViable, gated] report := by
  obtain ⟨report, hrank, hiff⟩ := viable_first_iff id tenGb [worstViable, gated] none
    fun r hr => pair_measured r (by simpa [or_comm] using hr)
  have hviable : viableByVram tenGb worstViable = true := by decide +kernel
  refine ⟨report, hrank, hiff.mpr ?_⟩
  have hall : [worstViable, gated].filter (isEligible id tenGb) = [worstViable, gated] := by
    decide +kernel
  rw [hall]
  simp [hviable]

/-- The model without room comes first, both with a score of zero. -/
theorem gated_ranked_first : (∀ r ∈ [gated, worstViable], Measured r) ∧
    ∃ report, rank id tenGb [gated, worstViable] none = .ok report ∧
      (report.ranked.map fun a => (a.modelName, a.score, a.viable)) =
        [("gated", 0, false), ("worst-viable", 0, true)] ∧
      ¬ RankedViableFirst tenGb [gated, worstViable] report := by
  refine ⟨pair_measured, ?_⟩
  have hrank := rank_sorted id tenGb [gated, worstViable] none pair_measured
  have hranked : ((entries tenGb ([gated, worstViable].filter (isEligible id tenGb))).insertionSort
      RanksBefore).map (fun a => (a.modelName, a.score, a.viable)) =
        [("gated", 0, false), ("worst-viable", 0, true)] := by decide +kernel
  refine ⟨_, hrank, hranked, fun hfirst => ?_⟩
  have hmap := hfirst.2.2
  have hflags : List.Pairwise (fun a b : String × ℚ × Bool => ¬ (a.2.2 = false ∧ b.2.2 = true))
      [("gated", 0, false), ("worst-viable", 0, true)] := by
    rw [← hranked]
    exact List.pairwise_map.mpr hmap
  exact absurd hflags (by decide)

section Pareto
variable (hardware : HardwareProfile) (eligible : List BenchmarkResult) (x y : BenchmarkResult)

theorem composition_mono (hx : Measured x) (hvx : viableByVram hardware x = true)
    (hthroughput : number y.meanThroughputTps ≤ number x.meanThroughputTps)
    (httft : warmTtftMs x ≤ warmTtftMs y)
    (hvram : number x.vramDeviceOccupiedGib ≤ number y.vramDeviceOccupiedGib)
    (maxThroughput maxTtft : ℚ) :
    composition hardware maxThroughput maxTtft y ≤ composition hardware maxThroughput maxTtft x := by
  have ht := share_mono maxThroughput hthroughput
  have hf := share_mono maxTtft httft
  have hv := headroom_anti hardware x y hx hvx hvram
  dsimp only at ht hf
  rw [composition, composition]
  linarith

/-- In a list by falling scores the higher of two scores stands in front. -/
theorem place_lt (ranked : List AdvisorResult) (a b : AdvisorResult) (i j : ℕ)
    (hsorted : ranked.Pairwise RanksBefore) (ha : ranked[i]? = some a) (hb : ranked[j]? = some b)
    (h : b.score < a.score) : i < j := by
  by_contra hij
  obtain ⟨hi, rfl⟩ := List.getElem?_eq_some_iff.mp ha
  obtain ⟨hj, rfl⟩ := List.getElem?_eq_some_iff.mp hb
  rcases (not_lt.mp hij).lt_or_eq with hlt | rfl
  · exact absurd (List.pairwise_iff_getElem.mp hsorted j i hj hi hlt) (not_le.mpr h)
  · exact lt_irrefl _ h

end Pareto

/-- The ranking never divides by zero. All scores lie between 0 and 100, those
without room are zero, and of two models with room the one that is no worse in
any measurement scores no less and stands in front where the scores differ. -/
theorem scores_consistent (lowercase : String → String) (hardware : HardwareProfile)
    (results : List BenchmarkResult) (modelMaxLens : Option (List (String × Option ℤ)))
    (h : ∀ r ∈ results, Measured r) :
    ∃ report, rank lowercase hardware results modelMaxLens = .ok report ∧
      let eligible := results.filter (isEligible lowercase hardware)
      let advised := advised hardware (fastest eligible) (slowest eligible)
      report.ranked.Perm (eligible.map advised) ∧
      (∀ a ∈ report.ranked, 0 ≤ a.score ∧ a.score ≤ 100 ∧ (a.viable = false → a.score = 0)) ∧
      ∀ x ∈ eligible, ∀ y ∈ eligible, (advised x).viable = true → (advised y).viable = true →
        number y.meanThroughputTps ≤ number x.meanThroughputTps →
        warmTtftMs x ≤ warmTtftMs y →
        number x.vramDeviceOccupiedGib ≤ number y.vramDeviceOccupiedGib →
          (advised y).score ≤ (advised x).score ∧
          ((advised x).score ≠ (advised y).score →
            ∀ i j : ℕ, report.ranked[i]? = some (advised x) →
              report.ranked[j]? = some (advised y) → i < j) := by
  refine ⟨_, rank_sorted lowercase hardware results modelMaxLens h, ?_⟩
  intro eligible advised
  have hmeasured : ∀ r ∈ eligible, Measured r := fun r hr => h r (List.mem_of_mem_filter hr)
  refine ⟨List.perm_insertionSort _ _, fun a ha => ?_, ?_⟩
  · obtain ⟨r, hr, rfl⟩ := List.mem_map.mp ((List.mem_insertionSort _).mp ha)
    obtain ⟨h0, h100⟩ := score_bounds hardware eligible r hr (hmeasured r hr)
    refine ⟨h0, h100, fun hv => ?_⟩
    rw [advised_viable] at hv
    rw [advised_score, if_neg (by simp [hv])]
  · intro x hx y hy hvx hvy hthroughput httft hvram
    have hvx' : viableByVram hardware x = true := by rwa [← advised_viable]
    have hvy' : viableByVram hardware y = true := by rwa [← advised_viable]
    have hle : (advised y).score ≤ (advised x).score := by
      rw [score_viable _ _ _ x hvx', score_viable _ _ _ y hvy']
      apply roundPlaces_mono 2
      have hcomp := composition_mono hardware x y (hmeasured x hx) hvx' hthroughput httft hvram
        (fastest eligible) (slowest eligible)
      linarith
    refine ⟨hle, fun hne i j hi hj => ?_⟩
    exact place_lt _ _ _ i j (List.pairwise_insertionSort _ _) hi hj
      (lt_of_le_of_ne hle (Ne.symm hne))

def good : BenchmarkResult := measured "good" (.short 100 0) (.short 10 0) (.short 1 0)

/-- Beside a model that is better in every measurement the worst one stands behind. -/
theorem scores_consistent_pair : ∃ report,
    rank id tenGb [worstViable, good] none = .ok report ∧
      (∀ a ∈ report.ranked, 0 ≤ a.score ∧ a.score ≤ 100) ∧
      (advised tenGb 100 1000 worstViable).score ≤ (advised tenGb 100 1000 good).score := by
  obtain ⟨report, hrank, -, hbounds, hpareto⟩ := scores_consistent id tenGb
    [worstViable, good] none (List.forall_mem_cons.mpr ⟨measured_short _ _ _ _ _ _ _,
      List.forall_mem_singleton.mpr (measured_short _ _ _ _ _ _ _)⟩)
  have hall : [worstViable, good].filter (isEligible id tenGb) = [worstViable, good] := by
    decide +kernel
  have hmax : fastest [worstViable, good] = 100 ∧ slowest [worstViable, good] = 1000 := by
    decide +kernel
  have hviable : (advised tenGb 100 1000 good).viable = true ∧
      (advised tenGb 100 1000 worstViable).viable = true := by decide +kernel
  have hbetter : number worstViable.meanThroughputTps ≤ number good.meanThroughputTps ∧
      warmTtftMs good ≤ warmTtftMs worstViable ∧
      number good.vramDeviceOccupiedGib ≤ number worstViable.vramDeviceOccupiedGib := by
    decide +kernel
  rw [hall, hmax.1, hmax.2] at hpareto
  refine ⟨report, hrank, fun a ha => ⟨(hbounds a ha).1, (hbounds a ha).2.1⟩, ?_⟩
  exact (hpareto good (by simp) worstViable (by simp) hviable.1 hviable.2 hbetter.1 hbetter.2.1
    hbetter.2.2).1

end InferenceX.AdvisorRanking
