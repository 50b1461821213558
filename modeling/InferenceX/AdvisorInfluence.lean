import InferenceX.AdvisorRanking

/-!
# What models without room change

Throughput and latency are taken relative to the maxima over all eligible
results, those without room included. So the viable part of a report depends
on the viable results and on the two maxima: between two reports each score
moves by the change of its two shares, as far as rounding shows it, and a model
that cannot run moves the report wherever there is something to scale.
-/

set_option autoImplicit false

namespace InferenceX.AdvisorInfluence
open Library.JsonText Library.StableSort
open InferenceX.PythonValues InferenceX.BenchmarkSchemas InferenceX.ModelAdvisor
open InferenceX.AdvisorScores InferenceX.AdvisorRanking

section Part
variable (lowercase : String → String) (hardware : HardwareProfile)
  (modelMaxLens : Option (List (String × Option ℤ)))

end Part

section Moves
variable (hardware : HardwareProfile) (eligible eligible' : List BenchmarkResult)
  (r : BenchmarkResult)

def move : ℚ :=
  100*(4/9*(share (number r.meanThroughputTps) (fastest eligible')-
      share (number r.meanThroughputTps) (fastest eligible))-
    1/3*(share (warmTtftMs r) (slowest eligible')-share (warmTtftMs r) (slowest eligible)))

end Moves

section Scaled
variable (hardware : HardwareProfile) (m m' f f' : ℚ)

end Scaled

section Blocker
variable (hardware : HardwareProfile) (rs : List BenchmarkResult) (r : BenchmarkResult)
  (hr : r ∈ rs) (hm : ∀ r ∈ rs, Measured r)

include hr hm

end Blocker

section Reports
variable (lowercase : String → String) (hardware : HardwareProfile)
  (modelMaxLens : Option (List (String × Option ℤ))) (results : List BenchmarkResult)

variable (h : ∀ r ∈ results, Measured r)
include h

end Reports

def quick : BenchmarkResult := measured "quick" (.short 100 0) (.short 1000 0) (.short 1 0)

def prompt : BenchmarkResult := measured "prompt" (.short 50 0) (.short 100 0) (.short 1 0)

theorem pair_measured (throughput ttft : ℕ) (name : String) :
    ∀ r ∈ [quick, prompt, measured name (.short throughput 0) (.short ttft 0) (.short 20 0)],
      Measured r :=
  List.forall_mem_cons.mpr ⟨measured_short _ _ _ _ _ _ _, List.forall_mem_cons.mpr
    ⟨measured_short _ _ _ _ _ _ _, List.forall_mem_singleton.mpr (measured_short _ _ _ _ _ _ _)⟩⟩

end InferenceX.AdvisorInfluence
