import InferenceX.Library.LatestByKey
import InferenceX.Library.TextOrder
import InferenceX.ResultStore

/-!
# The latest results of a suite

Results are filtered by their suite, then the latest of each model is taken
by comparing time stamps as texts. The fields of a time stamp have fixed
widths but for the fraction, which is absent at zero, and there a plus sign
stands below the dot. So texts compare as the moments do, and the selection
does not depend on the order of the files.
-/

set_option autoImplicit false

namespace InferenceX.SuiteLatest
open Library.KeyedWrites Library.LatestByKey Library.TextOrder
open InferenceX.BenchmarkSchemas InferenceX.ResultStore

inductive SuiteStatus where
  | empty
  | suiteMismatch
  | ok
  deriving DecidableEq, Repr

structure SuiteSelection where
  status : SuiteStatus
  latest : List (String × BenchmarkResult)

def addResult (latest : List (String × BenchmarkResult)) (result : BenchmarkResult) :
    List (String × BenchmarkResult) :=
  match latest.lookup result.modelName with
  | none => put (result.modelName, result) latest
  | some existing =>
    if existing.timestamp < result.timestamp then put (result.modelName, result) latest else latest

def latestPerModel (results : List BenchmarkResult) : List (String × BenchmarkResult) :=
  results.foldl addResult []

def latestPerModelForSuite (V : Validator) (expected : String) (dir : Directory) :
    SuiteSelection :=
  let all := allResults V dir
  if all = [] then ⟨.empty, []⟩
  else
    let matching := all.filter fun r => r.suiteVersion = expected
    if matching = [] then ⟨.suiteMismatch, []⟩ else ⟨.ok, latestPerModel matching⟩

theorem padded_length (width n : ℕ) : (padded width n).length = width := by
  induction width generalizing n with
  | zero => rfl
  | succ width ih => rw [padded, List.length_append, ih, List.length_singleton]

theorem padded_lt_iff (width a b : ℕ) (ha : a < 10^width) (hb : b < 10^width) :
    padded width a < padded width b ↔ a < b := by
  induction width generalizing a b with
  | zero =>
    have ha0 : a = 0 := by omega
    have hb0 : b = 0 := by omega
    simp [padded, ha0, hb0]
  | succ width ih =>
    rw [pow_succ] at ha hb
    have ha' : a/10 < 10^width := by omega
    have hb' : b/10 < 10^width := by omega
    have hsame := eq_iff_of_lt_iff (padded width) (a/10) (b/10) (ih _ _ ha' hb') (ih _ _ hb' ha')
    rw [padded, padded, append_lt_append_iff _ _ _ _ (by simp only [padded_length]), ih _ _ ha' hb',
      hsame, lt_iff_digits a b, List.cons_lt_cons_iff,
      digitChar_lt_iff _ _ (Nat.mod_lt _ (by decide)) (Nat.mod_lt _ (by decide))]
    simp

theorem field_lt_iff (width a b : ℕ) (x y : List Char) (ha : a < 10^width) (hb : b < 10^width) :
    padded width a++x < padded width b++y ↔ a < b ∨ a = b ∧ x < y := by
  have hlt := padded_lt_iff width a b ha hb
  have hsame := eq_iff_of_lt_iff (padded width) a b hlt (padded_lt_iff width b a hb ha)
  rw [append_lt_append_iff _ _ _ _ (by simp only [padded_length]), hlt, hsame]

def fraction (microsecond : ℕ) : List Char :=
  (if microsecond = 0 then [] else '.'::padded 6 microsecond)++"+00:00".toList

/-- No fraction comes before any: the plus sign stands below the dot. -/
theorem fraction_lt_iff (a b : ℕ) (ha : a < 10^6) (hb : b < 10^6) :
    fraction a < fraction b ↔ a < b := by
  have hsigns : '+' < '.' := by decide
  have hzone : "+00:00".toList = '+'::"00:00".toList := by decide
  rw [fraction, fraction]
  split_ifs with ha0 hb0 hb0
  · simp [ha0, hb0]
  · refine iff_of_true ?_ (by omega)
    rw [hzone]
    exact List.cons_lt_cons_iff.mpr (Or.inl hsigns)
  · refine iff_of_false ?_ (by omega)
    rw [hzone]
    rintro h
    rcases List.cons_lt_cons_iff.mp h with hlt | ⟨heq, -⟩
    · exact absurd hlt (by decide)
    · exact absurd heq (by decide)
  · rw [List.cons_append, List.cons_append, List.cons_lt_cons_iff, field_lt_iff 6 a b _ _ ha hb]
    simp

def fields (m : Moment) : List ℕ :=
  [m.year, m.month, m.day, m.hour, m.minute, m.second, m.microsecond]

theorem isoformat_fields (m : Moment) : m.isoformat =
    padded 4 m.year++('-'::(padded 2 m.month++('-'::(padded 2 m.day++('T'::
      (padded 2 m.hour++(':'::(padded 2 m.minute++(':'::
        (padded 2 m.second++fraction m.microsecond)))))))))) := by
  simp [Moment.isoformat, Moment.date, fraction]

theorem isoformat_lt_iff (m n : Moment) :
    m.isoformat < n.isoformat ↔ fields m < fields n := by
  have htwo {k : ℕ} (hk : k ≤ 100) (i : Fin k) : i.val < 10^2 := i.isLt.trans_le hk
  rw [isoformat_fields, isoformat_fields, field_lt_iff 4 _ _ _ _ m.year.isLt n.year.isLt,
    List.cons_lt_cons_self,
    field_lt_iff 2 _ _ _ _ (htwo (by decide) m.month) (htwo (by decide) n.month),
    List.cons_lt_cons_self,
    field_lt_iff 2 _ _ _ _ (htwo (by decide) m.day) (htwo (by decide) n.day),
    List.cons_lt_cons_self,
    field_lt_iff 2 _ _ _ _ (htwo (by decide) m.hour) (htwo (by decide) n.hour),
    List.cons_lt_cons_self,
    field_lt_iff 2 _ _ _ _ (htwo (by decide) m.minute) (htwo (by decide) n.minute),
    List.cons_lt_cons_self,
    field_lt_iff 2 _ _ _ _ (htwo (by decide) m.second) (htwo (by decide) n.second),
    fraction_lt_iff _ _ m.microsecond.isLt n.microsecond.isLt]
  simp [fields, List.cons_lt_cons_iff]

def NoLater (m n : Moment) : Prop := fields m ≤ fields n

instance (m n : Moment) : Decidable (NoLater m n) := inferInstanceAs (Decidable (_ ≤ _))

theorem timestamp_le_iff (s t : String) (m n : Moment) (hs : s.toList = m.isoformat)
    (ht : t.toList = n.isoformat) : s ≤ t ↔ NoLater m n := by
  rw [← not_lt, String.lt_iff, ht, hs, isoformat_lt_iff, not_lt, NoLater]

/-- A result of the suite and the model, at a moment that is not before the
moment of any other. -/
def LatestOfSuite (results : List BenchmarkResult) (expected model : String)
    (r : BenchmarkResult) : Prop :=
  r ∈ results ∧ r.suiteVersion = expected ∧ r.modelName = model ∧
    ∃ m : Moment, r.timestamp.toList = m.isoformat ∧
      ∀ q ∈ results, q.suiteVersion = expected → q.modelName = model →
        ∃ n : Moment, q.timestamp.toList = n.isoformat ∧ NoLater n m

theorem addResult_keep (store : List (String × BenchmarkResult)) (r : BenchmarkResult) :
    addResult store r = keep BenchmarkResult.modelName BenchmarkResult.timestamp store r := by
  rw [addResult, keep]
  cases store.lookup r.modelName with
  | none => rfl
  | some existing =>
    rfl

theorem latestPerModel_latest (results : List BenchmarkResult) :
    latestPerModel results =
      latest BenchmarkResult.modelName BenchmarkResult.timestamp results := by
  have hkeep : addResult = keep BenchmarkResult.modelName BenchmarkResult.timestamp :=
    funext fun store => funext fun r => addResult_keep store r
  rw [latestPerModel, latest, hkeep]

section Results
variable (results : List BenchmarkResult) (expected : String)
  (hrunner : ∀ r ∈ results, FromRunner r.timestamp)
include hrunner

theorem newest_latestOfSuite (model : String) (r : BenchmarkResult) :
    Newest BenchmarkResult.modelName BenchmarkResult.timestamp
        (results.filter fun r => r.suiteVersion = expected) model r ↔
      LatestOfSuite results expected model r := by
  simp only [Newest, LatestOfSuite, List.mem_filter, decide_eq_true_eq]
  constructor
  · rintro ⟨⟨hr, hsuite⟩, hmodel, hmax⟩
    obtain ⟨m, hm⟩ := hrunner r hr
    refine ⟨hr, hsuite, hmodel, m, hm, fun q hq hqs hqm => ?_⟩
    obtain ⟨n, hn⟩ := hrunner q hq
    exact ⟨n, hn, (timestamp_le_iff _ _ n m hn hm).mp (hmax q ⟨hq, hqs⟩ hqm)⟩
  · rintro ⟨hr, hsuite, hmodel, m, hm, hmax⟩
    refine ⟨⟨hr, hsuite⟩, hmodel, fun q hq hqm => ?_⟩
    obtain ⟨n, hn, hle⟩ := hmax q hq.1 hq.2 hqm
    exact (timestamp_le_iff _ _ n m hn hm).mpr hle

theorem lookup_matching (hd : (results.map fun r => (r.modelName, r.timestamp)).Nodup)
    (model : String) (r : BenchmarkResult) :
    (latestPerModel (results.filter fun r => r.suiteVersion = expected)).lookup model = some r ↔
      LatestOfSuite results expected model r := by
  rw [latestPerModel_latest, lookup_latest_iff]
  · exact newest_latestOfSuite results expected hrunner model r
  · exact hd.sublist (List.filter_sublist.map _)

end Results

theorem allResults_listed (V : Validator) (dir listed : Directory) (h : listed.Perm dir) :
    (allResults V listed).Perm (allResults V dir) := by
  have hsorted (d : Directory) := List.perm_insertionSort
    (fun f g : List Char × List UInt8 => nameLe f.1 g.1) (d.filter fun f => isResultName f.1)
  exact ((hsorted listed).trans ((h.filter _).trans (hsorted dir).symm)).filterMap _

/-- In whatever order the files are listed, the selection reports an empty
store, a mismatch or the latest result of the suite for each model that has
one; and texts compare as the moments they stand for. -/
theorem suite_selection (V : Validator) (dir : Directory)
    (hrunner : ∀ r ∈ allResults V dir, FromRunner r.timestamp)
    (hd : ((allResults V dir).map fun r => (r.modelName, r.timestamp)).Nodup)
    (expected : String) :
    (∀ listed : Directory, listed.Perm dir →
      ((latestPerModelForSuite V expected listed).status = .empty ↔ allResults V dir = []) ∧
      ((latestPerModelForSuite V expected listed).status = .suiteMismatch ↔
        allResults V dir ≠ [] ∧ ∀ r ∈ allResults V dir, r.suiteVersion ≠ expected) ∧
      ∀ model r, (latestPerModelForSuite V expected listed).latest.lookup model = some r ↔
        LatestOfSuite (allResults V dir) expected model r) ∧
    ∀ m n : Moment, String.ofList m.isoformat ≤ String.ofList n.isoformat ↔ NoLater m n := by
  refine ⟨fun listed hlisted => ?_, fun m n => timestamp_le_iff _ _ m n (by simp) (by simp)⟩
  have hperm := allResults_listed V dir listed hlisted
  have hsame : allResults V listed = [] ↔ allResults V dir = [] := by
    constructor
    · intro h
      rw [h] at hperm
      exact hperm.symm.eq_nil
    · intro h
      rw [h] at hperm
      exact hperm.eq_nil
  have hmatch : (allResults V listed).filter (fun r => r.suiteVersion = expected) = [] ↔
      ∀ r ∈ allResults V dir, r.suiteVersion ≠ expected := by
    simp [List.filter_eq_nil_iff, hperm.mem_iff]
  have hrunner' : ∀ r ∈ allResults V listed, FromRunner r.timestamp :=
    fun r hr => hrunner r (hperm.mem_iff.mp hr)
  have hd' : ((allResults V listed).map fun r => (r.modelName, r.timestamp)).Nodup :=
    (hperm.map _).nodup_iff.mpr hd
  have hlatest (model : String) (r : BenchmarkResult) :
      LatestOfSuite (allResults V listed) expected model r ↔
        LatestOfSuite (allResults V dir) expected model r := by
    simp only [LatestOfSuite, hperm.mem_iff]
  have hnone (model : String) (r : BenchmarkResult)
      (h : ∀ r ∈ allResults V dir, r.suiteVersion ≠ expected) :
      ¬ LatestOfSuite (allResults V dir) expected model r :=
    fun hr => h r hr.1 hr.2.1
  rw [latestPerModelForSuite]
  dsimp only
  split_ifs with hempty hmismatch
  · have hnil := hsame.mp hempty
    refine ⟨iff_of_true rfl hnil, iff_of_false (by simp) fun h => h.1 hnil, fun model r => ?_⟩
    refine iff_of_false (by simp) (hnone model r ?_)
    rw [hnil]
    exact List.forall_mem_nil _
  · have hne := fun h => hempty (hsame.mpr h)
    refine ⟨iff_of_false (by simp) hne, iff_of_true rfl ⟨hne, hmatch.mp hmismatch⟩,
      fun model r => iff_of_false (by simp) (hnone model r (hmatch.mp hmismatch))⟩
  · have hne := fun h => hempty (hsame.mpr h)
    refine ⟨iff_of_false (by simp) hne,
      iff_of_false (by simp) fun h => hmismatch (hmatch.mpr h.2), fun model r => ?_⟩
    exact (lookup_matching _ expected hrunner' hd' model r).trans (hlatest model r)

def laterSample : BenchmarkResult :=
  { sample "phi-2" with timestamp := "2026-06-08T12:00:00.000001+00:00" }

def noon (microsecond : Fin 1000000) : Moment := ⟨2026, 6, 8, 12, 0, 0, microsecond⟩

theorem sample_noon : (sample "phi-2").timestamp.toList = (noon 0).isoformat ∧
    laterSample.timestamp.toList = (noon 1).isoformat := by decide

theorem suite_selection_later : (latestPerModelForSuite strict "v1"
    ([sample "phi-2", laterSample].foldl (save Library.CharClasses.ascii) [])).latest.lookup
      "phi-2" = some laterSample := by
  have hrunner : ∀ r ∈ [sample "phi-2", laterSample], FromRunner r.timestamp := by
    intro r hr
    rcases List.mem_pair.mp hr with rfl | rfl
    · exact ⟨_, sample_noon.1⟩
    · exact ⟨_, sample_noon.2⟩
  have hperm := (saved_read_iff Library.CharClasses.ascii strict [sample "phi-2", laterSample]
    hrunner).mpr (by decide)
  have hselect := suite_selection strict _ (fun r hr => hrunner r (hperm.mem_iff.mp hr))
    ((hperm.map _).nodup_iff.mpr (by decide)) "v1"
  refine (((hselect.1 _ (List.Perm.refl _)).2.2 "phi-2" laterSample)).mpr
    ⟨hperm.mem_iff.mpr (by simp), rfl, rfl, noon 1, sample_noon.2, fun q hq _ _ => ?_⟩
  rcases List.mem_pair.mp (hperm.mem_iff.mp hq) with rfl | rfl
  · exact ⟨noon 0, sample_noon.1, by decide⟩
  · exact ⟨noon 1, sample_noon.2, le_refl _⟩

end InferenceX.SuiteLatest
