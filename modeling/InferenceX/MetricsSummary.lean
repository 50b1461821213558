import InferenceX.Library.StableSort
import InferenceX.MetricsRecording

/-!
# The summary of recorded requests

The latencies of the retained records are sorted and the one at a truncated
index is reported as their 95th percentile. Behind the truncation one place is
missing wherever 95 in 100 is no whole number of records, so that place and
the next have to agree. Latencies are exact rationals.
-/

set_option autoImplicit false

namespace InferenceX.MetricsSummary
open Library.StableSort
open InferenceX.PythonValues InferenceX.MetricsRecording

/-- A ring buffer: the last records, as many as it holds. -/
structure InMemoryStorage where
  maxRecords : ℕ
  buf : List RequestRecord
  capped : buf.length ≤ maxRecords

namespace InMemoryStorage

def create (maxRecords : ℕ) : InMemoryStorage := ⟨maxRecords, [], Nat.zero_le _⟩

def append (s : InMemoryStorage) (record : RequestRecord) : InMemoryStorage where
  maxRecords := s.maxRecords
  buf := (s.buf++[record]).drop (s.buf.length+1-s.maxRecords)
  capped := by
    rw [List.length_drop, List.length_append, List.length_singleton]
    omega

def all (s : InMemoryStorage) : List RequestRecord := s.buf

end InMemoryStorage

structure Summary where
  totalRequests : ℕ
  errorCount : ℕ
  avgLatencyMs : Option ℚ
  p95LatencyMs : Option ℚ
  avgTtftMs : Option ℚ
  avgTokensPerSec : Option ℚ

/-- `round(sum(xs) / len(xs), 3) if xs else None`. -/
def average (xs : List ℚ) : Option ℚ :=
  if xs = [] then none else some (roundPlaces 3 (xs.sum/xs.length))

def sortedLatencies (records : List RequestRecord) : List ℚ :=
  (records.map fun r => r.latencyMs).insertionSort (· ≤ ·)

/-- `max(0, int(n * 0.95) - 1)`. -/
def p95Index (n : ℕ) : ℕ := (max 0 (truncate ((n : ℚ)*(95/100))-1)).toNat

def summary (storage : InMemoryStorage) : Except PyError Summary :=
  let records := storage.all
  if records = [] then .ok ⟨0, 0, none, none, none, none⟩
  else
    let latencies := sortedLatencies records
    match latencies[p95Index latencies.length]? with
    | none => .error .indexError
    | some p95 => .ok {
        totalRequests := records.length
        errorCount := records.countP fun r => r.error
        avgLatencyMs := average latencies
        p95LatencyMs := some (roundPlaces 3 p95)
        avgTtftMs := average (records.filterMap fun r => r.ttftMs)
        avgTokensPerSec := average (records.filterMap fun r => r.tokensPerSec) }

theorem p95Index_eq (n : ℕ) : p95Index n = 19*n/20-1 := by
  have htrunc : truncate ((n : ℚ)*(95/100)) = ((19*n/20 : ℕ) : ℤ) := by
    have hshare : (n : ℚ)*(95/100) = ((19*n : ℕ) : ℚ)/((20 : ℕ) : ℚ) := by
      push_cast
      ring
    rw [truncate_of_nonneg _ (by positivity), hshare, Rat.floor_natCast_div_natCast]
    rfl
  rw [p95Index, htrunc]
  omega

def fullIndex (n : ℕ) : ℕ := (19*n+19)/20-1

theorem indices (n : ℕ) (h : 0 < n) :
    p95Index n ≤ fullIndex n ∧ fullIndex n < n := by
  rw [p95Index_eq, fullIndex]
  omega

/-- Enough records are at most `x` exactly where the one at the full index is. -/
theorem enough_iff (latencies : List ℚ) (hs : latencies.Pairwise (· ≤ ·)) (x : ℚ)
    (h : fullIndex latencies.length < latencies.length) :
    latencies[fullIndex latencies.length] ≤ x ↔
      19*latencies.length ≤ 20*latencies.countP (· ≤ x) := by
  rw [getElem_le_iff latencies hs _ h x]
  rw [fullIndex] at h ⊢
  omega

/-- The reported value is a recorded latency, to three decimals, and at least
95 in 100 of the records are at most that latency. -/
def IsP95 (records : List RequestRecord) (p95 : ℚ) : Prop :=
  ∃ r ∈ records, p95 = roundPlaces 3 r.latencyMs ∧
    95*records.length ≤ 100*records.countP fun q => q.latencyMs ≤ r.latencyMs

section Sorted
variable (records : List RequestRecord)

theorem sortedLatencies_perm :
    (sortedLatencies records).Perm (records.map fun r => r.latencyMs) :=
  List.perm_insertionSort _ _

theorem sortedLatencies_length : (sortedLatencies records).length = records.length := by
  rw [(sortedLatencies_perm records).length_eq, List.length_map]

theorem sortedLatencies_sorted : (sortedLatencies records).Pairwise (· ≤ ·) :=
  List.pairwise_insertionSort _ _

theorem sortedLatencies_countP (x : ℚ) :
    (sortedLatencies records).countP (· ≤ x) = records.countP fun q => q.latencyMs ≤ x := by
  rw [(sortedLatencies_perm records).countP_eq, List.countP_map]
  rfl

theorem mem_sortedLatencies (x : ℚ) :
    x ∈ sortedLatencies records ↔ ∃ r ∈ records, r.latencyMs = x := by
  rw [(sortedLatencies_perm records).mem_iff, List.mem_map]

/-- The latency at an earlier place is a percentile exactly where it rounds as
the one at the full index does. -/
theorem isP95_iff (i : ℕ) (hi : i ≤ fullIndex (sortedLatencies records).length)
    (hf : fullIndex (sortedLatencies records).length < (sortedLatencies records).length) :
    IsP95 records (roundPlaces 3 ((sortedLatencies records).get ⟨i, hi.trans_lt hf⟩)) ↔
      roundPlaces 3 ((sortedLatencies records).get ⟨i, hi.trans_lt hf⟩) =
        roundPlaces 3 ((sortedLatencies records).get ⟨_, hf⟩) := by
  have hsorted := sortedLatencies_sorted records
  have hle : (sortedLatencies records).get ⟨i, hi.trans_lt hf⟩ ≤
      (sortedLatencies records).get ⟨_, hf⟩ := by
    rcases hi.lt_or_eq with hlt | heq
    · exact List.pairwise_iff_getElem.mp hsorted _ _ _ hf hlt
    · simp [heq]
  have henough (x : ℚ) : (sortedLatencies records).get ⟨_, hf⟩ ≤ x ↔
      95*records.length ≤ 100*records.countP fun q => q.latencyMs ≤ x := by
    rw [← sortedLatencies_countP, ← sortedLatencies_length, List.get_eq_getElem,
      enough_iff _ hsorted x hf]
    omega
  constructor
  · rintro ⟨r, -, hround, hcount⟩
    apply le_antisymm (roundPlaces_mono 3 hle)
    rw [hround]
    exact roundPlaces_mono 3 ((henough _).mpr hcount)
  · intro hround
    obtain ⟨r, hr, hlatency⟩ := (mem_sortedLatencies records _).mp (List.get_mem _ ⟨_, hf⟩)
    refine ⟨r, hr, by rw [hround, hlatency], ?_⟩
    rw [← henough, hlatency]

end Sorted

/-- To three decimals the latency at place `⌊0.95 n⌋` is the next one. -/
def NextAgrees (records : List RequestRecord) : Prop :=
  ∃ a b, (sortedLatencies records)[19*records.length/20-1]? = some a ∧
    (sortedLatencies records)[19*records.length/20]? = some b ∧
    roundPlaces 3 a = roundPlaces 3 b

/-- The reported latency is a 95th percentile exactly where there is one record
or a multiple of twenty, or where no rounded step follows behind its place. -/
theorem p95_iff (storage : InMemoryStorage) (h : storage.all ≠ []) :
    ∃ s p95, summary storage = .ok s ∧ s.p95LatencyMs = some p95 ∧
      (IsP95 storage.all p95 ↔
        storage.all.length = 1 ∨ 20 ∣ storage.all.length ∨ NextAgrees storage.all) := by
  have hlen := sortedLatencies_length storage.all
  have hpos : 0 < storage.all.length := List.length_pos_of_ne_nil h
  obtain ⟨hle, hf⟩ := indices (sortedLatencies storage.all).length (hlen.symm ▸ hpos)
  have hget : (sortedLatencies storage.all)[p95Index (sortedLatencies storage.all).length]? =
      some ((sortedLatencies storage.all).get ⟨_, hle.trans_lt hf⟩) :=
    List.getElem?_eq_getElem _
  have hiff := isP95_iff storage.all _ hle hf
  refine ⟨_, _, by rw [summary]; simp only [if_neg h, hget]; rfl, rfl, ?_⟩
  rw [hiff]
  by_cases hsame : fullIndex (sortedLatencies storage.all).length =
      p95Index (sortedLatencies storage.all).length
  · apply iff_of_true
    · simp [hsame]
    · rw [p95Index_eq, fullIndex, hlen] at hsame
      omega
  · have hnext : fullIndex (sortedLatencies storage.all).length = 19*storage.all.length/20 := by
      rw [p95Index_eq, fullIndex, hlen] at hsame
      rw [fullIndex, hlen]
      omega
    have hfirst : p95Index (sortedLatencies storage.all).length =
        19*storage.all.length/20-1 := by
      rw [p95Index_eq, hlen]
    have hone : ¬ storage.all.length = 1 ∧ ¬ 20 ∣ storage.all.length := by
      rw [p95Index_eq, fullIndex, hlen] at hsame
      omega
    have hfull : (sortedLatencies storage.all)[19*storage.all.length/20]? =
        some ((sortedLatencies storage.all).get ⟨_, hf⟩) := by
      rw [← hnext]
      exact List.getElem?_eq_getElem _
    have hplace : (sortedLatencies storage.all)[19*storage.all.length/20-1]? =
        some ((sortedLatencies storage.all).get ⟨_, hle.trans_lt hf⟩) := by
      rw [← hfirst]
      exact hget
    simp only [NextAgrees, hone.1, hone.2, false_or, hplace, hfull, Option.some.injEq,
      exists_and_left, exists_eq_left']

def served (latencyMs : ℚ) : RequestRecord :=
  ⟨"r", "/v1/models", "GET", 200, latencyMs, none, none, none, none, false, none, none⟩

def stored (records : List RequestRecord) : InMemoryStorage :=
  records.foldl InMemoryStorage.append (.create 1000)

theorem p95_single : ∃ s p95, summary (stored [served 12]) = .ok s ∧ s.p95LatencyMs = some p95 ∧
    IsP95 (stored [served 12]).all p95 := by
  obtain ⟨s, p95, hs, hp, hiff⟩ := p95_iff (stored [served 12]) (List.cons_ne_nil _ _)
  exact ⟨s, p95, hs, hp, hiff.mpr (Or.inl rfl)⟩

/-- Of two records the faster one is reported, and half of them took longer. -/
theorem p95_pair : ((summary (stored [served 10, served 900])).map fun s => s.p95LatencyMs) =
      .ok (some 10) ∧
    ¬ IsP95 (stored [served 10, served 900]).all 10 := by
  refine ⟨by decide +kernel, ?_⟩
  have hall : (stored [served 10, served 900]).all = [served 10, served 900] := rfl
  rw [hall]
  rintro ⟨r, hr, hround, hcount⟩
  rcases List.mem_pair.mp hr with rfl | rfl
  · exact absurd hcount (by decide +kernel)
  · exact absurd hround (by decide +kernel)

end InferenceX.MetricsSummary
