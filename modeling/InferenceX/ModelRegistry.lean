import InferenceX.PythonValues

/-!
# Model entries, the registry and the VRAM tier

The registry is a dictionary built from a list of entries: a repeated name
keeps its place and takes the later entry. The tier is the resolved row of
the tier file; its integers come from `int(...)` without a range check.
-/

set_option autoImplicit false

namespace InferenceX.ModelRegistry

inductive GpuUtilization where
  | auto
  | fixed (share : ℚ)
  deriving DecidableEq, Repr

structure ModelEntry where
  name : String
  modelPath : String
  family : Option String
  gpuMemoryUtilization : Option GpuUtilization
  maxModelLen : Option ℤ
  maxNumSeqs : Option ℤ
  maxNumBatchedTokens : Option ℤ
  quantization : Option String
  instructionTuned : Bool
  maxCompletionTokens : Option ℤ
  repetitionPenalty : Option ℚ
  deriving DecidableEq, Repr

def positive : Option ℤ → Bool
  | none => true
  | some z => decide (1 ≤ z)

def ModelEntry.valid (e : ModelEntry) : Bool :=
  (match e.gpuMemoryUtilization with
    | some (.fixed share) => decide (0 ≤ share) && decide (share ≤ 1)
    | _ => true) &&
  positive e.maxModelLen && positive e.maxNumSeqs && positive e.maxNumBatchedTokens &&
  positive e.maxCompletionTokens &&
  (match e.repetitionPenalty with
    | some penalty => decide (0 < penalty)
    | none => true)

abbrev ValidEntry := { e : ModelEntry // e.valid = true }

structure VramTier where
  name : String
  minVramGb : ℚ
  gpuMemoryUtilizationCeiling : ℚ
  maxModelLenCap : ℤ
  maxNumSeqs : ℤ
  blockSize : ℤ
  kvCacheDtype : String
  maxNumBatchedTokens : Option ℤ
  enablePrefixCaching : Bool
  deriving DecidableEq, Repr

def store (e : ValidEntry) : List ValidEntry → List ValidEntry
  | [] => [e]
  | x::xs => if x.val.name = e.val.name then e::xs else x::store e xs

theorem store_names (e : ValidEntry) (xs : List ValidEntry) (n : String) :
    n ∈ (store e xs).map (fun x => x.val.name) ↔
      n = e.val.name ∨ n ∈ xs.map (fun x => x.val.name) := by
  induction xs with
  | nil => simp [store]
  | cons x xs ih =>
    rw [store]
    split_ifs with hx
    · simp [hx]
    · rw [List.map_cons, List.mem_cons, ih, List.map_cons, List.mem_cons]
      tauto

theorem store_nodup (e : ValidEntry) (xs : List ValidEntry)
    (h : (xs.map fun x => x.val.name).Nodup) :
    ((store e xs).map fun x => x.val.name).Nodup := by
  induction xs with
  | nil => simp [store]
  | cons x xs ih =>
    obtain ⟨hx, hxs⟩ := List.nodup_cons.mp h
    rw [store]
    split_ifs with he
    · simpa [he] using h
    · refine List.nodup_cons.mpr ⟨?_, ih hxs⟩
      rw [store_names]
      rintro (heq | hmem)
      · exact he heq
      · exact hx hmem

theorem find_name (xs : List ValidEntry) (hn : (xs.map fun x => x.val.name).Nodup)
    (e : ValidEntry) (h : e ∈ xs) : xs.find? (fun x => x.val.name = e.val.name) = some e := by
  induction xs with
  | nil => cases h
  | cons x xs ih =>
    obtain ⟨hx, hxs⟩ := List.nodup_cons.mp hn
    rcases List.mem_cons.mp h with rfl | hmem
    · exact List.find?_cons_of_pos (by simp)
    · have hne : x.val.name ≠ e.val.name :=
        fun heq => hx (List.mem_map.mpr ⟨e, hmem, heq.symm⟩)
      rw [List.find?_cons_of_neg (by simpa using hne)]
      exact ih hxs hmem

/-- Registered entries under pairwise distinct names, in insertion order. -/
structure Registry where
  entries : List ValidEntry
  nodup : (entries.map fun x => x.val.name).Nodup

namespace Registry

def empty : Registry := ⟨[], List.nodup_nil⟩

def insert (r : Registry) (e : ValidEntry) : Registry :=
  ⟨store e r.entries, store_nodup e r.entries r.nodup⟩

/-- `{m.name: m for m in models}`. -/
def ofModels (models : List ValidEntry) : Registry := models.foldl insert empty

def find (r : Registry) (name : String) : Option ValidEntry :=
  r.entries.find? fun e => e.val.name = name

/-- `name in registry`. -/
def contains (r : Registry) (name : String) : Bool := (r.find name).isSome

def names (r : Registry) : List String := r.entries.map fun e => e.val.name

theorem find_mem (r : Registry) (e : ValidEntry) (h : e ∈ r.entries) :
    r.find e.val.name = some e := find_name r.entries r.nodup e h

end Registry

end InferenceX.ModelRegistry
