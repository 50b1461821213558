import InferenceX.Library.DecimalText
import InferenceX.VllmPoolConfig

/-!
# What a failed engine start is reported as

The text of an initialization error is searched for the words of known
failures, and the first one found gives the report. The position limit in a
report is cut from the text and stripped of zeros and dots at its end, so it is
the limit of the engine only where the numeral stops before the zeros of its
whole part.
-/

set_option autoImplicit false

namespace InferenceX.InitErrors
open Library.CharClasses Library.DecimalText
open InferenceX.PythonValues InferenceX.VllmPoolConfig

def lowerChar (c : Char) : List Char :=
  if c.toNat = 0x212a then ['k']
  else if c.toNat = 0x130 then ['i', Char.ofNat 0x307]
  else [c.toLower]

/-- `text.lower()`, as far as an ASCII word can tell. -/
def pyLower (text : List Char) : List Char := text.flatMap lowerChar

def has (words : String) (text : List Char) : Bool := occurs words.toList text

def gatedRepoHint : String :=
  "Request access on HuggingFace, then authenticate:\n" ++
  "  1. Visit the model page and accept the license\n" ++
  "  2. uv run hf auth login\n" ++
  "  3. Or export HF_TOKEN=<your-token> before starting the server"

def gatedModelStartupError (modelName modelPath : String) : String :=
  s!"Model '{modelName}' ({modelPath}) is gated on HuggingFace.\n{gatedRepoHint}"

def earlierBranch (modelName modelPath : String) (msg : List Char) : Option String :=
  let lower := pyLower msg
  if has "gated repo" lower ∨ has "gatedrepo" lower ∨ has "not in the authorized list" lower ∨
      (has "403" msg ∧ has "forbidden" lower) then
    some (gatedModelStartupError modelName modelPath)
  else if has "out of memory" lower ∨ has "oom" msg then
    some (s!"CUDA OOM loading {modelPath}. " ++
      "Reduce gpu_memory_utilization or use a smaller model.")
  else if has "free memory on device" lower ∨
      (has "gpu memory utilization" lower ∧ has "less than desired" lower) then
    some (s!"GPU memory insufficient to start {modelName}. " ++
      "Lower gpu_memory_utilization in config/models.yaml, stop other GPU " ++
      "processes (e.g. a previous ./scripts/dev.sh serve), or use a smaller model.")
  else if has "cache blocks" lower ∨ has "kv cache" lower ∨
      has "no available memory for the cache" lower then
    some (s!"GPU memory insufficient for KV cache loading {modelName}. " ++
      "On ≤6 GiB GPUs, load one model: " ++
      "INFERENCE_X_LOADED_MODELS=qwen2.5-0.5b ./scripts/dev.sh serve. " ++
      "For a single model, raise gpu_memory_utilization (e.g. 0.85) and/or " ++
      "lower max_model_len (e.g. 2048) in config/models.yaml. " ++
      "Stop other GPU processes (nvidia-smi) before retrying.")
  else if has "mamba cache blocks" lower ∨ has "max_num_seqs" lower then
    some (s!"GPU memory insufficient for Mamba/state cache loading {modelName}. " ++
      "Hybrid models (e.g. Qwen3.5) need more VRAM headroom than dense models. " ++
      "Set max_num_seqs (e.g. 64) and/or lower max_model_len in config/models.yaml, " ++
      "or raise gpu_memory_utilization.")
  else if has "not found" lower then
    some s!"Model not found: {modelPath}. Check model_path in config/models.yaml."
  else none

def limitMarker : List Char := "derived max_model_len (max_position_embeddings=".toList

/-- `[\d.]`. -/
def numeralChar (k : CharTable) (c : Char) : Bool := (k.digit c).isSome || c == '.'

/-- `derived max_model_len \(max_position_embeddings=([\d.]+)` at the front of a text. -/
def limitHere (k : CharTable) (text : List Char) : Option (List Char) :=
  if limitMarker.isPrefixOf text then
    match (text.drop limitMarker.length).takeWhile (numeralChar k) with
    | [] => none
    | group => some group
  else none

def limitHint (k : CharTable) (msg : List Char) : List Char :=
  match msg.tails.findSome? (limitHere k) with
  | some group => strip group
  | none => "the model limit".toList

def limitError (modelName : String) (hint : List Char) : String :=
  s!"max_model_len in config/models.yaml for {modelName} exceeds the " ++
    s!"model's position limit ({String.ofList hint}). Lower max_model_len for " ++
    s!"{modelName} in config/models.yaml."

/-- The branches behind the one for the position limit; the probe is made where
the engine core failed. -/
def laterBranch (probe : Probe) (modelName : String) (msg : List Char) : String :=
  let lower := pyLower msg
  let failed := s!"vLLM initialization failed for {modelName}: {String.ofList msg}"
  if has "nvcc" lower ∨ has "cuda_home" lower then
    "vLLM FlashInfer JIT requires nvcc. On WSL2 without a system CUDA " ++
      "toolkit, run via `uv run` so the bundled nvidia-cuda-nvcc wheel is " ++
      "used, or set CUDA_HOME to your CUDA toolkit root."
  else if has "engine core initialization failed" lower then
    match probe.free, probe.totalGib with
    | some free, some total =>
      if total ≤ 10 ∧ has "8b" (pyLower modelName.toList) then
        s!"vLLM failed loading {modelName} on a {fixedText 0 total} GiB GPU. " ++
          "Llama 3 8B in bf16 needs roughly 16 GiB VRAM for weights alone. " ++
          "Use a smaller model (e.g. qwen2.5-1.5b) or a quantized checkpoint."
      else
        s!"vLLM engine subprocess failed for {modelName}. " ++
          s!"GPU has {fixedText 2 (roundPlaces 2 free)}/{fixedText 2 total} GiB free. " ++
          "Lower gpu_memory_utilization in config/models.yaml, stop other " ++
          "GPU processes, or use a smaller model."
    | _, _ => failed
  else failed

def mapVllmInitError (k : CharTable) (probe : Probe) (modelName modelPath : String)
    (msg : List Char) : PyError :=
  .runtimeError (match earlierBranch modelName modelPath msg with
    | some report => report
    | none =>
      if has "greater than the derived max_model_len" (pyLower msg) then
        limitError modelName (limitHint k msg)
      else laterBranch probe modelName msg)

def lead (before : List Char) : List Char := before++"greater than the ".toList

def limitText (before : List Char) (number : Numeral) (dots : ℕ) (after : List Char) : List Char :=
  lead before++(limitMarker++(number.chars++(List.replicate dots '.'++after)))

/-- An error of the form `... greater than the derived max_model_len
(max_position_embeddings=N ...`: the numeral is the first one behind the
marker, and ends there, but for dots. -/
structure LimitMessage (k : CharTable) where
  before : List Char
  number : Numeral
  dots : ℕ
  after : List Char
  ends : ∀ c ∈ after.head?, numeralChar k c = false
  first : ∀ i < (lead before).length,
    limitHere k ((limitText before number dots after).drop i) = none

def LimitMessage.text {k : CharTable} (m : LimitMessage k) : List Char :=
  limitText m.before m.number m.dots m.after

theorem occurs_between (words before after : List Char) :
    occurs words (before++(words++after)) = true := by
  rw [occurs, List.any_eq_true]
  exact ⟨words++after, (List.mem_tails _ _).mpr (List.suffix_append _ _),
    List.isPrefixOf_iff_prefix.mpr (List.prefix_append _ _)⟩

theorem has_limit (before : List Char) (number : Numeral) (dots : ℕ) (after : List Char) :
    has "greater than the derived max_model_len" (pyLower (limitText before number dots after)) =
      true := by
  have hwords : pyLower ("greater than the ".toList++limitMarker) =
      "greater than the derived max_model_len".toList++" (max_position_embeddings=".toList := by
    decide +kernel
  have hsplit : ∀ xs ys, pyLower (xs++ys) = pyLower xs++pyLower ys := fun _ _ =>
    List.flatMap_append
  rw [limitText, lead, List.append_assoc, ← List.append_assoc "greater than the ".toList, hsplit,
    hsplit, hwords, List.append_assoc]
  exact occurs_between _ _ _

section Search
variable (k : CharTable)

theorem digit_numeralChar (c : Char) (h : c.isDigit = true) : numeralChar k c = true := by
  have hascii : c.toNat < 128 := by
    simp only [Char.isDigit, Bool.and_eq_true, decide_eq_true_eq, UInt32.le_iff_toNat_le] at h
    have hval : c.toNat = c.val.toNat := rfl
    have hnine : '9'.val.toNat = 57 := rfl
    omega
  rw [numeralChar, k.digit_ascii c hascii, if_pos h]
  rfl

theorem chars_numeral (n : Numeral) : ∀ c ∈ n.chars, numeralChar k c = true := by
  intro c hc
  rcases List.mem_append.mp hc with hc | hc
  · exact digit_numeralChar k c (digitChars_digits _ c hc)
  · split_ifs at hc
    · cases hc
    · rcases List.mem_cons.mp hc with rfl | hc
      · exact Bool.or_true _
      · exact digit_numeralChar k c (digitChars_digits _ c hc)

theorem chars_ne_nil (n : Numeral) : n.chars ≠ [] := by
  intro h
  exact n.whole_ne ((digitChars_eq_nil _).mp (List.append_eq_nil_iff.mp h).1)

theorem limitHere_marker (n : Numeral) (dots : ℕ) (after : List Char)
    (hends : ∀ c ∈ after.head?, numeralChar k c = false) :
    limitHere k (limitMarker++(n.chars++(List.replicate dots '.'++after))) =
      some (n.chars++List.replicate dots '.') := by
  have hdots : ∀ c ∈ List.replicate dots '.', numeralChar k c = true := by
    intro c hc
    rw [List.eq_of_mem_replicate hc]
    exact Bool.or_true _
  have hafter : after.takeWhile (numeralChar k) = [] := by
    cases after with
    | nil => rfl
    | cons c after => simp [hends c rfl]
  have hgroup : (n.chars++(List.replicate dots '.'++after)).takeWhile (numeralChar k) =
      n.chars++List.replicate dots '.' := by
    rw [List.takeWhile_append_of_pos (chars_numeral k n), List.takeWhile_append_of_pos hdots,
      hafter, List.append_nil]
  rw [limitHere, if_pos (List.isPrefixOf_iff_prefix.mpr (List.prefix_append _ _)),
    List.drop_left, hgroup]
  split
  · rename_i hnil
    exact absurd (List.append_eq_nil_iff.mp hnil).1 (chars_ne_nil n)
  · rfl

theorem findSome_tails (f : List Char → Option (List Char)) (front rest : List Char)
    (r : List Char) (hfirst : ∀ i < front.length, f ((front++rest).drop i) = none)
    (hr : f rest = some r) : (front++rest).tails.findSome? f = some r := by
  induction front with
  | nil =>
    cases rest with
    | nil => simp [hr]
    | cons c rest => rw [List.nil_append, List.tails_cons, List.findSome?_cons, hr]
  | cons c front ih =>
    have hhere : f (c::(front++rest)) = none := hfirst 0 (Nat.succ_pos _)
    rw [List.cons_append, List.tails_cons, List.findSome?_cons, hhere]
    exact ih fun i hi => hfirst (i+1) (Nat.succ_lt_succ hi)

theorem limitHint_text (m : LimitMessage k) : limitHint k m.text = strip m.number.chars := by
  have hdots : strip (List.replicate m.dots '.') = [] := by
    apply List.rdropWhile_eq_nil_iff.mpr
    intro c hc
    rw [List.eq_of_mem_replicate hc]
    rfl
  have hsearch := findSome_tails (limitHere k) (lead m.before) _ _ m.first
    (limitHere_marker k m.number m.dots m.after m.ends)
  rw [limitHint, LimitMessage.text, limitText, hsearch]
  show strip (m.number.chars++List.replicate m.dots '.') = _
  rw [strip, rdropWhile_append, ← strip, hdots, if_pos rfl]
  rfl

end Search

theorem limitError_injective (modelName : String) (hint other : List Char)
    (h : limitError modelName hint = limitError modelName other) : hint = other := by
  unfold limitError at h
  have hleft := (String.append_right_inj _).mp ((String.append_left_inj _).mp h)
  have hhint := (String.append_right_inj _).mp ((String.append_left_inj _).mp hleft)
  exact String.ofList_injective hhint

section Reports
variable (k : CharTable) (probe : Probe) (modelName modelPath : String) (m : LimitMessage k)

theorem report_eq (h : earlierBranch modelName modelPath m.text = none) :
    mapVllmInitError k probe modelName modelPath m.text =
      .runtimeError (limitError modelName (strip m.number.chars)) := by
  have hlimit : has "greater than the derived max_model_len" (pyLower m.text) = true :=
    has_limit _ _ _ _
  rw [mapVllmInitError, h]
  dsimp only
  rw [if_pos hlimit, limitHint_text]

/-- The limit that is reported is that of the engine exactly where its fraction
is not all zeros, or its whole part does not end in one. -/
theorem reported_limit_iff (h : earlierBranch modelName modelPath m.text = none) :
    (∃ hint, mapVllmInitError k probe modelName modelPath m.text =
        .runtimeError (limitError modelName hint) ∧ read hint = some m.number.value) ↔
      m.number.Kept := by
  rw [← read_strip_iff, report_eq k probe modelName modelPath m h]
  constructor
  · rintro ⟨hint, heq, hread⟩
    rwa [limitError_injective modelName _ _ (PyError.runtimeError.inj heq)]
  · intro hread
    exact ⟨_, rfl, hread⟩

end Reports

def windowText : List Char := "max_model_len (40000) is ".toList

def windowMessage (number : Numeral) (first : ∀ i < (lead windowText).length,
    limitHere ascii ((limitText windowText number 0 [')', '.']).drop i) = none) :
    LimitMessage ascii where
  before := windowText
  number := number
  dots := 0
  after := [')', '.']
  ends c hc := by
    obtain rfl : ')' = c := Option.some.inj hc
    rfl
  first := first

def shortLimit : LimitMessage ascii :=
  windowMessage ⟨[2, 0, 4, 8], [], by decide⟩ (by decide +kernel)

def roundLimit : LimitMessage ascii :=
  windowMessage ⟨[3, 2, 0, 0, 0], [], by decide⟩ (by decide +kernel)

theorem short_limit_reported : ∃ hint,
    mapVllmInitError ascii ⟨none, none⟩ "m" "org/m" shortLimit.text =
      .runtimeError (limitError "m" hint) ∧ read hint = some shortLimit.number.value :=
  (reported_limit_iff ascii ⟨none, none⟩ "m" "org/m" shortLimit (by decide +kernel)).mpr
    (Or.inr (by decide))

/-- The limit of 32000 is reported as 32. -/
theorem round_limit_misreported : ¬ ∃ hint,
    mapVllmInitError ascii ⟨none, none⟩ "m" "org/m" roundLimit.text =
      .runtimeError (limitError "m" hint) ∧ read hint = some roundLimit.number.value := by
  rintro ⟨hint, heq, hread⟩
  rw [report_eq ascii _ _ _ roundLimit (by decide +kernel)] at heq
  rw [← limitError_injective _ _ _ (PyError.runtimeError.inj heq)] at hread
  revert hread
  decide +kernel

end InferenceX.InitErrors
