import InferenceX.EngineSampling
import InferenceX.StrictMode

/-!
# The exact outcome of the clamping gates

Without `strict` the two gates are lowerings of one number: the context gate
lowers the requested output to the room beside the prompt, the KV gate lowers
the result to the whole tokens of budget that are left. A lowering to less
than sixteen tokens, or any lowering of a batch request, is a rejection.
-/

set_option autoImplicit false

namespace InferenceX.ClampOutcome
open InferenceX.PythonValues InferenceX.ChatSchema InferenceX.ModelRegistry
open InferenceX.AdmissionGates InferenceX.AdmissionMachine
open InferenceX.EngineSampling InferenceX.StrictMode

def room (c : AdmissionController) (model : String) (r : ChatCompletionRequest) (prompt : ℤ) : ℤ :=
  c.requestCeiling model r-prompt

def available (c : AdmissionController) (capacity reservedNow prompt : ℤ) : ℚ :=
  capacity*c.kvSafetyMargin-reservedNow-prompt

def floorFit (n : ℤ) : Option ℚ → ℤ
  | none => n
  | some a => min n ⌊a⌋

/-- The budget that the KV gate applies; `none` when the engine reports no capacity. -/
def budgetLeft (c : AdmissionController) (engine : BaseEngine) (reservedNow prompt : ℤ) :
    Option ℚ :=
  engine.kvCapacityTokens.map fun n => available c n reservedNow prompt

def substituted (ws : List ResponseWarning) : List ResponseWarning :=
  ws.filter fun w => w.type = .substituted

def Refuses (r : ChatCompletionRequest) (n : ℤ) (a : ℚ) : Prop :=
  a < n ∧ (r.priority = .batch ∨ a < minClampedOutputTokens ∨ r.strict = true)

def Whole (c : AdmissionController) (model : String) (r : ChatCompletionRequest)
    (engine : BaseEngine) (reservedNow prompt : ℤ) : Prop :=
  requestedOutput r ≤ room c model r prompt ∧
    ∀ a, budgetLeft c engine reservedNow prompt = some a → (requestedOutput r : ℚ) ≤ a

section Gates
variable (c : AdmissionController) (model : String) (r : ChatCompletionRequest)

theorem contextGate_error (prompt : ℤ) :
    (∃ e, contextGate c model r prompt = .error e) ↔
      prompt > c.requestCeiling model r ∨ Refuses r (requestedOutput r)
        (room c model r prompt) := by
  simp only [Refuses, Int.cast_lt, contextGate, room]
  split_ifs with hp he hb hs
  · exact iff_of_true ⟨_, rfl⟩ (Or.inl hp)
  · exact iff_of_true ⟨_, rfl⟩ (Or.inr ⟨by omega, or_assoc.mp (Or.inl hb)⟩)
  · exact iff_of_true ⟨_, rfl⟩ (Or.inr ⟨by omega, Or.inr (Or.inr hs)⟩)
  · simp only [exists_false, false_iff]
    rintro (h | ⟨-, h⟩)
    · exact hp h
    · exact (or_assoc.mpr h).elim hb hs
  · simp only [exists_false, false_iff]
    omega

theorem contextGate_warning (prompt fitted : ℤ) (ws : List ResponseWarning)
    (h : contextGate c model r prompt = .ok (fitted, ws)) :
    substituted ws = if fitted < requestedOutput r then
      [clampedToContext (requestedOutput r) fitted (c.requestCeiling model r)] else [] := by
  rcases (contextGate_ok c model r prompt fitted ws h).2 with ⟨rfl, rfl⟩ | ⟨-, hlt, rfl⟩
  · simp [substituted]
  · rw [if_pos hlt]
    rfl

theorem kvGate_error (engine : BaseEngine) (reservedNow prompt fitted : ℤ) :
    (∃ e, kvGate c model r engine.kvCapacityTokens reservedNow prompt fitted = .error e) ↔
      ∃ a, budgetLeft c engine reservedNow prompt = some a ∧ Refuses r fitted a := by
  cases hn : engine.kvCapacityTokens with
  | none => simp [kvGate, budgetLeft, hn]
  | some n =>
    simp only [budgetLeft, hn, Option.map_some, Option.some.injEq, exists_eq_left', Refuses,
      available]
    simp only [kvGate]
    split_ifs with ha hb hs
    · exact iff_of_true ⟨_, rfl⟩ ⟨ha, or_assoc.mp (Or.inl hb)⟩
    · exact iff_of_true ⟨_, rfl⟩ ⟨ha, Or.inr (Or.inr hs)⟩
    · simp only [exists_false, false_iff]
      rintro ⟨-, h⟩
      exact (or_assoc.mpr h).elim hb hs
    · simp [ha]

theorem kvGate_floor (engine : BaseEngine) (reservedNow prompt fitted output : ℤ)
    (ws : List ResponseWarning)
    (h : kvGate c model r engine.kvCapacityTokens reservedNow prompt fitted = .ok (output, ws)) :
    output = floorFit fitted (budgetLeft c engine reservedNow prompt) ∧
      (output < fitted → 16 ≤ output) ∧
      substituted ws = if output < fitted then [clampedToKvBudget fitted output] else [] := by
  cases hn : engine.kvCapacityTokens with
  | none =>
    rw [hn] at h
    obtain ⟨rfl, rfl⟩ := Prod.mk.inj (Except.ok.inj h)
    simp [floorFit, budgetLeft, hn, substituted, kvGateSkipped]
  | some n =>
    rw [hn] at h
    obtain ⟨hbudget, hfit⟩ := kvGate_ok c model r n reservedNow prompt fitted output ws h
    have hle : (output : ℚ) ≤ available c n reservedNow prompt := by
      rw [available]
      linarith
    have hfloor : output ≤ ⌊available c n reservedNow prompt⌋ := Int.le_floor.mpr hle
    simp only [floorFit, budgetLeft, hn, Option.map_some]
    rcases hfit with ⟨rfl, rfl⟩ | ⟨hmin, hlt, rfl⟩
    · exact ⟨(min_eq_left hfloor).symm, fun h => absurd h (lt_irrefl _), by simp [substituted]⟩
    · have hout := kvGate_granted c model r (some n) reservedNow prompt fitted output _
        (by simp only [minClampedOutputTokens] at hmin; omega) h
      have hnonneg : (0 : ℚ) ≤ available c n reservedNow prompt :=
        le_trans (by simp only [minClampedOutputTokens] at hmin; exact_mod_cast (by omega)) hle
      rw [kvFit, ← available, truncate_of_nonneg _ hnonneg] at hout
      exact ⟨hout, fun _ => hmin, by rw [if_pos hlt]; rfl⟩

end Gates

def fits (c : AdmissionController) (model : String) (r : ChatCompletionRequest)
    (engine : BaseEngine) (reservedNow prompt : ℤ) : ℤ :=
  floorFit (min (requestedOutput r) (room c model r prompt))
    (budgetLeft c engine reservedNow prompt)

theorem substituted_append (xs ys : List ResponseWarning) :
    substituted (xs++ys) = substituted xs++substituted ys := List.filter_append ..

theorem substituted_clean (ws : List ResponseWarning) (h : Clean ws) : substituted ws = [] := by
  rw [substituted, List.filter_eq_nil_iff]
  exact fun w hw => by simpa using h w hw

section Both
variable (c : AdmissionController) (model : String) (r : ChatCompletionRequest)
  (engine : BaseEngine) (ws : List ResponseWarning) (reservedNow prompt : ℤ)
  (est : List ResponseWarning)

theorem gates_error (hp : promptTokens engine r = .ok (prompt, est)) :
    (∃ e, gates c model r engine ws reservedNow = .error e) ↔
      prompt > c.requestCeiling model r ∨
        Refuses r (requestedOutput r) (room c model r prompt) ∨
        ∃ a, budgetLeft c engine reservedNow prompt = some a ∧
          Refuses r (min (requestedOutput r) (room c model r prompt)) a := by
  have hctx := contextGate_error c model r prompt
  have hgates : gates c model r engine ws reservedNow =
      (contextGate c model r prompt >>= fun x =>
        kvGate c model r engine.kvCapacityTokens reservedNow prompt x.1 >>= fun y =>
          pure ⟨y.1, prompt+y.1, ws++est++x.2++y.2⟩) := by
    rw [gates, hp]
    rfl
  cases hc : contextGate c model r prompt with
  | error e =>
    have hrej := hctx.mp ⟨e, hc⟩
    rw [hgates, hc]
    refine ⟨fun _ => ?_, fun _ => ⟨e, rfl⟩⟩
    rcases hrej with h | h
    · exact Or.inl h
    · exact Or.inr (Or.inl h)
  | ok x =>
    obtain ⟨fitted, cl⟩ := x
    have hpass : ¬ _ := fun h => by
      obtain ⟨e, he⟩ := hctx.mpr h
      rw [hc] at he
      cases he
    rw [not_or] at hpass
    have hfit : fitted = min (requestedOutput r) (room c model r prompt) :=
      contextGate_granted c model r prompt fitted cl hc
    rw [← hfit]
    have hkv := kvGate_error c model r engine reservedNow prompt fitted
    have hbind : gates c model r engine ws reservedNow =
        (kvGate c model r engine.kvCapacityTokens reservedNow prompt fitted >>= fun y =>
          pure ⟨y.1, prompt+y.1, ws++est++cl++y.2⟩) := by
      rw [hgates, hc]
      rfl
    rw [hbind]
    constructor
    · rintro ⟨e, he⟩
      rcases bind_error he with he | ⟨x, -, he⟩
      · exact Or.inr (Or.inr (hkv.mp ⟨e, he⟩))
      · cases he
    · rintro (h | h | h)
      · exact absurd h hpass.1
      · exact absurd h hpass.2
      · obtain ⟨e, he⟩ := hkv.mpr h
        rw [he]
        exact ⟨e, rfl⟩

theorem gates_numbers (result : AdmissionResult) (hws : Clean ws)
    (hp : promptTokens engine r = .ok (prompt, est))
    (h : gates c model r engine ws reservedNow = .ok result) :
    let fitted := min (requestedOutput r) (room c model r prompt)
    result.effectiveMaxTokens = fits c model r engine reservedNow prompt ∧
      result.reservedTokens = prompt+result.effectiveMaxTokens ∧
      result.reservedTokens ≤ c.requestCeiling model r ∧
      result.effectiveMaxTokens ≤ fitted ∧
      (result.effectiveMaxTokens < requestedOutput r → 16 ≤ result.effectiveMaxTokens) ∧
      substituted result.warnings =
        (if fitted < requestedOutput r then
          [clampedToContext (requestedOutput r) fitted (c.requestCeiling model r)] else [])++
        (if result.effectiveMaxTokens < fitted then
          [clampedToKvBudget fitted result.effectiveMaxTokens] else []) := by
  obtain ⟨p, e, hp', fitted, cl, hc, output, low, hk, rfl⟩ :=
    (gates_ok_iff c model r engine ws reservedNow result).mp h
  obtain ⟨rfl, rfl⟩ := Prod.mk.inj (Except.ok.inj (hp'.symm.trans hp))
  obtain ⟨hceil, hctx⟩ := contextGate_ok c model r p fitted cl hc
  have hcl := contextGate_warning c model r p fitted cl hc
  obtain ⟨hout, hmin, hlow⟩ := kvGate_floor c model r engine reservedNow p fitted output low hk
  have hle : output ≤ fitted := by
    rw [hout]
    cases budgetLeft c engine reservedNow p with
    | none => exact le_refl _
    | some a => exact min_le_left _ _
  have hfit : min (requestedOutput r) (room c model r p) = fitted :=
    (contextGate_granted c model r p fitted cl hc).symm
  simp only [hfit]
  refine ⟨by rw [fits, hfit]; exact hout, trivial, by omega, hle, fun hlt => ?_, ?_⟩
  · rcases hle.lt_or_eq with h | rfl
    · exact hmin h
    · rcases hctx with ⟨rfl, -⟩ | ⟨h, -⟩
      · exact absurd hlt (lt_irrefl _)
      · exact h
  · simp only [substituted_append, substituted_clean ws hws,
      substituted_clean e (promptTokens_clean engine r p e hp), hcl, hlow, List.nil_append]

theorem gates_ends (result : Except PyError AdmissionResult) :
    (∃ a, result = .ok a) ↔ ¬ ∃ e, result = .error e := by
  cases result <;> simp

theorem fits_whole (h : Whole c model r engine reservedNow prompt) :
    fits c model r engine reservedNow prompt = requestedOutput r := by
  obtain ⟨hroom, hbudget⟩ := h
  rw [fits, min_eq_left hroom]
  cases hb : budgetLeft c engine reservedNow prompt with
  | none => rfl
  | some a => exact min_eq_left (Int.le_floor.mpr (hbudget a hb))

/-- A request that is never clamped passes exactly when it fits as a whole. -/
theorem gates_rigid (rigid : r.priority = .batch ∨ r.strict = true) (hq : 1 ≤ requestedOutput r)
    (hp : promptTokens engine r = .ok (prompt, est)) :
    (∃ result, gates c model r engine ws reservedNow = .ok result) ↔
      Whole c model r engine reservedNow prompt := by
  have hrefuses (n : ℤ) (a : ℚ) : Refuses r n a ↔ a < n := by
    rcases rigid with h | h <;> simp [Refuses, h]
  rw [gates_ends, gates_error c model r engine ws reservedNow prompt est hp]
  simp only [hrefuses, not_or, not_exists, not_and, not_lt, Int.cast_le, Whole]
  constructor
  · rintro ⟨-, hroom, hbudget⟩
    rw [min_eq_left hroom] at hbudget
    exact ⟨hroom, hbudget⟩
  · rintro ⟨hroom, hbudget⟩
    rw [min_eq_left hroom]
    refine ⟨?_, hroom, hbudget⟩
    rw [room] at hroom
    omega

theorem gates_rigid_numbers (rigid : r.priority = .batch ∨ r.strict = true)
    (hq : 1 ≤ requestedOutput r) (result : AdmissionResult) (hws : Clean ws)
    (hp : promptTokens engine r = .ok (prompt, est))
    (h : gates c model r engine ws reservedNow = .ok result) :
    result.effectiveMaxTokens = requestedOutput r ∧
      result.reservedTokens = prompt+requestedOutput r ∧ substituted result.warnings = [] := by
  have hwhole := (gates_rigid c model r engine ws reservedNow prompt est rigid hq hp).mp ⟨result, h⟩
  obtain ⟨heff, hres, -, hle, -, hsub⟩ :=
    gates_numbers c model r engine ws reservedNow prompt est result hws hp h
  rw [fits_whole c model r engine reservedNow prompt hwhole] at heff
  rw [hsub, hres, heff, min_eq_left hwhole.1]
  simp

end Both

theorem afterSlot_outcome (c : AdmissionController) (s t : State) (call : Call) (slot : Bool)
    (ws : List ResponseWarning) (o : Outcome) (h : afterSlot c s call slot ws = (t, o)) :
    ((∃ e, o = .raised e) ↔ ∃ e, gates c call.model call.request.val call.engine ws
      (s.tracker call.model) = .error e) ∧
    ∀ result, o = .returned result ↔ gates c call.model call.request.val call.engine ws
      (s.tracker call.model) = .ok result := by
  rw [afterSlot] at h
  cases hg : gates c call.model call.request.val call.engine ws (s.tracker call.model) with
  | ok result =>
    simp only [hg] at h
    obtain ⟨-, rfl⟩ := Prod.mk.inj h
    simp
  | error e =>
    simp only [hg] at h
    split at h <;>
    · obtain ⟨-, rfl⟩ := Prod.mk.inj h
      simp

/-- Either clamp is told exactly when less is granted than was asked for. -/
theorem clamp_warned (q room n ceiling : ℤ) (hle : n ≤ min q room) :
    (if min q room < q then [clampedToContext q (min q room) ceiling] else [])++
        (if n < min q room then [clampedToKvBudget (min q room) n] else []) ≠ [] ↔ n < q := by
  have hmin : min q room ≤ q := min_le_left _ _
  split_ifs with h1 h2 h2
  · exact iff_of_true (by simp) (hle.trans_lt h1)
  · exact iff_of_true (by simp) (hle.trans_lt h1)
  · exact iff_of_true (by simp) (h2.trans_le hmin)
  · exact iff_of_false (by simp) (not_lt.mpr ((not_lt.mp h1).trans (not_lt.mp h2)))

/-- A lenient call past Gate 1, with `q` tokens requested, a prompt of `prompt`
tokens, `room` tokens of context beside it and `a` tokens of KV budget. -/
theorem clamp_gates_exact (c : AdmissionController) (s t : State) (call : Call) (slot : Bool)
    (ws est : List ResponseWarning) (o : Outcome) (prompt : ℤ)
    (early : ws = [] ∨ ws = [sequenceGateSkipped]) (lenient : call.request.val.strict = false)
    (hp : promptTokens call.engine call.request.val = .ok (prompt, est))
    (h : afterSlot c s call slot ws = (t, o)) :
    let r := call.request.val
    let q := requestedOutput r
    let ceiling := c.requestCeiling call.model r
    let room := room c call.model r prompt
    let budget := budgetLeft c call.engine (s.tracker call.model) prompt
    ((∃ e, o = .raised e) ∨ ∃ result, o = .returned result) ∧
    (r.priority = .interactive →
      ((∃ e, o = .raised e) ↔ prompt > ceiling ∨ (q > room ∧ room < 16) ∨
        ∃ a, budget = some a ∧ (min q room : ℚ) > a ∧ a < 16) ∧
      ∀ result, o = .returned result →
        result.effectiveMaxTokens = floorFit (min q room) budget ∧
        1 ≤ result.effectiveMaxTokens ∧
        (result.effectiveMaxTokens < q → 16 ≤ result.effectiveMaxTokens)) ∧
    (r.priority = .batch →
      ((∃ result, o = .returned result) ↔ q ≤ room ∧ ∀ a, budget = some a → (q : ℚ) ≤ a) ∧
      ∀ result, o = .returned result → result.effectiveMaxTokens = q) ∧
    ∀ result, o = .returned result →
      result.reservedTokens = prompt+result.effectiveMaxTokens ∧
      result.reservedTokens ≤ ceiling ∧
      (substituted result.warnings ≠ [] ↔ result.effectiveMaxTokens < q) ∧
      substituted result.warnings =
        (if min q room < q then [clampedToContext q (min q room) ceiling] else [])++
        (if result.effectiveMaxTokens < min q room then
          [clampedToKvBudget (min q room) result.effectiveMaxTokens] else []) := by
  intro r q ceiling room budget
  have hws : Clean ws := by
    rcases early with rfl | rfl
    · exact clean_nil
    · simp [Clean, sequenceGateSkipped]
  obtain ⟨hraised, hreturned⟩ := afterSlot_outcome c s t call slot ws o h
  have herror := gates_error c call.model r call.engine ws (s.tracker call.model) prompt est hp
  have hnumbers (result : AdmissionResult) (hr : o = .returned result) :=
    gates_numbers c call.model r call.engine ws (s.tracker call.model) prompt est result hws hp
      ((hreturned result).mp hr)
  have hq : 1 ≤ q := (requestedOutput_bounds call.request).1
  have hends : (∃ e, o = .raised e) ∨ ∃ result, o = .returned result := by
    cases hg : gates c call.model r call.engine ws (s.tracker call.model) with
    | ok result => exact Or.inr ⟨result, (hreturned result).mpr hg⟩
    | error e => exact Or.inl (hraised.mpr ⟨e, hg⟩)
  refine ⟨hends, fun hi => ⟨?_, fun result hr => ?_⟩, fun hb => ?_, fun result hr => ?_⟩
  · have hrefuses (n : ℤ) (a : ℚ) : Refuses r n a ↔ a < n ∧ a < 16 := by
      have hi' : r.priority = .interactive := hi
      have lenient' : r.strict = false := lenient
      simp [Refuses, minClampedOutputTokens, hi', lenient']
    rw [hraised, herror]
    simp only [hrefuses]
    exact_mod_cast Iff.rfl
  · obtain ⟨heff, -, -, -, hmin, -⟩ := hnumbers result hr
    refine ⟨heff, ?_, hmin⟩
    by_cases hlt : result.effectiveMaxTokens < q
    · exact le_trans (by norm_num) (hmin hlt)
    · exact hq.trans (not_lt.mp hlt)
  · have hiff : (∃ result, o = .returned result) ↔
        Whole c call.model r call.engine (s.tracker call.model) prompt := by
      simp only [hreturned]
      exact gates_rigid c call.model r call.engine ws _ prompt est (Or.inl hb) hq hp
    refine ⟨hiff, fun result hr => ?_⟩
    exact (hnumbers result hr).1.trans (fits_whole _ _ _ _ _ _ (hiff.mp ⟨result, hr⟩))
  · obtain ⟨-, hres, hceil, hle, -, hsub⟩ := hnumbers result hr
    refine ⟨hres, hceil, ?_, hsub⟩
    rw [hsub]
    exact clamp_warned q room result.effectiveMaxTokens ceiling hle

/-- 100 tokens are requested with 80 tokens of budget left. -/
theorem clamp_gates_exact_budget :
    let call : Call := ⟨0, "m", helloRequest, countingEngine 10 (some 100)⟩
    ∃ t result, afterSlot smallController initial call false [] = (t, .returned result) ∧
      (substituted result.warnings ≠ [] ↔ result.effectiveMaxTokens < 100) := by
  intro call
  have h : ∃ result, (afterSlot smallController initial call false []).2 = .returned result :=
    ⟨⟨80, 90, [clampedToKvBudget 100 80]⟩, by decide +kernel⟩
  obtain ⟨result, hr⟩ := h
  have hex := clamp_gates_exact smallController initial _ call false [] [] _ 10 (Or.inl rfl)
    (by decide +kernel) rfl (Prod.mk.eta (p := afterSlot smallController initial call false [])).symm
  exact ⟨_, result, Prod.ext rfl hr, (hex.2.2.2 result hr).2.2.1⟩

end InferenceX.ClampOutcome
