import InferenceX.ClampOutcome
import InferenceX.FirstGate

/-!
# Submitting the resolved block again

The resolved block carries the granted output in `max_tokens`, and the limit
the client set in `max_output_tokens` beside it. The latter has precedence
when the block is submitted again, so the second admission asks for the
granted output only where the client set no such limit or the grant is that
limit.
-/

set_option autoImplicit false

namespace InferenceX.EchoFixpoint
open Library.StepRuns Library.SlotSemaphore
open InferenceX.PythonValues InferenceX.ChatSchema InferenceX.ModelRegistry
open InferenceX.AdmissionGates InferenceX.AdmissionMachine InferenceX.AdmissionSteps
open InferenceX.ChatDispatch InferenceX.EngineSampling InferenceX.StrictMode
open InferenceX.FirstGate InferenceX.ClampOutcome

def echoPayload (messages : List ChatMessage) (block : ResolvedRequest) : ChatPayload where
  model := block.model
  messages := messages
  temperature := some block.temperature
  maxTokens := some block.maxTokens
  topP := some block.topP
  stream := none
  maxContextTokens := some block.maxContextTokens
  maxOutputTokens := some block.maxOutputTokens
  priority := some block.priority
  streamOptions := none
  seed := some block.seed
  strict := some true

def echoRequest (r : ChatCompletionRequest) (admitted : AdmissionResult) :
    ChatCompletionRequest :=
  (echoPayload r.messages (resolved (effectiveRequest r admitted))).request

section Echo
variable (c : AdmissionController) (model : String) (r : ChatCompletionRequest)
  (engine : BaseEngine) (admitted : AdmissionResult)

@[simp] theorem room_echo (prompt : ℤ) :
    room c model (echoRequest r admitted) prompt = room c model r prompt := rfl

theorem promptTokens_echo :
    promptTokens engine (echoRequest r admitted) = promptTokens engine r := by
  rw [promptTokens, promptTokens, engine.counts_prompt (echoRequest r admitted) r rfl]
  rfl

/-- The echo asks for the client's own limit again, if there was one. -/
theorem requestedOutput_echo (r : ValidRequest) (hpos : 1 ≤ admitted.effectiveMaxTokens) :
    requestedOutput (echoRequest r.val admitted) =
      if r.val.maxOutputTokens = none then admitted.effectiveMaxTokens
      else requestedOutput r.val := by
  have hne : admitted.effectiveMaxTokens ≠ 0 := by omega
  rw [requestedOutput, requestedOutput]
  change (pyOr (pyOr r.val.maxOutputTokens (some admitted.effectiveMaxTokens)) _).getD 512 = _
  cases ho : r.val.maxOutputTokens with
  | none => simp [pyOr, hne]
  | some o =>
    have hlimit := (valid_limits r).2
    rw [ho] at hlimit
    have ho1 : o ≠ 0 := by
      simp only [intIn, Bool.and_eq_true, decide_eq_true_eq] at hlimit
      omega
    simp [pyOr, ho1]

theorem echo_valid (r : ValidRequest) (hpos : 1 ≤ admitted.effectiveMaxTokens)
    (hle : admitted.effectiveMaxTokens ≤ 4096) : (echoRequest r.val admitted).valid = true := by
  have h := r.property
  simp only [ChatCompletionRequest.valid, Bool.and_eq_true] at h ⊢
  refine ⟨⟨⟨⟨⟨h.1.1.1.1.1, h.1.1.1.1.2⟩, ?_⟩, h.1.1.2⟩, h.1.2⟩, h.2⟩
  change intIn 1 4096 (some admitted.effectiveMaxTokens) = true
  simp [intIn, hpos, hle]

def SameGrant (admitted again : AdmissionResult) : Prop :=
  again.effectiveMaxTokens = admitted.effectiveMaxTokens ∧
    again.reservedTokens = admitted.reservedTokens ∧ substituted again.warnings = []

theorem granted_bounds (r : ValidRequest) (ws : List ResponseWarning) (reservedNow : ℤ)
    (h : gates c model r.val engine ws reservedNow = .ok admitted) (hws : Clean ws) :
    1 ≤ admitted.effectiveMaxTokens ∧ admitted.effectiveMaxTokens ≤ 4096 := by
  obtain ⟨p, est, hp, -⟩ := (gates_ok_iff c model r.val engine ws reservedNow admitted).mp h
  obtain ⟨-, -, -, hle, hmin, -⟩ :=
    gates_numbers c model r.val engine ws reservedNow p est admitted hws hp h
  obtain ⟨hq1, hq2⟩ := requestedOutput_bounds r
  refine ⟨?_, (hle.trans (min_le_left _ _)).trans hq2⟩
  by_cases hlt : admitted.effectiveMaxTokens < requestedOutput r.val
  · exact le_trans (by norm_num) (hmin hlt)
  · exact hq1.trans (not_lt.mp hlt)

/-- The gates give the echo the same grant exactly when the client had set no
limit of its own or the first admission lowered nothing. -/
theorem gates_echo (r : ValidRequest) (ws ws' : List ResponseWarning) (reservedNow : ℤ)
    (hws : Clean ws) (hws' : Clean ws')
    (h : gates c model r.val engine ws reservedNow = .ok admitted) :
    (∃ again, gates c model (echoRequest r.val admitted) engine ws' reservedNow = .ok again ∧
      SameGrant admitted again) ↔
    r.val.maxOutputTokens = none ∨
      Whole c model r.val engine reservedNow (promptCount engine r.val) := by
  obtain ⟨p, est, hp, -⟩ := (gates_ok_iff c model r.val engine ws reservedNow admitted).mp h
  obtain rfl := promptTokens_count engine r.val p est hp
  obtain ⟨heff, hres, -, hle, -, -⟩ :=
    gates_numbers c model r.val engine ws reservedNow _ est admitted hws hp h
  obtain ⟨hpos, -⟩ := granted_bounds c model engine admitted r ws reservedNow h hws
  have hq := requestedOutput_echo admitted r hpos
  have hq1 : 1 ≤ requestedOutput (echoRequest r.val admitted) := by
    rw [hq]
    split_ifs
    · exact hpos
    · exact (requestedOutput_bounds r).1
  have hp' := (promptTokens_echo r.val engine admitted).trans hp
  have hpass := gates_rigid c model (echoRequest r.val admitted) engine ws' reservedNow _ est
    (Or.inr rfl) hq1 hp'
  have hnumbers (again : AdmissionResult) := gates_rigid_numbers c model
    (echoRequest r.val admitted) engine ws' reservedNow _ est (Or.inr rfl) hq1 again hws' hp'
  cases ho : r.val.maxOutputTokens with
  | none =>
    rw [if_pos ho] at hq
    refine iff_of_true ?_ (Or.inl rfl)
    have hwhole : Whole c model (echoRequest r.val admitted) engine reservedNow
        (promptCount engine r.val) := by
      refine ⟨by rw [hq]; exact hle.trans (min_le_right _ _), fun a ha => ?_⟩
      rw [hq, heff, fits, ha]
      exact Int.le_floor.mp (min_le_right _ _)
    obtain ⟨again, hagain⟩ := hpass.mpr hwhole
    obtain ⟨he, hr, hs⟩ := hnumbers again hagain
    exact ⟨again, hagain, by rw [he, hq], by rw [hr, hq, hres], hs⟩
  | some o =>
    rw [if_neg (by simp [ho])] at hq
    have hsame : Whole c model (echoRequest r.val admitted) engine reservedNow
        (promptCount engine r.val) ↔
        Whole c model r.val engine reservedNow (promptCount engine r.val) := by
      rw [Whole, Whole, hq, room_echo]
    rw [hsame] at hpass
    constructor
    · rintro ⟨again, hagain, -⟩
      exact Or.inr (hpass.mp ⟨again, hagain⟩)
    · rintro (hnone | hwhole)
      · cases hnone
      · obtain ⟨again, hagain⟩ := hpass.mpr hwhole
        obtain ⟨he, hr, hs⟩ := hnumbers again hagain
        rw [fits_whole c model r.val engine reservedNow _ hwhole] at heff
        exact ⟨again, hagain, by rw [he, hq, heff], by rw [hr, hq, hres, heff], hs⟩

end Echo

def AtGates (c : AdmissionController) (s : State) (call : Call) (lent : State) (slot : Bool)
    (ws : List ResponseWarning) : Prop :=
  s.live call.id = false ∧ passage c s call = .entered lent slot ws ∨
    ∃ w, s.findWaiting call.id = some w ∧ w.call = call ∧
      resumePassage c s w = some (.entered lent slot ws)

theorem admits_iff_atGates (c : AdmissionController) (s : State) (call : Call)
    (result : AdmissionResult) :
    Admits c s call result ↔ ∃ lent slot ws, AtGates c s call lent slot ws ∧
      gates c call.model call.request.val call.engine ws (lent.tracker call.model) =
        .ok result := by
  constructor
  · rintro ⟨e, t, hstep, rfl | ⟨w, hw, rfl, rfl⟩⟩
    · simp only [step] at hstep
      split_ifs at hstep with hlive
      rw [admitCall_passage] at hstep
      obtain ⟨lent, slot, ws, hp, hg⟩ := finish_returned c call _ t result (Option.some.inj hstep)
      exact ⟨lent, slot, ws, Or.inl ⟨by simpa using hlive, hp⟩, hg⟩
    · simp only [step, hw] at hstep
      rw [resume_passage] at hstep
      obtain ⟨p, hp, hfin⟩ := Option.map_eq_some_iff.mp hstep
      obtain ⟨lent, slot, ws, rfl, hg⟩ := finish_returned c w.call p t result hfin
      exact ⟨lent, slot, ws, Or.inr ⟨w, hw, rfl, hp⟩, hg⟩
  · rintro ⟨lent, slot, ws, ⟨hlive, hp⟩ | ⟨w, hw, rfl, hp⟩, hg⟩
    · have hstep : step c s (.arrive call) = some (afterSlot c lent call slot ws) := by
        simp only [step, hlive, Bool.false_eq_true, if_false, admitCall_passage, hp,
          Passage.finish]
      exact ⟨_, _, hstep.trans (congrArg some (afterSlot_ok c lent call slot ws result hg)),
        Or.inl rfl⟩
    · have hstep : step c s (.resume w.call.id) = some (afterSlot c lent w.call slot ws) := by
        simp only [step, hw, resume_passage, hp, Option.map_some, Passage.finish]
      exact ⟨_, _, hstep.trans (congrArg some (afterSlot_ok c lent w.call slot ws result hg)),
        Or.inr ⟨w, hw, rfl, rfl⟩⟩

theorem atGates_fields (c : AdmissionController) (s lent : State) (call : Call) (slot : Bool)
    (ws : List ResponseWarning) (h : AtGates c s call lent slot ws) :
    lent.tracker = s.tracker ∧ Clean ws := by
  rcases h with ⟨-, hp⟩ | ⟨w, -, -, hp⟩
  · obtain ⟨htrack, rfl⟩ := passage_entered c s lent call slot ws hp
    refine ⟨htrack, ?_⟩
    split_ifs
    · simp [Clean, sequenceGateSkipped]
    · exact clean_nil
  · obtain ⟨htrack, rfl⟩ := resumePassage_entered c s lent w slot ws hp
    exact ⟨htrack, clean_nil⟩

def standIn (call v : Call) : Call :=
  if v.id = call.id ∧ v.model = call.model ∧
      v.request.val.priority = call.request.val.priority then call else v

theorem standIn_alike (call v : Call) : Alike v (standIn call v) := by
  rw [standIn]
  split_ifs with h
  · exact ⟨h.1.symm, h.2.1.symm, h.2.2.symm⟩
  · exact ⟨rfl, rfl, rfl⟩

theorem standIn_self {call call' : Call} (h : Alike call call') : standIn call' call = call' :=
  if_pos ⟨h.id.symm, h.model.symm, h.priority.symm⟩

theorem atGates_standIn (c : AdmissionController) (s lent : State) (call call' : Call)
    (slot : Bool) (ws : List ResponseWarning) (ha : Alike call call')
    (h : AtGates c s call lent slot ws) :
    AtGates c (recalled (standIn call') s) call' (recalled (standIn call') lent) slot ws := by
  have hf := standIn_alike call'
  rcases h with ⟨hlive, hp⟩ | ⟨w, hw, rfl, hp⟩
  · refine Or.inl ⟨?_, ?_⟩
    · rw [recalled_live _ _ hf, ha.id]
      exact hlive
    · rw [passage_recalled, passage_alike ha, hp]
      rfl
  · refine Or.inr ⟨{ w with call := standIn call' w.call }, ?_, standIn_self ha, ?_⟩
    · rw [recalled_findWaiting _ _ hf, ha.id, hw]
      rfl
    · rw [resumePassage_recalled _ _ _ hf, hp]
      rfl

theorem recalled_fresh (s : State) (call : Call) (h : s.live call.id = false) :
    recalled (standIn call) s = s := by
  have hwaiting := (Bool.or_eq_false_iff.mp h).1
  have hid : ∀ w ∈ s.waiting, ({ w with call := standIn call w.call } : WaitingCall) = id w := by
    intro w hw
    have hne : w.call.id ≠ call.id := by simpa using List.any_eq_false.mp hwaiting w hw
    rw [standIn, if_neg fun hall => hne hall.1]
    rfl
  rw [recalled, List.map_congr_left hid, List.map_id]

def echoCall (call : Call) (admitted : AdmissionResult)
    (h : (echoRequest call.request.val admitted).valid = true) : Call :=
  { call with request := ⟨echoRequest call.request.val admitted, h⟩ }

/-- A lenient request admitted from `s` gives an echo that passes validation,
and the echo is admitted from `s` with the same grant and without a
substitution exactly when the client set no `max_output_tokens` or the whole
requested output fitted. -/
theorem echo_fixed_point_iff (c : AdmissionController) (s : State) (call : Call)
    (admitted : AdmissionResult) (h : Admits c s call admitted) :
    ∃ hvalid : (echoRequest call.request.val admitted).valid = true,
      let echo := echoCall call admitted hvalid
      (s.live call.id = false → recalled (standIn echo) s = s) ∧
      ((∃ again, Admits c (recalled (standIn echo) s) echo again ∧ SameGrant admitted again) ↔
        call.request.val.maxOutputTokens = none ∨
          Whole c call.model call.request.val call.engine (s.tracker call.model)
            (promptCount call.engine call.request.val)) := by
  obtain ⟨lent, slot, ws, hat, hg⟩ := (admits_iff_atGates c s call admitted).mp h
  obtain ⟨htrack, hclean⟩ := atGates_fields c s lent call slot ws hat
  obtain ⟨hpos, hle⟩ := granted_bounds c call.model call.engine admitted call.request ws _ hg hclean
  refine ⟨echo_valid admitted call.request hpos hle, ?_⟩
  intro echo
  have halike : Alike call echo := ⟨rfl, rfl, rfl⟩
  rw [htrack] at hg
  refine ⟨recalled_fresh s echo, ?_, ?_⟩
  · rintro ⟨again, hagain, hsame⟩
    obtain ⟨lent', slot', ws', hat', hg'⟩ := (admits_iff_atGates c _ echo again).mp hagain
    obtain ⟨htrack', hclean'⟩ := atGates_fields c _ lent' echo slot' ws' hat'
    rw [htrack'] at hg'
    exact (gates_echo c call.model call.engine admitted call.request ws ws' _ hclean hclean'
      hg).mp ⟨again, hg', hsame⟩
  · intro hcond
    obtain ⟨again, hagain, hsame⟩ := (gates_echo c call.model call.engine admitted call.request ws
      ws _ hclean hclean hg).mpr hcond
    refine ⟨again, (admits_iff_atGates c _ echo again).mpr ⟨_, slot, ws,
      atGates_standIn c s lent call echo slot ws halike hat, ?_⟩, hsame⟩
    rw [← htrack] at hagain
    exact hagain

theorem echo_fixed_point_whole :
    ∃ hvalid again, Admits smallController (recalled (standIn (echoCall (helloCall 0)
        ⟨100, 110, []⟩ hvalid)) initial) (echoCall (helloCall 0) ⟨100, 110, []⟩ hvalid) again ∧
      SameGrant ⟨100, 110, []⟩ again := by
  obtain ⟨hvalid, -, hiff⟩ := echo_fixed_point_iff smallController initial (helloCall 0) _
    (admits_at_once _ _ _ ⟨100, 110, []⟩ (by decide +kernel))
  refine ⟨hvalid, hiff.mpr (Or.inr ⟨by decide +kernel, fun a ha => ?_⟩)⟩
  obtain rfl := Option.some.inj ha
  decide +kernel

def clampedCall : Call := ⟨0, "m", helloRequest, countingEngine 10 (some 100)⟩

/-- The echo of a clamped request asks for the client's 100 tokens again. -/
theorem echo_rejected :
    clampedCall.request.val.strict = false ∧
    Admits smallController initial clampedCall ⟨80, 90, [clampedToKvBudget 100 80]⟩ ∧
    ∀ hvalid again, ¬ Admits smallController initial
      (echoCall clampedCall ⟨80, 90, [clampedToKvBudget 100 80]⟩ hvalid) again := by
  refine ⟨rfl, admits_at_once _ _ _ _ (by decide +kernel), fun hvalid again h => ?_⟩
  obtain ⟨ws, hws, hg⟩ := admits_gates _ _ _ again h
  have hreject : ∀ ws ∈ [[], [sequenceGateSkipped]], (gates smallController "m"
      (echoRequest helloRequest.val ⟨80, 90, [clampedToKvBudget 100 80]⟩)
      (countingEngine 10 (some 100)) ws 0).toOption = none := by decide +kernel
  have hnone : (some again : Option AdmissionResult) = none :=
    (congrArg Except.toOption hg).symm.trans (hreject ws (by simpa using hws))
  cases hnone

end InferenceX.EchoFixpoint
