import InferenceX.EngineSampling
import InferenceX.StreamSteps

/-!
# The resolved block against the executed request

The block is read off the effective request, the sampling parameters off the
engine that was invoked with it. They agree, and every difference from what
the client sent is disclosed, exactly under four conditions: the model was
registered, no sampling parameter was sent as null, the model has no cap of
its own that differs from the grant, and the two names of the output limit
were not given different values of which one was granted as it is.
-/

set_option autoImplicit false

namespace InferenceX.ResolvedEcho
open Library.JsonText Library.StepRuns
open InferenceX.PythonValues InferenceX.ChatSchema InferenceX.ModelRegistry
open InferenceX.AdmissionGates InferenceX.AdmissionMachine InferenceX.ChatDispatch
open InferenceX.EngineSampling InferenceX.StreamEvents InferenceX.StreamMachine
open InferenceX.StreamSteps

structure Echoed (routed : String) (sampling : SamplingParams) (block : ResolvedRequest) :
    Prop where
  model : block.model = routed
  maxTokens : block.maxTokens = some sampling.maxTokens
  temperature : block.temperature = some sampling.temperature
  topP : block.topP = some sampling.topP
  seed : block.seed = sampling.seed

def Warned (warnings : List ResponseWarning) (field : String) : Prop :=
  ∃ w ∈ warnings, w.type = .substituted ∧ w.field = some field

structure Disclosed (p : ChatPayload) (routed : String) (sampling : SamplingParams)
    (warnings : List ResponseWarning) : Prop where
  model : p.model ≠ routed → Warned warnings "model"
  temperature : ∀ x, p.temperature = some (some x) → x ≠ sampling.temperature →
    Warned warnings "temperature"
  topP : ∀ x, p.topP = some (some x) → x ≠ sampling.topP → Warned warnings "top_p"
  seed : ∀ z, p.seed = some (some z) → some z ≠ sampling.seed → Warned warnings "seed"
  maxTokens : ∀ z, p.maxTokens = some (some z) → z ≠ sampling.maxTokens →
    Warned warnings "max_tokens"
  maxOutputTokens : ∀ z, p.maxOutputTokens = some (some z) → z ≠ sampling.maxTokens →
    Warned warnings "max_tokens"

def Truthful (p : ChatPayload) (routed : String) (sampling : SamplingParams)
    (block : ResolvedRequest) (warnings : List ResponseWarning) : Prop :=
  Echoed routed sampling block ∧ Disclosed p routed sampling warnings

theorem warned_append (xs ys : List ResponseWarning) (field : String) :
    Warned (xs++ys) field ↔ Warned xs field ∨ Warned ys field := by
  simp only [Warned, List.mem_append, or_and_right, exists_or]

/-- The gates warn of a substitution, always of `max_tokens`, exactly when
they hand out something else than was requested. -/
theorem gates_warned (c : AdmissionController) (model : String) (r : ChatCompletionRequest)
    (engine : BaseEngine) (ws : List ResponseWarning) (reservedNow : ℤ)
    (result : AdmissionResult) (hws : ws = [] ∨ ws = [sequenceGateSkipped])
    (h : gates c model r engine ws reservedNow = .ok result) :
    Warned result.warnings "max_tokens" ↔ result.effectiveMaxTokens ≠ requestedOutput r := by
  obtain ⟨prompt, est, hp, fitted, cl, hc, output, low, hk, rfl⟩ :=
    (gates_ok_iff c model r engine ws reservedNow result).mp h
  have hws' : ¬ Warned ws "max_tokens" := by
    rcases hws with rfl | rfl <;> simp [Warned, sequenceGateSkipped]
  have hest : ¬ Warned est "max_tokens" := by
    rw [promptTokens] at hp
    split at hp
    · cases hp
    · obtain ⟨-, rfl⟩ := Prod.mk.inj (Except.ok.inj hp)
      simp [Warned]
    · obtain ⟨-, rfl⟩ := Prod.mk.inj (Except.ok.inj hp)
      simp [Warned, promptTokensEstimated]
  have hcl := (contextGate_ok c model r prompt fitted cl hc).2
  have hlow : output = fitted ∧ ¬ Warned low "max_tokens" ∨
      output < fitted ∧ Warned low "max_tokens" := by
    cases hcap : engine.kvCapacityTokens with
    | none =>
      rw [hcap] at hk
      obtain ⟨rfl, rfl⟩ := Prod.mk.inj (Except.ok.inj hk)
      exact Or.inl ⟨rfl, by simp [Warned, kvGateSkipped]⟩
    | some n =>
      rw [hcap] at hk
      rcases (kvGate_ok c model r n reservedNow prompt fitted output low hk).2 with
        ⟨rfl, rfl⟩ | ⟨-, hlt, rfl⟩
      · exact Or.inl ⟨rfl, by simp [Warned]⟩
      · exact Or.inr ⟨hlt, by simp [Warned, clampedToKvBudget]⟩
  have hsplit : Warned (ws++est++cl++low) "max_tokens" ↔
      Warned cl "max_tokens" ∨ Warned low "max_tokens" := by
    simp only [warned_append, hws', hest, false_or]
  rw [hsplit]
  rcases hcl with ⟨rfl, rfl⟩ | ⟨-, hlt, rfl⟩
  · have hno : ¬ Warned [] "max_tokens" := by simp [Warned]
    rcases hlow with ⟨rfl, hl⟩ | ⟨hlt, hl⟩
    · simp [hno, hl]
    · simp [hl, hlt.ne]
  · have hyes : Warned [clampedToContext (requestedOutput r) fitted (c.requestCeiling model r)]
        "max_tokens" := by simp [Warned, clampedToContext]
    have hne : output ≠ requestedOutput r := by
      rcases hlow with ⟨rfl, -⟩ | ⟨hlt', -⟩ <;> omega
    simp [hyes, hne]

/-- The four conditions on the deployment, the request and the state. -/
structure Unaltered (svc : ChatService VLLMEngine) (engine : VLLMEngine) (p : ChatPayload)
    (s : State) : Prop where
  registered : svc.router.registry.contains p.model = true
  temperature : p.request.temperature ≠ none
  topP : p.request.topP ≠ none
  cap : ∀ cap, engine.maxCompletionTokens = some cap →
    cap = granted svc.admission (svc.router.select p.request) p.request
      engine.boundary.kvCapacityTokens (s.tracker (svc.router.select p.request))
      (promptCount engine.boundary p.request)
  limits : ∀ a b, p.maxTokens = some (some a) → p.maxOutputTokens = some (some b) →
    b = granted svc.admission (svc.router.select p.request) p.request
      engine.boundary.kvCapacityTokens (s.tracker (svc.router.select p.request))
      (promptCount engine.boundary p.request) → a = b

theorem getD_eq_iff {A : Type} (x : Option A) (d : A) : x = some (x.getD d) ↔ x ≠ none := by
  cases x <;> simp

section Parts
variable (p : ChatPayload) (engine : VLLMEngine) (result : AdmissionResult) (routed : String)

def sampled : SamplingParams := engine.samplingParams (effectiveRequest p.request result)

theorem sampled_maxTokens : (sampled p engine result).maxTokens = result.effectiveMaxTokens ↔
    ∀ cap, engine.maxCompletionTokens = some cap → cap = result.effectiveMaxTokens := by
  simp only [sampled, VLLMEngine.samplingParams, VLLMEngine.resolveMaxTokens]
  cases engine.maxCompletionTokens <;> simp [effectiveRequest]

theorem echoed_iff : Echoed routed (sampled p engine result)
      (resolved (effectiveRequest p.request result)) ↔
    p.model = routed ∧ (sampled p engine result).maxTokens = result.effectiveMaxTokens ∧
      p.request.temperature ≠ none ∧ p.request.topP ≠ none := by
  constructor
  · rintro ⟨hm, ht, htemp, htop, -⟩
    exact ⟨hm, (Option.some.inj ht).symm, (getD_eq_iff _ _).mp htemp, (getD_eq_iff _ _).mp htop⟩
  · rintro ⟨hm, ht, htemp, htop⟩
    exact ⟨hm, congrArg some ht.symm, (getD_eq_iff _ _).mpr htemp, (getD_eq_iff _ _).mpr htop, rfl⟩

theorem requestedOutput_payload (hp : p.request.valid = true) :
    (∀ b, p.maxOutputTokens = some (some b) → requestedOutput p.request = b) ∧
    ∀ a, p.maxTokens = some (some a) → (∀ b, p.maxOutputTokens ≠ some (some b)) →
      requestedOutput p.request = a := by
  obtain ⟨hm, ho⟩ := valid_limits ⟨p.request, hp⟩
  constructor
  · intro b hb
    have hr : p.request.maxOutputTokens = some b := by simp [ChatPayload.request, hb]
    have hb0 : b ≠ 0 := by
      rintro rfl
      simp [intIn, hr] at ho
    simp [requestedOutput, hr, pyOr, hb0]
  · intro a ha hb
    have hr : p.request.maxOutputTokens = none := by
      cases h : p.maxOutputTokens with
      | none => simp [ChatPayload.request, h]
      | some x =>
        cases x with
        | none => simp [ChatPayload.request, h]
        | some b => exact absurd h (hb b)
    have hr' : p.request.maxTokens = some a := by simp [ChatPayload.request, ha]
    have ha0 : a ≠ 0 := by
      rintro rfl
      simp [intIn, hr'] at hm
    simp [requestedOutput, hr, hr', pyOr, ha0]

theorem disclosed_iff (hp : p.request.valid = true)
    (hecho : Echoed routed (sampled p engine result)
      (resolved (effectiveRequest p.request result)))
    (hwarn : Warned result.warnings "max_tokens" ↔
      result.effectiveMaxTokens ≠ requestedOutput p.request) :
    Disclosed p routed (sampled p engine result) result.warnings ↔
      ∀ a b, p.maxTokens = some (some a) → p.maxOutputTokens = some (some b) →
        b = result.effectiveMaxTokens → a = b := by
  obtain ⟨hmodel, htokens, -, -⟩ := (echoed_iff p engine result routed).mp hecho
  obtain ⟨hout, hin⟩ := requestedOutput_payload p hp
  constructor
  · intro h a b ha hb heff
    by_contra hne
    have hw := hwarn.mp (h.maxTokens a ha (by rw [htokens, ← heff]; exact hne))
    exact hw (by rw [hout b hb, heff])
  · intro h
    refine ⟨fun hne => absurd hmodel hne, fun x hx hne => ?_, fun x hx hne => ?_,
      fun z hz hne => ?_, fun a ha hne => ?_, fun b hb hne => ?_⟩
    · exact absurd (by simp [sampled, VLLMEngine.samplingParams, effectiveRequest,
        ChatPayload.request, hx]) hne
    · exact absurd (by simp [sampled, VLLMEngine.samplingParams, effectiveRequest,
        ChatPayload.request, hx]) hne
    · exact absurd (by simp [sampled, VLLMEngine.samplingParams, effectiveRequest,
        ChatPayload.request, hz]) hne
    · rw [htokens] at hne
      refine hwarn.mpr fun heq => ?_
      by_cases hb : ∃ b, p.maxOutputTokens = some (some b)
      · obtain ⟨b, hb⟩ := hb
        rw [hout b hb] at heq
        exact hne (by rw [h a b ha hb heq.symm, heq])
      · rw [hin a ha (fun b hb' => hb ⟨b, hb'⟩)] at heq
        exact hne heq.symm
    · rw [htokens] at hne
      refine hwarn.mpr fun heq => hne ?_
      rw [heq, hout b hb]

end Parts

theorem truthful_iff (svc : ChatService VLLMEngine) (p : ChatPayload)
    (hp : p.request.valid = true) (model : String) (engine : VLLMEngine)
    (hres : svc.resolveEngine p.request = .ok (model, engine)) (s : State) (id : ℕ)
    (result : AdmissionResult)
    (hadm : Admits svc.admission s ⟨id, model, ⟨p.request, hp⟩, engine.boundary⟩ result) :
    Truthful p model (sampled p engine result) (resolved (effectiveRequest p.request result))
      result.warnings ↔ Unaltered svc engine p s := by
  obtain ⟨ws, early, hgate⟩ := admits_gates _ s _ result hadm
  obtain ⟨heff, -, -⟩ := gates_granted _ model ⟨p.request, hp⟩ engine.boundary ws _ result hgate
  have hwarn := gates_warned _ model p.request engine.boundary ws _ result early hgate
  obtain ⟨rfl, -⟩ := resolveEngine_ok svc p.request model engine hres
  have hmodel : p.model = svc.router.select p.request ↔
      svc.router.registry.contains p.model = true := by
    rw [eq_comm]
    exact select_same_iff svc.router p.request
  constructor
  · rintro ⟨hecho, hdis⟩
    obtain ⟨hm, ht, htemp, htop⟩ := (echoed_iff p engine result _).mp hecho
    refine ⟨hmodel.mp hm, htemp, htop, fun cap hcap => ?_, fun a b ha hb hg => ?_⟩
    · exact ((sampled_maxTokens p engine result).mp ht cap hcap).trans heff
    · exact (disclosed_iff p engine result _ hp hecho hwarn).mp hdis a b ha hb (hg.trans heff.symm)
  · rintro ⟨hreg, htemp, htop, hcap, halias⟩
    have hecho := (echoed_iff p engine result (svc.router.select p.request)).mpr
      ⟨hmodel.mpr hreg, (sampled_maxTokens p engine result).mpr
        fun cap h => (hcap cap h).trans heff.symm, htemp, htop⟩
    exact ⟨hecho, (disclosed_iff p engine result _ hp hecho hwarn).mpr
      fun a b ha hb hg => halias a b ha hb (hg.trans heff)⟩

def Told {E : Type} (job : Job E) (es : List Input) (os : List (Output E)) (pc : Pc E) : Prop :=
  match phase pc with
  | .before => admissions es = [] ∧ os = [] ∧ ∀ model engine, pc = .admitting model engine →
      job.service.resolveEngine job.request.val = .ok (model, engine)
  | .inside a => admissions es = [a.result] ∧ (∀ o ∈ os, About job a o) ∧
      job.service.resolveEngine job.request.val = .ok (a.model, a.engine)
  | .after => os = [] ∨ ∃ a, admissions es = [a.result] ∧ (∀ o ∈ os, About job a o) ∧
      job.service.resolveEngine job.request.val = .ok (a.model, a.engine)

theorem about_append {E : Type} (job : Job E) (a : Admitted E) (xs ys : List (Output E))
    (hx : ∀ o ∈ xs, About job a o) (hy : ∀ o ∈ ys, About job a o) :
    ∀ o ∈ xs++ys, About job a o := fun o ho =>
  (List.mem_append.mp ho).elim (hx o) (hy o)

theorem step_told {E : Type} (job : Job E) (es : List Input) (os os' : List (Output E))
    (pc pc' : Pc E) (e : Input) (h : Told job es os pc)
    (hstep : StreamMachine.step job pc e = some (pc', os')) :
    Told job (es++[e]) (os++os') pc' := by
  cases step_move job pc pc' e os' hstep with
  | before _ _ _ hp hp' routing bare =>
    simp only [Told, hp] at h
    obtain ⟨hadm, rfl, -⟩ := h
    rcases hp' with hp' | hp' <;> simp only [Told, hp', admissions_append, hadm, bare.1]
    · exact ⟨rfl, rfl, routing⟩
    · exact Or.inl rfl
  | granted model engine result _ _ hp' quiet about =>
    obtain ⟨hadm, rfl, hres⟩ := h
    simp only [Told, hp', admissions_append, hadm]
    exact ⟨rfl, about, hres model engine rfl⟩
  | unset model engine result _ hp' =>
    obtain ⟨hadm, rfl, hres⟩ := h
    simp only [Told, hp', admissions_append, hadm]
    exact Or.inr ⟨⟨model, engine, result⟩, rfl, by simp [About], hres model engine rfl⟩
  | inside a _ _ _ _ hp hp' quiet about bare =>
    simp only [Told, hp] at h
    obtain ⟨hadm, hos, hres⟩ := h
    simp only [Told, hp', admissions_append, hadm, bare.1]
    exact ⟨rfl, about_append job a _ _ hos about, hres⟩
  | leave a _ _ _ _ hp hp' given about bare =>
    simp only [Told, hp] at h
    obtain ⟨hadm, hos, hres⟩ := h
    simp only [Told, hp', admissions_append, hadm, bare.1]
    exact Or.inr ⟨a, rfl, about_append job a _ _ hos about, hres⟩
  | leak a exit x _ hp' =>
    obtain ⟨hadm, hos, hres⟩ := h
    simp only [Told, hp', admissions_append, hadm, List.append_nil]
    exact Or.inr ⟨a, rfl, hos, hres⟩
  | after _ _ _ hp hp' bare =>
    simp only [Told, hp] at h
    simpa only [Told, hp', admissions_append, bare.1, List.append_nil] using h

theorem run_told {E : Type} (job : Job E) (es : List Input) (oss : List (List (Output E)))
    (pc : Pc E) (h : run (StreamMachine.step job) .created es = some (pc, oss)) :
    Told job es oss.flatten pc := by
  refine run_history (fun es oss pc => Told job es oss.flatten pc) ?_ .created pc es oss ?_ h
  · intro es oss pc e pc' os hs hstep
    simpa using step_told job es oss.flatten os pc pc' e hs hstep
  · exact ⟨rfl, rfl, by simp⟩

/-- What a run of the generator shows, for the admission it was given. -/
theorem run_about {E : Type} (job : Job E) (es : List Input) (oss : List (List (Output E)))
    (pc : Pc E) (model : String) (engine : E) (result : AdmissionResult)
    (hres : job.service.resolveEngine job.request.val = .ok (model, engine))
    (hadm : result ∈ admissions es)
    (h : run (StreamMachine.step job) .created es = some (pc, oss)) :
    ∀ o ∈ oss.flatten, About job ⟨model, engine, result⟩ o := by
  have key : ∀ a : Admitted E, admissions es = [a.result] →
      job.service.resolveEngine job.request.val = .ok (a.model, a.engine) →
      a = ⟨model, engine, result⟩ := by
    rintro ⟨m, g, r⟩ ha hr
    rw [ha] at hadm
    rw [hres] at hr
    obtain ⟨rfl, rfl⟩ := Prod.mk.inj (Except.ok.inj hr)
    rw [List.mem_singleton.mp hadm]
  have ht := run_told job es oss pc h
  rw [Told] at ht
  split at ht
  · rw [ht.2.1]
    simp
  · obtain ⟨ha, hos, hr⟩ := ht
    exact key _ ha hr ▸ hos
  · rcases ht with ht | ⟨a, ha, hos, hr⟩
    · rw [ht]
      simp
    · exact key a ha hr ▸ hos

/-- The books of `complete`: one invocation, then the release, and the engine's
response with the block and the warnings attached. -/
def CompleteTold {E : Type} (job : Job E) (es : List CompleteInput) (os : List (Output E)) :
    CompletePc E → Prop
  | .created => completeAdmissions es = [] ∧ os = []
  | .admitting model engine => completeAdmissions es = [] ∧ os = [] ∧
      job.service.resolveEngine job.request.val = .ok (model, engine)
  | .generating a => completeAdmissions es = [a.result] ∧
      os = [.invoke a.model a.engine (job.effective a)] ∧
      job.service.resolveEngine job.request.val = .ok (a.model, a.engine)
  | .finished (.ok response) => ∃ a raw, completeAdmissions es = [a.result] ∧
      os = [.invoke a.model a.engine (job.effective a), a.release] ∧
      job.service.resolveEngine job.request.val = .ok (a.model, a.engine) ∧
      response = attach raw (job.effective a) a.result
  | .finished (.error _) => True

theorem completeStep_told {E : Type} (job : Job E) (es : List CompleteInput)
    (os os' : List (Output E)) (pc pc' : CompletePc E) (e : CompleteInput)
    (h : CompleteTold job es os pc) (hstep : completeStep job pc e = some (pc', os')) :
    CompleteTold job (es++[e]) (os++os') pc' := by
  cases pc with
  | created =>
    cases e with
    | start =>
      obtain ⟨hadm, rfl⟩ := h
      simp only [completeStep] at hstep
      split at hstep
      · obtain ⟨rfl, rfl⟩ := step_inj hstep
        trivial
      · obtain ⟨rfl, rfl⟩ := step_inj hstep
        exact ⟨by rw [completeAdmissions_append, hadm]; rfl, rfl, ‹_›⟩
    | _ => cases hstep
  | admitting model engine =>
    obtain ⟨hadm, rfl, hres⟩ := h
    cases e with
    | admitted result =>
      obtain ⟨rfl, rfl⟩ := step_inj hstep
      exact ⟨by rw [completeAdmissions_append, hadm]; rfl, rfl, hres⟩
    | admitRaised x =>
      obtain ⟨rfl, rfl⟩ := step_inj hstep
      trivial
    | _ => cases hstep
  | generating a =>
    obtain ⟨hadm, rfl, hres⟩ := h
    cases e with
    | generated response =>
      obtain ⟨rfl, rfl⟩ := step_inj hstep
      exact ⟨a, response, by rw [completeAdmissions_append, hadm]; rfl, rfl, hres, rfl⟩
    | generateRaised x =>
      obtain ⟨rfl, rfl⟩ := step_inj hstep
      trivial
    | _ => cases hstep
  | finished exit => cases e <;> cases hstep

theorem run_completeTold {E : Type} (job : Job E) (es : List CompleteInput)
    (oss : List (List (Output E))) (pc : CompletePc E)
    (h : run (completeStep job) .created es = some (pc, oss)) :
    CompleteTold job es oss.flatten pc := by
  refine run_history (fun es oss pc => CompleteTold job es oss.flatten pc) ?_
    .created pc es oss ⟨rfl, rfl⟩ h
  intro es oss pc e pc' os hs hstep
  simpa using completeStep_told job es oss.flatten os pc pc' e hs hstep

/-- The response of `complete`, and the prologue of a stream that invokes its
engine, are truthful exactly under the four conditions. -/
theorem echo_truthful_iff (job : Job VLLMEngine) (p : ChatPayload)
    (hreq : job.request.val = p.request) (model : String) (engine : VLLMEngine)
    (hres : job.service.resolveEngine job.request.val = .ok (model, engine)) (s : State) (id : ℕ)
    (result : AdmissionResult)
    (hadm : Admits job.service.admission s ⟨id, model, job.request, engine.boundary⟩ result) :
    (∀ es oss response, run (completeStep job) .created es = some (.finished (.ok response), oss) →
      result ∈ completeAdmissions es → ∃ effective block,
        oss.flatten = [.invoke model engine effective, .release model result.reservedTokens] ∧
        response.resolved = some block ∧
        (Truthful p model (engine.samplingParams effective) block response.warnings ↔
          Unaltered job.service engine p s)) ∧
    ∀ es oss pc cid block warnings m g effective,
      run (StreamMachine.step job) .created es = some (pc, oss) → result ∈ admissions es →
      .event (.prologue cid block warnings) ∈ oss.flatten →
      .invoke m g effective ∈ oss.flatten →
      (Truthful p m (g.samplingParams effective) block warnings ↔
        Unaltered job.service engine p s) := by
  have hp : p.request.valid = true := hreq ▸ job.request.property
  have hjob : job.request = ⟨p.request, hp⟩ := Subtype.ext hreq
  have htruth := truthful_iff job.service p hp model engine (hreq ▸ hres) s id result
    (hjob ▸ hadm)
  have heff : job.effective ⟨model, engine, result⟩ = effectiveRequest p.request result := by
    rw [Job.effective, hreq]
  constructor
  · intro es oss response hrun hmem
    obtain ⟨a, raw, ha, hos, hr, rfl⟩ := run_completeTold job es oss _ hrun
    have hkey : a = ⟨model, engine, result⟩ := by
      rw [ha] at hmem
      rw [hres] at hr
      obtain ⟨rfl, rfl⟩ := Prod.mk.inj (Except.ok.inj hr)
      rw [List.mem_singleton.mp hmem]
    subst hkey
    refine ⟨_, _, hos, rfl, ?_⟩
    rw [heff]
    exact htruth
  · intro es oss pc cid block warnings m g effective hrun hmem hpro hinv
    have habout := run_about job es oss pc model engine result hres hmem hrun
    obtain ⟨rfl, rfl⟩ := habout _ hpro
    obtain ⟨rfl, rfl, rfl⟩ := habout _ hinv
    rw [heff]
    exact htruth

def helloEngine : VLLMEngine := .ofEntry uncapped (countingEngine 10 (some 400))

def helloResponse : ChatCompletionResponse :=
  ⟨"m", [⟨0, "Hi", .stop⟩], ⟨10, 1, 11⟩, none, none, []⟩

def asking (name : String) : ChatPayload :=
  { helloPayload 100 .interactive false with model := name }

theorem asking_valid (name : String) : (asking name).request.valid = true :=
  helloRequest.property

def askingJob (name : String) : Job VLLMEngine :=
  smallJob helloEngine ⟨(asking name).request, asking_valid name⟩

def askingCall (name : String) : Call :=
  ⟨0, "m", ⟨(asking name).request, asking_valid name⟩, helloEngine.boundary⟩

def answered : List CompleteInput := [.start, .admitted ⟨100, 110, []⟩, .generated helloResponse]

theorem asking_unaltered :
    Unaltered (askingJob "m").service helloEngine (asking "m") initial where
  registered := by decide
  temperature := by decide
  topP := by decide
  cap _ h := by cases h
  limits _ _ h := by cases h

theorem echo_truthful_iff_named : ∃ oss response effective block,
    run (completeStep (askingJob "m")) .created answered =
      some (.finished (.ok response), oss) ∧
    response.resolved = some block ∧
    Truthful (asking "m") "m" (helloEngine.samplingParams effective) block response.warnings :=
  have hadm : Admits smallController initial (askingCall "m") ⟨100, 110, []⟩ :=
    admits_at_once _ _ _ _ (by decide +kernel)
  have ⟨effective, block, _, hblock, h⟩ := (echo_truthful_iff (askingJob "m") (asking "m") rfl
    "m" helloEngine rfl initial 0 ⟨100, 110, []⟩ hadm).1 answered _ _ rfl
    (List.mem_singleton.mpr rfl)
  ⟨_, _, effective, block, rfl, hblock, h.mpr asking_unaltered⟩

/-- A name that is not registered is answered by the default model and echoed
as the client wrote it, with no warning. -/
theorem unknown_model_echoed :
    Admits smallController initial (askingCall "other") ⟨100, 110, []⟩ ∧
    ∃ oss effective block response,
      run (completeStep (askingJob "other")) .created answered =
        some (.finished (.ok response), oss) ∧
      oss.flatten = [.invoke "m" helloEngine effective, .release "m" 110] ∧
      response.resolved = some block ∧
      ¬ Truthful (asking "other") "m" (helloEngine.samplingParams effective) block
        response.warnings :=
  ⟨admits_at_once _ _ _ _ (by decide +kernel),
    _, _, _, _, rfl, rfl, rfl, fun h => absurd h.1.model (by decide)⟩

end InferenceX.ResolvedEcho
