import InferenceX.DefaultRoute
import InferenceX.VariantChoice

/-!
# The two resolvers of model names

The default name and each loaded name are resolved by two separate functions.
On one tier and one memory figure both take a name to the same registered
model, or both raise the same kind of error. So where no loaded names are set
and both builders read one probe, the default route is the loaded model.
-/

set_option autoImplicit false

namespace InferenceX.NameResolvers
open InferenceX.PythonValues InferenceX.ModelRegistry
open InferenceX.AdmissionGates InferenceX.ChatDispatch
open InferenceX.VllmPoolConfig InferenceX.HubEstimates
open InferenceX.VariantSelector InferenceX.VariantChoice
open InferenceX.Startup InferenceX.DefaultRoute

section Resolvers
variable (hub : Hub) (registry : Registry) (tier : Option VramTier) (available : ℚ) (name : String)

/-- The default name, through `_resolve_default_model` and `TaskRouter(...)`. -/
def defaultRoute : Except PyError TaskRouter := do
  let resolved ← resolveDefaultModel hub registry name tier available
  taskRouter registry resolved

def FamilyTooBig : Prop :=
  registry.contains name = false ∧ variants registry name ≠ [] ∧ ∃ t ∈ tier,
    ∀ e ∈ variants registry name, fits hub (available*t.gpuMemoryUtilizationCeiling) e = false

theorem contains_mem (e : ValidEntry) (h : e ∈ registry.entries) :
    registry.contains e.val.name = true := by
  rw [Registry.contains, registry.find_mem e h]
  rfl

theorem taskRouter_ok (model : String) (h : registry.contains model = true) :
    taskRouter registry model = .ok ⟨registry, model, h⟩ := dif_pos h

theorem taskRouter_error (model : String) (h : registry.contains model = false) :
    taskRouter registry model = .error (unknownDefault model registry) := dif_neg (by simp [h])

theorem resolveLoadedModelNames_single :
    resolveLoadedModelNames hub registry [name] tier available =
      (resolveLoadedName hub registry tier available name).map fun model => [model] := by
  rw [resolveLoadedModelNames, List.mapM_cons, List.mapM_nil]
  cases resolveLoadedName hub registry tier available name <;> rfl

theorem resolvers_registered (h : registry.contains name = true) :
    defaultRoute hub registry tier available name = .ok ⟨registry, name, h⟩ ∧
      resolveLoadedName hub registry tier available name = .ok name := by
  constructor
  · cases tier with
    | none => exact taskRouter_ok registry name h
    | some t =>
      rw [defaultRoute, resolveDefaultModel, if_pos (Or.inl h)]
      exact taskRouter_ok registry name h
  · simp only [resolveLoadedName, if_pos h]

/-- A name that is neither an entry nor a family, or for which there is no
tier, is left to the lookups in the registry, and both of them raise. -/
theorem resolvers_unknown (h : registry.contains name = false)
    (hfamily : tier = none ∨ variants registry name = []) :
    defaultRoute hub registry tier available name = .error (unknownDefault name registry) ∧
      resolveLoadedName hub registry tier available name =
        .error (notRegistered name registry) := by
  have hget := registryGet_error registry name h
  have hn : ¬ registry.contains name = true := by simp [h]
  cases tier with
  | none =>
    constructor
    · exact taskRouter_error registry name h
    · rw [resolveLoadedName, if_neg hn]
      simp only [hget, bind, Except.bind]
  | some t =>
    have hempty : (variants registry name).isEmpty = true := by
      rcases hfamily with hnone | hnil
      · cases hnone
      · rw [hnil]
        rfl
    constructor
    · rw [defaultRoute, resolveDefaultModel, if_pos (Or.inr hempty)]
      exact taskRouter_error registry name h
    · rw [resolveLoadedName, if_neg hn]
      simp only [if_pos hempty, hget, bind, Except.bind]

theorem resolvers_family (t : VramTier) (h : registry.contains name = false)
    (hfamily : variants registry name ≠ []) :
    defaultRoute hub registry (some t) available name =
        (selectVariant hub name registry t available >>= taskRouter registry) ∧
      resolveLoadedName hub registry (some t) available name =
        selectVariant hub name registry t available := by
  have hn : ¬ registry.contains name = true := by simp [h]
  have hempty : ¬ (variants registry name).isEmpty = true := by simpa using hfamily
  constructor
  · rw [defaultRoute, resolveDefaultModel, if_neg (not_or.mpr ⟨hn, hempty⟩)]
  · rw [resolveLoadedName, if_neg hn]
    exact if_neg hempty

/-- Both resolvers designate one registered model, or both fail: for a family
that is too big with the error that nothing fits, else with a `ValueError`. -/
def ResolversAgree : Prop :=
  (FamilyTooBig hub registry tier available name →
    (∃ message, defaultRoute hub registry tier available name =
      .error (.noVariantFits message)) ∧
    ∃ message, resolveLoadedModelNames hub registry [name] tier available =
      .error (.noVariantFits message)) ∧
  (¬ FamilyTooBig hub registry tier available name →
    (∃ model, ∃ hm : registry.contains model = true,
      defaultRoute hub registry tier available name = .ok ⟨registry, model, hm⟩ ∧
      resolveLoadedModelNames hub registry [name] tier available = .ok [model]) ∨
    ((∃ message, defaultRoute hub registry tier available name = .error (.valueError message)) ∧
      ∃ message, resolveLoadedModelNames hub registry [name] tier available =
        .error (.valueError message)))

theorem resolvers_agree (hs : Sized hub) : ResolversAgree hub registry tier available name := by
  rw [ResolversAgree, resolveLoadedModelNames_single]
  by_cases hr : registry.contains name = true
  · obtain ⟨hdefault, hloaded⟩ := resolvers_registered hub registry tier available name hr
    rw [hdefault, hloaded]
    constructor
    · rintro ⟨hn, -⟩
      rw [hr] at hn
      cases hn
    · exact fun _ => Or.inl ⟨name, hr, rfl, rfl⟩
  have hn : registry.contains name = false := by simpa using hr
  by_cases hfamily : tier = none ∨ variants registry name = []
  · obtain ⟨hdefault, hloaded⟩ := resolvers_unknown hub registry tier available name hn hfamily
    rw [hdefault, hloaded]
    constructor
    · rintro ⟨-, hsome, t, ht, -⟩
      rcases hfamily with rfl | hnil
      · cases ht
      · exact absurd hnil hsome
    · exact fun _ => Or.inr ⟨⟨_, rfl⟩, _, rfl⟩
  obtain ⟨hsome, hne⟩ := not_or.mp hfamily
  obtain ⟨t, rfl⟩ := Option.ne_none_iff_exists'.mp hsome
  obtain ⟨hdefault, hloaded⟩ := resolvers_family hub registry available name t hn hne
  rw [hdefault, hloaded]
  rcases selectVariant_cases hub hs registry name t available with
    ⟨e, he, heq⟩ | ⟨hnone, message, heq⟩
  · have hm := contains_mem registry e ((mem_variants registry name e).mp he.mem).1
    rw [heq]
    constructor
    · rintro ⟨-, -, t', ht, hnone⟩
      obtain rfl : t = t' := Option.some.inj ht
      exact absurd (hnone e he.mem) (he.not_refused hub _)
    · exact fun _ => Or.inl ⟨e.val.name, hm, taskRouter_ok registry _ hm, rfl⟩
  · rw [heq]
    constructor
    · exact fun _ => ⟨⟨message, rfl⟩, message, rfl⟩
    · exact fun hbig => absurd ⟨hn, hne, t, rfl, hnone⟩ hbig

end Resolvers

/-- `probe_gpu_memory_gib()`: both figures of nvidia-smi, or else of torch, or none. -/
def probeGpuMemoryGib (smi torch : Option (ℚ × ℚ)) : Probe :=
  match smi, torch with
  | some (free, total), _ => ⟨some free, some total⟩
  | none, some (free, total) => ⟨some free, some total⟩
  | none, none => ⟨none, none⟩

/-- The builders fall back on the total in two ways, but never on a probe. -/
theorem probe_vram (tier : Option VramTier) (smi torch : Option (ℚ × ℚ)) :
    (Reading.mk tier (probeGpuMemoryGib smi torch)).routerVram =
      (Reading.mk tier (probeGpuMemoryGib smi torch)).poolVram := by
  cases smi with
  | some figures => rfl
  | none =>
    cases torch with
    | some figures => rfl
    | none => rfl

theorem appSettings_unset (defaultModel : Option String) :
    (appSettings defaultModel none).loadedModels =
      [(appSettings defaultModel none).defaultModel] := by
  have hblank : Library.TextLines.strip ((none : Option String).getD "").toList = [] := by decide
  simp only [appSettings, if_pos hblank]

/-- The resolvers agree on every name; and where no loaded names are set and
both builders read one probe, the pool holds the default of the router. -/
theorem resolvers_coincide {E : Type} (hub : Hub) (hs : Sized hub) (runtime : Runtime E)
    (registry : Registry) (tier : Option VramTier) :
    (∀ (available : ℚ) (name : String), ResolversAgree hub registry tier available name) ∧
    ∀ (defaultModel : Option String) (smi torch : Option (ℚ × ℚ)) (again : Probe)
      (router : TaskRouter) (pool : EnginePool E),
      initializeApp hub runtime registry (appSettings defaultModel none)
          ⟨tier, probeGpuMemoryGib smi torch⟩ ⟨tier, probeGpuMemoryGib smi torch⟩ again =
        .ok (router, pool) →
      ∃ engine, pool = onePool router.default.defaultModel engine := by
  refine ⟨fun available name => resolvers_agree hub registry tier available name hs, ?_⟩
  intro defaultModel smi torch again router pool h
  obtain ⟨default, loaded, engine, hd, rfl, rfl, hdefault, -, hloaded⟩ :=
    initializeApp_ok hub runtime registry _ _ _ _ _ _ h
  have hname := hloaded (appSettings defaultModel none).defaultModel
    (by rw [appSettings_unset]; exact List.mem_singleton_self _)
  rw [← probe_vram] at hname
  obtain rfl := standsFor_unique hub registry _ _ _ _ _ hdefault hname
  exact ⟨engine, rfl⟩

theorem plainHub_sized : Sized plainHub := by
  intro path config h
  cases h

/-- With the default model `a` and no loaded names the pool holds what the router falls back to. -/
theorem resolvers_coincide_unset :
    ResolversAgree plainHub twoModels none 7 "a" ∧
    ∃ router pool, startWith none = .ok (router, pool) ∧
      ∃ engine, pool = onePool router.default.defaultModel engine := by
  have hall := resolvers_coincide plainHub plainHub_sized plainRuntime twoModels none
  obtain ⟨router, pool, hstart⟩ := starts none (by decide +kernel)
  exact ⟨hall.1 7 "a", router, pool, hstart,
    hall.2 (some "a") (some (7, 8)) none eightGib.probe router pool hstart⟩

end InferenceX.NameResolvers
