import InferenceX.VllmPoolConfig

/-!
# The variant of a family that fits

A family is the entries that name it; an entry without one is its own. The
variants are tried from the highest precision down, entries of equal precision
in registry order, and the first whose weights fit the budget is taken.
-/

set_option autoImplicit false

namespace InferenceX.VariantSelector
open InferenceX.PythonValues InferenceX.ModelRegistry InferenceX.VllmPoolConfig

/-- `m.family or m.name`. -/
def familyOf (e : ModelEntry) : String :=
  match e.family with
  | some family => if family = "" then e.name else family
  | none => e.name

def variants (registry : Registry) (family : String) : List ValidEntry :=
  registry.entries.filter fun e => familyOf e.val = family

def Precedes (a b : ValidEntry) : Prop :=
  bytesPerParam b.val.quantization ≤ bytesPerParam a.val.quantization

instance : DecidableRel Precedes := fun _ _ => inferInstanceAs (Decidable (_ ≤ _))

def sortedByPrecision (entries : List ValidEntry) : List ValidEntry :=
  entries.insertionSort Precedes

def noVariants (family : String) (registry : Registry) : PyError :=
  .noVariantFits ("No model variants registered for family '" ++ family ++
    "'. Available models: " ++ listRepr registry.names)

def noneFits (family : String) (budget : ℚ) (tier : VramTier) (sizes : List String) : PyError :=
  .noVariantFits ("No variant of family '" ++ family ++
    "' fits the available VRAM budget (~" ++ fixedText 2 budget ++ " GiB after the " ++
    tier.name ++ " tier's " ++ fixedText 0 (tier.gpuMemoryUtilizationCeiling*100) ++
    "% utilization ceiling). Variants and estimated weight sizes: " ++
    ", ".intercalate sizes ++ ".")

section Select
variable (hub : Hub)

def weightsOf (e : ValidEntry) : Except PyError ℚ :=
  estimateWeightGib hub e.val.modelPath e.val.quantization

def sizeText (e : ValidEntry) : Except PyError String :=
  (weightsOf hub e).map fun size => e.val.name ++ " (~" ++ fixedText 2 size ++ " GiB)"

def firstFitting (budget : ℚ) : List ValidEntry → Except PyError (Option String)
  | [] => .ok none
  | e::es => do
    let size ← weightsOf hub e
    if size ≤ budget then return some e.val.name
    firstFitting budget es

def selectVariant (family : String) (registry : Registry) (tier : VramTier) (available : ℚ) :
    Except PyError String :=
  if (variants registry family).isEmpty then .error (noVariants family registry)
  else do
    let budget := available*tier.gpuMemoryUtilizationCeiling
    let ordered := sortedByPrecision (variants registry family)
    match ← firstFitting hub budget ordered with
    | some name => .ok name
    | none =>
      let sizes ← ordered.mapM (sizeText hub)
      .error (noneFits family budget tier sizes)

theorem mem_sortedByPrecision (entries : List ValidEntry) (e : ValidEntry) :
    e ∈ sortedByPrecision entries ↔ e ∈ entries := List.mem_insertionSort _

end Select

end InferenceX.VariantSelector
