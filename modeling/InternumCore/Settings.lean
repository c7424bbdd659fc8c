import Mathlib.Data.Rat.Defs
import Mathlib.Algebra.Order.Ring.Rat
import Mathlib.Tactic.NormNum

/-!
# Settings and request overrides

`CoreSettings` holds the settings the modelled functions read, with the bounds
their fields are declared with.  `resolveRequestOverrides` picks the models and
the prompt of one request from the settings and what the request overrides.
-/

namespace InternumCore

/-- `CoreSettings`, as far as extraction reads it. -/
structure CoreSettings where
  defaultModel : String
  defaultModels : Option (List String) := none
  defaultSystemPrompt : String
  requestAttemptTimeoutSeconds : ℚ := 120
  requestTotalTimeoutSeconds : ℚ := 300
  maxUploadBytes : Nat
  maxImagePixels : Nat := 25000000
  maxOoxmlZipEntries : Nat := 1000
  maxOoxmlUncompressedBytes : Nat := 104857600
  maxOoxmlCompressionRatio : ℚ := 100
  defaultReasoningEffort : Option String := none
  defaultTemperature : Option ℚ := none
  defaultMaxOutputTokens : Option Nat := none
  chunkRowThreshold : Nat := 60
  chunkRowsPerChunk : Nat := 50
  chunkMaxConcurrency : Nat := 4
  chunkAllowPartial : Bool := true
  chunkModel : Option String := none
  chunkPromptCache : Bool := true
  defaultModel_ne : defaultModel ≠ ""
  requestAttemptTimeoutSeconds_pos : 0 < requestAttemptTimeoutSeconds
  requestTotalTimeoutSeconds_pos : 0 < requestTotalTimeoutSeconds
  chunkRowThreshold_pos : 0 < chunkRowThreshold
  chunkRowsPerChunk_pos : 0 < chunkRowsPerChunk
  chunkMaxConcurrency_pos : 0 < chunkMaxConcurrency

/-- The settings with every default. -/
def CoreSettings.plain : CoreSettings where
  defaultModel := "default"
  defaultSystemPrompt := "prompt"
  maxUploadBytes := 1024
  defaultModel_ne := by decide
  requestAttemptTimeoutSeconds_pos := by norm_num
  requestTotalTimeoutSeconds_pos := by norm_num
  chunkRowThreshold_pos := by decide
  chunkRowsPerChunk_pos := by decide
  chunkMaxConcurrency_pos := by decide

/-- `SafeRequestOverrides`. -/
structure SafeRequestOverrides where
  model : Option String := none
  models : Option (List String) := none
  systemPrompt : Option String := none

/-- `ResolvedModelConfig`. -/
structure ResolvedModelConfig where
  model : String
  models : List String
  systemPrompt : String
  reasoningEffort : Option String
  temperature : Option ℚ
  maxOutputTokens : Option Nat
  models_ne : models ≠ []

/-- `MAX_MODELS_CHAIN_LENGTH`. -/
def maxModelsChainLength : Nat := 3

/-- The chain the models are taken from: the first source that is not empty. -/
def sourceChain (settings : CoreSettings) (overrides : SafeRequestOverrides) : List String :=
  match overrides.models with
  | some (model :: models) => model :: models
  | _ =>
    match overrides.model.filter (· ≠ "") with
    | some model => [model]
    | none =>
      match settings.defaultModels with
      | some (model :: models) => model :: models
      | _ => [settings.defaultModel]

/-- The loop body that drops empty and repeated names. -/
def dedupStep (deduped : List String) (model : String) : List String :=
  if model ≠ "" ∧ model ∉ deduped then deduped ++ [model] else deduped

/-- `_resolve_model_chain`. -/
def resolveModelChain (settings : CoreSettings) (overrides : SafeRequestOverrides) : List String :=
  match ((sourceChain settings overrides).foldl dedupStep []).take maxModelsChainLength with
  | [] => [settings.defaultModel]
  | chain => chain

theorem resolveModelChain_ne_nil (settings : CoreSettings) (overrides : SafeRequestOverrides) :
    resolveModelChain settings overrides ≠ [] := by
  unfold resolveModelChain
  split
  · exact List.cons_ne_nil _ _
  · next h => exact h

/-- `resolve_request_overrides`. -/
def resolveRequestOverrides (settings : CoreSettings) (overrides : SafeRequestOverrides) :
    ResolvedModelConfig :=
  let chain := resolveModelChain settings overrides
  { model := chain.head (resolveModelChain_ne_nil settings overrides)
    models := chain
    systemPrompt := match overrides.systemPrompt with
      | some prompt => if prompt ≠ "" then prompt else settings.defaultSystemPrompt
      | none => settings.defaultSystemPrompt
    reasoningEffort := settings.defaultReasoningEffort
    temperature := settings.defaultTemperature
    maxOutputTokens := settings.defaultMaxOutputTokens
    models_ne := resolveModelChain_ne_nil settings overrides }

end InternumCore
