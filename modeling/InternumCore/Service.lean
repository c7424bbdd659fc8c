import InternumCore.ChunkMerge
import InternumCore.PostChecks
import InternumCore.Postprocess
import InternumCore.StoredUpload
import InternumCore.ValidatedCompletion

/-!
# The document parsing service

`runParse` stores the upload, has it extracted, and asks the model either for the
whole result at once or, for a long table, for its rows chunk by chunk
(`runChunkedParse`, `runChunk`).

The chunks run one after another here.  A chunk sees nothing of the others but
through the world, and the world is arbitrary: whatever the chunks of an
interleaved run were answered, there is a world that answers them so in order.
What the interleaving changes is the order of events, attempts and records
between chunks; `ChunkScheduling` has the chunks in every order.  `gather` may be
cancelled as a whole, and so may the wait for the semaphore.
-/

namespace InternumCore
open Chunking

/-! ## Data -/

/-- `ExtractionMode`. -/
inductive ExtractionMode where
  | native
  | scan
  | mixed
  | empty
  deriving DecidableEq

/-- `ParseMultipartRequest`. -/
structure ParseMultipartRequest where
  upload : UploadFile
  schema : LoadedJson
  additionalContext : Option String := none
  overrides : SafeRequestOverrides := {}
  checks : List Json := []

/-- `UsageSummary`. -/
structure UsageSummary where
  model : String
  promptTokens : Int
  completionTokens : Int
  totalTokens : Int
  costUsd : Option ℚ
  deriving DecidableEq

/-- `PostCheckResult`. -/
structure PostCheckResult where
  op : String
  passed : Bool
  detail : List (String × Json)
  deriving DecidableEq

/-- `ChunkingSummary`. -/
structure ChunkingSummary where
  chunked : Bool
  totalRows : Nat
  chunkCount : Nat
  failedChunks : List Nat
  partialResult : Bool
  model : String
  deriving DecidableEq

/-- `ParseMetadata`. -/
structure ParseMetadata where
  documentType : SupportedDocumentType
  extractionMode : Option ExtractionMode
  pageCount : Option Nat
  ocrPageCount : Option Nat
  converter : Option String
  usage : Option UsageSummary := none
  checks : List PostCheckResult := []
  chunking : Option ChunkingSummary := none
  deriving DecidableEq

/-- What an extractor returns: an `ExtractedDocument`, or just the Markdown. -/
inductive Extracted where
  | document (markdown : String) (metadata : ParseMetadata)
  | text (markdown : String)

/-- `ParsedDocument`. -/
structure ParsedDocument where
  data : Json
  metadata : ParseMetadata
  deriving DecidableEq

/-- `DocumentParsingService`, with what it calls out to. -/
structure DocumentParsingService (ω : Type) where
  settings : CoreSettings
  client : OpenRouterClient ω
  intake : Intake ω
  /-- `extractor.extract`, with what it returns or raises, and without its events. -/
  extract : StoredUpload → List TempFile → ω → Except PyError Extracted × ω
  /-- Entering `async with semaphore`. -/
  acquire : ω → Option Interruption × ω
  /-- What ends `asyncio.gather` before its results are in. -/
  gather : ω → Option Interruption × ω

/-! ## Requests -/

/-- `_build_user_content`. -/
def buildUserContent (markdown : String) (additionalContext : Option String) : String :=
  let sections := ["Extract structured JSON from the Markdown document below.",
    "Return null for unresolved fields instead of guessing."]
  let sections := match additionalContext with
    | some context => sections ++ [s!"Additional context:\n{context}"]
    | none => sections
  "\n\n".intercalate (sections ++ [s!"Document Markdown:\n{markdown}"])

/-- The requests of this service: one model and its chain, a text and a schema. -/
def extractionRequest (request : ParseMultipartRequest) (resolved : ResolvedModelConfig)
    (model : String) (models : List String) (markdown : String) (schema : Json)
    (consumerId requestId : Option String) (cacheControl : Bool) : OpenRouterRequest where
  model := model
  models := some models
  systemPrompt := resolved.systemPrompt
  userContent := buildUserContent markdown request.additionalContext
  schema := schema
  capability := "document_parsing"
  consumerId := consumerId
  requestId := requestId
  reasoningEffort := resolved.reasoningEffort
  temperature := resolved.temperature
  maxOutputTokens := resolved.maxOutputTokens
  cacheControl := cacheControl

/-- `resolved.models[0]`. -/
def ResolvedModelConfig.firstModel (resolved : ResolvedModelConfig) : String :=
  resolved.models.head resolved.models_ne

/-- `chunk_model` and `chunk_models`. -/
def chunkModels (settings : CoreSettings) (resolved : ResolvedModelConfig) :
    String × List String :=
  match settings.chunkModel.filter (· ≠ "") with
  | some model => (model, [model])
  | none => (resolved.firstModel, resolved.models)

/-! ## Results -/

/-- `sum(cost for cost in costs if cost is not None)`, if there is any. -/
def sumCosts (lib : Libraries) (costs : List (Option ℚ)) : Option ℚ :=
  if costs.all (·.isNone) then none
  else some ((costs.filterMap id).foldl lib.decimalAdd 0)

/-- `_aggregate_usage`. -/
def aggregateUsage (lib : Libraries) (results : List OpenRouterResult) (model : String) :
    UsageSummary where
  model := model
  promptTokens := (results.map (·.promptTokens)).sum
  completionTokens := (results.map (·.completionTokens)).sum
  totalTokens := (results.map (·.totalTokens)).sum
  costUsd := sumCosts lib (results.map (·.costUsd))

/-- The usage of a single completion. -/
def usageOf (result : OpenRouterResult) : UsageSummary where
  model := result.model
  promptTokens := result.promptTokens
  completionTokens := result.completionTokens
  totalTokens := result.totalTokens
  costUsd := result.costUsd

/-- The outcome of a chunk, as `gather(.., return_exceptions=True)` gives it. -/
def chunkOutcome (chunk : DocumentChunk) :
    Except PyError (ChunkOutcome × OpenRouterResult) → ChunkOutcome
  | .ok (outcome, _) => outcome
  | .error error => { index := chunk.index, rows := none, error := some error.text }

/-- The result of a chunk that succeeded. -/
def chunkResult : Except PyError (ChunkOutcome × OpenRouterResult) → Option OpenRouterResult
  | .ok (_, result) => some result
  | .error _ => none

/-- The error for failed chunks when partial results are not allowed. -/
def failedChunksError (chunks : List DocumentChunk) (failed : List Nat) : SchemaError where
  message := "Chunked extraction failed for one or more row ranges"
  details := some (.obj
    [("failedChunks", .arr (failed.map fun index => .int index)),
      ("failedRanges", .arr ((chunks.filter (·.index ∈ failed)).map fun chunk =>
        .arr [.int chunk.startRow, .int chunk.endRow]))])

section Methods

variable {ω : Type}

/-- Logs every result of `_run_post_checks`. -/
def logChecks (requestId : Option String) : List PostCheckResult → Method ω Unit
  | [] => return ()
  | check :: checks => do
    logEvent (.schemaPostcheck check.op check.passed (.obj check.detail) requestId)
    logChecks requestId checks

/-- `_run_post_checks`. -/
def runPostChecks (lib : Libraries) (data : Json) (checks : List Json)
    (requestId : Option String) : Method ω (List PostCheckResult) := do
  let outcomes ← Program.ofExcept (evaluatePostChecks lib data checks)
  let results := outcomes.map fun outcome =>
    ({ op := outcome.op, passed := outcome.passed, detail := outcome.detail } : PostCheckResult)
  logChecks requestId results
  return results

/-- The event of a check. -/
def postcheckEvent (requestId : Option String) (check : PostCheckResult) : LogEvent :=
  .schemaPostcheck check.op check.passed (.obj check.detail) requestId

/-- The result of a check, from its outcome. -/
def PostCheckOutcome.result (outcome : PostCheckOutcome) : PostCheckResult where
  op := outcome.op
  passed := outcome.passed
  detail := outcome.detail

theorem outcome_logChecks (requestId : Option String) (checks : List PostCheckResult)
    (s : Session ω) :
    (logChecks requestId checks).outcome s =
      (.ok (), { s with log := s.log ++ checks.map (postcheckEvent requestId) }) := by
  induction checks generalizing s with
  | nil => simp [logChecks]
  | cons check checks ih =>
    unfold logChecks
    refine (Program.outcome_bind_ok (a := ()) rfl).trans ((ih _).trans ?_)
    simp [postcheckEvent]

/-- The checks are evaluated, which may raise, and then logged. -/
theorem outcome_runPostChecks (lib : Libraries) (data : Json) (checks : List Json)
    (requestId : Option String) (s : Session ω) :
    (runPostChecks lib data checks requestId).outcome s =
      match evaluatePostChecks lib data checks with
      | .error e => (.error e, s)
      | .ok outcomes =>
        (.ok (outcomes.map (·.result)),
          { s with log := s.log ++ outcomes.map fun o => postcheckEvent requestId o.result }) := by
  unfold runPostChecks
  cases h : evaluatePostChecks lib data checks with
  | error e => rfl
  | ok outcomes =>
    refine (Program.outcome_bind_ok (a := outcomes) (t := s) rfl).trans ?_
    refine (Program.outcome_bind_ok (outcome_logChecks requestId _ s)).trans ?_
    simp [PostCheckOutcome.result, Function.comp_def]

namespace DocumentParsingService

variable (service : DocumentParsingService ω)

/-- The `try` block of `_run_chunk`. -/
def extractChunk (chunk : DocumentChunk) (plan : ChunkPlan) (chunkRequest : OpenRouterRequest)
    (requestId : Option String) : Method ω (ChunkOutcome × OpenRouterResult) := do
  let (data, result) ← completeAndValidate service.client chunkRequest plan.chunkSchema
  match data.get? plan.arrayLocation.propertyName with
  | some (.arr rows) =>
    logEvent (.chunkSucceeded chunk.index rows.length requestId)
    return ({ index := chunk.index, rows := some rows, error := none }, result)
  -- not so for a string or an object, which have a length; but the chunk schema of a plan
  -- lets nothing but an array through here
  | some _ => throw (.other "TypeError")
  -- `KeyError`
  | none => throw (.other (service.client.lib.quote plan.arrayLocation.propertyName))

/-- The loop of `_run_chunk`, with `tries` turns to go. -/
def tryChunk (chunk : DocumentChunk) (plan : ChunkPlan) (chunkRequest : OpenRouterRequest)
    (requestId : Option String) :
    Nat → Option PyError → Method ω (ChunkOutcome × OpenRouterResult)
  | 0, lastError => do
    logEvent (.chunkFailed chunk.index requestId)
    throw (lastError.getD (.other "chunk failed"))
  | tries + 1, _ => do
    match ← Program.capture (service.extractChunk chunk plan chunkRequest requestId) with
    | .ok extracted => return extracted
    | .error error =>
      -- `except Exception`
      if error.isException then tryChunk chunk plan chunkRequest requestId tries (some error)
      else throw error

/-- `_run_chunk`. -/
def runChunk (chunk : DocumentChunk) (plan : ChunkPlan) (request : ParseMultipartRequest)
    (resolved : ResolvedModelConfig) (chunkModel : String) (chunkModels : List String)
    (consumerId requestId : Option String) : Method ω (ChunkOutcome × OpenRouterResult) := do
  let interruption ← callWorld service.acquire
  raising interruption
  let chunkRequest := extractionRequest request resolved chunkModel chunkModels chunk.markdown
    plan.chunkSchema consumerId requestId service.settings.chunkPromptCache
  logEvent (.chunkRequest chunk.index requestId)
  service.tryChunk chunk plan chunkRequest requestId 2 none

/-- The summary of `_run_chunked_parse`: its data and its result, if there is one. -/
def runSummary (plan : ChunkPlan) (request : ParseMultipartRequest)
    (resolved : ResolvedModelConfig) (chunkModel : String) (chunkModels : List String)
    (consumerId requestId : Option String) : Method ω (Option (Json × OpenRouterResult)) := do
  match plan.summarySchema with
  | none => return none
  | some summarySchema =>
    let summaryRequest := extractionRequest request resolved chunkModel chunkModels
      plan.summaryMarkdown summarySchema consumerId requestId service.settings.chunkPromptCache
    let summary ← completeAndValidate service.client summaryRequest summarySchema
    return some summary

/-- The check for failed chunks. -/
def reportFailed (plan : ChunkPlan) (failed : List Nat) (requestId : Option String) :
    Method ω Unit := do
  if failed = [] then return ()
  else
    logEvent (.chunkPartial failed requestId)
    if service.settings.chunkAllowPartial then return ()
    else throw (.schema (failedChunksError plan.chunks failed))

/-- `_run_chunked_parse`. -/
def runChunkedParse (request : ParseMultipartRequest) (plan : ChunkPlan)
    (resolved : ResolvedModelConfig) (metadata : ParseMetadata)
    (consumerId requestId : Option String) : Method ω ParsedDocument := do
  let (chunkModel, chunkModels) := chunkModels service.settings resolved
  logEvent (.chunkPlan plan.totalRows plan.chunks.length service.settings.chunkRowsPerChunk
    requestId)
  -- `return_exceptions=True`: what a chunk raises is its result
  let chunkResults ← Program.captureEach
    (fun chunk => service.runChunk chunk plan request resolved chunkModel chunkModels
      consumerId requestId) plan.chunks
  let interruption ← callWorld service.gather
  raising interruption
  let outcomes := (plan.chunks.zip chunkResults).map fun p => chunkOutcome p.1 p.2
  let results := chunkResults.filterMap chunkResult
  let summary ← service.runSummary plan request resolved chunkModel chunkModels consumerId requestId
  let results := results ++ (summary.map (·.2)).toList
  let (mergedRows, failed) := mergeChunkRows outcomes
  let assembled := assembleResult plan mergedRows (summary.map (·.1))
  service.reportFailed plan failed requestId
  let validated ← Program.ofExcept
    (JsonSchema.validateAgainstOriginal service.client.lib.jsonschema assembled request.schema.1)
  let validated ← Program.ofExcept (requireObject validated)
  let data := normalizeValues validated request.schema.1
  let usage := aggregateUsage service.client.lib results chunkModel
  let checks ← runPostChecks service.client.lib data request.checks requestId
  let chunkingSummary : ChunkingSummary :=
    { chunked := true, totalRows := plan.totalRows, chunkCount := plan.chunks.length
      failedChunks := failed, partialResult := !failed.isEmpty, model := chunkModel }
  return { data := data, metadata :=
    { metadata with usage := some usage, checks := checks, chunking := some chunkingSummary } }

/-- The body of the `async with` block, and what is made of its result. -/
def storeAndExtract (request : ParseMultipartRequest) : Method ω (String × ParseMetadata) := do
  let (extracted, upload) ← storedUpload service.intake service.settings request.upload
    fun upload files w =>
      let extracted := service.extract upload files w
      (extracted.1.map (·, upload), extracted.2)
  match extracted with
  | .document markdown metadata => return (markdown, metadata)
  | .text markdown =>
    return (markdown,
      { documentType := upload.documentType, extractionMode := none, pageCount := none
        ocrPageCount := none, converter := none })

/-- The `ChunkingConfig` of the settings. -/
def chunkConfig : ChunkingConfig where
  rowThreshold := service.settings.chunkRowThreshold
  rowsPerChunk := service.settings.chunkRowsPerChunk
  rowThreshold_pos := service.settings.chunkRowThreshold_pos
  rowsPerChunk_pos := service.settings.chunkRowsPerChunk_pos

/-- The single pass of `_run_parse`. -/
def runSinglePass (request : ParseMultipartRequest) (markdown : String)
    (resolved : ResolvedModelConfig) (metadata : ParseMetadata)
    (consumerId requestId : Option String) : Method ω ParsedDocument := do
  let openrouterRequest := extractionRequest request resolved resolved.firstModel resolved.models
    markdown request.schema.1 consumerId requestId false
  let (data, result) ← completeAndValidate service.client openrouterRequest request.schema.1
  let data := normalizeValues data request.schema.1
  let checks ← runPostChecks service.client.lib data request.checks requestId
  return { data := data, metadata :=
    { metadata with usage := some (usageOf result), checks := checks } }

/-- `_run_parse`. -/
def runParse (request : ParseMultipartRequest) (consumerId requestId : Option String) :
    Method ω ParsedDocument := do
  let resolved := resolveRequestOverrides service.settings request.overrides
  let (markdown, metadata) ← service.storeAndExtract request
  match buildChunkPlan markdown request.schema.1 service.chunkConfig with
  | some plan => service.runChunkedParse request plan resolved metadata consumerId requestId
  | none => service.runSinglePass request markdown resolved metadata consumerId requestId

end DocumentParsingService
end Methods

end InternumCore
