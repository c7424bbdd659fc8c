import InternumCore.Billing
import InternumCore.BoundedGather

/-!
# The chunks of a plan, run at once

`_run_chunked_parse` starts one task for every chunk and gathers what they return;
`_run_chunk` takes a permit of the semaphore, tries twice, and gives it back.
`ChunkTask.runChunk` is that task as a coroutine, whose calls are the calls of
`complete`.  Alone it does what `DocumentParsingService.runChunk` does
(`program_runChunk`), and the chunks one after another, as `runChunkedParse` has
them, are one of the orders (`captureEach_runChunk_of_some_run`).

`chunks_bounded_and_order_independent` is about all chunks together, in every
order of steps: what holds at every moment (`Disciplined`), that every run comes
to an end, and that what is made of the results does not depend on the order.

A task that is cancelled while it waits for its permit is left out: only the
cancellation of the whole request does that, and then nothing is gathered.
-/

namespace InternumCore
open Chunking Coroutine

/-! ## The task of a chunk -/

/-- A piece of a chunk's task.  Its calls are those of `complete`. -/
abbrev ChunkTask (α : Type) :=
  Raising PyError OpenRouterRequest (Except PyError OpenRouterResult) LogEvent α

/-- The task of a chunk, with what `gather` makes of it. -/
abbrev ChunkText :=
  Coroutine OpenRouterRequest (Except PyError OpenRouterResult) LogEvent
    (Except PyError (ChunkOutcome × OpenRouterResult))

namespace ChunkTask
open Raising

/-- `_repair_and_validate`. -/
def repairAndValidate (lib : Libraries) (rawOutput : String) (schema : Json)
    (validationRetryTriggered failureTriggersRetry : Bool) : ChunkTask Json := do
  match requiresJsonRepair lib rawOutput with
  | .error error => throw error
  | .ok repairApplied =>
    match validatedOutput lib rawOutput schema with
    | .error (.schema error) =>
      tell (.schemaValidation false repairApplied
        (failureTriggersRetry || validationRetryTriggered))
      throw (.schema error)
    | .error error => throw error
    | .ok validated =>
      tell (.schemaValidation true repairApplied validationRetryTriggered)
      tell (.schemaValues validated)
      return validated

/-- `_complete_and_validate`. -/
def completeAndValidate (lib : Libraries) (request : OpenRouterRequest) (schema : Json) :
    ChunkTask (Json × OpenRouterResult) := do
  let result ← ask request
  match ← attempt (repairAndValidate lib result.content schema false true) with
  | .ok data => return (data, result)
  | .error (.schema error) =>
    let retryAttempt := result.attempt + 1
    tell (.modelRetry "schema_rejection" retryAttempt none none none)
    let retryResult ← ask
      { request with
        validationRetryPrompt := some (formatValidationRetry lib error)
        attempt := retryAttempt }
    let data ← repairAndValidate lib retryResult.content schema true false
    return (data, retryResult)
  | .error error => throw error

/-- The `try` block of `_run_chunk`. -/
def extractChunk (lib : Libraries) (chunk : DocumentChunk) (plan : ChunkPlan)
    (chunkRequest : OpenRouterRequest) (requestId : Option String) :
    ChunkTask (ChunkOutcome × OpenRouterResult) := do
  let (data, result) ← completeAndValidate lib chunkRequest plan.chunkSchema
  match data.get? plan.arrayLocation.propertyName with
  | some (.arr rows) =>
    tell (.chunkSucceeded chunk.index rows.length requestId)
    return ({ index := chunk.index, rows := some rows, error := none }, result)
  -- a string or an object comes no more to this than in `DocumentParsingService.extractChunk`
  | some _ => throw (.other "TypeError")
  -- `KeyError`
  | none => throw (.other (lib.quote plan.arrayLocation.propertyName))

/-- The loop of `_run_chunk`, with `tries` turns to go. -/
def tryChunk (lib : Libraries) (chunk : DocumentChunk) (plan : ChunkPlan)
    (chunkRequest : OpenRouterRequest) (requestId : Option String) :
    Nat → Option PyError → ChunkTask (ChunkOutcome × OpenRouterResult)
  | 0, lastError => do
    tell (.chunkFailed chunk.index requestId)
    throw (lastError.getD (.other "chunk failed"))
  | tries + 1, _ => do
    match ← attempt (extractChunk lib chunk plan chunkRequest requestId) with
    | .ok extracted => return extracted
    | .error error =>
      -- `except Exception`
      if error.isException then tryChunk lib chunk plan chunkRequest requestId tries (some error)
      else throw error

variable {ω : Type} (service : DocumentParsingService ω)

/-- `_run_chunk`, all of it under the semaphore. -/
def runChunk (chunk : DocumentChunk) (plan : ChunkPlan) (request : ParseMultipartRequest)
    (resolved : ResolvedModelConfig) (chunkModel : String) (chunkModels : List String)
    (consumerId requestId : Option String) : ChunkTask (ChunkOutcome × OpenRouterResult) :=
  withPermit do
    let chunkRequest := extractionRequest request resolved chunkModel chunkModels chunk.markdown
      plan.chunkSchema consumerId requestId service.settings.chunkPromptCache
    tell (.chunkRequest chunk.index requestId)
    tryChunk service.client.lib chunk plan chunkRequest requestId 2 none

/-! ## One chunk alone -/

section Alone

/-- A call of `complete`, with its outcome. -/
def answered (client : OpenRouterClient ω) (request : OpenRouterRequest) :
    StateM (Session ω) (Except PyError OpenRouterResult) := (client.complete request).run

/-- `log_event`. -/
def logged (event : LogEvent) : StateM (Session ω) Unit :=
  fun s => ((), { s with log := s.log ++ [event] })

variable (client : OpenRouterClient ω)

theorem program_tell (event : LogEvent) :
    program (answered client) logged (tell event) = logEvent event := rfl

theorem program_ask (request : OpenRouterRequest) :
    program (answered client) logged (ask request) = client.complete request := rfl

theorem program_repairAndValidate (lib : Libraries) (rawOutput : String) (schema : Json)
    (retryTriggered triggersRetry : Bool) :
    program (answered client) logged
        (repairAndValidate lib rawOutput schema retryTriggered triggersRetry) =
      InternumCore.repairAndValidate lib rawOutput schema retryTriggered triggersRetry := by
  unfold repairAndValidate InternumCore.repairAndValidate
  cases requiresJsonRepair lib rawOutput with
  | error error => rfl
  | ok repairApplied =>
    dsimp only
    cases validatedOutput lib rawOutput schema with
    | error error => cases error <;> simp [program_tell]
    | ok validated => simp [program_tell]

theorem program_completeAndValidate (request : OpenRouterRequest) (schema : Json) :
    program (answered client) logged (completeAndValidate client.lib request schema) =
      InternumCore.completeAndValidate client request schema := by
  unfold completeAndValidate InternumCore.completeAndValidate
  rw [program_bind, program_ask]
  refine bind_congr fun result => ?_
  rw [program_bind, program_attempt, program_repairAndValidate]
  refine bind_congr fun outcome => ?_
  rcases outcome with error | data
  · cases error <;> simp [program_tell, program_ask, program_repairAndValidate]
  · rfl

theorem program_extractChunk (chunk : DocumentChunk) (plan : ChunkPlan)
    (chunkRequest : OpenRouterRequest) (requestId : Option String) :
    program (answered service.client) logged
        (extractChunk service.client.lib chunk plan chunkRequest requestId) =
      service.extractChunk chunk plan chunkRequest requestId := by
  unfold extractChunk DocumentParsingService.extractChunk
  rw [program_bind, program_completeAndValidate]
  refine bind_congr fun extracted => ?_
  obtain ⟨data, result⟩ := extracted
  dsimp only
  rcases data.get? plan.arrayLocation.propertyName with _ | rows
  · rfl
  · cases rows <;> rfl

theorem program_tryChunk (chunk : DocumentChunk) (plan : ChunkPlan)
    (chunkRequest : OpenRouterRequest) (requestId : Option String) (tries : Nat)
    (lastError : Option PyError) :
    program (answered service.client) logged
        (tryChunk service.client.lib chunk plan chunkRequest requestId tries lastError) =
      service.tryChunk chunk plan chunkRequest requestId tries lastError := by
  induction tries generalizing lastError with
  | zero => rfl
  | succ tries ih =>
    unfold tryChunk DocumentParsingService.tryChunk
    rw [program_bind, program_attempt, program_extractChunk]
    refine bind_congr fun outcome => ?_
    rcases outcome with error | extracted
    · by_cases he : error.isException
      · simp only [he, if_true]
        exact ih (some error)
      · simp only [he]
        rfl
    · rfl

/-- **One chunk alone** does what the service's `runChunk` does once it has its
permit. -/
theorem program_runChunk (chunk : DocumentChunk) (plan : ChunkPlan)
    (request : ParseMultipartRequest) (resolved : ResolvedModelConfig) (chunkModel : String)
    (chunkModels : List String) (consumerId requestId : Option String) :
    service.runChunk chunk plan request resolved chunkModel chunkModels consumerId requestId =
      (do
        let interruption ← callWorld service.acquire
        raising interruption
        program (answered service.client) logged
          (runChunk service chunk plan request resolved chunkModel chunkModels consumerId
            requestId)) := by
  unfold runChunk DocumentParsingService.runChunk
  rw [program_withPermit, program_bind]
  simp only [program_tryChunk]
  rfl

/-- Where the wait for a permit is not interrupted, the outcome of a chunk is the
result of its task. -/
theorem outcome_runChunk (hacquire : ∀ w, (service.acquire w).1 = none) (chunk : DocumentChunk)
    (plan : ChunkPlan) (request : ParseMultipartRequest) (resolved : ResolvedModelConfig)
    (chunkModel : String) (chunkModels : List String) (consumerId requestId : Option String)
    (s : Session ω) :
    (service.runChunk chunk plan request resolved chunkModel chunkModels consumerId
        requestId).outcome s =
      (runChunk service chunk plan request resolved chunkModel chunkModels consumerId
        requestId).run.perform (answered service.client) logged
          { s with world := (service.acquire s.world).2 } := by
  have hwait : (callWorld service.acquire).outcome s =
      (.ok none, { s with world := (service.acquire s.world).2 }) := by
    rw [← hacquire s.world]
    rfl
  rw [program_runChunk, Program.outcome_bind_ok hwait]
  exact Program.outcome_bind_ok (a := ()) rfl

end Alone

/-! ## One try and two tries -/

/-- The tries among the requests of a chunk.  A try begins with the chunk's own
request; the request that repeats it after a rejected output carries the
validation error. -/
def tries (requests : List OpenRouterRequest) : Nat :=
  requests.countP (·.validationRetryPrompt.isNone)

theorem tries_append (requests requests' : List OpenRouterRequest) :
    tries (requests ++ requests') = tries requests + tries requests' := List.countP_append

/-- A piece of a task that makes `n` tries, however it ends. -/
def Tries {α : Type} (n : Nat) (task : ChunkTask α) : Prop :=
  task.run.Talks fun calls _ => tries (calls.map Prod.fst) = n

section Tries

variable {lib : Libraries} {request : OpenRouterRequest} {α β : Type} {n : Nat}

theorem Tries.bind {task : ChunkTask α} {f : α → ChunkTask β} (h : Tries n task)
    (hf : ∀ a, Tries 0 (f a)) : Tries n (task >>= f) := by
  refine talks_bind h (fun calls a hn => ?_) fun calls e hn => hn
  refine (hf a).mono fun calls' outcome hzero => ?_
  rw [List.map_append, tries_append, hn, hzero, Nat.add_zero]

theorem Tries.attempt {task : ChunkTask α} (h : Tries n task) : Tries n (attempt task) :=
  talks_attempt h

theorem tries_pure (a : α) : Tries 0 (pure a) := rfl

theorem tries_throw (e : PyError) : Tries 0 (throw e : ChunkTask α) := rfl

theorem tries_tell (event : LogEvent) : Tries 0 (tell event) := rfl

theorem tries_ask (request : OpenRouterRequest) : Tries (tries [request]) (ask request) :=
  fun _ => rfl

theorem tries_repairAndValidate {rawOutput : String} {schema : Json}
    {retryTriggered triggersRetry : Bool} :
    Tries 0 (repairAndValidate lib rawOutput schema retryTriggered triggersRetry) := by
  unfold repairAndValidate
  cases requiresJsonRepair lib rawOutput with
  | error error => exact tries_throw error
  | ok repairApplied =>
    dsimp only
    cases validatedOutput lib rawOutput schema with
    | error error =>
      cases error with
      | schema error => exact (tries_tell _).bind fun _ => tries_throw _
      | _ => exact tries_throw _
    | ok validated =>
      exact (tries_tell _).bind fun _ => (tries_tell _).bind fun _ => tries_pure _

/-- A validated completion is one try, whether it asks again or not. -/
theorem tries_completeAndValidate {schema : Json} (hfirst : request.validationRetryPrompt = none) :
    Tries 1 (completeAndValidate lib request schema) := by
  have hone : tries [request] = 1 := by simp [tries, hfirst]
  unfold completeAndValidate
  refine (hone ▸ tries_ask request).bind fun result => ?_
  refine tries_repairAndValidate.attempt.bind fun outcome => ?_
  rcases outcome with error | data
  · cases error with
    | schema error =>
      -- the second call is no try of its own
      refine (tries_tell _).bind fun _ => Tries.bind (tries_ask _) fun _ => ?_
      exact tries_repairAndValidate.bind fun _ => tries_pure _
    | _ => exact tries_throw _
  · exact tries_pure _

theorem tries_extractChunk {chunk : DocumentChunk} {plan : ChunkPlan} {requestId : Option String}
    (hfirst : request.validationRetryPrompt = none) :
    Tries 1 (extractChunk lib chunk plan request requestId) := by
  unfold extractChunk
  refine (tries_completeAndValidate hfirst).bind fun extracted => ?_
  obtain ⟨data, result⟩ := extracted
  dsimp only
  rcases data.get? plan.arrayLocation.propertyName with _ | rows
  · exact tries_throw _
  · cases rows with
    | arr rows => exact (tries_tell _).bind fun _ => tries_pure _
    | _ => exact tries_throw _

/-- A loop with turns to go makes one try at least, and no more than it has turns. -/
theorem talks_tryChunk {chunk : DocumentChunk} {plan : ChunkPlan} {requestId : Option String}
    (hfirst : request.validationRetryPrompt = none) (turns : Nat) (lastError : Option PyError) :
    (tryChunk lib chunk plan request requestId turns lastError).run.Talks fun calls _ =>
      min 1 turns ≤ tries (calls.map Prod.fst) ∧ tries (calls.map Prod.fst) ≤ turns := by
  induction turns generalizing lastError with
  | zero => exact ⟨Nat.le_refl 0, Nat.le_refl 0⟩
  | succ turns ih =>
    unfold tryChunk
    refine talks_bind (tries_extractChunk hfirst).attempt ?_ ?_
    · intro calls outcome hone
      -- whatever follows the first try makes no more tries than there are turns left
      have hrest {task : ChunkTask (ChunkOutcome × OpenRouterResult)}
          (h : task.run.Talks fun calls' _ => tries (calls'.map Prod.fst) ≤ turns) :
          task.run.Talks fun calls' _ => min 1 (turns + 1) ≤ tries ((calls ++ calls').map Prod.fst) ∧
            tries ((calls ++ calls').map Prod.fst) ≤ turns + 1 := by
        refine h.mono fun calls' _ hle => ?_
        rw [List.map_append, tries_append, hone]
        omega
      rcases outcome with error | extracted
      · by_cases he : error.isException
        · simp only [he, if_true]
          exact hrest ((ih (some error)).mono fun _ _ h => h.2)
        · simp only [he]
          exact hrest ((tries_throw error).mono fun _ _ h => h.le.trans (Nat.zero_le _))
      · exact hrest ((tries_pure extracted).mono fun _ _ h => h.le.trans (Nat.zero_le _))
    · intro calls e hone
      rw [hone]
      omega

/-- At the end of a chunk's task it has made one try or two. -/
def TriedTwiceAtMost (calls : List (OpenRouterRequest × Except PyError OpenRouterResult))
    (_ : Except PyError (ChunkOutcome × OpenRouterResult)) : Prop :=
  1 ≤ tries (calls.map Prod.fst) ∧ tries (calls.map Prod.fst) ≤ 2

/-- The task of a chunk holds a permit around all its calls. -/
theorem guarded_runChunk {ω : Type} (service : DocumentParsingService ω) (chunk : DocumentChunk)
    (plan : ChunkPlan) (request : ParseMultipartRequest) (resolved : ResolvedModelConfig)
    (chunkModel : String) (chunkModels : List String) (consumerId requestId : Option String) :
    (runChunk service chunk plan request resolved chunkModel chunkModels consumerId
      requestId).run.Guarded TriedTwiceAtMost := by
  refine guarded_withPermit ?_
  refine talks_bind (M := fun calls outcome => calls = [] ∧ outcome = .ok ()) ⟨rfl, rfl⟩ ?_ ?_
  · rintro _ _ ⟨rfl, -⟩
    exact talks_tryChunk rfl 2 none
  · rintro _ e ⟨-, h⟩
    cases h

end Tries
end ChunkTask

/-! ## All chunks at once -/

section Scheduling

variable {ω : Type} (service : DocumentParsingService ω)

/-- The tasks `_run_chunked_parse` gathers, one for every chunk. -/
def chunkTexts (plan : ChunkPlan) (request : ParseMultipartRequest) (resolved : ResolvedModelConfig)
    (consumerId requestId : Option String) : List ChunkText :=
  let (chunkModel, chunkModels) := chunkModels service.settings resolved
  plan.chunks.map fun chunk => (ChunkTask.runChunk service chunk plan request resolved chunkModel
    chunkModels consumerId requestId).run

/-- The chunks of a plan while they run. -/
abbrev ChunkGather :=
  Gather OpenRouterRequest (Except PyError OpenRouterResult) LogEvent
    (Except PyError (ChunkOutcome × OpenRouterResult))

/-- The chunks of a plan when `gather` starts them. -/
def gatherStart (plan : ChunkPlan) (request : ParseMultipartRequest)
    (resolved : ResolvedModelConfig) (consumerId requestId : Option String) : ChunkGather :=
  Gather.start (chunkTexts service plan request resolved consumerId requestId)

/-- What a call of a chunk may be answered, after the calls the chunk has made. -/
abbrev ChunkAnswers :=
  ℕ → List (OpenRouterRequest × Except PyError OpenRouterResult) → OpenRouterRequest →
    Set (Except PyError OpenRouterResult)

/-- What holds of the chunks at a moment of a run, with `limit` permits. -/
structure Disciplined (plan : ChunkPlan) (limit : ℕ) (answers : ChunkAnswers) (s : ChunkGather) :
    Prop where
  /-- Every chunk has its task. -/
  everyChunk : s.members.length = plan.chunks.length
  /-- No more chunks have a call under way than there are permits. -/
  bounded : s.inFlight.length ≤ limit
  /-- A chunk with a call under way holds a permit. -/
  permitted : ∀ i ∈ s.inFlight, i ∈ s.holders
  /-- A chunk that holds a permit keeps it until it gives it back for good. -/
  kept : ∀ i t u, i ∈ s.holders → Gather.Run limit answers s t → Gather.Run limit answers t u →
    i ∈ u.holders → i ∈ t.holders
  /-- A chunk that has returned or raised has given its permit back. -/
  returned : ∀ i m outcome, s.members[i]? = some m → m.now = .done outcome → i ∉ s.holders
  /-- No chunk is tried more than twice. -/
  atMostTwice : ∀ m ∈ s.members, ChunkTask.tries m.requests ≤ 2
  /-- A chunk that has returned or raised was tried. -/
  atLeastOnce : ∀ m ∈ s.members, ∀ outcome, m.now = .done outcome →
    1 ≤ ChunkTask.tries m.requests
  /-- Where every call is answered, a run goes on until every chunk has returned or
  raised. -/
  goesOn : (∀ i calls request, (answers i calls request).Nonempty) →
    (∀ s', ¬ Gather.Step limit answers s s') → s.Finished

/-- What `_run_chunked_parse` makes of the results of the chunks and of the summary. -/
structure Collected where
  outcomes : List ChunkOutcome
  mergedRows : List Json
  failed : List Nat
  usage : UsageSummary

/-- The results of the chunks, collected. -/
def collect (lib : Libraries) (plan : ChunkPlan) (chunkModel : String)
    (chunkResults : List (Except PyError (ChunkOutcome × OpenRouterResult)))
    (summary : Option (Json × OpenRouterResult)) : Collected :=
  let outcomes := (plan.chunks.zip chunkResults).map fun p => chunkOutcome p.1 p.2
  let results := chunkResults.filterMap chunkResult
  let results := results ++ (summary.map (·.2)).toList
  let (mergedRows, failed) := mergeChunkRows outcomes
  { outcomes := outcomes, mergedRows := mergedRows, failed := failed
    usage := aggregateUsage lib results chunkModel }

/-- `runChunkedParse` makes of its results what `collect` does. -/
theorem runChunkedParse_eq_collect (request : ParseMultipartRequest) (plan : ChunkPlan)
    (resolved : ResolvedModelConfig) (metadata : ParseMetadata)
    (consumerId requestId : Option String) :
    service.runChunkedParse request plan resolved metadata consumerId requestId = (do
      let (chunkModel, chunkModels) := chunkModels service.settings resolved
      logEvent (.chunkPlan plan.totalRows plan.chunks.length service.settings.chunkRowsPerChunk
        requestId)
      let chunkResults ← Program.captureEach
        (fun chunk => service.runChunk chunk plan request resolved chunkModel chunkModels
          consumerId requestId) plan.chunks
      let interruption ← callWorld service.gather
      raising interruption
      let summary ← service.runSummary plan request resolved chunkModel chunkModels consumerId
        requestId
      let collected := collect service.client.lib plan chunkModel chunkResults summary
      let assembled := assembleResult plan collected.mergedRows (summary.map (·.1))
      service.reportFailed plan collected.failed requestId
      let validated ← Program.ofExcept
        (JsonSchema.validateAgainstOriginal service.client.lib.jsonschema assembled
          request.schema.1)
      let validated ← Program.ofExcept (requireObject validated)
      let data := normalizeValues validated request.schema.1
      let checks ← runPostChecks service.client.lib data request.checks requestId
      let chunkingSummary : ChunkingSummary :=
        { chunked := true, totalRows := plan.totalRows, chunkCount := plan.chunks.length
          failedChunks := collected.failed, partialResult := !collected.failed.isEmpty
          model := chunkModel }
      return { data := data, metadata :=
        { metadata with usage := some collected.usage, checks := checks
                        chunking := some chunkingSummary } }) := rfl

variable {service} {plan : ChunkPlan} {request : ParseMultipartRequest}
  {resolved : ResolvedModelConfig} {consumerId requestId : Option String} {limit : ℕ}
  {answers : ChunkAnswers} {s : ChunkGather}

theorem sound_gatherStart :
    Gather.Sound ChunkTask.TriedTwiceAtMost
      (gatherStart service plan request resolved consumerId requestId) := by
  refine Gather.sound_start fun text htext => ?_
  obtain ⟨chunk, -, rfl⟩ := List.mem_map.mp htext
  exact ChunkTask.guarded_runChunk service chunk plan request resolved _ _ consumerId requestId

theorem permits_gatherStart :
    Gather.Permits limit (gatherStart service plan request resolved consumerId requestId) := by
  refine Gather.permits_start fun text htext => ?_
  obtain ⟨chunk, -, rfl⟩ := List.mem_map.mp htext
  rfl

/-- Every moment of every run of the chunks. -/
theorem disciplined_of_run (hlimit : 0 < limit)
    (hrun : Gather.Run limit answers
      (gatherStart service plan request resolved consumerId requestId) s) :
    Disciplined plan limit answers s := by
  have hsound := sound_gatherStart.run hrun
  have hpermits := permits_gatherStart.run sound_gatherStart hrun
  refine ⟨?_, hpermits.length_inFlight_le, fun i hi => hpermits.mem_of_inFlight hi, ?_, ?_, ?_, ?_,
    ?_⟩
  · rw [Gather.length_members_of_run hrun, gatherStart, Gather.start, chunkTexts]
    simp only [List.length_map]
  · intro i t u his hst htu hiu
    exact hpermits.held_between hsound hst htu his hiu
  · intro i m outcome hm hdone
    exact hpermits.not_mem_of_done hm hdone
  · intro m hm
    obtain ⟨i, hm⟩ := List.mem_iff_getElem?.mp hm
    have : Nonempty (Except PyError OpenRouterResult) := ⟨.error (.other "TimeoutError")⟩
    obtain ⟨calls, outcome, hQ, hbegins⟩ := hsound.requests_begin hm
    exact (hbegins.sublist.countP_le).trans hQ.2
  · intro m hm outcome hdone
    obtain ⟨i, hm⟩ := List.mem_iff_getElem?.mp hm
    have hQ := hsound.of_done hm hdone
    have hrequests : m.requests = m.calls.map Prod.fst := by
      simp [Gather.Member.requests, hdone, Coroutine.pending]
    rw [hrequests]
    exact hQ.1
  · intro hanswers hstuck
    exact hpermits.finished_of_stuck hlimit hanswers hstuck

/-- An outcome a chunk has when it runs alone, in some state. -/
def AnsweredAlone (service : DocumentParsingService ω) (plan : ChunkPlan)
    (request : ParseMultipartRequest) (resolved : ResolvedModelConfig)
    (consumerId requestId : Option String) (chunk : DocumentChunk)
    (outcome : Except PyError (ChunkOutcome × OpenRouterResult)) : Prop :=
  ∃ w, ((ChunkTask.runChunk service chunk plan request resolved
    (chunkModels service.settings resolved).1 (chunkModels service.settings resolved).2
    consumerId requestId).run.perform (ChunkTask.answered service.client) ChunkTask.logged w).1 =
      outcome

/-- The chunks one after another, as `runChunkedParse` runs them, are one of the runs
of `gather`: what they return is what they return in some run. -/
theorem captureEach_runChunk_of_some_run (hlimit : 0 < limit)
    (hacquire : ∀ w, (service.acquire w).1 = none) (s : Session ω) :
    (Program.captureEach (fun chunk => service.runChunk chunk plan request resolved
        (chunkModels service.settings resolved).1 (chunkModels service.settings resolved).2
        consumerId requestId) plan.chunks).Triple s
      (fun results _ => ∃ g, Gather.Run limit (fun _ _ _ => Set.univ)
        (gatherStart service plan request resolved consumerId requestId) g ∧ g.Finished ∧
          g.results = results)
      (fun _ _ => False) := by
  have halone (chunk : DocumentChunk) (t : Session ω) :
      AnsweredAlone service plan request resolved consumerId requestId chunk
        ((service.runChunk chunk plan request resolved (chunkModels service.settings resolved).1
          (chunkModels service.settings resolved).2 consumerId requestId).outcome t).1 :=
    ⟨_, congrArg Prod.fst (ChunkTask.outcome_runChunk service hacquire chunk plan request resolved
      _ _ consumerId requestId t).symm⟩
  refine (Program.Triple.captureEach_forall₂ halone plan.chunks s).mono (fun results _ h => ?_)
    fun _ _ h => h
  refine Gather.exists_run_of_alone (Q := ChunkTask.TriedTwiceAtMost)
    (ChunkTask.answered service.client) ChunkTask.logged hlimit ?_
  refine List.forall₂_map_left_iff.mpr (h.imp fun chunk outcome hw => ?_)
  exact ⟨ChunkTask.guarded_runChunk service chunk plan request resolved _ _ consumerId requestId,
    rfl, hw⟩

/-- **Chunk scheduling is bounded and independent of the order of steps.**  For
every plan and every setting of the limit, every run of the chunks keeps its
discipline at every moment; no run is infinite; and if each chunk's answers
depend on its own calls only, the outcomes, the merged rows, the failed chunks
and the usage at the end are the same for every run. -/
theorem chunks_bounded_and_order_independent (service : DocumentParsingService ω)
    (plan : ChunkPlan) (request : ParseMultipartRequest) (resolved : ResolvedModelConfig)
    (consumerId requestId : Option String) :
    (∀ answers s, Gather.Run service.settings.chunkMaxConcurrency answers
        (gatherStart service plan request resolved consumerId requestId) s →
      Disciplined plan service.settings.chunkMaxConcurrency answers s) ∧
    (∀ answers, WellFounded fun s' s : ChunkGather =>
      Gather.Step service.settings.chunkMaxConcurrency answers s s') ∧
    ∀ answer summary s t,
      Gather.Run service.settings.chunkMaxConcurrency (Gather.own answer)
        (gatherStart service plan request resolved consumerId requestId) s → s.Finished →
      Gather.Run service.settings.chunkMaxConcurrency (Gather.own answer)
        (gatherStart service plan request resolved consumerId requestId) t → t.Finished →
      collect service.client.lib plan (chunkModels service.settings resolved).1 s.results summary =
        collect service.client.lib plan (chunkModels service.settings resolved).1 t.results
          summary := by
  refine ⟨?_, fun answers => Gather.wellFounded_step, ?_⟩
  · intro answers s hrun
    exact disciplined_of_run service.settings.chunkMaxConcurrency_pos hrun
  · intro answer summary s t hs hsdone ht htdone
    rw [Gather.results_eq hs hsdone, Gather.results_eq ht htdone]

end Scheduling

/-! ## Two orders -/

/-- A model that writes a list where it was asked for an object, or the object. -/
def listOrRows : String → Option Json
  | "list" => some (.arr [])
  | "rows" => some (.obj [("rows", .arr [ledgerRow.1])])
  | _ => none

/-- The first chunk is answered with a list and then as it asked; the second is
never answered in time. -/
def unevenAnswers (i : ℕ) (calls : List (OpenRouterRequest × Except PyError OpenRouterResult))
    (_ : OpenRouterRequest) : Except PyError OpenRouterResult :=
  if i = 0 then
    .ok { content := if calls = [] then "list" else "rows", model := "default", provider := none
          promptTokens := 7, completionTokens := 3, totalTokens := 10, costUsd := none }
  else .error (.other "TimeoutError")

/-- The two chunks of a small ledger, moved on in the given order. -/
def twoChunks (order : List ℕ) : Option ChunkGather :=
  Gather.schedule CoreSettings.plain.chunkMaxConcurrency unevenAnswers order
    (gatherStart (sampleService listOrRows) ledgerPlan plainParse
      (resolveRequestOverrides .plain {}) none none)

/-- One chunk after the other. -/
def inTurn : List ℕ := List.replicate 10 0 ++ List.replicate 6 1

/-- Both chunks by turns, and the rest of the first. -/
def byTurns : List ℕ := (List.replicate 6 [0, 1]).flatten ++ List.replicate 4 0

/-- The theorem on these two runs: they log in different orders, and what is
collected is the same. -/
theorem two_orders_collected :
    ∃ s t, twoChunks inTurn = some s ∧ twoChunks byTurns = some t ∧ s.log ≠ t.log ∧
      collect (plainLibraries listOrRows) ledgerPlan "default" s.results none =
        collect (plainLibraries listOrRows) ledgerPlan "default" t.results none := by
  have hlogs : (twoChunks inTurn).map (·.log) ≠ (twoChunks byTurns).map (·.log) := by
    decide +kernel
  have hinTurn : (twoChunks inTurn).any (·.allDone) = true := by decide +kernel
  have hbyTurns : (twoChunks byTurns).any (·.allDone) = true := by decide +kernel
  obtain ⟨s, hs, hsdone⟩ := (Option.any_eq_true _ _).mp hinTurn
  obtain ⟨t, ht, htdone⟩ := (Option.any_eq_true _ _).mp hbyTurns
  refine ⟨s, t, hs, ht, fun h => hlogs (by rw [hs, ht, Option.map_some, Option.map_some, h]), ?_⟩
  exact (chunks_bounded_and_order_independent (sampleService listOrRows) ledgerPlan plainParse
    (resolveRequestOverrides .plain {}) none none).2.2 unevenAnswers none s t
    (Gather.run_of_schedule hs) (Gather.finished_of_allDone hsdone)
    (Gather.run_of_schedule ht) (Gather.finished_of_allDone htdone)

end InternumCore
