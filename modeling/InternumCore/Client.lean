import InternumCore.Settings
import InternumCore.Session
import InternumCore.Streaming

/-!
# The OpenRouter client

`complete` asks for one completion under a total time budget: first with a native
response format, and, if the provider rejects that, once more with the schema in
the prompt.  Each of the two phases is the retry loop `postPayload`, whose
attempts are cut off by what remains of the budget.

`Upstream` is everything the client calls out to.  The payload of a request is a
function of the request and the mode, so the upstream is given these.
-/

namespace InternumCore

/-- The clock, the random numbers and the provider. -/
structure Upstream (ω : Type) where
  /-- `time.monotonic()`. -/
  monotonic : ω → ℚ × ω
  /-- `random.uniform(0, high)`. -/
  uniform : ℚ → ω → ℚ × ω
  /-- `asyncio.sleep`; a cancellation may end it. -/
  sleep : ℚ → ω → Option Interruption × ω
  /-- One request under `asyncio.wait_for` with the given timeout. -/
  exchange : OpenRouterRequest → StructuredMode → ℚ → ω → Except Interruption Response × ω

/-- `OpenRouterClient`. -/
structure OpenRouterClient (ω : Type) where
  settings : CoreSettings
  maxRetries : Nat := 2
  backoffSeconds : ℚ := 1 / 4
  lib : Libraries
  upstream : Upstream ω

/-- `RETRYABLE_STATUS_CODES`. -/
def retryableStatusCodes : List Nat := [408, 409, 425, 429, 500, 502, 503, 504]

/-! ## Reading a response -/

/-- `_map_error_response`. -/
def mapErrorResponse (body : Option Json) : UpstreamError :=
  match body.bind (·.get? "error") with
  | some (.obj error) =>
    match error.lookup "message" with
    | some (.str message) => { message := message }
    | _ => { message := "OpenRouter request failed" }
  | _ => { message := "OpenRouter request failed" }

/-- `piece in text`. -/
def containsText (text piece : String) : Bool :=
  text.toList.tails.any (piece.toList.isPrefixOf ·)

/-- `message.lower()`: no other character lowers into one of the markers. -/
def lowerAscii (text : String) : String := String.ofList (text.toList.map Char.toLower)

/-- `_is_native_schema_rejection`. -/
def isNativeSchemaRejection (error : UpstreamError) : Bool :=
  ["schema", "response_format", "structured", "require_parameters", "unsupported"].any
    (containsText (lowerAscii error.message))

/-- `_int_usage`: a boolean is an integer. -/
def intUsage : Option Json → Int
  | some (.int n) => n
  | some (.bool true) => 1
  | _ => 0

/-- `_decimal_usage_cost`. -/
def decimalUsageCost (lib : Libraries) : Option Json → Except PyError (Option ℚ)
  | none => .ok none
  | some .null => .ok none
  | some value =>
    match lib.str value with
    | .error .recursion => .error (reprErrorOf .recursion)
    | .error .digits =>
      .error (.upstream { message := "OpenRouter response usage cost was malformed" })
    | .ok text =>
      match lib.decimal text with
      | some cost => .ok (some cost)
      | none => .error (.upstream { message := "OpenRouter response usage cost was malformed" })

/-- `_run_attempt`, once the provider's reply is known. -/
def runAttempt (lib : Libraries) (request : OpenRouterRequest) (attemptNumber : Int)
    (reply : Except Interruption Response) : Except PyError OpenRouterResult :=
  match reply with
  | .error interruption => .error interruption.toError
  | .ok response =>
    if 400 ≤ response.statusCode then
      match response.interruption with
      | some interruption => .error interruption.toError
      | none => .error (.mappedStatus (mapErrorResponse response.body) response.statusCode)
    else
      match consumeCompletionStream lib response with
      | .error error => .error error
      | .ok assembly =>
        let usage := assembly.usage.getD []
        match decimalUsageCost lib (usage.lookup "cost") with
        | .error error => .error error
        | .ok cost =>
          .ok
            { content := assembly.content
              model := match assembly.model with
                | some model => if model = "" then request.model else model
                | none => request.model
              provider := assembly.provider
              promptTokens := intUsage (usage.lookup "prompt_tokens")
              completionTokens := intUsage (usage.lookup "completion_tokens")
              totalTokens := intUsage (usage.lookup "total_tokens")
              costUsd := cost
              attempt := attemptNumber }

/-- The record `_record_usage` writes. -/
def usageRecord (result : OpenRouterResult) (request : OpenRouterRequest) : UsageRecord where
  provider := "openrouter"
  model := result.model
  promptTokens := result.promptTokens
  completionTokens := result.completionTokens
  totalTokens := result.totalTokens
  costUsd := result.costUsd
  capability := request.capability
  consumerId := request.consumerId
  requestId := request.requestId

/-- `effective_attempt_timeout`. -/
def effectiveAttemptTimeout (remaining cap : ℚ) : ℚ := min cap remaining

namespace OpenRouterClient

variable {ω : Type} (client : OpenRouterClient ω)

/-- `remaining_budget`. -/
def remainingBudget (deadline : ℚ) : Method ω ℚ := do
  let now ← callWorld client.upstream.monotonic
  return deadline - now

/-- `backoff_with_jitter`. -/
def backoffWithJitter (base : ℚ) (offset : Nat) (remaining : ℚ) : Method ω (Option ℚ) :=
  let nominal := base * 2 ^ offset
  if remaining ≤ nominal then return none
  else do
    let backoff ← callWorld (client.upstream.uniform nominal)
    return some backoff

/-- `asyncio.sleep(backoff)`. -/
def sleep (backoff : ℚ) : Method ω Unit := do
  match ← callWorld (client.upstream.sleep backoff) with
  | some interruption => throw interruption.toError
  | none => return ()

/-- `_record_usage`. -/
def recordResult (result : OpenRouterResult) (request : OpenRouterRequest) : Method ω Unit := do
  recordUsage (usageRecord result request)
  logEvent (.usageRecorded (usageRecord result request))

/-- `_log_failed_response`. -/
def logFailedResponse (request : OpenRouterRequest) (attempt : Int) (mode : StructuredMode)
    (statusCode : Option Nat) : Method ω Unit :=
  logEvent (.modelFailed "upstream_error" attempt mode request.model statusCode request.requestId)

/-- `asyncio.wait_for(self._run_attempt(..), timeout)`, entered into the history. -/
def exchange (request : OpenRouterRequest) (mode : StructuredMode) (attemptNumber : Int)
    (attemptTimeout : ℚ) : Method ω OpenRouterResult := do
  let outcome ← Program.step fun s =>
    let reply := client.upstream.exchange request mode attemptTimeout s.world
    let outcome := runAttempt client.lib request attemptNumber reply.1
    (outcome, { s with
      world := reply.2
      attempts := s.attempts ++ [⟨request, mode, attemptNumber, attemptTimeout, s.world, outcome⟩] })
  Program.ofExcept outcome

/-- `_attempt`. -/
def attempt (request : OpenRouterRequest) (mode : StructuredMode) (attemptNumber : Int)
    (attemptTimeout : ℚ) : Method ω OpenRouterResult := do
  match ← Program.capture (client.exchange request mode attemptNumber attemptTimeout) with
  | .ok result => return result
  | .error .timeout => do
    logFailedResponse request attemptNumber mode none
    throw (.retryableAttempt
      ⟨"OpenRouter attempt exceeded its time budget", some attemptNumber⟩ "deadline_exceeded" none)
  | .error (.request _) => do
    logFailedResponse request attemptNumber mode none
    throw (.retryableAttempt ⟨"OpenRouter request failed", some attemptNumber⟩ "network_error" none)
  | .error (.mappedStatus error statusCode) => do
    let error := { error with attempt := some attemptNumber }
    logFailedResponse request attemptNumber mode (some statusCode)
    if statusCode ∈ retryableStatusCodes then
      throw (.retryableAttempt error "retryable_status" (some statusCode))
    else throw (.upstream error)
  | .error (.upstream error) => do
    logFailedResponse request attemptNumber mode none
    throw (.upstream { error with attempt := some attemptNumber })
  | .error error => throw error

/-- `_post_payload`, from one turn of its loop on. -/
def postPayload (request : OpenRouterRequest) (mode : StructuredMode) (startAttempt : Int)
    (deadline : ℚ) (retryOffset : Nat) (lastError : Option UpstreamError) :
    Method ω OpenRouterResult := do
  let attemptNumber := startAttempt + retryOffset
  let remaining ← client.remainingBudget deadline
  if remaining ≤ 0 then
    throw (.upstream (lastError.getD
      ⟨"OpenRouter request exceeded its total time budget", some attemptNumber⟩))
  else
    let attemptTimeout :=
      effectiveAttemptTimeout remaining client.settings.requestAttemptTimeoutSeconds
    logEvent (.modelRequest request.model mode attemptNumber request.requestId)
    match ← Program.capture (client.attempt request mode attemptNumber attemptTimeout) with
    | .error (.retryableAttempt error reason statusCode) =>
      -- `except _RetryableAttemptError`: any other error ends the loop
      let remaining ← client.remainingBudget deadline
      if _hretry : retryOffset < client.maxRetries then
        match ← client.backoffWithJitter client.backoffSeconds retryOffset remaining with
        | none => throw (.upstream error)
        | some backoff =>
          logEvent (.modelRetry reason (attemptNumber + 1) statusCode (some request.model)
            request.requestId)
          client.sleep backoff
          postPayload request mode startAttempt deadline (retryOffset + 1) (some error)
      else throw (.upstream error)
    | .error error => throw error
    | .ok result =>
      recordResult result request
      logEvent (.modelSucceeded attemptNumber mode result.model result.provider result.promptTokens
        result.completionTokens result.totalTokens result.costUsd request.requestId)
      return result
termination_by client.maxRetries - retryOffset

/-- `exc.attempt or start_attempt`. -/
def attemptOr (error : UpstreamError) (startAttempt : Int) : Int :=
  match error.attempt with
  | some attempt => if attempt = 0 then startAttempt else attempt
  | none => startAttempt

/-- `complete`. -/
def complete (request : OpenRouterRequest) : Method ω OpenRouterResult := do
  let now ← callWorld client.upstream.monotonic
  let deadline := now + client.settings.requestTotalTimeoutSeconds
  let startAttempt := max 1 request.attempt
  match ← Program.capture (client.postPayload request .native startAttempt deadline 0 none) with
  | .ok result => return result
  | .error (.upstream error) =>
    if isNativeSchemaRejection error then
      let fallbackAttempt := attemptOr error startAttempt + 1
      logEvent (.modelRetry "native_schema_rejection" fallbackAttempt none (some request.model)
        request.requestId)
      client.postPayload request .fallback fallbackAttempt deadline 0 none
    else throw (.upstream error)
  | .error error => throw error

end OpenRouterClient
end InternumCore
