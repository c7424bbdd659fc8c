import InternumCore.CheckReadings
import InternumCore.DocumentDetection
import InternumCore.Extraction

/-!
# What a parse leaves in the name of its request

Usage is recorded under the consumer and the request it was used for, an event that
names a request names the one it belongs to, and a document that is refused is reported
refused.  `runParse_reported` has all three for a whole run: a rejection is logged exactly
where an `IntakeError` leaves, once and with its code.

Behind the intake no refusal is logged or raised (`Attributed` and `NoIntake`); the
intake logs the one that leaves it, and marks it (`EndsReported`).  One way out is neither:
the refusal was logged, and then closing the upload raised.
-/

namespace InternumCore
open Chunking
open Program (Confines Raises)

/-- The codes of the rejections in a log. -/
def rejections (log : List LogEvent) : List String :=
  log.filterMap fun
    | .intakeRejected code _ => some code
    | _ => none

/-- The `requestId` among the fields of an event. -/
def LogEvent.requestId : LogEvent → Option String
  | .modelRequest _ _ _ requestId => requestId
  | .modelRetry _ _ _ _ requestId => requestId
  | .modelSucceeded _ _ _ _ _ _ _ _ requestId => requestId
  | .modelFailed _ _ _ _ _ requestId => requestId
  | .usageRecorded record => record.requestId
  | .schemaPostcheck _ _ _ requestId => requestId
  | .chunkPlan _ _ _ requestId => requestId
  | .chunkRequest _ requestId => requestId
  | .chunkSucceeded _ _ requestId => requestId
  | .chunkFailed _ requestId => requestId
  | .chunkPartial _ requestId => requestId
  | .schemaValidation .. | .schemaValues _ | .intakeStored .. | .intakeRejected .. => none

/-- The events of a run: these rejections are among them, and none names another
request. -/
def Logs {ω : Type} (requestId : Option String) (rejected : List String) (s s' : Session ω) :
    Prop :=
  ∃ new, s'.log = s.log ++ new ∧ rejections new = rejected ∧
    ∀ event ∈ new, event.requestId = none ∨ event.requestId = requestId

/-- The usage of a run is on record under these names. -/
def ChargedTo {ω : Type} (consumerId requestId : Option String) (s s' : Session ω) : Prop :=
  ∃ new, s'.records = s.records ++ new ∧
    ∀ record ∈ new, record.consumerId = consumerId ∧ record.requestId = requestId

/-- A run that logged no rejection, in these names. -/
structure Attributed {ω : Type} (consumerId requestId : Option String) (s s' : Session ω) :
    Prop where
  logged : Logs requestId [] s s'
  charged : ChargedTo consumerId requestId s s'

/-- No refusal of a document. -/
def NoIntake (error : PyError) : Prop := ∀ e, error ≠ .intake e

/-- The rejection that an error stands for. -/
def PyError.rejection : PyError → List String
  | .intake error => [error.code]
  | _ => []

/-- A run in these names that ends with an error; if that is a refusal, it is logged and
marked. -/
structure EndsReported {ω : Type} (consumerId requestId : Option String) (s s' : Session ω)
    (error : PyError) : Prop where
  logged : Logs requestId error.rejection s s'
  marked : ∀ e, error = .intake e → e.intakeEventLogged = true
  charged : ChargedTo consumerId requestId s s'

/-- A run in these names that was broken off; a rejection may have been logged. -/
structure Interrupted {ω : Type} (consumerId requestId : Option String) (s s' : Session ω) :
    Prop where
  logged : ∃ rejected, rejected.length ≤ 1 ∧ Logs requestId rejected s s'
  charged : ChargedTo consumerId requestId s s'

section Attributed

variable {ω α : Type} {consumerId requestId : Option String}

theorem Logs.of_eq {s s' : Session ω} (h : s'.log = s.log) : Logs requestId [] s s' :=
  ⟨[], by rw [h, List.append_nil], rfl, by simp⟩

theorem Logs.trans {rejected rejected' : List String} {s s' s'' : Session ω}
    (h : Logs requestId rejected s s') (h' : Logs requestId rejected' s' s'') :
    Logs requestId (rejected ++ rejected') s s'' := by
  obtain ⟨new, hnew, hrejected, hnamed⟩ := h
  obtain ⟨new', hnew', hrejected', hnamed'⟩ := h'
  refine ⟨new ++ new', by rw [hnew', hnew, List.append_assoc], ?_, fun event he => ?_⟩
  · rw [rejections, List.filterMap_append, ← rejections, ← rejections, hrejected, hrejected']
  · exact (List.mem_append.mp he).elim (hnamed event) (hnamed' event)

theorem ChargedTo.of_eq {s s' : Session ω} (h : s'.records = s.records) :
    ChargedTo consumerId requestId s s' := ⟨[], by rw [h, List.append_nil], by simp⟩

theorem ChargedTo.trans {s s' s'' : Session ω} (h : ChargedTo consumerId requestId s s')
    (h' : ChargedTo consumerId requestId s' s'') : ChargedTo consumerId requestId s s'' := by
  obtain ⟨new, hnew, hnamed⟩ := h
  obtain ⟨new', hnew', hnamed'⟩ := h'
  refine ⟨new ++ new', by rw [hnew', hnew, List.append_assoc], fun record hr => ?_⟩
  exact (List.mem_append.mp hr).elim (hnamed record) (hnamed' record)

/-- A step that touches neither the log nor the records. -/
theorem attributed_of_eq {s s' : Session ω} (hlog : s'.log = s.log)
    (hrecords : s'.records = s.records) : Attributed consumerId requestId s s' :=
  ⟨.of_eq hlog, .of_eq hrecords⟩

theorem Attributed.refl (s : Session ω) : Attributed consumerId requestId s s :=
  attributed_of_eq rfl rfl

theorem Attributed.trans {s s' s'' : Session ω} (h : Attributed consumerId requestId s s')
    (h' : Attributed consumerId requestId s' s'') : Attributed consumerId requestId s s'' :=
  ⟨h.logged.trans h'.logged, h.charged.trans h'.charged⟩

/-- What follows is reported as it was. -/
theorem Attributed.reported {s s' s'' : Session ω} {error : PyError}
    (h : Attributed consumerId requestId s s')
    (h' : EndsReported consumerId requestId s' s'' error) :
    EndsReported consumerId requestId s s'' error :=
  ⟨h.logged.trans h'.logged, h'.marked, h.charged.trans h'.charged⟩

/-- What is no refusal needs no report. -/
theorem NoIntake.reported {s s' : Session ω} {error : PyError} (he : NoIntake error)
    (h : Attributed consumerId requestId s s') : EndsReported consumerId requestId s s' error := by
  refine ⟨?_, fun e h' => absurd h' (he e), h.charged⟩
  cases error with
  | intake e => exact absurd rfl (he e)
  | _ => exact h.logged

theorem Attributed.interrupted {s s' : Session ω} (h : Attributed consumerId requestId s s') :
    Interrupted consumerId requestId s s' := ⟨⟨[], Nat.zero_le 1, h.logged⟩, h.charged⟩

theorem EndsReported.interrupted {s s' : Session ω} {error : PyError}
    (h : EndsReported consumerId requestId s s' error) : Interrupted consumerId requestId s s' := by
  refine ⟨⟨error.rejection, ?_, h.logged⟩, h.charged⟩
  cases error <;> simp [PyError.rejection]

theorem Interrupted.trans {s s' s'' : Session ω} (h : Interrupted consumerId requestId s s')
    (h' : Attributed consumerId requestId s' s'') : Interrupted consumerId requestId s s'' := by
  obtain ⟨rejected, hlength, hlogged⟩ := h.logged
  refine ⟨⟨rejected, hlength, ?_⟩, h.charged.trans h'.charged⟩
  rw [← List.append_nil rejected]
  exact hlogged.trans h'.logged

instance : Std.Refl (Attributed (ω := ω) consumerId requestId) := ⟨Attributed.refl⟩

instance : IsTrans (Session ω) (Attributed consumerId requestId) := ⟨fun _ _ _ h h' => h.trans h'⟩

theorem noIntake_interruption (interruption : Interruption) : NoIntake interruption.toError := by
  cases interruption <;> exact fun _ h => by cases h

theorem noIntake_loadsError (error : LoadsError) : NoIntake error.toError := by
  cases error <;> exact fun _ h => by cases h

variable {P : PyError → Prop}

theorem callWorld_attributed (f : ω → α × ω) :
    Confines (Attributed consumerId requestId) P (callWorld f) :=
  .step fun _ => attributed_of_eq rfl rfl

/-- Any event of the request but a rejection. -/
theorem logEvent_attributed {event : LogEvent}
    (hnamed : event.requestId = none ∨ event.requestId = requestId)
    (h : rejections [event] = []) :
    Confines (Attributed consumerId requestId) P (logEvent event : Method ω Unit) := by
  refine .step fun s => ⟨⟨[event], rfl, h, fun e he => ?_⟩, .of_eq rfl⟩
  rw [List.mem_singleton.mp he]
  exact hnamed

theorem raising_attributed (error : Option Interruption) :
    Confines (Attributed consumerId requestId) NoIntake (raising error : Method ω Unit) := by
  cases error with
  | none => exact .pure ()
  | some interruption => exact .throw (noIntake_interruption interruption)

end Attributed

/-! ## The client -/

section Client

variable {ω : Type} {client : OpenRouterClient ω} {request : OpenRouterRequest}
  {mode : StructuredMode}

/-- The names of a request. -/
abbrev OpenRouterRequest.Attributed (request : OpenRouterRequest) (s s' : Session ω) : Prop :=
  InternumCore.Attributed request.consumerId request.requestId s s'

theorem consumeCompletionStream_raises (lib : Libraries) (response : Response) :
    Raises NoIntake (consumeCompletionStream lib response) := by
  unfold consumeCompletionStream
  split
  · exact .ok _
  · exact .error fun _ h => by cases h
  · exact .error (noIntake_loadsError _)
  · split
    · exact .error (noIntake_interruption _)
    · exact .ok _

theorem decimalUsageCost_raises (lib : Libraries) (value : Option Json) :
    Raises NoIntake (decimalUsageCost lib value) := by
  unfold decimalUsageCost
  split
  · exact .ok none
  · exact .ok none
  · split
    · exact .error fun _ h => by cases h
    · exact .error fun _ h => by cases h
    · split
      · exact .ok _
      · exact .error fun _ h => by cases h

theorem runAttempt_raises (lib : Libraries) (attemptNumber : Int)
    (reply : Except Interruption Response) :
    Raises NoIntake (runAttempt lib request attemptNumber reply) := by
  cases reply with
  | error interruption => exact .error (noIntake_interruption interruption)
  | ok response =>
    unfold runAttempt
    dsimp only
    split
    · split
      · exact .error (noIntake_interruption _)
      · exact .error fun _ h => by cases h
    · cases hstream : consumeCompletionStream lib response with
      | error e => exact .error (consumeCompletionStream_raises lib response e hstream)
      | ok assembly =>
        dsimp only
        cases hcost : decimalUsageCost lib ((assembly.usage.getD []).lookup "cost") with
        | error e => exact .error (decimalUsageCost_raises lib _ e hcost)
        | ok cost => exact .ok _

theorem exchange_attributed (attemptNumber : Int) (attemptTimeout : ℚ) :
    Confines (request.Attributed) NoIntake
      (client.exchange request mode attemptNumber attemptTimeout) := by
  intro s
  refine Program.Triple.bind (M := fun outcome s' => request.Attributed s s' ∧
    Raises NoIntake outcome) ?_ fun outcome s' h => ?_
  · exact .step ⟨attributed_of_eq rfl rfl, runAttempt_raises client.lib attemptNumber _⟩
  · exact .ofExcept (fun _ _ => h.1) fun e he => ⟨h.1, h.2 e he⟩

theorem attempt_attributed (attemptNumber : Int) (attemptTimeout : ℚ) :
    Confines (request.Attributed) NoIntake
      (client.attempt request mode attemptNumber attemptTimeout) := by
  refine .capture_bind (exchange_attributed attemptNumber attemptTimeout) fun outcome ho => ?_
  cases outcome with
  | ok result => exact .pure result
  | error e =>
    cases e with
    | timeout =>
      exact .bind (logEvent_attributed (Or.inr rfl) rfl) fun _ => .throw fun _ h => by cases h
    | request text =>
      exact .bind (logEvent_attributed (Or.inr rfl) rfl) fun _ => .throw fun _ h => by cases h
    | upstream error =>
      exact .bind (logEvent_attributed (Or.inr rfl) rfl) fun _ => .throw fun _ h => by cases h
    | mappedStatus error status =>
      refine .bind (logEvent_attributed (Or.inr rfl) rfl) fun _ => ?_
      split <;> exact .throw fun _ h => by cases h
    | _ => exact .throw (ho _ rfl)

theorem remainingBudget_attributed (deadline : ℚ) :
    Confines (request.Attributed) NoIntake (client.remainingBudget deadline) :=
  .bind (callWorld_attributed _) fun _ => .pure _

theorem backoffWithJitter_attributed (base : ℚ) (offset : Nat) (remaining : ℚ) :
    Confines (request.Attributed) NoIntake (client.backoffWithJitter base offset remaining) := by
  unfold OpenRouterClient.backoffWithJitter
  dsimp only
  split
  · exact .pure none
  · exact .bind (callWorld_attributed _) fun _ => .pure _

theorem sleep_attributed (backoff : ℚ) :
    Confines (request.Attributed) NoIntake (client.sleep backoff) := by
  refine .bind (callWorld_attributed _) fun interruption => ?_
  cases interruption with
  | none => exact .pure ()
  | some interruption => exact .throw (noIntake_interruption interruption)

/-- A completion goes on record under the names of its request. -/
theorem recordResult_attributed (result : OpenRouterResult) :
    Confines (request.Attributed) NoIntake
      (OpenRouterClient.recordResult result request : Method ω Unit) := by
  refine .bind (.step fun s => ⟨.of_eq rfl, [usageRecord result request], rfl, ?_⟩) fun _ => ?_
  · intro record hr
    rw [List.mem_singleton.mp hr]
    exact ⟨rfl, rfl⟩
  · exact logEvent_attributed (Or.inr rfl) rfl

/-- The retry loop, by induction on the retries that are left. -/
theorem postPayload_attributed (startAttempt : Int) (deadline : ℚ) (retryOffset : Nat)
    (lastError : Option UpstreamError) :
    Confines (request.Attributed) NoIntake
      (client.postPayload request mode startAttempt deadline retryOffset lastError) := by
  induction hk : client.maxRetries - retryOffset using Nat.strong_induction_on
    generalizing retryOffset lastError with
  | _ k ih =>
  rw [OpenRouterClient.postPayload]
  refine .bind (remainingBudget_attributed deadline) fun remaining => ?_
  split
  · exact .throw fun _ h => by cases h
  refine .bind (logEvent_attributed (Or.inr rfl) rfl) fun _ => ?_
  refine .capture_bind (attempt_attributed _ _) fun outcome ho => ?_
  cases outcome with
  | ok result =>
    refine .bind (recordResult_attributed result) fun _ => ?_
    refine .bind (logEvent_attributed (Or.inr rfl) rfl) fun _ => ?_
    exact .pure result
  | error e =>
    cases e with
    -- only this one is caught by the loop, and it is no refusal
    | retryableAttempt error reason status =>
      refine .bind (remainingBudget_attributed deadline) fun remaining => ?_
      split
      · refine .bind (backoffWithJitter_attributed _ _ _) fun backoff => ?_
        cases backoff with
        | none => exact .throw fun _ h => by cases h
        | some backoff =>
          refine .bind (logEvent_attributed (Or.inr rfl) rfl) fun _ => ?_
          refine .bind (sleep_attributed backoff) fun _ => ?_
          exact ih _ (by omega) _ _ rfl
      · exact .throw fun _ h => by cases h
    | _ => exact .throw (ho _ rfl)

theorem complete_attributed :
    Confines (request.Attributed) NoIntake (client.complete request) := by
  refine .bind (callWorld_attributed _) fun now => ?_
  refine .capture_bind (postPayload_attributed _ _ _ _) fun outcome ho => ?_
  cases outcome with
  | ok result => exact .pure result
  | error e =>
    cases e with
    | upstream error =>
      dsimp only
      split
      · refine .bind (logEvent_attributed (Or.inr rfl) rfl) fun _ => ?_
        exact postPayload_attributed _ _ _ _
      · exact .throw fun _ h => by cases h
    | _ => exact .throw (ho _ rfl)

end Client

/-! ## Behind the intake -/

section Service

variable {ω : Type} {service : DocumentParsingService ω} {plan : ChunkPlan}
  {request : ParseMultipartRequest} {resolved : ResolvedModelConfig} {metadata : ParseMetadata}
  {chunkModel : String} {chunkModels : List String} {consumerId requestId : Option String}

theorem requireObject_raises (validated : Json) : Raises NoIntake (requireObject validated) := by
  unfold requireObject
  split
  · exact .ok _
  · exact .error fun _ h => by cases h

theorem validateAgainstOriginal_raises (lib : JsonSchema.Library) (output schema : Json) :
    Raises NoIntake (JsonSchema.validateAgainstOriginal lib output schema) := by
  unfold JsonSchema.validateAgainstOriginal
  split
  · exact .error fun _ h => by cases h
  · split
    · exact .ok _
    · exact .error fun _ h => by cases h
    · exact .error fun _ h => by cases h

theorem validatedOutput_raises (lib : Libraries) (rawOutput : String) (schema : Json) :
    Raises NoIntake (validatedOutput lib rawOutput schema) := by
  have hrepair : Raises NoIntake (repairJsonOutput lib rawOutput) := by
    unfold repairJsonOutput
    split
    · exact .ok _
    · exact .error fun _ h => by cases h
  refine hrepair.bind fun repaired => ?_
  refine (validateAgainstOriginal_raises _ _ _).bind fun validated => ?_
  exact requireObject_raises validated

theorem repairAndValidate_attributed (lib : Libraries) (rawOutput : String) (schema : Json)
    (validationRetryTriggered failureTriggersRetry : Bool) :
    Confines (Attributed consumerId requestId) NoIntake (repairAndValidate lib rawOutput schema
      validationRetryTriggered failureTriggersRetry : Method ω Json) := by
  unfold repairAndValidate
  cases hrepair : requiresJsonRepair lib rawOutput with
  | error e =>
    refine .throw ?_
    unfold requiresJsonRepair at hrepair
    split at hrepair
    · cases hrepair
    · cases hrepair
    · cases hrepair
      exact noIntake_loadsError _
  | ok repairApplied =>
    dsimp only
    cases houtput : validatedOutput lib rawOutput schema with
    | ok validated =>
      refine .bind (logEvent_attributed (Or.inl rfl) rfl) fun _ => ?_
      refine .bind (logEvent_attributed (Or.inl rfl) rfl) fun _ => ?_
      exact .pure validated
    | error e =>
      have he := validatedOutput_raises lib rawOutput schema e houtput
      cases e with
      | schema error => exact .bind (logEvent_attributed (Or.inl rfl) rfl) fun _ => .throw he
      | _ => exact .throw he

/-- A completion under the names it is given. -/
theorem complete_attributed_to {client : OpenRouterClient ω} {request : OpenRouterRequest}
    (hconsumer : request.consumerId = consumerId) (hrequest : request.requestId = requestId) :
    Confines (Attributed consumerId requestId) NoIntake (client.complete request) := by
  subst hconsumer hrequest
  exact complete_attributed

/-- Both calls of a validated completion carry the names of its request. -/
theorem completeAndValidate_attributed {client : OpenRouterClient ω} {request : OpenRouterRequest}
    {schema : Json} (hconsumer : request.consumerId = consumerId)
    (hrequest : request.requestId = requestId) :
    Confines (Attributed consumerId requestId) NoIntake
      (completeAndValidate client request schema) := by
  refine .bind (complete_attributed_to hconsumer hrequest) fun result => ?_
  refine .capture_bind (repairAndValidate_attributed _ _ _ _ _) fun outcome ho => ?_
  cases outcome with
  | ok data => exact .pure (data, result)
  | error e =>
    cases e with
    | schema error =>
      refine .bind (logEvent_attributed (Or.inl rfl) rfl) fun _ => ?_
      -- the second request is the first with a prompt and another attempt
      refine .bind (complete_attributed_to ?_ ?_) fun retryResult => ?_
      · exact hconsumer
      · exact hrequest
      refine .bind (repairAndValidate_attributed _ _ _ _ _) fun data => ?_
      exact .pure (data, retryResult)
    | _ => exact .throw (ho _ rfl)

/-- One turn of a chunk. -/
theorem extractChunk_attributed {chunk : DocumentChunk} {chunkRequest : OpenRouterRequest}
    (hconsumer : chunkRequest.consumerId = consumerId)
    (hrequest : chunkRequest.requestId = requestId) :
    Confines (Attributed consumerId requestId) NoIntake
      (service.extractChunk chunk plan chunkRequest requestId) := by
  refine .bind (completeAndValidate_attributed hconsumer hrequest) fun found => ?_
  obtain ⟨data, result⟩ := found
  dsimp only
  split
  · exact .bind (logEvent_attributed (Or.inr rfl) rfl) fun _ => .pure _
  · exact .throw fun _ h => by cases h
  · exact .throw fun _ h => by cases h

/-- The turns of a chunk, by induction on those to go. -/
theorem tryChunk_attributed {chunk : DocumentChunk} {chunkRequest : OpenRouterRequest}
    (hconsumer : chunkRequest.consumerId = consumerId)
    (hrequest : chunkRequest.requestId = requestId) (tries : Nat) (lastError : Option PyError)
    (hlast : ∀ e, lastError = some e → NoIntake e) :
    Confines (Attributed consumerId requestId) NoIntake
      (service.tryChunk chunk plan chunkRequest requestId tries lastError) := by
  induction tries generalizing lastError with
  | zero =>
    refine .bind (logEvent_attributed (Or.inr rfl) rfl) fun _ => .throw ?_
    cases lastError with
    | none => exact fun _ h => by cases h
    | some e => exact hlast e rfl
  | succ tries ih =>
    refine .capture_bind (extractChunk_attributed hconsumer hrequest) fun outcome ho => ?_
    cases outcome with
    | ok extracted => exact .pure extracted
    | error e =>
      -- the error of the last turn is what the chunk fails with
      dsimp only
      split
      · exact ih (some e) fun e' he => by cases he; exact ho e rfl
      · exact .throw (ho e rfl)

theorem runChunk_attributed (chunk : DocumentChunk) :
    Confines (Attributed consumerId requestId) NoIntake (service.runChunk chunk plan request
      resolved chunkModel chunkModels consumerId requestId) := by
  have hfirst : ∀ e, (none : Option PyError) = some e → NoIntake e := fun _ h => by cases h
  refine (callWorld_attributed _).bind fun interruption => ?_
  refine (raising_attributed interruption).bind fun _ => ?_
  refine (logEvent_attributed (Or.inr rfl) rfl).bind fun _ => ?_
  exact tryChunk_attributed rfl rfl 2 none hfirst

theorem runSummary_attributed :
    Confines (Attributed consumerId requestId) NoIntake (service.runSummary plan request resolved
      chunkModel chunkModels consumerId requestId) := by
  unfold DocumentParsingService.runSummary
  split
  · exact .pure none
  · refine (completeAndValidate_attributed rfl rfl).bind fun summary => ?_
    exact .pure (some summary)

theorem reportFailed_attributed (failed : List Nat) :
    Confines (Attributed consumerId requestId) NoIntake
      (service.reportFailed plan failed requestId) := by
  unfold DocumentParsingService.reportFailed
  split
  · exact .pure ()
  · refine .bind (logEvent_attributed (Or.inr rfl) rfl) fun _ => ?_
    split
    · exact .pure ()
    · exact .throw fun _ h => by cases h

/-! ### The checks -/

/-- A fault that is no refusal of a document. -/
def NoIntakeFault (fault : PointerFault) : Prop := ∀ e, fault = .raised e → NoIntake e

theorem noIntake_reprError (error : PyRepr.ReprError) : NoIntake (reprErrorOf error) := by
  cases error <;> exact fun _ h => by cases h

theorem shownFault_noIntake (text : String) (shown : Except PyRepr.ReprError String) :
    NoIntakeFault (shownFault text shown) := by
  intro error h
  cases shown with
  | ok shown => cases h
  | error e =>
    cases h
    exact noIntake_reprError e

theorem numeric_raises (lib : Libraries) (v : Json) : Raises NoIntakeFault (numeric lib v) := by
  unfold numeric
  split
  · split
    · exact .ok _
    · exact .error fun _ h => by cases h; exact fun _ h => by cases h
  · exact .ok _
  · exact .error (shownFault_noIntake _ _)

theorem resolvePointer_raises (lib : Libraries) (data pointer : Json) :
    Raises NoIntakeFault (resolvePointer lib data pointer) := by
  unfold resolvePointer
  split
  · split
    · exact .ok _
    · split
      · exact .error fun _ h => by cases h
      · intro fault h error heq
        subst heq
        exact absurd h resolveTokens_ne_raised
  · exact .error (shownFault_noIntake _ _)

theorem sumEquals_raises (lib : Libraries) (data : Json) (check : List (String × Json)) :
    Raises NoIntakeFault (sumEquals lib data check) := by
  have hread (pointer : Json) : Raises NoIntakeFault
      (do numeric lib (← resolvePointer lib data pointer)) :=
    .bind (resolvePointer_raises lib data pointer) fun v => numeric_raises lib v
  unfold sumEquals
  split
  · split
    · dsimp only
      split
      · exact .error fun _ h => by cases h
      · refine .bind (.mapM fun pointer _ => hread pointer) fun _ => ?_
        refine .bind (resolvePointer_raises lib data _) fun v => ?_
        refine .bind (numeric_raises lib v) fun _ => ?_
        exact .ok _
    · exact .error fun _ h => by cases h
  · exact .error fun _ h => by cases h

theorem evaluateSumEquals_raises (lib : Libraries) (data : Json) (check : List (String × Json))
    (index : Option Nat) : Raises NoIntake (evaluateSumEquals lib data check index) := by
  unfold evaluateSumEquals
  dsimp only
  split
  · exact .ok _
  · exact .ok _
  · next error h => exact .error (sumEquals_raises lib data check _ h _ rfl)

theorem mapError_noIntake (shown : Except PyRepr.ReprError String) :
    Raises NoIntake (shown.mapError reprErrorOf) := by
  cases shown with
  | ok shown => exact .ok shown
  | error e => exact .error (noIntake_reprError e)

theorem evaluateCheck_raises (lib : Libraries) (data check : Json) :
    Raises NoIntake (evaluateCheck lib data check) := by
  unfold evaluateCheck
  split
  · dsimp only
    split
    · refine .bind (mapError_noIntake _) fun _ => ?_
      refine .bind (mapError_noIntake _) fun _ => ?_
      exact .ok _
    · split
      · exact .bind (evaluateSumEquals_raises lib data _ none) fun _ => .ok _
      · exact .bind (evaluateSumEquals_raises lib data _ none) fun _ => .ok _
      · split
        · exact .mapM fun _ _ => evaluateSumEquals_raises lib _ _ _
        · exact .ok _
        · exact .ok _
        · next error h => exact .error (resolvePointer_raises lib data _ _ h _ rfl)
  · exact .ok _

theorem runPostChecks_attributed (lib : Libraries) (data : Json) (checks : List Json) :
    Confines (Attributed consumerId requestId) NoIntake
      (runPostChecks lib data checks requestId : Method ω (List PostCheckResult)) := by
  have hlog : ∀ results : List PostCheckResult, Confines (Attributed consumerId requestId) NoIntake
      (logChecks requestId results : Method ω Unit) := by
    intro results
    induction results with
    | nil => exact .pure ()
    | cons check results ih => exact .bind (logEvent_attributed (Or.inr rfl) rfl) fun _ => ih
  have hevaluate : Raises NoIntake (evaluatePostChecks lib data checks) := by
    refine .bind (.mapM fun check _ => evaluateCheck_raises lib data check) fun _ => ?_
    exact .ok _
  refine .bind (.ofExcept hevaluate) fun outcomes => ?_
  refine .bind (hlog _) fun _ => ?_
  exact .pure _

/-! ### The two ways through a document -/

theorem runChunkedParse_attributed :
    Confines (Attributed consumerId requestId) NoIntake (service.runChunkedParse request plan
      resolved metadata consumerId requestId) := by
  unfold DocumentParsingService.runChunkedParse
  refine .bind (logEvent_attributed (Or.inr rfl) rfl) fun _ => ?_
  refine .bind (.captureEach (fun chunk => runChunk_attributed chunk) _) fun chunkResults => ?_
  refine .bind (callWorld_attributed _) fun interruption => ?_
  refine .bind (raising_attributed interruption) fun _ => ?_
  refine .bind runSummary_attributed fun summary => ?_
  dsimp only
  refine .bind (reportFailed_attributed _) fun _ => ?_
  refine .bind (.ofExcept (validateAgainstOriginal_raises _ _ _)) fun validated => ?_
  refine .bind (.ofExcept (requireObject_raises validated)) fun data => ?_
  exact .bind (runPostChecks_attributed _ _ _) fun checks => .pure _

theorem runSinglePass_attributed {markdown : String} :
    Confines (Attributed consumerId requestId) NoIntake (service.runSinglePass request markdown
      resolved metadata consumerId requestId) := by
  refine .bind (completeAndValidate_attributed rfl rfl) fun _ => ?_
  refine .bind (runPostChecks_attributed _ _ _) fun _ => ?_
  exact .pure _

end Service

/-! ## The intake -/

/-- The refusals of a service are new when they are raised. -/
structure DocumentParsingService.FreshRefusals {ω : Type} (service : DocumentParsingService ω) :
    Prop where
  detection : ∀ settings path files w,
    Raises Unlogged (service.intake.detectDocumentType settings path files w).1
  image : ∀ settings path files w,
    Raises Unlogged (service.intake.validateImageDimensions settings path files w).1
  extraction : ∀ stored files w, Raises Unlogged (service.extract stored files w).1

section Intake

variable {ω α : Type} {consumerId requestId : Option String}

/-- A new refusal that is logged and raised is reported. -/
theorem reject_reported {error : IntakeError} (h : error.intakeEventLogged = false)
    (documentType : String) (s : Session ω) :
    (do let error ← logIntakeRejection error documentType
        throw (.intake error) : Method ω α).Triple s
      (fun _ s' => Attributed consumerId requestId s s')
      fun e s' => EndsReported consumerId requestId s s' e := by
  have hlogged : (logIntakeRejection error documentType : Method ω IntakeError).outcome s =
      (.ok { error with intakeEventLogged := true },
        { s with log := s.log ++ [.intakeRejected error.code documentType] }) := by
    unfold logIntakeRejection
    rw [h]
    rfl
  rw [Program.Triple, Program.outcome_bind_ok hlogged]
  refine ⟨⟨[.intakeRejected error.code documentType], rfl, rfl, fun event he => ?_⟩,
    fun e he => by cases he; rfl, .of_eq rfl⟩
  rw [List.mem_singleton.mp he]
  exact Or.inl rfl

/-- A refusal that leaves the handler was logged there. -/
theorem rejecting_reported {documentType : String} {p : Method ω α}
    (hp : Confines (Attributed consumerId requestId) Unlogged p) (s : Session ω) :
    (rejecting documentType p).Triple s (fun _ s' => Attributed consumerId requestId s s')
      fun e s' => EndsReported consumerId requestId s s' e := by
  refine (hp.captured s).bind fun outcome s' h => ?_
  obtain ⟨hattributed, hraises⟩ := h
  -- `except IntakeError`: the other errors leave as they are
  rcases outcome with (_ | _ | error | _ | _ | _ | _ | _ | _) | a
  case ok => exact .pure hattributed
  case error.intake =>
    exact (reject_reported (hraises _ rfl _ rfl) documentType s').mono
      (fun _ _ h => hattributed.trans h) fun _ _ h => hattributed.reported h
  all_goals exact .throw (NoIntake.reported (fun _ h => by cases h) hattributed)

theorem callDisk_attributed {f : List TempFile → ω → Except PyError α × ω}
    (hf : ∀ files w, Raises Unlogged (f files w).1) :
    Confines (Attributed consumerId requestId) Unlogged (callDisk f) := by
  intro s
  refine Program.Triple.bind (M := fun outcome s' => Attributed consumerId requestId s s' ∧
    Raises Unlogged outcome) (.step ⟨attributed_of_eq rfl rfl, hf _ _⟩) fun outcome s' h => ?_
  exact .ofExcept (fun _ _ => h.1) fun e he => ⟨h.1, h.2 e he⟩

theorem readAll_attributed (path maxUploadBytes : Nat) (reads : List ReadTurn) (sizeBytes : Nat) :
    Confines (Attributed consumerId requestId) Unlogged
      (readAll path maxUploadBytes reads sizeBytes : Method ω Nat) := by
  induction reads generalizing sizeBytes with
  | nil => exact .pure sizeBytes
  | cons turn rest ih =>
    cases turn with
    | raises interruption => exact .throw (unlogged_interruption interruption)
    | chunk bytes writeError =>
      unfold readAll
      by_cases hb : bytes = []
      · rw [if_pos hb]
        exact .pure sizeBytes
      rw [if_neg hb]
      by_cases hlimit : maxUploadBytes < sizeBytes + bytes.length
      · rw [if_pos hlimit]
        exact .throw (unlogged_intake rfl)
      rw [if_neg hlimit]
      cases writeError with
      | some text => exact .throw (unlogged_other text)
      | none => exact .bind (.step fun _ => attributed_of_eq rfl rfl) fun _ => ih _

theorem raising_unlogged (error : Option Interruption) :
    Confines (Attributed consumerId requestId) Unlogged (raising error : Method ω Unit) := by
  cases error with
  | none => exact .pure ()
  | some interruption => exact .throw (unlogged_interruption interruption)

theorem unlink_attributed {P : PyError → Prop} (path : Nat) :
    Confines (Attributed consumerId requestId) P (unlink path : Method ω Unit) :=
  .step fun _ => attributed_of_eq rfl rfl

theorem streamToTemp_attributed (storage : TempStorage) (upload : UploadFile)
    (maxUploadBytes : Nat) :
    Confines (Attributed consumerId requestId) Unlogged
      (streamToTemp storage upload maxUploadBytes : Method ω (Nat × Nat)) := by
  unfold streamToTemp
  dsimp only
  cases storage.createRaises with
  | some text => exact .throw (unlogged_other text)
  | none =>
    refine .bind (.step fun _ => attributed_of_eq rfl rfl) fun path => ?_
    have hread : Confines (Attributed consumerId requestId) Unlogged
        (Program.ensure (readAll path maxUploadBytes upload.reads 0)
          (raising (storage.flushRaises.map .other)) :
          Method ω Nat) := by
      refine .capture_bind (readAll_attributed _ _ _ _) fun outcome houtcome => ?_
      refine .bind (raising_unlogged _) fun _ => ?_
      exact .ofExcept houtcome
    refine .capture_bind hread fun outcome ho => ?_
    cases outcome with
    | error error =>
      dsimp only
      split
      · exact .bind (unlink_attributed path) fun _ => .throw (ho _ rfl)
      · exact .throw (ho _ rfl)
    | ok sizeBytes =>
      dsimp only
      split
      · exact .bind (unlink_attributed path) fun _ => .throw (unlogged_intake rfl)
      · exact .pure _

variable {service : DocumentParsingService ω} {settings : CoreSettings} {upload : UploadFile}
  {body : StoredUpload → List TempFile → ω → Except PyError α × ω} {s : Session ω}

theorem inspectAndRun_reported {path sizeBytes : Nat} (hservice : service.FreshRefusals)
    (hbody : ∀ stored files w, Raises Unlogged (body stored files w).1) :
    (inspectAndRun service.intake settings upload path sizeBytes body).Triple s
      (fun _ s' => Attributed consumerId requestId s s')
      fun e s' => EndsReported consumerId requestId s s' e := by
  have hdetection : Confines (Attributed consumerId requestId) Unlogged
      (callDisk (service.intake.detectDocumentType settings path)) :=
    callDisk_attributed (hservice.detection _ _)
  -- a file that is not recognised is rejected as `unknown`, the others under their type
  refine (hdetection.captured s).bind fun outcome s' h => ?_
  obtain ⟨hdetected, hraises⟩ := h
  cases outcome with
  | error e =>
    exact (rejecting_reported (.throw (hraises e rfl)) s').mono (fun _ _ h => hdetected.trans h)
      fun _ _ h => hdetected.reported h
  | ok found =>
    have himage : Confines (Attributed consumerId requestId) Unlogged
        (checkImage service.intake settings path found.1) := by
      unfold checkImage
      split
      · exact callDisk_attributed (hservice.image _ _)
      · exact .pure ()
    refine (rejecting_reported (.bind himage fun _ => ?_) s').mono (fun _ _ h => hdetected.trans h)
      fun _ _ h => hdetected.reported h
    refine .bind (logEvent_attributed (Or.inl rfl) rfl) fun _ => ?_
    exact callDisk_attributed (hbody _)

/-- How an upload is done with: reported, unless closing it raised. -/
def EndsReportedOrClosing (upload : UploadFile) (consumerId requestId : Option String)
    (s s' : Session ω) (error : PyError) : Prop :=
  EndsReported consumerId requestId s s' error ∨ Interrupted consumerId requestId s s' ∧
    ∃ interruption, upload.closeRaises = some interruption ∧ error = interruption.toError

/-- What closes the upload lets the error through, or raises its own. -/
theorem ensure_reported {p : Method ω α} {cleanup : Method ω Unit} {start : Session ω}
    (hp : p.Triple start (fun _ s' => Attributed consumerId requestId s s')
      fun e s' => EndsReported consumerId requestId s s' e)
    (hcleanup : ∀ t, cleanup.Triple t (fun _ t' => Attributed consumerId requestId t t')
      fun e t' => Attributed consumerId requestId t t' ∧
        ∃ interruption, upload.closeRaises = some interruption ∧ e = interruption.toError) :
    (Program.ensure p cleanup).Triple start (fun _ s' => Attributed consumerId requestId s s')
      fun e s' => EndsReportedOrClosing upload consumerId requestId s s' e := by
  refine Program.Triple.ensure (M := fun outcome s' => match outcome with
    | .ok _ => Attributed consumerId requestId s s'
    | .error e => EndsReported consumerId requestId s s' e) hp fun outcome t ht => ?_
  have hinterrupted : Interrupted consumerId requestId s t := by
    cases outcome with
    | ok a => exact ht.interrupted
    | error e => exact ht.interrupted
  refine (hcleanup t).mono (fun _ t' h => ⟨?_, ?_⟩) fun e t' h =>
    Or.inr ⟨hinterrupted.trans h.1, h.2⟩
  · rintro a rfl
    exact ht.trans h
  · rintro e rfl
    refine Or.inl ⟨?_, ht.marked, ht.charged.trans h.charged⟩
    rw [← List.append_nil e.rejection]
    exact ht.logged.trans h.logged

theorem closing_attributed (t : Session ω) :
    (raising upload.closeRaises).Triple t (fun _ t' => Attributed consumerId requestId t t')
      fun e t' => Attributed consumerId requestId t t' ∧
        ∃ interruption, upload.closeRaises = some interruption ∧ e = interruption.toError := by
  refine raising_files.mono ?_ ?_
  · rintro _ t' ⟨rfl, -⟩
    exact .refl t'
  · rintro e t' ⟨rfl, hraised⟩
    exact ⟨.refl t', hraised⟩

/-- **What becomes of an upload**: a refusal is logged once, by what refused it. -/
theorem storedUpload_reported (hservice : service.FreshRefusals)
    (hbody : ∀ stored files w, Raises Unlogged (body stored files w).1) :
    (storedUpload service.intake settings upload body).Triple s
      (fun _ s' => Attributed consumerId requestId s s')
      fun e s' => EndsReportedOrClosing upload consumerId requestId s s' e := by
  have hstreamed : Confines (Attributed consumerId requestId) Unlogged
      (streamToTemp service.intake.storage upload settings.maxUploadBytes : Method ω (Nat × Nat)) :=
    streamToTemp_attributed _ _ _
  refine (hstreamed.captured s).bind fun outcome s' h => ?_
  obtain ⟨hstored, hraises⟩ := h
  cases outcome with
  | error e =>
    refine ensure_reported ?_ closing_attributed
    exact (rejecting_reported (.throw (hraises e rfl)) s').mono (fun _ _ h => hstored.trans h)
      fun _ _ h => hstored.reported h
  | ok stored =>
    refine ensure_reported ?_ fun t => (closing_attributed t).bind fun _ t' h => ?_
    · exact (inspectAndRun_reported hservice hbody).mono (fun _ _ h => hstored.trans h)
        fun _ _ h => hstored.reported h
    · exact (unlink_attributed stored.1 t').mono (fun _ _ h' => h.trans h') fun _ _ h' =>
        absurd h'.2 id

/-- **A run of the service.**  Its usage is on record under its consumer and its request,
and a refusal is logged exactly where one leaves. -/
theorem runParse_reported (hservice : service.FreshRefusals) (request : ParseMultipartRequest)
    (consumerId requestId : Option String) (s : Session ω) :
    (service.runParse request consumerId requestId).Triple s
      (fun _ s' => Attributed consumerId requestId s s')
      fun e s' => EndsReportedOrClosing request.upload consumerId requestId s s' e := by
  have hbody : ∀ stored files w,
      Raises Unlogged ((service.extract stored files w).1.map (·, stored)) :=
    fun stored files w => .map (hservice.extraction stored files w)
  have hstored : (service.storeAndExtract request).Triple s
      (fun _ s' => Attributed consumerId requestId s s')
      fun e s' => EndsReportedOrClosing request.upload consumerId requestId s s' e := by
    refine (storedUpload_reported hservice hbody).bind fun found s' h => ?_
    obtain ⟨_ | _, upload⟩ := found <;> exact .pure h
  refine hstored.bind fun found s' h => ?_
  have hrest {p : Method ω ParsedDocument}
      (hp : Confines (Attributed consumerId requestId) NoIntake p) :
      p.Triple s' (fun _ t => Attributed consumerId requestId s t)
        fun e t => EndsReportedOrClosing request.upload consumerId requestId s t e :=
    (hp s').mono (fun _ _ h' => h.trans h') fun e _ h' => Or.inl (h'.2.reported (h.trans h'.1))
  obtain ⟨markdown, metadata⟩ := found
  dsimp only
  split
  · exact hrest runChunkedParse_attributed
  · exact hrest runSinglePass_attributed

end Intake

/-! ## The checks of a stored file -/

section Checks

variable {probes : FileProbes} {settings : CoreSettings} {file : TempFile}

theorem validateEntries_raises (maxUncompressedBytes : Nat) (maxCompressionRatio : ℚ)
    (entries : List ZipEntry) (totalUncompressed : Nat) : Raises (·.intakeEventLogged = false)
      (validateEntries maxUncompressedBytes maxCompressionRatio totalUncompressed entries) := by
  induction entries generalizing totalUncompressed with
  | nil => exact .ok ()
  | cons entry entries ih =>
    unfold validateEntries
    dsimp only
    split_ifs
    all_goals first | exact .error rfl | exact ih _

theorem detectOfficeZip_raises (archive : Option (List ZipEntry)) :
    Raises (·.intakeEventLogged = false) (detectOfficeZip settings archive) := by
  cases archive with
  | none => exact .error rfl
  | some entries =>
    refine .bind ?_ fun _ => ?_
    · unfold validateOoxmlArchive
      split
      · exact .error rfl
      · exact validateEntries_raises _ _ _ _
    · dsimp only
      split_ifs
      all_goals first | exact .error rfl | exact .ok _

theorem detectLegacyOfficeType_raises (suffix : String) (mime : Option String) :
    Raises (·.intakeEventLogged = false) (detectLegacyOfficeType suffix mime) := by
  unfold detectLegacyOfficeType
  dsimp only
  split_ifs
  all_goals first | exact .error rfl | exact .ok _

theorem detectDocumentType_raises :
    Raises (·.intakeEventLogged = false) (detectDocumentType probes settings file) := by
  unfold detectDocumentType
  dsimp only
  split_ifs
  all_goals first
    | exact .ok _
    | exact .error rfl
    | exact .map (detectLegacyOfficeType_raises _ _)
    | exact .map (detectOfficeZip_raises _)

theorem validateImageDimensions_raises :
    Raises (·.intakeEventLogged = false) (validateImageDimensions probes settings file) := by
  unfold validateImageDimensions
  split
  · exact .error rfl
  · split
    · exact .error rfl
    · exact .ok ()

theorem checkFile_raises {ω α : Type} {check : TempFile → Except IntakeError α}
    (h : ∀ file, Raises (·.intakeEventLogged = false) (check file)) (path : Nat)
    (files : List TempFile) (w : ω) : Raises Unlogged (checkFile check path files w).1 := by
  unfold checkFile
  split
  · exact .error (unlogged_other _)
  · exact .mapError (h _) fun _ => unlogged_intake

end Checks

/-! ## The extractor -/

section Extractor

variable {self : MarkItDownExtractor}

theorem preflightPdf_raises (settings : ExtractionSettings) (file : Option PdfDocument) :
    Raises (·.intakeEventLogged = false) (preflightPdf settings file) := by
  have hpage (tally : PageTally) (page : PdfPage) :
      Raises (·.intakeEventLogged = false) (tallyPage settings tally page) := by
    refine .bind ?_ fun _ => .ok _
    unfold countPage enforceOcrPixelBudget
    dsimp only
    split_ifs
    · exact .ok _
    · exact .error rfl
    · exact .ok _
    · exact .ok _
  cases file with
  | none => exact .error rfl
  | some document =>
    unfold preflightPdf
    dsimp only
    split_ifs
    · exact .error rfl
    · exact .error rfl
    refine .bind (.foldlM hpage _ _) fun tally => ?_
    split
    · exact .error rfl
    · exact .ok _

theorem orRaise_unlogged (error : Option String) : (orRaise error).Raises Unlogged := by
  cases error with
  | none => exact .pure ()
  | some text => exact .raise (unlogged_other text)

theorem changeDisk_unlogged (change : Disk → Option Disk) :
    (changeDisk change).Raises Unlogged := by
  intro s
  dsimp only
  cases change s.disk with
  | none => exact .raise (unlogged_other _)
  | some disk => exact .act _

theorem makeDirectory_unlogged (error : Option String) (path : DiskPath) (name : String) :
    (makeDirectory error path name).Raises Unlogged := by
  refine (orRaise_unlogged error).bind fun _ => ?_
  exact changeDisk_unlogged _

theorem readBytes_unlogged (host : Host) (path : DiskPath) :
    (readBytes host path).Raises Unlogged := by
  refine (orRaise_unlogged _).bind fun _ s => ?_
  dsimp only
  rcases s.disk.entry path with _ | _ | bytes
  · exact .raise (unlogged_other _)
  · exact .raise (unlogged_other _)
  · exact .pure bytes

theorem writeBytes_unlogged (host : Host) (path : DiskPath) (name : String) (bytes : List UInt8) :
    (writeBytes host path name bytes).Raises Unlogged := by
  unfold writeBytes
  split
  · exact changeDisk_unlogged _
  · exact .raise (unlogged_other _)
  · refine (changeDisk_unlogged _).bind fun _ => ?_
    exact .raise (unlogged_other _)

theorem mkdtemp_unlogged (host : Host) : (mkdtemp host).Raises Unlogged := by
  refine (orRaise_unlogged _).bind fun _ s => ?_
  dsimp only
  cases makeScratch host s.disk with
  | none => exact .raise (unlogged_other _)
  | some made =>
    refine (Thread.Raises.act _).bind fun _ => ?_
    exact .pure _

theorem prepareCopy_unlogged (host : Host) (path root : DiskPath) :
    (prepareCopy host path root).Raises Unlogged := by
  refine (makeDirectory_unlogged _ root "out").bind fun _ => ?_
  refine (makeDirectory_unlogged _ root "profile").bind fun _ => ?_
  refine (readBytes_unlogged host path).bind fun bytes => ?_
  refine (writeBytes_unlogged host root "input.doc" bytes).bind fun _ => ?_
  exact orRaise_unlogged _

theorem giveUp_unlogged {α : Type} (host : Host) (root : DiskPath) (returnCode : Option Int)
    (timedOut : Bool) {error : IntakeError} (h : error.intakeEventLogged = false) :
    (giveUp host root returnCode timedOut error : Threaded α).Raises Unlogged := by
  refine (Thread.Raises.act _).bind fun _ => ?_
  refine (Thread.Raises.act _).bind fun _ => ?_
  exact .raise (unlogged_intake h)

theorem conversionFailed_unlogged (host : Host) (returncode : Int) (path : DiskPath) :
    (conversionFailed host returncode path).Raises Unlogged := by
  have hexists : (pathExists host path).Raises Unlogged := by
    refine (orRaise_unlogged _).bind fun _ s => ?_
    exact .pure _
  unfold conversionFailed
  split
  · exact .pure true
  · refine hexists.bind fun found => ?_
    exact .pure _

theorem NoIntake.unlogged {error : PyError} (h : NoIntake error) : Unlogged error :=
  fun e he => absurd he (h e)

theorem convertCopy_unlogged (settings : ExtractionSettings) {host : Host} (root : DiskPath)
    (hhost : ∀ e, host.libreOffice = .raises e → NoIntake e) :
    (convertCopy settings host root).Raises Unlogged := by
  suffices htake : (takeConverted settings host root).Raises Unlogged from
    (Thread.Raises.act _).bind fun _ => htake
  unfold takeConverted
  cases hended : host.libreOffice with
  | timeoutExpired => exact giveUp_unlogged host root none true rfl
  | fileNotFound => exact giveUp_unlogged host root none false rfl
  | osError => exact giveUp_unlogged host root none false rfl
  | raises error => exact .raise (hhost error hended).unlogged
  | completed returncode =>
    refine (conversionFailed_unlogged host returncode _).bind fun failed => ?_
    cases failed with
    | true => exact giveUp_unlogged host root (some returncode) false rfl
    | false =>
      refine (Thread.Raises.act _).bind fun _ => ?_
      exact .pure _

theorem resolveExecutable_unlogged (host : Host) (binary : String) :
    Raises Unlogged (resolveExecutable host binary) := by
  unfold resolveExecutable
  dsimp only
  split
  · split
    · exact .error (unlogged_other _)
    · exact .ok _
  · exact .ok _

theorem convertDocToDocx_unlogged (settings : ExtractionSettings) {host : Host} (path : DiskPath)
    (hhost : ∀ e, host.libreOffice = .raises e → NoIntake e) :
    (convertDocToDocx settings host path).Raises Unlogged := by
  have hresolve := resolveExecutable_unlogged host settings.libreofficeBinary
  refine Thread.Raises.bind (t := .ended _) hresolve fun found => ?_
  cases found with
  | none =>
    refine (Thread.Raises.act _).bind fun _ => ?_
    exact .raise (unlogged_intake rfl)
  | some binary =>
    refine (mkdtemp_unlogged host).bind fun root => ?_
    refine (prepareCopy_unlogged host path root).bind fun _ => ?_
    exact convertCopy_unlogged settings root hhost

/-- Waiting for a thread raises what the thread raises, or a cancellation. -/
theorem inThread_unlogged {α : Type} (cancelled : Option Cancellation) {t : Threaded α}
    (h : t.Raises Unlogged) : Confines (fun _ _ => True) Unlogged (inThread cancelled t) := by
  have hcancelled : Unlogged .cancelled := fun _ he => by cases he
  rcases cancelled with _ | _ | steps
  · intro s
    refine .of_outcome (fun _ _ _ => trivial) fun e s' he => ⟨trivial, h.run s e ?_⟩
    exact congrArg Prod.fst he
  · exact .throw hcancelled
  · exact .bind (.step fun _ => trivial) fun _ => .throw hcancelled

theorem logExtraction_unlogged (event : ExtractionEvent) :
    Confines (fun _ _ => True) Unlogged (logExtraction event) := .step fun _ => trivial

theorem cleanupConversionPath_unlogged (host : Host) (path : DiskPath) :
    Confines (fun _ _ => True) Unlogged (cleanupConversionPath host path) := by
  unfold cleanupConversionPath
  split
  · exact .step fun _ => trivial
  · refine .bind (.step fun _ => trivial) fun entry => ?_
    split
    · exact .throw (unlogged_other _)
    · exact .step fun _ => trivial
    · exact .pure ()

theorem callMarkItDown_unlogged (host : Host) (documentType : SupportedDocumentType)
    (uploadPath sourcePath : DiskPath) (extension : String) :
    Confines (fun _ _ => True) Unlogged
      (callMarkItDown host documentType uploadPath sourcePath extension) := by
  unfold callMarkItDown
  have hcleanup : Confines (fun _ _ => True) Unlogged
      (if sourcePath ≠ uploadPath then cleanupConversionPath host sourcePath else return ()) := by
    split
    · exact cleanupConversionPath_unlogged host sourcePath
    · exact .pure ()
  refine .capture_bind (P := Unlogged) ?_ fun outcome houtcome => ?_
  · refine .bind (.step fun _ => trivial) fun _ => ?_
    cases host.convertLocal with
    | ok textContent => exact .pure textContent
    | error error =>
      dsimp only
      split
      · refine (logExtraction_unlogged _).bind fun _ => ?_
        exact .throw (unlogged_intake rfl)
      · next hexception =>
        refine .throw fun e he => ?_
        rw [he] at hexception
        exact absurd rfl hexception
  · refine hcleanup.bind fun _ => ?_
    exact .ofExcept houtcome

theorem convertToMarkdown_unlogged (host : Host) (documentType : SupportedDocumentType)
    (preflight : Option PdfPreflightResult) (uploadPath sourcePath : DiskPath)
    (extension : String) : Confines (fun _ _ => True) Unlogged
      (convertToMarkdown host documentType preflight uploadPath sourcePath extension) := by
  have hcall := callMarkItDown_unlogged host documentType uploadPath sourcePath extension
  refine hcall.bind fun textContent => ?_
  split
  · refine (logExtraction_unlogged _).bind fun _ => ?_
    exact .throw (unlogged_intake rfl)
  · refine (logExtraction_unlogged _).bind fun _ => ?_
    refine (logExtraction_unlogged _).bind fun _ => ?_
    exact .pure _

/-- What the extractor refuses was not refused before. -/
theorem extract_unlogged (upload : StoredUpload)
    (hhost : ∀ e, self.host.libreOffice = .raises e → NoIntake e) :
    Confines (fun _ _ => True) Unlogged (self.extract upload) := by
  unfold MarkItDownExtractor.extract
  dsimp only
  split
  · split
    · next error herror =>
      have hunlogged := preflightPdf_raises self.settings self.host.pdf error herror
      refine (logExtraction_unlogged _).bind fun _ => ?_
      exact .throw (unlogged_intake hunlogged)
    · refine (logExtraction_unlogged _).bind fun _ => ?_
      split
      · refine (logExtraction_unlogged _).bind fun _ => ?_
        refine (logExtraction_unlogged _).bind fun _ => ?_
        exact .pure _
      · exact convertToMarkdown_unlogged _ _ _ _ _ _
  · have hconversion := convertDocToDocx_unlogged self.settings (self.host.pathOf upload.path) hhost
    refine (inThread_unlogged _ hconversion).bind fun sourcePath => ?_
    exact convertToMarkdown_unlogged _ _ _ _ _ _
  · exact convertToMarkdown_unlogged _ _ _ _ _ _

end Extractor

/-- The documents of the service go through `MarkItDownExtractor`, and LibreOffice refuses
none. -/
def DocumentParsingService.Extracts {ω : Type} (service : DocumentParsingService ω) : Prop :=
  ∀ stored files w, ∃ (extractor : MarkItDownExtractor) (state : ExtractionState),
    (∀ e, extractor.host.libreOffice = .raises e → NoIntake e) ∧
      (service.extract stored files w).1 = ((extractor.extract stored).outcome state).1

/-- **The service of the source**: its refusals are new when they are raised. -/
theorem freshRefusals {ω : Type} {service : DocumentParsingService ω} {probes : FileProbes}
    {storage : TempStorage} (hintake : service.intake = fileIntake probes storage)
    (hextract : service.Extracts) : service.FreshRefusals := by
  refine ⟨?_, ?_, fun stored files w => ?_⟩
  · rw [hintake]
    exact fun _ => checkFile_raises fun _ => detectDocumentType_raises
  · rw [hintake]
    exact fun _ => checkFile_raises fun _ => validateImageDimensions_raises
  · obtain ⟨extractor, state, hhost, heq⟩ := hextract stored files w
    rw [heq]
    exact fun e he => ((extract_unlogged stored hhost state).of_error (Prod.ext he rfl)).2

end InternumCore
