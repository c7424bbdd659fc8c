import InternumCore.Attempts

/-!
# A completion that is validated

`completeAndValidate` asks for a completion, repairs and validates its output,
and asks once more, with the validation error in the prompt, if the output is
rejected.

`completeAndValidate_triple` says what that does to the session: one call or two,
whose attempts are numbered without a gap, each call ending in at most one
completed attempt, and of the completions exactly the one returned was accepted.
-/

namespace InternumCore
open JsonSchema

/-! ## The output of a model -/

/-- `repair_json_output`. -/
def repairJsonOutput (lib : Libraries) (raw : String) : Except PyError Json :=
  match lib.repairJson raw with
  | some repaired => .ok repaired
  | none => .error (.schema { message := "Model output could not be parsed as JSON" })

/-- `_requires_json_repair`. -/
def requiresJsonRepair (lib : Libraries) (rawOutput : String) : Except PyError Bool :=
  match lib.jsonLoads rawOutput with
  | .ok _ => .ok false
  | .error .decode => .ok true
  | .error error => .error error.toError

/-- `isinstance(validated, dict)`, or else a `SchemaError`. -/
def requireObject (validated : Json) : Except PyError Json :=
  if validated.isObject then .ok validated
  else .error (.schema { message := "Model output must be a JSON object" })

/-- The `try` block of `_repair_and_validate`. -/
def validatedOutput (lib : Libraries) (rawOutput : String) (schema : Json) :
    Except PyError Json := do
  let repaired ← repairJsonOutput lib rawOutput
  let validated ← validateAgainstOriginal lib.jsonschema repaired schema
  requireObject validated

/-- What `_repair_and_validate` returns or raises. -/
def checkedOutput (lib : Libraries) (rawOutput : String) (schema : Json) : Except PyError Json := do
  let _ ← requiresJsonRepair lib rawOutput
  validatedOutput lib rawOutput schema

/-- `format_validation_retry`.  A path is a list wherever there is one. -/
def formatValidationRetry (lib : Libraries) (error : SchemaError) : String :=
  let details : List (String × Json) := match error.details with
    | some (.obj details) => details
    | _ => []
  let pathText := match details.lookup "path" with
    | some (.arr (part :: path)) => ".".intercalate ((part :: path).map lib.strOfLoaded)
    | _ => "<root>"
  let message := match details.lookup "message" with
    | some message => lib.strOfLoaded message
    | none => error.message
  "Your previous JSON output failed validation against the caller schema. " ++
    s!"Fix the JSON and return only valid JSON. Validation path: {pathText}. " ++
    s!"Validation error: {message}."

/-- What was accepted is an object the schema accepts. -/
theorem accepts_of_checkedOutput {lib : Libraries} {rawOutput : String} {schema data : Json}
    (h : checkedOutput lib rawOutput schema = .ok data) :
    lib.jsonschema.checkSchema schema = none ∧ Accepts lib.jsonschema schema data ∧
      data.isObject = true := by
  unfold checkedOutput at h
  cases hr : requiresJsonRepair lib rawOutput with
  | error e => rw [hr] at h; cases h
  | ok repair =>
    rw [hr] at h
    change validatedOutput lib rawOutput schema = .ok data at h
    unfold validatedOutput at h
    cases hj : repairJsonOutput lib rawOutput with
    | error e => rw [hj] at h; cases h
    | ok repaired =>
      rw [hj] at h
      change (validateAgainstOriginal lib.jsonschema repaired schema).bind requireObject = _ at h
      cases hv : validateAgainstOriginal lib.jsonschema repaired schema with
      | error e => rw [hv] at h; cases h
      | ok validated =>
        rw [hv] at h
        obtain ⟨hcheck, haccepts, rfl⟩ := validateAgainstOriginal_eq_ok_iff.mp hv
        change requireObject validated = .ok data at h
        unfold requireObject at h
        split at h
        · next hobj =>
          obtain rfl := Except.ok.inj h
          exact ⟨hcheck, haccepts, hobj⟩
        · cases h

section Completing

variable {ω : Type}

/-- `_repair_and_validate`. -/
def repairAndValidate (lib : Libraries) (rawOutput : String) (schema : Json)
    (validationRetryTriggered failureTriggersRetry : Bool) : Method ω Json := do
  match requiresJsonRepair lib rawOutput with
  | .error error => throw error
  | .ok repairApplied =>
    match validatedOutput lib rawOutput schema with
    | .error (.schema error) =>
      logEvent (.schemaValidation false repairApplied
        (failureTriggersRetry || validationRetryTriggered))
      throw (.schema error)
    | .error error => throw error
    | .ok validated =>
      logEvent (.schemaValidation true repairApplied validationRetryTriggered)
      logEvent (.schemaValues validated)
      return validated

/-- `_complete_and_validate`. -/
def completeAndValidate (client : OpenRouterClient ω) (request : OpenRouterRequest)
    (schema : Json) : Method ω (Json × OpenRouterResult) := do
  let result ← client.complete request
  match ← Program.capture (repairAndValidate client.lib result.content schema false true) with
  | .ok data => return (data, result)
  | .error (.schema error) =>
    let retryAttempt := result.attempt + 1
    logEvent (.modelRetry "schema_rejection" retryAttempt none none none)
    let retryResult ← client.complete
      { request with
        validationRetryPrompt := some (formatValidationRetry client.lib error)
        attempt := retryAttempt }
    let data ← repairAndValidate client.lib retryResult.content schema true false
    return (data, retryResult)
  | .error error => throw error

end Completing

/-! ## What a completion adds to the session -/

/-- The record a completion is charged with. -/
def charge (c : OpenRouterRequest × OpenRouterResult) : UsageRecord := usageRecord c.2 c.1

/-- A run that made the attempts `new`: it announced each of them, and recorded
what completed. -/
def Charged {ω : Type} (s s' : Session ω) (new : List (Attempt ω)) : Prop :=
  Adds s s' (new.map Attempt.key) new ((completions new).map charge)

/-- The output of a completion was accepted under a schema. -/
def acceptedUnder (lib : Libraries) (schema : Json) (c : OpenRouterRequest × OpenRouterResult) :
    Bool :=
  (checkedOutput lib c.2.content schema).isOk

/-- The results among the attempts whose output was accepted under a schema. -/
def resultsUnder {ω : Type} (lib : Libraries) (schema : Json) (attempts : List (Attempt ω)) :
    List OpenRouterResult :=
  ((completions attempts).filter (acceptedUnder lib schema)).map Prod.snd

/-- The output of a completion was accepted under the schema that was asked for. -/
def accepted (lib : Libraries) (c : OpenRouterRequest × OpenRouterResult) : Bool :=
  acceptedUnder lib c.1.schema c

/-- The results among the attempts whose output was accepted. -/
def acceptedResults {ω : Type} (lib : Libraries) (attempts : List (Attempt ω)) :
    List OpenRouterResult :=
  ((completions attempts).filter (accepted lib)).map Prod.snd

section Charging

variable {ω : Type} {s s' s'' : Session ω} {new new' : List (Attempt ω)}

theorem Charged.nothing (h : AddsNothing s s') : Charged s s' [] := h

theorem Charged.trans (h : Charged s s' new) (h' : Charged s' s'' new') :
    Charged s s'' (new ++ new') := by
  have hadds := Adds.trans h h'
  rwa [← List.map_append, ← List.map_append, ← completions_append] at hadds

/-- A step that adds nothing, after a run. -/
theorem Charged.andThen (h : Charged s s' new) (h' : AddsNothing s' s'') : Charged s s'' new := by
  simpa using h.trans (.nothing h')

@[simp] theorem acceptedResults_append {lib : Libraries} :
    acceptedResults lib (new ++ new') = acceptedResults lib new ++ acceptedResults lib new' := by
  simp [acceptedResults]

theorem resultsUnder_append {lib : Libraries} {schema : Json} :
    resultsUnder lib schema (new ++ new') =
      resultsUnder lib schema new ++ resultsUnder lib schema new' := by
  simp [resultsUnder]

theorem resultsUnder_of_none {lib : Libraries} {schema : Json} (hc : completions new = []) :
    resultsUnder lib schema new = [] := by
  simp [resultsUnder, hc]

section OneCompletion

variable {lib : Libraries} {schema : Json} {c : OpenRouterRequest × OpenRouterResult}

theorem resultsUnder_of_ok (hc : completions new = [c]) {data : Json}
    (h : checkedOutput lib c.2.content schema = .ok data) :
    resultsUnder lib schema new = [c.2] := by
  simp [resultsUnder, hc, acceptedUnder, h, Except.isOk, Except.toBool]

theorem resultsUnder_of_error (hc : completions new = [c]) {e : PyError}
    (h : checkedOutput lib c.2.content schema = .error e) : resultsUnder lib schema new = [] := by
  simp [resultsUnder, hc, acceptedUnder, h, Except.isOk, Except.toBool]

end OneCompletion

theorem request_of_mem_completions {c : OpenRouterRequest × OpenRouterResult}
    (h : c ∈ completions new) : ∃ a ∈ new, a.request = c.1 := by
  obtain ⟨a, ha, hc⟩ := List.mem_filterMap.mp h
  unfold Attempt.completion? at hc
  split at hc
  · obtain rfl := Option.some.inj hc
    exact ⟨a, ha, rfl⟩
  · cases hc

/-- Where every attempt asked for one schema, acceptance is judged by that schema. -/
theorem acceptedResults_eq {lib : Libraries} {schema : Json}
    (h : ∀ a ∈ new, a.request.schema = schema) :
    acceptedResults lib new = resultsUnder lib schema new := by
  unfold acceptedResults resultsUnder
  rw [List.filter_congr fun c hc => ?_]
  obtain ⟨a, ha, hreq⟩ := request_of_mem_completions hc
  rw [accepted, ← hreq, h a ha]

end Charging

/-- A run of at most `calls` calls of the client, numbered from the first attempt
of the request. -/
structure Called {ω : Type} (client : OpenRouterClient ω) (request : OpenRouterRequest)
    (calls : Nat) (s s' : Session ω) (new : List (Attempt ω)) : Prop where
  charged : Charged s s' new
  numbers : new.map (·.number) = consecutive (firstAttempt request) new.length
  schemas : ∀ a ∈ new, a.request.schema = request.schema
  bound : new.length ≤ calls * (2 * (client.maxRetries + 1))

section Runs

variable {ω : Type} {client : OpenRouterClient ω} {request : OpenRouterRequest}
  {s s' s'' : Session ω}

theorem Completed.called {direct fallback : List (Attempt ω)} {records : List UsageRecord}
    (h : Completed client request s s' direct fallback records)
    (hrecords : records = (completions (direct ++ fallback)).map charge) :
    Called client request 1 s s' (direct ++ fallback) where
  charged := by
    have hadds := h.adds
    rwa [hrecords] at hadds
  numbers := by
    rw [List.map_append, h.native_phase.numbers, h.fallback_phase.numbers, ← consecutive_add,
      List.length_append]
  schemas := by
    intro a ha
    rcases List.mem_append.mp ha with ha | ha
    · rw [h.native_phase.requests a ha]
    · rw [h.fallback_phase.requests a ha]
  bound := by
    have hn := h.native_bound
    have hf := h.fallback_bound
    rw [List.length_append]
    omega

/-- One call of the client. -/
theorem complete_called :
    (client.complete request).Triple s
      (fun result s' => ∃ new, Called client request 1 s s' new ∧
        completions new = [(request, result)] ∧
        result.attempt = firstAttempt request + new.length - 1)
      (fun _ s' => ∃ new, Called client request 1 s s' new ∧ completions new = []) := by
  refine complete_triple.mono ?_ ?_
  · intro result s' hr
    obtain ⟨direct, fallback, h, hc, hattempt⟩ := hr
    exact ⟨_, h.called (by rw [hc]; rfl), hc, hattempt⟩
  · intro e s' hr
    obtain ⟨direct, fallback, h, hc⟩ := hr
    exact ⟨_, h.called (by rw [hc]; rfl), hc⟩

/-- A second call that goes on counting where the first stopped. -/
theorem Called.retry {request' : OpenRouterRequest} {new new' : List (Attempt ω)} {n n' : Nat}
    (h : Called client request n s s' new) (h' : Called client request' n' s' s'' new')
    (hfirst : firstAttempt request' = firstAttempt request + new.length)
    (hschema : request'.schema = request.schema) :
    Called client request (n + n') s s'' (new ++ new') where
  charged := h.charged.trans h'.charged
  numbers := by
    rw [List.map_append, h.numbers, h'.numbers, hfirst, ← consecutive_add, List.length_append]
  schemas := by
    intro a ha
    rcases List.mem_append.mp ha with ha | ha
    · exact h.schemas a ha
    · rw [h'.schemas a ha, hschema]
  bound := by
    have hb := h.bound
    have hb' := h'.bound
    rw [List.length_append, Nat.add_mul]
    omega

theorem Called.mono {new : List (Attempt ω)} {n n' : Nat} (h : Called client request n s s' new)
    (hn : n ≤ n') : Called client request n' s s' new :=
  ⟨h.charged, h.numbers, h.schemas, h.bound.trans (Nat.mul_le_mul_right _ hn)⟩

theorem Called.andThen {new : List (Attempt ω)} {n : Nat} (h : Called client request n s s' new)
    (h' : AddsNothing s' s'') : Called client request n s s'' new :=
  ⟨h.charged.andThen h', h.numbers, h.schemas, h.bound⟩

theorem repairAndValidate_triple {lib : Libraries} {rawOutput : String} {schema : Json}
    {validationRetryTriggered failureTriggersRetry : Bool} :
    (repairAndValidate lib rawOutput schema validationRetryTriggered failureTriggersRetry).Triple s
      (fun data s' => AddsNothing s s' ∧ checkedOutput lib rawOutput schema = .ok data)
      (fun e s' => AddsNothing s s' ∧ checkedOutput lib rawOutput schema = .error e) := by
  unfold repairAndValidate checkedOutput
  cases requiresJsonRepair lib rawOutput with
  | error e => exact .throw ⟨.refl s, rfl⟩
  | ok repairApplied =>
    dsimp only
    cases hv : validatedOutput lib rawOutput schema with
    | ok validated =>
      exact (adds_logEvent _).bind fun _ s₁ h₁ => (adds_logEvent _).bind fun _ s₂ h₂ =>
        .pure ⟨h₁.trans h₂, rfl⟩
    | error e =>
      cases e with
      | schema error => exact (adds_logEvent _).bind fun _ s₁ h₁ => .throw ⟨h₁, rfl⟩
      | _ => exact .throw ⟨.refl s, rfl⟩

/-- The retry after a rejected output, from the state `s₁` the rejection left. -/
theorem retry_triple {schema : Json} {request' : OpenRouterRequest} {s₁ : Session ω}
    {new : List (Attempt ω)} (hcalled : Called client request 1 s s₁ new)
    (hrejected : resultsUnder client.lib schema new = [])
    (hfirst : firstAttempt request' = firstAttempt request + new.length)
    (hschema : request'.schema = request.schema) :
    (do
      let retryResult ← client.complete request'
      let data ← repairAndValidate client.lib retryResult.content schema true false
      return (data, retryResult) : Method ω (Json × OpenRouterResult)).Triple s₁
      (fun out s' => ∃ new, Called client request 2 s s' new ∧
        out.2.attempt = firstAttempt request + new.length - 1 ∧
        resultsUnder client.lib schema new = [out.2] ∧
        checkedOutput client.lib out.2.content schema = .ok out.1)
      (fun _ s' => ∃ new, Called client request 2 s s' new ∧
        resultsUnder client.lib schema new = []) := by
  -- the attempts of the retry follow those of the rejected output
  refine (complete_called.mono (fun _ _ h => h) ?_).bind ?_
  · intro e s' h
    obtain ⟨new', hcalled', hnone⟩ := h
    refine ⟨new ++ new', hcalled.retry hcalled' hfirst hschema, ?_⟩
    rw [resultsUnder_append, hrejected, resultsUnder_of_none hnone, List.nil_append]
  intro retryResult s₂ h
  obtain ⟨new', hcalled', hcomp', hattempt'⟩ := h
  have hall := hcalled.retry hcalled' hfirst hschema
  refine (repairAndValidate_triple.mono (fun _ _ h => h) ?_).bind ?_
  · intro e s' h
    obtain ⟨h₃, hchecked⟩ := h
    refine ⟨new ++ new', hall.andThen h₃, ?_⟩
    rw [resultsUnder_append, hrejected, resultsUnder_of_error hcomp' hchecked, List.nil_append]
  · intro data s₃ h
    obtain ⟨h₃, hchecked⟩ := h
    refine .pure ⟨new ++ new', hall.andThen h₃, ?_, ?_, hchecked⟩
    · rw [hattempt', hfirst, List.length_append]
      push_cast
      omega
    · rw [resultsUnder_append, hrejected, resultsUnder_of_ok hcomp' hchecked, List.nil_append]

/-- **One validated completion.**  At most two calls, numbered without a gap from
the first to the last attempt.  If it returns, the result is that of the last
attempt and the only one accepted; if it raises, none was accepted. -/
theorem completeAndValidate_triple {schema : Json} :
    (completeAndValidate client request schema).Triple s
      (fun out s' => ∃ new, Called client request 2 s s' new ∧
        out.2.attempt = firstAttempt request + new.length - 1 ∧
        resultsUnder client.lib schema new = [out.2] ∧
        checkedOutput client.lib out.2.content schema = .ok out.1)
      (fun _ s' => ∃ new, Called client request 2 s s' new ∧
        resultsUnder client.lib schema new = []) := by
  refine (complete_called.mono (fun _ _ h => h) ?_).bind ?_
  · intro e s' h
    obtain ⟨new, hcalled, hnone⟩ := h
    exact ⟨new, hcalled.mono (by omega), resultsUnder_of_none hnone⟩
  intro result s₁ h
  obtain ⟨new, hcalled, hcomp, hattempt⟩ := h
  refine repairAndValidate_triple.capture_bind ?_ ?_
  · rintro data s₂ ⟨h₂, hchecked⟩
    exact .pure ⟨new, (hcalled.andThen h₂).mono (by omega), hattempt,
      resultsUnder_of_ok hcomp hchecked, hchecked⟩
  · rintro e s₂ ⟨h₂, hchecked⟩
    have hrejected := resultsUnder_of_error hcomp hchecked
    cases e with
    | schema error =>
      refine (adds_logEvent _).bind fun _ s₃ h₃ => ?_
      refine retry_triple ((hcalled.andThen h₂).andThen h₃) hrejected ?_ rfl
      -- the retry starts one above the number of the rejected result
      change max 1 (result.attempt + 1) = _
      have h1 := one_le_firstAttempt request
      omega
    | _ => exact .throw ⟨new, (hcalled.andThen h₂).mono (by omega), hrejected⟩

/-! ## The numbers of the attempts -/

theorem getLast?_consecutive (first : Int) {n : Nat} (hn : 0 < n) :
    (consecutive first n).getLast? = some (first + n - 1) := by
  obtain ⟨m, rfl⟩ := Nat.exists_eq_add_of_lt hn
  rw [Nat.zero_add, consecutive_add, consecutive, consecutive, List.getLast?_append]
  simp
  omega

/-- The attempts of a run, as the session and its log have them. -/
def Announces (s s' : Session ω) (new : List (Attempt ω)) : Prop :=
  s'.attempts = s.attempts ++ new ∧
    modelRequests s'.log = modelRequests s.log ++ new.map Attempt.key

theorem Charged.announces {new : List (Attempt ω)} (h : Charged s s' new) : Announces s s' new :=
  ⟨Adds.attempts h, Adds.log h⟩

/-- A run that returns a result made an attempt. -/
theorem length_pos_of_resultsUnder {lib : Libraries} {schema : Json} {new : List (Attempt ω)}
    {result : OpenRouterResult} (h : resultsUnder lib schema new = [result]) : 0 < new.length := by
  cases new with
  | nil => cases h
  | cons a new => exact Nat.succ_pos _

theorem modes_of_phases {direct fallback : List (Attempt ω)} {first first' : Int}
    (hn : Phase request .native first direct) (hf : Phase request .fallback first' fallback) :
    (direct ++ fallback).map (·.mode) =
      List.replicate direct.length .native ++ List.replicate fallback.length .fallback := by
  rw [List.map_append, List.map_congr_left hn.modes, List.map_congr_left hf.modes]
  simp

/-- **Attempt numbers have no gap.**  However the upstream, the clock and the
validation turn out, the attempts made for a request that starts at 1 are
numbered 1, 2, 3, …, and a result carries the number of the last of them.  Within
one call of the client no native attempt follows a fallback attempt. -/
theorem attempt_numbers_gap_free (client : OpenRouterClient ω) (request : OpenRouterRequest)
    (schema : Json) (s : Session ω) :
    (completeAndValidate client { request with attempt := 1 } schema).Triple s
        (fun out s' => ∃ new, Announces s s' new ∧
          new.map (·.number) = consecutive 1 new.length ∧
          (new.map (·.number)).getLast? = some out.2.attempt)
        (fun _ s' => ∃ new, Announces s s' new ∧
          new.map (·.number) = consecutive 1 new.length) ∧
      (client.complete request).Keeps (fun s s' => ∃ new direct fallback, Announces s s' new ∧
        new.map (·.mode) = List.replicate direct .native ++ List.replicate fallback .fallback) := by
  constructor
  · refine completeAndValidate_triple.mono ?_ ?_
    · intro out s' hr
      obtain ⟨new, hcalled, hattempt, hresults, -⟩ := hr
      refine ⟨new, hcalled.charged.announces, hcalled.numbers, ?_⟩
      rw [hcalled.numbers, getLast?_consecutive _ (length_pos_of_resultsUnder hresults), hattempt]
    · intro e s' hr
      obtain ⟨new, hcalled, -⟩ := hr
      exact ⟨new, hcalled.charged.announces, hcalled.numbers⟩
  · refine fun s => complete_triple.mono ?_ ?_
    · intro result s' hr
      obtain ⟨direct, fallback, h, -, -⟩ := hr
      exact ⟨_, _, _, ⟨h.adds.attempts, h.adds.log⟩, modes_of_phases h.native_phase h.fallback_phase⟩
    · intro e s' hr
      obtain ⟨direct, fallback, h, -⟩ := hr
      exact ⟨_, _, _, ⟨h.adds.attempts, h.adds.log⟩, modes_of_phases h.native_phase h.fallback_phase⟩

end Runs

end InternumCore
