import InternumCore.Attribution
import InternumCore.Auth
import InternumCore.MultipartIntake
import InternumCore.ResponseSchema
import InternumCore.UploadIntegrity

/-!
# A request, from its arrival to its answer

`dispatch` is the middleware around the application: it names the request, lets the
application answer, turns an exception that nobody has handled into an internal error,
and logs that the request is completed.  Inside, `apiErrorHandler` answers the errors of
`api.common.errors`, and `parseDocument` is the one route that does any work, for a
consumer that `requireConsumer` lets in.

What FastAPI and Starlette do besides is a parameter of the application (`App`): what
they answer where none of its routes matches, what rendering a response raises, and what
becomes of an application that is cancelled.

* `request_answered`: whatever happens, a request is answered once and completed once,
  with the same status, under its own id; an error in the answer is the error in the log,
  and the result of a parse is as it is documented.  The log is that of the request's own
  task: what extraction logs (`pdf.preflight`, `doc.convert` and the like) is left out, and
  a thread that a cancelled conversion leaves behind may log it after everything here.
* `refusals_reported`: the log has a rejection exactly where the answer is one.
* `work_is_admitted`: nothing is read or done, let alone charged, before the consumer is
  known.
-/

namespace InternumCore

/-! ## Requests and responses -/

/-- A request, as far as the application reads it. -/
structure HttpRequest where
  method : String
  path : String
  /-- `X-Request-ID`. -/
  requestId : Option String := none
  /-- `X-API-Key`. -/
  apiKey : Option String := none
  contentType : Option String := none
  /-- `Content-Length` and the body. -/
  multipart : MultipartRequest

/-- A response, with the `X-Request-ID` that the middleware gives it. -/
structure HttpResponse where
  statusCode : Nat
  body : Json
  requestId : Option String := none

/-- What a request logs. -/
inductive AppEvent where
  | received (method path : String) (consumerId : Option String) (contentLength : Option Int)
  | service (event : LogEvent)
  /-- `intake.rejected`, from the handler. -/
  | rejected (code : String) (documentType : Json) (requestId : Option String)
  /-- `request.failed`. -/
  | failed (code : String) (statusCode : Nat) (exceptionType : String) (requestId : Option String)
  | completed (method path : String) (statusCode : Nat) (consumerId : Option String)

/-- What leaves a route. -/
inductive AppError where
  | raised (error : PyError)
  | authentication (failure : AuthFailure)

/-- `isinstance(error, Exception)`. -/
def AppError.isException : AppError → Bool
  | .raised error => error.isException
  | .authentication _ => true

/-! ## The errors of the API -/

/-- `ApiError`, of any class. -/
structure ApiError where
  code : String
  message : String
  statusCode : Nat
  details : Option Json := none
  /-- `type(exc).__name__`. -/
  exceptionType : String

/-- The `ApiError` an exception is, if it is one. -/
def AppError.apiError : AppError → Option ApiError
  | .raised (.upstream error) =>
    some { code := "upstream_error", message := error.message, statusCode := 502
           exceptionType := "UpstreamError" }
  | .raised (.schema error) =>
    some { code := "schema_error", message := error.message, statusCode := 422
           details := error.details, exceptionType := "SchemaError" }
  | .raised (.intake error) =>
    some { code := error.code, message := error.message, statusCode := 400
           details := error.details, exceptionType := "IntakeError" }
  | .authentication (.authentication error) =>
    some { code := error.code, message := error.message, statusCode := error.statusCode
           exceptionType := "AuthenticationError" }
  | .authentication (.configuration message) =>
    some { code := "configuration_error", message := message, statusCode := 500
           exceptionType := "ConfigurationError" }
  | _ => none

/-- `build_error_envelope`. -/
def buildErrorEnvelope (code message : String) (requestId : Option String) (details : Option Json) :
    Json :=
  .obj [("error", .obj ([("code", .str code), ("message", .str message)] ++
    (details.map fun details => ("details", details)).toList ++
    (requestId.map fun requestId => ("requestId", .str requestId)).toList))]

/-! ## The application -/

/-- The application, and what it runs on. -/
structure App (ω π : Type) where
  /-- `app.state.settings`, and the service of `get_document_parsing_service`. -/
  configured : Option (ConsumerSettings × DocumentParsingService ω)
  /-- The form parser for a `Content-Type`. -/
  formParser : Option String → MultipartParser π
  fmt : JsonText.FloatText
  /-- How deep JSON may be nested in a field. -/
  depth : Nat
  /-- `str` of a `Decimal`. -/
  decimalText : ℚ → String
  /-- What rendering a `JSONResponse` raises. -/
  renderRaises : Json → Option String
  /-- `type(exc).__name__` of what is no `ApiError`. -/
  typeName : AppError → String
  /-- Whether the request is cancelled when the parse has ended already. -/
  cancelledLate : ω → Bool × ω
  /-- What `call_next` raises when the application was cancelled. -/
  cancelledAs : AppError
  /-- The answer where no route matches. -/
  elsewhere : HttpRequest → HttpResponse

/-- What a request has done so far. -/
structure Handling (ω : Type) where
  /-- What it did in the service; its events are among `lines`. -/
  session : Session ω
  reception : Reception := {}
  /-- `request.state.consumer`. -/
  consumer : Option ConsumerIdentity := none
  lines : List AppEvent := []

/-- A function that handles a request. -/
abbrev Handler (ω α : Type) := Program (Handling ω) AppError α

/-- The routes. -/
inductive Route where
  | health
  | parse
  | elsewhere
  deriving DecidableEq

def HttpRequest.route (request : HttpRequest) : Route :=
  if request.method = "GET" ∧ request.path = "/health" then .health
  else if request.method = "POST" ∧ request.path = "/v1/parse" then .parse
  else .elsewhere

/-- `_content_length`. -/
def HttpRequest.contentLength (request : HttpRequest) : Option Int :=
  request.multipart.contentLength.bind pyInt

/-- `request.headers.get("X-Request-ID") or str(uuid4())`. -/
def HttpRequest.contextId (request : HttpRequest) (uuid : String) : String :=
  match request.requestId.filter (· ≠ "") with
  | some requestId => requestId
  | none => uuid

section Handlers

variable {ω π α : Type}

/-- `log_event`. -/
def emit (event : AppEvent) : Handler ω Unit :=
  Program.step fun s => ((), { s with lines := s.lines ++ [event] })

/-- What the service does is done by the request, and its events are the request's. -/
def inService (p : Method ω α) : Handler ω α :=
  Program.zoom (fun s => { s.session with log := [] })
    (fun s session => { s with
      session := { session with log := [] }, lines := s.lines ++ session.log.map .service })
    .raised p

/-- The same for the intake of the form. -/
def inReception (p : Method Reception α) : Handler ω α :=
  Program.zoom (fun s => { world := s.reception })
    (fun s session => { s with
      reception := session.world, lines := s.lines ++ session.log.map .service })
    .raised p

/-- The same for authentication, which logs nothing. -/
def inAuth (settings : Option ConsumerSettings) (p : Program AppRequest AuthFailure α) :
    Handler ω α :=
  Program.zoom (fun s => ⟨settings, s.consumer⟩)
    (fun s request => { s with consumer := request.consumer }) .authentication p

namespace App

variable (app : App ω π)

/-- `service.parse`, under the supervisor: the outcome of the parse, unless the request
is cancelled after it. -/
def parse (service : DocumentParsingService ω) (request : ParseMultipartRequest)
    (consumerId requestId : Option String) : Method ω ParsedDocument := do
  let outcome ← Program.capture (service.runParse request consumerId requestId)
  let cancelled ← callWorld app.cancelledLate
  if cancelled then throw .cancelled else Program.ofExcept outcome

/-- `parse_document`, behind `require_consumer`. -/
def parseDocument (request : HttpRequest) (requestId : String) : Handler ω Json := do
  let _ ← inAuth (app.configured.map (·.1)) (requireConsumer request.apiKey)
  match app.configured with
  | none => throw (.authentication (.configuration "Invalid server configuration"))
  | some (_, service) =>
    let consumer ← Program.step fun s => (s.consumer, s)
    let consumerId := consumer.map (·.id)
    emit (.received request.method request.path consumerId request.contentLength)
    let parseRequest ← inReception (parseMultipartRequest app.fmt app.depth
      (app.formParser request.contentType) service.settings.maxUploadBytes request.multipart)
    let parsed ← inService (app.parse service parseRequest consumerId (some requestId))
    return parsed.response app.decimalText

/-- `JSONResponse(status_code=.., content=..)`. -/
def jsonResponse (statusCode : Nat) (content : Json) : Handler ω HttpResponse :=
  match app.renderRaises content with
  | some text => throw (.raised (.other text))
  | none => return { statusCode := statusCode, body := content }

/-- `details.get("documentType", "unknown")`. -/
def documentTypeOf (details : Option Json) : Json :=
  match details with
  | some (.obj details) => (details.lookup "documentType").getD (.str "unknown")
  | _ => .str "unknown"

/-- The event an `IntakeError` still gets in `api_error_handler`. -/
def logUnlogged (error : AppError) (requestId : String) : Handler ω Unit :=
  match error with
  | .raised (.intake error) =>
    if error.intakeEventLogged then return ()
    else emit (.rejected error.code (documentTypeOf error.details) (some requestId))
  | _ => return ()

/-- `api_error_handler`. -/
def apiErrorHandler (error : AppError) (apiError : ApiError) (requestId : String) :
    Handler ω HttpResponse := do
  logUnlogged error requestId
  emit (.failed apiError.code apiError.statusCode apiError.exceptionType (some requestId))
  app.jsonResponse apiError.statusCode
    (buildErrorEnvelope apiError.code apiError.message (some requestId) apiError.details)

/-- The routes of `create_app`. -/
def answer (request : HttpRequest) (requestId : String) : Handler ω HttpResponse :=
  match request.route with
  | .health => app.jsonResponse 200 (.obj [("status", .str "ok")])
  | .parse => do
    let content ← app.parseDocument request requestId
    app.jsonResponse 200 content
  | .elsewhere => return app.elsewhere request

/-- The application under its exception handlers. -/
def callApp (request : HttpRequest) (requestId : String) : Handler ω HttpResponse := do
  match ← Program.capture (app.answer request requestId) with
  | .ok response => return response
  | .error error =>
    match error.apiError with
    | some apiError => app.apiErrorHandler error apiError requestId
    | none => throw error

/-- `call_next`. -/
def callNext (request : HttpRequest) (requestId : String) : Handler ω HttpResponse := do
  match ← Program.capture (app.callApp request requestId) with
  | .ok response => return response
  | .error error => if error.isException then throw error else throw app.cancelledAs

/-- The inner `try` block of `dispatch`. -/
def callSafely (request : HttpRequest) (requestId : String) : Handler ω HttpResponse := do
  match ← Program.capture (app.callNext request requestId) with
  | .ok response => return response
  | .error error =>
    -- `except Exception`
    if error.isException then
      emit (.failed "internal_error" 500 (app.typeName error) none)
      return { statusCode := 500
               body := .obj [("error", .obj [("code", .str "internal_error"),
                 ("message", .str "Internal server error"), ("requestId", .str requestId)])] }
    else throw error

/-- `RequestContextMiddleware.dispatch`. -/
def dispatch (request : HttpRequest) (uuid : String) : Handler ω HttpResponse := do
  let requestId := request.contextId uuid
  let response ← app.callSafely request requestId
  let consumer ← Program.step fun s => (s.consumer, s)
  emit (.completed request.method request.path response.statusCode (consumer.map (·.id)))
  return { response with requestId := some requestId }

end App
end Handlers

/-! ## The layers of the application -/

section Layers

variable {ω π : Type} {app : App ω π} {request : HttpRequest} {requestId : String}
  {s : Handling ω} {Q : HttpResponse → Handling ω → Prop} {R R' : AppError → Handling ω → Prop}

/-- `api_error_handler` logs a rejection, or nothing, before it answers. -/
theorem logUnlogged_triple {I : Handling ω → Prop} {error : AppError} (h : I s)
    (hrejected : ∀ code documentType,
      I { s with lines := s.lines ++ [.rejected code documentType (some requestId)] }) :
    (App.logUnlogged error requestId).Triple s (fun _ s' => I s') fun _ _ => False := by
  unfold App.logUnlogged
  split
  · split
    · exact .pure h
    · exact .step (hrejected _ _)
  · exact .pure h

/-- The handlers answer an error of the API; the others leave. -/
theorem callApp_triple (h : (app.answer request requestId).Triple s Q R)
    (hhandled : ∀ error apiError s', error.apiError = some apiError → R error s' →
      (app.apiErrorHandler error apiError requestId).Triple s' Q R')
    (hleft : ∀ error s', error.apiError = none → R error s' → R' error s') :
    (app.callApp request requestId).Triple s Q R' := by
  refine h.capture_bind (fun _ _ h => .pure h) fun error s' hs => ?_
  dsimp only
  cases hapi : error.apiError with
  | some apiError => exact hhandled error apiError s' hapi hs
  | none => exact .throw (hleft error s' hapi hs)

/-- A cancellation leaves as something else. -/
theorem callNext_triple (h : (app.callApp request requestId).Triple s Q fun error s' =>
      R (if error.isException then error else app.cancelledAs) s') :
    (app.callNext request requestId).Triple s Q R := by
  refine h.capture_bind (fun _ _ h => .pure h) fun error s' hs => ?_
  dsimp only
  by_cases hexception : error.isException = true
  · rw [if_pos hexception] at hs ⊢
    exact .throw hs
  · rw [if_neg hexception] at hs ⊢
    exact .throw hs

/-- An exception becomes an internal error, which is logged. -/
theorem callSafely_triple (h : (app.callNext request requestId).Triple s Q R)
    (hfailed : ∀ error s', error.isException = true → R error s' →
      Q { statusCode := 500
          body := buildErrorEnvelope "internal_error" "Internal server error" (some requestId) none }
        { s' with lines := s'.lines ++ [.failed "internal_error" 500 (app.typeName error) none] })
    (hleft : ∀ error s', error.isException = false → R error s' → R' error s') :
    (app.callSafely request requestId).Triple s Q R' := by
  refine h.capture_bind (fun _ _ h => .pure h) fun error s' hs => ?_
  dsimp only
  split
  · next hexception =>
    refine .bind (M := fun _ t => t = _) (.step rfl) fun _ t ht => ?_
    subst ht
    exact .pure (hfailed error s' hexception hs)
  · next hexception => exact .throw (hleft error s' (by simpa using hexception) hs)

/-- The middleware adds its event and its header to the answer. -/
theorem dispatch_triple {uuid : String}
    (h : (app.callSafely request (request.contextId uuid)).Triple s
      (fun response s' => Q { response with requestId := some (request.contextId uuid) }
        { s' with lines := s'.lines ++ [.completed request.method request.path response.statusCode
          (s'.consumer.map (·.id))] }) R) :
    (app.dispatch request uuid).Triple s Q R := by
  refine h.bind fun response s' hresponse => ?_
  refine .bind (M := fun consumer t => consumer = s'.consumer ∧ t = s') (.step ⟨rfl, rfl⟩) ?_
  rintro _ _ ⟨rfl, rfl⟩
  refine .bind (M := fun _ t => t = _) (.step rfl) fun _ t ht => ?_
  subst ht
  exact .pure hresponse

end Layers

/-! ## Answered once, completed once -/

/-- The status codes that `parse_document` documents for errors, and the one it does not. -/
def errorStatuses : List Nat := [400, 401, 403, 422, 502, 500]

/-- An event of the work on a request. -/
def AppEvent.isWork : AppEvent → Bool
  | .received .. | .service _ => true
  | _ => false

def AppEvent.isCompleted : AppEvent → Bool
  | .completed .. => true
  | _ => false

/-- How the log accounts for an answer: an error in the answer is the last one in the log,
and where there is none the log has none, and what the answer says is documented. -/
inductive Accounted (request : HttpRequest) (requestId : String) :
    List AppEvent → HttpResponse → Prop
  | answered {lines : List AppEvent} {response : HttpResponse}
      (work : ∀ event ∈ lines, event.isWork = true)
      (ok : request.route = .elsewhere ∨ response.statusCode = 200 ∧
        (request.route = .parse → parseResponseSchema.accepts response.body = true)) :
      Accounted request requestId lines response
  | failed {lines : List AppEvent} {code message exceptionType : String} {statusCode : Nat}
      {details : Option Json} {named : Option String}
      (open_lines : ∀ event ∈ lines, event.isCompleted = false)
      (documented : statusCode ∈ errorStatuses) :
      Accounted request requestId (lines ++ [.failed code statusCode exceptionType named])
        { statusCode := statusCode
          body := buildErrorEnvelope code message (some requestId) details }

/-- The run went on with the work and logged nothing else. -/
def Works {ω : Type} (s s' : Handling ω) : Prop :=
  ∃ new, s'.lines = s.lines ++ new ∧ ∀ event ∈ new, event.isWork = true

/-- If this is an error of the API, its status is one of those. -/
def Documented (error : AppError) : Prop :=
  ∀ apiError, error.apiError = some apiError → apiError.statusCode ∈ errorStatuses

/-- A request on its way, before anything is done. -/
def Handling.start {ω : Type} (session : Session ω) : Handling ω where
  session := { session with log := [] }

section Answering

open Program (Confines Raises)

variable {ω π α : Type} {app : App ω π} {request : HttpRequest} {requestId : String}
  {P : AppError → Prop}

instance : Std.Refl (Works (ω := ω)) := ⟨fun _ => ⟨[], (List.append_nil _).symm, by simp⟩⟩

instance : IsTrans (Handling ω) Works := by
  refine ⟨?_⟩
  rintro s s' s'' ⟨new, hnew, hwork⟩ ⟨new', hnew', hwork'⟩
  refine ⟨new ++ new', by rw [hnew', hnew, List.append_assoc], fun event he => ?_⟩
  exact (List.mem_append.mp he).elim (hwork event) (hwork' event)

theorem isCompleted_of_isWork {event : AppEvent} (h : event.isWork = true) :
    event.isCompleted = false := by
  cases event <;> first | rfl | cases h

theorem documented_raised (error : PyError) : Documented (.raised error) := by
  intro apiError h
  cases error <;> cases h <;> simp [errorStatuses]

theorem service_isWork {log : List LogEvent} {event : AppEvent} (h : event ∈ log.map .service) :
    event.isWork = true := by
  obtain ⟨logged, -, rfl⟩ := List.mem_map.mp h
  rfl

theorem inService_works (p : Method ω α) : Confines Works Documented (inService p) := by
  intro s
  refine .zoom (.of_outcome (fun _ _ _ => ?_) fun e _ _ => ⟨?_, documented_raised e⟩)
  · exact ⟨_, rfl, fun _ => service_isWork⟩
  · exact ⟨_, rfl, fun _ => service_isWork⟩

theorem inReception_works (p : Method Reception α) :
    Confines Works Documented (inReception p : Handler ω α) := by
  intro s
  refine .zoom (.of_outcome (fun _ _ _ => ?_) fun e _ _ => ⟨?_, documented_raised e⟩)
  · exact ⟨_, rfl, fun _ => service_isWork⟩
  · exact ⟨_, rfl, fun _ => service_isWork⟩

theorem documented_authentication {failure : AuthFailure} (h : ∀ error,
    failure = .authentication error → error.statusCode = 401 ∨ error.statusCode = 403) :
    Documented (.authentication failure) := by
  intro apiError ha
  cases failure with
  | authentication error =>
    cases ha
    rcases h error rfl with hstatus | hstatus <;> simp [errorStatuses, hstatus]
  | configuration message =>
    cases ha
    simp [errorStatuses]
  | typeError => cases ha

/-- `require_consumer` refuses a caller with 401 or 403. -/
theorem requireConsumer_raises (apiKey : Option String) (authRequest : AppRequest) :
    Raises (fun failure => ∀ error, failure = .authentication error →
        error.statusCode = 401 ∨ error.statusCode = 403)
      ((requireConsumer apiKey).outcome authRequest).1 := by
  obtain ⟨settings, consumer⟩ := authRequest
  unfold requireConsumer
  cases apiKey.filter (· ≠ "") with
  | none => exact .error fun e he => by cases he; exact Or.inl rfl
  | some key =>
    cases settings with
    | none => exact .error fun e he => by cases he
    | some settings =>
      dsimp only
      rw [Program.outcome_bind, outcome_getSettings]
      dsimp only
      rw [Program.outcome_bind, Program.outcome_ofExcept]
      cases hfind : findConsumerByKey key settings.apiConsumers with
      | error e =>
        rw [findConsumerByKey_error hfind]
        exact .error fun e he => by cases he
      | ok found =>
        cases found with
        | none => exact .error fun e he => by cases he; exact Or.inl rfl
        | some found =>
          dsimp only
          by_cases hrevoked : found.revoked = true
          · rw [if_pos hrevoked]
            exact .error fun e he => by cases he; exact Or.inr rfl
          · rw [if_neg hrevoked]
            exact .ok _

theorem inAuth_works (settings : Option ConsumerSettings) (apiKey : Option String) :
    Confines Works Documented (inAuth settings (requireConsumer apiKey) : Handler ω ConsumerIdentity) := by
  intro s
  refine .zoom (.of_outcome (fun _ _ _ => ?_) fun e _ h => ⟨?_, ?_⟩)
  · exact ⟨[], (List.append_nil _).symm, by simp⟩
  · exact ⟨[], (List.append_nil _).symm, by simp⟩
  · have hraises := requireConsumer_raises apiKey ⟨settings, s.consumer⟩
    rw [h] at hraises
    exact documented_authentication (hraises e rfl)

theorem jsonResponse_eq (statusCode : Nat) (content : Json) (s : Handling ω) :
    (app.jsonResponse statusCode content).Triple s
      (fun response s' => s' = s ∧ response = { statusCode := statusCode, body := content })
      fun e s' => s' = s ∧ ∃ text, e = .raised (.other text) := by
  unfold App.jsonResponse
  split
  · next text _ => exact .throw ⟨rfl, text, rfl⟩
  · exact .pure ⟨rfl, rfl⟩

theorem parseDocument_works :
    Confines Works Documented (app.parseDocument request requestId) := by
  refine .bind (inAuth_works _ _) fun _ => ?_
  cases app.configured with
  | none => exact .throw fun a ha => by cases ha; decide
  | some configured =>
    obtain ⟨settings, service⟩ := configured
    refine .bind (.step fun s => refl_of Works s) fun consumer => ?_
    refine .bind (.step fun s => ⟨[_], rfl, ?_⟩) fun _ => ?_
    · intro event he
      rw [List.mem_singleton.mp he]
      rfl
    refine .bind (inReception_works _) fun form => ?_
    refine .bind (inService_works _) fun parsed => ?_
    exact .pure _

theorem parse_documented {service : DocumentParsingService ω} {parseRequest : ParseMultipartRequest}
    {consumerId : Option String} (s : Session ω) :
    (app.parse service parseRequest consumerId (some requestId)).Triple s
      (fun parsed _ => parseResponseSchema.accepts (parsed.response app.decimalText) = true)
      fun _ _ => True := by
  unfold App.parse
  have hcaptured : (Program.capture
      (service.runParse parseRequest consumerId (some requestId))).Triple s
      (fun outcome _ => ∀ parsed, outcome = .ok parsed →
        parseResponseSchema.accepts (parsed.response app.decimalText) = true) fun _ _ => True := by
    refine .capture ((runParse_documented app.decimalText).mono ?_ ?_)
    · rintro parsed _ h _ hp
      cases hp
      exact h
    · exact fun _ _ _ _ h => by cases h
  refine hcaptured.bind fun outcome _ h => ?_
  refine (Program.Triple.any _ _).bind fun cancelled _ _ => ?_
  split
  · exact .throw trivial
  · exact .ofExcept h fun _ _ => trivial

/-- What a parse answers with is documented. -/
theorem parseDocument_documented (s : Handling ω) :
    (app.parseDocument request requestId).Triple s
      (fun content _ => parseResponseSchema.accepts content = true) fun _ _ => True := by
  refine (Program.Triple.any _ _).bind fun _ _ _ => ?_
  cases app.configured with
  | none => exact .throw trivial
  | some configured =>
    refine (Program.Triple.any _ _).bind fun consumer _ _ => ?_
    refine (Program.Triple.any _ _).bind fun _ _ _ => ?_
    refine (Program.Triple.any _ _).bind fun form t _ => ?_
    have hparsed : (inService (app.parse configured.2 form (consumer.map (·.id))
        (some requestId))).Triple t
        (fun parsed _ => parseResponseSchema.accepts (parsed.response app.decimalText) = true)
        fun _ _ => True := .zoom (parse_documented _)
    exact hparsed.bind fun parsed _ h => .pure h

/-- A response of the routes has the status 200, and its content. -/
theorem jsonResponse_works (content : Json) (s : Handling ω) :
    (app.jsonResponse 200 content).Triple s
      (fun response s' => Works s s' ∧ response.statusCode = 200 ∧ response.body = content)
      fun e s' => Works s s' ∧ Documented e := by
  refine (jsonResponse_eq 200 content s).mono ?_ ?_
  · rintro response _ ⟨rfl, rfl⟩
    exact ⟨refl_of Works _, rfl, rfl⟩
  · rintro e _ ⟨rfl, text, rfl⟩
    exact ⟨refl_of Works _, documented_raised _⟩

theorem answer_works (s : Handling ω) : (app.answer request requestId).Triple s
    (fun response s' => Works s s' ∧ (request.route = .elsewhere ∨ response.statusCode = 200 ∧
      (request.route = .parse → parseResponseSchema.accepts response.body = true)))
    fun e s' => Works s s' ∧ Documented e := by
  unfold App.answer
  cases hroute : request.route with
  | health =>
    exact (jsonResponse_works _ s).mono
      (fun _ _ h => ⟨h.1, Or.inr ⟨h.2.1, fun h => by cases h⟩⟩) fun _ _ h => h
  | parse =>
    refine (((parseDocument_works s).and (parseDocument_documented s)).mono (fun _ _ h => h)
      fun _ _ h => h.1).bind fun content s' h => (jsonResponse_works content s').mono ?_ ?_
    · rintro response _ ⟨hworks, hstatus, rfl⟩
      exact ⟨trans_of Works h.1 hworks, Or.inr ⟨hstatus, fun _ => h.2⟩⟩
    · exact fun _ _ h' => ⟨trans_of Works h.1 h'.1, h'.2⟩
  | elsewhere => exact .pure ⟨refl_of Works s, Or.inl rfl⟩

theorem lines_of_works {session : Session ω} {s : Handling ω} (h : Works (.start session) s) :
    ∀ event ∈ s.lines, event.isWork = true := by
  obtain ⟨new, hnew, hwork⟩ := h
  rw [hnew]
  exact hwork

theorem completed_of_accounted {lines : List AppEvent} {response : HttpResponse}
    (h : Accounted request requestId lines response) :
    ∀ event ∈ lines, event.isCompleted = false := by
  cases h with
  | answered work ok => exact fun event he => isCompleted_of_isWork (work event he)
  | failed open_lines documented =>
    intro event he
    rcases List.mem_append.mp he with he | he
    · exact open_lines event he
    · rw [List.mem_singleton.mp he]
      rfl

/-- An event that is no completion may be added. -/
theorem open_append {lines : List AppEvent} {event : AppEvent}
    (h : ∀ event ∈ lines, event.isCompleted = false) (he : event.isCompleted = false) :
    ∀ event' ∈ lines ++ [event], event'.isCompleted = false := by
  intro event' hm
  rcases List.mem_append.mp hm with hm | hm
  · exact h event' hm
  · rwa [List.mem_singleton.mp hm]

theorem apiErrorHandler_accounted {error : AppError} {apiError : ApiError} {s : Handling ω}
    (hopen : ∀ event ∈ s.lines, event.isCompleted = false)
    (hstatus : apiError.statusCode ∈ errorStatuses) :
    (app.apiErrorHandler error apiError requestId).Triple s
      (fun response s' => Accounted request requestId s'.lines response)
      fun _ s' => ∀ event ∈ s'.lines, event.isCompleted = false := by
  have hlogged : (App.logUnlogged error requestId).Triple s
      (fun _ s' => ∀ event ∈ s'.lines, event.isCompleted = false) fun _ _ => False :=
    logUnlogged_triple hopen fun _ _ => open_append hopen rfl
  refine (hlogged.mono (fun _ _ h => h) fun _ _ h => h.elim).bind fun _ s' h => ?_
  refine .bind (M := fun _ t => t.lines = s'.lines ++ [.failed apiError.code apiError.statusCode
    apiError.exceptionType (some requestId)]) (.step rfl) fun _ t ht => ?_
  refine (jsonResponse_eq _ _ t).mono ?_ ?_
  · rintro response _ ⟨rfl, rfl⟩
    rw [ht]
    exact .failed h hstatus
  · rintro e _ ⟨rfl, -⟩
    rw [ht]
    exact open_append h rfl

theorem callApp_accounted (session : Session ω) :
    (app.callApp request requestId).Triple (.start session)
      (fun response s' => Accounted request requestId s'.lines response)
      fun _ s' => ∀ event ∈ s'.lines, event.isCompleted = false := by
  have hanswer : (app.answer request requestId).Triple (.start session)
      (fun response s' => Accounted request requestId s'.lines response)
      fun e s' => (∀ event ∈ s'.lines, event.isCompleted = false) ∧ Documented e :=
    (answer_works _).mono (fun _ _ h => .answered (lines_of_works h.1) h.2) fun _ _ h =>
      ⟨fun event he => isCompleted_of_isWork (lines_of_works h.1 event he), h.2⟩
  refine callApp_triple hanswer ?_ ?_
  · intro error apiError s hapi h
    exact apiErrorHandler_accounted h.1 (h.2 apiError hapi)
  · exact fun _ _ _ h => h.1

theorem callSafely_accounted (session : Session ω) :
    (app.callSafely request requestId).Triple (.start session)
      (fun response s' => Accounted request requestId s'.lines response)
      fun e s' => e.isException = false ∧ ∀ event ∈ s'.lines, event.isCompleted = false := by
  refine callSafely_triple (callNext_triple
    (R := fun _ s' => ∀ event ∈ s'.lines, event.isCompleted = false) (callApp_accounted session))
    ?_ fun _ _ hexception h => ⟨hexception, h⟩
  exact fun _ _ _ h => .failed h (by decide)

end Answering

/-- The `requestId` among the fields of an event. -/
def AppEvent.requestId : AppEvent → Option String
  | .service event => event.requestId
  | .rejected _ _ requestId => requestId
  | .failed _ _ _ requestId => requestId
  | .received .. | .completed .. => none

/-- The codes of the rejections among the events. -/
def appRejections (lines : List AppEvent) : List String :=
  lines.filterMap fun
    | .service (.intakeRejected code _) => some code
    | .rejected code _ _ => some code
    | _ => none

/-- The refusal that an error stands for. -/
def AppError.rejection : AppError → List String
  | .raised error => error.rejection
  | .authentication _ => []

/-- A refusal among these is marked as logged. -/
def AppError.Marked (error : AppError) : Prop :=
  ∀ e, error = .raised (.intake e) → e.intakeEventLogged = true

/-- The refusal that a response stands for. -/
def HttpResponse.refusal (response : HttpResponse) : List String :=
  if response.statusCode = 400 then
    match (response.body.get? "error").bind (·.get? "code") with
    | some (.str code) => [code]
    | _ => []
  else []

/-- The configured service has the intake and the extractor of the source. -/
def App.Standard {ω π : Type} (app : App ω π) : Prop :=
  ∀ settings service, app.configured = some (settings, service) →
    (∃ probes storage, service.intake = fileIntake probes storage) ∧ service.Extracts

theorem App.Standard.freshRefusals {ω π : Type} {app : App ω π} (happ : app.Standard)
    {settings : ConsumerSettings} {service : DocumentParsingService ω}
    (h : app.configured = some (settings, service)) : service.FreshRefusals := by
  obtain ⟨⟨probes, storage, hintake⟩, hextract⟩ := happ settings service h
  exact InternumCore.freshRefusals hintake hextract

/-- Nothing was received or done. -/
structure Untouched {ω : Type} (session : Session ω) (s : Handling ω) : Prop where
  session : s.session = { session with log := [] }
  reception : s.reception = {}

/-- The request came with the key of a consumer that is not revoked, and what was charged
was charged to that consumer and this request. -/
structure Admitted {ω π : Type} (app : App ω π) (request : HttpRequest) (requestId : String)
    (session : Session ω) (s : Handling ω) : Prop where
  route : request.route = .parse
  consumer : ∃ settings service key c, app.configured = some (settings, service) ∧
    request.apiKey = some key ∧ findConsumerByKey key settings.apiConsumers = .ok (some c) ∧
    c.revoked = false ∧ s.consumer = some ⟨c.id⟩
  charged : ChargedTo (s.consumer.map (·.id)) (some requestId) session s.session

/-- How far a request has come: these rejections are logged, no event names another
request, and nothing was done unless it was admitted. -/
structure Progress {ω π : Type} (app : App ω π) (request : HttpRequest) (requestId : String)
    (session : Session ω) (rejected : List String) (s : Handling ω) : Prop where
  rejected_eq : appRejections s.lines = rejected
  named : ∀ event ∈ s.lines, event.requestId = none ∨ event.requestId = some requestId
  admitted : Untouched session s ∨ Admitted app request requestId session s

/-- The status of an error of the API tells whether it is a refusal. -/
def AppError.Tells (error : AppError) : Prop :=
  ∀ apiError, error.apiError = some apiError →
    error.rejection = if apiError.statusCode = 400 then [apiError.code] else []

/-- An error that leaves: a refusal was logged and marked, and where the request was broken
off it is no error of the API. -/
def Refused {ω π : Type} (app : App ω π) (request : HttpRequest) (requestId : String)
    (session : Session ω) (error : AppError) (s : Handling ω) : Prop :=
  Progress app request requestId session error.rejection s ∧ error.Marked ∧ error.Tells ∨
    error.apiError = none ∧
      ∃ rejected, rejected.length ≤ 1 ∧ Progress app request requestId session rejected s

/-- A request that is done with: at most one rejection is logged. -/
def DoneWith {ω π : Type} (app : App ω π) (request : HttpRequest) (requestId : String)
    (session : Session ω) (s : Handling ω) : Prop :=
  ∃ rejected, rejected.length ≤ 1 ∧ Progress app request requestId session rejected s

/-- A request that is done with and answered: the rejection is that of the answer, unless
the answer is an internal error or not the application's own. -/
def AnsweredWith {ω π : Type} (app : App ω π) (request : HttpRequest) (requestId : String)
    (session : Session ω) (response : HttpResponse) (s : Handling ω) : Prop :=
  ∃ rejected, rejected.length ≤ 1 ∧ Progress app request requestId session rejected s ∧
    (request.route ≠ .elsewhere → response.statusCode ≠ 500 → rejected = response.refusal)

section Progressing

open Program (Confines)

variable {ω π α : Type} {app : App ω π} {request : HttpRequest} {requestId : String}
  {session : Session ω} {rejected rejected' : List String} {s s' : Handling ω}

theorem appRejections_append (lines lines' : List AppEvent) :
    appRejections (lines ++ lines') = appRejections lines ++ appRejections lines' :=
  List.filterMap_append

theorem appRejections_service (log : List LogEvent) :
    appRejections (log.map .service) = rejections log := by
  rw [appRejections, rejections, List.filterMap_map]
  congr 1
  funext event
  cases event <;> rfl

/-- One more event. -/
theorem Progress.emit (event : AppEvent) (h : Progress app request requestId session rejected s)
    (hnamed : event.requestId = none ∨ event.requestId = some requestId) :
    Progress app request requestId session (rejected ++ appRejections [event])
      { s with lines := s.lines ++ [event] } := by
  refine ⟨?_, fun event' he => ?_, ?_⟩
  · show appRejections (s.lines ++ [event]) = _
    rw [appRejections_append, h.rejected_eq]
  · rcases List.mem_append.mp he with he | he
    · exact h.named event' he
    · rwa [List.mem_singleton.mp he]
  · exact h.admitted.imp (fun h => ⟨h.session, h.reception⟩) fun h => ⟨h.route, h.consumer, h.charged⟩

/-- The events of the service. -/
theorem Progress.logs {ω' : Type} {t t' : Session ω'}
    (h : Progress app request requestId session [] s)
    (hlogs : Logs (some requestId) rejected t t') (ht : t.log = [])
    (hlines : s'.lines = s.lines ++ t'.log.map .service)
    (hadmitted : Admitted app request requestId session s') :
    Progress app request requestId session rejected s' := by
  obtain ⟨new, hnew, hrejected, hnamed⟩ := hlogs
  rw [ht, List.nil_append] at hnew
  refine ⟨?_, fun event he => ?_, Or.inr hadmitted⟩
  · rw [hlines, appRejections_append, h.rejected_eq, appRejections_service, hnew, hrejected,
      List.nil_append]
  · rw [hlines] at he
    rcases List.mem_append.mp he with he | he
    · exact h.named event he
    · obtain ⟨logged, hlogged, rfl⟩ := List.mem_map.mp he
      exact hnamed logged (hnew ▸ hlogged)

/-- A consumer that is let in has presented its key. -/
theorem requireConsumer_admits {settings : Option ConsumerSettings} {apiKey : Option String}
    {identity : ConsumerIdentity} {authRequest : AppRequest}
    (h : (requireConsumer apiKey).outcome ⟨settings, none⟩ = (.ok identity, authRequest)) :
    ∃ found key c, settings = some found ∧ apiKey = some key ∧
      findConsumerByKey key found.apiConsumers = .ok (some c) ∧ c.revoked = false ∧
      authRequest.consumer = some ⟨c.id⟩ := by
  cases hkey : apiKey.filter (· ≠ "") with
  | none =>
    unfold requireConsumer at h
    rw [hkey] at h
    cases h
  | some key =>
    obtain ⟨rfl, hne⟩ := Option.filter_eq_some_iff.mp hkey
    cases settings with
    | none =>
      unfold requireConsumer at h
      rw [hkey] at h
      cases h
    | some found =>
      obtain ⟨c, hfind, hrevoked, rfl, rfl⟩ := (requireConsumer_eq_ok_iff (by simpa using hne)).mp h
      exact ⟨found, key, c, rfl, rfl, hfind, hrevoked, rfl⟩

theorem closeFiles_attributed {consumerId requestId : Option String} (uploads : List UploadFile) :
    Confines (Attributed consumerId requestId) NoIntake (closeFiles uploads) := by
  induction uploads with
  | nil => exact .pure ()
  | cons upload rest ih =>
    exact .bind (.bind (.step fun _ => attributed_of_eq rfl rfl) fun _ => raising_attributed _)
      fun _ => ih

/-- **The form of a request**: what it is refused for is logged. -/
theorem parseMultipartRequest_reported {consumerId requestId : Option String}
    (fmt : JsonText.FloatText) (depth : Nat) (parser : MultipartParser π) (maxUploadBytes : Nat)
    (request : MultipartRequest) (t : Session Reception) :
    (parseMultipartRequest fmt depth parser maxUploadBytes request).Triple t
      (fun _ t' => Attributed consumerId requestId t t')
      fun e t' => EndsReported consumerId requestId t t' e := by
  unfold parseMultipartRequest
  cases hsize : rejectOversizedBody request.contentLength maxUploadBytes with
  | error error => exact reject_reported (rejectOversizedBody_raises _ _ _ hsize) _ t
  | ok =>
    obtain ⟨fed, hparsed, -, -⟩ :=
      @outcome_parseLimitedMultipartForm π maxUploadBytes parser request.body t
    have hfed : Attributed consumerId requestId t (fedMore t fed) := attributed_of_eq rfl rfl
    dsimp only
    rw [Program.Triple, Program.outcome_bind_ok hparsed, ← Program.Triple]
    split
    · exact (reject_reported rfl _ _).mono (fun _ _ h => hfed.trans h) fun _ _ h => hfed.reported h
    · exact .throw ((noIntake_interruption _).reported hfed)
    · next form _ =>
      -- the files are closed first, and what that raises is no refusal
      have hclosed {raise : Method Reception ParseMultipartRequest}
          (hraise : ∀ t', raise.Triple t' (fun _ t'' => Attributed consumerId requestId t' t'')
            fun e t'' => EndsReported consumerId requestId t' t'' e) :
          (do closeFiles (FormData.files form); raise).Triple (fedMore t fed)
            (fun _ t' => Attributed consumerId requestId t t')
            fun e t' => EndsReported consumerId requestId t t' e := by
        refine ((closeFiles_attributed _ _).mono (fun _ t' h => hfed.trans h) fun e t' h =>
          h.2.reported (hfed.trans h.1)).bind fun _ t' h => ?_
        exact (hraise t').mono (fun _ _ h' => h.trans h') fun _ _ h' => h.reported h'
      split
      · exact .pure hfed
      · next error hextract =>
        exact hclosed fun t' => reject_reported (extractRequest_raises _ hextract _ rfl) _ t'
      · next error hother _ =>
        exact hclosed fun t' => .throw (NoIntake.reported (fun e he => hother e he) (.refl t'))

theorem parse_reported {service : DocumentParsingService ω} {consumerId requestId : Option String}
    (hservice : service.FreshRefusals) (parseRequest : ParseMultipartRequest) (t : Session ω) :
    (app.parse service parseRequest consumerId requestId).Triple t
      (fun _ t' => Attributed consumerId requestId t t')
      fun e t' => EndsReported consumerId requestId t t' e ∨
        Interrupted consumerId requestId t t' ∧ ∃ interruption : Interruption,
          e = interruption.toError := by
  unfold App.parse
  refine (Program.Triple.capture (Q := fun outcome t' => match outcome with
    | .ok _ => Attributed consumerId requestId t t'
    | .error e => EndsReportedOrClosing parseRequest.upload consumerId requestId t t' e)
    (runParse_reported hservice parseRequest consumerId requestId t)).bind fun outcome t' h => ?_
  -- the supervisor may cancel a run that has ended, however it has ended
  have hinterrupted : Interrupted consumerId requestId t t' := by
    rcases outcome with e | parsed
    · exact h.elim (·.interrupted) (·.1)
    · exact h.interrupted
  refine .bind (M := fun _ t'' => t''.log = t'.log ∧ t''.records = t'.records)
    (.step ⟨rfl, rfl⟩) fun cancelled t'' hsame => ?_
  have hstep : Attributed consumerId requestId t' t'' := attributed_of_eq hsame.1 hsame.2
  split
  · exact .throw (Or.inr ⟨hinterrupted.trans hstep, .cancelled, rfl⟩)
  · cases outcome with
    | ok parsed => exact .ofExcept (fun _ _ => h.trans hstep) fun e he => by cases he
    | error e =>
      refine .ofExcept (fun _ he => by cases he) fun e' he => ?_
      cases he
      rcases h with hreported | ⟨-, interruption, -, rfl⟩
      · refine Or.inl ⟨?_, hreported.marked, hreported.charged.trans hstep.charged⟩
        rw [← List.append_nil e.rejection]
        exact hreported.logged.trans hstep.logged
      · exact Or.inr ⟨hinterrupted.trans hstep, interruption, rfl⟩

theorem tells_raised (error : PyError) : (AppError.raised error).Tells := by
  intro apiError h
  cases error <;> cases h <;> rfl

theorem tells_authentication {failure : AuthFailure} (h : ∀ error,
    failure = .authentication error → error.statusCode = 401 ∨ error.statusCode = 403) :
    (AppError.authentication failure).Tells := by
  intro apiError ha
  cases failure with
  | authentication error =>
    cases ha
    rcases h error rfl with hstatus | hstatus <;> simp [AppError.rejection, hstatus]
  | configuration message =>
    cases ha
    rfl
  | typeError => cases ha

theorem marked_raised {error : PyError} (h : ∀ e, error = .intake e → e.intakeEventLogged = true) :
    (AppError.raised error).Marked := fun e he => h e (by cases he; rfl)

theorem apiError_interruption (interruption : Interruption) :
    (AppError.raised interruption.toError).apiError = none := by
  cases interruption <;> rfl

/-- **The work on a request**, up to the response or the error that leaves it. -/
theorem parseDocument_progress (happ : app.Standard) (hroute : request.route = .parse) :
    (app.parseDocument request requestId).Triple (.start session)
      (fun _ s' => Progress app request requestId session [] s')
      fun e s' => Refused app request requestId session e s' := by
  -- authentication, which the rest depends on
  refine .bind (M := fun _ s => ∃ settings service key c, app.configured = some (settings, service) ∧
    request.apiKey = some key ∧ findConsumerByKey key settings.apiConsumers = .ok (some c) ∧
    c.revoked = false ∧ s = { Handling.start session with consumer := some ⟨c.id⟩ })
    (.zoom (.of_outcome ?_ ?_)) ?_
  · intro identity authRequest h
    obtain ⟨settings, key, c, hsettings, hkey, hfind, hrevoked, hconsumer⟩ :=
      requireConsumer_admits h
    obtain ⟨⟨found, service⟩, hconfigured, hfound⟩ := Option.map_eq_some_iff.mp hsettings
    obtain rfl : found = settings := hfound
    exact ⟨found, service, key, c, hconfigured, hkey, hfind, hrevoked, by rw [hconsumer]⟩
  · intro failure authRequest h
    have hraises := requireConsumer_raises request.apiKey
      ⟨app.configured.map (·.1), (Handling.start session).consumer⟩
    rw [h] at hraises
    exact Or.inl ⟨⟨rfl, fun _ he => absurd he List.not_mem_nil, Or.inl ⟨rfl, rfl⟩⟩,
      fun _ he => by injection he, tells_authentication (hraises failure rfl)⟩
  rintro _ s₁ ⟨settings, service, key, c, hconfigured, hkey, hfind, hrevoked, rfl⟩
  have hadmitted {s' : Handling ω} (hconsumer : s'.consumer = some ⟨c.id⟩)
      (hcharged : ChargedTo (some c.id) (some requestId) session s'.session) :
      Admitted app request requestId session s' :=
    ⟨hroute, ⟨settings, service, key, c, hconfigured, hkey, hfind, hrevoked, hconsumer⟩, by
      rwa [hconsumer]⟩
  rw [hconfigured]
  refine .bind (M := fun consumer s => consumer = some ⟨c.id⟩ ∧
    s = { Handling.start session with consumer := some ⟨c.id⟩ }) (.step ⟨rfl, rfl⟩) ?_
  rintro _ _ ⟨rfl, rfl⟩
  -- `request.received`
  refine .bind (M := fun _ s => Progress app request requestId session [] s ∧
    s.consumer = some ⟨c.id⟩ ∧ s.session.records = session.records) ?_ fun _ s₂ h₂ => ?_
  · have hstart : Progress app request requestId session []
        { Handling.start session with consumer := some ⟨c.id⟩ } :=
      ⟨rfl, fun _ he => absurd he List.not_mem_nil, Or.inl ⟨rfl, rfl⟩⟩
    exact .step ⟨hstart.emit (.received _ _ _ _) (Or.inl rfl), rfl, rfl⟩
  obtain ⟨hprogress₂, hconsumer₂, hrecords₂⟩ := h₂
  -- the form: up to here nobody is charged
  refine .bind (M := fun _ s => Progress app request requestId session [] s ∧
    s.consumer = some ⟨c.id⟩ ∧ s.session.records = session.records)
    (.zoom ((@parseMultipartRequest_reported π none (some requestId) _ _ _ _ _
      { world := s₂.reception }).mono ?_ ?_)) fun form s₃ h₃ => ?_
  · intro form t h
    exact ⟨hprogress₂.logs h.logged rfl rfl (hadmitted hconsumer₂ (.of_eq hrecords₂)), hconsumer₂,
      hrecords₂⟩
  · intro e t h
    exact Or.inl ⟨hprogress₂.logs h.logged rfl rfl (hadmitted hconsumer₂ (.of_eq hrecords₂)),
      marked_raised h.marked, tells_raised e⟩
  obtain ⟨hprogress₃, hconsumer₃, hrecords₃⟩ := h₃
  -- the parse, with all that is charged
  have hcharged {t : Session ω}
      (h : ChargedTo (some c.id) (some requestId) { s₃.session with log := [] } t) :
      ChargedTo (some c.id) (some requestId) session { t with log := [] } := by
    obtain ⟨new, hnew, hnamed⟩ := h
    exact ⟨new, by rw [← hrecords₃]; exact hnew, hnamed⟩
  refine .bind (M := fun _ s => Progress app request requestId session [] s)
    (.zoom ((@parse_reported ω π app service (some c.id) (some requestId) (happ.freshRefusals hconfigured)
      form _).mono ?_ ?_)) fun parsed s₄ h₄ => .pure h₄
  · intro parsed t h
    exact hprogress₃.logs h.logged rfl rfl (hadmitted hconsumer₃ (hcharged h.charged))
  · rintro e t (h | ⟨h, interruption, rfl⟩)
    · exact Or.inl ⟨hprogress₃.logs h.logged rfl rfl (hadmitted hconsumer₃ (hcharged h.charged)),
        marked_raised h.marked, tells_raised e⟩
    -- an interruption that follows a rejection: the client is not told the reason
    · obtain ⟨rejected, hlength, hlogged⟩ := h.logged
      exact Or.inr ⟨apiError_interruption interruption, rejected, hlength,
        hprogress₃.logs hlogged rfl rfl (hadmitted hconsumer₃ (hcharged h.charged))⟩

/-- The error is told to the client as it was logged. -/
theorem apiErrorHandler_progress {error : AppError} {apiError : ApiError}
    (hprogress : Progress app request requestId session error.rejection s)
    (hmarked : error.Marked) (htells : error.Tells) (hapi : error.apiError = some apiError) :
    (app.apiErrorHandler error apiError requestId).Triple s
      (fun response s' => Progress app request requestId session response.refusal s')
      fun _ s' => Progress app request requestId session error.rejection s' := by
  have hquiet : (App.logUnlogged error requestId).outcome s = (.ok (), s) := by
    unfold App.logUnlogged
    split
    · next intakeError => rw [hmarked _ rfl]; rfl
    · rfl
  rw [Program.Triple, App.apiErrorHandler, Program.outcome_bind_ok hquiet, ← Program.Triple]
  refine .bind (M := fun _ s => Progress app request requestId session error.rejection s) ?_
    fun _ t ht => (jsonResponse_eq _ _ t).mono ?_ ?_
  · have hfailed := hprogress.emit (.failed apiError.code apiError.statusCode
      apiError.exceptionType (some requestId)) (Or.inr rfl)
    exact .step (List.append_nil error.rejection ▸ hfailed)
  · rintro response _ ⟨rfl, rfl⟩
    rw [htells apiError hapi] at ht
    exact ht
  · rintro e _ ⟨rfl, -⟩
    exact ht

theorem refusal_of_ok {response : HttpResponse} (h : response.statusCode = 200) :
    response.refusal = [] := by
  rw [HttpResponse.refusal, h]
  rfl

theorem length_refusal_le (response : HttpResponse) : response.refusal.length ≤ 1 := by
  unfold HttpResponse.refusal
  split
  · split <;> simp
  · simp

theorem length_rejection_le (error : AppError) : error.rejection.length ≤ 1 := by
  cases error with
  | raised error => cases error <;> simp [AppError.rejection, PyError.rejection]
  | authentication failure => simp [AppError.rejection]

/-- A response of the routes is no refusal. -/
theorem jsonResponse_progress (content : Json)
    (h : Progress app request requestId session [] s) :
    (app.jsonResponse 200 content).Triple s
      (fun response s' => AnsweredWith app request requestId session response s')
      fun e s' => Refused app request requestId session e s' := by
  refine (jsonResponse_eq 200 content s).mono ?_ ?_
  · rintro response _ ⟨rfl, rfl⟩
    exact ⟨[], Nat.zero_le 1, h, fun _ _ => (refusal_of_ok rfl).symm⟩
  · rintro e _ ⟨rfl, text, rfl⟩
    exact Or.inl ⟨h, marked_raised fun e he => by injection he, tells_raised _⟩

theorem answer_progress (happ : app.Standard) :
    (app.answer request requestId).Triple (.start session)
      (fun response s' => AnsweredWith app request requestId session response s')
      fun e s' => Refused app request requestId session e s' := by
  have hstart : Progress app request requestId session [] (.start session) :=
    ⟨rfl, fun _ he => absurd he List.not_mem_nil, Or.inl ⟨rfl, rfl⟩⟩
  unfold App.answer
  split
  · exact jsonResponse_progress _ hstart
  · next hroute =>
    exact (parseDocument_progress happ hroute).bind fun content s' h => jsonResponse_progress content h
  · next hroute => exact .pure ⟨[], Nat.zero_le 1, hstart, fun h => absurd hroute h⟩

theorem doneWith_of_refused {error : AppError}
    (h : Refused app request requestId session error s) : DoneWith app request requestId session s := by
  rcases h with ⟨hprogress, -, -⟩ | ⟨-, hdone⟩
  · exact ⟨_, length_rejection_le error, hprogress⟩
  · exact hdone

theorem callApp_progress (happ : app.Standard) :
    (app.callApp request requestId).Triple (.start session)
      (fun response s' => AnsweredWith app request requestId session response s')
      fun _ s' => DoneWith app request requestId session s' := by
  refine callApp_triple (answer_progress happ) ?_ fun _ _ _ h => doneWith_of_refused h
  intro e apiError s' hapi h
  rcases h with ⟨hprogress, hmarked, htells⟩ | ⟨hnone, -⟩
  · refine (apiErrorHandler_progress hprogress hmarked htells hapi).mono ?_ ?_
    · exact fun response t h => ⟨_, length_refusal_le response, h, fun _ _ => rfl⟩
    · exact fun _ t h => ⟨_, length_rejection_le e, h⟩
  · rw [hapi] at hnone
    cases hnone

theorem callSafely_progress (happ : app.Standard) :
    (app.callSafely request requestId).Triple (.start session)
      (fun response s' => AnsweredWith app request requestId session response s')
      fun _ s' => DoneWith app request requestId session s' := by
  refine callSafely_triple (callNext_triple
    (R := fun _ s' => DoneWith app request requestId session s') (callApp_progress happ))
    ?_ fun _ _ _ h => h
  rintro e s' - ⟨rejected, hlength, hprogress⟩
  have hfailed := hprogress.emit (.failed "internal_error" 500 (app.typeName e) none) (Or.inl rfl)
  -- an internal error refuses nothing, whatever was rejected before it
  exact ⟨rejected, hlength, List.append_nil rejected ▸ hfailed, fun _ h => absurd rfl h⟩

/-- **Every request is settled**, whether it is answered or cancelled. -/
theorem dispatch_progress (happ : app.Standard) (uuid : String) :
    (app.dispatch request uuid).Triple (.start session)
      (fun response s' => AnsweredWith app request (request.contextId uuid) session response s')
      fun _ s' => DoneWith app request (request.contextId uuid) session s' := by
  refine dispatch_triple ((callSafely_progress happ).mono ?_ fun _ _ h => h)
  rintro response s ⟨rejected, hlength, hprogress, hrefusal⟩
  have hcompleted := hprogress.emit (.completed request.method request.path response.statusCode
    (s.consumer.map (·.id))) (Or.inl rfl)
  exact ⟨rejected, hlength, List.append_nil rejected ▸ hcompleted, hrefusal⟩

end Progressing

/-- **Refusals are reported.**  A request has at most one rejection in the log.  If one of
the application's routes has answered, and not with an internal error, there is one exactly
if the answer is 400, under the code in the answer. -/
theorem refusals_reported {ω π : Type} (app : App ω π) (happ : app.Standard)
    (request : HttpRequest) (uuid : String) (session : Session ω) :
    (app.dispatch request uuid).Triple (.start session)
      (fun response s' => (appRejections s'.lines).length ≤ 1 ∧
        (request.route ≠ .elsewhere → response.statusCode ≠ 500 →
          appRejections s'.lines = response.refusal))
      (fun _ s' => (appRejections s'.lines).length ≤ 1) := by
  refine (dispatch_progress happ uuid).mono ?_ ?_
  · rintro response s' ⟨rejected, hlength, hprogress, hrefusal⟩
    rw [hprogress.rejected_eq]
    exact ⟨hlength, hrefusal⟩
  · rintro e s' ⟨rejected, hlength, hprogress⟩
    rw [hprogress.rejected_eq]
    exact hlength

/-- **Nobody works for strangers.**  However a request ends: nothing of its body was read,
no file was made, no model was asked and nobody was charged, or it came to the one route
that works, with the key of a consumer that is not revoked, and every charge is to that
consumer and to this request. -/
theorem work_is_admitted {ω π : Type} (app : App ω π) (happ : app.Standard)
    (request : HttpRequest) (uuid : String) (session : Session ω) :
    (app.dispatch request uuid).Triple (.start session)
      (fun _ s' => Untouched session s' ∨
        Admitted app request (request.contextId uuid) session s')
      (fun _ s' => Untouched session s' ∨
        Admitted app request (request.contextId uuid) session s') :=
  (dispatch_progress happ uuid).mono (fun _ _ ⟨_, _, hprogress, _⟩ => hprogress.admitted)
    fun _ _ ⟨_, _, hprogress⟩ => hprogress.admitted

/-! ## An application -/

/-- MarkItDown, which reads the same in every document, and no LibreOffice. -/
def readingHost : Host where
  pathOf _ := ["tmp", "upload"]
  isExecutable _ := true
  which := some
  tempDir := ["tmp"]
  candidates := []
  libreOffice := .fileNotFound
  leftBehind := .bare
  convertLocal := .ok (some "report")

/-- The sample service, with an extractor on this host. -/
def readingService : DocumentParsingService Nat :=
  { sampleService wavering with
    intake := fileIntake plainProbes {}
    extract := fun stored _ w =>
      (((MarkItDownExtractor.extract ⟨{}, readingHost⟩ stored).outcome { disk := .bare }).1, w) }

/-- The application over this service, where every body is this form. -/
def sampleApp (form : FormData) : App Nat Unit where
  configured := some (sharedKeySettings, readingService)
  formParser _ := { start := .ok (), write := fun _ _ => .ok (), finish := fun _ => .ok form }
  fmt := JsonText.wholeFloats
  depth := 5
  decimalText _ := "0"
  renderRaises _ := none
  typeName _ := "Exception"
  cancelledLate w := (false, w)
  cancelledAs := .raised .cancelled
  elsewhere _ := { statusCode := 404, body := .obj [("detail", .str "Not Found")] }

theorem sampleApp_standard (form : FormData) : (sampleApp form).Standard := by
  rintro settings service h
  cases h
  refine ⟨⟨plainProbes, {}, rfl⟩, fun stored _ _ => ⟨⟨{}, readingHost⟩, { disk := .bare }, ?_, rfl⟩⟩
  exact fun e he => by cases he

/-- A request with the key of a consumer, or with another one. -/
def sampleHttp (apiKey : String) : HttpRequest where
  method := "POST"
  path := "/v1/parse"
  apiKey := some apiKey
  multipart := { contentLength := none, body := [] }

/-- A form with a file that nothing is known about. -/
def oddForm : FormData :=
  [("file", .file { filename := some "odd.bin", contentType := none, reads := [.chunk [0] none] }),
    ("schema", .text "\x7b\x7d")]

/-- It is refused, and one rejection is logged. -/
theorem odd_file_reported :
    ((sampleApp oddForm).dispatch (sampleHttp "shared") "u").Triple (.start { world := 0 })
      (fun response s' => (appRejections s'.lines).length ≤ 1 ∧
        ((sampleHttp "shared").route ≠ .elsewhere → response.statusCode ≠ 500 →
          appRejections s'.lines = response.refusal))
      (fun _ s' => (appRejections s'.lines).length ≤ 1) :=
  refusals_reported (sampleApp oddForm) (sampleApp_standard oddForm) (sampleHttp "shared") "u"
    { world := 0 }

example : (((sampleApp oddForm).dispatch (sampleHttp "shared") "u").outcome
    (.start { world := 0 })).1.toOption.map (fun response => (response.statusCode, response.refusal)) =
      some (400, ["unsupported_file_type"]) := by
  decide +kernel

/-- A caller with a key that nobody has leaves nothing. -/
theorem stranger_untouched :
    ((sampleApp oddForm).dispatch (sampleHttp "unknown") "u").Triple (.start { world := 0 })
      (fun _ s' => Untouched { world := 0 } s' ∨ Admitted (sampleApp oddForm) (sampleHttp "unknown")
        ((sampleHttp "unknown").contextId "u") { world := 0 } s')
      (fun _ s' => Untouched { world := 0 } s' ∨ Admitted (sampleApp oddForm) (sampleHttp "unknown")
        ((sampleHttp "unknown").contextId "u") { world := 0 } s') :=
  work_is_admitted (sampleApp oddForm) (sampleApp_standard oddForm) (sampleHttp "unknown") "u"
    { world := 0 }

end InternumCore
