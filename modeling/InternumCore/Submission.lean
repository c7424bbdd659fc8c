import InternumCore.RequestPipeline

/-!
# From a submission to its answer

What a client sees of the service: it submits a document with a schema and is answered
with what a run of the service has come to.

`respond` is the answer to an outcome, `supervised` the outcome of a run that may be
cancelled.  `dispatch_responds` says that the layers around the application, each of which
catches something, come to `respond`; `submission_answered` adds the way in:
authentication, the multipart form and the JSON in its fields.
-/

namespace InternumCore

/-! ## What an outcome is answered with -/

section Respond

variable {ω π : Type}

/-- The answer to an exception that nothing handles. -/
def internalError (requestId : String) : HttpResponse where
  statusCode := 500
  body := buildErrorEnvelope "internal_error" "Internal server error" (some requestId) none
  requestId := some requestId

/-- A response with this content, if it can be rendered. -/
def App.rendered (app : App ω π) (requestId : String) (statusCode : Nat) (content : Json) :
    HttpResponse :=
  if app.renderRaises content = none then
    { statusCode := statusCode, body := content, requestId := some requestId }
  else internalError requestId

/-- The answer to what `parse_document` returned or raised: its result, its error if it is
one of the API, and else an internal error.  An application that was cancelled may end
without an answer. -/
def App.respond (app : App ω π) (requestId : String) :
    Except AppError Json → Except AppError HttpResponse
  | .ok content => .ok (app.rendered requestId 200 content)
  | .error error =>
    match error.apiError with
    | some apiError =>
      .ok (app.rendered requestId apiError.statusCode (buildErrorEnvelope apiError.code
        apiError.message (some requestId) apiError.details))
    | none =>
      let left := if error.isException then error else app.cancelledAs
      if left.isException then .ok (internalError requestId) else .error left

variable {app : App ω π} {request : HttpRequest} {requestId : String} {s : Handling ω}

/-- What leaves the application is an internal error, unless it cancels the request. -/
theorem respond_of_none {error : AppError} (h : error.apiError = none) :
    app.respond requestId (.error error) =
      if (if error.isException then error else app.cancelledAs).isException then
        .ok (internalError requestId)
      else .error (if error.isException then error else app.cancelledAs) := by
  rw [App.respond, h]

/-- A response before the middleware names the request, and what was done for it. -/
def Answers (app : App ω π) (requestId : String) (outcome : Except AppError Json × Handling ω)
    (response : HttpResponse) (s' : Handling ω) : Prop :=
  app.respond requestId outcome.1 = .ok { response with requestId := some requestId } ∧
    s'.session = outcome.2.session

/-- An exception on its way out, to which the answer is an internal error, or none. -/
def Leaves (app : App ω π) (requestId : String) (outcome : Except AppError Json × Handling ω)
    (left : AppError) (s' : Handling ω) : Prop :=
  (app.respond requestId outcome.1 =
    if left.isException then .ok (internalError requestId) else .error left) ∧
      s'.session = outcome.2.session

variable {outcome : Except AppError Json × Handling ω}

/-- What rendering raises is no error of the API, and leaves. -/
theorem jsonResponse_answers {statusCode : Nat} {content : Json}
    (h : app.respond requestId outcome.1 = .ok (app.rendered requestId statusCode content))
    (hs : s.session = outcome.2.session) :
    (app.jsonResponse statusCode content).Triple s
      (fun response s' => Answers app requestId outcome response s')
      fun left s' => left.apiError = none ∧ left.isException = true ∧
        Leaves app requestId outcome left s' := by
  unfold App.rendered at h
  unfold App.jsonResponse
  cases hraises : app.renderRaises content with
  | none =>
    rw [hraises, if_pos rfl] at h
    exact .pure ⟨h, hs⟩
  | some text =>
    rw [hraises, if_neg (by simp)] at h
    exact .throw ⟨rfl, rfl, h, hs⟩

/-- What leaves a route: what `parse_document` raised, or what rendering its result did. -/
theorem answer_answers (hroute : request.route = .parse)
    (h : (app.parseDocument request requestId).outcome s = outcome) :
    (app.answer request requestId).Triple s
      (fun response s' => Answers app requestId outcome response s')
      fun error s' => (outcome.1 = .error error ∧ s'.session = outcome.2.session) ∨
        error.apiError = none ∧ error.isException = true ∧
          Leaves app requestId outcome error s' := by
  unfold App.answer
  rw [hroute]
  refine .bind (M := fun content s' => outcome = (.ok content, s')) ?_ fun content s' hok => ?_
  · refine .of_outcome (fun _ _ hdone => h.symm.trans hdone) fun error s' hdone => Or.inl ?_
    rw [h.symm.trans hdone]
    exact ⟨rfl, rfl⟩
  · have hrespond : app.respond requestId outcome.1 = .ok (app.rendered requestId 200 content) := by
      rw [hok, App.respond]
    have hsession : s'.session = outcome.2.session := by rw [hok]
    exact (jsonResponse_answers hrespond hsession).mono (fun _ _ h => h) fun _ _ h => Or.inr h

theorem apiErrorHandler_answers {error : AppError} {apiError : ApiError}
    (houtcome : outcome.1 = .error error) (hapi : error.apiError = some apiError)
    (hs : s.session = outcome.2.session) :
    (app.apiErrorHandler error apiError requestId).Triple s
      (fun response s' => Answers app requestId outcome response s')
      fun left s' => left.isException = true ∧ Leaves app requestId outcome left s' := by
  have hlogged : (App.logUnlogged error requestId).Triple s
      (fun _ s' => s'.session = outcome.2.session) fun _ _ => False :=
    logUnlogged_triple hs fun _ _ => hs
  refine (hlogged.mono (fun _ _ h => h) fun _ _ h => h.elim).bind fun _ s' h => ?_
  refine .bind (M := fun _ t => t.session = outcome.2.session) (.step h) fun _ t ht => ?_
  refine (jsonResponse_answers ?_ ht).mono (fun _ _ h => h) fun _ _ h => h.2
  rw [houtcome, App.respond, hapi]

/-- The handlers answer an error of the API; the others leave. -/
theorem callApp_answers (hroute : request.route = .parse)
    (h : (app.parseDocument request requestId).outcome s = outcome) :
    (app.callApp request requestId).Triple s
      (fun response s' => Answers app requestId outcome response s')
      fun error s' => Leaves app requestId outcome
        (if error.isException then error else app.cancelledAs) s' := by
  refine callApp_triple (answer_answers hroute h) ?_ ?_
  · intro error apiError s' hapi hs
    rcases hs with ⟨herror, hsession⟩ | ⟨hnone, -, -⟩
    · refine (apiErrorHandler_answers herror hapi hsession).mono (fun _ _ h => h) ?_
      rintro left s'' ⟨hexception, hleaves⟩
      rwa [if_pos hexception]
    · rw [hapi] at hnone
      cases hnone
  · intro error s' hapi hs
    rcases hs with ⟨herror, hsession⟩ | ⟨-, hexception, hleaves⟩
    · exact ⟨by rw [herror, respond_of_none hapi], hsession⟩
    · rwa [if_pos hexception]

/-- **The layers around the application** come to the answer to the outcome of
`parse_document`, and do nothing more for the request. -/
theorem dispatch_responds (hroute : request.route = .parse) (uuid : String) (session : Session ω)
    (h : (app.parseDocument request (request.contextId uuid)).outcome (.start session) = outcome) :
    (app.dispatch request uuid).Triple (.start session)
      (fun response s' => app.respond (request.contextId uuid) outcome.1 = .ok response ∧
        s'.session = outcome.2.session)
      (fun error s' => app.respond (request.contextId uuid) outcome.1 = .error error ∧
        s'.session = outcome.2.session) := by
  refine dispatch_triple (callSafely_triple (callNext_triple
    (R := Leaves app (request.contextId uuid) outcome) (callApp_answers hroute h)) ?_ ?_)
  · rintro left s' hexception ⟨hrespond, hsession⟩
    rw [if_pos hexception] at hrespond
    exact ⟨hrespond, hsession⟩
  · rintro left s' hexception ⟨hrespond, hsession⟩
    rw [if_neg (by simp [hexception])] at hrespond
    exact ⟨hrespond, hsession⟩

end Respond

/-! ## The way in -/

section Submission

variable {ω π : Type}

/-- What a run comes to under the supervisor, who finds at its end whether the request is
cancelled. -/
def App.supervised (app : App ω π) (run : Except PyError ParsedDocument × Session ω) :
    Except PyError ParsedDocument × Session ω :=
  (if (app.cancelledLate run.2.world).1 then .error .cancelled else run.1,
    { run.2 with world := (app.cancelledLate run.2.world).2 })

/-- The run that is asked for, under the supervisor. -/
def App.runFor (app : App ω π) (service : DocumentParsingService ω)
    (parseRequest : ParseMultipartRequest) (consumerId requestId : Option String)
    (session : Session ω) : Except PyError ParsedDocument × Session ω :=
  app.supervised ((service.runParse parseRequest consumerId requestId).outcome
    { session with log := [] })

/-- What `parse_document` makes of it. -/
def App.documented (app : App ω π) (parsed : Except PyError ParsedDocument) :
    Except AppError Json :=
  (parsed.map (·.response app.decimalText)).mapError .raised

/-- The answer is that to the run, and the session is as the run has left it. -/
def App.AnsweredBy (app : App ω π) (requestId : String)
    (run : Except PyError ParsedDocument × Session ω) (answer : Except AppError HttpResponse)
    (s' : Handling ω) : Prop :=
  app.respond requestId (app.documented run.1) = answer ∧ s'.session = { run.2 with log := [] }

/-- The request carries `sent` as a form, its fields in any texts that say it, in any order
and in any pieces, with the key of the consumer `c`, who is not revoked. -/
structure Carries (app : App ω π) (request : HttpRequest) (sent : ParseMultipartRequest)
    (service : DocumentParsingService ω) (c : ApiConsumerSettings) : Prop where
  route : request.route = .parse
  key : ∃ settings key, app.configured = some (settings, service) ∧ key ≠ "" ∧
    request.apiKey = some key ∧ findConsumerByKey key settings.apiConsumers = .ok (some c)
  active : c.revoked = false
  form : ∃ texts form, Says app.fmt app.depth texts sent ∧
    form.Perm (formOf sent.upload texts) ∧
    parsedForm (app.formParser request.contentType) service.settings.maxUploadBytes
      request.multipart = some form

variable {app : App ω π} {request : HttpRequest} {sent : ParseMultipartRequest}
  {service : DocumentParsingService ω} {c : ApiConsumerSettings}

theorem outcome_parse (consumerId requestId : Option String) (session : Session ω) :
    (app.parse service sent consumerId requestId).outcome { session with log := [] } =
      app.runFor service sent consumerId requestId session := by
  unfold App.parse
  rw [Program.outcome_bind_ok (Program.outcome_capture _ _), Program.outcome_bind, callWorld,
    Program.outcome_step]
  dsimp only
  unfold App.runFor App.supervised
  split
  · rfl
  · exact Program.outcome_ofExcept _ _

/-- The consumer is let in, and noted. -/
theorem outcome_inAuth (h : Carries app request sent service c)
    (session : Session ω) :
    (inAuth (app.configured.map (·.1)) (requireConsumer request.apiKey)).outcome (.start session) =
      (.ok ⟨c.id⟩, { Handling.start session with consumer := some ⟨c.id⟩ }) := by
  obtain ⟨settings, key, hconfigured, hne, hkey, hfind⟩ := h.key
  have hadmitted : (requireConsumer (some key)).outcome ⟨some settings, none⟩ =
      (.ok ⟨c.id⟩, ⟨some settings, some ⟨c.id⟩⟩) :=
    (requireConsumer_eq_ok_iff hne).mpr ⟨c, hfind, h.active, rfl, rfl⟩
  have hview : (⟨some settings, (Handling.start session).consumer⟩ : AppRequest) =
    ⟨some settings, none⟩ := rfl
  rw [hconfigured, hkey, inAuth, Program.outcome_zoom, Option.map_some, hview, hadmitted]
  rfl

/-- **`parse_document` comes to what the run comes to**, for the consumer and the request. -/
theorem outcome_parseDocument (h : Carries app request sent service c)
    (requestId : String) (session : Session ω) :
    ∃ t, (app.parseDocument request requestId).outcome (.start session) =
        (app.documented
          (app.runFor service sent (some c.id) (some requestId) session).1, t) ∧
      t.session = { (app.runFor service sent (some c.id) (some requestId) session).2 with
        log := [] } := by
  obtain ⟨settings, key, hconfigured, -⟩ := h.key
  obtain ⟨texts, form, htold, hperm, hparsed⟩ := h.form
  obtain ⟨fed, hreceived⟩ := outcome_parseMultipartRequest { world := {} } hparsed
    (extractRequest_of_perm htold hperm)
  have hparse : (app.parse service sent (some c.id) (some requestId)).outcome
      { session with log := [] } =
        app.runFor service sent (some c.id) (some requestId) session :=
    outcome_parse _ _ session
  have hstart : (Handling.start session).reception = {} := rfl
  unfold App.parseDocument
  -- the consumer is let in, and `request.received` logged
  rw [Program.outcome_bind_ok (outcome_inAuth h session), hconfigured]
  dsimp only
  rw [Program.outcome_bind, Program.outcome_step]
  dsimp only
  rw [Program.outcome_bind, emit, Program.outcome_step]
  dsimp only
  -- the form says the request
  rw [Program.outcome_bind, inReception, Program.outcome_zoom]
  dsimp only
  rw [hstart, hreceived]
  dsimp only [Except.mapError]
  -- and the service runs it
  rw [Program.outcome_bind, inService, Program.outcome_zoom]
  dsimp only [Option.map_some, Handling.start]
  rw [hparse]
  rcases app.runFor service sent _ _ session with ⟨error | parsed, t⟩
  · exact ⟨_, rfl, rfl⟩
  · exact ⟨_, rfl, rfl⟩

end Submission

/-- **A submission is answered with what its run comes to.**  A client sends a document
with a schema, as a form whose fields say it, in any texts, order and pieces, and the key of
a consumer that is not revoked: the answer is that to the outcome of the run for this consumer and this
request, and nothing is done, in the session, but what this run does. -/
theorem submission_answered {ω π : Type} (app : App ω π) (request : HttpRequest) (uuid : String)
    (session : Session ω) (sent : ParseMultipartRequest) (service : DocumentParsingService ω)
    (c : ApiConsumerSettings)
    (h : Carries app request sent service c) :
    (app.dispatch request uuid).Triple (.start session)
      (fun response s' => app.AnsweredBy (request.contextId uuid)
        (app.runFor service sent (some c.id) (some (request.contextId uuid)) session)
        (.ok response) s')
      (fun error s' => app.AnsweredBy (request.contextId uuid)
        (app.runFor service sent (some c.id) (some (request.contextId uuid)) session)
        (.error error) s') := by
  obtain ⟨t, hdocument, hsession⟩ := outcome_parseDocument h (request.contextId uuid) session
  refine (dispatch_responds h.route uuid session hdocument).mono ?_ ?_
  · exact fun response s' hanswered => ⟨hanswered.1, hanswered.2.trans hsession⟩
  · exact fun error s' hended => ⟨hended.1, hended.2.trans hsession⟩

/-! ## A page, and its answer -/

/-- A page, to be read as any object. -/
def pageSubmission : ParseMultipartRequest where
  upload := { filename := some "page.html", contentType := none
              reads := [.chunk (asciiBytes "<html>") none] }
  schema := objectSchema

/-- Its fields; there is no context but blanks. -/
def pageTexts : FormTexts where
  schema := "\x7b \"type\": \"\\u006fbject\" \x7d\n"
  additionalContext := some " "

theorem pageTexts_say : Says JsonText.wholeFloats 5 pageTexts pageSubmission where
  schema := .value "\x7b \"type\": \"\\u006fbject\" \x7d" (by decide +kernel)
    (by decide +kernel)
  schema_obj := ⟨_, rfl⟩
  additionalContext := by decide +kernel
  model := rfl
  systemPrompt := rfl
  models := .nothing rfl
  checks := Or.inr ⟨.nothing rfl, rfl⟩

/-- It is sent, the file last. -/
@[irreducible] def pageBody : List UInt8 := utf8Bytes
  ("--b\r\nContent-Disposition: form-data; name=\"additionalContext\"\r\n\r\n \r\n" ++
    "--b\r\nContent-Disposition: form-data; name=\"schema\"\r\n\r\n" ++
    "\x7b \"type\": \"\\u006fbject\" \x7d\n\r\n" ++
    "--b\r\nContent-Disposition: form-data; name=\"file\"; filename=\"page.html\"\r\n\r\n" ++
    "<html>\r\n--b--\r\n")

/-- The sample application, with a form parser for this body. -/
def submissionApp : App Nat (List UInt8) :=
  { sampleApp [] with
    formParser := fun _ =>
      parserOf pageBody (formOf pageSubmission.upload pageTexts).reverse }

/-- The page, from the first of the consumers with the key. -/
def submissionHttp : HttpRequest := { sampleHttp "shared" with multipart := bodyOf pageBody }

theorem first_ne_empty : "first" ≠ "" := by decide

/-- The first of the consumers with the key. -/
def pageConsumer : ApiConsumerSettings := sharedKeyConsumer "first" false first_ne_empty

theorem page_carried : Carries submissionApp submissionHttp pageSubmission readingService
    pageConsumer where
  route := by decide
  key := ⟨sharedKeySettings, "shared", rfl, by decide, rfl, by rfl⟩
  active := rfl
  form := ⟨pageTexts, _, pageTexts_say, List.reverse_perm _,
    parsedForm_parserOf (by decide +kernel)⟩

/-- A submission of the page, to a server that has done nothing yet. -/
theorem page_answered :
    (submissionApp.dispatch submissionHttp "u").Triple (.start { world := 0 })
      (fun response s' => submissionApp.AnsweredBy (submissionHttp.contextId "u")
        (submissionApp.runFor readingService pageSubmission (some pageConsumer.id)
          (some (submissionHttp.contextId "u")) { world := 0 }) (.ok response) s')
      (fun error s' => submissionApp.AnsweredBy (submissionHttp.contextId "u")
        (submissionApp.runFor readingService pageSubmission (some pageConsumer.id)
          (some (submissionHttp.contextId "u")) { world := 0 }) (.error error) s') :=
  submission_answered submissionApp submissionHttp "u" { world := 0 } pageSubmission readingService
    pageConsumer page_carried

/-- Its run comes to an object, in the second attempt. -/
example :
    (submissionApp.runFor readingService pageSubmission (some "first") (some "u")
      { world := 0 }).1.toOption.map (·.data) = some (.obj []) := by
  decide +kernel

end InternumCore
