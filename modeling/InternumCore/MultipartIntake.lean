import InternumCore.JsonText
import InternumCore.Service

/-!
# The multipart form

`parseMultipartRequest` takes a request apart: the body goes to the form parser chunk
by chunk as long as the limit lasts, and the fields of the form become the upload, the
schema, the overrides and the checks of a parse request.

The form parser is a parameter (`MultipartParser`), a machine that is started on the
headers, is written to, and is finished.  What it was given, and which files of the form
have been closed, is kept as the world of the session (`Reception`).

JSON in a field is read by `loads`.  Half a surrogate pair, which no Lean string can
hold, is left out: a field with one in it ends here with an exception.
-/

namespace InternumCore
open JsonText

/-! ## The form -/

/-- The value of a form field. -/
inductive FormValue where
  | text (value : String)
  | file (upload : UploadFile)

/-- `FormData`, as `form.multi_items()`. -/
abbrev FormData := List (String × FormValue)

/-- `form.get(key)`: the last value counts. -/
def FormData.value (form : FormData) (key : String) : Option FormValue := form.reverse.lookup key

/-- The files of a form. -/
def FormData.files (form : FormData) : List UploadFile :=
  form.filterMap fun
    | (_, .file upload) => some upload
    | (_, .text _) => none

/-- What ends the parsing of a form. -/
inductive FormFailure where
  /-- `MultiPartException`. -/
  | multipart (message : String)
  | raises (interruption : Interruption)

/-- `MultiPartParser`, with the state `π`. -/
structure MultipartParser (π : Type) where
  start : Except FormFailure π
  write : π → List UInt8 → Except FormFailure π
  finish : π → Except FormFailure FormData

/-- What `request.stream()` gives next. -/
inductive BodyTurn where
  | chunk (bytes : List UInt8)
  | raises (interruption : Interruption)

/-- A request, as far as the intake reads it. -/
structure MultipartRequest where
  /-- The `Content-Length` header. -/
  contentLength : Option String
  body : List BodyTurn

/-- What the reception of a request has done so far. -/
structure Reception where
  /-- The chunks given to the parser. -/
  fed : List (List UInt8) := []
  /-- The files that were closed. -/
  closed : List UploadFile := []

/-! ## The body -/

/-- `MULTIPART_OVERHEAD_BYTES`. -/
def multipartOverheadBytes : Nat := 64 * 1024

/-- `_max_body_bytes`. -/
def maxBodyBytes (maxUploadBytes : Nat) : Nat := maxUploadBytes + multipartOverheadBytes

/-- `_reject_oversized_body`. -/
def rejectOversizedBody (contentLength : Option String) (maxUploadBytes : Nat) :
    Except IntakeError Unit :=
  match contentLength with
  | none => .ok ()
  | some contentLength =>
    match pyInt contentLength with
    | none => .error { message := "Invalid Content-Length header" }
    | some bodyBytes =>
      if (maxBodyBytes maxUploadBytes : Int) < bodyBytes then
        .error
          { message := "Uploaded file exceeds the configured size limit"
            details := some (.obj [("maxUploadBytes", .int maxUploadBytes)]) }
      else .ok ()

/-- The parser is given a chunk. -/
def feed (bytes : List UInt8) : Method Reception Unit :=
  Program.step fun s => ((), { s with world := { s.world with fed := s.world.fed ++ [bytes] } })

/-- The loop of `parser.parse()` over `_limited_body_stream`. -/
def feedBody {π : Type} (parser : MultipartParser π) (maxBodyBytes : Nat) :
    List BodyTurn → Nat → π → Method Reception (Except FormFailure π)
  | [], _, state => return .ok state
  | .raises interruption :: _, _, _ => return .error (.raises interruption)
  | .chunk bytes :: rest, totalBytes, state =>
    if maxBodyBytes < totalBytes + bytes.length then
      return .error (.multipart "Uploaded file exceeds the configured size limit")
    else do
      feed bytes
      match parser.write state bytes with
      | .error failure => return .error failure
      | .ok state => feedBody parser maxBodyBytes rest (totalBytes + bytes.length) state

/-- `_parse_limited_multipart_form`. -/
def parseLimitedMultipartForm {π : Type} (parser : MultipartParser π) (maxUploadBytes : Nat)
    (body : List BodyTurn) : Method Reception (Except FormFailure FormData) := do
  match parser.start with
  | .error failure => return .error failure
  | .ok state =>
    match ← feedBody parser (maxBodyBytes maxUploadBytes) body 0 state with
    | .error failure => return .error failure
    | .ok state => return parser.finish state

/-- `_multipart_error_message`. -/
def multipartErrorMessage (detail : String) : String :=
  if startsWith detail "Too many files." then "Exactly one file must be provided" else detail

/-! ## The fields -/

/-- `_extract_single_file`. -/
def extractSingleFile (form : FormData) : Except IntakeError UploadFile :=
  match FormData.files (form.filter (·.1 = "file")) with
  | [upload] => .ok upload
  | _ => .error { message := "Exactly one file must be provided" }

/-- `_optional_text`. -/
def optionalText (form : FormData) (key : String) : Except IntakeError (Option String) :=
  match form.value key with
  | none => .ok none
  | some (.file _) => .error { message := "Form field must be text: " ++ key }
  | some (.text value) =>
    let stripped := strip value
    .ok (if stripped = "" then none else some stripped)

/-- `_required_text`. -/
def requiredText (form : FormData) (key : String) : Except IntakeError String := do
  match ← optionalText form key with
  | none => throw { message := "Missing required form field: " ++ key }
  | some value => return value

/-- `json.loads`, where `JSONDecodeError` becomes an `IntakeError`. -/
def loadField (fmt : FloatText) (depth : Nat) (raw message : String) :
    Except PyError LoadedJson :=
  match h : loads fmt depth raw with
  | .ok v => .ok ⟨v, uniqueKeys_loads h⟩
  | .error .decode => .error (.intake { message := message })
  | .error .digits => .error (.other "ValueError")
  | .error .recursion => .error (.other "RecursionError")
  | .error .surrogate => .error (.other "UnicodeError")

/-- `_extract_schema`. -/
def extractSchema (fmt : FloatText) (depth : Nat) (form : FormData) :
    Except PyError LoadedJson := do
  let rawSchema ← (requiredText form "schema").mapError .intake
  match ← loadField fmt depth rawSchema "Schema field must contain valid JSON" with
  | ⟨.obj schema, h⟩ => return ⟨.obj schema, h⟩
  | _ => throw (.intake { message := "Schema field must contain a JSON object" })

/-- `_extract_checks`. -/
def extractChecks (fmt : FloatText) (depth : Nat) (form : FormData) :
    Except PyError (List Json) := do
  match ← (optionalText form "checks").mapError .intake with
  | none => return []
  | some rawChecks =>
    match ← loadField fmt depth rawChecks "Checks field must contain valid JSON" with
    | ⟨.arr checks, _⟩ => return checks
    | _ => throw (.intake { message := "Checks field must contain a JSON array" })

/-- The error for overrides of any kind. -/
def invalidOverrides : PyError := .intake { message := "Request overrides are invalid" }

/-- `item` where `isinstance(item, str)`. -/
def asText : Json → Option String
  | .str s => some s
  | _ => none

/-- `_parse_models_field`. -/
def parseModelsField (fmt : FloatText) (depth : Nat) (rawModels : String) :
    Except PyError (List String) := do
  match ← loadField fmt depth rawModels "Request overrides are invalid" with
  | ⟨.arr items, _⟩ =>
    match items.mapM asText with
    | some models => return models
    | none => throw invalidOverrides
  | _ => throw invalidOverrides

/-- The `models` field, if there is one. -/
def modelsField (fmt : FloatText) (depth : Nat) :
    Option String → Except PyError (Option (List String))
  | none => return none
  | some rawModels => return some (← parseModelsField fmt depth rawModels)

/-- `SafeRequestOverrides.model_validate`, of fields that have their types. -/
def validateOverrides (overrides : SafeRequestOverrides) : Option SafeRequestOverrides :=
  if overrides.model = some "" ∨ overrides.systemPrompt = some "" then none else some overrides

/-- `_extract_overrides`. -/
def extractOverrides (fmt : FloatText) (depth : Nat) (form : FormData) :
    Except PyError SafeRequestOverrides := do
  let model ← (optionalText form "model").mapError .intake
  let systemPrompt ← (optionalText form "systemPrompt").mapError .intake
  let rawModels ← (optionalText form "models").mapError .intake
  let models ← modelsField fmt depth rawModels
  match validateOverrides { model := model, models := models, systemPrompt := systemPrompt } with
  | some overrides => return overrides
  | none => throw invalidOverrides

/-- The form as a request, in `parse_multipart_request`. -/
def extractRequest (fmt : FloatText) (depth : Nat) (form : FormData) :
    Except PyError ParseMultipartRequest := do
  let upload ← (extractSingleFile form).mapError .intake
  let schema ← extractSchema fmt depth form
  let overrides ← extractOverrides fmt depth form
  let additionalContext ← (optionalText form "additionalContext").mapError .intake
  let checks ← extractChecks fmt depth form
  return { upload := upload, schema := schema, additionalContext := additionalContext
           overrides := overrides, checks := checks }

/-! ## The whole -/

/-- `await upload.close()`. -/
def closeUpload (upload : UploadFile) : Method Reception Unit := do
  Program.step fun s =>
    ((), { s with world := { s.world with closed := s.world.closed ++ [upload] } })
  raising upload.closeRaises

/-- `await form.close()`, of the files of the form. -/
def closeFiles : List UploadFile → Method Reception Unit
  | [] => return ()
  | upload :: rest => do
    closeUpload upload
    closeFiles rest

/-- `_log_intake_rejection(error, document_type="unknown")` and `raise`. -/
def rejectRequest {α : Type} (error : IntakeError) : Method Reception α := do
  let error ← logIntakeRejection error "unknown"
  throw (.intake error)

/-- `parse_multipart_request`. -/
def parseMultipartRequest {π : Type} (fmt : FloatText) (depth : Nat) (parser : MultipartParser π)
    (maxUploadBytes : Nat) (request : MultipartRequest) : Method Reception ParseMultipartRequest := do
  match rejectOversizedBody request.contentLength maxUploadBytes with
  | .error error => rejectRequest error
  | .ok _ =>
    match ← parseLimitedMultipartForm parser maxUploadBytes request.body with
    -- the form was not parsed and there is nothing to close
    | .error (.multipart message) => rejectRequest { message := multipartErrorMessage message }
    | .error (.raises interruption) => throw interruption.toError
    | .ok form =>
      match extractRequest fmt depth form with
      | .ok request => return request
      | .error (.intake error) => do
        closeFiles (FormData.files form)
        rejectRequest error
      | .error error => do
        closeFiles (FormData.files form)
        throw error

/-! ## What a rejected request leaves behind -/

/-- The chunks of a body. -/
def bodyChunks : List BodyTurn → List (List UInt8)
  | .chunk bytes :: rest => bytes :: bodyChunks rest
  | _ => []

/-- What feeding a body comes to. -/
def feedResult {π : Type} (parser : MultipartParser π) (maxBodyBytes : Nat) :
    List BodyTurn → Nat → π → Except FormFailure π
  | [], _, state => .ok state
  | .raises interruption :: _, _, _ => .error (.raises interruption)
  | .chunk bytes :: rest, totalBytes, state =>
    if maxBodyBytes < totalBytes + bytes.length then
      .error (.multipart "Uploaded file exceeds the configured size limit")
    else do
      feedResult parser maxBodyBytes rest (totalBytes + bytes.length) (← parser.write state bytes)

/-- The form a request comes to, if it is parsed to the end. -/
def parsedForm {π : Type} (parser : MultipartParser π) (maxUploadBytes : Nat)
    (request : MultipartRequest) : Option FormData :=
  match rejectOversizedBody request.contentLength maxUploadBytes with
  | .error _ => none
  | .ok _ =>
    (do parser.finish (← feedResult parser (maxBodyBytes maxUploadBytes) request.body 0
          (← parser.start))).toOption

/-- The files that are closed when all of these are to be closed: all, up to one whose
closing raises. -/
def closedUntil : List UploadFile → List UploadFile
  | [] => []
  | upload :: rest => upload :: if upload.closeRaises = none then closedUntil rest else []

/-- The files are closed in order, each once. -/
theorem closedUntil_eq_self {uploads : List UploadFile}
    (h : ∀ upload ∈ uploads, upload.closeRaises = none) : closedUntil uploads = uploads := by
  induction uploads with
  | nil => rfl
  | cons upload rest ih =>
    rw [closedUntil, if_pos (h upload List.mem_cons_self),
      ih fun u hu => h u (List.mem_cons_of_mem _ hu)]

section Leaving

variable {π : Type} {s : Session Reception}

/-- The session after more chunks were given to the parser. -/
def fedMore (s : Session Reception) (fed : List (List UInt8)) : Session Reception :=
  { s with world := { s.world with fed := s.world.fed ++ fed } }

/-- The session after more files were closed. -/
def closedMore (s : Session Reception) (closed : List UploadFile) : Session Reception :=
  { s with world := { s.world with closed := s.world.closed ++ closed } }

/-- **The limit holds on the way**: the parser is given the first chunks of the body, in
order, and never more bytes than the limit. -/
theorem outcome_feedBody (parser : MultipartParser π) (maxBodyBytes : Nat) (body : List BodyTurn)
    (totalBytes : Nat) (state : π) (s : Session Reception) (h : totalBytes ≤ maxBodyBytes) :
    ∃ fed, (feedBody parser maxBodyBytes body totalBytes state).outcome s =
        (.ok (feedResult parser maxBodyBytes body totalBytes state), fedMore s fed) ∧
      fed <+: bodyChunks body ∧ totalBytes + fed.flatten.length ≤ maxBodyBytes := by
  induction body generalizing totalBytes state s with
  | nil => exact ⟨[], by simp [feedBody, feedResult, fedMore], List.nil_prefix, by simpa using h⟩
  | cons turn rest ih =>
    cases turn with
    | raises interruption =>
      exact ⟨[], by simp [feedBody, feedResult, fedMore], List.nil_prefix, by simpa using h⟩
    | chunk bytes =>
      rw [feedBody, feedResult, bodyChunks]
      -- the chunk that passes the limit is not fed any more
      by_cases hlimit : maxBodyBytes < totalBytes + bytes.length
      · rw [if_pos hlimit, if_pos hlimit]
        exact ⟨[], by simp [fedMore], List.nil_prefix, by simpa using h⟩
      · rw [if_neg hlimit, if_neg hlimit]
        have hfed : (feed bytes).outcome s = (.ok (), fedMore s [bytes]) := rfl
        rw [Program.outcome_bind_ok hfed]
        cases parser.write state bytes with
        | error failure =>
          refine ⟨[bytes], rfl, by simp, ?_⟩
          simp only [List.flatten_cons, List.flatten_nil, List.append_nil]
          omega
        | ok state' =>
          obtain ⟨fed, hrest, hprefix, htotal⟩ :=
            ih (totalBytes + bytes.length) state' (fedMore s [bytes]) (by omega)
          refine ⟨bytes :: fed, ?_, ?_, ?_⟩
          · show (feedBody parser maxBodyBytes rest (totalBytes + bytes.length) state').outcome
              (fedMore s [bytes]) = _
            rw [hrest]
            simp [fedMore, bind, Except.bind]
          · exact List.prefix_cons_inj bytes |>.mpr hprefix
          · rw [List.flatten_cons, List.length_append]
            omega

/-- Closing goes on as long as it does not raise. -/
theorem outcome_closeFiles (uploads : List UploadFile) (s : Session Reception) :
    ∃ result, (closeFiles uploads).outcome s = (result, closedMore s (closedUntil uploads)) ∧
      ∀ error, result = .error error → ∃ interruption : Interruption, error = interruption.toError := by
  induction uploads generalizing s with
  | nil => exact ⟨.ok (), by simp [closeFiles, closedMore, closedUntil], fun _ h => by cases h⟩
  | cons upload rest ih =>
    rw [closedUntil]
    cases hraises : upload.closeRaises with
    | some interruption =>
      have hclose : (closeUpload upload).outcome s =
          (.error interruption.toError, closedMore s [upload]) := by
        unfold closeUpload
        rw [hraises]
        rfl
      refine ⟨.error interruption.toError, ?_, fun _ h => ⟨interruption, by cases h; rfl⟩⟩
      rw [closeFiles, Program.outcome_bind, hclose]
      rfl
    | none =>
      have hclose : (closeUpload upload).outcome s = (.ok (), closedMore s [upload]) := by
        unfold closeUpload
        rw [hraises]
        rfl
      obtain ⟨result, hrest, herror⟩ := ih (closedMore s [upload])
      refine ⟨result, ?_, herror⟩
      rw [closeFiles, Program.outcome_bind_ok hclose, hrest]
      simp [closedMore]

/-- What is fed to the parser of a request is the front of its body, within the limit. -/
def FedWithin (maxUploadBytes : Nat) (request : MultipartRequest) (s s' : Session Reception) :
    Prop :=
  ∃ fed, s'.world.fed = s.world.fed ++ fed ∧ fed <+: bodyChunks request.body ∧
    fed.flatten.length ≤ maxBodyBytes maxUploadBytes

/-- A rejection is logged once, under the code of its error; what is no rejection is not
logged here. -/
def LogsRejection (s s' : Session Reception) : PyError → Prop
  | .intake error => error.intakeEventLogged = true ∧
      s'.log = s.log ++ [.intakeRejected error.code "unknown"]
  | _ => s'.log = s.log

theorem rejectRequest_logs {α : Type} {error : IntakeError} (h : error.intakeEventLogged = false) :
    (rejectRequest error : Method Reception α).outcome s =
      (.error (.intake { error with intakeEventLogged := true }),
        { s with log := s.log ++ [.intakeRejected error.code "unknown"] }) := by
  unfold rejectRequest logIntakeRejection
  rw [h]
  rfl

theorem logsRejection_other {s' : Session Reception} {error : PyError}
    (h : ∀ e, error ≠ .intake e) (hlog : s'.log = s.log) : LogsRejection s s' error := by
  cases error with
  | intake e => exact absurd rfl (h e)
  | _ => exact hlog

theorem logsRejection_interruption {s' : Session Reception} (interruption : Interruption)
    (h : s'.log = s.log) : LogsRejection s s' interruption.toError := by
  cases interruption <;> exact h

end Leaving

/-! ### No field is refused with an error that is logged already -/

section Fields

open Program (Raises)

variable {fmt : FloatText} {depth : Nat} {form : FormData} {key : String}

/-- A field is refused with a fresh error. -/
theorem optionalText_raises :
    Raises (·.intakeEventLogged = false) (optionalText form key) := by
  unfold optionalText
  split
  · exact .ok _
  · exact .error rfl
  · exact .ok _

theorem requiredText_raises : Raises (·.intakeEventLogged = false) (requiredText form key) := by
  refine .bind optionalText_raises fun value => ?_
  cases value with
  | none => exact .error rfl
  | some text => exact .ok text

theorem extractSingleFile_raises :
    Raises (·.intakeEventLogged = false) (extractSingleFile form) := by
  unfold extractSingleFile
  split
  · exact .ok _
  · exact .error rfl

theorem rejectOversizedBody_raises (contentLength : Option String) (maxUploadBytes : Nat) :
    Raises (·.intakeEventLogged = false) (rejectOversizedBody contentLength maxUploadBytes) := by
  unfold rejectOversizedBody
  split
  · exact .ok ()
  · split
    · exact .error rfl
    · split
      · exact .error rfl
      · exact .ok ()

theorem loadField_raises (raw message : String) :
    Raises Unlogged (loadField fmt depth raw message) := by
  unfold loadField
  split
  · exact .ok _
  · exact .error (unlogged_intake rfl)
  · exact .error (unlogged_other _)
  · exact .error (unlogged_other _)
  · exact .error (unlogged_other _)

theorem extractSchema_raises : Raises Unlogged (extractSchema fmt depth form) := by
  refine .bind (.mapError requiredText_raises fun _ => unlogged_intake) fun raw => ?_
  refine .bind (loadField_raises raw _) fun loaded => ?_
  obtain ⟨v, h⟩ := loaded
  cases v with
  | obj fields => exact .ok _
  | _ => exact .error (unlogged_intake rfl)

theorem extractChecks_raises : Raises Unlogged (extractChecks fmt depth form) := by
  refine .bind (.mapError optionalText_raises fun _ => unlogged_intake) fun raw => ?_
  cases raw with
  | none => exact .ok _
  | some raw =>
    refine .bind (loadField_raises raw _) fun loaded => ?_
    obtain ⟨v, h⟩ := loaded
    cases v with
    | arr items => exact .ok _
    | _ => exact .error (unlogged_intake rfl)

theorem parseModelsField_raises (raw : String) :
    Raises Unlogged (parseModelsField fmt depth raw) := by
  refine .bind (loadField_raises raw _) fun loaded => ?_
  obtain ⟨v, h⟩ := loaded
  cases v with
  | arr items =>
    dsimp only
    split
    · exact .ok _
    · exact .error (unlogged_intake rfl)
  | _ => exact .error (unlogged_intake rfl)

theorem extractOverrides_raises : Raises Unlogged (extractOverrides fmt depth form) := by
  have htext (key : String) : Raises Unlogged ((optionalText form key).mapError .intake) :=
    .mapError optionalText_raises fun _ => unlogged_intake
  refine .bind (htext "model") fun model => ?_
  refine .bind (htext "systemPrompt") fun systemPrompt => ?_
  refine .bind (htext "models") fun raw => ?_
  refine .bind ?_ fun models => ?_
  · cases raw with
    | none => exact .ok _
    | some raw => exact .bind (parseModelsField_raises raw) fun _ => .ok _
  · split
    · exact .ok _
    · exact .error (unlogged_intake rfl)

theorem extractRequest_raises : Raises Unlogged (extractRequest fmt depth form) := by
  refine .bind (.mapError extractSingleFile_raises fun _ => unlogged_intake) fun upload => ?_
  refine .bind extractSchema_raises fun schema => ?_
  refine .bind extractOverrides_raises fun overrides => ?_
  refine .bind (.mapError optionalText_raises fun _ => unlogged_intake) fun context => ?_
  refine .bind extractChecks_raises fun checks => ?_
  exact .ok _

end Fields

section Reception

variable {π : Type} {maxUploadBytes : Nat} {request : MultipartRequest} {s s' : Session Reception}

/-- Parsing the form shows in what the parser was fed, and nowhere else. -/
theorem outcome_parseLimitedMultipartForm (parser : MultipartParser π) (body : List BodyTurn)
    (s : Session Reception) :
    ∃ fed, (parseLimitedMultipartForm parser maxUploadBytes body).outcome s =
        (.ok (do parser.finish (← feedResult parser (maxBodyBytes maxUploadBytes) body 0
          (← parser.start))), fedMore s fed) ∧
      fed <+: bodyChunks body ∧ fed.flatten.length ≤ maxBodyBytes maxUploadBytes := by
  unfold parseLimitedMultipartForm
  cases parser.start with
  | error failure =>
    exact ⟨[], by simp [fedMore, bind, Except.bind], List.nil_prefix, Nat.zero_le _⟩
  | ok state =>
    obtain ⟨fed, hfed, hprefix, htotal⟩ :=
      outcome_feedBody parser (maxBodyBytes maxUploadBytes) body 0 state s (Nat.zero_le _)
    refine ⟨fed, ?_, hprefix, by omega⟩
    dsimp only
    rw [Program.outcome_bind_ok hfed]
    simp only [bind, Except.bind]
    cases feedResult parser (maxBodyBytes maxUploadBytes) body 0 state <;> rfl

/-- The files of a form are closed before the error is raised. -/
theorem closeFiles_raise {uploads : List UploadFile} {raise : Method Reception ParseMultipartRequest}
    (hraise : raise.Triple (closedMore s' (closedUntil uploads)) (fun _ _ => False)
      fun error s'' => s''.world = (closedMore s' (closedUntil uploads)).world ∧
        LogsRejection s s'' error) (hlog : s'.log = s.log) :
    (do closeFiles uploads; raise : Method Reception ParseMultipartRequest).Triple s' (fun _ _ => False)
      fun error s'' => s''.world = (closedMore s' (closedUntil uploads)).world ∧
        LogsRejection s s'' error := by
  obtain ⟨result, hclose, hinterrupted⟩ := outcome_closeFiles uploads s'
  cases result with
  | error e =>
    obtain ⟨interruption, rfl⟩ := hinterrupted e rfl
    refine Program.Triple.of_outcome (fun _ _ h => ?_) fun error s'' h => ?_
    · rw [Program.outcome_bind, hclose] at h
      cases h
    · rw [Program.outcome_bind, hclose] at h
      cases h
      exact ⟨rfl, logsRejection_interruption interruption hlog⟩
  | ok =>
    refine Program.Triple.of_outcome (fun _ _ h => ?_) fun error s'' h => ?_
    · rw [Program.outcome_bind_ok hclose] at h
      exact (hraise.of_ok h).elim
    · rw [Program.outcome_bind_ok hclose] at h
      exact hraise.of_error h

/-- **The reception of a request.**  Whatever is sent and however it goes wrong: the parser
is fed the front of the body and no more than the limit; the files of a rejected form are
closed, in order and each once, and no file of an accepted one; and an `IntakeError`
leaves with its rejection logged, once, while nothing else is logged. -/
theorem reception (fmt : FloatText) (depth : Nat) (parser : MultipartParser π)
    (maxUploadBytes : Nat) (request : MultipartRequest) (s : Session Reception) :
    (parseMultipartRequest fmt depth parser maxUploadBytes request).Triple s
      (fun _ s' => FedWithin maxUploadBytes request s s' ∧ s'.world.closed = s.world.closed ∧
        s'.log = s.log)
      (fun error s' => FedWithin maxUploadBytes request s s' ∧
        s'.world.closed = s.world.closed ++
          closedUntil ((parsedForm parser maxUploadBytes request).elim [] FormData.files) ∧
        LogsRejection s s' error) := by
  have hfresh : FedWithin maxUploadBytes request s s :=
    ⟨[], (List.append_nil _).symm, List.nil_prefix, Nat.zero_le _⟩
  -- a rejection is logged before it leaves, and does nothing else
  have hreject : ∀ {error : IntakeError} {s' : Session Reception},
      error.intakeEventLogged = false → s'.log = s.log →
      (rejectRequest error : Method Reception ParseMultipartRequest).Triple s' (fun _ _ => False)
        fun error s'' => s''.world = s'.world ∧ LogsRejection s s'' error := by
    intro error s' herror hlog
    rw [Program.Triple, rejectRequest_logs herror]
    exact ⟨rfl, rfl, by rw [hlog]⟩
  unfold parseMultipartRequest parsedForm
  cases hsize : rejectOversizedBody request.contentLength maxUploadBytes with
  | error error =>
    -- too large by its own `Content-Length`: nothing of the body is read
    refine (hreject (rejectOversizedBody_raises _ _ _ hsize) rfl).mono (fun _ _ h => h.elim) ?_
    rintro error s' ⟨hworld, hlogs⟩
    refine ⟨?_, ?_, hlogs⟩
    · obtain ⟨fed, hfed, h⟩ := hfresh
      exact ⟨fed, by rw [hworld]; exact hfed, h⟩
    · simp [hworld, closedUntil]
  | ok =>
    dsimp only
    obtain ⟨fed, hparsed, hprefix, htotal⟩ :=
      @outcome_parseLimitedMultipartForm π maxUploadBytes parser request.body s
    have hwithin : ∀ s' : Session Reception, s'.world.fed = s.world.fed ++ fed →
        FedWithin maxUploadBytes request s s' := fun _ h => ⟨fed, h, hprefix, htotal⟩
    have hafter : ∀ {uploads : List UploadFile} {error : PyError} {s' : Session Reception},
        s'.world = (closedMore (fedMore s fed) (closedUntil uploads)).world →
          LogsRejection s s' error → FedWithin maxUploadBytes request s s' ∧
            s'.world.closed = s.world.closed ++ closedUntil uploads ∧ LogsRejection s s' error :=
      fun hworld hlogs => ⟨hwithin _ (by rw [hworld]; rfl), by rw [hworld]; rfl, hlogs⟩
    have hnothing : closedMore (fedMore s fed) [] = fedMore s fed := by simp [closedMore]
    rw [Program.Triple, Program.outcome_bind_ok hparsed, ← Program.Triple]
    cases (do parser.finish (← feedResult parser (maxBodyBytes maxUploadBytes) request.body 0
        (← parser.start)) : Except FormFailure FormData) with
    | error failure =>
      cases failure with
      -- `MultiPartException`: there is no form yet, and no file to close
      | multipart message =>
        refine (@hreject _ (fedMore s fed) rfl rfl).mono (fun _ _ h => h.elim) ?_
        rintro error s' ⟨hworld, hlogs⟩
        exact @hafter [] _ _ (by rw [hworld, closedUntil, hnothing]) hlogs
      | raises interruption =>
        exact .throw (@hafter [] _ _ (by rw [closedUntil, hnothing])
          (logsRejection_interruption interruption rfl))
    | ok form =>
      dsimp only [Except.toOption, Option.elim]
      cases hextract : extractRequest fmt depth form with
      | ok found => exact .pure ⟨hwithin _ rfl, rfl, rfl⟩
      | error error =>
        -- `form.close()` comes before the rejection; what it raises leaves instead
        have hclosed : ∀ raise : Method Reception ParseMultipartRequest,
            raise.Triple (closedMore (fedMore s fed) (closedUntil (FormData.files form)))
              (fun _ _ => False) (fun error s' => s'.world =
                (closedMore (fedMore s fed) (closedUntil (FormData.files form))).world ∧
                LogsRejection s s' error) →
            (do closeFiles (FormData.files form); raise).Triple (fedMore s fed)
              (fun _ s' => FedWithin maxUploadBytes request s s' ∧
                s'.world.closed = s.world.closed ∧ s'.log = s.log)
              (fun error s' => FedWithin maxUploadBytes request s s' ∧
                s'.world.closed = s.world.closed ++ closedUntil (FormData.files form) ∧
                LogsRejection s s' error) := fun raise hraise =>
          (closeFiles_raise hraise rfl).mono (fun _ _ h => h.elim) fun _ _ h => hafter h.1 h.2
        -- `except IntakeError` logs, `except Exception` does not
        by_cases hintake : ∃ e, error = .intake e
        · obtain ⟨e, rfl⟩ := hintake
          exact hclosed _ (hreject (extractRequest_raises _ hextract _ rfl) rfl)
        · have hother : ∀ e, error ≠ .intake e := fun e h => hintake ⟨e, h⟩
          have hthrow := hclosed (throw error) (.throw ⟨rfl, logsRejection_other hother rfl⟩)
          cases error with
          | intake e => exact absurd rfl (hother e)
          | _ => exact hthrow

end Reception

/-! ## A request as a form -/

/-- A text field, if there is anything to send. -/
def textEntry (entry : String × Option String) : FormData :=
  (entry.2.map fun text => (entry.1, FormValue.text text)).toList

/-- The texts of a form. -/
structure FormTexts where
  schema : String
  additionalContext : Option String := none
  model : Option String := none
  systemPrompt : Option String := none
  models : Option String := none
  checks : Option String := none

/-- The optional fields, each with its text. -/
def optionalFields (texts : FormTexts) : List (String × Option String) :=
  [("additionalContext", texts.additionalContext), ("model", texts.model),
    ("systemPrompt", texts.systemPrompt), ("models", texts.models), ("checks", texts.checks)]

/-- The fields every form has. -/
def requiredFields (upload : UploadFile) (texts : FormTexts) : FormData :=
  [("file", .file upload), ("schema", .text texts.schema)]

/-- A file and the texts that go with it, as a form. -/
def formOf (upload : UploadFile) (texts : FormTexts) : FormData :=
  requiredFields upload texts ++ (optionalFields texts).flatMap textEntry

/-- What a text field says: its text without the blanks around it, if that leaves any. -/
def said (field : Option String) : Option String := (field.map strip).filter (· ≠ "")

/-- A field that says a value in JSON, or nothing. -/
inductive SaysJson (fmt : FloatText) (depth : Nat) (field : Option String) : Option Json → Prop
  | nothing (h : said field = none) : SaysJson fmt depth field none
  | value (raw : String) {v : Json} (h : said field = some raw)
      (hloads : loads fmt depth raw = .ok v) : SaysJson fmt depth field (some v)

/-- The texts say the request. -/
structure Says (fmt : FloatText) (depth : Nat) (texts : FormTexts)
    (request : ParseMultipartRequest) : Prop where
  schema : SaysJson fmt depth (some texts.schema) (some request.schema.1)
  schema_obj : ∃ fields, request.schema.1 = .obj fields
  additionalContext : request.additionalContext = said texts.additionalContext
  model : request.overrides.model = said texts.model
  systemPrompt : request.overrides.systemPrompt = said texts.systemPrompt
  models : SaysJson fmt depth texts.models
    (request.overrides.models.map fun models => .arr (models.map .str))
  checks : SaysJson fmt depth texts.checks (some (.arr request.checks)) ∨
    SaysJson fmt depth texts.checks none ∧ request.checks = []

section Lookup

variable {form required : FormData} {entries : List (String × Option String)} {key : String}
  {value : FormValue}

theorem mem_textEntry {entry : String × Option String} :
    (key, value) ∈ textEntry entry ↔
      entry.1 = key ∧ ∃ text, entry.2 = some text ∧ value = .text text := by
  obtain ⟨k, o⟩ := entry
  cases o with
  | none => simp [textEntry]
  | some text => simp [textEntry, eq_comm]

theorem keys_flatMap_textEntry :
    (Dict.keys (entries.flatMap textEntry)).Sublist (entries.map (·.1)) := by
  induction entries with
  | nil => exact List.Sublist.refl _
  | cons entry entries ih =>
    obtain ⟨k, o⟩ := entry
    cases o with
    | none => exact ih.cons k
    | some text => exact ih.cons_cons k

/-- In a form without repeated keys the order of the fields does not matter. -/
theorem value_of_mem (hk : (Dict.keys form).Nodup) (hm : (key, value) ∈ form) :
    form.value key = some value := by
  refine Dict.lookup_of_mem ?_ (List.mem_reverse.mpr hm)
  rw [Dict.keys, List.map_reverse, List.nodup_reverse]
  exact hk

theorem value_of_not_mem (h : key ∉ Dict.keys form) : form.value key = none := by
  refine Dict.lookup_eq_none_iff.mpr ?_
  rw [Dict.keys, List.map_reverse, List.mem_reverse]
  exact h

theorem nodup_keys_form (hk : (Dict.keys required ++ entries.map (·.1)).Nodup)
    (hperm : form.Perm (required ++ entries.flatMap textEntry)) : (Dict.keys form).Nodup := by
  have hsub : (Dict.keys (required ++ entries.flatMap textEntry)).Sublist
      (Dict.keys required ++ entries.map (·.1)) := by
    rw [Dict.keys, List.map_append]
    exact (List.Sublist.refl _).append keys_flatMap_textEntry
  exact (hperm.map _).nodup_iff.mpr (hk.sublist hsub)

/-- An optional field is read as it was put in. -/
theorem value_of_entry {o : Option String} (hk : (Dict.keys required ++ entries.map (·.1)).Nodup)
    (hperm : form.Perm (required ++ entries.flatMap textEntry)) (hm : (key, o) ∈ entries) :
    form.value key = o.map .text := by
  have hnodup := nodup_keys_form hk hperm
  cases o with
  | some text =>
    refine value_of_mem hnodup (hperm.mem_iff.mpr (List.mem_append_right _ ?_))
    exact List.mem_flatMap.mpr ⟨_, hm, mem_textEntry.mpr ⟨rfl, text, rfl, rfl⟩⟩
  | none =>
    refine value_of_not_mem fun hkey => ?_
    obtain ⟨⟨k, v⟩, hmem, rfl⟩ := List.mem_map.mp hkey
    rcases List.mem_append.mp (hperm.mem_iff.mp hmem) with hreq | hopt
    · have hdisjoint := (List.nodup_append.mp hk).2.2 k (Dict.mem_keys_of_mem hreq) k
        (List.mem_map.mpr ⟨_, hm, rfl⟩)
      exact hdisjoint rfl
    · obtain ⟨⟨k', o'⟩, hentry, hin⟩ := List.mem_flatMap.mp hopt
      obtain ⟨rfl, text, rfl, -⟩ := mem_textEntry.mp hin
      have hone := List.inj_on_of_nodup_map (List.nodup_append.mp hk).2.1 hm hentry rfl
      cases hone

end Lookup

section RoundTrip

variable {fmt : FloatText} {depth : Nat} {form : FormData} {texts : FormTexts}
  {request : ParseMultipartRequest}

/-- A text field is read as what it says. -/
theorem optionalText_of_value {key : String} {field : Option String}
    (h : form.value key = field.map .text) : optionalText form key = .ok (said field) := by
  unfold optionalText said
  cases field with
  | none => rw [h]; rfl
  | some text =>
    rw [h]
    by_cases hempty : strip text = ""
    · simp [hempty, Option.filter]
    · simp [hempty, Option.filter]

theorem loadField_of_loads {raw message : String} {v : Json} (h : loads fmt depth raw = .ok v) :
    loadField fmt depth raw message = .ok ⟨v, uniqueKeys_loads h⟩ := by
  unfold loadField
  split
  · next w hw =>
    obtain rfl := Except.ok.inj (hw.symm.trans h)
    rfl
  all_goals
    next herror =>
    rw [herror] at h
    cases h

theorem mapM_asText (texts : List String) : (texts.map Json.str).mapM asText = some texts := by
  induction texts with
  | nil => rfl
  | cons text texts ih => rw [List.map_cons, List.mapM_cons, ih]; rfl

/-! A step that returned goes on with what it returned. -/

theorem mapError_ok_bind {α β : Type} (a : α) (f : α → Except PyError β) :
    ((.ok a : Except IntakeError α).mapError .intake >>= f) = f a := rfl

theorem ok_bind {α β : Type} (a : α) (f : α → Except PyError β) :
    ((.ok a : Except PyError α) >>= f) = f a := rfl

theorem extractSchema_of_value (h : form.value "schema" = some (.text texts.schema))
    (htold : SaysJson fmt depth (some texts.schema) (some request.schema.1))
    (hobj : ∃ fields, request.schema.1 = .obj fields) :
    extractSchema fmt depth form = .ok request.schema := by
  obtain ⟨fields, hfields⟩ := hobj
  cases htold with
  | value raw hraw hloads =>
    have htext : optionalText form "schema" = .ok (some raw) := by
      rw [← hraw]
      exact optionalText_of_value h
    have hrequired : requiredText form "schema" = .ok raw := by
      rw [requiredText, htext]
      rfl
    have hunique : (Json.obj fields).uniqueKeys = true := hfields ▸ request.schema.2
    have hloaded : (⟨request.schema.1, uniqueKeys_loads hloads⟩ : LoadedJson) =
        ⟨.obj fields, hunique⟩ := Subtype.ext hfields
    rw [extractSchema, hrequired, mapError_ok_bind, loadField_of_loads hloads, ok_bind, hloaded]
    exact congrArg Except.ok (Subtype.ext hfields.symm)

theorem modelsField_of_field {field : Option String} {models : Option (List String)}
    (htold : SaysJson fmt depth field (models.map fun models => .arr (models.map .str))) :
    modelsField fmt depth (said field) = .ok models := by
  cases models with
  | none =>
    cases htold with
    | nothing h =>
      rw [h]
      rfl
  | some models =>
    cases htold with
    | value raw h hloads =>
      rw [h, modelsField, parseModelsField, loadField_of_loads hloads, ok_bind]
      dsimp only
      rw [mapM_asText]
      rfl

theorem extractChecks_of_value (h : form.value "checks" = texts.checks.map .text)
    (htold : SaysJson fmt depth texts.checks (some (.arr request.checks)) ∨
      SaysJson fmt depth texts.checks none ∧ request.checks = []) :
    extractChecks fmt depth form = .ok request.checks := by
  rw [extractChecks, optionalText_of_value h, mapError_ok_bind]
  rcases htold with hvalue | ⟨hnothing, hempty⟩
  · cases hvalue with
    | value raw hraw hloads =>
      rw [hraw]
      dsimp only
      rw [loadField_of_loads hloads, ok_bind]
      rfl
  · cases hnothing with
    | nothing hnone =>
      rw [hnone, hempty]
      rfl

theorem extractSingleFile_of_perm (hperm : form.Perm (formOf request.upload texts)) :
    extractSingleFile form = .ok request.upload := by
  have hothers : ((optionalFields texts).flatMap textEntry).filter (·.1 = "file") = [] := by
    refine List.filter_eq_nil_iff.mpr fun entry hentry => ?_
    obtain ⟨field, hfield, hin⟩ := List.mem_flatMap.mp hentry
    obtain ⟨hkey, -⟩ := mem_textEntry.mp hin
    have hkeys : ∀ key ∈ (optionalFields texts).map (·.1), key ≠ "file" := by
      show ∀ key ∈ ["additionalContext", "model", "systemPrompt", "models", "checks"], key ≠ "file"
      simp
    have hne := hkeys _ (List.mem_map.mpr ⟨field, hfield, rfl⟩)
    rw [hkey] at hne
    simpa using hne
  have hfiltered : (form.filter (·.1 = "file")).Perm [("file", .file request.upload)] := by
    refine (hperm.filter _).trans ?_
    rw [formOf, List.filter_append, hothers, List.append_nil]
    exact List.Perm.refl _
  rw [extractSingleFile, List.perm_singleton.mp hfiltered]
  rfl

/-- What is said is never the empty text. -/
theorem said_ne_empty (field : Option String) : said field ≠ some "" := by
  intro h
  unfold said at h
  rw [Option.filter_eq_some_iff] at h
  exact absurd h.2 (by simp)

/-- The fields of a form say its request. -/
theorem extractRequest_of_perm (htold : Says fmt depth texts request)
    (hperm : form.Perm (formOf request.upload texts)) :
    extractRequest fmt depth form = .ok request := by
  have hkeys : (Dict.keys (requiredFields request.upload texts) ++
      (optionalFields texts).map (·.1)).Nodup := by
    show (["file", "schema", "additionalContext", "model", "systemPrompt", "models",
      "checks"] : List String).Nodup
    decide
  have hfield (key : String) (field : Option String) (hm : (key, field) ∈ optionalFields texts) :
      form.value key = field.map .text := value_of_entry hkeys hperm hm
  have hschema := extractSchema_of_value (value_of_mem (nodup_keys_form hkeys hperm)
    (hperm.mem_iff.mpr (by simp [formOf, requiredFields]))) htold.schema htold.schema_obj
  have hcontext := optionalText_of_value
    (hfield "additionalContext" texts.additionalContext (by simp [optionalFields]))
  have hmodel := optionalText_of_value (hfield "model" texts.model (by simp [optionalFields]))
  have hprompt := optionalText_of_value
    (hfield "systemPrompt" texts.systemPrompt (by simp [optionalFields]))
  have hmodels := optionalText_of_value (hfield "models" texts.models (by simp [optionalFields]))
  have hchecks := extractChecks_of_value
    (hfield "checks" texts.checks (by simp [optionalFields])) htold.checks
  -- no field says the empty text, so no override is empty
  have hvalid : validateOverrides
      { model := said texts.model, models := request.overrides.models
        systemPrompt := said texts.systemPrompt } = some request.overrides := by
    rw [← htold.model, ← htold.systemPrompt]
    refine if_neg ?_
    rintro (h | h)
    · exact said_ne_empty _ (htold.model.symm.trans h)
    · exact said_ne_empty _ (htold.systemPrompt.symm.trans h)
  have hoverrides : extractOverrides fmt depth form = .ok request.overrides := by
    rw [extractOverrides, hmodel, mapError_ok_bind, hprompt, mapError_ok_bind, hmodels,
      mapError_ok_bind, modelsField_of_field htold.models, ok_bind, hvalid]
    rfl
  rw [extractRequest, extractSingleFile_of_perm hperm, mapError_ok_bind, hschema, ok_bind,
    hoverrides, ok_bind, hcontext, mapError_ok_bind, hchecks, ok_bind, ← htold.additionalContext]
  rfl

/-- A form that was parsed to the end, and says a request, is received as this request; all
that shows is that the parser was fed. -/
theorem outcome_parseMultipartRequest {π : Type} {parser : MultipartParser π}
    {maxUploadBytes : Nat} {sent : MultipartRequest} (s : Session Reception)
    (hparsed : parsedForm parser maxUploadBytes sent = some form)
    (hextract : extractRequest fmt depth form = .ok request) :
    ∃ fed, (parseMultipartRequest fmt depth parser maxUploadBytes sent).outcome s =
      (.ok request, fedMore s fed) := by
  unfold parsedForm at hparsed
  unfold parseMultipartRequest
  cases hsize : rejectOversizedBody sent.contentLength maxUploadBytes with
  | error error =>
    rw [hsize] at hparsed
    cases hparsed
  | ok =>
    rw [hsize] at hparsed
    obtain ⟨fed, hfed, -, -⟩ :=
      @outcome_parseLimitedMultipartForm π maxUploadBytes parser sent.body s
    refine ⟨fed, ?_⟩
    dsimp only at hparsed ⊢
    rw [Program.outcome_bind_ok hfed]
    cases hresult : (do parser.finish (← feedResult parser (maxBodyBytes maxUploadBytes) sent.body 0
        (← parser.start)) : Except FormFailure FormData) with
    | error failure =>
      rw [hresult] at hparsed
      cases hparsed
    | ok found =>
      rw [hresult] at hparsed
      obtain rfl := Option.some.inj hparsed
      dsimp only
      rw [hextract]
      rfl

end RoundTrip

/-- **A form says its request.**  A request is written down as the fields of a form, its
JSON in any text that `json.loads` reads as the value, with any blanks around what a field
says, the fields in any order, and sent in any pieces: if the form is parsed to the end,
the request that is received is the one that was written down, and no file of it is
closed. -/
theorem form_round_trip {π : Type} (fmt : FloatText) (depth : Nat) (parser : MultipartParser π)
    (maxUploadBytes : Nat) (request : ParseMultipartRequest) (texts : FormTexts) (form : FormData)
    (sent : MultipartRequest) (s : Session Reception) (htold : Says fmt depth texts request)
    (hperm : form.Perm (formOf request.upload texts))
    (hparsed : parsedForm parser maxUploadBytes sent = some form) :
    ∃ fed, (parseMultipartRequest fmt depth parser maxUploadBytes sent).outcome s =
      (.ok request, fedMore s fed) :=
  outcome_parseMultipartRequest s hparsed (extractRequest_of_perm htold hperm)

/-- The schema of any object. -/
def objectSchema : LoadedJson := ⟨.obj [("type", .str "object")], rfl⟩

/-- A request with one of everything. -/
def ledgerRequest : ParseMultipartRequest where
  upload := twoReads (.chunk [] none)
  schema := objectSchema
  additionalContext := some "é"
  overrides := { models := some ["a", "b"], systemPrompt := some "Read \"all\" of it" }
  checks := [.obj [("op", .str "present")]]

/-- Its texts, in some spelling. -/
def ledgerTexts : FormTexts where
  schema := "\n\x7b \"type\" : \"\\u006fbject\"\x7d "
  additionalContext := some " é\n"
  model := some "  "
  systemPrompt := some "Read \"all\" of it"
  models := some "[\"a\",\t\"b\"]"
  checks := some "[ \x7b\"op\":\"absent\",\"op\":\"present\"\x7d ]"

theorem ledgerTexts_say : Says wholeFloats 5 ledgerTexts ledgerRequest where
  schema := .value "\x7b \"type\" : \"\\u006fbject\"\x7d" (by decide +kernel)
    (by decide +kernel)
  schema_obj := ⟨_, rfl⟩
  additionalContext := by decide +kernel
  model := by decide +kernel
  systemPrompt := by decide +kernel
  models := .value _ rfl (by decide +kernel)
  checks := Or.inl (.value _ rfl (by decide +kernel))

/-- The parser, as far as it has to do with these bytes. -/
def parserOf (bytes : List UInt8) (form : FormData) : MultipartParser (List UInt8) where
  start := .ok []
  write read more := .ok (read ++ more)
  finish read := if read = bytes then .ok form else .error (.multipart "Stream ended early")

/-- A body in one piece. -/
def bodyOf (bytes : List UInt8) : MultipartRequest where
  contentLength := none
  body := [.chunk bytes]

theorem parsedForm_parserOf {bytes : List UInt8} {form : FormData} {maxUploadBytes : Nat}
    (h : bytes.length ≤ maxBodyBytes maxUploadBytes) :
    parsedForm (parserOf bytes form) maxUploadBytes (bodyOf bytes) = some form := by
  have hlimit : ¬maxBodyBytes maxUploadBytes < 0 + bytes.length := by omega
  unfold parsedForm bodyOf
  simp only [rejectOversizedBody, feedResult, if_neg hlimit]
  simp [parserOf, bind, Except.bind, Except.toOption]

theorem le_maxBodyBytes (maxUploadBytes : Nat) : maxUploadBytes ≤ maxBodyBytes maxUploadBytes :=
  Nat.le_add_right _ _

/-- `text.encode()`. -/
def utf8Bytes (text : String) : List UInt8 := text.toList.flatMap String.utf8EncodeChar

/-- The same request, from the last field to the first. -/
def ledgerBody : List UInt8 := utf8Bytes
  ("--b\r\nContent-Disposition: form-data; name=\"checks\"\r\n\r\n" ++
    "[ \x7b\"op\":\"absent\",\"op\":\"present\"\x7d ]\r\n" ++
    "--b\r\nContent-Disposition: form-data; name=\"models\"\r\n\r\n[\"a\",\t\"b\"]\r\n" ++
    "--b\r\nContent-Disposition: form-data; name=\"systemPrompt\"\r\n\r\n" ++
    "Read \"all\" of it\r\n" ++
    "--b\r\nContent-Disposition: form-data; name=\"model\"\r\n\r\n  \r\n" ++
    "--b\r\nContent-Disposition: form-data; name=\"additionalContext\"\r\n\r\n é\n\r\n" ++
    "--b\r\nContent-Disposition: form-data; name=\"schema\"\r\n\r\n" ++
    "\n\x7b \"type\" : \"\\u006fbject\"\x7d \r\n" ++
    "--b\r\nContent-Disposition: form-data; name=\"file\"; filename=\"Report.PDF\"\r\n" ++
    "Content-Type: application/pdf\r\n\r\n%PDF-\r\n--b--\r\n")

theorem reversed_form_reads_back :
    ∃ fed, (parseMultipartRequest wholeFloats 5
        (parserOf ledgerBody (formOf ledgerRequest.upload ledgerTexts).reverse)
        ledgerBody.length (bodyOf ledgerBody)).outcome { world := {} } =
      (.ok ledgerRequest, fedMore { world := {} } fed) :=
  form_round_trip wholeFloats 5 _ ledgerBody.length ledgerRequest ledgerTexts _
    (bodyOf ledgerBody) { world := {} } ledgerTexts_say (List.reverse_perm _)
    (parsedForm_parserOf (le_maxBodyBytes _))

end InternumCore
