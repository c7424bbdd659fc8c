import InternumCore.Conformance
import InternumCore.Extraction

/-!
# The response, and how it is documented

`parse_document` answers with what the `to_api` methods of `models.py` make of a parsed
document.  `schemas.py` documents that answer for FastAPI to publish; nothing compares
the two.

A `Shape` is what a documented model says of a value: a model has its fields, all of
them and in their order, and no other, which is more than pydantic asks for.
`runParse_documented` is the comparison, for every run of the service.
-/

namespace InternumCore

/-! ## What a response says -/

/-- `None`, or what `f` makes of the value. -/
def orNull {α : Type} (f : α → Json) (o : Option α) : Json := (o.map f).getD .null

/-- `UsageSummary.to_api`. -/
def UsageSummary.toApi (decimalText : ℚ → String) (usage : UsageSummary) : Json :=
  .obj [("model", .str usage.model), ("promptTokens", .int usage.promptTokens),
    ("completionTokens", .int usage.completionTokens), ("totalTokens", .int usage.totalTokens),
    ("costUsd", orNull (fun cost => .str (decimalText cost)) usage.costUsd)]

/-- `PostCheckResult.to_api`. -/
def PostCheckResult.toApi (check : PostCheckResult) : Json :=
  .obj [("op", .str check.op), ("passed", .bool check.passed), ("detail", .obj check.detail)]

/-- `ChunkingSummary.to_api`. -/
def ChunkingSummary.toApi (summary : ChunkingSummary) : Json :=
  .obj [("chunked", .bool summary.chunked), ("totalRows", .int summary.totalRows),
    ("chunkCount", .int summary.chunkCount),
    ("failedChunks", .arr (summary.failedChunks.map fun index => .int index)),
    ("partial", .bool summary.partialResult), ("model", .str summary.model)]

/-- `ParseMetadata.to_api`. -/
def ParseMetadata.toApi (decimalText : ℚ → String) (metadata : ParseMetadata) : Json :=
  .obj [("documentType", .str metadata.documentType.value),
    ("extractionMode", orNull (fun mode => .str mode.value) metadata.extractionMode),
    ("pageCount", orNull (fun count => .int count) metadata.pageCount),
    ("ocrPageCount", orNull (fun count => .int count) metadata.ocrPageCount),
    ("converter", orNull .str metadata.converter),
    ("usage", orNull (·.toApi decimalText) metadata.usage),
    ("checks", .arr (metadata.checks.map (·.toApi))),
    ("chunking", orNull (·.toApi) metadata.chunking)]

/-- What `parse_document` returns. -/
def ParsedDocument.response (decimalText : ℚ → String) (parsed : ParsedDocument) : Json :=
  .obj [("data", parsed.data), ("meta", parsed.metadata.toApi decimalText)]

/-! ## What is documented -/

/-- What a documented value may be. -/
inductive Shape where
  | text
  | integer
  | boolean
  /-- `dict[str, Any]`. -/
  | dict
  /-- An enumeration, by its values. -/
  | oneOf (values : List String)
  | nullable (shape : Shape)
  | list (shape : Shape)
  /-- A model, by the aliases of its fields. -/
  | model (fields : List (String × Shape))

mutual

def Shape.accepts : Shape → Json → Bool
  | .text, .str _ => true
  | .integer, .int _ => true
  | .boolean, .bool _ => true
  | .dict, .obj _ => true
  | .oneOf values, .str s => values.contains s
  | .nullable shape, v => v == .null || shape.accepts v
  | .list shape, .arr items => items.all fun v => shape.accepts v
  | .model fields, .obj entries => acceptsFields fields entries
  | _, _ => false

def acceptsFields : List (String × Shape) → List (String × Json) → Bool
  | [], [] => true
  | (name, shape) :: fields, (key, v) :: entries =>
    key == name && shape.accepts v && acceptsFields fields entries
  | _, _ => false

end

/-- `UsageSummarySchema`. -/
def usageSummarySchema : Shape :=
  .model [("model", .text), ("promptTokens", .integer), ("completionTokens", .integer),
    ("totalTokens", .integer), ("costUsd", .nullable .text)]

/-- `PostCheckResultSchema`. -/
def postCheckResultSchema : Shape :=
  .model [("op", .text), ("passed", .boolean), ("detail", .dict)]

/-- `ChunkingSummarySchema`. -/
def chunkingSummarySchema : Shape :=
  .model [("chunked", .boolean), ("totalRows", .integer), ("chunkCount", .integer),
    ("failedChunks", .list .integer), ("partial", .boolean), ("model", .text)]

/-- `ParseMetaSchema`. -/
def parseMetaSchema : Shape :=
  .model [("documentType", .oneOf ["pdf", "docx", "doc", "html", "xlsx", "xls", "jpg", "png"]),
    ("extractionMode", .nullable (.oneOf ["native", "scan", "mixed", "empty"])),
    ("pageCount", .nullable .integer), ("ocrPageCount", .nullable .integer),
    ("converter", .nullable .text), ("usage", .nullable usageSummarySchema),
    ("checks", .list postCheckResultSchema), ("chunking", .nullable chunkingSummarySchema)]

/-- `ParseResponseSchema`. -/
def parseResponseSchema : Shape := .model [("data", .dict), ("meta", parseMetaSchema)]

/-! ## Every response is as documented -/

section Documented

variable {α : Type} {f : α → Json} {shape : Shape} {v : Json} {name : String}
  {fields : List (String × Shape)} {entries : List (String × Json)}

theorem accepts_model (h : acceptsFields fields entries = true) :
    (Shape.model fields).accepts (.obj entries) = true := h

theorem acceptsFields_cons (h : shape.accepts v = true) (hrest : acceptsFields fields entries = true) :
    acceptsFields ((name, shape) :: fields) ((name, v) :: entries) = true := by
  simp [acceptsFields, h, hrest]

theorem accepts_orNull (o : Option α) (h : ∀ a, shape.accepts (f a) = true) :
    (Shape.nullable shape).accepts (orNull f o) = true := by
  cases o with
  | none => simp [Shape.accepts, orNull]
  | some a => simp [Shape.accepts, orNull, h a]

theorem accepts_list (items : List α) (h : ∀ a, shape.accepts (f a) = true) :
    (Shape.list shape).accepts (.arr (items.map f)) = true := by
  simp [Shape.accepts, h]

/-- The values of a type are those it is documented with. -/
theorem accepts_documentType (documentType : SupportedDocumentType) :
    (Shape.oneOf ["pdf", "docx", "doc", "html", "xlsx", "xls", "jpg", "png"]).accepts
      (.str documentType.value) = true := by
  cases documentType <;> decide

theorem accepts_extractionMode (mode : ExtractionMode) :
    (Shape.oneOf ["native", "scan", "mixed", "empty"]).accepts (.str mode.value) = true := by
  cases mode <;> decide

theorem usageSummary_documented (decimalText : ℚ → String) (usage : UsageSummary) :
    usageSummarySchema.accepts (usage.toApi decimalText) = true :=
  accepts_model <| acceptsFields_cons rfl <| acceptsFields_cons rfl <| acceptsFields_cons rfl <|
    acceptsFields_cons rfl <| acceptsFields_cons (accepts_orNull _ fun _ => rfl) rfl

theorem postCheckResult_documented (check : PostCheckResult) :
    postCheckResultSchema.accepts check.toApi = true :=
  accepts_model <| acceptsFields_cons rfl <| acceptsFields_cons rfl <| acceptsFields_cons rfl rfl

theorem chunkingSummary_documented (summary : ChunkingSummary) :
    chunkingSummarySchema.accepts summary.toApi = true :=
  accepts_model <| acceptsFields_cons rfl <| acceptsFields_cons rfl <| acceptsFields_cons rfl <|
    acceptsFields_cons (accepts_list _ fun _ => rfl) <| acceptsFields_cons rfl <|
      acceptsFields_cons rfl rfl

theorem parseMetadata_documented (decimalText : ℚ → String) (metadata : ParseMetadata) :
    parseMetaSchema.accepts (metadata.toApi decimalText) = true := by
  refine accepts_model <| acceptsFields_cons (accepts_documentType _) <|
    acceptsFields_cons (accepts_orNull _ accepts_extractionMode) <|
      acceptsFields_cons (accepts_orNull _ fun _ => rfl) <|
        acceptsFields_cons (accepts_orNull _ fun _ => rfl) <|
          acceptsFields_cons (accepts_orNull _ fun _ => rfl) ?_
  exact acceptsFields_cons (accepts_orNull _ (usageSummary_documented decimalText)) <|
    acceptsFields_cons (accepts_list _ postCheckResult_documented) <|
      acceptsFields_cons (accepts_orNull _ chunkingSummary_documented) rfl

/-- A response is as documented when its data is an object. -/
theorem response_documented (decimalText : ℚ → String) {parsed : ParsedDocument}
    (h : parsed.data.isObject = true) :
    parseResponseSchema.accepts (parsed.response decimalText) = true := by
  obtain ⟨data, metadata⟩ := parsed
  cases data with
  | obj entries =>
    exact accepts_model <| acceptsFields_cons rfl <|
      acceptsFields_cons (parseMetadata_documented decimalText metadata) rfl
  | _ => cases h

/-- Normalizing leaves an object an object. -/
theorem isObject_normalizeValues (v schema : Json) :
    (normalizeValues v schema).isObject = v.isObject :=
  Option.some.inj (isType_normalizeNode v schema "object")

variable {ω : Type} {service : DocumentParsingService ω} {request : ParseMultipartRequest}
  {consumerId requestId : Option String} {s : Session ω}

theorem runSinglePass_isObject {markdown : String} {resolved : ResolvedModelConfig}
    {metadata : ParseMetadata} :
    (service.runSinglePass request markdown resolved metadata consumerId requestId).Triple s
      (fun parsed _ => parsed.data.isObject = true) fun _ _ => True := by
  refine ((answer_triple rfl).mono (fun _ _ h => h) fun _ _ _ => trivial).bind ?_
  intro p s₁ hr
  obtain ⟨data, result⟩ := p
  obtain ⟨_, _, _, hchecked⟩ := hr
  obtain ⟨-, -, hobject⟩ := accepts_of_checkedOutput hchecked
  exact (Program.Triple.any _ _).bind fun _ _ _ =>
    .pure ((isObject_normalizeValues _ _).trans hobject)

theorem requireObject_isObject {validated data : Json} (h : requireObject validated = .ok data) :
    data.isObject = true := by
  unfold requireObject at h
  split at h
  · next hobject =>
    obtain rfl := Except.ok.inj h
    exact hobject
  · cases h

theorem runChunkedParse_isObject {plan : Chunking.ChunkPlan} {resolved : ResolvedModelConfig}
    {metadata : ParseMetadata} :
    (service.runChunkedParse request plan resolved metadata consumerId requestId).Triple s
      (fun parsed _ => parsed.data.isObject = true) fun _ _ => True := by
  -- the plan, the chunks, the end of `gather`, the summary and the failed chunks
  refine (Program.Triple.any _ _).bind fun _ _ _ => ?_
  refine (Program.Triple.any _ _).bind fun results _ _ => ?_
  refine (Program.Triple.any _ _).bind fun interruption _ _ => ?_
  refine (Program.Triple.any _ _).bind fun _ _ _ => ?_
  refine (Program.Triple.any _ _).bind fun summary _ _ => ?_
  refine (Program.Triple.any _ _).bind fun _ _ _ => ?_
  refine (Program.Triple.any _ _).bind fun validated _ _ => ?_
  refine (Program.Triple.ofExcept_eq _ _).bind fun data _ hdata => ?_
  exact (Program.Triple.any _ _).bind fun _ _ _ =>
    .pure ((isObject_normalizeValues _ _).trans (requireObject_isObject hdata))

/-- **What a parse returns makes a response as it is documented**: whatever the schema
allows, the data is an object, for which the output of the model and the assembled chunks
are checked alike. -/
theorem runParse_documented (decimalText : ℚ → String) :
    (service.runParse request consumerId requestId).Triple s
      (fun parsed _ => parseResponseSchema.accepts (parsed.response decimalText) = true)
      fun _ _ => True := by
  have hobject : (service.runParse request consumerId requestId).Triple s
      (fun parsed _ => parsed.data.isObject = true) fun _ _ => True := by
    refine (Program.Triple.any _ _).bind fun extracted _ _ => ?_
    dsimp only
    split
    · exact runChunkedParse_isObject
    · exact runSinglePass_isObject
  exact hobject.mono (fun _ _ h => response_documented decimalText h) fun _ _ _ => trivial

end Documented

end InternumCore
