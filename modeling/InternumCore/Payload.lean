import InternumCore.Client
import InternumCore.JsonRoundTrip
import InternumCore.ModelSchema

/-!
# The payload of a completion request

`buildPayload` writes an `OpenRouterRequest` down for the provider, either with the
schema as the response format (`native`) or with the schema in a last message
(`fallback`).  `Prompt` is what of a request the model is to see, whichever way it is
written down.

The payload tells all of it and nothing else.  In the native form two requests have
one payload exactly if they agree in their prompts, in the provider's sort order and
in the normalized schema; in the fallback form exactly if they agree in the prompts,
the order and the schema itself, up to the order of its keys.
-/

namespace InternumCore

open JsonText

/-- `ImageInput`. -/
structure ImageInput where
  mimeType : String
  base64Data : String
  detail : String := "auto"

/-- `data_url`. -/
def ImageInput.dataUrl (image : ImageInput) : String :=
  "data:" ++ image.mimeType ++ ";base64," ++ image.base64Data

/-! ## Messages -/

/-- A part of a message in text. -/
def textPart (text : String) : List (String × Json) := [("type", .str "text"), ("text", .str text)]

/-- A part of a message that is an image. -/
def imagePart (image : ImageInput) : Json :=
  .obj [("type", .str "image_url"),
    ("image_url", .obj [("url", .str image.dataUrl), ("detail", .str image.detail)])]

/-- `_build_user_content` of the client. -/
def userMessageContent (text : String) (images : List ImageInput) : Json :=
  if images = [] then .str text else .arr (.obj (textPart text) :: images.map imagePart)

/-- `system_content`. -/
def systemContent (request : OpenRouterRequest) : Json :=
  if request.cacheControl then
    .arr [.obj (textPart request.systemPrompt ++
      [("cache_control", .obj [("type", .str "ephemeral")])])]
  else .str request.systemPrompt

/-- A message. -/
def message (role : String) (content : Json) : Json :=
  .obj [("role", .str role), ("content", content)]

/-- The messages both forms begin with. -/
def conversation (request : OpenRouterRequest) (images : List ImageInput) : List Json :=
  [message "system" (systemContent request),
    message "user" (userMessageContent request.userContent images)] ++
  (request.validationRetryPrompt.map fun text => message "user" (.str text)).toList

/-- The line before the schema in the last message of the fallback form. -/
def instructionLine : String :=
  "Return only JSON that matches this JSON Schema. " ++
    "Do not include markdown fences or explanatory text."

/-- The last message of the fallback form. -/
def fallbackInstruction (fmt : FloatText) (schema : Json) : String :=
  instructionLine ++ "\n" ++ dumps fmt { sortKeys := true } schema

/-! ## The payload -/

/-- An entry that is there if its value is. -/
def entryOf (key : String) (value : Option Json) : List (String × Json) :=
  (value.map fun v => (key, v)).toList

/-- `models` if there are any, else `model`. -/
def modelEntry (request : OpenRouterRequest) : String × Json :=
  match request.models with
  | some (model :: models) => ("models", .arr ((model :: models).map .str))
  | _ => ("model", .str request.model)

/-- The entries that are there if they are set. -/
def optionalEntries (request : OpenRouterRequest) : List (String × Json) :=
  entryOf "reasoning" (request.reasoningEffort.map fun effort => .obj [("effort", .str effort)]) ++
    (entryOf "temperature" (request.temperature.map fun t => .float (.finite t)) ++
      entryOf "max_tokens" (request.maxOutputTokens.map fun n => .int n))

/-- The entries of both forms; later keys come behind the earlier ones. -/
def commonEntries (request : OpenRouterRequest) (messages : List Json) : List (String × Json) :=
  ("messages", .arr messages) :: ("stream", .bool true) ::
    ("stream_options", .obj [("include_usage", .bool true)]) :: modelEntry request ::
    optionalEntries request

/-- The strict response format for a schema. -/
def responseFormat (schema : Json) : Json :=
  .obj [("type", .str "json_schema"),
    ("json_schema", .obj [("name", .str "extraction_result"), ("strict", .bool true),
      ("schema", schema)])]

/-- `_build_payload`. -/
def buildPayload (fmt : FloatText) (providerSort : Option String) (request : OpenRouterRequest)
    (images : List ImageInput) : StructuredMode → Json
  | .native =>
    .obj (commonEntries request (conversation request images) ++
      [("provider", .obj (("require_parameters", .bool true) ::
          entryOf "sort" (providerSort.map .str))),
        ("response_format", responseFormat (normalizeForModel request.schema))])
  | .fallback =>
    .obj (commonEntries request (conversation request images ++
        [message "user" (.str (fallbackInstruction fmt request.schema))]) ++
      entryOf "provider" (providerSort.map fun sort => .obj [("sort", .str sort)]))

/-! ## What the payload tells -/

/-- What the model is asked with: all of a request that its payload shows in either
form. -/
structure Prompt where
  systemPrompt : String
  cacheControl : Bool
  userContent : String
  /-- The address and the detail of every image. -/
  images : List (String × String)
  validationRetryPrompt : Option String
  /-- The chain of models, or the one model. -/
  model : List String ⊕ String
  reasoningEffort : Option String
  temperature : Option ℚ
  maxOutputTokens : Option Nat
  deriving DecidableEq

def promptOf (request : OpenRouterRequest) (images : List ImageInput) : Prompt where
  systemPrompt := request.systemPrompt
  cacheControl := request.cacheControl
  userContent := request.userContent
  images := images.map fun image => (image.dataUrl, image.detail)
  validationRetryPrompt := request.validationRetryPrompt
  model := match request.models with
    | some (model :: models) => .inl (model :: models)
    | _ => .inr request.model
  reasoningEffort := request.reasoningEffort
  temperature := request.temperature
  maxOutputTokens := request.maxOutputTokens

section Tells

variable {fmt : FloatText} {sort sort' : Option String} {request request' : OpenRouterRequest}
  {images images' : List ImageInput}

@[simp] theorem lookup_entryOf (key key' : String) (value : Option Json) :
    (entryOf key value).lookup key' = if key' = key then value else none := by
  cases value with
  | none => simp [entryOf]
  | some v =>
    by_cases h : key' = key
    · subst h
      simp [entryOf]
    · have hne : (key' == key) = false := beq_eq_false_iff_ne.mpr h
      simp [entryOf, List.lookup_cons, h, hne]

/-! ### Reading the messages -/

theorem systemContent_inj (h : systemContent request = systemContent request') :
    request.systemPrompt = request'.systemPrompt ∧ request.cacheControl = request'.cacheControl := by
  unfold systemContent at h
  cases hc : request.cacheControl <;> cases hc' : request'.cacheControl <;> rw [hc, hc'] at h <;>
    simp_all [textPart]

theorem imagePart_inj {image image' : ImageInput} (h : imagePart image = imagePart image') :
    (image.dataUrl, image.detail) = (image'.dataUrl, image'.detail) := by
  simpa [imagePart] using h

theorem map_of_map_imagePart (h : images.map imagePart = images'.map imagePart) :
    images.map (fun image => (image.dataUrl, image.detail)) =
      images'.map fun image => (image.dataUrl, image.detail) := by
  induction images generalizing images' with
  | nil =>
    have hnil : images' = [] := by simpa using h.symm
    rw [hnil]
  | cons image images ih =>
    cases images' with
    | nil => cases h
    | cons image' images' =>
      rw [List.map_cons, List.map_cons] at h
      rw [List.map_cons, List.map_cons, imagePart_inj (List.cons.inj h).1, ih (List.cons.inj h).2]

theorem userMessageContent_inj {text text' : String}
    (h : userMessageContent text images = userMessageContent text' images') :
    text = text' ∧ images.map (fun image => (image.dataUrl, image.detail)) =
      images'.map fun image => (image.dataUrl, image.detail) := by
  unfold userMessageContent at h
  by_cases hi : images = []
  · by_cases hi' : images' = []
    · rw [if_pos hi, if_pos hi'] at h
      exact ⟨Json.str.inj h, by rw [hi, hi']⟩
    · rw [if_pos hi, if_neg hi'] at h
      cases h
  · by_cases hi' : images' = []
    · rw [if_neg hi, if_pos hi'] at h
      cases h
    · rw [if_neg hi, if_neg hi'] at h
      obtain ⟨htext, himages⟩ := List.cons.inj (Json.arr.inj h)
      exact ⟨by simpa [textPart] using htext, map_of_map_imagePart himages⟩

theorem message_inj {role : String} {content content' : Json}
    (h : message role content = message role content') : content = content' := by
  simpa [message] using h

/-- The conversation tells the prompts, the images and the retry. -/
theorem conversation_inj (h : conversation request images = conversation request' images') :
    (request.systemPrompt = request'.systemPrompt ∧ request.cacheControl = request'.cacheControl) ∧
      (request.userContent = request'.userContent ∧
        images.map (fun image => (image.dataUrl, image.detail)) =
          images'.map fun image => (image.dataUrl, image.detail)) ∧
      request.validationRetryPrompt = request'.validationRetryPrompt := by
  obtain ⟨hsystem, hrest⟩ := List.cons.inj h
  obtain ⟨huser, hretry⟩ := List.cons.inj hrest
  refine ⟨systemContent_inj (message_inj hsystem), userMessageContent_inj (message_inj huser), ?_⟩
  cases hr : request.validationRetryPrompt <;> cases hr' : request'.validationRetryPrompt <;>
    rw [hr, hr'] at hretry <;> simp_all [message]

/-- The same prompt makes the same conversation. -/
theorem conversation_congr (h : promptOf request images = promptOf request' images') :
    conversation request images = conversation request' images' := by
  have hsystem : request.systemPrompt = request'.systemPrompt := congrArg Prompt.systemPrompt h
  have hcache : request.cacheControl = request'.cacheControl := congrArg Prompt.cacheControl h
  have huser : request.userContent = request'.userContent := congrArg Prompt.userContent h
  have hretry : request.validationRetryPrompt = request'.validationRetryPrompt :=
    congrArg Prompt.validationRetryPrompt h
  have himages : images.map (fun image => (image.dataUrl, image.detail)) =
      images'.map fun image => (image.dataUrl, image.detail) := congrArg Prompt.images h
  have hparts : images.map imagePart = images'.map imagePart := by
    have hpart : imagePart = (fun view : String × String => Json.obj [("type", .str "image_url"),
        ("image_url", .obj [("url", .str view.1), ("detail", .str view.2)])]) ∘
          fun image => (image.dataUrl, image.detail) := rfl
    rw [hpart, ← List.map_map, ← List.map_map, himages]
  have hempty : images = [] ↔ images' = [] := by
    rw [← List.map_eq_nil_iff, himages, List.map_eq_nil_iff]
  unfold conversation systemContent userMessageContent
  simp only [hsystem, hcache, huser, hretry, hparts, hempty]

/-! ### Reading the entries -/

theorem modelEntry_eq_iff (images images' : List ImageInput) :
    modelEntry request = modelEntry request' ↔
      (promptOf request images).model = (promptOf request' images').model := by
  have hstr : Function.Injective Json.str := fun _ _ h => Json.str.inj h
  unfold modelEntry promptOf
  rcases request.models with _ | (_ | ⟨m, ms⟩) <;> rcases request'.models with _ | (_ | ⟨m', ms'⟩) <;>
    simp [List.map_inj_right hstr]

/-- What comes behind the optional entries does not hide them. -/
theorem optionalEntries_inj {rest rest' : List (String × Json)}
    (hrest : ∀ key ∈ ["reasoning", "temperature", "max_tokens"],
      rest.lookup key = none ∧ rest'.lookup key = none)
    (h : optionalEntries request ++ rest = optionalEntries request' ++ rest') :
    request.reasoningEffort = request'.reasoningEffort ∧
      request.temperature = request'.temperature ∧
      request.maxOutputTokens = request'.maxOutputTokens ∧
      rest.lookup "provider" = rest'.lookup "provider" ∧
      rest.lookup "response_format" = rest'.lookup "response_format" := by
  have hlookup (key : String) := congrArg (List.lookup key) h
  have hreasoning := hlookup "reasoning"
  have htemperature := hlookup "temperature"
  have htokens := hlookup "max_tokens"
  have hprovider := hlookup "provider"
  have hformat := hlookup "response_format"
  obtain ⟨hr, hr'⟩ := hrest "reasoning" (by simp)
  obtain ⟨ht, ht'⟩ := hrest "temperature" (by simp)
  obtain ⟨hm, hm'⟩ := hrest "max_tokens" (by simp)
  simp only [optionalEntries, List.lookup_append, lookup_entryOf, hr, hr', ht, ht', hm, hm',
    String.reduceEq, if_true, if_false, Option.or_none, Option.none_or]
    at hreasoning htemperature htokens hprovider hformat
  refine ⟨?_, ?_, ?_, hprovider, hformat⟩
  · cases he : request.reasoningEffort <;> cases he' : request'.reasoningEffort <;>
      rw [he, he'] at hreasoning <;> simp_all
  · cases he : request.temperature <;> cases he' : request'.temperature <;>
      rw [he, he'] at htemperature <;> simp_all
  · cases he : request.maxOutputTokens <;> cases he' : request'.maxOutputTokens <;>
      rw [he, he'] at htokens <;> simp_all

theorem commonEntries_inj {messages messages' : List Json} {rest rest' : List (String × Json)}
    (h : commonEntries request messages ++ rest = commonEntries request' messages' ++ rest') :
    messages = messages' ∧ modelEntry request = modelEntry request' ∧
      optionalEntries request ++ rest = optionalEntries request' ++ rest' := by
  simp only [commonEntries, List.cons_append, List.cons.injEq, Prod.mk.injEq, Json.arr.injEq,
    true_and] at h
  exact h

theorem commonEntries_congr (h : promptOf request images = promptOf request' images')
    (messages : List Json) : commonEntries request messages = commonEntries request' messages := by
  have hmodel : modelEntry request = modelEntry request' :=
    (modelEntry_eq_iff images images').mpr (congrArg Prompt.model h)
  have hreasoning : request.reasoningEffort = request'.reasoningEffort :=
    congrArg Prompt.reasoningEffort h
  have htemperature : request.temperature = request'.temperature := congrArg Prompt.temperature h
  have htokens : request.maxOutputTokens = request'.maxOutputTokens :=
    congrArg Prompt.maxOutputTokens h
  unfold commonEntries optionalEntries
  rw [hmodel, hreasoning, htemperature, htokens]

/-- The parts of a prompt, put together. -/
theorem promptOf_ext (hmessages : conversation request images = conversation request' images')
    (hmodel : modelEntry request = modelEntry request')
    (hreasoning : request.reasoningEffort = request'.reasoningEffort)
    (htemperature : request.temperature = request'.temperature)
    (htokens : request.maxOutputTokens = request'.maxOutputTokens) :
    promptOf request images = promptOf request' images' := by
  obtain ⟨⟨hsystem, hcache⟩, ⟨huser, himages⟩, hretry⟩ := conversation_inj hmessages
  have hchain := (modelEntry_eq_iff images images').mp hmodel
  unfold promptOf at hchain ⊢
  dsimp only at hchain
  rw [hsystem, hcache, huser, himages, hretry, hchain, hreasoning, htemperature, htokens]

/-! ### The two forms -/

/-- **The native form** tells the prompt, the sort order and the normalized schema, and
nothing else. -/
theorem native_payload_eq_iff (fmt : FloatText) :
    buildPayload fmt sort request images .native = buildPayload fmt sort' request' images' .native ↔
      promptOf request images = promptOf request' images' ∧ sort = sort' ∧
        normalizeForModel request.schema = normalizeForModel request'.schema := by
  constructor
  · intro h
    obtain ⟨hmessages, hmodel, hrest⟩ := commonEntries_inj (Json.obj.inj h)
    obtain ⟨hreasoning, htemperature, htokens, hprovider, hformat⟩ :=
      optionalEntries_inj (by simp [List.lookup_cons]) hrest
    refine ⟨promptOf_ext hmessages hmodel hreasoning htemperature htokens, ?_, ?_⟩
    · cases sort <;> cases sort' <;> simp_all [entryOf]
    · simpa [List.lookup_cons, responseFormat] using hformat
  · intro h
    obtain ⟨hprompt, rfl, hschema⟩ := h
    rw [buildPayload, buildPayload, conversation_congr hprompt, commonEntries_congr hprompt,
      hschema]

/-- The text of the fallback message behind its line feed. -/
def instructionSchema (text : String) : String :=
  String.ofList ((text.toList.dropWhile (· ≠ '\n')).drop 1)

theorem instructionSchema_fallbackInstruction (fmt : FloatText) (schema : Json) :
    instructionSchema (fallbackInstruction fmt schema) = dumps fmt { sortKeys := true } schema := by
  have hall : instructionLine.toList.all (· ≠ '\n') = true := by decide +kernel
  have hline : ∀ c ∈ instructionLine.toList, decide (c ≠ '\n') = true := List.all_eq_true.mp hall
  have hsplit : (fallbackInstruction fmt schema).toList =
      instructionLine.toList ++ '\n' :: (dumps fmt { sortKeys := true } schema).toList := by
    simp [fallbackInstruction]
  rw [instructionSchema, hsplit, List.dropWhile_append_of_pos hline]
  simp

/-- **The schema of the fallback form reads back**: the last message, behind its line
feed, is a JSON text of the schema. -/
theorem loads_fallbackInstruction {depth : Nat} {schema : Json} (h : Printable fmt depth schema) :
    loads fmt depth (instructionSchema (fallbackInstruction fmt schema)) =
      .ok (sortTree schema) := by
  rw [instructionSchema_fallbackInstruction]
  exact loads_dumps h _

/-- **The fallback form** tells the prompt, the sort order and the schema up to the
order of its keys, and nothing else. -/
theorem fallback_payload_eq_iff {depth depth' : Nat} (hs : Printable fmt depth request.schema)
    (hs' : Printable fmt depth' request'.schema) :
    buildPayload fmt sort request images .fallback =
        buildPayload fmt sort' request' images' .fallback ↔
      promptOf request images = promptOf request' images' ∧ sort = sort' ∧
        sortTree request.schema = sortTree request'.schema := by
  constructor
  · intro h
    obtain ⟨hmessages, hmodel, hrest⟩ := commonEntries_inj (Json.obj.inj h)
    obtain ⟨hconversation, hlast⟩ := List.append_inj' hmessages rfl
    obtain ⟨hreasoning, htemperature, htokens, hprovider, -⟩ :=
      optionalEntries_inj (by simp) hrest
    refine ⟨promptOf_ext hconversation hmodel hreasoning htemperature htokens, ?_, ?_⟩
    · cases sort <;> cases sort' <;> simp_all
    · have htext := Json.str.inj (message_inj (List.cons.inj hlast).1)
      have hdumps := congrArg instructionSchema htext
      rw [instructionSchema_fallbackInstruction, instructionSchema_fallbackInstruction] at hdumps
      exact arrange_eq_of_dumps hs hs' hdumps
  · intro h
    obtain ⟨hprompt, rfl, hschema⟩ := h
    have hdumps : dumps fmt { sortKeys := true } request.schema =
        dumps fmt { sortKeys := true } request'.schema := by
      show String.ofList (dumpTree fmt _ (sortTree request.schema)) = _
      rw [hschema]
      rfl
    rw [buildPayload, buildPayload, fallbackInstruction, fallbackInstruction,
      conversation_congr hprompt, commonEntries_congr hprompt, hdumps]

end Tells

/-- **The payload tells the request.**  In either form two requests are written down
alike exactly if the model is asked alike: with the same prompts, image addresses and
details, models and options, and with schemas that are alike once normalized, or, in the
fallback form, up to the order of their keys.  There the schema can be read back from the
last message. -/
theorem payload_tells_request (fmt : FloatText) (sort sort' : Option String)
    (request request' : OpenRouterRequest) (images images' : List ImageInput) :
    (buildPayload fmt sort request images .native = buildPayload fmt sort' request' images' .native ↔
      promptOf request images = promptOf request' images' ∧ sort = sort' ∧
        normalizeForModel request.schema = normalizeForModel request'.schema) ∧
    ∀ depth, Printable fmt depth request.schema → Printable fmt depth request'.schema →
      (buildPayload fmt sort request images .fallback =
          buildPayload fmt sort' request' images' .fallback ↔
        promptOf request images = promptOf request' images' ∧ sort = sort' ∧
          sortTree request.schema = sortTree request'.schema) ∧
      loads fmt depth (instructionSchema (fallbackInstruction fmt request.schema)) =
        .ok (sortTree request.schema) :=
  ⟨native_payload_eq_iff fmt, fun _ hs hs' =>
    ⟨fallback_payload_eq_iff hs hs', loads_fallbackInstruction hs⟩⟩

/-- A schema with its keys in two orders. -/
def orderedRequest (fields : List (String × Json)) : OpenRouterRequest :=
  { plainRequest with schema := .obj fields, validationRetryPrompt := some "Try again" }

theorem reordered_schema_payload :
    buildPayload wholeFloats (some "price")
        (orderedRequest [("type", .str "string"), ("minLength", .int 3)]) [] .fallback =
      buildPayload wholeFloats (some "price")
        (orderedRequest [("minLength", .int 3), ("type", .str "string")]) [] .fallback := by
  have hprint : ∀ fields : List (String × Json), (Dict.keys fields).Nodup →
      (∀ k v, (k, v) ∈ fields → v = .str "string" ∨ v = .int 3) →
      Printable wholeFloats 1 (orderedRequest fields).schema := by
    intro fields hk hfields
    refine .obj hk fun k v hm => ?_
    rcases hfields k v hm with rfl | rfl
    · exact .str _
    · exact .int (by decide)
  refine ((payload_tells_request wholeFloats _ _ _ _ [] []).2 1 (hprint _ (by decide) ?_)
    (hprint _ (by decide) ?_)).1.mpr ⟨rfl, rfl, by decide⟩
  all_goals
    intro k v hm
    simp only [List.mem_cons, List.not_mem_nil, or_false, Prod.mk.injEq] at hm
    rcases hm with ⟨-, rfl⟩ | ⟨-, rfl⟩ <;> simp

end InternumCore
