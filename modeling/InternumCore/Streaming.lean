import InternumCore.Libraries

/-!
# Assembling a streamed completion

A completion arrives as the lines of an event stream.  `classifySseLine` sorts
them, `applyChunk` folds a data payload into the assembly, and
`consumeCompletionStream` stops at `[DONE]` or at a choice that reports an error.
-/

namespace InternumCore

/-- `SseLineKind`. -/
inductive SseLineKind where
  | data
  | done
  | comment
  | blank
  deriving DecidableEq

/-- `StreamAssembly`. -/
structure StreamAssembly where
  content : String := ""
  model : Option String := none
  provider : Option String := none
  usage : Option (List (String × Json)) := none
  finishReason : Option Json := none
  choiceError : Option Json := none

/-- `line.strip()[len(_DATA_PREFIX):].strip()`. -/
def dataPayload (line : String) : String :=
  strip (String.ofList ((strip line).toList.drop 5))

/-- `classify_sse_line`. -/
def classifySseLine (line : String) : SseLineKind :=
  let stripped := strip line
  if stripped = "" then .blank
  else if startsWith stripped ":" then .comment
  else if startsWith stripped "data:" then
    if dataPayload line = "[DONE]" then .done else .data
  else .comment

/-- `_parse_data_payload`. -/
def parseDataPayload (lib : Libraries) (line : String) :
    Except LoadsError (Option (List (String × Json))) :=
  match lib.jsonLoads (dataPayload line) with
  | .ok (.obj chunk) => .ok (some chunk)
  | .ok _ => .ok none
  | .error .decode => .ok none
  | .error .digits => .ok none
  | .error .recursion => .error .recursion

/-- The last part of `_apply_chunk`: the first choice of a chunk. -/
def applyChoice (assembly : StreamAssembly) (choice : List (String × Json)) : StreamAssembly :=
  match choice.lookup "error" with
  | some error =>
    if error.truthy then { assembly with choiceError := some error } else applyDelta
  | none => applyDelta
where
  applyDelta : StreamAssembly :=
    let content := match choice.lookup "delta" with
      | some (.obj delta) =>
        match delta.lookup "content" with
        | some (.str piece) => assembly.content ++ piece
        | _ => assembly.content
      | _ => assembly.content
    let finishReason := match choice.lookup "finish_reason" with
      | none | some .null => assembly.finishReason
      | some reason => some reason
    { assembly with content := content, finishReason := finishReason }

/-- `_apply_chunk`. -/
def applyChunk (lib : Libraries) (assembly : StreamAssembly) (chunk : List (String × Json)) :
    StreamAssembly :=
  let model := match chunk.lookup "model" with
    | some value => if value.truthy then some (lib.strOfLoaded value) else assembly.model
    | none => assembly.model
  let provider := match chunk.lookup "provider" with
    | none | some .null => assembly.provider
    | some value => some (lib.strOfLoaded value)
  let usage := match chunk.lookup "usage" with
    | some (.obj usage) => some usage
    | _ => assembly.usage
  let assembly := { assembly with model := model, provider := provider, usage := usage }
  match chunk.lookup "choices" with
  | some (.arr (.obj choice :: _)) => applyChoice assembly choice
  | _ => assembly

/-- Where the reading of a stream stops. -/
inductive StreamEnd where
  /-- At `[DONE]`. -/
  | done (assembly : StreamAssembly)
  /-- At a chunk that reports an error. -/
  | choiceError
  /-- At a line that cannot be read. -/
  | raised (error : LoadsError)
  /-- After the last line. -/
  | exhausted (assembly : StreamAssembly)

/-- The loop of `consume_completion_stream`. -/
def consumeLines (lib : Libraries) (assembly : StreamAssembly) : List String → StreamEnd
  | [] => .exhausted assembly
  | line :: lines =>
    match classifySseLine line with
    | .blank => consumeLines lib assembly lines
    | .comment => consumeLines lib assembly lines
    | .done => .done assembly
    | .data =>
      match parseDataPayload lib line with
      | .error error => .raised error
      | .ok none => consumeLines lib assembly lines
      | .ok (some chunk) =>
        let assembly := applyChunk lib assembly chunk
        if assembly.choiceError.isSome then .choiceError else consumeLines lib assembly lines

/-- An HTTP response, as far as it arrives. -/
structure Response where
  statusCode : Nat
  /-- `response.json()`; `none` is `ValueError`. -/
  body : Option Json
  /-- The lines `aiter_lines` yields. -/
  lines : List String
  /-- What cuts the response off, after the lines and before the body. -/
  interruption : Option Interruption

/-- `consume_completion_stream`. -/
def consumeCompletionStream (lib : Libraries) (response : Response) :
    Except PyError StreamAssembly :=
  match consumeLines lib {} response.lines with
  | .done assembly => .ok assembly
  | .choiceError => .error (.upstream { message := "OpenRouter provider returned an error" })
  | .raised error => .error error.toError
  | .exhausted assembly =>
    match response.interruption with
    | some interruption => .error interruption.toError
    | none => .ok assembly

end InternumCore
