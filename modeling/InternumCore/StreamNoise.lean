import InternumCore.Streaming

/-!
# Noise in the stream

Between the chunks of a completion the provider sends blank lines, comments that
keep the connection alive, fields that carry no data, and now and then data that
is no JSON object.  None of it reaches the assembly: `Noisy` is the relation
between a stream and the same stream with such lines put in anywhere and with
anything at all behind the first `[DONE]`, and `stream_noise_invariant` says that
both are read alike.

What is read is stated without the loop (`AssembledFrom`): the pieces of content
in order, and of everything else the last one that was sent.
-/

namespace InternumCore

/-! ## Lines -/

/-- A line that carries nothing of the completion. -/
inductive IsNoise (lib : Libraries) (line : String) : Prop where
  | blank (h : strip line = "")
  | comment (h : startsWith (strip line) ":" = true)
  /-- `event:`, `id:`, `retry:` and whatever else is not `data:`. -/
  | field (h : startsWith (strip line) "data:" = false)
  /-- Data that is neither the end marker nor a JSON object. -/
  | payload (data : startsWith (strip line) "data:" = true) (marker : dataPayload line ≠ "[DONE]")
      (h : ∀ fields, lib.jsonLoads (dataPayload line) ≠ .ok (.obj fields))

/-- `noisy` is `lines` with noise put in anywhere and anything after the first
`[DONE]`. -/
inductive Noisy (lib : Libraries) : List String → List String → Prop where
  | nil : Noisy lib [] []
  | keep (line : String) {lines noisy : List String} (h : Noisy lib lines noisy) :
      Noisy lib (line :: lines) (line :: noisy)
  | insert {line : String} (noise : IsNoise lib line) {lines noisy : List String}
      (h : Noisy lib lines noisy) : Noisy lib lines (line :: noisy)
  | done {line : String} (marker : classifySseLine line = .done) (lines noisy : List String) :
      Noisy lib (line :: lines) (line :: noisy)

/-- `json.loads` is a partial function: where it has no value it raises a
`ValueError`. -/
def ParsesPartially (lib : Libraries) : Prop := ∀ text, lib.jsonLoads text ≠ .error .recursion

theorem parsesPartially_plain (parse : String → Option Json) :
    ParsesPartially (plainLibraries parse) := by
  intro text
  show (parse text).elim (Except.error LoadsError.decode) Except.ok ≠ Except.error .recursion
  rcases parse text with _ | v <;> simp

/-- What a line is to the loop. -/
inductive Reading where
  | noise
  | done
  | payload (chunk : List (String × Json))
  | raised (error : LoadsError)

def reading (lib : Libraries) (line : String) : Reading :=
  match classifySseLine line with
  | .blank => .noise
  | .comment => .noise
  | .done => .done
  | .data =>
    match parseDataPayload lib line with
    | .error error => .raised error
    | .ok none => .noise
    | .ok (some chunk) => .payload chunk

section Reading

variable {lib : Libraries} {line : String}

/-- The loop sees of a line only its reading. -/
theorem consumeLines_cons (assembly : StreamAssembly) (lines : List String) :
    consumeLines lib assembly (line :: lines) =
      match reading lib line with
      | .noise => consumeLines lib assembly lines
      | .done => .done assembly
      | .raised error => .raised error
      | .payload chunk =>
        if (applyChunk lib assembly chunk).choiceError.isSome then .choiceError
        else consumeLines lib (applyChunk lib assembly chunk) lines := by
  rw [consumeLines, reading]
  cases classifySseLine line with
  | data =>
    dsimp only
    rcases parseDataPayload lib line with e | (_ | chunk) <;> rfl
  | _ => rfl

/-- A blank line and a comment are noise, whatever else they look like. -/
theorem reading_of_skipped (h : strip line = "" ∨ startsWith (strip line) ":" = true) :
    reading lib line = .noise := by
  unfold reading classifySseLine
  by_cases hblank : strip line = ""
  · simp [hblank]
  · have hcomment := h.resolve_left hblank
    simp [hblank, hcomment]

theorem reading_of_noise (hparser : ParsesPartially lib) (h : IsNoise lib line) :
    reading lib line = .noise := by
  by_cases hskipped : strip line = "" ∨ startsWith (strip line) ":" = true
  · exact reading_of_skipped hskipped
  obtain ⟨hblank, hcomment⟩ := not_or.mp hskipped
  unfold reading classifySseLine
  cases h with
  | blank h => exact absurd h hblank
  | comment h => exact absurd h hcomment
  | field h => simp [hblank, hcomment, h]
  | payload data marker h =>
    have hparse : parseDataPayload lib line = .ok none := by
      unfold parseDataPayload
      rcases hl : lib.jsonLoads (dataPayload line) with e | v
      · cases e with
        | recursion => exact absurd hl (hparser _)
        | _ => rfl
      · cases v with
        | obj fields => exact absurd hl (h fields)
        | _ => rfl
    simp [hblank, hcomment, data, marker, hparse]

/-- Nothing is raised while a line is read. -/
theorem reading_ne_raised (hparser : ParsesPartially lib) (error : LoadsError) :
    reading lib line ≠ .raised error := by
  unfold reading parseDataPayload
  cases classifySseLine line with
  | data =>
    dsimp only
    rcases hl : lib.jsonLoads (dataPayload line) with e | v
    · cases e with
      | recursion => exact absurd hl (hparser _)
      | _ => simp
    · cases v <;> simp
  | _ => simp

theorem reading_of_done (h : classifySseLine line = .done) : reading lib line = .done := by
  rw [reading, h]

end Reading

/-- **The loop does not see noise.** -/
theorem consumeLines_noisy {lib : Libraries} (hparser : ParsesPartially lib)
    {lines noisy : List String} (h : Noisy lib lines noisy) (assembly : StreamAssembly) :
    consumeLines lib assembly noisy = consumeLines lib assembly lines := by
  induction h generalizing assembly with
  | nil => rfl
  | keep line _ ih =>
    rw [consumeLines_cons, consumeLines_cons]
    cases reading lib line with
    | payload chunk => simp only [ih]
    | noise => exact ih assembly
    | _ => rfl
  | insert noise _ ih =>
    rw [consumeLines_cons, reading_of_noise hparser noise]
    exact ih assembly
  | done marker lines noisy =>
    rw [consumeLines_cons, consumeLines_cons, reading_of_done marker]

/-! ## What is assembled -/

/-- The object payloads before the first `[DONE]`. -/
def objectPayloads (lib : Libraries) (lines : List String) : List (List (String × Json)) :=
  (lines.takeWhile (fun line => classifySseLine line ≠ .done)).filterMap fun line =>
    match reading lib line with
    | .payload chunk => some chunk
    | _ => none

/-- `choices[0]` of a payload, if it is an object. -/
def firstChoice (chunk : List (String × Json)) : Option (List (String × Json)) :=
  match chunk.lookup "choices" with
  | some (.arr (.obj choice :: _)) => some choice
  | _ => none

/-- `choices[0].delta.content`, if it is a string. -/
def contentPiece (chunk : List (String × Json)) : Option String := do
  match ← (← firstChoice chunk).lookup "delta" with
  | .obj delta =>
    match ← delta.lookup "content" with
    | .str piece => some piece
    | _ => none
  | _ => none

/-- `choices[0].finish_reason`, if there is one. -/
def finishReasonOf (chunk : List (String × Json)) : Option Json := do
  let reason ← (← firstChoice chunk).lookup "finish_reason"
  if reason = .null then none else some reason

/-- The usage of a payload, if it is an object. -/
def usageCarried (chunk : List (String × Json)) : Option (List (String × Json)) :=
  match chunk.lookup "usage" with
  | some (.obj usage) => some usage
  | _ => none

/-- The model a payload names. -/
def modelCarried (lib : Libraries) (chunk : List (String × Json)) : Option String := do
  let value ← chunk.lookup "model"
  if value.truthy then some (lib.strOfLoaded value) else none

/-- The provider a payload names. -/
def providerCarried (lib : Libraries) (chunk : List (String × Json)) : Option String := do
  let value ← chunk.lookup "provider"
  if value = .null then none else some (lib.strOfLoaded value)

/-- What the last of the payloads that carry something carries. -/
def lastCarried {α β : Type} (carried : α → Option β) (payloads : List α) : Option β :=
  (payloads.filterMap carried).getLast?

/-- What a stream amounts to: the pieces of content in order, and of the rest what
was sent last. -/
structure AssembledFrom (lib : Libraries) (lines : List String) (assembly : StreamAssembly) :
    Prop where
  content : assembly.content = String.join ((objectPayloads lib lines).filterMap contentPiece)
  usage : assembly.usage = lastCarried usageCarried (objectPayloads lib lines)
  finishReason : assembly.finishReason = lastCarried finishReasonOf (objectPayloads lib lines)
  model : assembly.model = lastCarried (modelCarried lib) (objectPayloads lib lines)
  provider : assembly.provider = lastCarried (providerCarried lib) (objectPayloads lib lines)
  choiceError : assembly.choiceError = none

section Chunk

variable {lib : Libraries} {assembly : StreamAssembly} {chunk choice : List (String × Json)}

theorem applyDelta_content (hfirst : firstChoice chunk = some choice) :
    (applyChoice.applyDelta assembly choice).content =
      assembly.content ++ (contentPiece chunk).getD "" := by
  unfold applyChoice.applyDelta contentPiece
  rw [hfirst]
  rcases hd : choice.lookup "delta" with _ | delta
  · simp [hd]
  · cases delta with
    | obj delta =>
      rcases hc : delta.lookup "content" with _ | content
      · simp [hd, hc]
      · cases content <;> simp [hd, hc]
    | _ => simp [hd]

theorem applyDelta_finishReason (hfirst : firstChoice chunk = some choice) :
    (applyChoice.applyDelta assembly choice).finishReason =
      (finishReasonOf chunk).or assembly.finishReason := by
  unfold applyChoice.applyDelta finishReasonOf
  rw [hfirst]
  rcases hr : choice.lookup "finish_reason" with _ | reason
  · simp [hr]
  · cases reason <;> simp [hr]

/-- A first choice that reports no error is read for its delta. -/
theorem applyChoice_eq (h : (applyChoice assembly choice).choiceError = none) :
    applyChoice assembly choice = applyChoice.applyDelta assembly choice := by
  unfold applyChoice at h ⊢
  split
  · next error he =>
    rw [he] at h
    by_cases ht : error.truthy = true
    · simp [ht] at h
    · rw [if_neg ht]
  · rfl

/-- The fields a payload carries outside its choices. -/
def applyFields (lib : Libraries) (assembly : StreamAssembly) (chunk : List (String × Json)) :
    StreamAssembly :=
  { assembly with
    model := (modelCarried lib chunk).or assembly.model
    provider := (providerCarried lib chunk).or assembly.provider
    usage := (usageCarried chunk).or assembly.usage }

theorem applyChunk_eq_applyFields (lib : Libraries) (assembly : StreamAssembly)
    (chunk : List (String × Json)) :
    applyChunk lib assembly chunk =
      match firstChoice chunk with
      | some choice => applyChoice (applyFields lib assembly chunk) choice
      | none => applyFields lib assembly chunk := by
  have hfields : ∀ {model provider : Option String} {usage : Option (List (String × Json))},
      model = (modelCarried lib chunk).or assembly.model →
      provider = (providerCarried lib chunk).or assembly.provider →
      usage = (usageCarried chunk).or assembly.usage →
      ({ assembly with model := model, provider := provider, usage := usage } : StreamAssembly) =
        applyFields lib assembly chunk := by
    rintro _ _ _ rfl rfl rfl
    rfl
  unfold applyChunk firstChoice
  dsimp only
  rw [hfields ?model ?provider ?usage]
  -- each field is the one of the chunk, if it carries one, or stays
  case model =>
    unfold modelCarried
    rcases chunk.lookup "model" with _ | value
    · rfl
    · by_cases ht : value.truthy = true <;> simp [ht]
  case provider =>
    unfold providerCarried
    rcases chunk.lookup "provider" with _ | value
    · rfl
    · cases value <;> simp
  case usage =>
    unfold usageCarried
    rcases chunk.lookup "usage" with _ | value
    · rfl
    · cases value <;> rfl
  rcases chunk.lookup "choices" with _ | choices
  · rfl
  · cases choices with
    | arr choices =>
      rcases choices with _ | ⟨choice, choices⟩
      · rfl
      · cases choice <;> rfl
    | _ => rfl

/-- One payload, field by field. -/
theorem applyChunk_eq (h : (applyChunk lib assembly chunk).choiceError = none) :
    applyChunk lib assembly chunk =
      { content := assembly.content ++ (contentPiece chunk).getD ""
        model := (modelCarried lib chunk).or assembly.model
        provider := (providerCarried lib chunk).or assembly.provider
        usage := (usageCarried chunk).or assembly.usage
        finishReason := (finishReasonOf chunk).or assembly.finishReason
        choiceError := none } := by
  rw [applyChunk_eq_applyFields] at h ⊢
  cases hfirst : firstChoice chunk with
  | none =>
    rw [hfirst] at h
    have herror : assembly.choiceError = none := h
    simp [applyFields, contentPiece, finishReasonOf, hfirst, herror]
  | some choice =>
    rw [hfirst] at h
    dsimp only at h ⊢
    have heq := applyChoice_eq h
    rw [heq] at h ⊢
    have herror : assembly.choiceError = none := h
    have hcontent := @applyDelta_content (applyFields lib assembly chunk) _ _ hfirst
    have hfinish := @applyDelta_finishReason (applyFields lib assembly chunk) _ _ hfirst
    unfold applyChoice.applyDelta at hcontent hfinish ⊢
    simp only at hcontent hfinish ⊢
    rw [hcontent, hfinish]
    simp [applyFields, herror]

end Chunk

/-! ## The stream as a whole -/

section Stream

variable {lib : Libraries}

theorem objectPayloads_cons (line : String) (lines : List String) :
    objectPayloads lib (line :: lines) =
      match reading lib line with
      | .done => []
      | .payload chunk => chunk :: objectPayloads lib lines
      | _ => objectPayloads lib lines := by
  unfold objectPayloads
  by_cases hdone : classifySseLine line = .done
  · rw [reading_of_done hdone, List.takeWhile_cons_of_neg (by simp [hdone])]
    rfl
  · have hread : reading lib line ≠ .done := by
      unfold reading
      cases hk : classifySseLine line with
      | data => rcases parseDataPayload lib line with e | (_ | chunk) <;> simp
      | done => exact absurd hk hdone
      | _ => simp
    rw [List.takeWhile_cons_of_pos (by simp [hdone]), List.filterMap_cons]
    cases hr : reading lib line with
    | done => exact absurd hr hread
    | _ => rfl

theorem lastCarried_cons {α β : Type} (carried : α → Option β) (payload : α) (payloads : List α) :
    lastCarried carried (payload :: payloads) =
      (lastCarried carried payloads).or (carried payload) := by
  unfold lastCarried
  cases h : carried payload with
  | none => rw [List.filterMap_cons_none h, Option.or_none]
  | some b =>
    rw [List.filterMap_cons_some h, List.getLast?_cons]
    cases (payloads.filterMap carried).getLast? <;> rfl

theorem join_filterMap_cons {α : Type} (piece : α → Option String) (payload : α)
    (payloads : List α) :
    String.join ((payload :: payloads).filterMap piece) =
      (piece payload).getD "" ++ String.join (payloads.filterMap piece) := by
  cases h : piece payload with
  | none => simp [List.filterMap_cons_none h]
  | some s => simp [List.filterMap_cons_some h]

/-- What the loop has assembled when it comes to its end. -/
def finalAssembly : StreamEnd → Option StreamAssembly
  | .done assembly => some assembly
  | .exhausted assembly => some assembly
  | _ => none

/-- The assembly a stream leads to from another one. -/
def assemblyAfter (lib : Libraries) (assembly : StreamAssembly)
    (payloads : List (List (String × Json))) : StreamAssembly where
  content := assembly.content ++ String.join (payloads.filterMap contentPiece)
  model := (lastCarried (modelCarried lib) payloads).or assembly.model
  provider := (lastCarried (providerCarried lib) payloads).or assembly.provider
  usage := (lastCarried usageCarried payloads).or assembly.usage
  finishReason := (lastCarried finishReasonOf payloads).or assembly.finishReason
  choiceError := none

theorem assemblyAfter_nil {assembly : StreamAssembly} (h : assembly.choiceError = none) :
    assemblyAfter lib assembly [] = assembly := by
  simp only [assemblyAfter, lastCarried, List.filterMap_nil, List.getLast?_nil, Option.none_or,
    String.join_nil, String.append_empty]
  rw [← h]

/-- The first payload, and then the others. -/
theorem assemblyAfter_cons {assembly : StreamAssembly} {chunk : List (String × Json)}
    (h : (applyChunk lib assembly chunk).choiceError = none)
    (payloads : List (List (String × Json))) :
    assemblyAfter lib assembly (chunk :: payloads) =
      assemblyAfter lib (applyChunk lib assembly chunk) payloads := by
  rw [applyChunk_eq h]
  simp only [assemblyAfter, lastCarried_cons, join_filterMap_cons, Option.or_assoc,
    String.append_assoc]

/-- **The loop assembles the payloads before the first `[DONE]`.** -/
theorem consumeLines_final {assembly result : StreamAssembly} {lines : List String}
    (hstart : assembly.choiceError = none)
    (h : finalAssembly (consumeLines lib assembly lines) = some result) :
    result = assemblyAfter lib assembly (objectPayloads lib lines) := by
  induction lines generalizing assembly with
  | nil =>
    cases h
    exact (assemblyAfter_nil hstart).symm
  | cons line lines ih =>
    rw [consumeLines_cons] at h
    rw [objectPayloads_cons]
    cases hr : reading lib line with
    | noise =>
      rw [hr] at h
      exact ih hstart h
    | done =>
      rw [hr] at h
      cases h
      exact (assemblyAfter_nil hstart).symm
    | raised error =>
      rw [hr] at h
      cases h
    | payload chunk =>
      rw [hr] at h
      dsimp only at h ⊢
      -- an error in a choice ends the loop without an assembly
      by_cases herror : (applyChunk lib assembly chunk).choiceError = none
      · rw [herror] at h
        rw [assemblyAfter_cons herror]
        exact ih herror h
      · rw [if_pos (Option.isSome_iff_ne_none.mpr herror)] at h
        cases h

theorem assembledFrom_assemblyAfter (lines : List String) :
    AssembledFrom lib lines (assemblyAfter lib {} (objectPayloads lib lines)) where
  content := by simp [assemblyAfter]
  usage := by simp [assemblyAfter]
  finishReason := by simp [assemblyAfter]
  model := by simp [assemblyAfter]
  provider := by simp [assemblyAfter]
  choiceError := rfl

/-- A parser that only fails with a `ValueError` never breaks the loop off. -/
theorem consumeLines_ne_raised (hparser : ParsesPartially lib) (assembly : StreamAssembly)
    (lines : List String) (error : LoadsError) :
    consumeLines lib assembly lines ≠ .raised error := by
  induction lines generalizing assembly with
  | nil => simp [consumeLines]
  | cons line lines ih =>
    rw [consumeLines_cons]
    cases hr : reading lib line with
    | noise => exact ih assembly
    | done => simp
    | raised error => exact absurd hr (reading_ne_raised hparser error)
    | payload chunk =>
      dsimp only
      split
      · simp
      · exact ih _

end Stream

/-- **Noise never changes the completion.**  Let the JSON parser be any partial
function, and let a stream arrive with noise anywhere and anything after the first
`[DONE]`.  Then it is read as without these lines, to the same assembly or the
same error.  What is assembled are the pieces of content in order, and the last
usage, finish reason, model and provider sent before the end; and unless the
response is cut off, the only error is the one of the provider. -/
theorem stream_noise_invariant (lib : Libraries) (hparser : ParsesPartially lib)
    (response : Response) (noisy : List String) (h : Noisy lib response.lines noisy) :
    consumeCompletionStream lib { response with lines := noisy } =
        consumeCompletionStream lib response ∧
      (∀ assembly, consumeCompletionStream lib response = .ok assembly →
        AssembledFrom lib response.lines assembly) ∧
      (response.interruption = none → ∀ error, consumeCompletionStream lib response = .error error →
        ∃ upstream, error = .upstream upstream) := by
  refine ⟨?_, fun assembly hok => ?_, fun hnone error herror => ?_⟩
  · unfold consumeCompletionStream
    rw [consumeLines_noisy hparser h]
  · have hfinal : finalAssembly (consumeLines lib {} response.lines) = some assembly := by
      unfold consumeCompletionStream at hok
      split at hok
      · next a ha => rw [ha]; exact congrArg some (Except.ok.inj hok)
      · cases hok
      · cases hok
      · next a ha =>
        split at hok
        · cases hok
        · rw [ha]; exact congrArg some (Except.ok.inj hok)
    rw [consumeLines_final rfl hfinal]
    exact assembledFrom_assemblyAfter response.lines
  · unfold consumeCompletionStream at herror
    split at herror
    · cases herror
    · exact ⟨_, (Except.error.inj herror).symm⟩
    · next e he => exact absurd he (consumeLines_ne_raised hparser _ _ e)
    · rw [hnone] at herror
      cases herror

/-! ### A stream with a comment -/

/-- A stream of one chunk. -/
def oneChunkResponse : Response where
  statusCode := 200
  body := none
  lines := ["data: chunk", "data: [DONE]"]
  interruption := none

/-- A parser that knows one payload. -/
def oneChunkParser : String → Option Json
  | "chunk" => some (.obj [("choices", .arr [.obj [("delta", .obj [("content", .str "text")])]])])
  | _ => none

theorem commented_stream_invariant :
    consumeCompletionStream (plainLibraries oneChunkParser)
        { oneChunkResponse with
          lines := [": OPENROUTER PROCESSING", "data: chunk", "data: [DONE]", "data: chunk"] } =
      consumeCompletionStream (plainLibraries oneChunkParser) oneChunkResponse :=
  (stream_noise_invariant (plainLibraries oneChunkParser) (parsesPartially_plain _)
    oneChunkResponse _
    (.insert (.comment (by decide)) (.keep _ (.done (by decide) [] _)))).1

end InternumCore
