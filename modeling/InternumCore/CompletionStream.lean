import InternumCore.JsonText
import InternumCore.LineTrim
import InternumCore.StreamNoise

/-!
# A completion in transit

The provider cuts a completion into chunks and sends each as a `data:` line with a
JSON text, with comments and other lines in between, and `[DONE]` behind the last
(`Transmits`).  `httpx` takes the text of the response apart like `str.splitlines`, so
that a line separator inside of a JSON string, where JSON allows one, breaks its line.
Without such characters the stream, read with the JSON parser of the standard library,
is assembled to exactly what its chunks carry, however the provider spells and spaces
them (`stream_delivers`).
-/

namespace InternumCore

open JsonText

/-- What `json.loads` raises.  A text with half a surrogate pair in it is read as if it
were malformed. -/
def loadsError : ScanError → LoadsError
  | .decode => .decode
  | .digits => .digits
  | .recursion => .recursion
  | .surrogate => .decode

/-- `json.loads`. -/
def pyLoads (fmt : FloatText) (depth : Nat) (text : String) : Except LoadsError Json :=
  (loads fmt depth text).mapError loadsError

/-- The packages, with the JSON parser of the standard library. -/
def withJson (lib : Libraries) (fmt : FloatText) (depth : Nat) : Libraries :=
  { lib with jsonLoads := pyLoads fmt depth }

/-! ## Lines -/

/-- The text of a response whose lines are all ended. -/
def endedText (lines : List String) : String := String.join (lines.map (· ++ "\n"))

/-- The lines of a stream and the chunks they bring.  Behind its `data:` a line says a
chunk in JSON, with blanks around it or none. -/
inductive Transmits (fmt : FloatText) (depth : Nat) :
    List (List (String × Json)) → List String → Prop
  | done {line : String} (h : classifySseLine line = .done) (rest : List String) :
      Transmits fmt depth [] (line :: rest)
  | skip {line : String} {chunks : List (List (String × Json))} {lines : List String}
      (h : classifySseLine line = .comment ∨ classifySseLine line = .blank)
      (rest : Transmits fmt depth chunks lines) : Transmits fmt depth chunks (line :: lines)
  | data {raw : String} {chunk : List (String × Json)} {chunks : List (List (String × Json))}
      {lines : List String} (h : loads fmt depth (strip raw) = .ok (.obj chunk))
      (rest : Transmits fmt depth chunks lines) :
      Transmits fmt depth (chunk :: chunks) (("data:" ++ raw) :: lines)

/-- The first choice of a chunk reports an error. -/
def reportsError (chunk : List (String × Json)) : Bool :=
  match firstChoice chunk with
  | some choice => ((choice.lookup "error").map Json.truthy).getD false
  | none => false

/-! ## A line in pieces -/

section Lines

variable {fmt : FloatText} {depth : Nat} {chunk : List (String × Json)} {raw : String}

/-- What is left of a data line when the blanks at its ends are gone. -/
theorem strip_data (raw : String) :
    (strip ("data:" ++ raw)).toList =
      'd' :: 'a' :: 't' :: 'a' :: ':' :: raw.toList.rdropWhile isSpace := by
  have hline : ("data:" ++ raw).toList = ['d', 'a', 't', 'a', ':'] ++ raw.toList := by simp
  have hfront : (['d', 'a', 't', 'a', ':'] ++ raw.toList).dropWhile isSpace =
      ['d', 'a', 't', 'a', ':'] ++ raw.toList := List.dropWhile_cons_of_neg (by decide)
  rw [strip, String.toList_ofList, hline, stripChars, hfront, LineSplit.rdropWhile_append]
  split
  · next hempty =>
    rw [hempty]
    decide
  · rfl

theorem dataPayload_data (raw : String) : dataPayload ("data:" ++ raw) = strip raw := by
  have hdrop : (strip ("data:" ++ raw)).toList.drop 5 = raw.toList.rdropWhile isSpace := by
    rw [strip_data]
    rfl
  rw [dataPayload, hdrop, strip, strip, String.toList_ofList]
  exact congrArg String.ofList (LineSplit.trim_rdropWhile raw.toList)

/-- The end marker is no JSON text. -/
theorem loads_done (fmt : FloatText) (depth : Nat) :
    ∃ error, loads fmt depth "[DONE]" = .error error := by
  cases depth with
  | zero => exact ⟨_, rfl⟩
  | succ depth =>
    cases depth with
    | zero => exact ⟨_, rfl⟩
    | succ depth => exact ⟨_, rfl⟩

theorem classifySseLine_data {v : Json} (h : loads fmt depth (strip raw) = .ok v) :
    classifySseLine ("data:" ++ raw) = .data := by
  have hmarker : dataPayload ("data:" ++ raw) ≠ "[DONE]" := by
    rw [dataPayload_data]
    intro hdone
    obtain ⟨error, herror⟩ := loads_done fmt depth
    rw [hdone, herror] at h
    cases h
  have hblank : strip ("data:" ++ raw) ≠ "" := by
    intro heq
    have hlist := congrArg String.toList heq
    rw [strip_data] at hlist
    cases hlist
  have hcolon : startsWith (strip ("data:" ++ raw)) ":" = false := by
    rw [startsWith, strip_data]
    rfl
  have hdata : startsWith (strip ("data:" ++ raw)) "data:" = true := by
    rw [startsWith, strip_data]
    rfl
  unfold classifySseLine
  simp only [hblank, hcolon, hdata, hmarker, if_true, if_false, Bool.false_eq_true]

/-- A line of a chunk is read as the chunk. -/
theorem reading_data (lib : Libraries) (h : loads fmt depth (strip raw) = .ok (.obj chunk)) :
    reading (withJson lib fmt depth) ("data:" ++ raw) = .payload chunk := by
  have hloads : (withJson lib fmt depth).jsonLoads (strip raw) = .ok (.obj chunk) := by
    unfold withJson pyLoads
    dsimp only
    rw [h]
    rfl
  rw [reading, classifySseLine_data h]
  dsimp only
  rw [parseDataPayload, dataPayload_data, hloads]

/-- Whether a text is a line can be seen from each of its characters. -/
theorem isLine_of_all {line : String} (h : line.toList.all (fun c => !textBreaks.isBreak c) = true) :
    IsLine line := by
  intro c hc
  simpa using List.all_eq_true.mp h c hc

/-- The lines of a text whose lines are all ended. -/
theorem splitlines_endedText {lines : List String} (h : ∀ line ∈ lines, IsLine line) :
    splitlines (endedText lines) = lines := by
  have hsplit : LineSplit.splitLines textBreaks [] (endedText lines).toList =
      lines.map String.toList := by
    induction lines with
    | nil => rfl
    | cons line lines ih =>
      have htext : (endedText (line :: lines)).toList =
          line.toList ++ '\n' :: (endedText lines).toList := by
        simp [endedText, String.join_cons]
      rw [htext, LineSplit.splitLines_append (h line List.mem_cons_self), List.append_nil,
        LineSplit.splitLines_break (by decide) (fun b => by simp [textBreaks]),
        List.reverse_reverse, ih fun l hl => h l (List.mem_cons_of_mem _ hl)]
      rfl
  rw [splitlines, hsplit, List.map_map]
  simp [Function.comp_def]

end Lines

/-! ## The stream -/

section Stream

variable {lib : Libraries} {assembly : StreamAssembly} {chunk : List (String × Json)}

theorem applyChunk_choiceError (lib : Libraries) (chunk : List (String × Json))
    (h : assembly.choiceError = none) :
    (applyChunk lib assembly chunk).choiceError.isSome = reportsError chunk := by
  rw [applyChunk_eq_applyFields]
  unfold reportsError
  cases hfirst : firstChoice chunk with
  | none => simp [applyFields, h]
  | some choice =>
    dsimp only
    unfold applyChoice
    cases herror : choice.lookup "error" with
    | none => simp [applyChoice.applyDelta, applyFields, h]
    | some error =>
      by_cases ht : error.truthy = true
      · simp [ht]
      · simp [ht, applyChoice.applyDelta, applyFields, h]

/-- **The loop reads what was sent**, up to an error that a chunk reports. -/
theorem consumeLines_transmits {fmt : FloatText} {depth : Nat}
    {chunks : List (List (String × Json))} {lines : List String}
    (h : Transmits fmt depth chunks lines) (hassembly : assembly.choiceError = none) :
    consumeLines (withJson lib fmt depth) assembly lines =
      if chunks.any reportsError then .choiceError
      else .done (assemblyAfter (withJson lib fmt depth) assembly chunks) := by
  induction h generalizing assembly with
  | done h rest =>
    rw [consumeLines_cons, reading_of_done h, assemblyAfter_nil hassembly]
    rfl
  | @skip line chunks lines h _ ih =>
    have hnoise : reading (withJson lib fmt depth) line = .noise := by
      unfold reading
      rcases h with h | h <;> rw [h]
    rw [consumeLines_cons, hnoise]
    exact ih hassembly
  | @data raw chunk chunks lines htext _ ih =>
    have herror := applyChunk_choiceError (withJson lib fmt depth) chunk hassembly
    rw [consumeLines_cons, reading_data lib htext]
    dsimp only
    rw [herror, List.any_cons]
    -- a chunk that reports an error ends the stream, whatever was to come
    by_cases hreports : reportsError chunk = true
    · rw [if_pos hreports, hreports, Bool.true_or, if_pos rfl]
    · have hnone : (applyChunk (withJson lib fmt depth) assembly chunk).choiceError = none := by
        rw [← Option.not_isSome_iff_eq_none, herror]
        exact hreports
      rw [if_neg hreports, ih hnone, Bool.eq_false_of_not_eq_true hreports,
        Bool.false_or, assemblyAfter_cons hnone]

end Stream

/-- **A stream delivers what was sent.**  However the provider cuts a completion into
chunks, spells them in JSON and puts comments between them, as long as no character that
ends a line for `str.splitlines` stands in a line: unless one of the chunks reports an
error, what is assembled is the content of the chunks in order, and of the rest what was
sent last; what comes behind `[DONE]` and how the response ends does not matter. -/
theorem stream_delivers (lib : Libraries) (fmt : FloatText) (depth : Nat)
    (chunks : List (List (String × Json))) (sent : List String) (response : Response)
    (h : Transmits fmt depth chunks sent) (hlines : ∀ line ∈ sent, IsLine line)
    (hresponse : response.lines = splitlines (endedText sent)) :
    consumeCompletionStream (withJson lib fmt depth) response =
      if chunks.any reportsError then
        .error (.upstream { message := "OpenRouter provider returned an error" })
      else .ok
        { content := String.join (chunks.filterMap contentPiece)
          model := lastCarried (modelCarried lib) chunks
          provider := lastCarried (providerCarried lib) chunks
          usage := lastCarried usageCarried chunks
          finishReason := lastCarried finishReasonOf chunks
          choiceError := none } := by
  rw [splitlines_endedText hlines] at hresponse
  rw [consumeCompletionStream, hresponse, consumeLines_transmits h rfl]
  by_cases herror : chunks.any reportsError = true
  · rw [if_pos herror, if_pos herror]
  · rw [if_neg herror, if_neg herror]
    simp only [assemblyAfter, String.empty_append, Option.or_none]
    rfl

/-! ### Two chunks -/

/-- A chunk with a piece of content. -/
def contentChunk (piece : String) : List (String × Json) :=
  [("choices", .arr [.obj [("delta", .obj [("content", .str piece)])]])]

/-- The last chunk, with the usage. -/
def usageChunk : List (String × Json) := [("usage", .obj [("total_tokens", .int 7)])]

/-- The first piece, with an escape where none is needed and blanks where none are. -/
def firstText : String :=
  " \x7b \"choices\":[\x7b\"delta\": \x7b\"content\" :\"\x7b\\u0022a\\\": \\u00e9\"\x7d\x7d] \x7d\t"

/-- The second piece, with a key that comes twice. -/
def secondText : String :=
  "\x7b\"choices\":0,\"choices\":[\x7b\"delta\":\x7b\"content\":\"\\\\n\\\"\x7d\"\x7d\x7d]\x7d"

def usageText : String := "\x7b\"usage\": \x7b\"total_tokens\": 7\x7d\x7d"

/-- The chunks, in three spellings, with a comment between them and a chunk too many. -/
def cutLines : List String :=
  ["data:" ++ firstText, ": OPENROUTER PROCESSING", "data:" ++ secondText, "data:" ++ usageText,
    "data: [DONE]", "data:" ++ firstText]

/-- The response is cut off behind them. -/
def cutResponse : Response where
  statusCode := 200
  body := none
  lines := splitlines (endedText cutLines)
  interruption := some .timeout

/-- What was cut in the middle of a string arrives in one piece. -/
theorem cut_stream_delivers :
    consumeCompletionStream (withJson (plainLibraries fun _ => none) wholeFloats 5) cutResponse =
      .ok { content := "\x7b\"a\": é\\n\"\x7d", usage := some [("total_tokens", .int 7)] } := by
  have hfirst : loads wholeFloats 5 (strip firstText) = .ok (.obj (contentChunk "\x7b\"a\": é")) := by
    decide +kernel
  have hsecond : loads wholeFloats 5 (strip secondText) = .ok (.obj (contentChunk "\\n\"\x7d")) := by
    decide +kernel
  have husage : loads wholeFloats 5 (strip usageText) = .ok (.obj usageChunk) := by
    decide +kernel
  have hsent : Transmits wholeFloats 5
      [contentChunk "\x7b\"a\": é", contentChunk "\\n\"\x7d", usageChunk] cutLines :=
    .data hfirst (.skip (Or.inl (by decide)) (.data hsecond (.data husage (.done (by decide) _))))
  have hlines : ∀ line ∈ cutLines, IsLine line := by
    have hall : cutLines.all (fun line => line.toList.all fun c => !textBreaks.isBreak c) = true := by
      decide +kernel
    exact fun line hline => isLine_of_all (List.all_eq_true.mp hall line hline)
  have hresponse : cutResponse.lines = splitlines (endedText cutLines) := by
    unfold cutResponse
    dsimp only
  refine (stream_delivers _ wholeFloats 5 _ cutLines cutResponse hsent hlines hresponse).trans ?_
  rfl

end InternumCore
