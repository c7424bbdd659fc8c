import InternumCore.SchemaSplit
import InternumCore.Service

/-!
# What a request is charged

Every layer of the service adds the attempts of the layer below (`Charged`), at
most `max_retries + 1` a phase, two phases a completion, two completions an
answer, two answers a chunk.  What the layers return and raise decides which of
the completions are seen again: a completion whose output was accepted is always
handed up, and one whose output was rejected never is.

So the usage a response reports is that of the accepted completions
(`runParse_triple`), while the tracker holds a record for every completion.
-/

namespace InternumCore
open Chunking JsonSchema

section Chunks

variable {ω : Type} {service : DocumentParsingService ω} {plan : ChunkPlan}
  {request : ParseMultipartRequest} {resolved : ResolvedModelConfig} {chunkModel : String}
  {chunkModels : List String} {consumerId requestId : Option String} {s : Session ω}

/-- The chunks of the plan are asked for an object that holds the row array. -/
def AsksForRows (plan : ChunkPlan) : Prop :=
  plan.chunkSchema = chunkSchemaOf plan.arrayLocation ∧
    ∃ items, plan.arrayLocation.itemSchema = .obj items

theorem asksForRows_of_plan {markdown : String} {schema : Json} {config : ChunkingConfig}
    (hplan : buildChunkPlan markdown schema config = some plan) : AsksForRows plan := by
  obtain ⟨_, _, _, hloc, hchunk, _⟩ := buildChunkPlan_eq_some hplan
  obtain ⟨_, _, _, _, _, items, _, _, _, hitem⟩ := locateRowArray_eq_some hloc
  exact ⟨hchunk, items, hitem⟩

/-- What is accepted for a chunk has the row array. -/
theorem rows_of_accepted {lib : Libraries} {rawOutput : String} {data : Json}
    (hplan : AsksForRows plan) (h : checkedOutput lib rawOutput plan.chunkSchema = .ok data) :
    ∃ rows, data.get? plan.arrayLocation.propertyName = some (.arr rows) := by
  obtain ⟨hchunk, items, hitem⟩ := hplan
  obtain ⟨-, hacc, -⟩ := accepts_of_checkedOutput h
  obtain ⟨depth, hdepth⟩ := Nat.exists_eq_add_of_le' lib.jsonschema.two_le_depth
  rw [Accepts, hdepth, hchunk, chunkSchemaOf_valid_iff hitem] at hacc
  obtain ⟨entries, rows, rfl, hrows, -⟩ := hacc
  exact ⟨rows, hrows⟩

/-- What the outcome of a chunk says of its attempts: the result it returns is the
only one accepted, and where it raises none was. -/
def AnswersChunk (service : DocumentParsingService ω) (plan : ChunkPlan)
    (new : List (Attempt ω)) : Except PyError (ChunkOutcome × OpenRouterResult) → Prop
  | .ok out => AsksForRows plan → acceptedResults service.client.lib new = [out.2]
  | .error _ => AsksForRows plan → acceptedResults service.client.lib new = []

/-- One turn of the loop of a chunk. -/
theorem extractChunk_triple {chunk : DocumentChunk} {chunkRequest : OpenRouterRequest}
    (hschema : chunkRequest.schema = plan.chunkSchema) :
    (service.extractChunk chunk plan chunkRequest requestId).Triple s
      (fun out s' => ∃ new, Called service.client chunkRequest 2 s s' new ∧
        AnswersChunk service plan new (.ok out))
      (fun e s' => ∃ new, Called service.client chunkRequest 2 s s' new ∧
        AnswersChunk service plan new (.error e)) := by
  have hown {s' : Session ω} {new : List (Attempt ω)}
      (h : Called service.client chunkRequest 2 s s' new) :
      acceptedResults service.client.lib new =
        resultsUnder service.client.lib plan.chunkSchema new :=
    acceptedResults_eq fun a ha => (h.schemas a ha).trans hschema
  refine (completeAndValidate_triple.mono (fun _ _ h => h) ?_).bind ?_
  · intro e s' hr
    obtain ⟨new, hcalled, hnone⟩ := hr
    exact ⟨new, hcalled, fun _ => (hown hcalled).trans hnone⟩
  intro p s₁ hr
  obtain ⟨data, result⟩ := p
  obtain ⟨new, hcalled, -, hresults, hchecked⟩ := hr
  have hone := (hown hcalled).trans hresults
  dsimp only
  split
  · exact (adds_logEvent _).bind fun _ s₂ h₂ => .pure ⟨new, hcalled.andThen h₂, fun _ => hone⟩
  -- a plan asks for rows as an array: with it an accepted answer has them
  · next hother hdata =>
    refine .throw ⟨new, hcalled, fun hplan => ?_⟩
    obtain ⟨rows, hrows⟩ := rows_of_accepted hplan hchecked
    rw [hrows] at hdata
    exact absurd (Option.some.inj hdata).symm (hother rows)
  · next hdata =>
    refine .throw ⟨new, hcalled, fun hplan => ?_⟩
    obtain ⟨rows, hrows⟩ := rows_of_accepted hplan hchecked
    rw [hrows] at hdata
    cases hdata

/-- What a chunk adds that has `tries` turns to go. -/
structure Chunked (service : DocumentParsingService ω) (tries : Nat) (s s' : Session ω)
    (new : List (Attempt ω)) : Prop where
  charged : Charged s s' new
  bound : new.length ≤ tries * (4 * (service.client.maxRetries + 1))

theorem Called.chunked {chunkRequest : OpenRouterRequest} {s' : Session ω}
    {new : List (Attempt ω)} (h : Called service.client chunkRequest 2 s s' new) :
    Chunked service 1 s s' new :=
  ⟨h.charged, by have hb := h.bound; omega⟩

theorem Chunked.trans {s' s'' : Session ω} {new new' : List (Attempt ω)} {n n' : Nat}
    (h : Chunked service n s s' new) (h' : Chunked service n' s' s'' new') :
    Chunked service (n + n') s s'' (new ++ new') where
  charged := h.charged.trans h'.charged
  bound := by
    have hb := h.bound
    have hb' := h'.bound
    rw [List.length_append, Nat.add_mul]
    omega

theorem Chunked.mono {s' : Session ω} {new : List (Attempt ω)} {n n' : Nat}
    (h : Chunked service n s s' new) (hn : n ≤ n') : Chunked service n' s s' new :=
  ⟨h.charged, h.bound.trans (Nat.mul_le_mul_right _ hn)⟩

theorem Chunked.nothing {s' : Session ω} (h : AddsNothing s s') (n : Nat) :
    Chunked service n s s' [] :=
  ⟨.nothing h, Nat.zero_le _⟩

/-- **The loop of a chunk**, by induction on the turns to go. -/
theorem tryChunk_triple {chunk : DocumentChunk} {chunkRequest : OpenRouterRequest}
    (hschema : chunkRequest.schema = plan.chunkSchema) (tries : Nat)
    (lastError : Option PyError) :
    (service.tryChunk chunk plan chunkRequest requestId tries lastError).Triple s
      (fun out s' => ∃ new, Chunked service tries s s' new ∧
        AnswersChunk service plan new (.ok out))
      (fun e s' => ∃ new, Chunked service tries s s' new ∧
        AnswersChunk service plan new (.error e)) := by
  induction tries generalizing lastError s with
  | zero => exact (adds_logEvent _).bind fun _ s' h => .throw ⟨[], .nothing h 0, fun _ => rfl⟩
  | succ tries ih =>
    refine (extractChunk_triple hschema).capture_bind ?_ ?_
    · rintro out s₁ ⟨new, hcalled, ho⟩
      exact .pure ⟨new, hcalled.chunked.mono (by omega), ho⟩
    · rintro e s₁ ⟨new, hcalled, ho⟩
      dsimp only
      split
      -- an `Exception` costs the turn, a cancellation ends the loop
      · rw [Nat.add_comm]
        refine (ih _).mono ?_ ?_
        · intro out s' hr
          obtain ⟨new', hchunked, hone⟩ := hr
          refine ⟨new ++ new', hcalled.chunked.trans hchunked, fun hplan => ?_⟩
          rw [acceptedResults_append, ho hplan, hone hplan, List.nil_append]
        · intro e s' hr
          obtain ⟨new', hchunked, hnone⟩ := hr
          refine ⟨new ++ new', hcalled.chunked.trans hchunked, fun hplan => ?_⟩
          rw [acceptedResults_append, ho hplan, hnone hplan, List.nil_append]
      · exact .throw ⟨new, hcalled.chunked.mono (by omega), ho⟩

theorem raising_adds (error : Option Interruption) :
    (raising error : Method ω Unit).Keeps AddsNothing := by
  cases error with
  | none => exact .pure ()
  | some interruption => exact .throw _

/-- **One chunk**: at most two turns. -/
theorem runChunk_triple {chunk : DocumentChunk} :
    (service.runChunk chunk plan request resolved chunkModel chunkModels consumerId
        requestId).Triple s
      (fun out s' => ∃ new, Chunked service 2 s s' new ∧
        AnswersChunk service plan new (.ok out))
      (fun e s' => ∃ new, Chunked service 2 s s' new ∧
        AnswersChunk service plan new (.error e)) := by
  refine (adds_callWorld _).bind fun interruption s₁ h₁ => ?_
  refine ((raising_adds interruption s₁).mono (fun _ s₂ h₂ => h₁.trans h₂) ?_).bind ?_
  · exact fun e s₂ h₂ => ⟨[], .nothing (h₁.trans h₂) 2, fun _ => rfl⟩
  refine fun _ s₂ h₂ => (adds_logEvent _).bind fun _ s₃ h₃ => ?_
  have hbefore : Chunked service 0 s s₃ [] := .nothing (h₂.trans h₃) 0
  refine (tryChunk_triple rfl 2 none).mono ?_ ?_
  · intro out s' h
    obtain ⟨new, hchunked, hone⟩ := h
    exact ⟨new, by simpa using hbefore.trans hchunked, hone⟩
  · intro e s' h
    obtain ⟨new, hchunked, hnone⟩ := h
    exact ⟨new, by simpa using hbefore.trans hchunked, hnone⟩

end Chunks

/-! ## A whole run -/

/-- What a run leaves for its bill: the attempts it made and a record for every
completion. -/
structure Billed {ω : Type} (s s' : Session ω) (new : List (Attempt ω)) : Prop where
  attempts : s'.attempts = s.attempts ++ new
  records : s'.records = s.records ++ (completions new).map charge

/-- A usage that reports the tokens of some results. -/
structure Reports (usage : UsageSummary) (results : List OpenRouterResult) : Prop where
  prompt : usage.promptTokens = (results.map (·.promptTokens)).sum
  completion : usage.completionTokens = (results.map (·.completionTokens)).sum
  total : usage.totalTokens = (results.map (·.totalTokens)).sum

section Runs

variable {ω : Type} {service : DocumentParsingService ω} {plan : ChunkPlan}
  {request : ParseMultipartRequest} {resolved : ResolvedModelConfig} {metadata : ParseMetadata}
  {chunkModel : String} {chunkModels : List String} {consumerId requestId : Option String}
  {s : Session ω}

/-- All chunks together. -/
theorem runChunks_triple (hplan : AsksForRows plan) {R : PyError → Session ω → Prop} :
    (Program.captureEach (fun chunk => service.runChunk chunk plan request resolved chunkModel
        chunkModels consumerId requestId) plan.chunks).Triple s
      (fun results s' => ∃ new, Charged s s' new ∧
        acceptedResults service.client.lib new = results.filterMap chunkResult) R := by
  have hloop := Program.Triple.captureEach (R := R) (d := []) (s := s) (l := plan.chunks)
    (f := fun chunk => service.runChunk chunk plan request resolved chunkModel chunkModels
      consumerId requestId)
    (I := fun done s' => ∃ new, Charged s s' new ∧ acceptedResults service.client.lib new =
      (done.map Prod.snd).filterMap chunkResult) ?_ ⟨[], .nothing (.refl s), rfl⟩
  · refine hloop.mono ?_ fun _ _ h => h
    intro results s' hr
    obtain ⟨hlen, new, hcharged, hnew⟩ := hr
    refine ⟨new, hcharged, ?_⟩
    rwa [List.nil_append, List.map_snd_zip hlen.le] at hnew
  intro done chunk s₁ _ hr
  obtain ⟨new, hcharged, hnew⟩ := hr
  refine runChunk_triple.mono ?_ ?_
  · intro out s₂ hr
    obtain ⟨new', hchunked, hone⟩ := hr
    refine ⟨new ++ new', hcharged.trans hchunked.charged, ?_⟩
    rw [acceptedResults_append, hnew, hone hplan]
    simp [chunkResult]
  · intro e s₂ hr
    obtain ⟨new', hchunked, hnone⟩ := hr
    refine ⟨new ++ new', hcharged.trans hchunked.charged, ?_⟩
    rw [acceptedResults_append, hnew, hnone hplan]
    simp [chunkResult]

/-- A validated completion of the service, which asks for the schema it validates by. -/
theorem answer_triple {client : OpenRouterClient ω} {request : OpenRouterRequest} {schema : Json}
    (hschema : request.schema = schema) :
    (completeAndValidate client request schema).Triple s
      (fun out s' => ∃ new, Charged s s' new ∧ acceptedResults client.lib new = [out.2] ∧
        checkedOutput client.lib out.2.content schema = .ok out.1)
      (fun _ s' => ∃ new, Charged s s' new) := by
  refine completeAndValidate_triple.mono ?_ ?_
  · intro out s' h
    obtain ⟨new, hcalled, -, hresults, hchecked⟩ := h
    have hschemas : ∀ a ∈ new, a.request.schema = schema := fun a ha =>
      (hcalled.schemas a ha).trans hschema
    exact ⟨new, hcalled.charged, (acceptedResults_eq hschemas).trans hresults, hchecked⟩
  · intro e s' h
    obtain ⟨new, hcalled, -⟩ := h
    exact ⟨new, hcalled.charged⟩

theorem runSummary_triple :
    (service.runSummary plan request resolved chunkModel chunkModels consumerId requestId).Triple s
      (fun summary s' => ∃ new, Charged s s' new ∧
        acceptedResults service.client.lib new = (summary.map (·.2)).toList)
      (fun _ s' => ∃ new, Charged s s' new) := by
  unfold DocumentParsingService.runSummary
  split
  · exact .pure ⟨[], .nothing (.refl s), rfl⟩
  · refine (answer_triple rfl).bind fun summary s' h => .pure ?_
    obtain ⟨new, hcharged, hone, -⟩ := h
    exact ⟨new, hcharged, hone⟩

theorem logChecks_adds (checks : List PostCheckResult) :
    (logChecks requestId checks : Method ω Unit).Keeps AddsNothing := by
  induction checks with
  | nil => exact .pure ()
  | cons check checks ih => exact .bind (fun _ => adds_logEvent _) fun _ => ih

theorem runPostChecks_adds (lib : Libraries) (data : Json) (checks : List Json) :
    (runPostChecks lib data checks requestId : Method ω (List PostCheckResult)).Keeps
      AddsNothing := by
  refine .bind (.ofExcept _) fun outcomes => ?_
  refine .bind (logChecks_adds _) fun _ => ?_
  exact .pure _

theorem reportFailed_adds (failed : List Nat) :
    (service.reportFailed plan failed requestId).Keeps AddsNothing := by
  unfold DocumentParsingService.reportFailed
  split
  · exact .pure ()
  · refine .bind (fun _ => adds_logEvent _) fun _ => ?_
    split
    · exact .pure ()
    · exact .throw _

theorem reports_aggregateUsage (lib : Libraries) (results : List OpenRouterResult)
    (model : String) : Reports (aggregateUsage lib results model) results := ⟨rfl, rfl, rfl⟩

theorem reports_usageOf (result : OpenRouterResult) : Reports (usageOf result) [result] := by
  constructor <;> simp [usageOf]

/-- A document that reports the accepted completions of the run. -/
def ReportsAccepted (lib : Libraries) (doc : ParsedDocument) (new : List (Attempt ω)) : Prop :=
  ∃ usage, doc.metadata.usage = some usage ∧ Reports usage (acceptedResults lib new)

/-- **The chunked path.** -/
theorem runChunkedParse_triple (hplan : AsksForRows plan) :
    (service.runChunkedParse request plan resolved metadata consumerId requestId).Triple s
      (fun doc s' => ∃ new, Charged s s' new ∧ ReportsAccepted service.client.lib doc new)
      (fun _ s' => ∃ new, Charged s s' new) := by
  refine (adds_logEvent _).bind fun _ s₁ h₁ => ?_
  refine (runChunks_triple hplan).bind fun results s₂ hr => ?_
  obtain ⟨new, hcharged, hresults⟩ := hr
  have h₂ : Charged s s₂ new := Charged.trans (.nothing h₁) hcharged
  refine (adds_callWorld _).bind fun interruption s₃ h₃ => ?_
  have hgathered : (raising interruption).Triple s₃ (fun _ s₄ => Charged s s₄ new)
      fun _ s' => ∃ new, Charged s s' new :=
    (raising_adds interruption s₃).mono (fun _ _ h => h₂.andThen (h₃.trans h))
      fun _ _ h => ⟨new, h₂.andThen (h₃.trans h)⟩
  refine hgathered.bind fun _ s₄ h₄ => ?_
  refine (runSummary_triple.mono (fun _ _ h => h) ?_).bind fun summary s₅ hr => ?_
  · rintro e s' ⟨new', hsummary⟩
    exact ⟨_, h₄.trans hsummary⟩
  obtain ⟨new', hsummary, hone⟩ := hr
  have h₅ := h₄.trans hsummary
  have hall : acceptedResults service.client.lib (new ++ new') =
      results.filterMap chunkResult ++ (summary.map (·.2)).toList := by
    rw [acceptedResults_append, hresults, hone]
  -- from here on no attempt is made
  have hstill {α : Type} {p : Method ω α} {t : Session ω} (hp : p.Keeps AddsNothing)
      (ht : Charged s t (new ++ new')) :
      p.Triple t (fun _ t' => Charged s t' (new ++ new')) fun _ s' => ∃ new, Charged s s' new :=
    (hp t).mono (fun _ _ h => ht.andThen h) fun _ _ h => ⟨_, ht.andThen h⟩
  refine (hstill (reportFailed_adds _) h₅).bind fun _ s₆ h₆ => ?_
  refine (hstill (.ofExcept _) h₆).bind fun validated s₇ h₇ => ?_
  refine (hstill (.ofExcept _) h₇).bind fun data s₈ h₈ => ?_
  refine (hstill (runPostChecks_adds _ _ _) h₈).bind fun checks s₉ h₉ => ?_
  refine .pure ⟨_, h₉, _, rfl, ?_⟩
  rw [hall]
  exact reports_aggregateUsage _ _ _

/-- **The single pass.** -/
theorem runSinglePass_triple {markdown : String} :
    (service.runSinglePass request markdown resolved metadata consumerId requestId).Triple s
      (fun doc s' => ∃ new, Charged s s' new ∧ ReportsAccepted service.client.lib doc new)
      (fun _ s' => ∃ new, Charged s s' new) := by
  refine (answer_triple rfl).bind ?_
  intro p s₁ hr
  obtain ⟨data, result⟩ := p
  obtain ⟨new, hcharged, hone, -⟩ := hr
  have hchecks : (runPostChecks service.client.lib (normalizeValues data request.schema.1)
      request.checks requestId).Triple s₁ (fun _ s₂ => Charged s s₂ new)
      fun _ s' => ∃ new, Charged s s' new :=
    (runPostChecks_adds _ _ _ s₁).mono (fun _ _ h => hcharged.andThen h)
      fun _ _ h => ⟨_, hcharged.andThen h⟩
  refine hchecks.bind fun checks s₂ h₂ => ?_
  refine .pure ⟨_, h₂, _, rfl, ?_⟩
  rw [hone]
  exact reports_usageOf result

theorem storeAndExtract_sameCalls : (service.storeAndExtract request).Keeps SameCalls := by
  refine .bind (storedUpload_sameCalls _ _ _ _) fun extracted => ?_
  rcases extracted with ⟨_ | _, upload⟩
  · exact .pure _
  · exact .pure _

theorem SameCalls.billed {s' s'' : Session ω} {new : List (Attempt ω)} (h : SameCalls s s')
    (h' : Charged s' s'' new) : Billed s s'' new :=
  ⟨by rw [← h.attempts]; exact Adds.attempts h', by rw [← h.records]; exact Adds.records h'⟩

/-- **A whole run.**  Every completion has its record, and the usage reported is
that of the completions whose output was accepted. -/
theorem runParse_triple :
    (service.runParse request consumerId requestId).Triple s
      (fun doc s' => ∃ new, Billed s s' new ∧ ReportsAccepted service.client.lib doc new)
      (fun _ s' => ∃ new, Billed s s' new) := by
  refine ((storeAndExtract_sameCalls s).mono (fun _ _ h => h) fun _ s' h =>
    ⟨[], h.billed (.nothing (.refl s'))⟩).bind ?_
  intro p s₁ h₁
  obtain ⟨markdown, metadata⟩ := p
  dsimp only
  split
  · next plan hplan =>
    refine (runChunkedParse_triple (asksForRows_of_plan hplan)).mono ?_ ?_
    · exact fun doc s' ⟨new, hcharged, hreports⟩ => ⟨new, h₁.billed hcharged, hreports⟩
    · exact fun e s' ⟨new, hcharged⟩ => ⟨new, h₁.billed hcharged⟩
  · refine runSinglePass_triple.mono ?_ ?_
    · exact fun doc s' ⟨new, hcharged, hreports⟩ => ⟨new, h₁.billed hcharged, hreports⟩
    · exact fun e s' ⟨new, hcharged⟩ => ⟨new, h₁.billed hcharged⟩

end Runs

/-! ## Bounds and records -/

/-- **Model calls are bounded and billed once.**  One call of the client makes at
most `2 * (max_retries + 1)` attempts.  If it returns, it has appended one record,
which carries the model and the token counts of its result; if it raises, none.
One chunk makes at most `8 * (max_retries + 1)` attempts. -/
theorem model_calls_bounded {ω : Type} (client : OpenRouterClient ω) (request : OpenRouterRequest)
    (service : DocumentParsingService ω) (chunk : DocumentChunk) (plan : ChunkPlan)
    (parse : ParseMultipartRequest) (resolved : ResolvedModelConfig) (chunkModel : String)
    (chunkModels : List String) (consumerId requestId : Option String) (s : Session ω) :
    (client.complete request).Triple s
        (fun result s' => ∃ new record, s'.attempts = s.attempts ++ new ∧
          new.length ≤ 2 * (client.maxRetries + 1) ∧ s'.records = s.records ++ [record] ∧
          record.model = result.model ∧ record.promptTokens = result.promptTokens ∧
          record.completionTokens = result.completionTokens ∧
          record.totalTokens = result.totalTokens)
        (fun _ s' => ∃ new, s'.attempts = s.attempts ++ new ∧
          new.length ≤ 2 * (client.maxRetries + 1) ∧ s'.records = s.records) ∧
      (service.runChunk chunk plan parse resolved chunkModel chunkModels consumerId
          requestId).Keeps fun s s' => ∃ new, s'.attempts = s.attempts ++ new ∧
        new.length ≤ 8 * (service.client.maxRetries + 1) := by
  constructor
  · refine complete_called.mono ?_ ?_
    · intro result s' hr
      obtain ⟨new, hcalled, hcomp, -⟩ := hr
      refine ⟨new, usageRecord result request, Adds.attempts hcalled.charged,
        by simpa using hcalled.bound, ?_, rfl, rfl, rfl, rfl⟩
      rw [Adds.records hcalled.charged, hcomp]
      rfl
    · intro e s' hr
      obtain ⟨new, hcalled, hnone⟩ := hr
      refine ⟨new, Adds.attempts hcalled.charged, by simpa using hcalled.bound, ?_⟩
      rw [Adds.records hcalled.charged, hnone]
      simp
  · have hbound {s' s'' : Session ω} {new : List (Attempt ω)} (h : Chunked service 2 s' s'' new) :
        ∃ new, s''.attempts = s'.attempts ++ new ∧
          new.length ≤ 8 * (service.client.maxRetries + 1) :=
      ⟨new, Adds.attempts h.charged, by have hb := h.bound; omega⟩
    refine fun s => runChunk_triple.mono ?_ ?_
    · exact fun out s' ⟨new, hchunked, _⟩ => hbound hchunked
    · exact fun e s' ⟨new, hchunked, _⟩ => hbound hchunked

/-! ## The usage reported and the usage consumed -/

/-- The sum of a count over some completions. -/
def tokens (count : OpenRouterResult → Int)
    (completed : List (OpenRouterRequest × OpenRouterResult)) : Int :=
  (completed.map fun c => count c.2).sum

/-- The completions among the attempts whose output was rejected. -/
def rejected {ω : Type} (lib : Libraries) (attempts : List (Attempt ω)) :
    List (OpenRouterRequest × OpenRouterResult) :=
  (completions attempts).filter fun c => !accepted lib c

/-- Every completion was accepted or rejected. -/
theorem tokens_completions {ω : Type} (lib : Libraries) (count : OpenRouterResult → Int)
    (attempts : List (Attempt ω)) :
    tokens count (completions attempts) =
      ((acceptedResults lib attempts).map count).sum + tokens count (rejected lib attempts) := by
  unfold tokens acceptedResults rejected
  induction completions attempts with
  | nil => rfl
  | cons c cs ih =>
    rw [List.map_cons, List.sum_cons, ih, List.filter_cons, List.filter_cons]
    cases accepted lib c
    · simp
      omega
    · simp
      omega

theorem sum_eq_tokens_iff {ω : Type} {lib : Libraries} {count : OpenRouterResult → Int}
    {attempts : List (Attempt ω)} :
    ((acceptedResults lib attempts).map count).sum = tokens count (completions attempts) ↔
      tokens count (rejected lib attempts) = 0 := by
  rw [tokens_completions lib]
  omega

/-- **The usage reported is that of the accepted completions.**  The tracker has all
completions on record, so it is the usage consumed exactly when the completions whose
output was rejected consumed nothing. -/
theorem reported_usage_iff {ω : Type} (service : DocumentParsingService ω)
    (request : ParseMultipartRequest) (consumerId requestId : Option String) (s : Session ω) :
    (service.runParse request consumerId requestId).Triple s
      (fun doc s' => ∃ new usage, s'.attempts = s.attempts ++ new ∧
        s'.records = s.records ++ (completions new).map charge ∧
        doc.metadata.usage = some usage ∧
        Reports usage (acceptedResults service.client.lib new) ∧
        (usage.promptTokens = tokens (·.promptTokens) (completions new) ↔
          tokens (·.promptTokens) (rejected service.client.lib new) = 0) ∧
        (usage.completionTokens = tokens (·.completionTokens) (completions new) ↔
          tokens (·.completionTokens) (rejected service.client.lib new) = 0) ∧
        (usage.totalTokens = tokens (·.totalTokens) (completions new) ↔
          tokens (·.totalTokens) (rejected service.client.lib new) = 0))
      (fun _ _ => True) := by
  refine runParse_triple.mono ?_ fun _ _ _ => trivial
  intro doc s' h
  obtain ⟨new, hbilled, usage, husage, hreports⟩ := h
  refine ⟨new, usage, hbilled.attempts, hbilled.records, husage, hreports, ?_, ?_, ?_⟩
  · rw [hreports.prompt]
    exact sum_eq_tokens_iff
  · rw [hreports.completion]
    exact sum_eq_tokens_iff
  · rw [hreports.total]
    exact sum_eq_tokens_iff

/-! ### A rejected output -/

/-- A chunk of a stream with a piece of content and a usage. -/
def streamedChunk (content : String) (prompt completion : Int) : Json :=
  .obj [("choices", .arr [.obj [("delta", .obj [("content", .str content)])]]),
    ("usage", .obj [("prompt_tokens", .int prompt), ("completion_tokens", .int completion),
      ("total_tokens", .int (prompt + completion))])]

/-- An upstream whose clock stands still, with one stream for the first call and
one for all later calls. -/
def twoAnswers : Upstream Nat where
  monotonic w := (0, w)
  uniform _ w := (0, w)
  sleep _ w := (none, w)
  exchange _ _ _ w :=
    (.ok { statusCode := 200, body := none, interruption := none
           lines := [if w = 0 then "data: first" else "data: second", "data: [DONE]"] }, w + 1)

/-- A service with every default, over that upstream. -/
def sampleService (parse : String → Option Json) : DocumentParsingService Nat where
  settings := .plain
  client := { settings := .plain, lib := plainLibraries parse, upstream := twoAnswers }
  intake := pdfIntake
  extract _ _ w := (.ok (.text "report"), w)
  acquire w := (none, w)
  gather w := (none, w)

/-- A request for any object. -/
def plainParse : ParseMultipartRequest where
  upload := twoReads (.chunk [] none)
  schema := ⟨.obj [("type", .str "object")], by decide⟩

/-- A model that answers with a list, and when asked again with an object. -/
def wavering : String → Option Json
  | "first" => some (streamedChunk "[]" 7 3)
  | "second" => some (streamedChunk "{}" 8 2)
  | "[]" => some (.arr [])
  | "{}" => some (.obj [])
  | _ => none

/-- Two completions on record, and the usage of one reported. -/
theorem rejected_output_unreported :
    let run := ((sampleService wavering).runParse plainParse none none).outcome { world := 0 }
    run.1.toOption.bind (·.metadata.usage) = some ⟨"default", 8, 2, 10, none⟩ ∧
      (run.2.records.map (·.totalTokens)).sum = 20 := by
  decide +kernel

end InternumCore
