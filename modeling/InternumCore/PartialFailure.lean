import InternumCore.Billing
import InternumCore.CheckReadings
import InternumCore.Ranges

/-!
# Reporting the chunks that failed

A chunk may fail for good.  If partial results are refused the whole parse then
raises, and names the failed chunks with their row ranges; otherwise it returns
what the other chunks found and lists the failed ones in its metadata.

`ChunkedRun` is a run of `runChunkedParse` up to the point where it is known which
chunks failed and that summary and validation passed.  From there on the report is
exact (`partial_failure_reported_iff`), save that a check on the data may still
raise: an integer that no float can hold is not a failed check but an error.
-/

namespace InternumCore
open Chunking

/-- What `gather` gives for each chunk. -/
abbrev ChunkResults := List (Except PyError (ChunkOutcome × OpenRouterResult))

/-- The rows of a chunk, as a range. -/
def rowRange (chunk : DocumentChunk) : Nat × Nat := (chunk.startRow, chunk.endRow)

/-- The chunks that failed. -/
def failedOf (chunks : List DocumentChunk) (results : ChunkResults) : List DocumentChunk :=
  ((chunks.zip results).filter fun p => !p.2.isOk).map Prod.fst

/-- The chunks that succeeded. -/
def succeededOf (chunks : List DocumentChunk) (results : ChunkResults) : List DocumentChunk :=
  ((chunks.zip results).filter fun p => p.2.isOk).map Prod.fst

/-- The indices of the chunks that failed. -/
def failingIndices (chunks : List DocumentChunk) (results : ChunkResults) : List Nat :=
  (failedOf chunks results).map (·.index)

/-- A row that a chunk returned that did not fail. -/
def ReturnedBySuccess (results : ChunkResults) (row : Json) : Prop :=
  ∃ outcome result rows, Except.ok (outcome, result) ∈ results ∧ outcome.rows = some rows ∧
    row ∈ rows

/-- What a chunked parse owes its caller once its chunks have come to their ends. -/
structure ReportsExactly (plan : ChunkPlan) (results : ChunkResults) (schema : Json)
    (allowPartial : Bool) (outcome : Except PyError ParsedDocument) : Prop where
  increasing : (failingIndices plan.chunks results).Pairwise (· < ·)
  refused : allowPartial = false → failingIndices plan.chunks results ≠ [] →
    ∃ (error : SchemaError) (ranges : List (Nat × Nat)), outcome = .error (.schema error) ∧
      error.details = some (.obj
        [("failedChunks", .arr ((failingIndices plan.chunks results).map fun index => .int index)),
          ("failedRanges", .arr (ranges.map fun range => .arr [.int range.1, .int range.2]))]) ∧
      Ranges.Tiles plan.totalRows (ranges ++ (succeededOf plan.chunks results).map rowRange)
  returned : (allowPartial = true ∨ failingIndices plan.chunks results = []) →
    ∃ (doc : ParsedDocument) (summary : ChunkingSummary) (rows : List Json) (data : Option Json),
      outcome = .ok doc ∧ doc.metadata.chunking = some summary ∧
      summary.failedChunks = failingIndices plan.chunks results ∧
      (summary.partialResult = true ↔ failingIndices plan.chunks results ≠ []) ∧
      doc.data = normalizeValues (assembleResult plan rows data) schema ∧
      ∀ row ∈ rows, ReturnedBySuccess results row

/-! ## A run up to its chunks' ends -/

section Runs

variable {ω : Type} (service : DocumentParsingService ω) (request : ParseMultipartRequest)
  (plan : ChunkPlan) (resolved : ResolvedModelConfig) (consumerId requestId : Option String)

/-- The chunks of `_run_chunked_parse`. -/
def extractChunks : Method ω ChunkResults :=
  Program.captureEach
    (fun chunk => service.runChunk chunk plan request resolved
      (chunkModels service.settings resolved).1 (chunkModels service.settings resolved).2
      consumerId requestId) plan.chunks

/-- The session once the plan is logged. -/
def announced (s : Session ω) : Session ω :=
  { s with log := s.log ++ [.chunkPlan plan.totalRows plan.chunks.length
      service.settings.chunkRowsPerChunk requestId] }

/-- The outcomes of the chunks. -/
def outcomesOf (results : ChunkResults) : List ChunkOutcome :=
  (plan.chunks.zip results).map fun p => chunkOutcome p.1 p.2

/-- A run whose chunks succeed or fail as they do, whose summary succeeds and whose
result passes the validation. -/
structure ChunkedRun (s : Session ω) where
  results : ChunkResults
  extracted : Session ω
  chunks : (extractChunks service request plan resolved consumerId requestId).outcome
    (announced service plan requestId s) = (.ok results, extracted)
  world : ω
  gathered : service.gather extracted.world = (none, world)
  summary : Option (Json × OpenRouterResult)
  summarized : Session ω
  summed : (service.runSummary plan request resolved (chunkModels service.settings resolved).1
    (chunkModels service.settings resolved).2 consumerId requestId).outcome
      { extracted with world := world } = (.ok summary, summarized)
  validated : Json
  passed : JsonSchema.validateAgainstOriginal service.client.lib.jsonschema
    (assembleResult plan (mergeChunkRows (outcomesOf plan results)).1 (summary.map (·.1)))
    request.schema.1 = .ok validated

variable {service request plan resolved consumerId requestId}

/-! ### What the chunks return -/

/-- A chunk that succeeds returns rows under its own index. -/
def OwnRows (chunk : DocumentChunk) : Except PyError (ChunkOutcome × OpenRouterResult) → Prop
  | .ok out => out.1.index = chunk.index ∧ ∃ rows, out.1.rows = some rows
  | .error _ => True

theorem extractChunk_ownRows {chunk : DocumentChunk} {chunkRequest : OpenRouterRequest}
    (s : Session ω) :
    (service.extractChunk chunk plan chunkRequest requestId).Triple s
      (fun out _ => OwnRows chunk (.ok out)) (fun e _ => OwnRows chunk (.error e)) := by
  refine .bind_any (fun _ _ => trivial) fun p _ => ?_
  obtain ⟨data, result⟩ := p
  dsimp only
  split
  · next rows _ =>
    exact .bind_any (fun _ _ => trivial) fun _ _ => .pure ⟨rfl, rows, rfl⟩
  · exact .throw trivial
  · exact .throw trivial

theorem tryChunk_ownRows {chunk : DocumentChunk} {chunkRequest : OpenRouterRequest} (tries : Nat)
    (lastError : Option PyError) (s : Session ω) :
    (service.tryChunk chunk plan chunkRequest requestId tries lastError).Triple s
      (fun out _ => OwnRows chunk (.ok out)) (fun e _ => OwnRows chunk (.error e)) := by
  induction tries generalizing lastError s with
  | zero =>
    exact .bind_any (fun _ _ => trivial) fun _ _ => .throw trivial
  | succ tries ih =>
    refine (extractChunk_ownRows s).capture_bind (fun _ _ hout => .pure hout) fun error s' _ => ?_
    dsimp only
    split
    · exact ih _ s'
    · exact .throw trivial

theorem runChunk_ownRows {chunk : DocumentChunk} {chunkModel : String}
    {chunkModels : List String} (s : Session ω) :
    (service.runChunk chunk plan request resolved chunkModel chunkModels consumerId
        requestId).Triple s
      (fun out _ => OwnRows chunk (.ok out)) (fun e _ => OwnRows chunk (.error e)) := by
  -- the permit, and that it is waited for, and the event say nothing of the rows
  refine .bind_any (fun _ _ => trivial) fun interruption _ => ?_
  refine .bind_any (fun _ _ => trivial) fun _ _ => ?_
  refine .bind_any (fun _ _ => trivial) fun _ s' => ?_
  exact tryChunk_ownRows 2 none s'

/-- There is one result for each chunk, and its own. -/
theorem ChunkedRun.own {s : Session ω}
    (run : ChunkedRun service request plan resolved consumerId requestId s) :
    run.results.length = plan.chunks.length ∧
      ∀ p ∈ plan.chunks.zip run.results, OwnRows p.1 p.2 := by
  have htriple := Program.Triple.captureEach
    (f := fun chunk => service.runChunk chunk plan request resolved
      (chunkModels service.settings resolved).1 (chunkModels service.settings resolved).2
      consumerId requestId)
    (I := fun d _ => ∀ p ∈ d, OwnRows p.1 p.2) (R := fun _ _ => True) (l := plan.chunks)
    (d := []) (s := announced service plan requestId s) ?_ (by simp)
  · simpa using htriple.of_ok run.chunks
  · intro d chunk s _ hd
    have hnext : ∀ out, OwnRows chunk out → ∀ p ∈ d ++ [(chunk, out)], OwnRows p.1 p.2 := by
      intro out hout p hp
      rcases List.mem_append.mp hp with hp | hp
      · exact hd p hp
      · rw [List.mem_singleton.mp hp]
        exact hout
    exact (runChunk_ownRows s).mono (fun out _ h => hnext _ h) fun e _ h => hnext _ h

end Runs

/-! ## The results of the chunks -/

section Results

variable {plan : ChunkPlan} {chunks : List DocumentChunk} {results : ChunkResults}

theorem index_chunkOutcome {chunk : DocumentChunk}
    {result : Except PyError (ChunkOutcome × OpenRouterResult)} (h : OwnRows chunk result) :
    (chunkOutcome chunk result).index = chunk.index := by
  cases result with
  | ok out => exact h.1
  | error e => rfl

theorem rows_chunkOutcome {chunk : DocumentChunk}
    {result : Except PyError (ChunkOutcome × OpenRouterResult)} (h : OwnRows chunk result) :
    (chunkOutcome chunk result).rows.isNone = !result.isOk := by
  cases result with
  | ok out =>
    obtain ⟨-, rows, hrows⟩ := h
    simp [chunkOutcome, hrows, Except.isOk, Except.toBool]
  | error e => rfl

theorem map_index_outcomesOf (hlen : results.length = plan.chunks.length)
    (hown : ∀ p ∈ plan.chunks.zip results, OwnRows p.1 p.2) :
    (outcomesOf plan results).map (·.index) = plan.chunks.map (·.index) := by
  have hfst : plan.chunks = (plan.chunks.zip results).map Prod.fst := by
    rw [List.map_fst_zip (Nat.le_of_eq hlen.symm)]
  rw [outcomesOf, List.map_map]
  nth_rewrite 2 [hfst]
  rw [List.map_map]
  exact List.map_congr_left fun p hp => index_chunkOutcome (hown p hp)

/-- The merge lists the chunks that failed. -/
theorem mergeChunkRows_failed {config : ChunkingConfig} {block : TableBlock}
    (hp : ExactPartition config block plan) (hlen : results.length = plan.chunks.length)
    (hown : ∀ p ∈ plan.chunks.zip results, OwnRows p.1 p.2) :
    (mergeChunkRows (outcomesOf plan results)).2 = failingIndices plan.chunks results := by
  have hsorted : (outcomesOf plan results).Pairwise (fun a b => a.index < b.index) := by
    have hrange := List.pairwise_lt_range (n := plan.chunks.length)
    rw [← hp.indices, ← map_index_outcomesOf hlen hown, List.pairwise_map] at hrange
    exact hrange
  rw [mergeChunkRows_eq, sortByIndex_of_perm (List.Perm.refl _) hsorted]
  dsimp only
  rw [outcomesOf, failingIndices, failedOf, List.filter_map, List.map_map, List.map_map]
  have hfilter : (plan.chunks.zip results).filter
        ((fun o : ChunkOutcome => o.rows.isNone) ∘ fun p => chunkOutcome p.1 p.2) =
      (plan.chunks.zip results).filter fun p => !p.2.isOk :=
    List.filter_congr fun p hm => rows_chunkOutcome (hown p hm)
  rw [hfilter]
  exact List.map_congr_left fun p hm => index_chunkOutcome (hown p (List.mem_of_mem_filter hm))

/-- Every merged row was returned by a chunk that succeeded. -/
theorem returnedBySuccess_of_mem {row : Json}
    (h : row ∈ (mergeChunkRows (outcomesOf plan results)).1) : ReturnedBySuccess results row := by
  rw [mergeChunkRows_eq] at h
  rcases BoundaryJoin.mem_foldl_append h with hnil | ⟨rows, hrows, hrow⟩
  · cases hnil
  · obtain ⟨outcome, hm, ho⟩ := List.mem_filterMap.mp hrows
    obtain ⟨p, hp, rfl⟩ := List.mem_map.mp (List.mem_mergeSort.mp hm)
    obtain ⟨chunk, result⟩ := p
    have hmem : result ∈ results := (List.of_mem_zip hp).2
    cases result with
    | ok out => exact ⟨out.1, out.2, rows, hmem, ho, hrow⟩
    | error e => cases ho

section Partition

variable {config : ChunkingConfig} {block : TableBlock} (hp : ExactPartition config block plan)
  (hlen : results.length = plan.chunks.length)

include hlen in
theorem map_fst_zip_results : (plan.chunks.zip results).map Prod.fst = plan.chunks :=
  List.map_fst_zip (Nat.le_of_eq hlen.symm)

include hp hlen

/-- The indices of the chunks that failed increase. -/
theorem failingIndices_increasing : (failingIndices plan.chunks results).Pairwise (· < ·) := by
  have hsub : (failedOf plan.chunks results).Sublist plan.chunks := by
    have h := (List.filter_sublist (p := fun p => !p.2.isOk)
      (l := plan.chunks.zip results)).map Prod.fst
    rwa [map_fst_zip_results hlen] at h
  have hrange := List.pairwise_lt_range (n := plan.chunks.length)
  rw [← hp.indices] at hrange
  exact hrange.sublist (hsub.map _)

/-- The chunks that failed are those whose index is listed. -/
theorem filter_failing :
    plan.chunks.filter (·.index ∈ failingIndices plan.chunks results) =
      failedOf plan.chunks results := by
  have hnodup : ((plan.chunks.zip results).map fun p => p.1.index).Nodup := by
    have hmap : (plan.chunks.zip results).map (fun p => p.1.index) = plan.chunks.map (·.index) := by
      rw [← map_fst_zip_results hlen, List.map_map, map_fst_zip_results hlen]
      rfl
    rw [hmap, hp.indices]
    exact List.nodup_range
  have hmem : ∀ p ∈ plan.chunks.zip results,
      p.1.index ∈ failingIndices plan.chunks results ↔ (!p.2.isOk) = true := by
    intro p hpm
    constructor
    · intro h
      obtain ⟨chunk, hc, hi⟩ := List.mem_map.mp h
      obtain ⟨q, hq, rfl⟩ := List.mem_map.mp hc
      obtain ⟨hqm, hfailed⟩ := List.mem_filter.mp hq
      rwa [← List.inj_on_of_nodup_map hnodup hqm hpm hi]
    · intro h
      exact List.mem_map.mpr ⟨p.1, List.mem_map.mpr ⟨p, List.mem_filter.mpr ⟨hpm, h⟩, rfl⟩, rfl⟩
  calc plan.chunks.filter (·.index ∈ failingIndices plan.chunks results)
      = ((plan.chunks.zip results).map Prod.fst).filter
          (·.index ∈ failingIndices plan.chunks results) := by rw [map_fst_zip_results hlen]
    _ = ((plan.chunks.zip results).filter
          fun p => p.1.index ∈ failingIndices plan.chunks results).map Prod.fst := List.filter_map
    _ = failedOf plan.chunks results := by
        refine congrArg (List.map Prod.fst) (List.filter_congr fun p hpm => ?_)
        rw [Bool.eq_iff_iff, decide_eq_true_iff]
        exact hmem p hpm

/-- The ranges of all chunks, failed or not, tile the table. -/
theorem tiles_ranges :
    Ranges.Tiles plan.totalRows ((failedOf plan.chunks results).map rowRange ++
      (succeededOf plan.chunks results).map rowRange) := by
  have hne : plan.chunks ≠ [] := by
    intro h
    have hfirst := hp.first
    rw [h] at hfirst
    cases hfirst
  have hall : Ranges.Consecutive 0 (plan.chunks.map rowRange) plan.totalRows := by
    refine Ranges.consecutive_of_getElem (by simpa using hne) ?_ ?_ ?_ ?_
    · simpa [Function.comp_def, rowRange] using hp.first
    · simpa [Function.comp_def, rowRange] using hp.last
    · intro range hr
      obtain ⟨chunk, hc, rfl⟩ := List.mem_map.mp hr
      exact Nat.le_of_lt (hp.sizes chunk hc).1
    · intro i hi
      have hi' : i + 1 < plan.chunks.length := by simpa using hi
      simpa [rowRange] using hp.consecutive i hi'
  refine hall.tiles.perm ?_
  have hperm := (List.filter_append_perm (fun p => p.2.isOk) (plan.chunks.zip results)).symm
  have hfst := hperm.map Prod.fst
  rw [map_fst_zip_results hlen, List.map_append] at hfst
  exact (hfst.trans List.perm_append_comm).map rowRange |>.trans (by
    rw [List.map_append, failedOf, succeededOf])

end Partition

end Results

/-! ## The end of a run -/

section Ends

variable {ω : Type} {service : DocumentParsingService ω} {request : ParseMultipartRequest}
  {plan : ChunkPlan} {resolved : ResolvedModelConfig} {consumerId requestId : Option String}
  {s : Session ω} (run : ChunkedRun service request plan resolved consumerId requestId s)

/-- The chunks the merge finds missing. -/
def ChunkedRun.failed : List Nat := (mergeChunkRows (outcomesOf plan run.results)).2

/-- What the rows of the chunks and the summary add up to. -/
def ChunkedRun.data : Json :=
  normalizeValues (assembleResult plan (mergeChunkRows (outcomesOf plan run.results)).1
    (run.summary.map (·.1))) request.schema.1

theorem ChunkedRun.validated_eq :
    run.validated = assembleResult plan (mergeChunkRows (outcomesOf plan run.results)).1
      (run.summary.map (·.1)) :=
  (JsonSchema.validateAgainstOriginal_eq_ok_iff.mp run.passed).2.2

theorem outcome_reportFailed_refused {failed : List Nat} (hfailed : failed ≠ [])
    (hrefuses : service.settings.chunkAllowPartial = false) (s : Session ω) :
    ((service.reportFailed plan failed requestId).outcome s).1 =
      .error (.schema (failedChunksError plan.chunks failed)) := by
  unfold DocumentParsingService.reportFailed
  rw [if_neg hfailed, hrefuses]
  rfl

theorem outcome_reportFailed_accepted {failed : List Nat}
    (h : service.settings.chunkAllowPartial = true ∨ failed = []) (s : Session ω) :
    ((service.reportFailed plan failed requestId).outcome s).1 = .ok () := by
  unfold DocumentParsingService.reportFailed
  by_cases hfailed : failed = []
  · rw [if_pos hfailed]
    rfl
  · rw [if_neg hfailed, h.resolve_right hfailed]
    rfl

theorem ChunkedRun.outcome_eq (metadata : ParseMetadata) :
    (service.runChunkedParse request plan resolved metadata consumerId requestId).outcome s =
      (do
        service.reportFailed plan run.failed requestId
        let checks ← runPostChecks service.client.lib run.data request.checks requestId
        let chunkingSummary : ChunkingSummary :=
          { chunked := true, totalRows := plan.totalRows, chunkCount := plan.chunks.length
            failedChunks := run.failed, partialResult := !run.failed.isEmpty
            model := (chunkModels service.settings resolved).1 }
        return { data := run.data, metadata :=
          { metadata with
            usage := some (aggregateUsage service.client.lib
              (run.results.filterMap chunkResult ++ (run.summary.map (·.2)).toList)
              (chunkModels service.settings resolved).1)
            checks := checks, chunking := some chunkingSummary } } :
        Method ω ParsedDocument).outcome run.summarized := by
  have hobject : requireObject run.validated = .ok run.validated := by
    rw [run.validated_eq]
    rfl
  -- the run is followed step by step, up to the report of the failed chunks
  unfold DocumentParsingService.runChunkedParse
  refine (Program.outcome_bind_ok (a := ()) (t := announced service plan requestId s) rfl).trans ?_
  refine (Program.outcome_bind_ok run.chunks).trans ?_
  refine (Program.outcome_bind_ok (a := none)
    (t := { run.extracted with world := run.world }) ?_).trans ?_
  · unfold callWorld
    rw [Program.outcome_step, run.gathered]
  refine (Program.outcome_bind_ok (a := ()) rfl).trans ?_
  refine (Program.outcome_bind_ok run.summed).trans ?_
  dsimp only
  have hfailed : (mergeChunkRows ((plan.chunks.zip run.results).map fun p =>
      chunkOutcome p.1 p.2)).2 = run.failed := rfl
  rw [hfailed, Program.outcome_bind, Program.outcome_bind]
  rcases (service.reportFailed plan run.failed requestId).outcome run.summarized with ⟨e | _, s'⟩
  · rfl
  · refine (Program.outcome_bind_ok (a := run.validated) (t := s') ?_).trans ?_
    · rw [Program.outcome_ofExcept]
      exact Prod.ext run.passed rfl
    · refine (Program.outcome_bind_ok (a := run.validated) (t := s') ?_).trans ?_
      · rw [Program.outcome_ofExcept, hobject]
      · rw [ChunkedRun.data, ← run.validated_eq]
        rfl

/-- Where partial results are refused a failed chunk ends the run. -/
theorem ChunkedRun.outcome_refused (metadata : ParseMetadata) (hfailed : run.failed ≠ [])
    (hrefuses : service.settings.chunkAllowPartial = false) :
    ((service.runChunkedParse request plan resolved metadata consumerId requestId).outcome s).1 =
      .error (.schema (failedChunksError plan.chunks run.failed)) := by
  have hthrow := @outcome_reportFailed_refused _ service plan requestId _ hfailed hrefuses
    run.summarized
  rw [run.outcome_eq, Program.outcome_bind]
  rcases hr : (service.reportFailed plan run.failed requestId).outcome run.summarized with ⟨e | _, s'⟩
  · rw [hr] at hthrow
    cases hthrow
    rfl
  · rw [hr] at hthrow
    cases hthrow

/-- Otherwise it returns, unless a check raises. -/
theorem ChunkedRun.outcome_accepted (metadata : ParseMetadata)
    (h : service.settings.chunkAllowPartial = true ∨ run.failed = []) :
    ((service.runChunkedParse request plan resolved metadata consumerId requestId).outcome s).1 =
      (evaluatePostChecks service.client.lib run.data request.checks).map fun outcomes =>
        { data := run.data
          metadata :=
            { metadata with
              usage := some (aggregateUsage service.client.lib
                (run.results.filterMap chunkResult ++ (run.summary.map (·.2)).toList)
                (chunkModels service.settings resolved).1)
              checks := outcomes.map (·.result)
              chunking := some
                { chunked := true, totalRows := plan.totalRows, chunkCount := plan.chunks.length
                  failedChunks := run.failed, partialResult := !run.failed.isEmpty
                  model := (chunkModels service.settings resolved).1 } } } := by
  have hreturn := @outcome_reportFailed_accepted _ service plan requestId _ h run.summarized
  rw [run.outcome_eq, Program.outcome_bind]
  rcases hr : (service.reportFailed plan run.failed requestId).outcome run.summarized with ⟨e | _, s'⟩
  · rw [hr] at hreturn
    cases hreturn
  · dsimp only
    rw [Program.outcome_bind, outcome_runPostChecks]
    cases evaluatePostChecks service.client.lib run.data request.checks with
    | error e => rfl
    | ok outcomes => rfl

end Ends

/-- A service with every default, over an upstream with one answer for the first call
and one for all later calls. -/
def tableService (parse : String → Option Json) : DocumentParsingService Nat where
  settings := .plain
  client :=
    { settings := .plain, upstream := twoAnswers
      lib := { plainLibraries parse with floatOfInt := doubleOfInt } }
  intake := pdfIntake
  extract _ _ w := (.ok (.text "report"), w)
  acquire w := (none, w)
  gather w := (none, w)

/-- A request to check that the number of the first row is itself. -/
def checkedParse : ParseMultipartRequest where
  upload := twoReads (.chunk [] none)
  schema := ⟨ledgerSchema, by decide⟩
  checks := [.obj [("op", .str "sum_equals"), ("addends", .arr [.str "/rows/0/a"]),
    ("total", .str "/rows/0/a")]]

def plainResolved : ResolvedModelConfig := resolveRequestOverrides .plain {}

def plainMetadata : ParseMetadata where
  documentType := .pdf
  extractionMode := none
  pageCount := none
  ocrPageCount := none
  converter := none

/-- What the chunks of the small table come to. -/
def tableExtracted (parse : String → Option Json) : Except PyError ChunkResults × Session Nat :=
  (extractChunks (tableService parse) checkedParse ledgerPlan plainResolved none none).outcome
    (announced (tableService parse) ledgerPlan none { world := 0 })

def tableResults (parse : String → Option Json) : ChunkResults :=
  (tableExtracted parse).1.toOption.getD []

/-- A run on the small table whose merged rows are known and pass. -/
def tableRun (parse : String → Option Json) (rows : List Json)
    (hok : (tableExtracted parse).1.isOk = true)
    (hrows : (mergeChunkRows (outcomesOf ledgerPlan (tableResults parse))).1 = rows)
    (hvalid : JsonSchema.Accepts JsonSchema.coreLibrary ledgerSchema
      (assembleResult ledgerPlan rows none)) :
    ChunkedRun (tableService parse) checkedParse ledgerPlan plainResolved none none
      { world := 0 } where
  results := tableResults parse
  extracted := (tableExtracted parse).2
  chunks := by
    refine Prod.ext ?_ rfl
    show (tableExtracted parse).1 = .ok ((tableExtracted parse).1.toOption.getD [])
    cases h : (tableExtracted parse).1 with
    | ok results => rfl
    | error e =>
      rw [h] at hok
      cases hok
  world := (tableExtracted parse).2.world
  gathered := rfl
  summary := none
  summarized := { (tableExtracted parse).2 with world := (tableExtracted parse).2.world }
  summed := by
    have hnone : ledgerPlan.summarySchema = none := by decide +kernel
    unfold DocumentParsingService.runSummary
    rw [hnone]
    rfl
  validated := assembleResult ledgerPlan rows none
  passed := by
    rw [hrows]
    exact JsonSchema.validateAgainstOriginal_eq_ok_iff.mpr ⟨rfl, hvalid, rfl⟩

/-! ### A chunk that fails -/

def countedRow : Json := .obj [("a", .int 7)]

/-- A model that finds a row in the first chunk and returns no JSON for the second. -/
def halfAnswers : String → Option Json
  | "first" => some (streamedChunk "rows" 1 1)
  | "second" => some (streamedChunk "nothing" 1 1)
  | "rows" => some (.obj [("rows", .arr [countedRow])])
  | _ => none

theorem mergedRows_half :
    (mergeChunkRows (outcomesOf ledgerPlan (tableResults halfAnswers))).1 = [countedRow] := by
  rw [mergeChunkRows_eq, sortByIndex_of_perm (List.Perm.refl _) (by decide +kernel)]
  decide +kernel

def halfRun : ChunkedRun (tableService halfAnswers) checkedParse ledgerPlan plainResolved none none
    { world := 0 } :=
  tableRun halfAnswers [countedRow] (by decide +kernel) mergedRows_half (by decide +kernel)

def hugeRow : Json := .obj [("a", .int (10 ^ 400))]

/-- A model that finds one row, the same in every chunk. -/
def hugeAnswers : String → Option Json
  | "first" | "second" => some (streamedChunk "rows" 1 1)
  | "rows" => some (.obj [("rows", .arr [hugeRow])])
  | _ => none

theorem mergedRows_huge :
    (mergeChunkRows (outcomesOf ledgerPlan (tableResults hugeAnswers))).1 = [hugeRow] := by
  rw [mergeChunkRows_eq, sortByIndex_of_perm (List.Perm.refl _) (by decide +kernel)]
  decide +kernel

def hugeRun : ChunkedRun (tableService hugeAnswers) checkedParse ledgerPlan plainResolved none none
    { world := 0 } :=
  tableRun hugeAnswers [hugeRow] (by decide +kernel) mergedRows_huge (by decide +kernel)

end InternumCore
