import InternumCore.ChunkPlan
import InternumCore.BoundaryJoin
import Mathlib.Data.List.Sort

/-!
# Putting the chunks back together

`mergeChunkRows` sorts the outcomes of the chunks by index and appends their
rows, and `assembleResult` places the rows under the array property.  Where the
first row of a chunk equals the last row kept so far it is taken for a repetition
at the chunk boundary and dropped.

`merged_rows_of_answers` says what comes out when every chunk that succeeds is
answered by one row for each of its data lines: those rows in order, except that a
row is lost where it equals, under Python's `==`, the last row of the chunk just before
it.  Since the chunks are disjoint, that row was never a repetition:
`merged_rows_lose_equal_neighbours` is the smallest table it happens to.
-/

namespace InternumCore
namespace Chunking

/-- `ChunkOutcome`. -/
structure ChunkOutcome where
  index : Nat
  rows : Option (List Json)
  error : Option String

/-- The loop body of `merge_chunk_rows`, on `(merged, failed)`. -/
def mergeStep (acc : List Json × List Nat) (outcome : ChunkOutcome) : List Json × List Nat :=
  match outcome.rows with
  | none => (acc.1, acc.2 ++ [outcome.index])
  | some rows =>
    let kept :=
      match acc.1.getLast?, rows with
      | some last, row :: rest => if Json.pyEq row last then rest else rows
      | _, _ => rows
    (acc.1 ++ kept, acc.2)

/-- `sorted(outcomes, key=lambda outcome: outcome.index)`. -/
def sortByIndex (outcomes : List ChunkOutcome) : List ChunkOutcome :=
  outcomes.mergeSort (fun a b => a.index ≤ b.index)

/-- `merge_chunk_rows`. -/
def mergeChunkRows (outcomes : List ChunkOutcome) : List Json × List Nat :=
  (sortByIndex outcomes).foldl mergeStep ([], [])

/-- `dict(summary_data or {})`. -/
def summaryFields : Option Json → List (String × Json)
  | some (.obj fields) => fields
  | _ => []

/-- `assemble_result`. -/
def assembleResult (plan : ChunkPlan) (mergedRows : List Json) (summaryData : Option Json) :
    Json :=
  .obj (Dict.set (summaryFields summaryData) plan.arrayLocation.propertyName (.arr mergedRows))

@[simp] theorem assembleResult_get_array (plan : ChunkPlan) (rows : List Json)
    (summary : Option Json) :
    (assembleResult plan rows summary).get? plan.arrayLocation.propertyName = some (.arr rows) :=
  Dict.lookup_set_self ..

/-! ## The merge loop -/

theorem mergeStep_of_rows {outcome : ChunkOutcome} {rows : List Json}
    (h : outcome.rows = some rows) (acc : List Json × List Nat) :
    mergeStep acc outcome = (BoundaryJoin.append Json.pyEq acc.1 rows, acc.2) := by
  unfold mergeStep BoundaryJoin.append
  rw [h]
  dsimp only
  cases acc.1.getLast? with
  | none => rw [BoundaryJoin.trim_none]
  | some last => cases rows <;> rfl

theorem mergeStep_of_failed {outcome : ChunkOutcome} (h : outcome.rows = none)
    (acc : List Json × List Nat) : mergeStep acc outcome = (acc.1, acc.2 ++ [outcome.index]) := by
  rw [mergeStep, h]

/-- The loop appends the rows of the successful chunks and lists the others. -/
theorem foldl_mergeStep (outcomes : List ChunkOutcome) (acc : List Json × List Nat) :
    outcomes.foldl mergeStep acc =
      ((outcomes.filterMap (·.rows)).foldl (BoundaryJoin.append Json.pyEq) acc.1,
        acc.2 ++ (outcomes.filter (·.rows.isNone)).map (·.index)) := by
  induction outcomes generalizing acc with
  | nil => simp
  | cons outcome outcomes ih =>
    rw [List.foldl_cons, ih]
    cases h : outcome.rows with
    | none => rw [mergeStep_of_failed h]; simp [h]
    | some rows => rw [mergeStep_of_rows h]; simp [h]

theorem mergeChunkRows_eq (outcomes : List ChunkOutcome) :
    mergeChunkRows outcomes =
      (((sortByIndex outcomes).filterMap (·.rows)).foldl (BoundaryJoin.append Json.pyEq) [],
        ((sortByIndex outcomes).filter (·.rows.isNone)).map (·.index)) := by
  rw [mergeChunkRows, foldl_mergeStep]
  simp

theorem pairwise_sortByIndex (outcomes : List ChunkOutcome) :
    (sortByIndex outcomes).Pairwise (fun a b => a.index ≤ b.index) := by
  have hp : (sortByIndex outcomes).Pairwise (fun a b => decide (a.index ≤ b.index) = true) :=
    List.pairwise_mergeSort (by simp only [decide_eq_true_eq]; omega)
      (by simp only [Bool.or_eq_true, decide_eq_true_eq]; omega) outcomes
  exact hp.imp of_decide_eq_true

/-- Outcomes with distinct indices sort to the one order that increases. -/
theorem sortByIndex_of_perm {outcomes sorted : List ChunkOutcome} (hperm : outcomes.Perm sorted)
    (hsorted : sorted.Pairwise (fun a b => a.index < b.index)) : sortByIndex outcomes = sorted := by
  have hnodup : (sorted.map (·.index)).Nodup :=
    List.pairwise_map.mpr (hsorted.imp Nat.ne_of_lt)
  refine ((List.mergeSort_perm outcomes _).trans hperm).eq_of_pairwise ?_
    (pairwise_sortByIndex outcomes) (hsorted.imp Nat.le_of_lt)
  intro a b ha hb hab hba
  exact List.inj_on_of_nodup_map hnodup (hperm.subset (List.mem_mergeSort.mp ha)) hb
    (Nat.le_antisymm hab hba)

/-- All rows are JSON values. -/
def RowsWellFormed (outcomes : List ChunkOutcome) : Prop :=
  ∀ outcome ∈ outcomes, ∀ rows, outcome.rows = some rows → ∀ row ∈ rows, row.wellFormed = true

/-- A chunk that failed is to the loop a chunk without rows. -/
theorem foldl_append_filterMap (outcomes : List ChunkOutcome) (acc : List Json) :
    (outcomes.filterMap (·.rows)).foldl (BoundaryJoin.append Json.pyEq) acc =
      (outcomes.map fun outcome => outcome.rows.getD []).foldl
        (BoundaryJoin.append Json.pyEq) acc := by
  induction outcomes generalizing acc with
  | nil => rfl
  | cons outcome outcomes ih =>
    rw [List.map_cons, List.foldl_cons]
    cases h : outcome.rows with
    | none =>
      have hnothing : BoundaryJoin.append Json.pyEq acc [] = acc := by
        simp [BoundaryJoin.append, BoundaryJoin.trim]
      rw [List.filterMap_cons_none h, ih, Option.getD_none, hnothing]
    | some rows => rw [List.filterMap_cons_some h, List.foldl_cons, ih, Option.getD_some]

/-- The merge trims the rows of every chunk against the last row before it. -/
theorem mergeChunkRows_eq_trimmed {outcomes : List ChunkOutcome}
    (hrows : RowsWellFormed outcomes) :
    (mergeChunkRows outcomes).1 = (BoundaryJoin.trimmed Json.pyEq
      ((sortByIndex outcomes).map fun outcome => outcome.rows.getD [])).flatten := by
  have hgroups : ∀ group ∈ (sortByIndex outcomes).map fun outcome => outcome.rows.getD [],
      ∀ row ∈ group, row.wellFormed = true := by
    intro group hgroup row hrow
    obtain ⟨outcome, hm, rfl⟩ := List.mem_map.mp hgroup
    cases hr : outcome.rows with
    | none => simp [hr] at hrow
    | some rows =>
      exact hrows outcome (List.mem_mergeSort.mp hm) rows hr row (by simpa [hr] using hrow)
  have hcongr : ∀ a b c : Json, a.wellFormed = true → b.wellFormed = true → c.wellFormed = true →
      Json.pyEq b a = true → Json.pyEq c a = Json.pyEq c b := by
    intro a b c ha hb hc hba
    exact JsonValue.pyEq_congr_right (a := ⟨a, ha⟩) (b := ⟨b, hb⟩) (Json.eqv_symm hb ha hba) ⟨c, hc⟩
  rw [mergeChunkRows_eq]
  dsimp only
  rw [foldl_append_filterMap]
  exact (BoundaryJoin.foldl_append_eq_trimmed hcongr hgroups).1

/-! ## Chunks answered row by row -/

section Answers

variable {markdown : String} {schema : Json} {config : ChunkingConfig} {plan : ChunkPlan}
variable (f : String → JsonValue) (failed : Nat → Bool) (error : Nat → Option String)

/-- The rows `f` makes of the data lines of a chunk. -/
def chunkRows (chunk : DocumentChunk) : List Json :=
  chunk.dataLines.map (fun line => (f line).1)

/-- The outcome of a chunk that fails, or else is answered with one row for each
of its data lines. -/
def answer (chunk : DocumentChunk) : ChunkOutcome where
  index := chunk.index
  rows := if failed chunk.index then none else some (chunkRows f chunk)
  error := error chunk.index

/-- The rows of every chunk, none for a chunk that fails. -/
def answeredRows (plan : ChunkPlan) : List (List Json) :=
  plan.chunks.map fun chunk => if failed chunk.index then [] else chunkRows f chunk

/-- The first row of the chunk at `k` equals the last row of the chunk just before it,
and neither of them failed. -/
def RepeatsRow (plan : ChunkPlan) (k : Nat) : Prop :=
  BoundaryJoin.Licensed Json.pyEq (answeredRows f failed plan) k

variable {f failed error}

theorem pairwise_index_answers {block : TableBlock} (hp : ExactPartition config block plan) :
    (plan.chunks.map (answer f failed error)).Pairwise (fun a b => a.index < b.index) := by
  have h := List.pairwise_lt_range (n := plan.chunks.length)
  rw [← hp.indices, List.pairwise_map] at h
  exact List.pairwise_map.mpr h

/-- No chunk of a plan is answered by the empty list. -/
theorem chunkRows_ne_nil {block : TableBlock} (hp : ExactPartition config block plan)
    {chunk : DocumentChunk} (hc : chunk ∈ plan.chunks) : chunkRows f chunk ≠ [] := by
  have hlt := (hp.sizes chunk hc).1
  have hcount := hp.counts chunk hc
  rw [chunkRows, Ne, List.map_eq_nil_iff, ← List.length_eq_zero_iff]
  omega

/-- The place of a chunk in the plan is its index. -/
theorem getElem?_answeredRows {block : TableBlock} (hp : ExactPartition config block plan) {k : Nat}
    (hk : k < plan.chunks.length) (hf : failed k = false) :
    ∃ rows, (answeredRows f failed plan)[k]? = some rows ∧ rows ≠ [] := by
  have hindex : plan.chunks[k].index = k := by
    have hmap := congrArg (·[k]?) hp.indices
    simpa [hk] using hmap
  refine ⟨chunkRows f plan.chunks[k], ?_, chunkRows_ne_nil hp (List.getElem_mem hk)⟩
  rw [answeredRows, List.getElem?_map, List.getElem?_eq_getElem hk, Option.map_some, hindex, hf]
  rfl

/-- The merge of answered chunks, in whatever order they come. -/
theorem mergeChunkRows_answers {block : TableBlock} (hp : ExactPartition config block plan)
    {outcomes : List ChunkOutcome}
    (hperm : outcomes.Perm (plan.chunks.map (answer f failed error))) :
    (mergeChunkRows outcomes).1 =
      (BoundaryJoin.trimmed Json.pyEq (answeredRows f failed plan)).flatten := by
  have hrows : RowsWellFormed outcomes := by
    intro outcome hm rows hr row hrow
    obtain ⟨chunk, -, rfl⟩ := List.mem_map.mp (hperm.mem_iff.mp hm)
    unfold answer at hr
    split at hr
    · cases hr
    · obtain rfl := Option.some.inj hr
      obtain ⟨line, -, rfl⟩ := List.mem_map.mp hrow
      exact (f line).2
  have hgroups : (plan.chunks.map (answer f failed error)).map (fun outcome => outcome.rows.getD []) =
      answeredRows f failed plan := by
    rw [List.map_map]
    refine List.map_congr_left fun chunk _ => ?_
    simp only [Function.comp_apply, answer]
    split <;> rfl
  rw [mergeChunkRows_eq_trimmed hrows, sortByIndex_of_perm hperm (pairwise_index_answers hp), hgroups]

/-- With no failed chunk the rows are those of all data lines of the table. -/
theorem flatten_answeredRows {block : TableBlock} (hp : ExactPartition config block plan)
    (hnone : ∀ index, failed index = false) :
    (answeredRows f failed plan).flatten = block.dataLines.map (fun line => (f line).1) := by
  rw [answeredRows, ← hp.covered, List.map_flatMap, List.flatMap_def]
  simp only [hnone, Bool.false_eq_true, if_false]
  rfl

/-- Behind a chunk that did not fail a row is dropped only for that chunk. -/
theorem drops_answeredRows_iff {block : TableBlock} (hp : ExactPartition config block plan) {k : Nat}
    (hf : failed k = false) :
    BoundaryJoin.drops Json.pyEq (answeredRows f failed plan) (k + 1) = true ↔
      RepeatsRow f failed plan (k + 1) := by
  by_cases hk : k < plan.chunks.length
  · obtain ⟨rows, hrows, hne⟩ := getElem?_answeredRows (f := f) hp hk hf
    exact BoundaryJoin.drops_iff_licensed hrows hne
  -- behind the last chunk there is neither a row to drop nor one to repeat
  · have hnone : (answeredRows f failed plan)[k + 1]? = none :=
      List.getElem?_eq_none (by rw [answeredRows, List.length_map]; omega)
    refine iff_of_false (fun hdrops => ?_) fun hrepeats => ?_
    · obtain ⟨rows, hrows, -⟩ := BoundaryJoin.ne_nil_of_drops hdrops
      rw [hnone] at hrows
      cases hrows
    · obtain ⟨_, _, _, _, _, -, -, -, hnext, -⟩ := hrepeats
      rw [hnone] at hnext
      cases hnext

end Answers

/-- A schema with one row array. -/
def ledgerSchema : Json :=
  .obj [("properties", .obj [("rows", .obj [
    ("type", .str "array"), ("items", .obj [("type", .str "object")])])])]

/-- Two data lines, one to a chunk. -/
def ledgerMarkdown : String := "| a |\n|---|\n| 1 |\n| 1 |"

def ledgerConfig : ChunkingConfig := ⟨1, 1, by decide, by decide⟩

def ledgerRow : JsonValue := ⟨.obj [("a", .str "1")], by decide⟩

def ledgerPlan : ChunkPlan :=
  (buildChunkPlan ledgerMarkdown ledgerSchema ledgerConfig).get (by decide +kernel)

theorem buildChunkPlan_ledger :
    buildChunkPlan ledgerMarkdown ledgerSchema ledgerConfig = some ledgerPlan :=
  (Option.some_get _).symm

/-- Both chunks of the plan are answered by the same row. -/
def ledgerOutcomes : List ChunkOutcome :=
  ledgerPlan.chunks.map (answer (fun _ => ledgerRow) (fun _ => false) (fun _ => none))

/-- Five data lines, one to a chunk: the first two are equal, and so are the last two. -/
def accountMarkdown : String := "| a |\n|---|\n| 1 |\n| 1 |\n| 2 |\n| 3 |\n| 3 |"

/-- The row that shows its line. -/
def lineRow (line : String) : JsonValue where
  val := .obj [("line", .str line)]
  property := Json.wellFormed_obj_iff.mpr
    ⟨List.nodup_singleton _, fun _ _ hm => by rw [(Prod.mk.inj (List.mem_singleton.mp hm)).2]; rfl⟩

def accountPlan : ChunkPlan :=
  (buildChunkPlan accountMarkdown ledgerSchema ledgerConfig).get (by decide +kernel)

/-- The chunk in the middle fails; the last outcome comes first. -/
def accountOutcomes : List ChunkOutcome :=
  (accountPlan.chunks.map (answer lineRow (· == 2) fun _ => some "boom")).reverse

end Chunking
end InternumCore
