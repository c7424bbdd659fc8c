import InternumCore.Json
import InternumCore.DominantTable
import InternumCore.Blocks

/-!
# Planning the chunks of a tabular document

A document whose dominant table is long is extracted in chunks: `buildChunkPlan`
cuts the data lines of the table into ranges of `rows_per_chunk` lines, gives
each range the header and delimiter lines, and splits the caller's schema into a
schema for the rows of one chunk and a schema for everything else.

`ExactPartition` says what the ranges of a plan are.  The point beyond counting
is `redetected`: the Markdown of a chunk is scanned by the same table detector
as one table, with the original header and exactly the data lines of the range.
-/

namespace InternumCore
namespace Chunking

/-- `RowArrayLocation`. -/
structure RowArrayLocation where
  propertyName : String
  itemSchema : Json
  deriving DecidableEq

/-- `DocumentChunk`. -/
structure DocumentChunk where
  index : Nat
  startRow : Nat
  endRow : Nat
  markdown : String
  deriving DecidableEq

/-- `ChunkPlan`. -/
structure ChunkPlan where
  arrayLocation : RowArrayLocation
  chunkSchema : Json
  summarySchema : Option Json
  summaryMarkdown : String
  chunks : List DocumentChunk
  totalRows : Nat
  deriving DecidableEq

/-- `ChunkingConfig`.  Both numbers come from settings declared with `gt=0`. -/
structure ChunkingConfig where
  rowThreshold : Nat
  rowsPerChunk : Nat
  rowThreshold_pos : 0 < rowThreshold
  rowsPerChunk_pos : 0 < rowsPerChunk

/-- The loop body of `locate_row_array`: the location a property stands for, if
it is an array of objects. -/
def rowArrayAt (name : String) (subschema : Json) : Option RowArrayLocation :=
  match subschema with
  | .obj fields =>
    if fields.lookup "type" ≠ some (.str "array") then none
    else
      match fields.lookup "items" with
      | some (.obj items) =>
        if items.lookup "type" = some (.str "object") ∨ (items.lookup "properties").isSome then
          some ⟨name, .obj items⟩
        else none
      | _ => none
  | _ => none

/-- `locate_row_array`. -/
def locateRowArray (schema : Json) : Option RowArrayLocation :=
  match schema.get? "properties" with
  | some (.obj properties) =>
    match properties.filterMap (fun p => rowArrayAt p.1 p.2) with
    | [location] => some location
    | _ => none
  | _ => none

/-- The chunk of the data lines from `start` on. -/
def chunkAt (block : TableBlock) (config : ChunkingConfig) (index start : Nat) : DocumentChunk :=
  let group := Blocks.block block.dataLines config.rowsPerChunk start
  { index := index
    startRow := start
    endRow := start + group.length
    markdown := joinLines (block.headerLine :: block.delimiterLine :: group) }

/-- The loop over `enumerate(range(0, len(block.data_lines), config.rows_per_chunk))`. -/
def chunksOf (block : TableBlock) (config : ChunkingConfig) : List DocumentChunk :=
  (Blocks.starts block.dataLines.length config.rowsPerChunk).mapIdx (chunkAt block config)

/-- The schema of one chunk: an object that holds the row array and nothing else. -/
def chunkSchemaOf (location : RowArrayLocation) : Json :=
  .obj [
    ("type", .str "object"),
    ("properties", .obj [(location.propertyName, .obj [
      ("type", .str "array"),
      ("items", location.itemSchema)])]),
    ("required", .arr [.str location.propertyName]),
    ("additionalProperties", .bool false)]

/-- The declared properties besides the row array. -/
def otherProperties (schema : Json) (location : RowArrayLocation) : List (String × Json) :=
  match schema.get? "properties" with
  | some (.obj properties) => properties.filter (fun p => p.1 ≠ location.propertyName)
  | _ => []

/-- The schema of the summary pass, over the given properties. -/
def summarySchemaOf (others : List (String × Json)) : Json :=
  .obj [
    ("type", .str "object"),
    ("properties", .obj others),
    ("required", .arr ((Dict.keys others).map .str)),
    ("additionalProperties", .bool false)]

/-- The Markdown of the summary pass: what surrounds the table, and its first
rows. -/
def summaryMarkdownOf (lines : List String) (block : TableBlock) (config : ChunkingConfig) :
    String :=
  let preamble := strip (joinLines (lines.take block.startLine))
  let footer := strip (joinLines (lines.drop (block.endLine + 1)))
  let leadingDataLines := joinLines (block.dataLines.take config.rowsPerChunk)
  joinLines ([preamble, block.headerLine, block.delimiterLine, leadingDataLines, footer].filter
    (fun text => text != ""))

/-- `build_chunk_plan`. -/
def buildChunkPlan (markdown : String) (schema : Json) (config : ChunkingConfig) :
    Option ChunkPlan :=
  let totalRows := detectTableRowCount markdown
  if totalRows < config.rowThreshold then none
  else
    match locateRowArray schema with
    | none => none
    | some arrayLocation =>
      match findDominantTable markdown with
      | none => none
      | some block =>
        let others := otherProperties schema arrayLocation
        some
          { arrayLocation := arrayLocation
            chunkSchema := chunkSchemaOf arrayLocation
            summarySchema := if others.isEmpty then none else some (summarySchemaOf others)
            summaryMarkdown := summaryMarkdownOf (splitlines markdown) block config
            chunks := chunksOf block config
            totalRows := totalRows }

/-! ## What a plan is made of -/

/-- Everything a plan says, once its table and its row array are known. -/
theorem buildChunkPlan_eq_some {markdown : String} {schema : Json} {config : ChunkingConfig}
    {plan : ChunkPlan} (h : buildChunkPlan markdown schema config = some plan) :
    ∃ block, findDominantTable markdown = some block ∧
      config.rowThreshold ≤ block.dataLines.length ∧
      locateRowArray schema = some plan.arrayLocation ∧
      plan.chunkSchema = chunkSchemaOf plan.arrayLocation ∧
      plan.summarySchema = (if (otherProperties schema plan.arrayLocation).isEmpty then none
        else some (summarySchemaOf (otherProperties schema plan.arrayLocation))) ∧
      plan.chunks = chunksOf block config ∧ plan.totalRows = block.dataLines.length := by
  unfold buildChunkPlan at h
  dsimp only at h
  split at h
  · cases h
  · next hthr =>
    cases hloc : locateRowArray schema with
    | none => rw [hloc] at h; cases h
    | some location =>
      cases hb : findDominantTable markdown with
      | none => rw [hloc, hb] at h; cases h
      | some block =>
        rw [hloc, hb] at h
        cases h
        have hcount := detectTableRowCount_of_some hb
        rw [hcount] at hthr
        exact ⟨block, rfl, by omega, rfl, rfl, rfl, rfl, hcount⟩

/-- A plan exists exactly when the table is long enough and the row array is
unique. -/
theorem buildChunkPlan_isSome_iff {markdown : String} {schema : Json} {config : ChunkingConfig} :
    (buildChunkPlan markdown schema config).isSome ↔
      config.rowThreshold ≤ detectTableRowCount markdown ∧ (locateRowArray schema).isSome := by
  constructor
  · intro h
    obtain ⟨plan, hplan⟩ := Option.isSome_iff_exists.mp h
    obtain ⟨block, hb, hthr, hloc, _⟩ := buildChunkPlan_eq_some hplan
    rw [detectTableRowCount_of_some hb, hloc]
    exact ⟨hthr, rfl⟩
  · intro p
    obtain ⟨hthr, hloc⟩ := p
    obtain ⟨location, hloc⟩ := Option.isSome_iff_exists.mp hloc
    obtain ⟨block, hb⟩ := exists_table_of_pos (Nat.lt_of_lt_of_le config.rowThreshold_pos hthr)
    unfold buildChunkPlan
    simp [Nat.not_lt.mpr hthr, hloc, hb]

/-! ## The ranges -/

/-- The data lines a reader of the chunk's Markdown sees. -/
def DocumentChunk.dataLines (chunk : DocumentChunk) : List String :=
  (splitlines chunk.markdown).drop 2

/-- What `build_chunk_plan` does to the data lines of the table `block`. -/
structure ExactPartition (config : ChunkingConfig) (block : TableBlock) (plan : ChunkPlan) :
    Prop where
  total : plan.totalRows = block.dataLines.length
  indices : plan.chunks.map (·.index) = List.range plan.chunks.length
  first : plan.chunks.head?.map (·.startRow) = some 0
  consecutive : ∀ (i : Nat) (h : i + 1 < plan.chunks.length),
    (plan.chunks[i]).endRow = (plan.chunks[i + 1]).startRow
  last : plan.chunks.getLast?.map (·.endRow) = some plan.totalRows
  sizes : ∀ chunk ∈ plan.chunks, chunk.startRow < chunk.endRow ∧
    chunk.endRow - chunk.startRow ≤ config.rowsPerChunk
  full : ∀ (i : Nat) (h : i + 1 < plan.chunks.length),
    (plan.chunks[i]).endRow - (plan.chunks[i]).startRow = config.rowsPerChunk
  lines : ∀ chunk ∈ plan.chunks,
    chunk.dataLines = slice block.dataLines chunk.startRow chunk.endRow
  counts : ∀ chunk ∈ plan.chunks, chunk.dataLines.length = chunk.endRow - chunk.startRow
  covered : plan.chunks.flatMap (·.dataLines) = block.dataLines
  redetected : ∀ chunk ∈ plan.chunks,
    scanBlocks (splitlines chunk.markdown) 0 =
      [⟨0, chunk.endRow - chunk.startRow + 1, block.headerLine, block.delimiterLine,
        slice block.dataLines chunk.startRow chunk.endRow⟩]

section Ranges

variable {lines : List String} {block : TableBlock} {config : ChunkingConfig}

theorem getElem_chunksOf {i : Nat} (h : i < (chunksOf block config).length) :
    (chunksOf block config)[i] = chunkAt block config i (i * config.rowsPerChunk) := by
  simp [chunksOf]

theorem length_chunksOf : (chunksOf block config).length =
    (Blocks.starts block.dataLines.length config.rowsPerChunk).length := by
  simp [chunksOf]

theorem mem_header_delimiter_block {start : Nat} {line : String}
    (h : line ∈ block.headerLine :: block.delimiterLine ::
      Blocks.block block.dataLines config.rowsPerChunk start) :
    line ∈ block.headerLine :: block.delimiterLine :: block.dataLines := by
  simp only [List.mem_cons] at h ⊢
  rcases h with h | h | h
  · exact Or.inl h
  · exact Or.inr (Or.inl h)
  · exact Or.inr (Or.inr (List.mem_of_mem_drop (List.mem_of_mem_take h)))

/-- The lines of a chunk: the header, the delimiter and the block of data lines. -/
theorem splitlines_chunkAt (hlines : ∀ line ∈ lines, IsLine line) (ht : TableAt lines block)
    (index start : Nat) :
    splitlines (chunkAt block config index start).markdown =
      block.headerLine :: block.delimiterLine ::
        Blocks.block block.dataLines config.rowsPerChunk start := by
  refine splitlines_joinLines (fun line hline =>
    hlines line (ht.mem_lines line (mem_header_delimiter_block hline))) fun line hline => ?_
  exact ne_empty_of_isPipeLine
    (ht.pipes line (mem_header_delimiter_block (List.mem_of_getLast? hline)))

theorem dataLines_chunkAt (hlines : ∀ line ∈ lines, IsLine line) (ht : TableAt lines block)
    (index start : Nat) :
    (chunkAt block config index start).dataLines =
      Blocks.block block.dataLines config.rowsPerChunk start := by
  rw [DocumentChunk.dataLines, splitlines_chunkAt hlines ht]
  rfl

theorem slice_chunkAt (index start : Nat) :
    slice block.dataLines (chunkAt block config index start).startRow
        (chunkAt block config index start).endRow =
      Blocks.block block.dataLines config.rowsPerChunk start := by
  simp only [slice, chunkAt, Blocks.block]
  rw [Nat.add_sub_cancel_left, List.length_take, ← List.take_take, List.take_length]

/-- The `i`-th chunk of a table is the `i`-th block of its data lines. -/
theorem exists_of_mem_chunksOf {chunk : DocumentChunk} (h : chunk ∈ chunksOf block config) :
    ∃ i, i < (Blocks.starts block.dataLines.length config.rowsPerChunk).length ∧
      chunk = chunkAt block config i (i * config.rowsPerChunk) := by
  obtain ⟨i, hi, rfl⟩ := List.mem_iff_getElem.mp h
  exact ⟨i, by rwa [length_chunksOf] at hi, getElem_chunksOf hi⟩

theorem map_index_chunksOf :
    (chunksOf block config).map (·.index) = List.range (chunksOf block config).length := by
  refine List.ext_getElem (by simp) fun i h₁ h₂ => ?_
  rw [List.getElem_map, List.getElem_range, getElem_chunksOf (by simpa using h₁)]
  rfl

theorem first_startRow_chunksOf (hpos : 0 < block.dataLines.length) :
    (chunksOf block config).head?.map (·.startRow) = some 0 := by
  have hne : 0 < (chunksOf block config).length := by
    rw [length_chunksOf]
    exact List.length_pos_iff.mpr (Blocks.starts_ne_nil config.rowsPerChunk_pos hpos)
  rw [List.head?_eq_getElem?, List.getElem?_eq_getElem hne, getElem_chunksOf hne]
  simp [chunkAt]

theorem endRow_chunksOf {i : Nat} (h : i + 1 < (chunksOf block config).length) :
    ((chunksOf block config)[i]).endRow = ((chunksOf block config)[i + 1]).startRow := by
  rw [getElem_chunksOf (Nat.lt_of_succ_lt h), getElem_chunksOf h]
  exact Blocks.end_block_of_lt config.rowsPerChunk_pos (by rwa [length_chunksOf] at h)

theorem last_endRow_chunksOf (hpos : 0 < block.dataLines.length) :
    (chunksOf block config).getLast?.map (·.endRow) = some block.dataLines.length := by
  have hne : 0 < (chunksOf block config).length := by
    rw [length_chunksOf]
    exact List.length_pos_iff.mpr (Blocks.starts_ne_nil config.rowsPerChunk_pos hpos)
  have hlt : (chunksOf block config).length - 1 < (chunksOf block config).length := by omega
  have hlen : (chunksOf block config).length - 1 + 1 =
      (Blocks.starts block.dataLines.length config.rowsPerChunk).length := by
    rw [← length_chunksOf]
    omega
  rw [List.getLast?_eq_getElem?, List.getElem?_eq_getElem hlt, getElem_chunksOf hlt]
  exact congrArg some (Blocks.end_block_last config.rowsPerChunk_pos hlen)

/-- Every chunk has a row, and no more than `rows_per_chunk`. -/
theorem size_of_mem_chunksOf {chunk : DocumentChunk} (h : chunk ∈ chunksOf block config) :
    chunk.startRow < chunk.endRow ∧ chunk.endRow - chunk.startRow ≤ config.rowsPerChunk := by
  obtain ⟨i, hi, rfl⟩ := exists_of_mem_chunksOf h
  obtain ⟨hpos, hle, -⟩ := Blocks.length_block_of_lt config.rowsPerChunk_pos hi
  simp only [chunkAt]
  omega

theorem size_getElem_chunksOf {i : Nat} (h : i + 1 < (chunksOf block config).length) :
    ((chunksOf block config)[i]).endRow - ((chunksOf block config)[i]).startRow =
      config.rowsPerChunk := by
  rw [getElem_chunksOf (Nat.lt_of_succ_lt h)]
  rw [length_chunksOf] at h
  have hfull := (Blocks.length_block_of_lt config.rowsPerChunk_pos (Nat.lt_of_succ_lt h)).2.2 h
  simp only [chunkAt]
  omega

theorem flatMap_dataLines_chunksOf (hlines : ∀ line ∈ lines, IsLine line)
    (ht : TableAt lines block) :
    (chunksOf block config).flatMap (·.dataLines) = block.dataLines := by
  have hflat : (chunksOf block config).flatMap (·.dataLines) =
      (Blocks.starts block.dataLines.length config.rowsPerChunk).flatMap
        (Blocks.block block.dataLines config.rowsPerChunk) := by
    rw [List.flatMap_def, List.flatMap_def]
    refine congrArg List.flatten (List.ext_getElem (by simp [chunksOf]) fun i h₁ h₂ => ?_)
    simp only [List.getElem_map, Blocks.getElem_starts]
    rw [getElem_chunksOf (by simpa using h₁), dataLines_chunkAt hlines ht]
  rw [hflat, Blocks.flatMap_block config.rowsPerChunk_pos]

/-- Scanning a chunk finds one table: the header, the delimiter and its rows. -/
theorem scanBlocks_chunkAt (hlines : ∀ line ∈ lines, IsLine line) (ht : TableAt lines block)
    (index start : Nat) :
    scanBlocks (splitlines (chunkAt block config index start).markdown) 0 =
      [⟨0, (Blocks.block block.dataLines config.rowsPerChunk start).length + 1, block.headerLine,
        block.delimiterLine, Blocks.block block.dataLines config.rowsPerChunk start⟩] := by
  rw [splitlines_chunkAt hlines ht, scanBlocks_of_table _ ht.delimiter]
  intro line hline
  exact ht.pipes line (mem_header_delimiter_block hline)

/-- **The chunks of a table partition its data lines.** -/
theorem exactPartition_of_table {plan : ChunkPlan} (hlines : ∀ line ∈ lines, IsLine line)
    (ht : TableAt lines block) (hpos : 0 < block.dataLines.length)
    (hchunks : plan.chunks = chunksOf block config)
    (htotal : plan.totalRows = block.dataLines.length) :
    ExactPartition config block plan where
  total := htotal
  indices := by simpa only [hchunks] using map_index_chunksOf
  first := by simpa only [hchunks] using first_startRow_chunksOf hpos
  consecutive i h := by
    simp only [hchunks] at h ⊢
    exact endRow_chunksOf h
  last := by simpa only [hchunks, htotal] using last_endRow_chunksOf hpos
  sizes chunk hc := size_of_mem_chunksOf (hchunks ▸ hc)
  full i h := by
    simp only [hchunks] at h ⊢
    exact size_getElem_chunksOf h
  lines chunk hc := by
    obtain ⟨i, hi, rfl⟩ := exists_of_mem_chunksOf (hchunks ▸ hc)
    rw [dataLines_chunkAt hlines ht, slice_chunkAt]
  counts chunk hc := by
    obtain ⟨i, hi, rfl⟩ := exists_of_mem_chunksOf (hchunks ▸ hc)
    rw [dataLines_chunkAt hlines ht]
    simp [chunkAt]
  covered := by simpa only [hchunks] using flatMap_dataLines_chunksOf hlines ht
  redetected chunk hc := by
    obtain ⟨i, hi, rfl⟩ := exists_of_mem_chunksOf (hchunks ▸ hc)
    rw [scanBlocks_chunkAt hlines ht, slice_chunkAt]
    simp [chunkAt]

end Ranges

/-- The chunks of a plan partition the dominant table of the document. -/
theorem exactPartition_of_plan {markdown : String} {schema : Json} {config : ChunkingConfig}
    {plan : ChunkPlan} (hplan : buildChunkPlan markdown schema config = some plan) :
    ∃ block, findDominantTable markdown = some block ∧ ExactPartition config block plan := by
  obtain ⟨block, hb, hthr, _, _, _, hchunks, htotal⟩ := buildChunkPlan_eq_some hplan
  exact ⟨block, hb, exactPartition_of_table (fun line => isLine_of_mem_splitlines)
    (tableAt_of_findDominantTable hb) (Nat.lt_of_lt_of_le config.rowThreshold_pos hthr)
    hchunks htotal⟩

/-- **The plan is an exact partition of the table that can be read back.** -/
theorem chunk_plan_exact_partition (markdown : String) (schema : Json) (config : ChunkingConfig) :
    ((buildChunkPlan markdown schema config).isSome ↔
      config.rowThreshold ≤ detectTableRowCount markdown ∧ (locateRowArray schema).isSome) ∧
    ∀ plan, buildChunkPlan markdown schema config = some plan →
      ∃ block, findDominantTable markdown = some block ∧ ExactPartition config block plan :=
  ⟨buildChunkPlan_isSome_iff, fun _ hplan => exactPartition_of_plan hplan⟩

end Chunking
end InternumCore
