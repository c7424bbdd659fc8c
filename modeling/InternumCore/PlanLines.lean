import InternumCore.ChunkMerge

/-!
# No line of a chunked document is dropped

A document that is extracted in chunks is read in two parts: the chunks hold the
data lines of its dominant table, the summary Markdown holds what surrounds the
table and its first rows.  `plan_keeps_every_line` says that between them
nothing is lost.  The lines of the summary are the lines around the table, up to
blank lines and the space at the ends of a line, with the head of the table in
between; and each data line stands in exactly one chunk, at its own row.

The sections of the summary are stripped texts joined from lines.  Stripping
such a text trims its lines (`strip_joinLines`) and drops none that is not blank
(`nonBlankLines_trimmedLines`), so the summary is joined from lines again and
splitting it gives these lines back.
-/

namespace InternumCore

/-- The lines that are not blank, in order and without the space around them. -/
def nonBlankLines (lines : List String) : List String :=
  (lines.map strip).filter fun line => line != ""

/-- The lines of the stripped text that `lines` join to. -/
def trimmedLines (lines : List String) : List String :=
  (LineSplit.trimLines isSpace (lines.map String.toList)).map String.ofList

theorem map_toList_trimmedLines (lines : List String) :
    (trimmedLines lines).map String.toList =
      LineSplit.trimLines isSpace (lines.map String.toList) := by
  simp [trimmedLines, Function.comp_def]

theorem toList_joinLines (lines : List String) :
    (joinLines lines).toList = LineSplit.join '\n' (lines.map String.toList) :=
  String.toList_ofList

theorem toList_strip (text : String) :
    (strip text).toList = LineSplit.trim isSpace text.toList :=
  String.toList_ofList

theorem bne_empty (text : String) : (text != "") = !text.toList.isEmpty := by
  rw [Bool.eq_iff_iff]
  simp

/-- **Stripping a text trims its lines.** -/
theorem strip_joinLines (lines : List String) :
    strip (joinLines lines) = joinLines (trimmedLines lines) := by
  rw [← String.toList_inj, toList_strip, toList_joinLines, toList_joinLines,
    map_toList_trimmedLines]
  exact LineSplit.trim_join (by decide) _

theorem map_toList_nonBlankLines (lines : List String) :
    (nonBlankLines lines).map String.toList =
      LineSplit.content isSpace (lines.map String.toList) := by
  rw [nonBlankLines, LineSplit.content, List.filter_map, List.filter_map, List.filter_map,
    List.map_map, List.map_map]
  simp only [Function.comp_def, bne_empty, toList_strip]

/-- **Stripping drops no line that is not blank.** -/
theorem nonBlankLines_trimmedLines (lines : List String) :
    nonBlankLines (trimmedLines lines) = nonBlankLines lines := by
  refine List.map_injective_iff.mpr (fun _ _ he => String.toList_inj.mp he) ?_
  rw [map_toList_nonBlankLines, map_toList_nonBlankLines, map_toList_trimmedLines,
    LineSplit.content_trimLines]

theorem isLine_of_mem_trimmedLines {lines : List String} (h : ∀ line ∈ lines, IsLine line) :
    ∀ line ∈ trimmedLines lines, IsLine line := by
  intro line hline
  obtain ⟨chars, hchars, rfl⟩ := List.mem_map.mp hline
  obtain ⟨whole, hwhole, hsub⟩ := LineSplit.subset_of_mem_trimLines hchars
  obtain ⟨source, hsource, rfl⟩ := List.mem_map.mp hwhole
  unfold IsLine
  rw [String.toList_ofList]
  exact fun c hc => h source hsource c (hsub hc)

theorem getLast_trimmedLines_ne_empty (lines : List String) :
    ∀ line ∈ (trimmedLines lines).getLast?, line ≠ "" := by
  rintro line hline rfl
  rw [trimmedLines, List.getLast?_map] at hline
  obtain ⟨chars, hchars, he⟩ := Option.map_eq_some_iff.mp hline
  exact LineSplit.getLast_trimBack_ne_nil _ chars hchars (by simpa using he)

/-- Joining the sections that are not empty joins all their lines. -/
theorem joinLines_sections {sections : List (List String)}
    (h : ∀ lines ∈ sections, ∀ line ∈ lines.getLast?, line ≠ "") :
    joinLines ((sections.map joinLines).filter fun text => text != "") =
      joinLines sections.flatten := by
  have hsections : ∀ lines ∈ sections.map (List.map String.toList),
      ∀ line ∈ lines.getLast?, line ≠ [] := by
    intro lines hlines line hline
    obtain ⟨source, hsource, rfl⟩ := List.mem_map.mp hlines
    rw [List.getLast?_map] at hline
    obtain ⟨text, htext, rfl⟩ := Option.map_eq_some_iff.mp hline
    exact fun he => h source hsource text htext (String.toList_eq_nil_iff.mp he)
  rw [← String.toList_inj, toList_joinLines, toList_joinLines, List.map_flatten,
    ← LineSplit.join_filter_join hsections, List.filter_map, List.map_map, List.map_map,
    List.filter_map]
  simp only [Function.comp_def, bne_empty, toList_joinLines]

theorem joinLines_singleton (line : String) : joinLines [line] = line := by
  rw [← String.toList_inj, toList_joinLines]
  rfl

/-- The last line of some sections is the last line of one of them. -/
theorem getLast_flatten_ne_empty {sections : List (List String)}
    (h : ∀ lines ∈ sections, ∀ line ∈ lines.getLast?, line ≠ "") :
    ∀ line ∈ sections.flatten.getLast?, line ≠ "" := by
  intro line hline
  rw [List.getLast?_flatten] at hline
  obtain ⟨lines, hlines, hlast⟩ := List.exists_of_findSome?_eq_some hline
  exact h lines (List.mem_reverse.mp hlines) line hlast

namespace Chunking

/-- Row `r` of the table is in the range of the chunk. -/
def DocumentChunk.Holds (chunk : DocumentChunk) (r : Nat) : Prop :=
  chunk.startRow ≤ r ∧ r < chunk.endRow

/-- What a plan keeps of a document whose dominant table is `block`. -/
structure KeepsEveryLine (markdown : String) (config : ChunkingConfig) (block : TableBlock)
    (plan : ChunkPlan) : Prop where
  document : splitlines markdown =
    (splitlines markdown).take block.startLine ++
      (block.headerLine :: block.delimiterLine :: block.dataLines) ++
      (splitlines markdown).drop (block.endLine + 1)
  total : plan.totalRows = block.dataLines.length
  summary : ∃ before after,
    splitlines plan.summaryMarkdown =
      before ++ (block.headerLine :: block.delimiterLine ::
        block.dataLines.take (min config.rowsPerChunk plan.totalRows)) ++ after ∧
    nonBlankLines before = nonBlankLines ((splitlines markdown).take block.startLine) ∧
    nonBlankLines after = nonBlankLines ((splitlines markdown).drop (block.endLine + 1))
  chunkLines : ∀ chunk ∈ plan.chunks,
    splitlines chunk.markdown =
      block.headerLine :: block.delimiterLine ::
        slice block.dataLines chunk.startRow chunk.endRow
  rows : ∀ (r : Nat) (hr : r < block.dataLines.length),
    ∃ i, ∃ hi : i < plan.chunks.length,
      (plan.chunks[i]).Holds r ∧
      (splitlines (plan.chunks[i]).markdown)[2 + (r - (plan.chunks[i]).startRow)]? =
        some block.dataLines[r] ∧
      ∀ (j : Nat) (hj : j < plan.chunks.length), (plan.chunks[j]).Holds r → j = i

section Lines

variable {lines : List String} {block : TableBlock} {config : ChunkingConfig}

/-- The sections of the summary, as lists of lines. -/
def summarySections (lines : List String) (block : TableBlock) (config : ChunkingConfig) :
    List (List String) :=
  [trimmedLines (lines.take block.startLine), [block.headerLine], [block.delimiterLine],
    block.dataLines.take config.rowsPerChunk, trimmedLines (lines.drop (block.endLine + 1))]

theorem mem_table_of_mem_take {k : Nat} {line : String} (h : line ∈ block.dataLines.take k) :
    line ∈ block.headerLine :: block.delimiterLine :: block.dataLines :=
  List.mem_cons_of_mem _ (List.mem_cons_of_mem _ (List.mem_of_mem_take h))

/-- What holds of each section holds of all of them. -/
theorem forall_mem_summarySections {P : List String → Prop}
    (hbefore : P (trimmedLines (lines.take block.startLine)))
    (hheader : P [block.headerLine]) (hdelimiter : P [block.delimiterLine])
    (hleading : P (block.dataLines.take config.rowsPerChunk))
    (hafter : P (trimmedLines (lines.drop (block.endLine + 1)))) :
    ∀ part ∈ summarySections lines block config, P part := by
  simp only [summarySections, List.forall_mem_cons]
  exact ⟨hbefore, hheader, hdelimiter, hleading, hafter, List.forall_mem_nil _⟩

theorem getLast_summarySections_ne_empty (ht : TableAt lines block) :
    ∀ part ∈ summarySections lines block config, ∀ line ∈ part.getLast?, line ≠ "" := by
  have hpipe : ∀ line ∈ block.headerLine :: block.delimiterLine :: block.dataLines, line ≠ "" :=
    fun line hline => ne_empty_of_isPipeLine (ht.pipes line hline)
  refine forall_mem_summarySections (getLast_trimmedLines_ne_empty _) ?_ ?_ ?_
    (getLast_trimmedLines_ne_empty _)
  · intro line hline
    cases hline
    exact hpipe _ List.mem_cons_self
  · intro line hline
    cases hline
    exact hpipe _ (List.mem_cons_of_mem _ List.mem_cons_self)
  · intro line hline
    exact hpipe line (mem_table_of_mem_take (List.mem_of_getLast? hline))

theorem isLine_of_mem_summarySections (hlines : ∀ line ∈ lines, IsLine line)
    (ht : TableAt lines block) :
    ∀ part ∈ summarySections lines block config, ∀ line ∈ part, IsLine line := by
  have htable : ∀ line ∈ block.headerLine :: block.delimiterLine :: block.dataLines,
      IsLine line := fun line hline => hlines line (ht.mem_lines line hline)
  refine forall_mem_summarySections ?_ ?_ ?_ ?_ ?_
  · exact isLine_of_mem_trimmedLines fun line hline => hlines line (List.mem_of_mem_take hline)
  · intro line hline
    rw [List.mem_singleton.mp hline]
    exact htable _ List.mem_cons_self
  · intro line hline
    rw [List.mem_singleton.mp hline]
    exact htable _ (List.mem_cons_of_mem _ List.mem_cons_self)
  · exact fun line hline => htable line (mem_table_of_mem_take hline)
  · exact isLine_of_mem_trimmedLines fun line hline => hlines line (List.mem_of_mem_drop hline)

theorem summaryMarkdownOf_eq (ht : TableAt lines block) :
    summaryMarkdownOf lines block config =
      joinLines (summarySections lines block config).flatten := by
  rw [← joinLines_sections (getLast_summarySections_ne_empty ht), summarySections]
  simp only [List.map_cons, List.map_nil, joinLines_singleton, ← strip_joinLines]
  rfl

/-- The lines of the summary: those around the table, trimmed, and the head of
the table between them. -/
theorem splitlines_summaryMarkdownOf (hlines : ∀ line ∈ lines, IsLine line)
    (ht : TableAt lines block) :
    splitlines (summaryMarkdownOf lines block config) =
      trimmedLines (lines.take block.startLine) ++
        (block.headerLine :: block.delimiterLine :: block.dataLines.take config.rowsPerChunk) ++
        trimmedLines (lines.drop (block.endLine + 1)) := by
  have hflat : ∀ line ∈ (summarySections lines block config).flatten, IsLine line := by
    intro line hline
    obtain ⟨part, hpart, hmem⟩ := List.mem_flatten.mp hline
    exact isLine_of_mem_summarySections hlines ht part hpart line hmem
  rw [summaryMarkdownOf_eq ht, splitlines_joinLines hflat
    (getLast_flatten_ne_empty (getLast_summarySections_ne_empty ht))]
  simp [summarySections]

/-- A table stands between the lines before it and the lines after it. -/
theorem TableAt.document (ht : TableAt lines block) :
    lines = lines.take block.startLine ++
      (block.headerLine :: block.delimiterLine :: block.dataLines) ++
      lines.drop (block.endLine + 1) := by
  have hrun := congrArg List.length ht.run
  simp only [slice, List.length_take, List.length_drop, List.length_cons] at hrun
  have hlen : block.startLine + (block.endLine + 1 - block.startLine) = block.endLine + 1 := by
    omega
  rw [← ht.run, slice, ← List.take_add, hlen, List.take_append_drop]

/-- The data line of row `r` stands in the chunk whose range holds `r`. -/
theorem getElem_splitlines_chunkAt (hlines : ∀ line ∈ lines, IsLine line)
    (ht : TableAt lines block) {i start r : Nat} (hr : r < block.dataLines.length)
    (hge : start ≤ r) (hlt : r < start + config.rowsPerChunk) :
    (splitlines (chunkAt block config i start).markdown)[2 + (r - start)]? =
      some block.dataLines[r] := by
  have hrow : start + (r - start) = r := by omega
  rw [splitlines_chunkAt hlines ht, Nat.add_comm 2, List.getElem?_cons_succ,
    List.getElem?_cons_succ, Blocks.block, List.getElem?_take_of_lt (by omega),
    List.getElem?_drop, hrow, List.getElem?_eq_getElem hr]

/-- Row `r` is in the range of the `i`-th chunk only if `i` is `r / rows_per_chunk`. -/
theorem chunkAt_holds_iff {i r : Nat} (hr : r < block.dataLines.length) :
    (chunkAt block config i (i * config.rowsPerChunk)).Holds r ↔ i = r / config.rowsPerChunk := by
  have hk := config.rowsPerChunk_pos
  simp only [DocumentChunk.Holds, chunkAt, Blocks.length_block]
  rw [eq_comm, Nat.div_eq_iff hk]
  omega

/-- Every data line stands in exactly one chunk, at its own row. -/
theorem exists_unique_chunk (hlines : ∀ line ∈ lines, IsLine line) (ht : TableAt lines block)
    {r : Nat} (hr : r < block.dataLines.length) :
    ∃ i, ∃ hi : i < (chunksOf block config).length,
      ((chunksOf block config)[i]).Holds r ∧
      (splitlines ((chunksOf block config)[i]).markdown)[2 +
        (r - ((chunksOf block config)[i]).startRow)]? = some block.dataLines[r] ∧
      ∀ (j : Nat) (hj : j < (chunksOf block config).length),
        ((chunksOf block config)[j]).Holds r → j = i := by
  have hk := config.rowsPerChunk_pos
  have hle : r / config.rowsPerChunk * config.rowsPerChunk ≤ r := Nat.div_mul_le_self _ _
  have hi : r / config.rowsPerChunk < (chunksOf block config).length := by
    rw [length_chunksOf, Blocks.lt_length_starts_iff hk]
    omega
  refine ⟨r / config.rowsPerChunk, hi, ?_, ?_, fun j hj hholds => ?_⟩
  · rw [getElem_chunksOf hi]
    exact (chunkAt_holds_iff hr).mpr rfl
  · rw [getElem_chunksOf hi]
    exact getElem_splitlines_chunkAt hlines ht hr hle (Nat.lt_div_mul_add hk)
  · rw [getElem_chunksOf hj] at hholds
    exact (chunkAt_holds_iff hr).mp hholds

end Lines

/-- The summary of a plan is that of the dominant table. -/
theorem summaryMarkdown_of_plan {markdown : String} {schema : Json} {config : ChunkingConfig}
    {plan : ChunkPlan} {block : TableBlock}
    (hplan : buildChunkPlan markdown schema config = some plan)
    (hb : findDominantTable markdown = some block) :
    plan.summaryMarkdown = summaryMarkdownOf (splitlines markdown) block config := by
  rw [buildChunkPlan, hb] at hplan
  dsimp only at hplan
  split at hplan
  · cases hplan
  · split at hplan
    · cases hplan
    · cases hplan
      rfl

/-- **No line of a chunked document is dropped from its plan.** -/
theorem plan_keeps_every_line (markdown : String) (schema : Json) (config : ChunkingConfig)
    (plan : ChunkPlan) (hplan : buildChunkPlan markdown schema config = some plan) :
    ∃ block, findDominantTable markdown = some block ∧
      KeepsEveryLine markdown config block plan := by
  obtain ⟨block, hb, -, -, -, -, hchunks, htotal⟩ := buildChunkPlan_eq_some hplan
  have ht := tableAt_of_findDominantTable hb
  have hlines : ∀ line ∈ splitlines markdown, IsLine line := fun _ => isLine_of_mem_splitlines
  refine ⟨block, hb, ht.document, htotal, ?_, ?_, ?_⟩
  · refine ⟨trimmedLines ((splitlines markdown).take block.startLine),
      trimmedLines ((splitlines markdown).drop (block.endLine + 1)), ?_,
      nonBlankLines_trimmedLines _, nonBlankLines_trimmedLines _⟩
    rw [summaryMarkdown_of_plan hplan hb, splitlines_summaryMarkdownOf hlines ht, htotal,
      ← List.take_eq_take_min]
  · intro chunk hc
    obtain ⟨i, -, rfl⟩ := exists_of_mem_chunksOf (hchunks ▸ hc)
    rw [splitlines_chunkAt hlines ht, slice_chunkAt]
  · intro r hr
    simp only [hchunks]
    exact exists_unique_chunk hlines ht hr

/-- A table between a title and a total, with blank lines around it. -/
def statementMarkdown : String :=
  "Statement\n\n| a |\n|---|\n| 1 |\n| 2 |\n\n  Total: 2 \n"

def statementPlan : ChunkPlan :=
  (buildChunkPlan statementMarkdown ledgerSchema ledgerConfig).get (by decide +kernel)

/-- The theorem on that document, which keeps the title, the total and two rows. -/
theorem statement_keeps_every_line :
    nonBlankLines (splitlines statementMarkdown) =
      ["Statement", "| a |", "|---|", "| 1 |", "| 2 |", "Total: 2"] ∧
    ∃ block, findDominantTable statementMarkdown = some block ∧
      KeepsEveryLine statementMarkdown ledgerConfig block statementPlan :=
  ⟨by decide +kernel, plan_keeps_every_line statementMarkdown ledgerSchema ledgerConfig
    statementPlan (Option.some_get _).symm⟩

end Chunking
end InternumCore
