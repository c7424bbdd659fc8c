import InternumCore.PyText

/-!
# Finding the dominant table of a Markdown text

A Markdown table is a run of consecutive lines that start with a pipe, the
second of them a delimiter line.  `findDominantTable` scans a text for such runs
and keeps the one with the most data lines, the first on a tie.

The scan is two nested index loops.  The inner one (`runEnd`) walks to the end
of a run, the outer one (`scanBlocks`) collects the runs that are tables.  What
the rest of the development uses of a block found is `TableAt`: it is a stretch
of pipe lines of the text, split into header, delimiter and data lines.
-/

namespace InternumCore
namespace Chunking

/-- `_is_pipe_line`. -/
def isPipeLine (line : String) : Bool :=
  startsWith (strip line) "|"

/-- `_is_delimiter_line`. -/
def isDelimiterLine (line : String) : Bool :=
  let stripped := strip line
  if !startsWith stripped "|" then false
  else
    let cells := ((stripChars (· == '|') stripped.toList).splitOn '|').map (stripChars isSpace)
    if cells.isEmpty then false
    else cells.all fun cell => cell != [] && cell.all fun c => c == '-' || c == ':' || c == ' '

/-- `_TableBlock`. -/
structure TableBlock where
  startLine : Nat
  endLine : Nat
  headerLine : String
  delimiterLine : String
  dataLines : List String
  deriving DecidableEq

/-- The lines `lines[start : stop]`. -/
def slice {α : Type} (lines : List α) (start stop : Nat) : List α :=
  (lines.drop start).take (stop - start)

/-- The inner loop: the last line of the run of pipe lines that line `last` is in. -/
def runEnd (lines : List String) (last : Nat) : Nat :=
  if h : last + 1 < lines.length then
    if isPipeLine lines[last + 1] then runEnd lines (last + 1) else last
  else last
termination_by lines.length - last

theorem le_runEnd (lines : List String) (last : Nat) : last ≤ runEnd lines last := by
  unfold runEnd
  split
  · split
    · exact Nat.le_trans (Nat.le_succ last) (le_runEnd lines (last + 1))
    · exact Nat.le_refl last
  · exact Nat.le_refl last
termination_by lines.length - last

/-- The outer loop from line `index` on: the tables found, in order. -/
def scanBlocks (lines : List String) (index : Nat) : List TableBlock :=
  if h : index < lines.length then
    if !isPipeLine lines[index] then scanBlocks lines (index + 1)
    else
      let last := runEnd lines index
      match slice lines index (last + 1) with
      | header :: delimiter :: data =>
        if isDelimiterLine delimiter then
          ⟨index, last, header, delimiter, data⟩ :: scanBlocks lines (last + 1)
        else scanBlocks lines (last + 1)
      | _ => scanBlocks lines (last + 1)
  else []
termination_by lines.length - index
decreasing_by
  · omega
  all_goals
    have hle := le_runEnd lines index
    omega

/-- `max(blocks, key=lambda block: len(block.data_lines))`: the first of the
largest. -/
def maxByDataLines : TableBlock → List TableBlock → TableBlock
  | best, [] => best
  | best, block :: blocks =>
    maxByDataLines (if best.dataLines.length < block.dataLines.length then block else best) blocks

/-- `_find_dominant_table`. -/
def findDominantTable (markdown : String) : Option TableBlock :=
  match scanBlocks (splitlines markdown) 0 with
  | [] => none
  | block :: blocks => some (maxByDataLines block blocks)

/-- `detect_table_row_count`. -/
def detectTableRowCount (markdown : String) : Nat :=
  match findDominantTable markdown with
  | none => 0
  | some block => block.dataLines.length

theorem ne_empty_of_isPipeLine {line : String} (h : isPipeLine line = true) : line ≠ "" := by
  rintro rfl
  exact absurd h (by decide)

/-! ## The run loop -/

theorem runEnd_lt {lines : List String} {last : Nat} (h : last < lines.length) :
    runEnd lines last < lines.length := by
  unfold runEnd
  split
  · next hlt =>
    split
    · exact runEnd_lt hlt
    · exact h
  · exact h
termination_by lines.length - last

/-- Every line the run loop walks over is a pipe line. -/
theorem isPipeLine_of_le_runEnd {lines : List String} {last i : Nat} (hi : last < i)
    (hle : i ≤ runEnd lines last) (hlen : i < lines.length) : isPipeLine lines[i] = true := by
  unfold runEnd at hle
  split at hle
  · next hlt =>
    split at hle
    · next hp =>
      rcases Nat.lt_or_ge (last + 1) i with hgt | hge
      · exact isPipeLine_of_le_runEnd hgt hle hlen
      · have he : i = last + 1 := by omega
        subst he
        exact hp
    · omega
  · omega
termination_by lines.length - last

/-! ## The block found -/

/-- `block` is a stretch of pipe lines of the text with a delimiter line second. -/
structure TableAt (lines : List String) (block : TableBlock) : Prop where
  end_lt : block.endLine < lines.length
  run : slice lines block.startLine (block.endLine + 1) =
    block.headerLine :: block.delimiterLine :: block.dataLines
  pipes : ∀ line ∈ block.headerLine :: block.delimiterLine :: block.dataLines,
    isPipeLine line = true
  delimiter : isDelimiterLine block.delimiterLine = true

theorem mem_slice {α : Type} {lines : List α} {start stop : Nat} {line : α}
    (h : line ∈ slice lines start stop) :
    ∃ i, ∃ hi : i < lines.length, start ≤ i ∧ i < stop ∧ lines[i] = line := by
  obtain ⟨j, hj, he⟩ := List.mem_iff_getElem.mp h
  simp only [slice, List.length_take, List.length_drop] at hj
  refine ⟨start + j, by omega, by omega, by omega, ?_⟩
  simpa [slice] using he

/-- The lines of a table of a text are lines of the text. -/
theorem TableAt.mem_lines {lines : List String} {block : TableBlock} (h : TableAt lines block) :
    ∀ line ∈ block.headerLine :: block.delimiterLine :: block.dataLines, line ∈ lines := by
  intro line hline
  rw [← h.run] at hline
  obtain ⟨i, hi, _, _, rfl⟩ := mem_slice hline
  exact List.getElem_mem hi

theorem detectTableRowCount_of_some {markdown : String} {block : TableBlock}
    (h : findDominantTable markdown = some block) :
    detectTableRowCount markdown = block.dataLines.length := by
  rw [detectTableRowCount, h]

/-- A positive row count comes from a table. -/
theorem exists_table_of_pos {markdown : String} (h : 0 < detectTableRowCount markdown) :
    ∃ block, findDominantTable markdown = some block := by
  cases hb : findDominantTable markdown with
  | none => rw [detectTableRowCount, hb] at h; cases h
  | some block => exact ⟨block, rfl⟩

end Chunking
end InternumCore
