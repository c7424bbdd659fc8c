import InternumCore.MaximalRuns
import InternumCore.TableScan

/-!
# The table scan finds the first largest table

A table of a text is a maximal run of pipe lines of at least two lines, the
second of them a delimiter line (`TableRun`).  `findDominantTable` finds no table
exactly when there is none, and otherwise the first of the largest
(`find_dominant_table_first_largest`).

The two index loops of the scan never stand inside a run: wherever the outer one
looks is a boundary of the runs.  `scan_induction` is the induction over the
scan that carries this invariant.  With it the blocks the scan collects from a
boundary on are the tables that start there or later (`mem_scanBlocks_iff`), in
the order of the text (`pairwise_scanBlocks`), so that the first of the largest
blocks collected is the first of the largest tables.  The plans of the chunks
rest on one part of this, `tableAt_of_findDominantTable`.
-/

namespace InternumCore
namespace Chunking

open MaximalRuns

variable {lines : List String} {block : TableBlock} {start stop index : Nat}

/-- The lines from `start` to `stop` are a table of the text. -/
structure TableRun (lines : List String) (start stop : Nat) : Prop where
  run : MaximalRun isPipeLine lines start stop
  second : start < stop
  delimited : HoldsAt isDelimiterLine lines (start + 1)

/-- The data lines of the table from `start` to `stop`. -/
def dataLinesAt (lines : List String) (start stop : Nat) : List String :=
  slice lines (start + 2) (stop + 1)

/-- `block` holds the lines of the text at its own bounds. -/
structure HoldsLines (lines : List String) (block : TableBlock) : Prop where
  header : lines[block.startLine]? = some block.headerLine
  delimiter : lines[block.startLine + 1]? = some block.delimiterLine
  data : block.dataLines = dataLinesAt lines block.startLine block.endLine

/-- `block` is a table of the text, no table has more data lines and none before
it has as many. -/
structure FirstLargest (lines : List String) (block : TableBlock) : Prop where
  table : TableRun lines block.startLine block.endLine
  holds : HoldsLines lines block
  largest : ∀ start stop, TableRun lines start stop →
    (dataLinesAt lines start stop).length ≤ block.dataLines.length
  first : ∀ start stop, TableRun lines start stop → start < block.startLine →
    (dataLinesAt lines start stop).length < block.dataLines.length

/-! ## One step of the scan -/

/-- The line after the one the run loop stops at is not a pipe line. -/
theorem not_holdsAt_runEnd_succ (lines : List String) (last : Nat) :
    ¬ HoldsAt isPipeLine lines (runEnd lines last + 1) := by
  unfold runEnd
  split
  · next hlt =>
    split
    · exact not_holdsAt_runEnd_succ lines (last + 1)
    · next hp =>
      rintro ⟨h, hpipe⟩
      exact hp hpipe
  · next hge =>
    rintro ⟨h, -⟩
    exact hge h
termination_by lines.length - last

/-- From a boundary, the run loop walks over one maximal run. -/
theorem maximalRun_runEnd (hb : Boundary isPipeLine lines index)
    (hp : HoldsAt isPipeLine lines index) :
    MaximalRun isPipeLine lines index (runEnd lines index) := by
  refine MaximalRun.of_boundary hb (le_runEnd lines index) (fun i hge hle => ?_)
    (not_holdsAt_runEnd_succ lines index)
  obtain ⟨hlt, -⟩ := id hp
  have hi : i < lines.length := Nat.lt_of_le_of_lt hle (runEnd_lt hlt)
  rcases Nat.eq_or_lt_of_le hge with rfl | hgt
  · exact hp
  · exact ⟨hi, isPipeLine_of_le_runEnd hgt hle hi⟩

/-- **Induction over the scan**: it ends, steps over a line outside the runs, or
steps over a whole run, always from a boundary to a boundary. -/
theorem scan_induction {motive : Nat → Prop}
    (ended : ∀ index, lines.length ≤ index → motive index)
    (skip : ∀ index, index < lines.length → ¬ HoldsAt isPipeLine lines index →
      motive (index + 1) → motive index)
    (run : ∀ index, MaximalRun isPipeLine lines index (runEnd lines index) →
      motive (runEnd lines index + 1) → motive index)
    (index : Nat) (hb : Boundary isPipeLine lines index) : motive index := by
  by_cases hlt : index < lines.length
  · by_cases hp : HoldsAt isPipeLine lines index
    · have hrun := maximalRun_runEnd hb hp
      have hle := hrun.start_le
      exact run index hrun (scan_induction ended skip run (runEnd lines index + 1) hrun.boundary)
    · exact skip index hlt hp (scan_induction ended skip run (index + 1) (boundary_succ hp))
  · exact ended index (Nat.le_of_not_lt hlt)
termination_by lines.length - index

/-- The block the scan collects at a run, if it is a table. -/
def blockOfRun (lines : List String) (start stop : Nat) : Option TableBlock :=
  match slice lines start (stop + 1) with
  | header :: delimiter :: data =>
    if isDelimiterLine delimiter then some ⟨start, stop, header, delimiter, data⟩ else none
  | _ => none

theorem scanBlocks_of_ge (h : lines.length ≤ index) : scanBlocks lines index = [] := by
  rw [scanBlocks, dif_neg (Nat.not_lt.mpr h)]

theorem scanBlocks_of_not_holdsAt (hlt : index < lines.length)
    (h : ¬ HoldsAt isPipeLine lines index) :
    scanBlocks lines index = scanBlocks lines (index + 1) := by
  have hp : isPipeLine lines[index] = false := by
    rw [← Bool.not_eq_true]
    exact fun hp => h ⟨hlt, hp⟩
  rw [scanBlocks, dif_pos hlt, hp]
  rfl

theorem scanBlocks_of_holdsAt (h : HoldsAt isPipeLine lines index) :
    scanBlocks lines index = (blockOfRun lines index (runEnd lines index)).toList ++
      scanBlocks lines (runEnd lines index + 1) := by
  obtain ⟨hlt, hp⟩ := h
  rw [scanBlocks, dif_pos hlt, hp, blockOfRun]
  simp only [Bool.not_true, Bool.false_eq_true, if_false]
  rcases slice lines index (runEnd lines index + 1) with _ | ⟨header, _ | ⟨delimiter, data⟩⟩
  · rfl
  · rfl
  · by_cases hd : isDelimiterLine delimiter = true
    · simp only [if_pos hd]
      rfl
    · simp only [if_neg hd]
      rfl

theorem slice_cons_cons (hsecond : start < stop) (hstop : stop < lines.length) :
    slice lines start (stop + 1) =
      lines[start] :: lines[start + 1] :: dataLinesAt lines start stop := by
  have hlen : stop + 1 - start = stop + 1 - (start + 2) + 1 + 1 := by omega
  rw [dataLinesAt, slice, slice, hlen, List.drop_eq_getElem_cons (by omega), List.take_succ_cons,
    List.drop_eq_getElem_cons (by omega), List.take_succ_cons]

/-- A run is collected exactly when it is a table, with its lines. -/
theorem blockOfRun_eq_some_iff (hrun : MaximalRun isPipeLine lines start stop) :
    blockOfRun lines start stop = some block ↔
      (block.startLine = start ∧ block.endLine = stop) ∧ TableRun lines start stop ∧
        HoldsLines lines block := by
  have hstop := hrun.stop_lt
  rcases Nat.eq_or_lt_of_le hrun.start_le with rfl | hsecond
  -- a run of one line
  · have hone : slice lines start (start + 1) = [lines[start]] := by
      rw [slice, List.drop_eq_getElem_cons hstop, Nat.add_sub_cancel_left]
      rfl
    rw [blockOfRun, hone]
    constructor
    · intro h
      cases h
    · rintro ⟨-, ht, -⟩
      exact absurd ht.second (Nat.lt_irrefl _)
  · have hstart : start < lines.length := by omega
    have hnext : start + 1 < lines.length := by omega
    rw [blockOfRun, slice_cons_cons hsecond hstop]
    show (if isDelimiterLine lines[start + 1] then _ else _) = _ ↔ _
    by_cases hd : isDelimiterLine lines[start + 1] = true
    · rw [if_pos hd]
      constructor
      · intro h
        cases h
        exact ⟨⟨rfl, rfl⟩, ⟨hrun, hsecond, hnext, hd⟩, List.getElem?_eq_getElem hstart,
          List.getElem?_eq_getElem hnext, rfl⟩
      · rintro ⟨⟨hs, he⟩, -, hlines⟩
        have hheader := hlines.header
        have hdelimiter := hlines.delimiter
        have hdata := hlines.data
        rw [hs, List.getElem?_eq_getElem hstart] at hheader
        rw [hs, List.getElem?_eq_getElem hnext] at hdelimiter
        rw [hs, he] at hdata
        cases block
        simp only [Option.some.injEq] at hheader hdelimiter
        simp only at hs he hdata
        rw [hheader, hdelimiter, hs, he, hdata]
    · rw [if_neg hd]
      constructor
      · intro h
        cases h
      · rintro ⟨-, ht, -⟩
        obtain ⟨_, hd'⟩ := ht.delimited
        exact absurd hd' hd

/-! ## The blocks collected -/

/-- **The scan from a boundary collects the tables from there on**, no other
block and none of them left out. -/
theorem mem_scanBlocks_iff (hb : Boundary isPipeLine lines index) :
    block ∈ scanBlocks lines index ↔
      index ≤ block.startLine ∧ TableRun lines block.startLine block.endLine ∧
        HoldsLines lines block := by
  revert hb
  refine scan_induction (motive := fun index => block ∈ scanBlocks lines index ↔
    index ≤ block.startLine ∧ TableRun lines block.startLine block.endLine ∧
      HoldsLines lines block) ?_ ?_ ?_ index
  · intro index hge
    rw [scanBlocks_of_ge hge]
    constructor
    · intro h
      cases h
    · rintro ⟨hle, ht, -⟩
      have hstop := ht.run.stop_lt
      have hstart := ht.run.start_le
      omega
  · intro index hlt hp ih
    rw [scanBlocks_of_not_holdsAt hlt hp, ih]
    refine and_congr_left fun ht => ?_
    -- no table starts at a line that is not a pipe line
    have hne : index ≠ block.startLine := by
      rintro rfl
      exact hp ht.1.run.at_start
    omega
  · intro index hrun ih
    rw [scanBlocks_of_holdsAt hrun.at_start, List.mem_append, Option.mem_toList,
      blockOfRun_eq_some_iff hrun, ih]
    constructor
    · rintro (⟨⟨hs, he⟩, ht, hl⟩ | ⟨hle, ht, hl⟩)
      · rw [hs, he]
        exact ⟨Nat.le_refl _, ht, hl⟩
      · have hstop := hrun.start_le
        exact ⟨by omega, ht, hl⟩
    · rintro ⟨hle, ht, hl⟩
      rcases Nat.eq_or_lt_of_le hle with hs | hlt
      · have he := hrun.stop_unique (hs ▸ ht.run)
        rw [← hs, ← he] at ht
        exact Or.inl ⟨⟨hs.symm, he.symm⟩, ht, hl⟩
      · exact Or.inr ⟨hrun.lt_start ht.run hlt, ht, hl⟩

/-- The blocks are collected in the order of the text. -/
theorem pairwise_scanBlocks (hb : Boundary isPipeLine lines index) :
    (scanBlocks lines index).Pairwise fun a b => a.startLine < b.startLine := by
  revert hb
  refine scan_induction (motive := fun index =>
    (scanBlocks lines index).Pairwise fun a b => a.startLine < b.startLine) ?_ ?_ ?_ index
  · intro index hge
    rw [scanBlocks_of_ge hge]
    exact List.Pairwise.nil
  · intro index hlt hp ih
    rw [scanBlocks_of_not_holdsAt hlt hp]
    exact ih
  · intro index hrun ih
    rw [scanBlocks_of_holdsAt hrun.at_start]
    refine List.pairwise_append.mpr ⟨?_, ih, fun a ha b hb => ?_⟩
    · cases blockOfRun lines index (runEnd lines index) with
      | none => exact List.Pairwise.nil
      | some found => exact List.pairwise_singleton _ _
    · obtain ⟨⟨hs, -⟩, -⟩ := (blockOfRun_eq_some_iff hrun).mp (Option.mem_toList.mp ha)
      obtain ⟨hle, -⟩ := (mem_scanBlocks_iff hrun.boundary).mp hb
      have hstop := hrun.start_le
      omega

/-- **A text that is one table** is scanned as that table. -/
theorem scanBlocks_of_table {header delimiter : String} {data : List String}
    (hpipes : ∀ line ∈ header :: delimiter :: data, isPipeLine line = true)
    (hdelim : isDelimiterLine delimiter = true) :
    scanBlocks (header :: delimiter :: data) 0 =
      [⟨0, data.length + 1, header, delimiter, data⟩] := by
  have hlen : (header :: delimiter :: data).length = data.length + 2 := rfl
  have hin : ∀ i, i ≤ data.length + 1 → HoldsAt isPipeLine (header :: delimiter :: data) i := by
    intro i hi
    have hlt : i < (header :: delimiter :: data).length := by omega
    exact ⟨hlt, hpipes _ (List.getElem_mem hlt)⟩
  have hend : ¬ HoldsAt isPipeLine (header :: delimiter :: data) (data.length + 1 + 1) := by
    rintro ⟨h, -⟩
    omega
  have hrun := MaximalRun.of_boundary boundary_zero (Nat.zero_le _) (fun i _ hi => hin i hi) hend
  have hlast : runEnd (header :: delimiter :: data) 0 = data.length + 1 :=
    (maximalRun_runEnd boundary_zero (hin 0 (Nat.zero_le _))).stop_unique hrun
  have hdata : data = dataLinesAt (header :: delimiter :: data) 0 (data.length + 1) :=
    (List.take_length).symm
  have hblock : blockOfRun (header :: delimiter :: data) 0 (data.length + 1) =
      some ⟨0, data.length + 1, header, delimiter, data⟩ :=
    (blockOfRun_eq_some_iff hrun).mpr
      ⟨⟨rfl, rfl⟩, ⟨hrun, Nat.succ_pos _, by omega, hdelim⟩, ⟨rfl, rfl, hdata⟩⟩
  rw [scanBlocks_of_holdsAt (hin 0 (Nat.zero_le _)), hlast, hblock,
    scanBlocks_of_ge (Nat.le_of_eq hlen)]
  rfl

/-! ## The block chosen -/

/-- **`max` returns the first of the largest**: all blocks before it are smaller
and none after it is larger. -/
theorem maxByDataLines_split (best : TableBlock) (blocks : List TableBlock) :
    ∃ before after, best :: blocks = before ++ maxByDataLines best blocks :: after ∧
      (∀ other ∈ before,
        other.dataLines.length < (maxByDataLines best blocks).dataLines.length) ∧
      ∀ other ∈ after,
        other.dataLines.length ≤ (maxByDataLines best blocks).dataLines.length := by
  induction blocks generalizing best with
  | nil => exact ⟨[], [], rfl, by simp, by simp⟩
  | cons block blocks ih =>
    rw [maxByDataLines]
    by_cases hlt : best.dataLines.length < block.dataLines.length
    · rw [if_pos hlt]
      obtain ⟨before, after, he, hbefore, hafter⟩ := ih block
      have hblock : block.dataLines.length ≤ (maxByDataLines block blocks).dataLines.length := by
        have hmem : block ∈ before ++ maxByDataLines block blocks :: after :=
          he ▸ List.mem_cons_self
        rcases List.mem_append.mp hmem with h | h
        · exact Nat.le_of_lt (hbefore block h)
        · rcases List.mem_cons.mp h with h | h
          · rw [← h]
          · exact hafter block h
      refine ⟨best :: before, after, congrArg (List.cons best) he, ?_, hafter⟩
      intro other hother
      rcases List.mem_cons.mp hother with rfl | hother
      · omega
      · exact hbefore other hother
    · rw [if_neg hlt]
      obtain ⟨before, after, he, hbefore, hafter⟩ := ih best
      generalize maxByDataLines best blocks = largest at he hbefore hafter
      rcases before with _ | ⟨first, before⟩
      -- `best` is the largest, and `block` is one of those behind it
      · obtain ⟨rfl, rfl⟩ := List.cons.inj he
        refine ⟨[], block :: blocks, rfl, by simp, ?_⟩
        intro other hother
        rcases List.mem_cons.mp hother with rfl | hother
        · omega
        · exact hafter other hother
      -- the largest comes later, and `block` is no larger than `best`
      · obtain ⟨rfl, rfl⟩ := List.cons.inj he
        refine ⟨best :: block :: before, after, rfl, ?_, hafter⟩
        have hbest := hbefore best List.mem_cons_self
        intro other hother
        rcases List.mem_cons.mp hother with rfl | hother
        · exact hbest
        · rcases List.mem_cons.mp hother with rfl | hother
          · omega
          · exact hbefore other (List.mem_cons_of_mem _ hother)

/-- Every table of the text is among the blocks collected. -/
theorem exists_mem_scanBlocks (h : TableRun lines start stop) :
    ∃ block ∈ scanBlocks lines 0, block.startLine = start ∧
      block.dataLines = dataLinesAt lines start stop := by
  have hstop := h.run.stop_lt
  have hsecond := h.second
  refine ⟨⟨start, stop, lines[start], lines[start + 1], dataLinesAt lines start stop⟩,
    (mem_scanBlocks_iff boundary_zero).mpr ⟨Nat.zero_le _, h, ?_⟩, rfl, rfl⟩
  exact ⟨List.getElem?_eq_getElem _, List.getElem?_eq_getElem _, rfl⟩

theorem findDominantTable_eq_none_iff {markdown : String} :
    findDominantTable markdown = none ↔
      ¬ ∃ start stop, TableRun (splitlines markdown) start stop := by
  unfold findDominantTable
  constructor
  · rintro h ⟨start, stop, ht⟩
    obtain ⟨block, hmem, -⟩ := exists_mem_scanBlocks ht
    split at h
    · next hscan =>
      rw [hscan] at hmem
      cases hmem
    · cases h
  · intro h
    split
    · rfl
    · next first rest hscan =>
      have hmem : first ∈ scanBlocks (splitlines markdown) 0 := hscan ▸ List.mem_cons_self
      exact absurd ⟨_, _, ((mem_scanBlocks_iff boundary_zero).mp hmem).2.1⟩ h

theorem firstLargest_of_findDominantTable {markdown : String}
    (h : findDominantTable markdown = some block) :
    FirstLargest (splitlines markdown) block := by
  unfold findDominantTable at h
  split at h
  · cases h
  · next first rest hscan =>
    obtain ⟨before, after, hsplit, hbefore, hafter⟩ := maxByDataLines_split first rest
    rw [Option.some.inj h] at hsplit hbefore hafter
    rw [hsplit] at hscan
    have hmem : block ∈ scanBlocks (splitlines markdown) 0 := by
      rw [hscan]
      exact List.mem_append_right _ List.mem_cons_self
    have horder : (scanBlocks (splitlines markdown) 0).Pairwise
        fun a b => a.startLine < b.startLine := pairwise_scanBlocks boundary_zero
    rw [hscan] at horder
    have hlater := (List.pairwise_cons.mp (List.pairwise_append.mp horder).2.1).1
    -- a table collected before the block is smaller, one collected after it starts after it
    have hplace : ∀ start stop, TableRun (splitlines markdown) start stop →
        (dataLinesAt (splitlines markdown) start stop).length < block.dataLines.length ∨
        (dataLinesAt (splitlines markdown) start stop).length ≤ block.dataLines.length ∧
          block.startLine ≤ start := by
      intro start stop ht
      obtain ⟨other, hother, hstart, hdata⟩ := exists_mem_scanBlocks ht
      rw [hscan] at hother
      rw [← hdata, ← hstart]
      rcases List.mem_append.mp hother with hother | hother
      · exact Or.inl (hbefore other hother)
      · rcases List.mem_cons.mp hother with rfl | hother
        · exact Or.inr ⟨Nat.le_refl _, Nat.le_refl _⟩
        · exact Or.inr ⟨hafter other hother, Nat.le_of_lt (hlater other hother)⟩
    obtain ⟨-, htable, hholds⟩ := (mem_scanBlocks_iff boundary_zero).mp hmem
    refine ⟨htable, hholds, fun start stop ht => ?_, fun start stop ht hlt => ?_⟩
    · have hle := hplace start stop ht
      omega
    · have hle := hplace start stop ht
      omega

/-- The dominant table is a stretch of pipe lines of the text. -/
theorem tableAt_of_findDominantTable {markdown : String}
    (h : findDominantTable markdown = some block) : TableAt (splitlines markdown) block := by
  obtain ⟨htable, hholds, -, -⟩ := firstLargest_of_findDominantTable h
  have hstop := htable.run.stop_lt
  have hrun := slice_cons_cons htable.second hstop
  obtain ⟨_, hheader⟩ := List.getElem?_eq_some_iff.mp hholds.header
  obtain ⟨_, hdelimiter⟩ := List.getElem?_eq_some_iff.mp hholds.delimiter
  rw [hheader, hdelimiter, ← hholds.data] at hrun
  refine ⟨hstop, hrun, fun line hline => ?_, ?_⟩
  · rw [← hrun] at hline
    obtain ⟨i, hi, hge, hlt, rfl⟩ := mem_slice hline
    obtain ⟨_, hpipe⟩ := htable.run.inside i hge (Nat.le_of_lt_succ hlt)
    exact hpipe
  · obtain ⟨_, hdelim⟩ := htable.delimited
    rwa [hdelimiter] at hdelim

/-- **The table scan finds the first largest table.** -/
theorem find_dominant_table_first_largest (markdown : String) :
    (findDominantTable markdown = none ↔
      ¬ ∃ start stop, TableRun (splitlines markdown) start stop) ∧
    ∀ block, findDominantTable markdown = some block → FirstLargest (splitlines markdown) block :=
  ⟨findDominantTable_eq_none_iff, fun _ h => firstLargest_of_findDominantTable h⟩

end Chunking
end InternumCore
