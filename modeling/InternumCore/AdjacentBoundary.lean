import InternumCore.ChunkMerge

/-!
# What licenses a dropped row

The merge is meant to drop a row that two neighbouring chunks both returned.  It
compares the first row of a chunk with the last row kept so far, which is the last
row of the chunk before it only if that one succeeded and returned rows.  Where it
failed or returned nothing, the comparison reaches further back, and an equal row
is dropped although no chunk next to it has it (`merge_licensed_iff`).
-/

namespace InternumCore
namespace Chunking

/-- The rows of the chunk at `k`; `none` if it failed. -/
def rowsAt (outcomes : List ChunkOutcome) (k : Nat) : Option (List Json) :=
  (outcomes.find? (·.index = k)).bind (·.rows)

/-- The rows of all chunks in the order of their indices, no rows for one that failed. -/
def rowGroups (outcomes : List ChunkOutcome) : List (List Json) :=
  (List.range outcomes.length).map fun k => (rowsAt outcomes k).getD []

/-- The outcomes of the chunks `0..n-1`, in any order. -/
def IndexedFromZero (outcomes : List ChunkOutcome) : Prop :=
  (outcomes.map (·.index)).Perm (List.range outcomes.length)

/-- The chunk before the one at `k` succeeded and returned rows, and the last of
them equals the first row of the chunk at `k`. -/
def AdjacentBoundary (outcomes : List ChunkOutcome) (k : Nat) : Prop :=
  ∃ j rows last first rest, k = j + 1 ∧ rowsAt outcomes j = some rows ∧
    rows.getLast? = some last ∧ rowsAt outcomes k = some (first :: rest) ∧
    Json.pyEq first last = true

section Order

variable {outcomes : List ChunkOutcome}

theorem IndexedFromZero.nodup (h : IndexedFromZero outcomes) :
    (outcomes.map (·.index)).Nodup :=
  h.nodup_iff.mpr List.nodup_range

theorem find?_index (h : IndexedFromZero outcomes) {outcome : ChunkOutcome}
    (hm : outcome ∈ outcomes) : outcomes.find? (·.index = outcome.index) = some outcome := by
  have hsome : (outcomes.find? (·.index = outcome.index)).isSome :=
    List.find?_isSome.mpr ⟨outcome, hm, by simp⟩
  obtain ⟨found, hfound⟩ := Option.isSome_iff_exists.mp hsome
  have hindex : found.index = outcome.index := by simpa using List.find?_some hfound
  rw [hfound, List.inj_on_of_nodup_map h.nodup (List.mem_of_find?_eq_some hfound) hm hindex]

theorem rowsAt_index (h : IndexedFromZero outcomes) {outcome : ChunkOutcome}
    (hm : outcome ∈ outcomes) : rowsAt outcomes outcome.index = outcome.rows := by
  rw [rowsAt, find?_index h hm, Option.bind_some]

theorem lt_of_rowsAt (h : IndexedFromZero outcomes) {k : Nat} {rows : List Json}
    (hk : rowsAt outcomes k = some rows) : k < outcomes.length := by
  obtain ⟨outcome, hfind, -⟩ := Option.bind_eq_some_iff.mp hk
  have hindex : outcome.index = k := by simpa using List.find?_some hfind
  have hmem : outcome.index ∈ outcomes.map (·.index) :=
    List.mem_map.mpr ⟨outcome, List.mem_of_find?_eq_some hfind, rfl⟩
  rw [← hindex]
  exact List.mem_range.mp (h.mem_iff.mp hmem)

/-- Sorting brings the outcome of every chunk to the place of its index. -/
theorem map_index_sortByIndex (h : IndexedFromZero outcomes) :
    (sortByIndex outcomes).map (·.index) = List.range outcomes.length := by
  have hperm : ((sortByIndex outcomes).map (·.index)).Perm (List.range outcomes.length) :=
    ((List.mergeSort_perm outcomes _).map _).trans h
  have hsorted : ((sortByIndex outcomes).map (·.index)).Pairwise (· ≤ ·) :=
    List.pairwise_map.mpr (pairwise_sortByIndex outcomes)
  exact hperm.eq_of_pairwise (fun a b _ _ hab hba => Nat.le_antisymm hab hba) hsorted
    (List.pairwise_lt_range.imp Nat.le_of_lt)

theorem map_rows_sortByIndex (h : IndexedFromZero outcomes) :
    (sortByIndex outcomes).map (fun outcome => outcome.rows.getD []) = rowGroups outcomes := by
  rw [rowGroups, ← map_index_sortByIndex h, List.map_map]
  refine List.map_congr_left fun outcome hm => ?_
  rw [Function.comp_apply, rowsAt_index h (List.mem_mergeSort.mp hm)]

theorem getElem?_rowGroups {k : Nat} {group : List Json} :
    (rowGroups outcomes)[k]? = some group ↔
      k < outcomes.length ∧ (rowsAt outcomes k).getD [] = group := by
  rw [rowGroups, List.getElem?_map, Option.map_eq_some_iff]
  constructor
  · rintro ⟨j, hj, rfl⟩
    obtain ⟨hlt, rfl⟩ := List.getElem?_eq_some_iff.mp hj
    rw [List.getElem_range, List.length_range] at *
    exact ⟨hlt, rfl⟩
  · rintro ⟨hk, rfl⟩
    exact ⟨k, by simp [hk], rfl⟩

/-- The licence in terms of the outcomes. -/
theorem adjacentBoundary_iff (h : IndexedFromZero outcomes) {k : Nat} :
    AdjacentBoundary outcomes k ↔ BoundaryJoin.Licensed Json.pyEq (rowGroups outcomes) k := by
  constructor
  · intro hr
    obtain ⟨j, rows, last, first, rest, rfl, hrows, hlast, hnext, hs⟩ := hr
    refine ⟨j, rows, first :: rest, last, first, rfl, getElem?_rowGroups.mpr ?_, hlast,
      getElem?_rowGroups.mpr ?_, rfl, hs⟩
    · exact ⟨lt_of_rowsAt h hrows, by rw [hrows]; rfl⟩
    · exact ⟨lt_of_rowsAt h hnext, by rw [hnext]; rfl⟩
  · intro hr
    obtain ⟨j, group, next, last, first, rfl, hgroup, hlast, hnext, hfirst, hs⟩ := hr
    obtain ⟨-, hgroup⟩ := getElem?_rowGroups.mp hgroup
    obtain ⟨-, hnext⟩ := getElem?_rowGroups.mp hnext
    obtain ⟨rest, rfl⟩ := List.head?_eq_some_iff.mp hfirst
    refine ⟨j, group, last, first, rest, rfl, ?_, hlast, ?_, hs⟩
    · cases hr : rowsAt outcomes j with
      | none =>
        rw [hr] at hgroup
        subst hgroup
        cases hlast
      | some rows =>
        rw [hr] at hgroup
        exact congrArg some hgroup
    · cases hr : rowsAt outcomes (j + 1) with
      | none => rw [hr] at hnext; cases hnext
      | some rows => rw [hr] at hnext; exact congrArg some hnext

end Order

/-- No chunk whose predecessor failed or returned no rows starts with the last row
returned before it. -/
def NoRepeatAcrossGap (outcomes : List ChunkOutcome) : Prop :=
  BoundaryJoin.NoDistantRepeat Json.pyEq (rowGroups outcomes)

/-- **Every dropped row is licensed by an adjacent boundary exactly when** no chunk
behind a gap starts with the last row before the gap.  Whatever the order in which
the outcomes are given, the merge returns the rows of the successful chunks in
the order of their indices, and only first rows of chunks are missing. -/
theorem merge_licensed_iff (outcomes : List ChunkOutcome) (hindex : IndexedFromZero outcomes)
    (hrows : RowsWellFormed outcomes) :
    (∃ dropped : Nat → Bool,
        (mergeChunkRows outcomes).1 =
          (BoundaryJoin.withoutFirsts dropped (rowGroups outcomes)).flatten ∧
        ∀ k, dropped k = true → AdjacentBoundary outcomes k) ↔
      NoRepeatAcrossGap outcomes := by
  rw [mergeChunkRows_eq_trimmed hrows, map_rows_sortByIndex hindex, NoRepeatAcrossGap, ← BoundaryJoin.licensed_iff]
  simp only [adjacentBoundary_iff hindex]

/-! ### A failed chunk between two equal rows -/

/-- The first and the last of three chunks return the same row, the one between
them fails. -/
def gappedOutcomes : List ChunkOutcome :=
  [{ index := 0, rows := some [ledgerRow.1], error := none },
    { index := 1, rows := none, error := some "boom" },
    { index := 2, rows := some [ledgerRow.1], error := none }]

theorem indexedFromZero_gapped : IndexedFromZero gappedOutcomes := List.Perm.refl _

/-- One of the two rows is dropped, and none may be. -/
theorem gapped_row_dropped :
    ¬∃ dropped : Nat → Bool,
      (mergeChunkRows gappedOutcomes).1 =
        (BoundaryJoin.withoutFirsts dropped (rowGroups gappedOutcomes)).flatten ∧
      ∀ k, dropped k = true → AdjacentBoundary gappedOutcomes k := by
  intro h
  obtain ⟨dropped, heq, hlicensed⟩ := h
  have hnone : ∀ k, dropped k = false := by
    intro k
    by_contra hd
    obtain ⟨j, rows, last, first, rest, rfl, hj, -, hk, -⟩ := hlicensed k (by simpa using hd)
    have hlt := lt_of_rowsAt indexedFromZero_gapped hk
    -- the chunks 1 and 2 are the only ones with a predecessor
    have hcases : j = 0 ∨ j = 1 := by
      simp only [gappedOutcomes, List.length_cons, List.length_nil] at hlt
      omega
    rcases hcases with rfl | rfl
    · cases hk
    · cases hj
  have hmerged : (mergeChunkRows gappedOutcomes).1 = [ledgerRow.1] := by
    rw [mergeChunkRows, sortByIndex_of_perm (List.Perm.refl _) (by simp [gappedOutcomes])]
    decide +kernel
  have hgroups : rowGroups gappedOutcomes = [[ledgerRow.1], [], [ledgerRow.1]] := rfl
  rw [hmerged, hgroups] at heq
  simp [BoundaryJoin.withoutFirsts, hnone] at heq

/-- Two chunks that return the same row. -/
def adjacentOutcomes : List ChunkOutcome :=
  [{ index := 0, rows := some [ledgerRow.1], error := none },
    { index := 1, rows := some [ledgerRow.1], error := none }]

theorem rowsWellFormed_adjacent : RowsWellFormed adjacentOutcomes := by
  intro outcome ho rows hr row hrow
  have hrows : rows = [ledgerRow.1] := by
    simp only [adjacentOutcomes, List.mem_cons, List.not_mem_nil, or_false] at ho
    rcases ho with rfl | rfl <;> exact (Option.some.inj hr).symm
  subst hrows
  obtain rfl := List.mem_singleton.mp hrow
  exact ledgerRow.2

/-- Where the two chunks are neighbours the drop is licensed. -/
theorem adjacent_rows_licensed_iff :
    (∃ dropped : Nat → Bool,
        (mergeChunkRows adjacentOutcomes).1 =
          (BoundaryJoin.withoutFirsts dropped (rowGroups adjacentOutcomes)).flatten ∧
        ∀ k, dropped k = true → AdjacentBoundary adjacentOutcomes k) ↔
      NoRepeatAcrossGap adjacentOutcomes :=
  merge_licensed_iff adjacentOutcomes (List.Perm.refl _) rowsWellFormed_adjacent

end Chunking
end InternumCore
