import Mathlib.Data.List.Basic

/-!
# Maximal runs of a list

A maximal run of the items in `p` is a stretch of them that no neighbour
extends.  A reader that walks a list from left to right stands at a *boundary*
when no run goes on from the item before it to the item it is at.  From a
boundary, a run lies wholly behind or wholly ahead (`MaximalRun.lt_of_boundary`),
the run that starts there starts at the boundary itself
(`MaximalRun.of_boundary`), and the end of a run is the next boundary
(`MaximalRun.boundary`).
-/

namespace MaximalRuns

variable {α : Type*} {p : α → Bool} {items : List α}

/-- There is an item at `i`, and it is in `p`. -/
def HoldsAt (p : α → Bool) (items : List α) (i : Nat) : Prop :=
  ∃ h : i < items.length, p items[i] = true

/-- The items from `start` to `stop` are in `p`, and those next to them are not. -/
structure MaximalRun (p : α → Bool) (items : List α) (start stop : Nat) : Prop where
  start_le : start ≤ stop
  inside : ∀ i, start ≤ i → i ≤ stop → HoldsAt p items i
  before : ∀ i, i + 1 = start → ¬ HoldsAt p items i
  after : ¬ HoldsAt p items (stop + 1)

/-- No run goes on from the item before `index` to the one at `index`. -/
def Boundary (p : α → Bool) (items : List α) (index : Nat) : Prop :=
  ∀ i, i + 1 = index → HoldsAt p items i → ¬ HoldsAt p items index

theorem boundary_zero : Boundary p items 0 := fun _ h => absurd h (Nat.succ_ne_zero _)

/-- An item outside `p` is followed by a boundary. -/
theorem boundary_succ {index : Nat} (h : ¬ HoldsAt p items index) :
    Boundary p items (index + 1) := by
  intro i hi hin
  have he : i = index := by omega
  subst he
  exact absurd hin h

namespace MaximalRun

variable {start stop index : Nat}

theorem at_start (h : MaximalRun p items start stop) : HoldsAt p items start :=
  h.inside start (Nat.le_refl start) h.start_le

theorem stop_lt (h : MaximalRun p items start stop) : stop < items.length := by
  obtain ⟨hlt, -⟩ := h.inside stop h.start_le (Nat.le_refl stop)
  exact hlt

/-- A run ends at a boundary. -/
theorem boundary (h : MaximalRun p items start stop) : Boundary p items (stop + 1) :=
  fun _ _ _ => h.after

/-- From a boundary, a stretch that nothing extends on the right is a run. -/
theorem of_boundary (hb : Boundary p items start) (hle : start ≤ stop)
    (hin : ∀ i, start ≤ i → i ≤ stop → HoldsAt p items i) (hend : ¬ HoldsAt p items (stop + 1)) :
    MaximalRun p items start stop where
  start_le := hle
  inside := hin
  before i hi hbefore := hb i hi hbefore (hin start (Nat.le_refl start) hle)
  after := hend

/-- A run that starts before a boundary ends before it. -/
theorem lt_of_boundary (h : MaximalRun p items start stop) (hb : Boundary p items index)
    (hlt : start < index) : stop < index := by
  by_contra hge
  have hbefore : HoldsAt p items (index - 1) := h.inside _ (by omega) (by omega)
  have hat : HoldsAt p items index := h.inside _ (by omega) (by omega)
  exact hb (index - 1) (by omega) hbefore hat

/-- A run is known by where it starts. -/
theorem stop_unique {stop' : Nat} (h : MaximalRun p items start stop)
    (h' : MaximalRun p items start stop') : stop = stop' := by
  have hle := h.start_le
  have hle' := h'.start_le
  have hlt := h.lt_of_boundary h'.boundary (by omega)
  have hlt' := h'.lt_of_boundary h.boundary (by omega)
  omega

/-- Of two runs, the one that starts later starts behind the end of the other. -/
theorem lt_start (h : MaximalRun p items start stop) {start' stop' : Nat}
    (h' : MaximalRun p items start' stop') (hlt : start < start') : stop < start' := by
  by_contra hge
  have hle' := h'.start_le
  have hb := h'.lt_of_boundary h.boundary (by omega)
  exact h'.before (start' - 1) (by omega) (h.inside _ (by omega) (by omega))

end MaximalRun

end MaximalRuns
