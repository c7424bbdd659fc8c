import Mathlib.Data.List.Perm.Basic

/-!
# Ranges that tile an interval

A list of half-open ranges tiles `0..total` when every number below `total` lies
in exactly one of them and no other number lies in any: there is no gap and no
overlap, in whatever order the ranges are listed.  Ranges each of which starts
where the one before ends do so (`Consecutive.tiles`).
-/

namespace Ranges

/-- Every number below `total` lies in exactly one of the ranges, others in none. -/
def Tiles (total : Nat) (ranges : List (Nat × Nat)) : Prop :=
  ∀ r, ranges.countP (fun p => p.1 ≤ r ∧ r < p.2) = if r < total then 1 else 0

/-- The ranges lead from `a` to `b`, each from where the one before ends. -/
def Consecutive : Nat → List (Nat × Nat) → Nat → Prop
  | a, [], b => a = b
  | a, p :: ranges, b => p.1 = a ∧ p.1 ≤ p.2 ∧ Consecutive p.2 ranges b

variable {a b total : Nat} {ranges ranges' : List (Nat × Nat)}

theorem Consecutive.le (h : Consecutive a ranges b) : a ≤ b := by
  induction ranges generalizing a with
  | nil => exact Nat.le_of_eq h
  | cons p ranges ih =>
    obtain ⟨rfl, hp, hrest⟩ := h
    exact Nat.le_trans hp (ih hrest)

/-- A number lies in one of the ranges, if it lies between their ends. -/
theorem Consecutive.countP (h : Consecutive a ranges b) (r : Nat) :
    ranges.countP (fun p => p.1 ≤ r ∧ r < p.2) = if a ≤ r ∧ r < b then 1 else 0 := by
  induction ranges generalizing a with
  | nil =>
    cases h
    rw [List.countP_nil, if_neg (by omega)]
  | cons p ranges ih =>
    obtain ⟨rfl, hp, hrest⟩ := h
    have hle := hrest.le
    rw [List.countP_cons, ih hrest]
    simp only [decide_eq_true_eq]
    by_cases hr : p.1 ≤ r ∧ r < p.2
    · rw [if_neg (by omega), if_pos hr, if_pos (by omega)]
    · rw [if_neg hr]
      by_cases hin : p.2 ≤ r ∧ r < b
      · rw [if_pos hin, if_pos (by omega)]
      · rw [if_neg hin, if_neg (by omega)]

theorem Consecutive.tiles (h : Consecutive 0 ranges total) : Tiles total ranges := by
  intro r
  rw [h.countP r]
  simp

theorem Tiles.perm (h : Tiles total ranges) (hp : ranges.Perm ranges') : Tiles total ranges' := by
  intro r
  rw [← hp.countP_eq]
  exact h r

/-- Ranges whose ends meet are consecutive. -/
theorem consecutive_of_getElem (hne : ranges ≠ []) (hfirst : ranges.head?.map Prod.fst = some a)
    (hlast : ranges.getLast?.map Prod.snd = some b) (hle : ∀ p ∈ ranges, p.1 ≤ p.2)
    (hmeet : ∀ (i : Nat) (h : i + 1 < ranges.length), (ranges[i]).2 = (ranges[i + 1]).1) :
    Consecutive a ranges b := by
  induction ranges generalizing a with
  | nil => exact absurd rfl hne
  | cons p ranges ih =>
    have ha : p.1 = a := by simpa using hfirst
    refine ⟨ha, hle p List.mem_cons_self, ?_⟩
    cases ranges with
    | nil =>
      have hb : p.2 = b := by simpa using hlast
      exact hb
    | cons q ranges =>
      have hpq : p.2 = q.1 := hmeet 0 (by simp)
      refine ih (List.cons_ne_nil _ _) (by simp [hpq]) (by simpa using hlast)
        (fun p' hp' => hle p' (List.mem_cons_of_mem _ hp')) fun i hi => ?_
      exact hmeet (i + 1) (by simpa using hi)

end Ranges
