import Mathlib.Data.List.Basic

/-!
# The first occurrences in a list

`FirstOccurrences q items kept` says that `kept` lists the members of `items`
that are in `q`, each of them once, in the order in which they first occur.  A
loop that reads `items` from the left keeps this relation between what it has
read and what it has kept: an item outside `q` or kept already is dropped
(`FirstOccurrences.drop`), any other is appended (`FirstOccurrences.keep`).
-/

variable {α : Type*} [DecidableEq α] {q : α → Prop} {items kept : List α} {a : α}

/-- The members of `items` in `q`, in the order of their first occurrences. -/
structure FirstOccurrences (q : α → Prop) (items kept : List α) : Prop where
  mem_iff : ∀ a, a ∈ kept ↔ a ∈ items ∧ q a
  ordered : kept.Pairwise fun a b => items.idxOf a < items.idxOf b

namespace FirstOccurrences

theorem nil : FirstOccurrences q [] [] where
  mem_iff a := by simp
  ordered := List.Pairwise.nil

/-- Two members that occur first at different places are different. -/
theorem nodup (h : FirstOccurrences q items kept) : kept.Nodup := by
  refine h.ordered.imp ?_
  rintro b c hlt rfl
  exact Nat.lt_irrefl _ hlt

/-- Reading on does not change the order of what has been read. -/
theorem ordered_append (h : FirstOccurrences q items kept) (later : List α) :
    kept.Pairwise fun a b => (items ++ later).idxOf a < (items ++ later).idxOf b := by
  refine h.ordered.imp_of_mem fun {b c} hb hc hlt => ?_
  rw [List.idxOf_append_of_mem ((h.mem_iff b).mp hb).1,
    List.idxOf_append_of_mem ((h.mem_iff c).mp hc).1]
  exact hlt

/-- An item that is unwanted or kept already is dropped. -/
theorem drop (h : FirstOccurrences q items kept) (ha : q a → a ∈ kept) :
    FirstOccurrences q (items ++ [a]) kept where
  mem_iff b := by
    rw [h.mem_iff, List.mem_append, List.mem_singleton]
    constructor
    · exact fun hb => ⟨Or.inl hb.1, hb.2⟩
    · rintro ⟨hb | rfl, hq⟩
      · exact ⟨hb, hq⟩
      · exact (h.mem_iff b).mp (ha hq)
  ordered := h.ordered_append [a]

/-- A new item is appended. -/
theorem keep (h : FirstOccurrences q items kept) (hq : q a) (hnew : a ∉ kept) :
    FirstOccurrences q (items ++ [a]) (kept ++ [a]) where
  mem_iff b := by
    rw [List.mem_append, List.mem_append, List.mem_singleton, h.mem_iff]
    constructor
    · rintro (hb | rfl)
      · exact ⟨Or.inl hb.1, hb.2⟩
      · exact ⟨Or.inr rfl, hq⟩
    · rintro ⟨hb | hb, hqb⟩
      · exact Or.inl ⟨hb, hqb⟩
      · exact Or.inr hb
  ordered := by
    refine List.pairwise_append.mpr ⟨h.ordered_append [a], List.pairwise_singleton _ _,
      fun b hb c hc => ?_⟩
    rw [List.mem_singleton.mp hc]
    have hmem : b ∈ items := ((h.mem_iff b).mp hb).1
    have hout : a ∉ items := fun hin => hnew ((h.mem_iff a).mpr ⟨hin, hq⟩)
    rw [List.idxOf_append_of_mem hmem, List.idxOf_append_of_notMem hout]
    exact Nat.lt_of_lt_of_le (List.idxOf_lt_length_of_mem hmem) (Nat.le_add_right _ _)

/-- Nothing is kept exactly when nothing is wanted. -/
theorem eq_nil_iff (h : FirstOccurrences q items kept) : kept = [] ↔ ∀ a ∈ items, ¬ q a := by
  rw [List.eq_nil_iff_forall_not_mem]
  simp only [h.mem_iff, not_and]

end FirstOccurrences
