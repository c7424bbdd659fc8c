import Mathlib.Data.List.Basic

/-!
# Fallible loops

A list is gone through in order by a function that may fail (`List.mapM` in `Except`).
The loop returns exactly if the function does on every element, element by element,
and otherwise it fails as the first element does that fails.
-/

namespace InternumCore

variable {α β ε : Type} {f : α → Except ε β}

theorem exists_mapM_eq_ok_iff {l : List α} :
    (∃ bs, l.mapM f = .ok bs) ↔ ∀ a ∈ l, ∃ b, f a = .ok b := by
  induction l with
  | nil => simp [pure, Except.pure]
  | cons a l ih =>
    rw [List.mapM_cons, List.forall_mem_cons, ← ih]
    cases ha : f a with
    | error e => simp [bind, Except.bind]
    | ok b =>
      cases hl : l.mapM f with
      | error e => simp [bind, Except.bind]
      | ok bs => simp [bind, Except.bind, pure, Except.pure]

theorem mapM_cons_eq_ok {a : α} {l : List α} {bs : List β} (h : (a :: l).mapM f = .ok bs) :
    ∃ b rest, f a = .ok b ∧ l.mapM f = .ok rest ∧ bs = b :: rest := by
  rw [List.mapM_cons] at h
  cases ha : f a with
  | error e =>
    rw [ha] at h
    cases h
  | ok b =>
    cases hl : l.mapM f with
    | error e =>
      rw [ha, hl] at h
      cases h
    | ok rest =>
      rw [ha, hl] at h
      cases h
      exact ⟨b, rest, rfl, rfl, rfl⟩

theorem forall₂_of_mapM_eq_ok {l : List α} {bs : List β} (h : l.mapM f = .ok bs) :
    List.Forall₂ (fun a b => f a = .ok b) l bs := by
  induction l generalizing bs with
  | nil =>
    cases h
    exact .nil
  | cons a l ih =>
    obtain ⟨b, rest, ha, hl, rfl⟩ := mapM_cons_eq_ok h
    exact .cons ha (ih hl)

/-- Two loops that return the same have returned the same for each element. -/
theorem exists_of_mapM_eq_ok {g : α → Except ε β} {l : List α} {bs : List β}
    (hf : l.mapM f = .ok bs) (hg : l.mapM g = .ok bs) :
    ∀ a ∈ l, ∃ b, f a = .ok b ∧ g a = .ok b := by
  induction l generalizing bs with
  | nil => simp
  | cons a l ih =>
    obtain ⟨b, rest, ha, hl, rfl⟩ := mapM_cons_eq_ok hf
    obtain ⟨b', rest', ha', hl', heq⟩ := mapM_cons_eq_ok hg
    obtain ⟨rfl, rfl⟩ := List.cons.inj heq
    exact List.forall_mem_cons.mpr ⟨⟨b, ha, ha'⟩, ih hl hl'⟩

/-- Two functions that agree on the elements have the same loop. -/
theorem mapM_congr_mem {g : α → Except ε β} {l : List α} (h : ∀ a ∈ l, f a = g a) :
    l.mapM f = l.mapM g := by
  induction l with
  | nil => rfl
  | cons a l ih =>
    obtain ⟨ha, hl⟩ := List.forall_mem_cons.mp h
    rw [List.mapM_cons, List.mapM_cons, ha, ih hl]

/-- The first fault is the result. -/
theorem mapM_eq_error_iff {l : List α} {e : ε} :
    l.mapM f = .error e ↔ ∃ before a after, l = before ++ a :: after ∧
      (∀ a' ∈ before, ∃ b, f a' = .ok b) ∧ f a = .error e := by
  induction l with
  | nil => simp [pure, Except.pure]
  | cons a l ih =>
    rw [List.mapM_cons]
    cases ha : f a with
    | error e' =>
      show Except.error e' = .error e ↔ _
      constructor
      · intro h
        exact ⟨[], a, l, rfl, by simp, ha.trans (congrArg Except.error (Except.error.inj h))⟩
      · intro h
        obtain ⟨before, a', after, heq, hbefore, ha'⟩ := h
        cases before with
        | nil =>
          cases heq
          exact congrArg Except.error (Except.error.inj (ha.symm.trans ha'))
        | cons c before =>
          cases heq
          obtain ⟨b, hb⟩ := hbefore a List.mem_cons_self
          rw [ha] at hb
          cases hb
    | ok b =>
      have htail : (do let bs ← l.mapM f; pure (b :: bs) : Except ε (List β)) = .error e ↔
          l.mapM f = .error e := by
        cases l.mapM f <;> simp [bind, Except.bind, pure, Except.pure]
      show (do let bs ← l.mapM f; pure (b :: bs) : Except ε (List β)) = .error e ↔ _
      rw [htail, ih]
      constructor
      · intro h
        obtain ⟨before, a', after, rfl, hbefore, ha'⟩ := h
        refine ⟨a :: before, a', after, rfl, ?_, ha'⟩
        exact List.forall_mem_cons.mpr ⟨⟨b, ha⟩, hbefore⟩
      · intro h
        obtain ⟨before, a', after, heq, hbefore, ha'⟩ := h
        cases before with
        | nil =>
          cases heq
          rw [ha] at ha'
          cases ha'
        | cons c before =>
          cases heq
          exact ⟨before, a', after, rfl, (List.forall_mem_cons.mp hbefore).2, ha'⟩

end InternumCore
