import Mathlib.Data.List.Basic

/-!
# Splitting a text at its line breaks

Splitting a text into lines forgets which break ended each line and whether the
last line had one, so joining the lines again gives another text.  Splitting
that text again gives the same lines, as long as no line is broken and the last
one is not empty (`splitLines_join`).  The breaks are a parameter (`Breaks`):
which symbols break a line, and which break and following symbol count as one
break.  The text is a list over any alphabet.
-/

namespace LineSplit

/-- Which symbols end a line; `pairs a b` when a break `a` followed by `b` is a
single break. -/
structure Breaks (α : Type*) where
  isBreak : α → Bool
  pairs : α → α → Bool

variable {α : Type*} (B : Breaks α)

/-- The lines of `text`, the first of them starting with `current` (reversed).
A break at the very end starts no further line. -/
def splitLines (current : List α) : List α → List (List α)
  | [] => if current.isEmpty then [] else [current.reverse]
  | a :: text =>
    if B.isBreak a then
      match text with
      | [] => [current.reverse]
      | b :: rest =>
        if B.pairs a b then current.reverse :: splitLines [] rest
        else current.reverse :: splitLines [] (b :: rest)
    else splitLines (a :: current) text

/-- `sep.join(lines)`. -/
def join (sep : α) : List (List α) → List α
  | [] => []
  | [line] => line
  | line :: lines => line ++ sep :: join sep lines

/-- Joining loses nothing of a line. -/
theorem mem_join {sep a : α} {line : List α} {lines : List (List α)} (hline : line ∈ lines)
    (ha : a ∈ line) : a ∈ join sep lines := by
  induction lines with
  | nil => exact absurd hline List.not_mem_nil
  | cons first rest ih =>
    cases rest with
    | nil =>
      rw [List.mem_singleton.mp hline] at ha
      exact ha
    | cons second rest =>
      rcases List.mem_cons.mp hline with rfl | hrest
      · exact List.mem_append_left _ ha
      · exact List.mem_append_right _ (List.mem_cons_of_mem _ (ih hrest))

/-- A line holds no break. -/
def Unbroken (line : List α) : Prop := ∀ a ∈ line, B.isBreak a = false

variable {B}

theorem splitLines_cons_of_not_break {a : α} (ha : B.isBreak a = false) (current text : List α) :
    splitLines B current (a :: text) = splitLines B (a :: current) text := by
  rw [splitLines.eq_def]
  simp [ha]

/-- Reading symbols that break no line extends the current line. -/
theorem splitLines_append {line : List α} (h : Unbroken B line) (current rest : List α) :
    splitLines B current (line ++ rest) = splitLines B (line.reverse ++ current) rest := by
  induction line generalizing current with
  | nil => rfl
  | cons a line ih =>
    have ha : B.isBreak a = false := h a List.mem_cons_self
    have hline : Unbroken B line := fun b hb => h b (List.mem_cons_of_mem _ hb)
    rw [List.cons_append, splitLines_cons_of_not_break ha, ih hline, List.reverse_cons,
      List.append_assoc]
    rfl

/-- A break that starts no pair ends the current line. -/
theorem splitLines_break {sep : α} (hsep : B.isBreak sep = true)
    (hpair : ∀ b, B.pairs sep b = false) (current rest : List α) :
    splitLines B current (sep :: rest) = current.reverse :: splitLines B [] rest := by
  cases rest with
  | nil => simp [splitLines, hsep]
  | cons b rest => rw [splitLines]; simp [hsep, hpair b]

/-- **Splitting undoes joining.** -/
theorem splitLines_join {sep : α} (hsep : B.isBreak sep = true)
    (hpair : ∀ b, B.pairs sep b = false) :
    ∀ {lines : List (List α)}, (∀ line ∈ lines, Unbroken B line) →
      (∀ line ∈ lines.getLast?, line ≠ []) → splitLines B [] (join sep lines) = lines
  | [], _, _ => rfl
  | [line], h, hlast => by
      have hne : line ≠ [] := hlast line rfl
      have happ := splitLines_append (h line (List.mem_singleton_self _)) [] []
      rw [List.append_nil, List.append_nil] at happ
      rw [join, happ, splitLines]
      simp [hne]
  | line :: line' :: lines, h, hlast => by
      have ih : splitLines B [] (join sep (line' :: lines)) = line' :: lines :=
        splitLines_join hsep hpair (fun l hl => h l (List.mem_cons_of_mem _ hl))
          (fun l hl => hlast l (by rwa [List.getLast?_cons_cons]))
      rw [join, splitLines_append (h line List.mem_cons_self), List.append_nil,
        splitLines_break hsep hpair, List.reverse_reverse, ih]
      simp

theorem Unbroken.reverse {line : List α} (h : Unbroken B line) : Unbroken B line.reverse :=
  fun a ha => h a (List.mem_reverse.mp ha)

theorem unbroken_nil : Unbroken B [] := fun _ h => by cases h

/-- A break ends the current line and at most one more symbol goes with it. -/
theorem splitLines_cons_of_break {a : α} (ha : B.isBreak a = true) (current text : List α) :
    ∃ rest, rest.length ≤ text.length ∧
      splitLines B current (a :: text) = current.reverse :: splitLines B [] rest := by
  rw [splitLines.eq_def]
  cases text with
  | nil => exact ⟨[], Nat.le_refl _, by simp [ha, splitLines]⟩
  | cons b text =>
    by_cases hp : B.pairs a b = true
    · exact ⟨text, by simp, by simp [ha, hp]⟩
    · exact ⟨b :: text, Nat.le_refl _, by simp [ha, hp]⟩

/-- Every line a text is split into is unbroken. -/
theorem unbroken_of_mem_splitLines {current text : List α} (hcur : Unbroken B current) :
    ∀ line ∈ splitLines B current text, Unbroken B line := by
  induction hn : text.length using Nat.strongRecOn generalizing current text with
  | ind n ih =>
    intro line hline
    cases text with
    | nil =>
      rw [splitLines] at hline
      split at hline
      · cases hline
      · rw [List.mem_singleton.mp hline]
        exact hcur.reverse
    | cons a text =>
      rw [List.length_cons] at hn
      by_cases ha : B.isBreak a = true
      · obtain ⟨rest, hlen, he⟩ := splitLines_cons_of_break ha current text
        rw [he] at hline
        rcases List.mem_cons.mp hline with rfl | hline
        · exact hcur.reverse
        · exact ih rest.length (by omega) unbroken_nil rfl line hline
      · rw [Bool.not_eq_true] at ha
        rw [splitLines_cons_of_not_break ha] at hline
        refine ih text.length (by omega) (fun b hb => ?_) rfl line hline
        rcases List.mem_cons.mp hb with rfl | hb
        · exact ha
        · exact hcur b hb

end LineSplit
