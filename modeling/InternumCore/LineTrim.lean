import Mathlib.Data.List.DropRight
import InternumCore.LineSplit

/-!
# Trimming a text that is joined from lines

Trimming a text drops the blanks at its ends.  When the lines of the text are
joined by a blank, whole lines may go with them.  `trim_join` says which lines
are left: those at the ends that are blank are dropped, and the first and the
last of the others lose the blanks on their outer side.  No line that is not
blank goes, and each of them is the same line up to the blanks at its ends
(`content_trimLines`).

Which symbols are blank is a parameter.  The text is a list over any alphabet.
-/

namespace LineSplit

variable {α : Type*} {p : α → Bool} {sep : α}

/-! ## Dropping at the ends -/

theorem rdropWhile_append (p : α → Bool) (front back : List α) :
    (front ++ back).rdropWhile p =
      if back.rdropWhile p = [] then front.rdropWhile p else front ++ back.rdropWhile p := by
  unfold List.rdropWhile
  rw [List.reverse_append, List.dropWhile_append]
  rcases back.reverse.dropWhile p with _ | ⟨a, rest⟩ <;> simp

theorem rdropWhile_cons (p : α → Bool) (a : α) (text : List α) :
    (a :: text).rdropWhile p =
      if text.rdropWhile p = [] ∧ p a = true then [] else a :: text.rdropWhile p := by
  rw [← List.singleton_append, rdropWhile_append, List.rdropWhile_singleton]
  by_cases htext : text.rdropWhile p = []
  · by_cases ha : p a = true <;> simp [htext, ha]
  · simp [htext]

/-- The two ends are dropped in either order. -/
theorem dropWhile_rdropWhile (p : α → Bool) (text : List α) :
    (text.rdropWhile p).dropWhile p = (text.dropWhile p).rdropWhile p := by
  induction text with
  | nil => rfl
  | cons a text ih =>
    rw [rdropWhile_cons]
    by_cases ha : p a = true
    · rw [List.dropWhile_cons_of_pos ha, ← ih]
      by_cases htext : text.rdropWhile p = []
      · rw [if_pos ⟨htext, ha⟩, htext]
      · rw [if_neg fun h => htext h.1, List.dropWhile_cons_of_pos ha]
    · rw [if_neg fun h => ha h.2, List.dropWhile_cons_of_neg ha, List.dropWhile_cons_of_neg ha,
        rdropWhile_cons, if_neg fun h => ha h.2]

/-- A text without the blanks at its ends. -/
def trim (p : α → Bool) (text : List α) : List α := (text.dropWhile p).rdropWhile p

theorem trim_dropWhile (text : List α) : trim p (text.dropWhile p) = trim p text := by
  rw [trim, List.dropWhile_idempotent, trim]

theorem trim_rdropWhile (text : List α) : trim p (text.rdropWhile p) = trim p text := by
  rw [trim, dropWhile_rdropWhile, List.rdropWhile_idempotent, trim]

theorem trim_trim (text : List α) : trim p (trim p text) = trim p text := by
  show trim p ((text.dropWhile p).rdropWhile p) = _
  rw [trim_rdropWhile, trim_dropWhile]

/-! ## The lines that are left -/

/-- The lines of a text whose leading blanks are dropped. -/
def trimFront (p : α → Bool) : List (List α) → List (List α)
  | [] => []
  | line :: lines =>
    match line.dropWhile p with
    | [] => trimFront p lines
    | a :: rest => (a :: rest) :: lines

/-- The lines of a text whose trailing blanks are dropped. -/
def trimBack (p : α → Bool) : List (List α) → List (List α)
  | [] => []
  | line :: lines =>
    match trimBack p lines with
    | next :: kept => line :: next :: kept
    | [] =>
      match line.rdropWhile p with
      | [] => []
      | a :: rest => [a :: rest]

/-- The lines of a trimmed text. -/
def trimLines (p : α → Bool) (lines : List (List α)) : List (List α) :=
  trimBack p (trimFront p lines)

/-- No blank is left behind the last line. -/
theorem getLast_trimBack_ne_nil (lines : List (List α)) :
    ∀ line ∈ (trimBack p lines).getLast?, line ≠ [] := by
  induction lines with
  | nil => exact fun line hline => by cases hline
  | cons line lines ih =>
    intro last hlast
    rw [trimBack] at hlast
    split at hlast
    · next next kept hkept =>
      rw [List.getLast?_cons_cons, ← hkept] at hlast
      exact ih last hlast
    · split at hlast
      · cases hlast
      · cases hlast
        exact List.cons_ne_nil _ _

theorem join_cons_of_ne_nil (line : List α) {lines : List (List α)} (h : lines ≠ []) :
    join sep (line :: lines) = line ++ sep :: join sep lines := by
  rcases lines with _ | ⟨next, lines⟩
  · exact absurd rfl h
  · rfl

/-- Lines the last of which is not empty do not join to the empty text. -/
theorem join_ne_nil (sep : α) {lines : List (List α)} (h : lines ≠ [])
    (hlast : ∀ line ∈ lines.getLast?, line ≠ []) : join sep lines ≠ [] := by
  rcases lines with _ | ⟨line, _ | ⟨next, lines⟩⟩
  · exact absurd rfl h
  · exact hlast line rfl
  · rw [join_cons_of_ne_nil line (List.cons_ne_nil _ _)]
    simp

theorem dropWhile_join (hsep : p sep = true) (lines : List (List α)) :
    (join sep lines).dropWhile p = join sep (trimFront p lines) := by
  induction lines with
  | nil => rfl
  | cons line lines ih =>
    rw [trimFront]
    rcases lines with _ | ⟨next, lines⟩
    · show line.dropWhile p = _
      rcases line.dropWhile p with _ | ⟨a, rest⟩ <;> rfl
    · rw [join_cons_of_ne_nil line (List.cons_ne_nil _ _), List.dropWhile_append]
      rcases line.dropWhile p with _ | ⟨a, rest⟩
      · show (sep :: join sep (next :: lines)).dropWhile p = _
        rw [List.dropWhile_cons_of_pos hsep]
        exact ih
      · rfl

theorem rdropWhile_join (hsep : p sep = true) (lines : List (List α)) :
    (join sep lines).rdropWhile p = join sep (trimBack p lines) := by
  induction lines with
  | nil => rfl
  | cons line lines ih =>
    rw [trimBack]
    rcases lines with _ | ⟨next, lines⟩
    · show line.rdropWhile p = join sep (match line.rdropWhile p with | [] => [] | a :: rest => _)
      rcases line.rdropWhile p with _ | ⟨a, rest⟩ <;> rfl
    · have hlast := getLast_trimBack_ne_nil (p := p) (next :: lines)
      rw [join_cons_of_ne_nil line (List.cons_ne_nil _ _), rdropWhile_append, rdropWhile_cons, ih]
      revert hlast
      rcases trimBack p (next :: lines) with _ | ⟨kept, rest⟩ <;> intro hlast
      -- nothing but blanks follows, so `line` is trimmed as the last one
      · have hblank : join sep ([] : List (List α)) = [] ∧ p sep = true := ⟨rfl, hsep⟩
        rw [if_pos hblank, if_pos rfl]
        rcases line.rdropWhile p with _ | ⟨a, rest⟩ <;> rfl
      · have hne := join_ne_nil sep (List.cons_ne_nil kept rest) hlast
        have hfull : ¬ (join sep (kept :: rest) = [] ∧ p sep = true) := fun h => hne h.1
        rw [if_neg hfull, if_neg (List.cons_ne_nil _ _)]
        rfl

/-- **Trimming a joined text trims its lines.** -/
theorem trim_join (hsep : p sep = true) (lines : List (List α)) :
    trim p (join sep lines) = join sep (trimLines p lines) := by
  rw [trim, dropWhile_join hsep, rdropWhile_join hsep, trimLines]

theorem subset_of_mem_trimFront {lines : List (List α)} {line : List α}
    (h : line ∈ trimFront p lines) : ∃ whole ∈ lines, line ⊆ whole := by
  induction lines with
  | nil => cases h
  | cons first lines ih =>
    rw [trimFront] at h
    split at h
    · obtain ⟨whole, hmem, hsub⟩ := ih h
      exact ⟨whole, List.mem_cons_of_mem _ hmem, hsub⟩
    · next hfirst =>
      rcases List.mem_cons.mp h with rfl | h
      · rw [← hfirst]
        exact ⟨first, List.mem_cons_self, (List.dropWhile_suffix p).subset⟩
      · exact ⟨line, List.mem_cons_of_mem _ h, fun _ ha => ha⟩

theorem subset_of_mem_trimBack {lines : List (List α)} {line : List α}
    (h : line ∈ trimBack p lines) : ∃ whole ∈ lines, line ⊆ whole := by
  induction lines with
  | nil => cases h
  | cons first lines ih =>
    rw [trimBack] at h
    split at h
    · next hkept =>
      rcases List.mem_cons.mp h with rfl | h
      · exact ⟨line, List.mem_cons_self, fun _ ha => ha⟩
      · obtain ⟨whole, hmem, hsub⟩ := ih (hkept ▸ h)
        exact ⟨whole, List.mem_cons_of_mem _ hmem, hsub⟩
    · split at h
      · cases h
      · next hfirst =>
        rw [List.mem_singleton.mp h, ← hfirst]
        exact ⟨first, List.mem_cons_self, (List.rdropWhile_prefix p first).subset⟩

/-- A line of a trimmed text is part of a line of the text. -/
theorem subset_of_mem_trimLines {lines : List (List α)} {line : List α}
    (h : line ∈ trimLines p lines) : ∃ whole ∈ lines, line ⊆ whole := by
  obtain ⟨kept, hkept, hsub⟩ := subset_of_mem_trimBack h
  obtain ⟨whole, hmem, hwhole⟩ := subset_of_mem_trimFront hkept
  exact ⟨whole, hmem, fun _ ha => hwhole (hsub ha)⟩

/-! ## The content of lines -/

/-- The lines that are not blank, without the blanks at their ends. -/
def content (p : α → Bool) (lines : List (List α)) : List (List α) :=
  (lines.map (trim p)).filter fun line => !line.isEmpty

theorem content_cons_of_blank {line : List α} (h : trim p line = []) (lines : List (List α)) :
    content p (line :: lines) = content p lines := by
  simp [content, h]

/-- The content of a line depends on what trimming leaves of it. -/
theorem content_cons_congr {line line' : List α} {lines lines' : List (List α)}
    (h : trim p line = trim p line') (hrest : content p lines = content p lines') :
    content p (line :: lines) = content p (line' :: lines') := by
  simp only [content, List.map_cons, List.filter_cons, h] at hrest ⊢
  rw [hrest]

theorem content_trimFront (lines : List (List α)) :
    content p (trimFront p lines) = content p lines := by
  induction lines with
  | nil => rfl
  | cons line lines ih =>
    rw [trimFront]
    split
    · next hline =>
      rw [content_cons_of_blank (by rw [← trim_dropWhile, hline]; rfl), ih]
    · next hline =>
      rw [← hline]
      exact content_cons_congr (trim_dropWhile line) rfl

theorem content_trimBack (lines : List (List α)) :
    content p (trimBack p lines) = content p lines := by
  induction lines with
  | nil => rfl
  | cons line lines ih =>
    rw [trimBack]
    split
    · next hkept =>
      rw [← hkept]
      exact content_cons_congr rfl ih
    · next hkept =>
      rw [hkept] at ih
      split
      · next hline =>
        rw [content_cons_of_blank (by rw [← trim_rdropWhile, hline]; rfl), ih]
      · next hline =>
        rw [← hline]
        exact content_cons_congr (trim_rdropWhile line) ih

/-- **Trimming a text drops no line that is not blank.** -/
theorem content_trimLines (lines : List (List α)) :
    content p (trimLines p lines) = content p lines := by
  rw [trimLines, content_trimBack, content_trimFront]

/-! ## Joining sections -/

theorem join_append {front back : List (List α)} (hfront : front ≠ []) (hback : back ≠ []) :
    join sep (front ++ back) = join sep front ++ sep :: join sep back := by
  induction front with
  | nil => exact absurd rfl hfront
  | cons line front ih =>
    rcases front with _ | ⟨next, front⟩
    · exact join_cons_of_ne_nil line hback
    · rw [List.cons_append, join_cons_of_ne_nil line (by simp), ih (List.cons_ne_nil _ _),
        join_cons_of_ne_nil line (List.cons_ne_nil _ _), List.append_assoc]
      rfl

/-- Joining sections of lines, each joined, joins all their lines. -/
theorem join_map_join {sections : List (List (List α))} (h : ∀ lines ∈ sections, lines ≠ []) :
    join sep (sections.map (join sep)) = join sep sections.flatten := by
  induction sections with
  | nil => rfl
  | cons lines sections ih =>
    have hlines : lines ≠ [] := h lines List.mem_cons_self
    have hrest : ∀ other ∈ sections, other ≠ [] :=
      fun other hother => h other (List.mem_cons_of_mem _ hother)
    rcases sections with _ | ⟨next, sections⟩
    · simp [join]
    · have hflat : (next :: sections).flatten ≠ [] := by
        rw [List.flatten_cons]
        exact List.append_ne_nil_of_left_ne_nil (hrest next List.mem_cons_self) _
      rw [List.map_cons, join_cons_of_ne_nil _ (by simp), ih hrest, ← join_append hlines hflat]
      rfl

/-- The same where the sections that join to the empty text are left out first. -/
theorem join_filter_join {sections : List (List (List α))}
    (h : ∀ lines ∈ sections, ∀ line ∈ lines.getLast?, line ≠ []) :
    join sep ((sections.map (join sep)).filter fun text => !text.isEmpty) =
      join sep sections.flatten := by
  have hempty : (sections.map (join sep)).filter (fun text => !text.isEmpty) =
      (sections.filter fun lines => !lines.isEmpty).map (join sep) := by
    rw [List.filter_map]
    refine congrArg _ (List.filter_congr fun lines hlines => ?_)
    rcases lines with _ | ⟨line, lines⟩
    · rfl
    · have hne := join_ne_nil sep (List.cons_ne_nil line lines) (h _ hlines)
      simp [hne]
  rw [hempty, join_map_join (fun lines hlines => by simpa using (List.mem_filter.mp hlines).2),
    List.flatten_filter_not_isEmpty]

end LineSplit
