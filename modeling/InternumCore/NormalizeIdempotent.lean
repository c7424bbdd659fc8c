import InternumCore.DateNormalization
import InternumCore.NormalizeFrame

/-!
# Normalizing twice

Normalized values are normalized already (`normalization_idempotent`).  Each of the
rewritings of a string is idempotent, but that is not enough: the next pass starts over
with the date.  What makes it true is that neither of the hints makes a date that was
not there before.  A string of digits has no dots; and white space collapses to a single
blank, of which a date has none, so that what has become a date was one, with white space
around it, at the beginning (`normalizeDate_collapsed`).
-/

namespace InternumCore

/-! ## White space -/

section Collapse

variable {afterSpace : Bool} {c : Char} {chars : List Char}

theorem collapseSpace_cons_of_not (h : isSpace c = false) (chars : List Char) :
    collapseSpace afterSpace (c :: chars) = c :: collapseSpace false chars := by
  simp [collapseSpace, h]

theorem collapseSpace_true_cons (h : isSpace c = true) (chars : List Char) :
    collapseSpace true (c :: chars) = collapseSpace true chars := by
  simp [collapseSpace, h]

theorem collapseSpace_false_cons (h : isSpace c = true) (chars : List Char) :
    collapseSpace false (c :: chars) = ' ' :: collapseSpace true chars := by
  simp [collapseSpace, h]

theorem isSpace_blank : isSpace ' ' = true := by decide

theorem collapseSpace_collapseSpace (afterSpace : Bool) (chars : List Char) :
    collapseSpace afterSpace (collapseSpace afterSpace chars) = collapseSpace afterSpace chars := by
  induction chars generalizing afterSpace with
  | nil => rfl
  | cons c chars ih =>
    by_cases hc : isSpace c = true
    · cases afterSpace with
      | true => rw [collapseSpace_true_cons hc, ih]
      | false =>
        rw [collapseSpace_false_cons hc, collapseSpace_false_cons isSpace_blank, ih]
    · rw [Bool.not_eq_true] at hc
      rw [collapseSpace_cons_of_not hc, collapseSpace_cons_of_not hc, ih]

/-- Where no white space is left there was none. -/
theorem collapseSpace_eq_self (h : ∀ c ∈ collapseSpace false chars, isSpace c = false) :
    collapseSpace false chars = chars := by
  induction chars with
  | nil => rfl
  | cons c chars ih =>
    by_cases hc : isSpace c = true
    · rw [collapseSpace_false_cons hc] at h
      have hblank := h ' ' List.mem_cons_self
      rw [isSpace_blank] at hblank
      cases hblank
    · rw [Bool.not_eq_true] at hc
      rw [collapseSpace_cons_of_not hc] at h ⊢
      rw [ih (List.forall_mem_cons.mp h).2]

theorem dropWhile_collapseSpace (afterSpace : Bool) (chars : List Char) :
    (collapseSpace afterSpace chars).dropWhile isSpace =
      collapseSpace false (chars.dropWhile isSpace) := by
  induction chars generalizing afterSpace with
  | nil => rfl
  | cons c chars ih =>
    by_cases hc : isSpace c = true
    · rw [List.dropWhile_cons, if_pos hc]
      cases afterSpace with
      | true => rw [collapseSpace_true_cons hc, ih]
      | false =>
        rw [collapseSpace_false_cons hc, List.dropWhile_cons, if_pos isSpace_blank, ih]
    · rw [Bool.not_eq_true] at hc
      rw [collapseSpace_cons_of_not hc, List.dropWhile_cons, List.dropWhile_cons,
        if_neg (by simp [hc]), if_neg (by simp [hc]), collapseSpace_cons_of_not hc]

/-- Only white space collapses to nothing but white space. -/
theorem forall_isSpace_collapseSpace :
    (∀ c ∈ collapseSpace afterSpace chars, isSpace c = true) ↔ ∀ c ∈ chars, isSpace c = true := by
  induction chars generalizing afterSpace with
  | nil => rfl
  | cons c chars ih =>
    by_cases hc : isSpace c = true
    · cases afterSpace with
      | true => rw [collapseSpace_true_cons hc, ih, List.forall_mem_cons, and_iff_right hc]
      | false =>
        rw [collapseSpace_false_cons hc, List.forall_mem_cons, List.forall_mem_cons, ih,
          and_iff_right hc, and_iff_right isSpace_blank]
    · rw [Bool.not_eq_true] at hc
      rw [collapseSpace_cons_of_not hc, List.forall_mem_cons, List.forall_mem_cons, ih]

theorem rdropWhile_collapseSpace (afterSpace : Bool) (chars : List Char) :
    (collapseSpace afterSpace chars).rdropWhile isSpace =
      collapseSpace afterSpace (chars.rdropWhile isSpace) := by
  induction chars generalizing afterSpace with
  | nil => rfl
  | cons c chars ih =>
    have hnil (afterSpace : Bool) : (collapseSpace afterSpace chars).rdropWhile isSpace = [] ↔
        chars.rdropWhile isSpace = [] := by
      rw [List.rdropWhile_eq_nil_iff, List.rdropWhile_eq_nil_iff]
      exact forall_isSpace_collapseSpace
    rw [LineSplit.rdropWhile_cons isSpace c chars]
    by_cases hc : isSpace c = true
    · by_cases hrest : chars.rdropWhile isSpace = []
      · rw [if_pos ⟨hrest, hc⟩]
        cases afterSpace with
        | true => rw [collapseSpace_true_cons hc, (hnil true).mpr hrest]; rfl
        | false =>
          rw [collapseSpace_false_cons hc, LineSplit.rdropWhile_cons,
            if_pos ⟨(hnil true).mpr hrest, isSpace_blank⟩]
          rfl
      · rw [if_neg fun h => hrest h.1]
        cases afterSpace with
        | true => rw [collapseSpace_true_cons hc, collapseSpace_true_cons hc, ih]
        | false =>
          rw [collapseSpace_false_cons hc, collapseSpace_false_cons hc, LineSplit.rdropWhile_cons,
            if_neg fun h => hrest ((hnil true).mp h.1), ih]
    · rw [if_neg fun h => hc h.2]
      rw [Bool.not_eq_true] at hc
      rw [collapseSpace_cons_of_not hc, collapseSpace_cons_of_not hc, LineSplit.rdropWhile_cons,
        if_neg (by simp [hc]), ih]

/-- It is the same to strip first and to collapse first. -/
theorem stripChars_collapseSpace (chars : List Char) :
    stripChars isSpace (collapseSpace false chars) = collapseSpace false (stripChars isSpace chars) := by
  rw [stripChars, dropWhile_collapseSpace, rdropWhile_collapseSpace, stripChars]

end Collapse

/-! ## Hints -/

/-- The string holds decimal digits only. -/
def OnlyDigits (s : String) : Prop := ∀ c ∈ s.toList, isDigit c = true

section Hints

variable {s : String}

theorem onlyDigits_digits (s : String) : OnlyDigits (applyHint s (.str "digits")) := by
  intro c hc
  rw [applyHint, if_pos rfl, String.toList_ofList] at hc
  exact (List.mem_filter.mp hc).2

theorem toList_collapse (s : String) :
    (applyHint s (.str "collapse-whitespace")).toList =
      collapseSpace false (stripChars isSpace s.toList) := by
  rw [applyHint, if_neg (by decide), if_pos rfl, strip, String.toList_ofList, String.toList_ofList]
  exact stripChars_collapseSpace s.toList

theorem collapse_collapse (s : String) :
    applyHint (applyHint s (.str "collapse-whitespace")) (.str "collapse-whitespace") =
      applyHint s (.str "collapse-whitespace") := by
  rw [← String.toList_inj, toList_collapse, toList_collapse, stripChars_collapseSpace,
    stripChars_stripChars, collapseSpace_collapseSpace]

/-- No hint does anything to digits. -/
theorem applyHint_of_onlyDigits (h : OnlyDigits s) (hint : Json) : applyHint s hint = s := by
  by_cases hdigits : hint = .str "digits"
  · subst hdigits
    rw [applyHint, if_pos rfl, List.filter_eq_self.mpr h, String.ofList_toList]
  · by_cases hcollapse : hint = .str "collapse-whitespace"
    · subst hcollapse
      have hspace : ∀ c ∈ s.toList, isSpace c = false := fun c hc => isSpace_of_isDigit (h c hc)
      have hkept (chars : List Char) (hc : ∀ c ∈ chars, isSpace c = false) :
          collapseSpace false chars = chars := by
        induction chars with
        | nil => rfl
        | cons c chars ih =>
          obtain ⟨hfirst, hrest⟩ := List.forall_mem_cons.mp hc
          rw [collapseSpace_cons_of_not hfirst, ih hrest]
      rw [← String.toList_inj, toList_collapse, stripChars_eq_self hspace, hkept _ hspace]
    · rw [applyHint, if_neg hdigits, if_neg hcollapse]

theorem applyHints_of_onlyDigits (h : OnlyDigits s) (hints : List Json) :
    hints.foldl applyHint s = s := by
  induction hints with
  | nil => rfl
  | cons hint hints ih => rw [List.foldl_cons, applyHint_of_onlyDigits h, ih]

/-- Once the digits are asked for nothing else is left. -/
theorem onlyDigits_applyHints {hints : List Json} (h : .str "digits" ∈ hints) (s : String) :
    OnlyDigits (hints.foldl applyHint s) := by
  induction hints generalizing s with
  | nil => cases h
  | cons hint hints ih =>
    rw [List.foldl_cons]
    rcases List.mem_cons.mp h with rfl | hm
    · rw [applyHints_of_onlyDigits (onlyDigits_digits s)]
      exact onlyDigits_digits s
    · exact ih hm _

/-- Otherwise white space is collapsed, once or several times. -/
theorem applyHints_of_not_mem {hints : List Json} (h : .str "digits" ∉ hints) (s : String) :
    hints.foldl applyHint s =
      if .str "collapse-whitespace" ∈ hints then applyHint s (.str "collapse-whitespace") else s := by
  induction hints generalizing s with
  | nil => rfl
  | cons hint hints ih =>
    rw [List.mem_cons, not_or] at h
    rw [List.foldl_cons, ih h.2]
    by_cases hcollapse : hint = .str "collapse-whitespace"
    · subst hcollapse
      rw [collapse_collapse, ite_self, if_pos List.mem_cons_self]
    · have hnone : applyHint s hint = s :=
        applyHint_eq_self (fun he => he.elim (fun hd => h.1 hd.symm) hcollapse) s
      rw [hnone]
      simp [Ne.symm hcollapse]

end Hints

/-! ## Dates -/

theorem normalizeDate_normalizeDate (s : String) : normalizeDate (normalizeDate s) = normalizeDate s := by
  by_cases hdotted : ∃ day month year, DottedDate (strip s).toList day month year
  · obtain ⟨day, month, year, hd⟩ := hdotted
    rw [normalizeDate_of_dotted hd]
    exact normalizeDate_of_no_dot (dot_not_mem_isoDate _ _ _)
  · have hkept : normalizeDate s = s :=
      normalizeDate_of_not_dotted fun day month year hd => hdotted ⟨day, month, year, hd⟩
    rw [hkept, hkept]

/-- Collapsing makes no dotted date: one has no white space in it, so it was there before. -/
theorem normalizeDate_collapsed {s : String} (h : normalizeDate s = s) :
    normalizeDate (applyHint s (.str "collapse-whitespace")) =
      applyHint s (.str "collapse-whitespace") := by
  refine normalizeDate_of_not_dotted fun day month year hd => ?_
  have hstripped : (strip (applyHint s (.str "collapse-whitespace"))).toList =
      collapseSpace false (stripChars isSpace s.toList) := by
    rw [strip, String.toList_ofList, toList_collapse, stripChars_collapseSpace, stripChars_stripChars]
  rw [hstripped] at hd
  rw [collapseSpace_eq_self hd.isSpace_eq_false] at hd
  refine not_dotted_of_kept h day month year ?_
  rw [strip, String.toList_ofList]
  exact hd

/-! ## Leaves -/

/-- The hints of a schema, a single one as a list. -/
def hintsOf (fields : List (String × Json)) : List Json :=
  match fields.lookup "x-normalize" with
  | some (.str hint) => [.str hint]
  | some (.arr hints) => hints
  | _ => []

/-- What the format makes of a string. -/
def formatted (fields : List (String × Json)) (value : String) : String :=
  if fields.lookup "format" = some (.str "date") then normalizeDate value else value

theorem normalizeLeaf_eq (value : String) (fields : List (String × Json)) :
    normalizeLeaf value fields = (hintsOf fields).foldl applyHint (formatted fields value) := by
  unfold normalizeLeaf hintsOf formatted
  cases fields.lookup "x-normalize" with
  | none => rfl
  | some hints => cases hints <;> rfl

section Leaf

variable (fields : List (String × Json))

theorem formatted_of_kept {s : String} (h : normalizeDate s = s) : formatted fields s = s := by
  unfold formatted
  rw [h, ite_self]

/-- **A leaf.**  Once it is formatted neither the date nor the hints change what the hints
have made of it. -/
theorem normalizeLeaf_normalizeLeaf (value : String) :
    normalizeLeaf (normalizeLeaf value fields) fields = normalizeLeaf value fields := by
  rw [normalizeLeaf_eq, normalizeLeaf_eq]
  obtain ⟨t, ht⟩ : ∃ t, t = formatted fields value := ⟨_, rfl⟩
  rw [← ht]
  have hformatted : formatted fields t = t := by
    rw [ht]
    unfold formatted
    split
    · exact normalizeDate_normalizeDate value
    · rfl
  by_cases hdigits : .str "digits" ∈ hintsOf fields
  · have honly := onlyDigits_applyHints hdigits t
    have hdot : '.' ∉ ((hintsOf fields).foldl applyHint t).toList := fun hdot => by
      cases honly '.' hdot
    rw [formatted_of_kept fields (normalizeDate_of_no_dot hdot)]
    exact applyHints_of_onlyDigits honly _
  · rw [applyHints_of_not_mem hdigits, applyHints_of_not_mem hdigits]
    by_cases hcollapse : .str "collapse-whitespace" ∈ hintsOf fields
    · rw [if_pos hcollapse, if_pos hcollapse]
      have hkept : formatted fields (applyHint t (.str "collapse-whitespace")) =
          applyHint t (.str "collapse-whitespace") := by
        unfold formatted at hformatted ⊢
        split at hformatted
        · next hdate =>
          rw [if_pos hdate]
          exact normalizeDate_collapsed hformatted
        · next hdate => rw [if_neg hdate]
      rw [hkept, collapse_collapse]
    · rw [if_neg hcollapse, if_neg hcollapse, hformatted]

end Leaf

/-! ## Values -/

theorem normalizeNode_normalizeNode {schema : Json} (hwf : schema.wellFormed = true) :
    (∀ v, normalizeNode (normalizeNode v schema) schema = normalizeNode v schema) ∧
      ∀ fields, schema = .obj fields → ∀ name sub, (name, sub) ∈ fields → ∀ v,
        normalizeNode (normalizeNode v sub) sub = normalizeNode v sub := by
  -- on the schema; the second half is for the members of `properties`, two levels down
  induction schema using Json.treeInduction with
  | obj fields ih =>
    have hsubs := (Json.wellFormed_obj_iff.mp hwf).2
    refine ⟨fun v => ?_, ?_⟩
    · cases v with
      | obj entries =>
        rw [normalizeNode_eq (.obj entries)]
        dsimp only
        split
        · next properties hp =>
          have hm := Dict.mem_of_lookup hp
          have hnodup := (Json.wellFormed_obj_iff.mp (hsubs _ _ hm)).1
          rw [normalizeNode_eq]
          dsimp only
          rw [hp]
          refine congrArg Json.obj (Dict.modifyEach_modifyEach hnodup ?_ entries)
          exact (ih _ _ hm (hsubs _ _ hm)).2 properties rfl
        · next hno =>
          rw [normalizeNode_eq]
          dsimp only
          split
          · next properties hp => exact absurd hp (hno properties)
          · rfl
      | arr items =>
        rw [normalizeNode_eq (.arr items)]
        dsimp only
        split
        · next sub hi =>
          have hm := Dict.mem_of_lookup hi
          rw [normalizeNode_eq]
          dsimp only
          rw [hi]
          dsimp only
          rw [List.map_map]
          exact congrArg Json.arr (List.map_congr_left fun w _ => (ih _ _ hm (hsubs _ _ hm)).1 w)
        · next hno =>
          rw [normalizeNode_eq]
          dsimp only
          split
          · next sub hi => exact absurd hi (hno sub)
          · rfl
      | str s =>
        rw [normalizeNode_eq, normalizeNode_eq]
        exact congrArg Json.str (normalizeLeaf_normalizeLeaf fields s)
      | _ => rw [normalizeNode_eq, normalizeNode_eq]
    · rintro fields' ⟨⟩ name sub hm
      exact (ih name sub hm (hsubs _ _ hm)).1
  | _ =>
    refine ⟨fun v => ?_, fun fields h => by cases h⟩
    rw [normalizeNode_not_object (by simp), normalizeNode_not_object (by simp)]

/-- **Normalizing is idempotent**, whatever the value and whatever the hints of the
schema. -/
theorem normalization_idempotent (v : Json) (schema : JsonValue) :
    normalizeValues (normalizeValues v schema.1) schema.1 = normalizeValues v schema.1 :=
  (normalizeNode_normalizeNode schema.2).1 v

end InternumCore
