import Mathlib.Algebra.Ring.Nat
import InternumCore.Postprocess

/-!
# Dates

A string of the form day.month.year is turned around to year-month-day.  What the
pattern of `_normalize_date` matches is said without it (`DottedDate`), and
`date_conversion_iff` compares the conversion with the Gregorian calendar: the
pattern knows nothing of the lengths of the months, so a date that does not exist
comes out as one that does not exist either, in a form that looks as if it did.
-/

namespace InternumCore

/-! ## Digits -/

/-- What `str.isspace` admits lies outside the decimal digits. -/
theorem isSpace_of_isDigit {c : Char} (h : isDigit c = true) : isSpace c = false := by
  obtain ⟨n, hn⟩ := Option.isSome_iff_exists.mp h
  obtain ⟨z, hz, hrange⟩ := List.exists_of_findSome?_eq_some hn
  have hbetween : z ≤ c.toNat ∧ c.toNat ≤ z + 9 := by
    by_contra hno
    rw [if_neg hno] at hrange
    cases hrange
  -- no ten consecutive digits reach into one of the ranges of white space
  have hapart : ∀ z ∈ decimalZeros,
      0x20 < z ∧ (z + 9 < 0x85 ∨ 0x85 < z) ∧ (z + 9 < 0xA0 ∨ 0xA0 < z) ∧
        (z + 9 < 0x1680 ∨ 0x1680 < z) ∧ (z + 9 < 0x2000 ∨ 0x205F < z) ∧
        (z + 9 < 0x3000 ∨ 0x3000 < z) := by
    decide
  have hz' := hapart z hz
  unfold isSpace
  simp only [Bool.or_eq_false_iff, Bool.and_eq_false_iff, decide_eq_false_iff_not, beq_eq_false_iff_ne]
  omega

theorem dot_not_digit : isDigit '.' = false := by decide

theorem digitValue_le {c : Char} : (digitValue c).getD 0 ≤ 9 := by
  unfold digitValue
  cases h : decimalZeros.findSome? fun z =>
      if z ≤ c.toNat ∧ c.toNat ≤ z + 9 then some (c.toNat - z) else none with
  | none => simp
  | some n =>
    obtain ⟨z, -, hn⟩ := List.exists_of_findSome?_eq_some h
    split at hn
    · cases hn
      simp
      omega
    · cases hn

/-- As many digits, as many powers of ten. -/
theorem intOfDigits_lt (digits : List Char) : intOfDigits digits < 10 ^ digits.length := by
  have hfold (digits : List Char) (n k : Nat) (hn : n < 10 ^ k) :
      digits.foldl (fun n c => 10 * n + (digitValue c).getD 0) n < 10 ^ (k + digits.length) := by
    induction digits generalizing n k with
    | nil => exact hn
    | cons c digits ih =>
      have hc := @digitValue_le c
      have hnext : 10 * n + (digitValue c).getD 0 < 10 ^ (k + 1) := by
        rw [Nat.pow_succ]
        omega
      have hrest := ih _ (k + 1) hnext
      rw [List.length_cons]
      rwa [Nat.add_assoc, Nat.add_comm 1] at hrest
  have hall := hfold digits 0 0 (by decide)
  rwa [Nat.zero_add] at hall

theorem zeroPadded_ascii (width n : Nat) : ∀ c ∈ zeroPadded width n, c.isDigit = true := by
  intro c hc
  rcases List.mem_append.mp hc with hzero | hdigit
  · obtain rfl := List.eq_of_mem_replicate hzero
    decide
  · exact Nat.isDigit_of_mem_toDigits (by decide) (by decide) hdigit

theorem length_zeroPadded {width n : Nat} (hwidth : 0 < width) (h : n < 10 ^ width) :
    (zeroPadded width n).length = width := by
  have hlen := (Nat.length_toDigits_le_iff (b := 10) (by decide) hwidth).mpr h
  unfold zeroPadded
  dsimp only
  rw [List.length_append, List.length_replicate]
  omega

/-- Padding with zeros does not change the number. -/
theorem intOfDigits_zeroPadded (width n : Nat) : intOfDigits (zeroPadded width n) = n := by
  rw [intOfDigits_ascii (zeroPadded_ascii width n)]
  unfold zeroPadded
  dsimp only
  rw [Nat.ofDigitChars_append, Nat.ofDigitChars_replicate_zero, Nat.mul_zero,
    Nat.ofDigitChars_ten_toDigits]

/-! ## The pattern -/

/-- Day, month and year with dots between them, and at most one after them. -/
structure DottedDate (chars day month year : List Char) : Prop where
  day_length : day.length = 1 ∨ day.length = 2
  month_length : month.length = 1 ∨ month.length = 2
  year_length : year.length = 4
  digits : ∀ c ∈ day ++ month ++ year, isDigit c = true
  form : ∃ tail, (tail = [] ∨ tail = ['.']) ∧ chars = day ++ '.' :: (month ++ '.' :: (year ++ tail))

section Pattern

variable {chars day month year : List Char}

theorem DottedDate.dot_not_mem (h : DottedDate chars day month year) :
    '.' ∉ day ∧ '.' ∉ month ∧ '.' ∉ year := by
  have hno {part : List Char} (hpart : ∀ c ∈ part, c ∈ day ++ month ++ year) : '.' ∉ part := by
    intro hm
    have hdigit := h.digits '.' (hpart '.' hm)
    rw [dot_not_digit] at hdigit
    cases hdigit
  refine ⟨hno fun c hc => ?_, hno fun c hc => ?_, hno fun c hc => ?_⟩ <;> simp [hc]

/-- **The pattern** matches the dotted dates, and its groups are their parts. -/
theorem croatianDate_eq_some_iff :
    croatianDate chars = some (day, month, year) ↔ DottedDate chars day month year := by
  have hjoin : ['.'].intercalate (chars.splitOn '.') = chars := List.intercalate_splitOn '.'
  constructor
  · intro h
    unfold croatianDate at h
    dsimp only at h
    split at h
    · next d m y hsplit =>
      split at h
      · next hgroups =>
        cases h
        obtain ⟨hday, hmonth, hyear, hdigits⟩ := hgroups
        rw [hsplit] at hjoin
        exact ⟨hday, hmonth, hyear, List.all_eq_true.mp hdigits, [], Or.inl rfl,
          by simpa using hjoin.symm⟩
      · cases h
    · next d m y hsplit =>
      split at h
      · next hgroups =>
        cases h
        obtain ⟨hday, hmonth, hyear, hdigits⟩ := hgroups
        rw [hsplit] at hjoin
        exact ⟨hday, hmonth, hyear, List.all_eq_true.mp hdigits, ['.'], Or.inr rfl,
          by simpa using hjoin.symm⟩
      · cases h
    · cases h
  · intro h
    obtain ⟨hday, hmonth, hyear⟩ := h.dot_not_mem
    have hgroups := And.intro h.day_length (And.intro h.month_length
      (And.intro h.year_length (List.all_eq_true.mpr h.digits)))
    obtain ⟨tail, htail, rfl⟩ := h.form
    unfold croatianDate
    dsimp only
    rw [List.splitOn_append_cons_self_of_not_mem hday, List.splitOn_append_cons_self_of_not_mem hmonth]
    rcases htail with rfl | rfl
    · rw [List.append_nil, List.splitOn_eq_singleton hyear]
      exact if_pos hgroups
    · rw [List.splitOn_append_cons_self_of_not_mem hyear, List.splitOn_nil]
      exact if_pos hgroups

theorem DottedDate.unique {day' month' year' : List Char} (h : DottedDate chars day month year)
    (h' : DottedDate chars day' month' year') : day = day' ∧ month = month' ∧ year = year' := by
  have hgroups := (croatianDate_eq_some_iff.mpr h).symm.trans (croatianDate_eq_some_iff.mpr h')
  simpa using hgroups

theorem DottedDate.dot_mem (h : DottedDate chars day month year) : '.' ∈ chars := by
  obtain ⟨tail, -, rfl⟩ := h.form
  simp

/-- No dotted date has white space in it. -/
theorem DottedDate.isSpace_eq_false (h : DottedDate chars day month year) :
    ∀ c ∈ chars, isSpace c = false := by
  intro c hc
  by_cases hdot : c = '.'
  · subst hdot
    decide
  · obtain ⟨tail, htail, rfl⟩ := h.form
    refine isSpace_of_isDigit (h.digits c ?_)
    rcases htail with rfl | rfl <;> simpa [hdot] using hc

end Pattern

/-! ## What a date becomes -/

/-- `YYYY-MM-DD`. -/
def isoDate (year month day : Nat) : String :=
  String.ofList (zeroPadded 4 year ++ '-' :: zeroPadded 2 month ++ '-' :: zeroPadded 2 day)

section Conversion

variable {s : String} {day month year : List Char}

theorem normalizeDate_of_dotted (h : DottedDate (strip s).toList day month year) :
    normalizeDate s = isoDate (intOfDigits year) (intOfDigits month) (intOfDigits day) := by
  unfold normalizeDate
  rw [croatianDate_eq_some_iff.mpr h]
  rfl

theorem normalizeDate_of_not_dotted
    (h : ∀ day month year, ¬DottedDate (strip s).toList day month year) : normalizeDate s = s := by
  unfold normalizeDate
  cases hd : croatianDate (strip s).toList with
  | none => rfl
  | some groups =>
    obtain ⟨day, month, year⟩ := groups
    exact absurd (croatianDate_eq_some_iff.mp hd) (h day month year)

theorem DottedDate.dot_mem_of_strip (h : DottedDate (strip s).toList day month year) :
    '.' ∈ s.toList := by
  have hdot := h.dot_mem
  rw [strip, String.toList_ofList] at hdot
  exact mem_of_mem_stripChars hdot

/-- Without a dot there is no dotted date. -/
theorem normalizeDate_of_no_dot (h : '.' ∉ s.toList) : normalizeDate s = s :=
  normalizeDate_of_not_dotted fun _ _ _ hd => h hd.dot_mem_of_strip

theorem dot_not_mem_isoDate (year month day : Nat) : '.' ∉ (isoDate year month day).toList := by
  intro hdot
  have hzero (width n : Nat) : '.' ∉ zeroPadded width n :=
    fun hm => absurd (zeroPadded_ascii width n '.' hm) (by decide)
  rw [isoDate, String.toList_ofList] at hdot
  simp [hzero] at hdot

/-- A string that the conversion leaves is no dotted date: it would lose its dots. -/
theorem not_dotted_of_kept (h : normalizeDate s = s) (day month year : List Char) :
    ¬DottedDate (strip s).toList day month year := by
  intro hd
  have hdot := hd.dot_mem_of_strip
  rw [← h, normalizeDate_of_dotted hd] at hdot
  exact dot_not_mem_isoDate _ _ _ hdot

end Conversion

/-! ## The calendar -/

def IsLeapYear (year : Nat) : Prop := year % 4 = 0 ∧ (year % 100 ≠ 0 ∨ year % 400 = 0)

instance (year : Nat) : Decidable (IsLeapYear year) := inferInstanceAs (Decidable (_ ∧ _))

def daysInMonth (year month : Nat) : Nat :=
  if month = 2 then (if IsLeapYear year then 29 else 28)
  else if month = 4 ∨ month = 6 ∨ month = 9 ∨ month = 11 then 30
  else 31

/-- A date of the Gregorian calendar. -/
def IsCalendarDate (year month day : Nat) : Prop :=
  1 ≤ year ∧ (1 ≤ month ∧ month ≤ 12) ∧ (1 ≤ day ∧ day ≤ daysInMonth year month)

instance (year month day : Nat) : Decidable (IsCalendarDate year month day) :=
  inferInstanceAs (Decidable (_ ∧ _))

/-- The string is a dotted date that exists, with white space around it or not. -/
def DenotesDate (s : String) (year month day : Nat) : Prop :=
  ∃ dayChars monthChars yearChars, DottedDate (strip s).toList dayChars monthChars yearChars ∧
    intOfDigits yearChars = year ∧ intOfDigits monthChars = month ∧ intOfDigits dayChars = day ∧
    IsCalendarDate year month day

/-- The string has the form of an ISO date and is none. -/
def LooksLikeDate (s : String) : Prop :=
  ∃ year month day : List Char, s.toList = year ++ '-' :: (month ++ '-' :: day) ∧
    year.length = 4 ∧ month.length = 2 ∧ day.length = 2 ∧
    (∀ c ∈ year ++ month ++ day, c.isDigit = true) ∧
    ¬IsCalendarDate (intOfDigits year) (intOfDigits month) (intOfDigits day)

/-- What the conversion is to make of a string: a date of its own, and of anything
else the string itself, and never the look of a date. -/
structure ConvertsDate (s result : String) : Prop where
  date : ∀ year month day, DenotesDate s year month day → result = isoDate year month day
  other : (∀ year month day, ¬DenotesDate s year month day) → result = s
  honest : ¬LooksLikeDate result

section Calendar

variable {s : String} {day month year : List Char}

theorem LooksLikeDate.dot_not_mem (h : LooksLikeDate s) : '.' ∉ s.toList := by
  obtain ⟨year, month, day, hs, -, -, -, hdigits, -⟩ := h
  intro hdot
  rw [hs] at hdot
  have hmem : '.' ∈ year ++ month ++ day := by simpa using hdot
  exact absurd (hdigits '.' hmem) (by decide)

/-- A date is read back from its ISO form. -/
theorem not_looksLikeDate_isoDate {year month day : Nat} (hyear : year < 10 ^ 4)
    (hmonth : month < 10 ^ 2) (h : IsCalendarDate year month day) :
    ¬LooksLikeDate (isoDate year month day) := by
  intro hlooks
  obtain ⟨y, m, d, hs, hylen, hmlen, -, -, hno⟩ := hlooks
  rw [isoDate, String.toList_ofList, List.append_assoc] at hs
  obtain ⟨rfl, hrest⟩ := List.append_inj hs (by rw [length_zeroPadded (by decide) hyear, hylen])
  rw [List.cons_append, List.cons.injEq] at hrest
  obtain ⟨rfl, hlast⟩ :=
    List.append_inj hrest.2 (by rw [length_zeroPadded (by decide) hmonth, hmlen])
  obtain rfl : zeroPadded 2 day = d := (List.cons.inj hlast).2
  rw [intOfDigits_zeroPadded, intOfDigits_zeroPadded, intOfDigits_zeroPadded] at hno
  exact hno h

theorem DottedDate.value_lt {chars : List Char} (h : DottedDate chars day month year) :
    intOfDigits year < 10 ^ 4 ∧ intOfDigits month < 10 ^ 2 := by
  have hyear := intOfDigits_lt year
  have hmonth := intOfDigits_lt month
  rw [h.year_length] at hyear
  refine ⟨hyear, hmonth.trans_le (Nat.pow_le_pow_right (by decide) ?_)⟩
  rcases h.month_length with hm | hm <;> omega

/-- **The conversion of one string** is right exactly when a dotted date in it exists
and it does not itself look like a date that does not. -/
theorem convertsDate_normalizeDate_iff :
    ConvertsDate s (normalizeDate s) ↔
      (∀ day month year, DottedDate (strip s).toList day month year →
        IsCalendarDate (intOfDigits year) (intOfDigits month) (intOfDigits day)) ∧
      ¬LooksLikeDate s := by
  by_cases hdotted : ∃ day month year, DottedDate (strip s).toList day month year
  · obtain ⟨day, month, year, hd⟩ := hdotted
    have hlooks : ¬LooksLikeDate s := fun h => h.dot_not_mem hd.dot_mem_of_strip
    have hconverted := normalizeDate_of_dotted hd
    constructor
    · intro h
      refine ⟨fun day' month' year' hd' => ?_, hlooks⟩
      obtain ⟨rfl, rfl, rfl⟩ := hd.unique hd'
      by_contra hno
      -- otherwise the string would have to stay
      have hkept : normalizeDate s = s := by
        refine h.other fun y m d hdenotes => ?_
        obtain ⟨day', month', year', hd', rfl, rfl, rfl, hdate⟩ := hdenotes
        obtain ⟨rfl, rfl, rfl⟩ := hd.unique hd'
        exact hno hdate
      exact not_dotted_of_kept hkept day month year hd
    · intro h
      have hdate := h.1 day month year hd
      obtain ⟨hyear, hmonth⟩ := hd.value_lt
      rw [hconverted]
      refine ⟨fun y m d hdenotes => ?_, fun hno => ?_, not_looksLikeDate_isoDate hyear hmonth hdate⟩
      · obtain ⟨day', month', year', hd', rfl, rfl, rfl, -⟩ := hdenotes
        obtain ⟨rfl, rfl, rfl⟩ := hd.unique hd'
        rfl
      · exact absurd ⟨day, month, year, hd, rfl, rfl, rfl, hdate⟩ (hno _ _ _)
  · have hnone (day month year : List Char) : ¬DottedDate (strip s).toList day month year :=
      fun hd => hdotted ⟨day, month, year, hd⟩
    rw [normalizeDate_of_not_dotted hnone]
    constructor
    · exact fun h => ⟨fun day month year hd => absurd hd (hnone day month year), h.honest⟩
    · intro h
      refine ⟨fun y m d hdenotes => ?_, fun _ => rfl, h.2⟩
      obtain ⟨day, month, year, hd, -⟩ := hdenotes
      exact absurd hd (hnone day month year)

end Calendar

/-- A schema that asks for dates and for nothing else rewrites a string to what
`_normalize_date` makes of it. -/
theorem normalizeValues_date {fields : List (String × Json)}
    (hformat : fields.lookup "format" = some (.str "date"))
    (hhints : fields.lookup "x-normalize" = none) (s : String) :
    normalizeValues (.str s) (.obj fields) = .str (normalizeDate s) := by
  rw [normalizeValues, normalizeNode_eq]
  simp [normalizeLeaf, hformat, hhints]

/-- **Dates are converted as they should** exactly when a dotted date in the string
exists and the string does not itself look like a date that does not. -/
theorem date_conversion_iff (fields : List (String × Json))
    (hformat : fields.lookup "format" = some (.str "date"))
    (hhints : fields.lookup "x-normalize" = none) (s : String) :
    (∃ result, normalizeValues (.str s) (.obj fields) = .str result ∧ ConvertsDate s result) ↔
      (∀ day month year, DottedDate (strip s).toList day month year →
        IsCalendarDate (intOfDigits year) (intOfDigits month) (intOfDigits day)) ∧
      ¬LooksLikeDate s := by
  rw [normalizeValues_date hformat hhints, ← convertsDate_normalizeDate_iff]
  constructor
  · intro h
    obtain ⟨result, heq, h⟩ := h
    obtain rfl := Json.str.inj heq
    exact h
  · exact fun h => ⟨_, rfl, h⟩

/-- The theorem on the last day of February in a leap year. -/
theorem leap_day_conversion_iff :
    (∃ result, normalizeValues (.str " 29.2.2024. ") (.obj [("format", .str "date")]) = .str result ∧
        ConvertsDate " 29.2.2024. " result) ↔
      (∀ day month year, DottedDate (strip " 29.2.2024. ").toList day month year →
        IsCalendarDate (intOfDigits year) (intOfDigits month) (intOfDigits day)) ∧
      ¬LooksLikeDate " 29.2.2024. " :=
  date_conversion_iff [("format", .str "date")] rfl rfl " 29.2.2024. "

/-- February has no 31st day, but it comes out as one. -/
theorem february_31_converted :
    normalizeValues (.str "31.02.2024") (.obj [("format", .str "date")]) = .str "2024-02-31" ∧
      ¬∃ result, normalizeValues (.str "31.02.2024") (.obj [("format", .str "date")]) = .str result ∧
        ConvertsDate "31.02.2024" result := by
  have hresult : normalizeDate "31.02.2024" = "2024-02-31" := by decide +kernel
  have hvalues : normalizeValues (.str "31.02.2024") (.obj [("format", .str "date")]) =
      .str "2024-02-31" := by
    rw [normalizeValues_date rfl rfl, hresult]
  refine ⟨hvalues, fun h => ?_⟩
  obtain ⟨result, heq, h⟩ := h
  rw [hvalues] at heq
  obtain rfl := Json.str.inj heq
  refine h.honest ⟨['2', '0', '2', '4'], ['0', '2'], ['3', '1'], by decide +kernel, rfl, rfl, rfl,
    List.all_eq_true.mp rfl, by decide +kernel⟩

end InternumCore
