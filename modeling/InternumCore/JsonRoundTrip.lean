import Mathlib.Tactic.NormNum
import InternumCore.JsonPointer
import InternumCore.JsonText

/-!
# What is printed can be read

`loads (dumps v)` is `v`, with its keys in order if they were sorted for printing
(`loads_dumps`).  `Printable` says of which values and to which depth.

Every reading function is met with what the printing function wrote followed by any
rest, so that the results compose.  A number is the exception: what follows it must
not go on with it (`EndsNumber`).
-/

namespace InternumCore.JsonText

/-! ## Strings -/

theorem hexValue_digitChar : ∀ d < 16, hexValue (Nat.digitChar d) = some d := by decide

theorem scanUnit_unitDigits {unit : Nat} (h : unit < 65536) (rest : List Char) :
    scanUnit (unitDigits unit ++ rest) = .ok (unit, rest) := by
  have hdigit (n : Nat) : hexValue (Nat.digitChar (n % 16)) = some (n % 16) :=
    hexValue_digitChar _ (Nat.mod_lt n (by omega))
  have hvalue : ((unit / 4096 % 16 * 16 + unit / 256 % 16) * 16 + unit / 16 % 16) * 16 + unit % 16 =
      unit := by omega
  simp only [unitDigits, List.cons_append, List.nil_append, scanUnit, hdigit, hvalue]

/-- A character is no surrogate. -/
theorem toNat_valid (c : Char) : c.toNat < 0xD800 ∨ 0xDFFF < c.toNat ∧ c.toNat < 0x110000 :=
  c.valid

/-- A character of the basic plane is read back from one escape. -/
theorem scanUnicode_unit {c : Char} (h : c.toNat < 0x10000) (rest : List Char) :
    scanUnicode (unitDigits c.toNat ++ rest) = .ok (c, rest) := by
  have hvalid := toNat_valid c
  have hhigh : isHighSurrogate c.toNat = false := by
    simp only [isHighSurrogate, decide_eq_false_iff_not]
    omega
  have hlow : isLowSurrogate c.toNat = false := by
    simp only [isLowSurrogate, decide_eq_false_iff_not]
    omega
  rw [scanUnicode, scanUnit_unitDigits h]
  simp [bind, Except.bind, pure, Except.pure, hhigh, hlow]

/-- The halves of a surrogate pair make up the character. -/
theorem surrogates_join {n : Nat} (h : 0x10000 ≤ n) (hn : n < 0x110000) :
    0x10000 + (0xD800 + (n - 0x10000) / 0x400 % 0x400 - 0xD800) * 0x400 +
      (0xDC00 + (n - 0x10000) % 0x400 - 0xDC00) = n := by
  omega

/-- Any other one from the two halves of a surrogate pair. -/
theorem scanUnicode_pair {c : Char} (h : 0x10000 ≤ c.toNat) (rest : List Char) :
    scanUnicode (unitDigits (0xD800 + (c.toNat - 0x10000) / 0x400 % 0x400) ++
      (escapeUnit (0xDC00 + (c.toNat - 0x10000) % 0x400) ++ rest)) = .ok (c, rest) := by
  have hvalid := toNat_valid c
  have hjoin := surrogates_join h (by omega)
  obtain ⟨high, hhigh⟩ : ∃ n, n = 0xD800 + (c.toNat - 0x10000) / 0x400 % 0x400 := ⟨_, rfl⟩
  obtain ⟨low, hlow⟩ : ∃ n, n = 0xDC00 + (c.toNat - 0x10000) % 0x400 := ⟨_, rfl⟩
  rw [← hhigh, ← hlow] at hjoin ⊢
  have hishigh : isHighSurrogate high = true := by
    simp only [isHighSurrogate, decide_eq_true_iff]
    omega
  have hislow : isLowSurrogate low = true := by
    simp only [isLowSurrogate, decide_eq_true_iff]
    omega
  rw [scanUnicode, scanUnit_unitDigits (by omega)]
  simp only [bind, Except.bind, hishigh, if_true, escapeUnit, List.cons_append, scanLow]
  rw [scanUnit_unitDigits (by omega)]
  simp only [hislow, if_true, hjoin, Char.ofNat_toNat]
  rfl

theorem letterEscapes_shortEscapes :
    ∀ p ∈ shortEscapes, letterEscapes.lookup p.2 = some p.1 ∧ p.2 ≠ 'u' := by
  simp [shortEscapes, letterEscapes, List.lookup_cons]

section Characters

variable (style : DumpStyle) (turns : Nat) (rest : List Char)

/-- One more turn of the loop, in which a character has been read. -/
def consRead (c : Char) : Scanned (List Char × List Char) := do
  let (chars, rest) ← scanChars turns rest
  return (c :: chars, rest)

theorem scanChars_escape {c : Char} {text : List Char} (h : scanEscape text = .ok (c, rest)) :
    scanChars (turns + 1) ('\\' :: text) = consRead turns rest c := by
  rw [scanChars, if_neg (by decide), if_pos rfl, h]
  rfl

/-- What a character is escaped to reads as that character. -/
theorem scanChars_escapeChar (c : Char) :
    scanChars (turns + 1) (escapeChar style c ++ rest) = consRead turns rest c := by
  unfold escapeChar
  cases hshort : shortEscapes.lookup c with
  | some letter =>
    obtain ⟨hletter, hu⟩ := letterEscapes_shortEscapes _ (Dict.mem_of_lookup hshort)
    refine scanChars_escape turns rest ?_
    show scanEscape (letter :: rest) = _
    rw [scanEscape, if_neg hu, hletter]
  | none =>
    dsimp only
    by_cases hescape : mustEscape style c = true
    · rw [if_pos hescape]
      by_cases hunit : c.toNat < 0x10000
      · rw [if_pos hunit]
        exact scanChars_escape turns rest (scanUnicode_unit hunit rest)
      · rw [if_neg hunit, List.append_assoc]
        exact scanChars_escape turns rest (scanUnicode_pair (not_lt.mp hunit) rest)
    · rw [if_neg hescape]
      simp only [mustEscape, Bool.or_eq_true, decide_eq_true_eq, not_or] at hescape
      have hquote : c ≠ '\"' := by rintro rfl; simp [shortEscapes] at hshort
      have hslash : c ≠ '\\' := by rintro rfl; simp [shortEscapes] at hshort
      rw [List.cons_append, scanChars, if_neg hquote, if_neg hslash, if_neg (by omega)]
      rfl

end Characters

theorem scanChars_escapeChars (style : DumpStyle) {chars : List Char} {turns : Nat}
    (h : chars.length < turns) (rest : List Char) :
    scanChars turns (escapeChars style chars ++ '\"' :: rest) = .ok (chars, rest) := by
  induction chars generalizing turns with
  | nil =>
    obtain ⟨turns, rfl⟩ := Nat.exists_eq_add_of_lt h
    rfl
  | cons c chars ih =>
    obtain ⟨turns, rfl⟩ := Nat.exists_eq_succ_of_ne_zero (Nat.ne_of_gt (Nat.zero_lt_of_lt h))
    rw [List.length_cons] at h
    have hrest := ih (by omega : chars.length < turns)
    rw [escapeChars] at hrest
    rw [escapeChars, List.flatMap_cons, List.append_assoc, scanChars_escapeChar, consRead, hrest]
    rfl

theorem escapeChar_ne_nil (style : DumpStyle) (c : Char) : escapeChar style c ≠ [] := by
  unfold escapeChar escapeUnit
  split
  · simp
  · split
    · split <;> simp
    · simp

theorem length_le_escapeChars (style : DumpStyle) (chars : List Char) :
    chars.length ≤ (escapeChars style chars).length := by
  induction chars with
  | nil => exact Nat.zero_le _
  | cons c chars ih =>
    have hpos := List.length_pos_iff.mpr (escapeChar_ne_nil style c)
    rw [escapeChars, List.flatMap_cons, List.length_append, List.length_cons]
    rw [escapeChars] at ih
    omega

/-- A printed string is read back, behind its first quote. -/
theorem scanString_dumpString (style : DumpStyle) (s : String) (rest : List Char) :
    scanString ((dumpString style s).tail ++ rest) = .ok (s, rest) := by
  have hlength := length_le_escapeChars style s.toList
  unfold scanString
  rw [dumpString, List.tail_cons, List.append_assoc, List.singleton_append,
    scanChars_escapeChars style (by simp; omega) rest]
  show Except.ok (String.ofList s.toList, rest) = _
  rw [String.ofList_toList]

/-! ## Numbers -/

/-- The text does not go on with a digit. -/
def NoDigit (rest : List Char) : Prop := ∀ c ∈ rest.head?, c.isDigit = false

/-- A number that stands before the text ends there. -/
def EndsNumber (rest : List Char) : Prop :=
  ∀ c ∈ rest.head?, c.isDigit = false ∧ c ≠ '.' ∧ c ≠ 'e' ∧ c ≠ 'E'

/-- The integer part of a number. -/
structure IsInteger (digits : List Char) : Prop where
  ne_nil : digits ≠ []
  all_digits : ∀ c ∈ digits, c.isDigit = true
  no_leading_zero : digits = ['0'] ∨ digits.head? ≠ some '0'

/-- `.` and digits, or nothing. -/
inductive IsFraction : List Char → Prop
  | none : IsFraction []
  | some {digits : List Char} (h : digits ≠ []) (hd : ∀ c ∈ digits, c.isDigit = true) :
      IsFraction ('.' :: digits)

/-- `e`, a sign and digits, or nothing. -/
inductive IsExponent : List Char → Prop
  | none : IsExponent []
  | some {sign : Char} {digits : List Char} (hs : sign = '+' ∨ sign = '-') (h : digits ≠ [])
      (hd : ∀ c ∈ digits, c.isDigit = true) : IsExponent ('e' :: sign :: digits)

section Numbers

variable {digits fraction exponent rest : List Char}

theorem EndsNumber.noDigit (h : EndsNumber rest) : NoDigit rest := fun c hc => (h c hc).1

theorem endsNumber_nil : EndsNumber [] := by
  intro c hc
  cases hc

theorem takeWhile_digits (hd : ∀ c ∈ digits, c.isDigit = true) (hr : NoDigit rest) :
    (digits ++ rest).takeWhile Char.isDigit = digits := by
  rw [List.takeWhile_append_of_pos hd]
  cases rest with
  | nil => simp
  | cons c rest =>
    have hc := hr c rfl
    simp [hc]

theorem integerPart_append (hd : IsInteger digits) (hr : NoDigit rest) :
    integerPart (digits ++ rest) = digits := by
  have hall := takeWhile_digits hd.all_digits hr
  unfold integerPart
  rcases hd.no_leading_zero with rfl | hhead
  · rfl
  · split
    · next heq =>
      -- only a leading zero is cut off
      have hfirst : (digits ++ rest).head? = digits.head? := List.head?_append_of_ne_nil _ hd.ne_nil
      rw [heq] at hfirst
      exact absurd hfirst.symm hhead
    · exact hall

theorem noDigit_exponent (he : IsExponent exponent) (hr : EndsNumber rest) :
    NoDigit (exponent ++ rest) := by
  intro c hc
  cases he with
  | none => exact (hr c hc).1
  | some =>
    obtain rfl : 'e' = c := by simpa using hc
    decide

theorem noDigit_fraction (hf : IsFraction fraction) (hr : NoDigit rest) :
    NoDigit (fraction ++ rest) := by
  intro c hc
  cases hf with
  | none => exact hr c hc
  | some =>
    obtain rfl : '.' = c := by simpa using hc
    decide

theorem exponentPart_append (he : IsExponent exponent) (hr : EndsNumber rest) :
    exponentPart (exponent ++ rest) = exponent := by
  cases he with
  | none =>
    cases rest with
    | nil => rfl
    | cons c rest =>
      obtain ⟨-, -, hlower, hupper⟩ := hr c rfl
      rw [List.nil_append, exponentPart, if_neg (by simp [hlower, hupper])]
  | @some sign digits hs h hd =>
    have hdigits := takeWhile_digits hd hr.noDigit
    obtain ⟨d, ds, rfl⟩ := List.exists_cons_of_ne_nil h
    rcases hs with rfl | rfl
    all_goals
      rw [List.cons_append, exponentPart, if_pos (Or.inl rfl)]
      simp only [List.cons_append, exponentSign, List.length_singleton, List.drop_one, List.tail_cons]
      rw [← List.cons_append, hdigits]
      rfl

theorem fractionPart_append (hf : IsFraction fraction) (he : IsExponent exponent)
    (hr : EndsNumber rest) : fractionPart (fraction ++ (exponent ++ rest)) = fraction := by
  cases hf with
  | none =>
    rw [List.nil_append]
    cases he with
    | none =>
      cases rest with
      | nil => rfl
      | cons c rest =>
        have hdot := (hr c rfl).2.1
        unfold fractionPart
        split
        · next heq => exact absurd (List.cons.inj heq).1 hdot
        · rfl
    | some => rfl
  | @some digits h hd =>
    have hdigits := takeWhile_digits hd (noDigit_exponent he hr)
    obtain ⟨d, ds, rfl⟩ := List.exists_cons_of_ne_nil h
    rw [List.cons_append, fractionPart, hdigits]

/-- A number is taken apart as it was put together. -/
theorem scanUnsigned_append (fmt : FloatText) (negative : Bool) (hd : IsInteger digits)
    (hf : IsFraction fraction) (he : IsExponent exponent) (hr : EndsNumber rest) :
    scanUnsigned fmt negative (digits ++ (fraction ++ (exponent ++ rest))) =
      if fraction = [] ∧ exponent = [] then
        if maxStrDigits < digits.length then .error .digits
        else .ok (.int (if negative then -(Nat.ofDigitChars 10 digits 0 : Int)
          else Nat.ofDigitChars 10 digits 0), rest)
      else .ok (.float (fmt.read ((if negative then ['-'] else []) ++
        (digits ++ (fraction ++ exponent)))), rest) := by
  unfold scanUnsigned
  rw [integerPart_append hd (noDigit_fraction hf (noDigit_exponent he hr))]
  simp only [List.drop_left, fractionPart_append hf he hr, exponentPart_append he hr,
    if_neg hd.ne_nil]

/-- A digit begins nothing but a number. -/
theorem scanLiteral_digit (fmt : FloatText) {c : Char} (hc : c.isDigit = true) (rest : List Char) :
    scanLiteral fmt (c :: rest) = scanUnsigned fmt false (c :: rest) ∧
      scanLiteral fmt ('-' :: c :: rest) = scanUnsigned fmt true (c :: rest) := by
  have hletter : ∀ d : Char, d.isDigit = false → c ≠ d := by
    rintro d hd rfl
    rw [hc] at hd
    cases hd
  have hn := hletter 'n' rfl
  have ht := hletter 't' rfl
  have hf := hletter 'f' rfl
  have hN := hletter 'N' rfl
  have hI := hletter 'I' rfl
  have hminus := hletter '-' rfl
  constructor
  · unfold scanLiteral
    split <;> simp_all
  · unfold scanLiteral
    split <;> simp_all

end Numbers

theorem isInteger_toDigits (n : Nat) : IsInteger (Nat.toDigits 10 n) where
  ne_nil := Nat.toDigits_ne_nil
  all_digits _ hc := Nat.isDigit_of_mem_toDigits (by decide) (by decide) hc
  no_leading_zero := by
    by_cases hn : n = 0
    · subst hn
      exact Or.inl (Nat.toDigits_zero 10)
    · exact Or.inr (JsonPointer.head?_toDigits hn)

/-- An integer is read back, if it has no more digits than Python reads. -/
theorem scanLiteral_dumpInt (fmt : FloatText) {n : Int}
    (h : (Nat.toDigits 10 n.natAbs).length ≤ maxStrDigits) {rest : List Char}
    (hr : EndsNumber rest) : scanLiteral fmt (dumpInt n ++ rest) = .ok (.int n, rest) := by
  have hinteger := isInteger_toDigits n.natAbs
  have hread (negative : Bool) := scanUnsigned_append fmt negative hinteger .none .none hr
  simp only [List.nil_append, true_and, if_true, if_neg (not_lt.mpr h),
    Nat.ofDigitChars_ten_toDigits] at hread
  obtain ⟨d, ds, hdigits⟩ := List.exists_cons_of_ne_nil hinteger.ne_nil
  have hd : d.isDigit = true := hinteger.all_digits d (by simp [hdigits])
  unfold dumpInt
  by_cases hn : n < 0
  · rw [if_pos hn, hdigits, List.cons_append, List.cons_append, (scanLiteral_digit fmt hd _).2,
      ← List.cons_append, ← hdigits, hread]
    simp only [if_true, show -(n.natAbs : Int) = n by omega]
  · rw [if_neg hn, hdigits, List.cons_append, (scanLiteral_digit fmt hd _).1,
      ← List.cons_append, ← hdigits, hread]
    simp only [Bool.false_eq_true, if_false, show (n.natAbs : Int) = n by omega]

/-- What `float.__repr__` prints: a fraction or an exponent tells it from an integer. -/
structure IsFloatLiteral (chars : List Char) (negative : Bool)
    (digits fraction exponent : List Char) : Prop where
  chars_eq : chars = (if negative then ['-'] else []) ++ (digits ++ (fraction ++ exponent))
  isInteger : IsInteger digits
  isFraction : IsFraction fraction
  isExponent : IsExponent exponent
  not_integer : ¬(fraction = [] ∧ exponent = [])

/-- The double is printed as a number that reads as the double. -/
structure FloatText.Prints (fmt : FloatText) (q : ℚ) : Prop where
  literal : ∃ negative digits fraction exponent,
    IsFloatLiteral (fmt.repr q) negative digits fraction exponent
  read : fmt.read (fmt.repr q) = .finite q

theorem scanLiteral_floatLiteral (fmt : FloatText) {chars digits fraction exponent : List Char}
    {negative : Bool} (hl : IsFloatLiteral chars negative digits fraction exponent)
    {rest : List Char} (hr : EndsNumber rest) :
    scanLiteral fmt (chars ++ rest) = .ok (.float (fmt.read chars), rest) := by
  have hscan := scanUnsigned_append fmt negative hl.isInteger hl.isFraction hl.isExponent hr
  rw [if_neg hl.not_integer, ← hl.chars_eq] at hscan
  obtain ⟨d, ds, rfl⟩ := List.exists_cons_of_ne_nil hl.isInteger.ne_nil
  have hd : d.isDigit = true := hl.isInteger.all_digits d List.mem_cons_self
  rw [← hscan, hl.chars_eq]
  simp only [List.append_assoc, List.cons_append]
  cases negative with
  | true => exact (scanLiteral_digit fmt hd _).2
  | false => exact (scanLiteral_digit fmt hd _).1

/-- The text of `-0.0`. -/
theorem isFloatLiteral_negZero : IsFloatLiteral ['-', '0', '.', '0'] true ['0'] ['.', '0'] [] where
  chars_eq := rfl
  isInteger := isInteger_toDigits 0
  isFraction := .some (by decide) (List.forall_mem_singleton.mpr rfl)
  isExponent := .none
  not_integer := by decide

theorem readWhole_dumpInt (n : Int) : readWhole (dumpInt n ++ ['.', '0']) = n := by
  have hdigits : (Nat.toDigits 10 n.natAbs ++ ['.', '0']).takeWhile Char.isDigit =
      Nat.toDigits 10 n.natAbs :=
    takeWhile_digits (isInteger_toDigits _).all_digits (by intro c hc; cases hc; rfl)
  obtain ⟨d, ds, hcons⟩ := List.exists_cons_of_ne_nil (isInteger_toDigits n.natAbs).ne_nil
  have hd : d.isDigit = true := (isInteger_toDigits n.natAbs).all_digits d (by simp [hcons])
  unfold dumpInt
  by_cases hn : n < 0
  · rw [if_pos hn, List.cons_append, readWhole, hdigits, Nat.ofDigitChars_ten_toDigits]
    omega
  · rw [if_neg hn]
    unfold readWhole
    split
    · next digits heq =>
      rw [hcons] at heq
      obtain ⟨rfl, -⟩ := List.cons.inj heq
      cases hd
    · rw [hdigits, Nat.ofDigitChars_ten_toDigits]
      omega

theorem wholeFloats_prints (n : Int) : wholeFloats.Prints n where
  literal := by
    have hzero : ∀ c ∈ ['0'], c.isDigit = true := List.forall_mem_singleton.mpr rfl
    refine ⟨decide (n < 0), Nat.toDigits 10 n.natAbs, ['.', '0'], [], ?_, isInteger_toDigits _,
      .some (by decide) hzero, .none, by decide⟩
    show dumpInt (n : ℚ).num ++ ['.', '0'] = _
    rw [Rat.num_intCast]
    unfold dumpInt
    by_cases hn : n < 0 <;> simp [hn]
  read := by
    have hpositive : ¬(n = 0 ∧ (dumpInt n ++ ['.', '0']).head? = some '-') := by
      rintro ⟨rfl, hsign⟩
      cases hsign
    show (if readWhole (dumpInt (n : ℚ).num ++ ['.', '0']) = 0 ∧
      (dumpInt (n : ℚ).num ++ ['.', '0']).head? = some '-' then PyFloat.negZero
      else .finite (readWhole (dumpInt (n : ℚ).num ++ ['.', '0']))) = _
    rw [Rat.num_intCast, readWhole_dumpInt, if_neg hpositive]

/-! ## Values -/

/-- The value is printed, and read back where containers may be nested `depth` deep. -/
inductive Printable (fmt : FloatText) : Nat → Json → Prop
  | null {depth : Nat} : Printable fmt depth .null
  | bool {depth : Nat} (b : Bool) : Printable fmt depth (.bool b)
  | int {depth : Nat} {n : Int} (h : (Nat.toDigits 10 n.natAbs).length ≤ maxStrDigits) :
      Printable fmt depth (.int n)
  | finite {depth : Nat} {q : ℚ} (h : fmt.Prints q) : Printable fmt depth (.float (.finite q))
  | negZero {depth : Nat} (h : fmt.read ['-', '0', '.', '0'] = .negZero) :
      Printable fmt depth (.float .negZero)
  | infinite {depth : Nat} (negative : Bool) : Printable fmt depth (.float (.infinite negative))
  | nan {depth : Nat} : Printable fmt depth (.float .nan)
  | str {depth : Nat} (s : String) : Printable fmt depth (.str s)
  | arr {depth : Nat} {items : List Json} (h : ∀ v ∈ items, Printable fmt depth v) :
      Printable fmt (depth + 1) (.arr items)
  | obj {depth : Nat} {fields : List (String × Json)} (hk : (Dict.keys fields).Nodup)
      (h : ∀ k v, (k, v) ∈ fields → Printable fmt depth v) : Printable fmt (depth + 1) (.obj fields)

/-- More depth does no harm. -/
theorem Printable.mono {fmt : FloatText} {depth depth' : Nat} {v : Json}
    (h : Printable fmt depth v) (hd : depth ≤ depth') : Printable fmt depth' v := by
  induction h generalizing depth' with
  | null => exact .null
  | bool b => exact .bool b
  | int h => exact .int h
  | finite h => exact .finite h
  | negZero h => exact .negZero h
  | infinite negative => exact .infinite negative
  | nan => exact .nan
  | str s => exact .str s
  | arr _ ih =>
    obtain ⟨n, rfl⟩ := Nat.exists_eq_succ_of_ne_zero (Nat.ne_of_gt (Nat.zero_lt_of_lt hd))
    exact .arr fun v hv => ih v hv (Nat.le_of_succ_le_succ hd)
  | obj hk _ ih =>
    obtain ⟨n, rfl⟩ := Nat.exists_eq_succ_of_ne_zero (Nat.ne_of_gt (Nat.zero_lt_of_lt hd))
    exact .obj hk fun k v hv => ih k v hv (Nat.le_of_succ_le_succ hd)

/-- A text whose first character begins a value. -/
def BeginsValue (text : List Char) : Prop :=
  ∃ c rest, text = c :: rest ∧ c ∉ [' ', '\t', '\n', '\r'] ∧ c ≠ ']' ∧ c ≠ '\uFEFF'

section Values

variable {fmt : FloatText} {style : DumpStyle} {depth : Nat} {v : Json} {text rest : List Char}

theorem BeginsValue.skipSpace (h : BeginsValue text) : skipSpace text = text := by
  obtain ⟨c, rest, rfl, hspace, -⟩ := h
  rw [JsonText.skipSpace, List.dropWhile_cons_of_neg]
  simpa using hspace

/-- A number begins with its sign or with a digit. -/
theorem exists_cons_number {digits : List Char} (h : IsInteger digits) (negative : Bool)
    (rest : List Char) :
    ∃ c chars, (if negative then ['-'] else []) ++ (digits ++ rest) = c :: chars ∧
      (c = '-' ∨ c.isDigit = true) := by
  obtain ⟨d, ds, rfl⟩ := List.exists_cons_of_ne_nil h.ne_nil
  cases negative with
  | true => exact ⟨_, _, rfl, Or.inl rfl⟩
  | false => exact ⟨_, _, rfl, Or.inr (h.all_digits d List.mem_cons_self)⟩

theorem ne_of_number {c : Char} (h : c = '-' ∨ c.isDigit = true) {d : Char} (hminus : d ≠ '-')
    (hdigit : d.isDigit = false) : c ≠ d := by
  rintro rfl
  rcases h with h | h
  · exact hminus h
  · rw [hdigit] at h
    cases h

theorem beginsValue_number {c : Char} (h : c = '-' ∨ c.isDigit = true) :
    BeginsValue (c :: rest) := by
  refine ⟨c, rest, rfl, ?_, ne_of_number h (by decide) rfl, ne_of_number h (by decide) rfl⟩
  have hspace := ne_of_number h (d := ' ') (by decide) rfl
  have htab := ne_of_number h (d := '\t') (by decide) rfl
  have hfeed := ne_of_number h (d := '\n') (by decide) rfl
  have hreturn := ne_of_number h (d := '\r') (by decide) rfl
  simp [hspace, htab, hfeed, hreturn]

theorem dumpInt_append (n : Int) (rest : List Char) :
    dumpInt n ++ rest =
      (if decide (n < 0) = true then ['-'] else []) ++ (Nat.toDigits 10 n.natAbs ++ rest) := by
  unfold dumpInt
  by_cases hn : n < 0 <;> simp [hn]

/-- A double begins as a number does. -/
theorem exists_cons_floatLiteral {chars digits fraction exponent : List Char} {negative : Bool}
    (hl : IsFloatLiteral chars negative digits fraction exponent) (rest : List Char) :
    ∃ c tail, chars ++ rest = c :: tail ∧ (c = '-' ∨ c.isDigit = true) := by
  obtain ⟨c, tail, heq, hc⟩ := exists_cons_number hl.isInteger negative
    (fraction ++ exponent ++ rest)
  refine ⟨c, tail, ?_, hc⟩
  rw [hl.chars_eq, ← heq]
  simp only [List.append_assoc]

theorem beginsValue_floatLiteral {chars digits fraction exponent : List Char} {negative : Bool}
    (hl : IsFloatLiteral chars negative digits fraction exponent) (rest : List Char) :
    BeginsValue (chars ++ rest) := by
  obtain ⟨c, tail, heq, hc⟩ := exists_cons_floatLiteral hl rest
  rw [heq]
  exact beginsValue_number hc

theorem beginsValue_dumpTree (h : Printable fmt depth v) (rest : List Char) :
    BeginsValue (dumpTree fmt style v ++ rest) := by
  cases h with
  | null => exact ⟨_, _, rfl, by decide, by decide, by decide⟩
  | bool b => cases b <;> exact ⟨_, _, rfl, by decide, by decide, by decide⟩
  | @int _ n hn =>
    obtain ⟨c, chars, heq, hc⟩ := exists_cons_number (isInteger_toDigits n.natAbs)
      (decide (n < 0)) rest
    rw [dumpTree, dumpInt_append, heq]
    exact beginsValue_number hc
  | finite hq =>
    obtain ⟨⟨negative, digits, fraction, exponent, hl⟩, -⟩ := hq
    exact beginsValue_floatLiteral hl rest
  | negZero _ => exact beginsValue_floatLiteral isFloatLiteral_negZero rest
  | infinite negative => cases negative <;> exact ⟨_, _, rfl, by decide, by decide, by decide⟩
  | nan => exact ⟨_, _, rfl, by decide, by decide, by decide⟩
  | str s => exact ⟨_, _, rfl, by decide, by decide, by decide⟩
  | @arr _ items _ => cases items <;> exact ⟨_, _, rfl, by decide, by decide, by decide⟩
  | @obj _ fields _ _ => cases fields <;> exact ⟨_, _, rfl, by decide, by decide, by decide⟩

/-! ### Reading each of them back -/

theorem scanOnce_literal {c : Char} (hquote : c ≠ '\"') (harr : c ≠ '[') (hobj : c ≠ '\x7b') :
    scanOnce fmt depth (c :: rest) = scanLiteral fmt (c :: rest) := by
  cases depth with
  | zero => rw [scanOnce, if_neg hquote, if_neg (by simp [harr, hobj])]
  | succ depth => rw [scanOnce, if_neg hquote, if_neg harr, if_neg hobj]

theorem scanOnce_number {c : Char} (h : c = '-' ∨ c.isDigit = true) :
    scanOnce fmt depth (c :: rest) = scanLiteral fmt (c :: rest) :=
  scanOnce_literal (ne_of_number h (by decide) rfl) (ne_of_number h (by decide) rfl)
    (ne_of_number h (by decide) rfl)

theorem scanOnce_str (style : DumpStyle) (s : String) (rest : List Char) :
    scanOnce fmt depth (dumpString style s ++ rest) = .ok (.str s, rest) := by
  have hscan := scanString_dumpString style s rest
  have hcons : dumpString style s ++ rest = '\"' :: ((dumpString style s).tail ++ rest) := rfl
  rw [hcons]
  cases depth <;> rw [scanOnce, if_pos rfl, hscan] <;> rfl

/-- What separates two elements begins with a comma. -/
theorem itemSeparator_eq (style : DumpStyle) :
    itemSeparator style = [','] ∨ itemSeparator style = [',', ' '] := by
  unfold itemSeparator
  cases style.compact <;> simp

theorem endsNumber_dumpItems (items : List Json) (rest : List Char) :
    EndsNumber (dumpItems fmt style items ++ (']' :: rest)) := by
  intro c hc
  cases items with
  | nil =>
    obtain rfl : ']' = c := by simpa [dumpItems] using hc
    decide
  | cons v items =>
    obtain rfl : ',' = c := by
      rcases itemSeparator_eq style with h | h <;> simpa [dumpItems, h] using hc
    decide

theorem endsNumber_dumpFields (fields : List (String × Json)) (rest : List Char) :
    EndsNumber (dumpFields fmt style fields ++ ('\x7d' :: rest)) := by
  intro c hc
  cases fields with
  | nil =>
    obtain rfl : '\x7d' = c := by simpa [dumpFields] using hc
    decide
  | cons p fields =>
    obtain rfl : ',' = c := by
      rcases itemSeparator_eq style with h | h <;> simpa [dumpFields, h] using hc
    decide

/-- Behind the comma of a separator the next value begins. -/
theorem skipSpace_separator {separator : List Char} {c : Char}
    (h : separator = [c] ∨ separator = [c, ' ']) (hc : c ∉ [' ', '\t', '\n', '\r'])
    (ht : BeginsValue text) :
    ∃ after, skipSpace (separator ++ text) = c :: after ∧ skipSpace after = text := by
  have hbegin (after : List Char) : skipSpace (c :: after) = c :: after := by
    rw [skipSpace, List.dropWhile_cons_of_neg]
    simpa using hc
  rcases h with rfl | rfl
  · exact ⟨text, hbegin _, ht.skipSpace⟩
  · exact ⟨' ' :: text, hbegin _, ht.skipSpace⟩

/-- A value is read back whatever ends it. -/
def ReadsBack (fmt : FloatText) (style : DumpStyle) (scan : List Char → Scanned (Json × List Char))
    (v : Json) : Prop :=
  (∀ rest, EndsNumber rest → scan (dumpTree fmt style v ++ rest) = .ok (v, rest)) ∧
    ∀ rest, BeginsValue (dumpTree fmt style v ++ rest)

variable {scan : List Char → Scanned (Json × List Char)}

theorem scanItems_dumpItems {items : List Json} {turns : Nat} (hturns : items.length < turns)
    (hv : ReadsBack fmt style scan v) (hitems : ∀ w ∈ items, ReadsBack fmt style scan w)
    (rest : List Char) :
    scanItems scan turns (dumpTree fmt style v ++ (dumpItems fmt style items ++ (']' :: rest))) =
      .ok (v :: items, rest) := by
  induction items generalizing v turns with
  | nil =>
    obtain ⟨turns, rfl⟩ := Nat.exists_eq_succ_of_ne_zero (Nat.ne_of_gt hturns)
    rw [scanItems, hv.1 _ (endsNumber_dumpItems [] rest)]
    rfl
  | cons w items ih =>
    obtain ⟨turns, rfl⟩ := Nat.exists_eq_succ_of_ne_zero (Nat.ne_of_gt (Nat.zero_lt_of_lt hturns))
    rw [List.length_cons] at hturns
    have hw := hitems w List.mem_cons_self
    have hrest := ih (by omega : items.length < turns) hw
      fun u hu => hitems u (List.mem_cons_of_mem _ hu)
    obtain ⟨after, hcomma, hnext⟩ := skipSpace_separator (itemSeparator_eq style) (by decide)
      (hw.2 (dumpItems fmt style items ++ (']' :: rest)))
    rw [scanItems, hv.1 _ (endsNumber_dumpItems (w :: items) rest)]
    simp only [bind, Except.bind, dumpItems, List.append_assoc]
    rw [hcomma]
    simp only
    rw [hnext, hrest]
    rfl

/-- A key is read back up to the value behind it. -/
theorem scanKey_dumpString (key : String) (ht : BeginsValue text) :
    scanKey (dumpString style key ++ (keySeparator style ++ text)) = .ok (key, text) := by
  have hcolon : keySeparator style = [':'] ∨ keySeparator style = [':', ' '] := by
    unfold keySeparator
    cases style.compact <;> simp
  obtain ⟨after, hskip, hnext⟩ := skipSpace_separator hcolon (by decide) ht
  have hcons : dumpString style key ++ (keySeparator style ++ text) =
      '\"' :: ((dumpString style key).tail ++ (keySeparator style ++ text)) := rfl
  rw [hcons, scanKey, scanString_dumpString]
  simp only [bind, Except.bind]
  rw [hskip]
  simp only
  rw [hnext]
  rfl

theorem scanFields_dumpFields (key : String) {fields : List (String × Json)} {turns : Nat}
    (hturns : fields.length < turns) (hv : ReadsBack fmt style scan v)
    (hfields : ∀ k w, (k, w) ∈ fields → ReadsBack fmt style scan w) (rest : List Char) :
    scanFields scan turns (dumpString style key ++ (keySeparator style ++
      (dumpTree fmt style v ++ (dumpFields fmt style fields ++ ('\x7d' :: rest))))) =
      .ok ((key, v) :: fields, rest) := by
  induction fields generalizing key v turns with
  | nil =>
    obtain ⟨turns, rfl⟩ := Nat.exists_eq_succ_of_ne_zero (Nat.ne_of_gt hturns)
    rw [scanFields, scanKey_dumpString key (hv.2 _)]
    simp only [bind, Except.bind]
    rw [hv.1 _ (endsNumber_dumpFields [] rest)]
    rfl
  | cons p fields ih =>
    obtain ⟨k, w⟩ := p
    obtain ⟨turns, rfl⟩ := Nat.exists_eq_succ_of_ne_zero (Nat.ne_of_gt (Nat.zero_lt_of_lt hturns))
    rw [List.length_cons] at hturns
    have hw := hfields k w List.mem_cons_self
    have hrest := ih k (by omega : fields.length < turns) hw
      fun l u hu => hfields l u (List.mem_cons_of_mem _ hu)
    -- what follows the comma is a key, and no space that could be skipped
    have hbegins : BeginsValue (dumpString style k ++ (keySeparator style ++
        (dumpTree fmt style w ++ (dumpFields fmt style fields ++ ('\x7d' :: rest))))) :=
      ⟨_, _, rfl, by decide, by decide, by decide⟩
    obtain ⟨after, hcomma, hnext⟩ := skipSpace_separator (itemSeparator_eq style) (by decide) hbegins
    rw [scanFields, scanKey_dumpString key (hv.2 _)]
    simp only [bind, Except.bind]
    rw [hv.1 _ (endsNumber_dumpFields ((k, w) :: fields) rest)]
    simp only [dumpFields, List.append_assoc]
    rw [hcomma]
    simp only
    rw [hnext, hrest]
    rfl

/-! ### Containers -/

theorem length_le_dumpItems (fmt : FloatText) (style : DumpStyle) (items : List Json) :
    items.length ≤ (dumpItems fmt style items).length := by
  induction items with
  | nil => exact Nat.zero_le _
  | cons v items ih =>
    have hseparator : 0 < (itemSeparator style).length := by
      rcases itemSeparator_eq style with h | h <;> simp [h]
    rw [dumpItems, List.length_append, List.length_append, List.length_cons]
    omega

theorem length_le_dumpFields (fmt : FloatText) (style : DumpStyle)
    (fields : List (String × Json)) :
    fields.length ≤ (dumpFields fmt style fields).length := by
  induction fields with
  | nil => exact Nat.zero_le _
  | cons p fields ih =>
    have hseparator : 0 < (itemSeparator style).length := by
      rcases itemSeparator_eq style with h | h <;> simp [h]
    rw [dumpFields]
    simp only [List.length_append, List.length_cons]
    omega

theorem foldl_set_append {fields d : List (String × Json)}
    (h : (Dict.keys (d ++ fields)).Nodup) :
    fields.foldl (fun d p => Dict.set d p.1 p.2) d = d ++ fields := by
  induction fields generalizing d with
  | nil => simp
  | cons p fields ih =>
    obtain ⟨k, v⟩ := p
    have hk : k ∉ Dict.keys d := by
      have hdisjoint := h
      simp only [Dict.keys, List.map_append, List.map_cons] at hdisjoint
      exact fun hm => (List.nodup_append.mp hdisjoint).2.2 k hm k List.mem_cons_self rfl
    have hset : Dict.set d k v = d ++ [(k, v)] := Dict.set_of_not_mem hk v
    rw [List.foldl_cons, hset, ih (by simpa using h), List.append_assoc]
    rfl

/-- Distinct keys make a dictionary as they stand. -/
theorem dictOf_eq_self {fields : List (String × Json)} (h : (Dict.keys fields).Nodup) :
    dictOf fields = fields :=
  foldl_set_append (d := []) h

theorem scanArray_dumpItems {items : List Json}
    (hitems : ∀ w ∈ items, ReadsBack fmt style scan w) (rest : List Char) :
    scanArray scan ((dumpTree fmt style (.arr items)).tail ++ rest) = .ok (.arr items, rest) := by
  cases items with
  | nil => rfl
  | cons v items =>
    have hv := hitems v List.mem_cons_self
    have hlength := length_le_dumpItems fmt style items
    have hturns : items.length <
        (dumpTree fmt style v ++ (dumpItems fmt style items ++ (']' :: rest))).length := by
      simp only [List.length_append, List.length_cons]
      omega
    have hscan := scanItems_dumpItems hturns hv
      (fun w hw => hitems w (List.mem_cons_of_mem _ hw)) rest
    have htail : (dumpTree fmt style (.arr (v :: items))).tail ++ rest =
        dumpTree fmt style v ++ (dumpItems fmt style items ++ (']' :: rest)) := by
      simp [dumpTree]
    rw [htail, scanArray]
    obtain ⟨c, chars, heq, hspace, hclose, hmark⟩ := hv.2 (dumpItems fmt style items ++ (']' :: rest))
    rw [heq] at hscan ⊢
    have hskip : skipSpace (c :: chars) = c :: chars :=
      BeginsValue.skipSpace ⟨c, chars, rfl, hspace, hclose, hmark⟩
    rw [hskip]
    split
    · next h => exact absurd (List.cons.inj h).1 hclose
    · rw [hscan]
      rfl

theorem scanObject_dumpFields {fields : List (String × Json)} (hk : (Dict.keys fields).Nodup)
    (hfields : ∀ k w, (k, w) ∈ fields → ReadsBack fmt style scan w) (rest : List Char) :
    scanObject scan ((dumpTree fmt style (.obj fields)).tail ++ rest) =
      .ok (.obj fields, rest) := by
  cases fields with
  | nil => rfl
  | cons p fields =>
    obtain ⟨key, v⟩ := p
    have hv := hfields key v List.mem_cons_self
    have hlength := length_le_dumpFields fmt style fields
    have hturns : fields.length < (dumpString style key ++ (keySeparator style ++
        (dumpTree fmt style v ++ (dumpFields fmt style fields ++ ('\x7d' :: rest))))).length := by
      simp only [List.length_append, List.length_cons]
      omega
    have hscan := scanFields_dumpFields key hturns hv
      (fun k w hw => hfields k w (List.mem_cons_of_mem _ hw)) rest
    have htail : (dumpTree fmt style (.obj ((key, v) :: fields))).tail ++ rest =
        dumpString style key ++ (keySeparator style ++ (dumpTree fmt style v ++
          (dumpFields fmt style fields ++ ('\x7d' :: rest)))) := by
      simp [dumpTree]
    have hcons : ∀ tail, dumpString style key ++ tail =
        '\"' :: ((dumpString style key).tail ++ tail) := fun _ => rfl
    rw [htail, scanObject]
    rw [hcons] at hscan ⊢
    have hskip : ∀ chars, skipSpace ('\"' :: chars) = '\"' :: chars := fun _ => rfl
    rw [hskip]
    split
    · next h => exact absurd (List.cons.inj h).1 (by decide)
    · rw [hscan]
      show Except.ok (Json.obj (dictOf _), rest) = _
      rw [dictOf_eq_self hk]

/-- The text of a double is read as a double. -/
theorem scanOnce_floatLiteral {chars digits fraction exponent : List Char} {negative : Bool}
    (hl : IsFloatLiteral chars negative digits fraction exponent) (hr : EndsNumber rest) :
    scanOnce fmt depth (chars ++ rest) = .ok (.float (fmt.read chars), rest) := by
  have hread := scanLiteral_floatLiteral fmt hl hr
  obtain ⟨c, tail, heq, hc⟩ := exists_cons_floatLiteral hl rest
  rw [heq] at hread ⊢
  exact (scanOnce_number hc).trans hread

/-- **What is printed is read back**, wherever a number may end. -/
theorem scanOnce_dumpTree (h : Printable fmt depth v) (hr : EndsNumber rest) :
    scanOnce fmt depth (dumpTree fmt style v ++ rest) = .ok (v, rest) := by
  -- on the printable value: a number is followed by what cannot continue it
  induction h generalizing rest with
  | null => exact scanOnce_literal (by decide) (by decide) (by decide)
  | bool b => cases b <;> exact scanOnce_literal (by decide) (by decide) (by decide)
  | @int _ n hn =>
    obtain ⟨c, chars, heq, hc⟩ := exists_cons_number (isInteger_toDigits n.natAbs)
      (decide (n < 0)) rest
    have hread := scanLiteral_dumpInt fmt hn hr
    rw [dumpTree]
    rw [dumpInt_append, heq] at hread ⊢
    exact (scanOnce_number hc).trans hread
  | finite hq =>
    obtain ⟨⟨negative, digits, fraction, exponent, hl⟩, hread⟩ := hq
    rw [dumpTree, dumpFloat, scanOnce_floatLiteral hl hr, hread]
  | negZero hread =>
    rw [dumpTree, dumpFloat, scanOnce_floatLiteral isFloatLiteral_negZero hr, hread]
  | infinite negative => cases negative <;> exact scanOnce_literal (by decide) (by decide) (by decide)
  | nan => exact scanOnce_literal (by decide) (by decide) (by decide)
  | str s => exact scanOnce_str style s rest
  | @arr depth items hitems ih =>
    have hback : ∀ w ∈ items, ReadsBack fmt style (scanOnce fmt depth) w := fun w hw =>
      ⟨fun _ hr => ih w hw hr, beginsValue_dumpTree (hitems w hw)⟩
    have hscan := scanArray_dumpItems hback rest
    have hcons : dumpTree fmt style (.arr items) =
        '[' :: (dumpTree fmt style (.arr items)).tail := by cases items <;> rfl
    rw [hcons, List.cons_append, scanOnce, if_neg (by decide), if_pos rfl]
    exact hscan
  | @obj depth fields hk hfields ih =>
    have hback : ∀ k w, (k, w) ∈ fields → ReadsBack fmt style (scanOnce fmt depth) w :=
      fun k w hw => ⟨fun _ hr => ih k w hw hr, beginsValue_dumpTree (hfields k w hw)⟩
    have hscan := scanObject_dumpFields hk hback rest
    have hcons : dumpTree fmt style (.obj fields) =
        '\x7b' :: (dumpTree fmt style (.obj fields)).tail := by cases fields <;> rfl
    rw [hcons, List.cons_append, scanOnce, if_neg (by decide), if_neg (by decide), if_pos rfl]
    exact hscan

end Values

/-! ## Printing characters -/

/-- The character is no control character; with `ensure_ascii` it is one of ASCII. -/
def Shows (style : DumpStyle) (c : Char) : Prop :=
  0x20 ≤ c.toNat ∧ (style.ensureAscii = true → c.toNat ≤ 0x7E)

section Shows

variable {fmt : FloatText} {style : DumpStyle} {depth : Nat} {v : Json}

theorem shows_of_ascii {c : Char} (h : 0x20 ≤ c.toNat) (h' : c.toNat ≤ 0x7E) : Shows style c :=
  ⟨h, fun _ => h'⟩

theorem shows_digit {c : Char} (h : c.isDigit = true) : Shows style c := by
  simp only [Char.isDigit, Bool.and_eq_true, decide_eq_true_eq] at h
  have hlow : 48 ≤ c.toNat := h.1
  have hhigh : c.toNat ≤ 57 := h.2
  exact shows_of_ascii (by omega) (by omega)

theorem digitChar_ascii :
    ∀ d < 16, 0x20 ≤ (Nat.digitChar d).toNat ∧ (Nat.digitChar d).toNat ≤ 0x7E := by decide

theorem shows_escapeUnit {unit : Nat} {c : Char} (h : c ∈ escapeUnit unit) : Shows style c := by
  have hdigit (n : Nat) : Shows style (Nat.digitChar (n % 16)) :=
    shows_of_ascii (digitChar_ascii _ (Nat.mod_lt n (by omega))).1
      (digitChar_ascii _ (Nat.mod_lt n (by omega))).2
  simp only [escapeUnit, unitDigits, List.mem_cons, List.not_mem_nil, or_false] at h
  rcases h with rfl | rfl | rfl | rfl | rfl | rfl
  · exact shows_of_ascii (by decide) (by decide)
  · exact shows_of_ascii (by decide) (by decide)
  all_goals exact hdigit _

theorem letters_ascii : ∀ p ∈ shortEscapes, 0x20 ≤ p.2.toNat ∧ p.2.toNat ≤ 0x7E := by
  simp [shortEscapes]

theorem shows_escapeChar {c d : Char} (h : d ∈ escapeChar style c) : Shows style d := by
  unfold escapeChar at h
  cases hshort : shortEscapes.lookup c with
  | some letter =>
    rw [hshort] at h
    obtain ⟨hlow, hhigh⟩ := letters_ascii _ (Dict.mem_of_lookup hshort)
    rcases List.mem_cons.mp h with rfl | h
    · exact shows_of_ascii (by decide) (by decide)
    · rw [List.mem_singleton.mp h]
      exact shows_of_ascii hlow hhigh
  | none =>
    rw [hshort] at h
    dsimp only at h
    by_cases hescape : mustEscape style c = true
    · rw [if_pos hescape] at h
      by_cases hunit : c.toNat < 0x10000
      · rw [if_pos hunit] at h
        exact shows_escapeUnit h
      · rw [if_neg hunit, List.mem_append] at h
        rcases h with h | h <;> exact shows_escapeUnit h
    · rw [if_neg hescape, List.mem_singleton] at h
      subst h
      simp only [mustEscape, Bool.or_eq_true, Bool.and_eq_true, decide_eq_true_eq, not_or,
        not_and] at hescape
      refine ⟨by omega, fun hascii => ?_⟩
      have hnot := hescape.2 hascii
      omega

theorem shows_dumpString {s : String} {c : Char} (h : c ∈ dumpString style s) : Shows style c := by
  simp only [dumpString, escapeChars, List.mem_cons, List.mem_append, List.mem_flatMap,
    List.not_mem_nil, or_false] at h
  rcases h with rfl | ⟨d, -, hd⟩ | rfl
  · exact shows_of_ascii (by decide) (by decide)
  · exact shows_escapeChar hd
  · exact shows_of_ascii (by decide) (by decide)

theorem shows_itemSeparator {c : Char} (h : c ∈ itemSeparator style) : Shows style c := by
  rcases itemSeparator_eq style with hs | hs <;> rw [hs] at h <;> simp at h
  · subst h
    exact shows_of_ascii (by decide) (by decide)
  · rcases h with rfl | rfl <;> exact shows_of_ascii (by decide) (by decide)

theorem shows_keySeparator {c : Char} (h : c ∈ keySeparator style) : Shows style c := by
  unfold keySeparator at h
  cases hcompact : style.compact <;> simp [hcompact] at h
  · rcases h with rfl | rfl <;> exact shows_of_ascii (by decide) (by decide)
  · subst h
    exact shows_of_ascii (by decide) (by decide)

theorem shows_sign {negative : Bool} {c : Char} (h : c ∈ if negative then ['-'] else []) :
    Shows style c := by
  cases negative with
  | true =>
    rw [if_pos rfl, List.mem_singleton] at h
    subst h
    exact shows_of_ascii (by decide) (by decide)
  | false => cases h

theorem shows_floatLiteral {chars digits fraction exponent : List Char} {negative : Bool}
    (hl : IsFloatLiteral chars negative digits fraction exponent) {c : Char} (h : c ∈ chars) :
    Shows style c := by
  rw [hl.chars_eq] at h
  simp only [List.mem_append] at h
  rcases h with h | h | h | h
  · exact shows_sign h
  · exact shows_digit (hl.isInteger.all_digits c h)
  · cases hl.isFraction with
    | none => cases h
    | some _ hd =>
      rcases List.mem_cons.mp h with rfl | h
      · exact shows_of_ascii (by decide) (by decide)
      · exact shows_digit (hd c h)
  · cases hl.isExponent with
    | none => cases h
    | some hs _ hd =>
      rcases List.mem_cons.mp h with rfl | h
      · exact shows_of_ascii (by decide) (by decide)
      rcases List.mem_cons.mp h with rfl | h
      · rcases hs with rfl | rfl <;> exact shows_of_ascii (by decide) (by decide)
      · exact shows_digit (hd c h)

theorem shows_dumpItems {items : List Json}
    (hitems : ∀ v ∈ items, ∀ c ∈ dumpTree fmt style v, Shows style c) {c : Char}
    (h : c ∈ dumpItems fmt style items) : Shows style c := by
  induction items with
  | nil => cases h
  | cons v items ih =>
    rw [dumpItems, List.mem_append, List.mem_append] at h
    rcases h with h | h | h
    · exact shows_itemSeparator h
    · exact hitems v List.mem_cons_self c h
    · exact ih (fun w hw => hitems w (List.mem_cons_of_mem _ hw)) h

theorem shows_dumpFields {fields : List (String × Json)}
    (hfields : ∀ k v, (k, v) ∈ fields → ∀ c ∈ dumpTree fmt style v, Shows style c) {c : Char}
    (h : c ∈ dumpFields fmt style fields) : Shows style c := by
  induction fields with
  | nil => cases h
  | cons p fields ih =>
    simp only [dumpFields, List.mem_append] at h
    rcases h with h | h | h | h | h
    · exact shows_itemSeparator h
    · exact shows_dumpString h
    · exact shows_keySeparator h
    · exact hfields p.1 p.2 List.mem_cons_self c h
    · exact ih (fun k w hw => hfields k w (List.mem_cons_of_mem _ hw)) h

/-- **What is printed is on one line**, and in ASCII if it is asked for. -/
theorem dumpTree_shows (h : Printable fmt depth v) : ∀ c ∈ dumpTree fmt style v, Shows style c := by
  induction h with
  | null => simp [dumpTree, Shows]
  | bool b => cases b <;> simp [dumpTree, Shows]
  | @int _ n hn =>
    intro c hc
    have happend := dumpInt_append n []
    rw [List.append_nil, List.append_nil] at happend
    rw [dumpTree, happend] at hc
    rcases List.mem_append.mp hc with hc | hc
    · exact shows_sign hc
    · exact shows_digit ((isInteger_toDigits n.natAbs).all_digits c hc)
  | finite hq =>
    obtain ⟨⟨negative, digits, fraction, exponent, hl⟩, -⟩ := hq
    exact fun c hc => shows_floatLiteral hl hc
  | negZero _ => exact fun c hc => shows_floatLiteral isFloatLiteral_negZero hc
  | infinite negative => cases negative <;> simp [dumpTree, dumpFloat, Shows]
  | nan => simp [dumpTree, dumpFloat, Shows]
  | str s => exact fun c hc => shows_dumpString hc
  | @arr _ items _ ih =>
    intro c hc
    cases items with
    | nil =>
      simp only [dumpTree, List.mem_cons, List.not_mem_nil, or_false] at hc
      rcases hc with rfl | rfl <;> exact shows_of_ascii (by decide) (by decide)
    | cons v items =>
      simp only [dumpTree, List.mem_cons, List.mem_append, List.not_mem_nil, or_false] at hc
      rcases hc with rfl | hc | hc | rfl
      · exact shows_of_ascii (by decide) (by decide)
      · exact ih v List.mem_cons_self c hc
      · exact shows_dumpItems (fun w hw => ih w (List.mem_cons_of_mem _ hw)) hc
      · exact shows_of_ascii (by decide) (by decide)
  | @obj _ fields _ _ ih =>
    intro c hc
    cases fields with
    | nil =>
      simp only [dumpTree, List.mem_cons, List.not_mem_nil, or_false] at hc
      rcases hc with rfl | rfl <;> exact shows_of_ascii (by decide) (by decide)
    | cons p fields =>
      simp only [dumpTree, List.mem_cons, List.mem_append, List.not_mem_nil, or_false] at hc
      rcases hc with rfl | hc | hc | hc | hc | rfl
      · exact shows_of_ascii (by decide) (by decide)
      · exact shows_dumpString hc
      · exact shows_keySeparator hc
      · exact ih p.1 p.2 List.mem_cons_self c hc
      · exact shows_dumpFields (fun k w hw => ih k w (List.mem_cons_of_mem _ hw)) hc
      · exact shows_of_ascii (by decide) (by decide)

end Shows

/-! ## Sorted keys -/

theorem sortItems_eq_map (items : List Json) : sortItems items = items.map sortTree := by
  induction items with
  | nil => rfl
  | cons v items ih => rw [sortItems, ih, List.map_cons]

theorem sortFields_eq_map (fields : List (String × Json)) :
    sortFields fields = fields.map fun p => (p.1, sortTree p.2) := by
  induction fields with
  | nil => rfl
  | cons p fields ih => rw [sortFields, ih, List.map_cons]

/-- The entries of a sorted object, in some order. -/
theorem perm_sortFields (fields : List (String × Json)) :
    ((sortFields fields).insertionSort fun a b => a.1 ≤ b.1).Perm
      (fields.map fun p => (p.1, sortTree p.2)) := by
  rw [← sortFields_eq_map]
  exact List.perm_insertionSort _ _

theorem keys_map_sortTree (fields : List (String × Json)) :
    Dict.keys (fields.map fun p => (p.1, sortTree p.2)) = Dict.keys fields := by
  simp [Dict.keys, Function.comp_def]

theorem nodup_keys_sortFields {fields : List (String × Json)} (h : (Dict.keys fields).Nodup) :
    (Dict.keys ((sortFields fields).insertionSort fun a b => a.1 ≤ b.1)).Nodup := by
  have hperm : (Dict.keys ((sortFields fields).insertionSort fun a b => a.1 ≤ b.1)).Perm
      (Dict.keys fields) := by
    rw [← keys_map_sortTree fields]
    exact (perm_sortFields fields).map Prod.fst
  exact hperm.nodup_iff.mpr h

theorem mem_sortFields {fields : List (String × Json)} {k : String} {w : Json}
    (h : (k, w) ∈ (sortFields fields).insertionSort fun a b => a.1 ≤ b.1) :
    ∃ v, (k, v) ∈ fields ∧ w = sortTree v := by
  have hm := (perm_sortFields fields).mem_iff.mp h
  obtain ⟨p, hp, heq⟩ := List.mem_map.mp hm
  cases heq
  exact ⟨p.2, hp, rfl⟩

/-- A value that is printed is printed with its keys in order. -/
theorem Printable.sortTree {fmt : FloatText} {depth : Nat} {v : Json} (h : Printable fmt depth v) :
    Printable fmt depth (sortTree v) := by
  induction h with
  | null => exact .null
  | bool b => exact .bool b
  | int h => exact .int h
  | finite h => exact .finite h
  | negZero h => exact .negZero h
  | infinite negative => exact .infinite negative
  | nan => exact .nan
  | str s => exact .str s
  | arr _ ih =>
    rw [JsonText.sortTree, sortItems_eq_map]
    refine .arr fun w hw => ?_
    obtain ⟨v, hv, rfl⟩ := List.mem_map.mp hw
    exact ih v hv
  | obj hk _ ih =>
    refine .obj (nodup_keys_sortFields hk) fun k w hw => ?_
    obtain ⟨v, hv, rfl⟩ := mem_sortFields hw
    exact ih k v hv

theorem Printable.arrange {fmt : FloatText} {depth : Nat} {v : Json} (h : Printable fmt depth v)
    (style : DumpStyle) : Printable fmt depth (style.arrange v) := by
  unfold DumpStyle.arrange
  cases style.sortKeys
  · exact h
  · exact h.sortTree

/-- **`json.loads` undoes `json.dumps`**, up to the order of keys. -/
theorem loads_dumps {fmt : FloatText} {depth : Nat} {v : Json} (h : Printable fmt depth v)
    (style : DumpStyle) : loads fmt depth (dumps fmt style v) = .ok (style.arrange v) := by
  have hprint := h.arrange style
  have hread : scanOnce fmt depth (dumpTree fmt style (style.arrange v) ++ []) =
      .ok (style.arrange v, []) := scanOnce_dumpTree hprint endsNumber_nil
  have hbegins : BeginsValue (dumpTree fmt style (style.arrange v) ++ []) :=
    beginsValue_dumpTree hprint []
  obtain ⟨c, chars, heq, hspace, hclose, hmark⟩ := hbegins
  rw [List.append_nil] at hread
  have hskip : skipSpace (c :: chars) = c :: chars :=
    BeginsValue.skipSpace ⟨c, chars, rfl, hspace, hclose, hmark⟩
  rw [List.append_nil] at heq
  rw [heq] at hread
  unfold loads dumps
  rw [String.toList_ofList, heq]
  split
  · next hbom => exact absurd (List.cons.inj hbom).1 hmark
  · rw [hskip, hread]
    rfl

/-- No line of a text is broken where it was printed. -/
theorem dumps_shows {fmt : FloatText} {depth : Nat} {v : Json} (h : Printable fmt depth v)
    (style : DumpStyle) : ∀ c ∈ (dumps fmt style v).toList, Shows style c := by
  rw [dumps, String.toList_ofList]
  exact dumpTree_shows (h.arrange style)

/-- Two values printed alike are alike up to the order of keys. -/
theorem arrange_eq_of_dumps {fmt : FloatText} {style : DumpStyle} {depth depth' : Nat} {v w : Json}
    (hv : Printable fmt depth v) (hw : Printable fmt depth' w)
    (h : dumps fmt style v = dumps fmt style w) : style.arrange v = style.arrange w := by
  have hread := loads_dumps (hv.mono (le_max_left depth depth')) style
  rw [h, loads_dumps (hw.mono (le_max_right depth depth')) style] at hread
  exact (Except.ok.inj hread).symm

end InternumCore.JsonText
