import InternumCore.Validator

/-!
# Normalizing extracted values

After validation the strings of the data are rewritten where the caller's schema
asks for it: `"format": "date"` turns a day.month.year date around, and
`x-normalize` keeps the digits of a string or collapses its white space.
`normalizeNode` descends through `properties` and `items` and leaves everything
else as it is.
-/

namespace InternumCore

/-! ## Characters -/

/-- The zeros of the decimal digits of Unicode 15; nine more digits follow each. -/
def decimalZeros : List Nat :=
  [0x30, 0x660, 0x6F0, 0x7C0, 0x966, 0x9E6, 0xA66, 0xAE6, 0xB66, 0xBE6, 0xC66, 0xCE6, 0xD66, 0xDE6,
   0xE50, 0xED0, 0xF20, 0x1040, 0x1090, 0x17E0, 0x1810, 0x1946, 0x19D0, 0x1A80, 0x1A90, 0x1B50,
   0x1BB0, 0x1C40, 0x1C50, 0xA620, 0xA8D0, 0xA900, 0xA9D0, 0xA9F0, 0xAA50, 0xABF0, 0xFF10, 0x104A0,
   0x10D30, 0x11066, 0x110F0, 0x11136, 0x111D0, 0x112F0, 0x11450, 0x114D0, 0x11650, 0x116C0,
   0x11730, 0x118E0, 0x11950, 0x11C50, 0x11D50, 0x11DA0, 0x11F50, 0x16A60, 0x16AC0, 0x16B50,
   0x1D7CE, 0x1D7D8, 0x1D7E2, 0x1D7EC, 0x1D7F6, 0x1E140, 0x1E2F0, 0x1E4F0, 0x1E950, 0x1FBF0]

/-- The value of a decimal digit. -/
def digitValue (c : Char) : Option Nat :=
  decimalZeros.findSome? fun z =>
    if z ≤ c.toNat ∧ c.toNat ≤ z + 9 then some (c.toNat - z) else none

/-- `\d`. -/
def isDigit (c : Char) : Bool := (digitValue c).isSome

/-- `int(digits)`. -/
def intOfDigits (digits : List Char) : Nat :=
  digits.foldl (fun n c => 10 * n + (digitValue c).getD 0) 0

/-- `f"{n:0{width}d}"`. -/
def zeroPadded (width n : Nat) : List Char :=
  let digits := Nat.toDigits 10 n
  List.replicate (width - digits.length) '0' ++ digits

section Digits

theorem digitValue_ascii {c : Char} (h : c.isDigit = true) : digitValue c = some (c.toNat - 48) := by
  have hrange : 48 ≤ c.toNat ∧ c.toNat ≤ 57 := Char.isDigit_iff_toNat.mp h
  have hzeros : decimalZeros = 0x30 :: decimalZeros.tail := rfl
  unfold digitValue
  rw [hzeros, List.findSome?_cons, if_pos (by omega)]

theorem isDigit_ascii {c : Char} (h : c.isDigit = true) : isDigit c = true := by
  rw [isDigit, digitValue_ascii h]
  rfl

theorem isSpace_ascii {c : Char} (h : c.isDigit = true) : isSpace c = false := by
  have hrange : 48 ≤ c.toNat ∧ c.toNat ≤ 57 := Char.isDigit_iff_toNat.mp h
  unfold isSpace
  simp only [Bool.or_eq_false_iff, Bool.and_eq_false_iff, decide_eq_false_iff_not, beq_eq_false_iff_ne]
  omega

theorem intOfDigits_ascii {chars : List Char} (h : ∀ c ∈ chars, c.isDigit = true) :
    intOfDigits chars = Nat.ofDigitChars 10 chars 0 := by
  rw [Nat.ofDigitChars_eq_foldl]
  refine List.foldl_ext _ _ _ fun n c hc => ?_
  rw [digitValue_ascii (h c hc)]
  rfl

end Digits

/-! ## Strings -/

/-- The groups of `_CROATIAN_DATE_RE`.  No digit is a dot, so the pattern can
match at the dots only. -/
def croatianDate (chars : List Char) : Option (List Char × List Char × List Char) :=
  let groups (day month year : List Char) : Option (List Char × List Char × List Char) :=
    if (day.length = 1 ∨ day.length = 2) ∧ (month.length = 1 ∨ month.length = 2) ∧
        year.length = 4 ∧ (day ++ month ++ year).all isDigit = true then
      some (day, month, year)
    else none
  match chars.splitOn '.' with
  | [day, month, year] => groups day month year
  | [day, month, year, []] => groups day month year
  | _ => none

/-- `_normalize_date`. -/
def normalizeDate (value : String) : String :=
  match croatianDate (strip value).toList with
  | some (day, month, year) =>
    String.ofList (zeroPadded 4 (intOfDigits year) ++ '-' :: zeroPadded 2 (intOfDigits month) ++
      '-' :: zeroPadded 2 (intOfDigits day))
  | none => value

/-- `re.sub(r"\s+", " ", value)`. -/
def collapseSpace (afterSpace : Bool) : List Char → List Char
  | [] => []
  | c :: chars =>
    if isSpace c then
      if afterSpace then collapseSpace true chars else ' ' :: collapseSpace true chars
    else c :: collapseSpace false chars

/-- `_apply_hint`. -/
def applyHint (value : String) (hint : Json) : String :=
  if hint = .str "digits" then String.ofList (value.toList.filter isDigit)
  else if hint = .str "collapse-whitespace" then
    strip (String.ofList (collapseSpace false value.toList))
  else value

/-- `_normalize_leaf` on a string.  Nothing in it raises, so its handler is never
entered. -/
def normalizeLeaf (value : String) (schema : List (String × Json)) : String :=
  let result := if schema.lookup "format" = some (.str "date") then normalizeDate value else value
  match schema.lookup "x-normalize" with
  | some (.str hint) => applyHint result (.str hint)
  | some (.arr hints) => hints.foldl applyHint result
  | _ => result

/-! ## Values -/

/-- `_normalize_node`. -/
def normalizeNode (value schema : Json) : Json :=
  match schema with
  | .obj fields =>
    match value with
    | .obj entries =>
      match _hp : fields.lookup "properties" with
      | some (.obj properties) =>
        .obj (properties.attach.foldl
          (fun result p => Dict.modify result p.1.1 fun v => normalizeNode v p.1.2) entries)
      | _ => value
    | .arr items =>
      match _hi : fields.lookup "items" with
      | some (.obj sub) => .arr (items.map fun v => normalizeNode v (.obj sub))
      | _ => value
    | .str s => .str (normalizeLeaf s fields)
    | _ => value
  | _ => value
termination_by sizeOf schema
decreasing_by
  · exact (Json.sizeOf_field_lt p.2).trans (Json.sizeOf_lookup_lt _hp)
  · exact Json.sizeOf_lookup_lt _hi

/-- `normalize_values`. -/
def normalizeValues (data schema : Json) : Json := normalizeNode data schema

section Equations

/-- `normalizeNode` on a schema object, one step unfolded. -/
theorem normalizeNode_eq (value : Json) (fields : List (String × Json)) :
    normalizeNode value (.obj fields) =
      match value with
      | .obj entries =>
        match fields.lookup "properties" with
        | some (.obj properties) =>
          .obj (Dict.modifyEach (fun sub v => normalizeNode v sub) properties entries)
        | _ => value
      | .arr items =>
        match fields.lookup "items" with
        | some (.obj sub) => .arr (items.map fun v => normalizeNode v (.obj sub))
        | _ => value
      | .str s => .str (normalizeLeaf s fields)
      | _ => value := by
  rw [normalizeNode.eq_def]
  cases value with
  | obj entries =>
    dsimp only
    split
    · next properties hp =>
      rw [hp]
      dsimp only
      -- the fold over the attached properties is the fold over the properties
      rw [Dict.modifyEach, List.foldl_attach (l := properties)
        (f := fun result p => Dict.modify result p.1 fun v => normalizeNode v p.2)]
    · next hno =>
      split
      · next properties hp => exact absurd hp (hno properties)
      · rfl
  | arr items =>
    dsimp only
    split
    · next sub hi => rw [hi]
    · next hno =>
      split
      · next sub hi => exact absurd hi (hno sub)
      · rfl
  | _ => rfl

theorem normalizeNode_not_object {schema : Json} (h : ∀ fields, schema ≠ .obj fields)
    (value : Json) : normalizeNode value schema = value := by
  cases schema with
  | obj fields => exact absurd rfl (h fields)
  | _ => rw [normalizeNode.eq_def]

end Equations

end InternumCore
