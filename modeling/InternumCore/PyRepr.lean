import Mathlib.Algebra.Ring.Nat
import InternumCore.InOrder
import InternumCore.Json

/-!
# `repr`

How Python shows a JSON value.  A string is shown as a literal, and no literal is the
beginning of another (`reprString_append_inj`): what was shown can be told from the
text, also in the middle of it.  Every value is shown, unless an integer in it has more
than 4300 digits or its containers are nested too deep (`reprTree_ok_iff`).

Which characters beyond ASCII are printable, and the digits of a float, are parameters.
-/

namespace InternumCore.PyRepr

/-! ## Strings -/

/-- The quote of a literal: the double one if only the single one is in the string. -/
def quoteOf (chars : List Char) : Char :=
  if '\x27' ∈ chars ∧ '\x22' ∉ chars then '\x22' else '\x27'

/-- A number in so many hexadecimal digits. -/
def hexDigits : Nat → Nat → List Char
  | 0, _ => []
  | width + 1, n => hexDigits width (n / 16) ++ [Nat.digitChar (n % 16)]

/-- An escape by number. -/
def escapeNumber (letter : Char) (width : Nat) (c : Char) : List Char :=
  '\\' :: letter :: hexDigits width c.toNat

/-- A character in a literal between two of these quotes. -/
def reprChar (printable : Char → Bool) (quote c : Char) : List Char :=
  if c = quote ∨ c = '\\' then ['\\', c]
  else if c = '\t' then ['\\', 't']
  else if c = '\n' then ['\\', 'n']
  else if c = '\r' then ['\\', 'r']
  else if c.toNat < 0x20 ∨ c.toNat = 0x7F then escapeNumber 'x' 2 c
  else if c.toNat < 0x7F ∨ printable c then [c]
  else if c.toNat ≤ 0xFF then escapeNumber 'x' 2 c
  else if c.toNat ≤ 0xFFFF then escapeNumber 'u' 4 c
  else escapeNumber 'U' 8 c

/-- `repr(text)`. -/
def reprString (printable : Char → Bool) (text : String) : String :=
  let quote := quoteOf text.toList
  String.ofList (quote :: (text.toList.flatMap (reprChar printable quote) ++ [quote]))

/-! ### Reading a literal -/

/-- The value of a hexadecimal digit. -/
def digitValue (c : Char) : Nat := if c.isDigit then c.toNat - 48 else c.toNat - 87

def hexValue (digits : List Char) : Nat := digits.foldl (fun n c => 16 * n + digitValue c) 0

/-- The character a literal goes on with, and what is left of it. -/
def readChar : List Char → Option (Char × List Char)
  | '\\' :: letter :: rest =>
    if letter = 't' then some ('\t', rest)
    else if letter = 'n' then some ('\n', rest)
    else if letter = 'r' then some ('\r', rest)
    else if letter = 'x' then some (Char.ofNat (hexValue (rest.take 2)), rest.drop 2)
    else if letter = 'u' then some (Char.ofNat (hexValue (rest.take 4)), rest.drop 4)
    else if letter = 'U' then some (Char.ofNat (hexValue (rest.take 8)), rest.drop 8)
    else some (letter, rest)
  | c :: rest => some (c, rest)
  | [] => none

theorem digitValue_digitChar : ∀ d < 16, digitValue (Nat.digitChar d) = d := by decide

theorem length_hexDigits (width n : Nat) : (hexDigits width n).length = width := by
  induction width generalizing n with
  | zero => rfl
  | succ width ih => rw [hexDigits, List.length_append, ih, List.length_singleton]

theorem hexValue_hexDigits {width n : Nat} (h : n < 16 ^ width) :
    hexValue (hexDigits width n) = n := by
  induction width generalizing n with
  | zero =>
    obtain rfl : n = 0 := by simpa using h
    rfl
  | succ width ih =>
    have hhigh : hexValue (hexDigits width (n / 16)) = n / 16 :=
      ih (Nat.div_lt_of_lt_mul (by rwa [← Nat.pow_succ']))
    have hlast := digitValue_digitChar (n % 16) (Nat.mod_lt n (by decide))
    rw [hexValue] at hhigh
    rw [hexValue, hexDigits, List.foldl_append, hhigh, List.foldl_cons, List.foldl_nil, hlast]
    exact Nat.div_add_mod n 16

section Literals

variable {printable : Char → Bool} {quote c : Char}

/-- An escape by number is read back. -/
theorem char_of_escape {width : Nat} (h : c.toNat < 16 ^ width) (rest : List Char) :
    Char.ofNat (hexValue ((hexDigits width c.toNat ++ rest).take width)) = c ∧
      (hexDigits width c.toNat ++ rest).drop width = rest := by
  have hlength := length_hexDigits width c.toNat
  constructor
  · rw [List.take_left' hlength, hexValue_hexDigits h, Char.ofNat_toNat]
  · exact List.drop_left' hlength

/-- A character that is no backslash stands for itself. -/
theorem readChar_self (h : c ≠ '\\') (rest : List Char) : readChar (c :: rest) = some (c, rest) := by
  unfold readChar
  split
  · next heq => exact absurd (List.cons.inj heq).1 h
  · next heq =>
    obtain ⟨rfl, rfl⟩ := List.cons.inj heq
    rfl
  · next heq => cases heq

/-- **A character is read back**, whatever comes behind it. -/
theorem readChar_reprChar (hquote : quote = '\x27' ∨ quote = '\x22') (rest : List Char) :
    readChar (reprChar printable quote c ++ rest) = some (c, rest) := by
  have hx := @char_of_escape c 2
  have hu := @char_of_escape c 4
  have hU := @char_of_escape c 8
  have hlt : c.toNat < 16 ^ 8 := c.val.toNat_lt
  unfold reprChar
  split_ifs with hbackslash htab hfeed hreturn hcontrol hshown hbyte hword
  · have hletter : c ≠ 't' ∧ c ≠ 'n' ∧ c ≠ 'r' ∧ c ≠ 'x' ∧ c ≠ 'u' ∧ c ≠ 'U' := by
      rcases hbackslash with rfl | rfl
      · rcases hquote with rfl | rfl <;> decide
      · decide
    simp [readChar, hletter]
  · rw [htab]
    rfl
  · rw [hfeed]
    rfl
  · rw [hreturn]
    rfl
  · obtain ⟨hc, hrest⟩ := hx (by omega) rest
    simp [escapeNumber, readChar, hc, hrest]
  · exact readChar_self (fun h => hbackslash (Or.inr h)) rest
  · obtain ⟨hc, hrest⟩ := hx (by omega) rest
    simp [escapeNumber, readChar, hc, hrest]
  · obtain ⟨hc, hrest⟩ := hu (by omega) rest
    simp [escapeNumber, readChar, hc, hrest]
  · obtain ⟨hc, hrest⟩ := hU hlt rest
    simp [escapeNumber, readChar, hc, hrest]

/-- No character begins with the quote. -/
theorem reprChar_eq_cons (hquote : quote = '\x27' ∨ quote = '\x22') :
    ∃ d tail, reprChar printable quote c = d :: tail ∧ d ≠ quote := by
  have hbackslash : '\\' ≠ quote := by
    rcases hquote with rfl | rfl <;> decide
  unfold reprChar escapeNumber
  split_ifs with hself
  all_goals first
    | exact ⟨_, _, rfl, hbackslash⟩
    | exact ⟨_, _, rfl, fun h => hself (Or.inl h)⟩

/-- The characters up to the closing quote are told from the text. -/
theorem reprChars_append_inj (hquote : quote = '\x27' ∨ quote = '\x22') {cs ds x y : List Char}
    (h : cs.flatMap (reprChar printable quote) ++ quote :: x =
      ds.flatMap (reprChar printable quote) ++ quote :: y) : cs = ds ∧ x = y := by
  induction cs generalizing ds with
  | nil =>
    cases ds with
    | nil => exact ⟨rfl, (List.cons.inj h).2⟩
    | cons d ds =>
      obtain ⟨first, tail, heq, hne⟩ := @reprChar_eq_cons printable quote d hquote
      rw [List.flatMap_cons, heq] at h
      exact absurd (List.cons.inj h).1.symm hne
  | cons c cs ih =>
    cases ds with
    | nil =>
      obtain ⟨first, tail, heq, hne⟩ := @reprChar_eq_cons printable quote c hquote
      rw [List.flatMap_cons, heq] at h
      exact absurd (List.cons.inj h).1 hne
    | cons d ds =>
      rw [List.flatMap_cons, List.flatMap_cons, List.append_assoc, List.append_assoc] at h
      have hread := congrArg readChar h
      rw [readChar_reprChar hquote, readChar_reprChar hquote] at hread
      obtain ⟨rfl, hrest⟩ := Prod.mk.inj (Option.some.inj hread)
      obtain ⟨rfl, rfl⟩ := ih hrest
      exact ⟨rfl, rfl⟩

theorem quoteOf_cases (chars : List Char) : quoteOf chars = '\x27' ∨ quoteOf chars = '\x22' := by
  unfold quoteOf
  split
  · exact Or.inr rfl
  · exact Or.inl rfl

/-- **No literal is the beginning of another.** -/
theorem reprString_append_inj {s t x y : String}
    (h : reprString printable s ++ x = reprString printable t ++ y) : s = t ∧ x = y := by
  have hchars := congrArg String.toList h
  simp only [reprString, String.toList_append, String.toList_ofList, List.cons_append,
    List.append_assoc, List.cons.injEq] at hchars
  obtain ⟨hquote, hchars⟩ := hchars
  rw [← hquote] at hchars
  obtain ⟨hs, hx⟩ := reprChars_append_inj (quoteOf_cases s.toList) hchars
  exact ⟨String.toList_inj.mp hs, String.toList_inj.mp hx⟩

theorem reprString_inj {s t : String} (h : reprString printable s = reprString printable t) :
    s = t :=
  (reprString_append_inj (congrArg (· ++ "") h)).1

end Literals

/-! ## Values -/

/-- What `repr` raises: `ValueError` for an integer of more than 4300 digits, or
`RecursionError`. -/
inductive ReprError where
  | digits
  | recursion
  deriving DecidableEq

/-- `repr(value)`, where so many calls may be nested. -/
def reprTree (printable : Char → Bool) (floatRepr : PyFloat → String) :
    Nat → Json → Except ReprError String
  | 0, _ => .error .recursion
  | _ + 1, .null => .ok "None"
  | _ + 1, .bool b => .ok (if b then "True" else "False")
  | _ + 1, .int n => if n.natAbs < 10 ^ 4300 then .ok (toString n) else .error .digits
  | _ + 1, .float x => .ok (floatRepr x)
  | _ + 1, .str s => .ok (reprString printable s)
  | depth + 1, .arr items => do
    let shown ← items.mapM (reprTree printable floatRepr depth)
    return "[" ++ ", ".intercalate shown ++ "]"
  | depth + 1, .obj fields => do
    let shown ← fields.mapM fun p => do
      return reprString printable p.1 ++ ": " ++ (← reprTree printable floatRepr depth p.2)
    return "\x7b" ++ ", ".intercalate shown ++ "\x7d"

/-- The value is nested less than `depth` deep, and its integers have at most 4300
digits. -/
inductive Showable : Nat → Json → Prop where
  | null {depth : Nat} : Showable (depth + 1) .null
  | bool {depth : Nat} (b : Bool) : Showable (depth + 1) (.bool b)
  | int {depth : Nat} {n : Int} (h : n.natAbs < 10 ^ 4300) : Showable (depth + 1) (.int n)
  | float {depth : Nat} (x : PyFloat) : Showable (depth + 1) (.float x)
  | str {depth : Nat} (s : String) : Showable (depth + 1) (.str s)
  | arr {depth : Nat} {items : List Json} (h : ∀ v ∈ items, Showable depth v) :
      Showable (depth + 1) (.arr items)
  | obj {depth : Nat} {fields : List (String × Json)} (h : ∀ p ∈ fields, Showable depth p.2) :
      Showable (depth + 1) (.obj fields)

/-- **A value is shown** exactly if it can be. -/
theorem reprTree_ok_iff {printable : Char → Bool} {floatRepr : PyFloat → String} {depth : Nat}
    {v : Json} : (∃ text, reprTree printable floatRepr depth v = .ok text) ↔ Showable depth v := by
  induction depth generalizing v with
  | zero =>
    refine iff_of_false ?_ ?_
    · rintro ⟨text, h⟩
      cases h
    · rintro ⟨⟩
  | succ depth ih =>
    cases v with
    | null => exact iff_of_true ⟨_, rfl⟩ .null
    | bool b => exact iff_of_true ⟨_, rfl⟩ (.bool b)
    | float x => exact iff_of_true ⟨_, rfl⟩ (.float x)
    | str s => exact iff_of_true ⟨_, rfl⟩ (.str s)
    | int n =>
      rw [reprTree]
      constructor
      · rintro ⟨text, h⟩
        split at h
        · next hn => exact .int hn
        · cases h
      · rintro ⟨⟩
        next hn => exact ⟨_, if_pos hn⟩
    | arr items =>
      have hitems : (∃ shown, items.mapM (reprTree printable floatRepr depth) = .ok shown) ↔
          ∀ v ∈ items, Showable depth v := by
        rw [exists_mapM_eq_ok_iff]
        exact forall₂_congr fun v _ => ih
      have hshown : Showable (depth + 1) (.arr items) ↔ ∀ v ∈ items, Showable depth v :=
        ⟨fun h => by cases h; assumption, .arr⟩
      rw [hshown, ← hitems, reprTree]
      cases items.mapM (reprTree printable floatRepr depth) <;>
        simp [bind, Except.bind, pure, Except.pure]
    | obj fields =>
      have hentry (p : String × Json) : (∃ shown, (do
          return reprString printable p.1 ++ ": " ++ (← reprTree printable floatRepr depth p.2) :
          Except ReprError String) = .ok shown) ↔ Showable depth p.2 := by
        rw [← @ih p.2]
        cases reprTree printable floatRepr depth p.2 <;>
          simp [bind, Except.bind, pure, Except.pure]
      have hfields : (∃ shown, (fields.mapM fun p => do
          return reprString printable p.1 ++ ": " ++ (← reprTree printable floatRepr depth p.2) :
          Except ReprError (List String)) = .ok shown) ↔ ∀ p ∈ fields, Showable depth p.2 := by
        rw [exists_mapM_eq_ok_iff]
        exact forall₂_congr fun p _ => hentry p
      have hshown : Showable (depth + 1) (.obj fields) ↔ ∀ p ∈ fields, Showable depth p.2 :=
        ⟨fun h => by cases h; assumption, .obj⟩
      rw [hshown, ← hfields, reprTree]
      cases (fields.mapM fun p => do
          return reprString printable p.1 ++ ": " ++ (← reprTree printable floatRepr depth p.2) :
          Except ReprError (List String)) <;>
        simp [bind, Except.bind, pure, Except.pure]

end InternumCore.PyRepr
