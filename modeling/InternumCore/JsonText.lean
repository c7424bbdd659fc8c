import Mathlib.Data.List.Sort
import InternumCore.Json

/-!
# JSON texts

`json.dumps` and `json.loads`, on characters.  What is printed depends on three
options (`DumpStyle`): whether characters beyond ASCII are escaped, whether the
separators have a space, and whether keys are sorted.  What is read is any JSON
text, with Python's extensions `NaN` and `Infinity`.

The digits of a floating-point number are a parameter (`FloatText`).  Reading goes
down to a given depth, where Python raises `RecursionError`.  A loop over the
elements of a container, or over the characters of a string, is given as many
turns as the text has characters.
-/

namespace InternumCore.JsonText

/-- `float.__repr__` on finite doubles but for the negative zero, and `float(text)`. -/
structure FloatText where
  repr : ℚ → List Char
  read : List Char → PyFloat

/-- `int.__repr__`. -/
def dumpInt (n : Int) : List Char :=
  if n < 0 then '-' :: Nat.toDigits 10 n.natAbs else Nat.toDigits 10 n.natAbs

/-- `int` of the whole part of a number. -/
def readWhole : List Char → Int
  | '-' :: digits => -(Nat.ofDigitChars 10 (digits.takeWhile Char.isDigit) 0 : Int)
  | digits => Nat.ofDigitChars 10 (digits.takeWhile Char.isDigit) 0

/-- The texts of the doubles that are whole numbers below `10 ** 16`. -/
def wholeFloats : FloatText where
  repr q := dumpInt q.num ++ ['.', '0']
  read digits :=
    if readWhole digits = 0 ∧ digits.head? = some '-' then .negZero else .finite (readWhole digits)

/-! ## Printing -/

/-- The options of `json.dumps`. -/
structure DumpStyle where
  ensureAscii : Bool := true
  /-- `separators=(",", ":")`. -/
  compact : Bool := false
  sortKeys : Bool := false

/-- The escapes with a letter of their own, each with its letter. -/
def shortEscapes : List (Char × Char) :=
  [('\"', '\"'), ('\\', '\\'), ('\n', 'n'), ('\r', 'r'), ('\t', 't'), ('\x0c', 'f'), ('\x08', 'b')]

/-- `'{0:04x}'.format(unit)`. -/
def unitDigits (unit : Nat) : List Char :=
  [Nat.digitChar (unit / 4096 % 16), Nat.digitChar (unit / 256 % 16),
    Nat.digitChar (unit / 16 % 16), Nat.digitChar (unit % 16)]

/-- An escape by number. -/
def escapeUnit (unit : Nat) : List Char := '\\' :: 'u' :: unitDigits unit

/-- Whether a character without a short escape is escaped all the same. -/
def mustEscape (style : DumpStyle) (c : Char) : Bool :=
  decide (c.toNat < 0x20) || style.ensureAscii && decide (0x7F ≤ c.toNat)

/-- A character of a string. -/
def escapeChar (style : DumpStyle) (c : Char) : List Char :=
  match shortEscapes.lookup c with
  | some letter => ['\\', letter]
  | none =>
    if mustEscape style c then
      if c.toNat < 0x10000 then escapeUnit c.toNat
      else
        let n := c.toNat - 0x10000
        escapeUnit (0xD800 + n / 0x400 % 0x400) ++ escapeUnit (0xDC00 + n % 0x400)
    else [c]

/-- The characters of a string, without the quotes. -/
def escapeChars (style : DumpStyle) (chars : List Char) : List Char :=
  chars.flatMap (escapeChar style)

def dumpString (style : DumpStyle) (s : String) : List Char :=
  '\"' :: (escapeChars style s.toList ++ ['\"'])

def dumpFloat (fmt : FloatText) : PyFloat → List Char
  | .finite q => fmt.repr q
  | .negZero => ['-', '0', '.', '0']
  | .infinite false => ['I', 'n', 'f', 'i', 'n', 'i', 't', 'y']
  | .infinite true => ['-', 'I', 'n', 'f', 'i', 'n', 'i', 't', 'y']
  | .nan => ['N', 'a', 'N']

/-- The separators of the two pairs in use. -/
def itemSeparator (style : DumpStyle) : List Char := if style.compact then [','] else [',', ' ']

def keySeparator (style : DumpStyle) : List Char := if style.compact then [':'] else [':', ' ']

section Dump

variable (fmt : FloatText) (style : DumpStyle)

mutual

/-- The text of a value whose keys are in order already. -/
def dumpTree : Json → List Char
  | .null => ['n', 'u', 'l', 'l']
  | .bool true => ['t', 'r', 'u', 'e']
  | .bool false => ['f', 'a', 'l', 's', 'e']
  | .int n => dumpInt n
  | .float x => dumpFloat fmt x
  | .str s => dumpString style s
  | .arr [] => ['[', ']']
  | .arr (v :: items) => '[' :: (dumpTree v ++ (dumpItems items ++ [']']))
  | .obj [] => ['\x7b', '\x7d']
  | .obj ((k, v) :: fields) =>
    '\x7b' :: (dumpString style k ++ (keySeparator style ++ (dumpTree v ++
      (dumpFields fields ++ ['\x7d']))))

/-- The elements after the first. -/
def dumpItems : List Json → List Char
  | [] => []
  | v :: items => itemSeparator style ++ (dumpTree v ++ dumpItems items)

/-- The entries after the first. -/
def dumpFields : List (String × Json) → List Char
  | [] => []
  | (k, v) :: fields =>
    itemSeparator style ++ (dumpString style k ++ (keySeparator style ++
      (dumpTree v ++ dumpFields fields)))

end

end Dump

mutual

/-- The value with the keys of every object in order. -/
def sortTree : Json → Json
  | .arr items => .arr (sortItems items)
  | .obj fields => .obj ((sortFields fields).insertionSort fun a b => a.1 ≤ b.1)
  | v => v

def sortItems : List Json → List Json
  | [] => []
  | v :: items => sortTree v :: sortItems items

def sortFields : List (String × Json) → List (String × Json)
  | [] => []
  | (k, v) :: fields => (k, sortTree v) :: sortFields fields

end

/-- What of a value is printed. -/
def DumpStyle.arrange (style : DumpStyle) (v : Json) : Json :=
  if style.sortKeys then sortTree v else v

/-- `json.dumps`, on integers of at most 4300 digits. -/
def dumps (fmt : FloatText) (style : DumpStyle) (v : Json) : String :=
  String.ofList (dumpTree fmt style (style.arrange v))

/-! ## Reading -/

/-- What stops `json.loads`. -/
inductive ScanError where
  /-- `JSONDecodeError`. -/
  | decode
  /-- The `ValueError` for an integer of more than 4300 digits. -/
  | digits
  /-- `RecursionError`. -/
  | recursion
  /-- Half a surrogate pair, which Python keeps and no Lean string can hold. -/
  | surrogate
  deriving DecidableEq

/-- A reading that may stop.  A function that reads from the front of a text returns
what it has read with the rest of the text. -/
abbrev Scanned := Except ScanError

/-- `WHITESPACE.match(s, end).end()`. -/
def skipSpace (text : List Char) : List Char := text.dropWhile (· ∈ [' ', '\t', '\n', '\r'])

/-- The escapes of one letter. -/
def letterEscapes : List (Char × Char) :=
  [('\"', '\"'), ('\\', '\\'), ('/', '/'), ('b', '\x08'), ('f', '\x0c'), ('n', '\n'), ('r', '\r'),
    ('t', '\t')]

def hexValue (c : Char) : Option Nat :=
  if '0' ≤ c ∧ c ≤ '9' then some (c.toNat - 48)
  else if 'a' ≤ c ∧ c ≤ 'f' then some (c.toNat - 87)
  else if 'A' ≤ c ∧ c ≤ 'F' then some (c.toNat - 55)
  else none

/-- Four hexadecimal digits. -/
def scanUnit : List Char → Scanned (Nat × List Char)
  | a :: b :: c :: d :: rest =>
    match hexValue a, hexValue b, hexValue c, hexValue d with
    | some a, some b, some c, some d => .ok (((a * 16 + b) * 16 + c) * 16 + d, rest)
    | _, _, _, _ => .error .decode
  | _ => .error .decode

def isHighSurrogate (unit : Nat) : Bool := decide (0xD800 ≤ unit ∧ unit ≤ 0xDBFF)

def isLowSurrogate (unit : Nat) : Bool := decide (0xDC00 ≤ unit ∧ unit ≤ 0xDFFF)

/-- The second half of a surrogate pair. -/
def scanLow (high : Nat) : List Char → Scanned (Char × List Char)
  | '\\' :: 'u' :: rest => do
    let (low, rest) ← scanUnit rest
    if isLowSurrogate low then
      return (Char.ofNat (0x10000 + (high - 0xD800) * 0x400 + (low - 0xDC00)), rest)
    else throw .surrogate
  | _ => throw .surrogate

/-- `\uXXXX` behind the `u`, with the other half of a surrogate pair. -/
def scanUnicode (text : List Char) : Scanned (Char × List Char) := do
  let (unit, rest) ← scanUnit text
  if isHighSurrogate unit then scanLow unit rest
  else if isLowSurrogate unit then throw .surrogate
  else return (Char.ofNat unit, rest)

/-- What follows a backslash. -/
def scanEscape : List Char → Scanned (Char × List Char)
  | [] => .error .decode
  | c :: rest =>
    if c = 'u' then scanUnicode rest
    else
      match letterEscapes.lookup c with
      | some e => .ok (e, rest)
      | none => .error .decode

/-- `scanstring`, behind the opening quote. -/
def scanChars : Nat → List Char → Scanned (List Char × List Char)
  | _, [] => .error .decode
  | 0, _ => .error .decode
  | turns + 1, c :: rest =>
    if c = '\"' then .ok ([], rest)
    else if c = '\\' then do
      let (e, rest) ← scanEscape rest
      let (chars, rest) ← scanChars turns rest
      return (e :: chars, rest)
    else if c.toNat < 0x20 then .error .decode
    else do
      let (chars, rest) ← scanChars turns rest
      return (c :: chars, rest)

def scanString (text : List Char) : Scanned (String × List Char) := do
  let (chars, rest) ← scanChars text.length text
  return (String.ofList chars, rest)

/-! ### Numbers -/

/-- The integer part: no digit follows a leading zero. -/
def integerPart (text : List Char) : List Char :=
  match text with
  | '0' :: _ => ['0']
  | _ => text.takeWhile Char.isDigit

/-- A point with digits behind it. -/
def fractionPart : List Char → List Char
  | '.' :: rest =>
    match rest.takeWhile Char.isDigit with
    | [] => []
    | digits => '.' :: digits
  | _ => []

/-- The sign of an exponent. -/
def exponentSign : List Char → List Char
  | '+' :: _ => ['+']
  | '-' :: _ => ['-']
  | _ => []

/-- An `e`, a sign and digits. -/
def exponentPart : List Char → List Char
  | c :: rest =>
    if c = 'e' ∨ c = 'E' then
      let sign := exponentSign rest
      match (rest.drop sign.length).takeWhile Char.isDigit with
      | [] => []
      | digits => c :: (sign ++ digits)
    else []
  | [] => []

/-- `sys.get_int_max_str_digits()`. -/
def maxStrDigits : Nat := 4300

/-- `_match_number`, behind the sign. -/
def scanUnsigned (fmt : FloatText) (negative : Bool) (text : List Char) :
    Scanned (Json × List Char) :=
  let digits := integerPart text
  let rest := text.drop digits.length
  let fraction := fractionPart rest
  let rest := rest.drop fraction.length
  let exponent := exponentPart rest
  let rest := rest.drop exponent.length
  if digits = [] then .error .decode
  else if fraction = [] ∧ exponent = [] then
    if maxStrDigits < digits.length then .error .digits
    else
      let n : Int := Nat.ofDigitChars 10 digits 0
      .ok (.int (if negative then -n else n), rest)
  else
    let sign := if negative then ['-'] else []
    .ok (.float (fmt.read (sign ++ (digits ++ (fraction ++ exponent)))), rest)

/-- What is no string and no container. -/
def scanLiteral (fmt : FloatText) : List Char → Scanned (Json × List Char)
  | 'n' :: 'u' :: 'l' :: 'l' :: rest => .ok (.null, rest)
  | 't' :: 'r' :: 'u' :: 'e' :: rest => .ok (.bool true, rest)
  | 'f' :: 'a' :: 'l' :: 's' :: 'e' :: rest => .ok (.bool false, rest)
  | 'N' :: 'a' :: 'N' :: rest => .ok (.float .nan, rest)
  | 'I' :: 'n' :: 'f' :: 'i' :: 'n' :: 'i' :: 't' :: 'y' :: rest =>
    .ok (.float (.infinite false), rest)
  | '-' :: 'I' :: 'n' :: 'f' :: 'i' :: 'n' :: 'i' :: 't' :: 'y' :: rest =>
    .ok (.float (.infinite true), rest)
  | '-' :: rest => scanUnsigned fmt true rest
  | text => scanUnsigned fmt false text

/-! ### Containers -/

section Containers

variable (scan : List Char → Scanned (Json × List Char))

/-- The elements of an array, from one of them on. -/
def scanItems : Nat → List Char → Scanned (List Json × List Char)
  | 0, _ => .error .decode
  | turns + 1, text => do
    let (v, rest) ← scan text
    match skipSpace rest with
    | ',' :: rest => do
      let (items, rest) ← scanItems turns (skipSpace rest)
      return (v :: items, rest)
    | ']' :: rest => return ([v], rest)
    | _ => throw .decode

/-- A key and what is behind its colon. -/
def scanKey : List Char → Scanned (String × List Char)
  | '\"' :: rest => do
    let (key, rest) ← scanString rest
    match skipSpace rest with
    | ':' :: rest => return (key, skipSpace rest)
    | _ => throw .decode
  | _ => .error .decode

/-- The entries of an object, from one of them on. -/
def scanFields : Nat → List Char → Scanned (List (String × Json) × List Char)
  | 0, _ => .error .decode
  | turns + 1, text => do
    let (key, rest) ← scanKey text
    let (v, rest) ← scan rest
    match skipSpace rest with
    | ',' :: rest => do
      let (fields, rest) ← scanFields turns (skipSpace rest)
      return ((key, v) :: fields, rest)
    | '\x7d' :: rest => return ([(key, v)], rest)
    | _ => throw .decode

/-- `dict(pairs)`: a repeated key keeps its place and takes the last value. -/
def dictOf (pairs : List (String × Json)) : List (String × Json) :=
  pairs.foldl (fun d p => Dict.set d p.1 p.2) []

def scanArray (text : List Char) : Scanned (Json × List Char) :=
  match skipSpace text with
  | ']' :: rest => .ok (.arr [], rest)
  | text => do
    let (items, rest) ← scanItems scan text.length text
    return (.arr items, rest)

def scanObject (text : List Char) : Scanned (Json × List Char) :=
  match skipSpace text with
  | '\x7d' :: rest => .ok (.obj [], rest)
  | text => do
    let (fields, rest) ← scanFields scan text.length text
    return (.obj (dictOf fields), rest)

end Containers

/-- `scan_once`, where containers may still be nested `depth` deep. -/
def scanOnce (fmt : FloatText) : Nat → List Char → Scanned (Json × List Char)
  | 0, c :: rest =>
    if c = '\"' then do
      let (s, rest) ← scanString rest
      return (.str s, rest)
    else if c = '[' ∨ c = '\x7b' then .error .recursion
    else scanLiteral fmt (c :: rest)
  | depth + 1, c :: rest =>
    if c = '\"' then do
      let (s, rest) ← scanString rest
      return (.str s, rest)
    else if c = '[' then scanArray (scanOnce fmt depth) rest
    else if c = '\x7b' then scanObject (scanOnce fmt depth) rest
    else scanLiteral fmt (c :: rest)
  | _, [] => .error .decode

/-- `json.loads`, where containers may be nested `depth` deep. -/
def loads (fmt : FloatText) (depth : Nat) (text : String) : Scanned Json :=
  match text.toList with
  | '\uFEFF' :: _ => .error .decode
  | chars => do
    let (v, rest) ← scanOnce fmt depth (skipSpace chars)
    if skipSpace rest = [] then return v else throw .decode

/-! ## What is read -/

theorem nodup_keys_foldl_set {pairs d : List (String × Json)} (h : (Dict.keys d).Nodup) :
    (Dict.keys (pairs.foldl (fun d p => Dict.set d p.1 p.2) d)).Nodup := by
  induction pairs generalizing d with
  | nil => exact h
  | cons p pairs ih => exact ih (Dict.nodup_keys_set h p.1 p.2)

/-- A dictionary lists no key twice, whatever it was built from. -/
theorem nodup_keys_dictOf (pairs : List (String × Json)) : (Dict.keys (dictOf pairs)).Nodup :=
  nodup_keys_foldl_set List.nodup_nil

theorem mem_of_mem_foldl_set {pairs d : List (String × Json)} {entry : String × Json}
    (h : entry ∈ pairs.foldl (fun d p => Dict.set d p.1 p.2) d) : entry ∈ d ∨ entry ∈ pairs := by
  induction pairs generalizing d with
  | nil => exact Or.inl h
  | cons p pairs ih =>
    rcases ih h with hset | hrest
    · rcases Dict.mem_of_mem_set hset with rfl | hold
      · exact Or.inr List.mem_cons_self
      · exact Or.inl hold
    · exact Or.inr (List.mem_cons_of_mem _ hrest)

theorem mem_of_mem_dictOf {pairs : List (String × Json)} {entry : String × Json}
    (h : entry ∈ dictOf pairs) : entry ∈ pairs := by
  rcases mem_of_mem_foldl_set h with hnil | hpairs
  · cases hnil
  · exact hpairs

/-- A step of the scanner that went on had a result. -/
theorem bind_eq_ok {α β : Type} {x : Scanned α} {f : α → Scanned β} {b : β}
    (h : x >>= f = .ok b) : ∃ a, x = .ok a ∧ f a = .ok b := by
  cases x with
  | error e => cases h
  | ok a => exact ⟨a, rfl, h⟩

/-- Whatever the scanner reads lists no key twice. -/
def ReadsUnique (scan : List Char → Scanned (Json × List Char)) : Prop :=
  ∀ text v rest, scan text = .ok (v, rest) → v.uniqueKeys = true

section Unique

variable {scan : List Char → Scanned (Json × List Char)}

theorem uniqueKeys_scanItems (hscan : ReadsUnique scan) {turns : Nat} {text rest : List Char}
    {items : List Json} (h : scanItems scan turns text = .ok (items, rest)) :
    ∀ v ∈ items, v.uniqueKeys = true := by
  induction turns generalizing text items rest with
  | zero => cases h
  | succ turns ih =>
    obtain ⟨⟨v, behind⟩, hv, h⟩ := bind_eq_ok h
    have hunique : v.uniqueKeys = true := hscan _ _ _ hv
    dsimp only at h
    split at h
    · obtain ⟨⟨more, end_⟩, hmore, h⟩ := bind_eq_ok h
      cases h
      exact List.forall_mem_cons.mpr ⟨hunique, ih hmore⟩
    · cases h
      exact List.forall_mem_singleton.mpr hunique
    · cases h

theorem uniqueKeys_scanFields (hscan : ReadsUnique scan) {turns : Nat} {text rest : List Char}
    {fields : List (String × Json)} (h : scanFields scan turns text = .ok (fields, rest)) :
    ∀ field ∈ fields, field.2.uniqueKeys = true := by
  induction turns generalizing text fields rest with
  | zero => cases h
  | succ turns ih =>
    obtain ⟨⟨key, behind⟩, -, h⟩ := bind_eq_ok h
    obtain ⟨⟨v, behind'⟩, hv, h⟩ := bind_eq_ok h
    have hunique : v.uniqueKeys = true := hscan _ _ _ hv
    dsimp only at h
    split at h
    · obtain ⟨⟨more, end_⟩, hmore, h⟩ := bind_eq_ok h
      cases h
      exact List.forall_mem_cons.mpr ⟨hunique, ih hmore⟩
    · cases h
      exact List.forall_mem_singleton.mpr hunique
    · cases h

theorem uniqueKeys_scanArray (hscan : ReadsUnique scan) : ReadsUnique (scanArray scan) := by
  intro text v rest h
  unfold scanArray at h
  split at h
  · cases h
    rfl
  · obtain ⟨⟨items, behind⟩, hitems, h⟩ := bind_eq_ok h
    cases h
    exact Json.uniqueKeys_arr_iff.mpr (uniqueKeys_scanItems hscan hitems)

theorem uniqueKeys_scanObject (hscan : ReadsUnique scan) : ReadsUnique (scanObject scan) := by
  intro text v rest h
  unfold scanObject at h
  split at h
  · cases h
    rfl
  · obtain ⟨⟨fields, behind⟩, hfields, h⟩ := bind_eq_ok h
    cases h
    refine Json.uniqueKeys_obj_iff.mpr ⟨nodup_keys_dictOf fields, fun k v hm => ?_⟩
    exact uniqueKeys_scanFields hscan hfields _ (mem_of_mem_dictOf hm)

end Unique

theorem uniqueKeys_scanUnsigned (fmt : FloatText) (negative : Bool) :
    ReadsUnique (scanUnsigned fmt negative) := by
  intro text v rest h
  unfold scanUnsigned at h
  dsimp only at h
  split_ifs at h <;> cases h <;> rfl

theorem uniqueKeys_scanLiteral (fmt : FloatText) : ReadsUnique (scanLiteral fmt) := by
  intro text v rest h
  unfold scanLiteral at h
  split at h
  case h_7 => exact uniqueKeys_scanUnsigned fmt true _ _ _ h
  case h_8 => exact uniqueKeys_scanUnsigned fmt false _ _ _ h
  all_goals
    cases h
    rfl

theorem uniqueKeys_scanOnce (fmt : FloatText) (depth : Nat) : ReadsUnique (scanOnce fmt depth) := by
  have hstring {text rest : List Char} {v : Json}
      (h : (do let (s, rest) ← scanString text; return (.str s, rest) : Scanned (Json × List Char)) =
        .ok (v, rest)) : v.uniqueKeys = true := by
    obtain ⟨⟨s, behind⟩, -, h⟩ := bind_eq_ok h
    cases h
    rfl
  induction depth with
  | zero =>
    intro text v rest h
    cases text with
    | nil => cases h
    | cons c text =>
      unfold scanOnce at h
      split_ifs at h
      · exact hstring h
      · exact uniqueKeys_scanLiteral fmt _ _ _ h
  | succ depth ih =>
    intro text v rest h
    cases text with
    | nil => cases h
    | cons c text =>
      unfold scanOnce at h
      split_ifs at h
      · exact hstring h
      · exact uniqueKeys_scanArray ih _ _ _ h
      · exact uniqueKeys_scanObject ih _ _ _ h
      · exact uniqueKeys_scanLiteral fmt _ _ _ h

/-- **What `json.loads` makes lists no key twice**, however often the text names it. -/
theorem uniqueKeys_loads {fmt : FloatText} {depth : Nat} {text : String} {v : Json}
    (h : loads fmt depth text = .ok v) : v.uniqueKeys = true := by
  unfold loads at h
  split at h
  · cases h
  · obtain ⟨⟨w, rest⟩, hscan, h⟩ := bind_eq_ok h
    dsimp only at h
    split_ifs at h
    cases h
    exact uniqueKeys_scanOnce fmt depth _ _ _ hscan

end InternumCore.JsonText
