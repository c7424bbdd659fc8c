import InternumCore.LineTrim

/-!
# Python text operations

The `str` methods the service calls, on Lean strings: a Python string is read
here as a sequence of Unicode scalar values.  The character classes follow
`str.isspace` and the table of line boundaries of `str.splitlines`; all other
functions are built from them as their documentation says.
-/

namespace InternumCore

/-- `c.isspace()`. -/
def isSpace (c : Char) : Bool :=
  let n := c.toNat
  (0x09 ≤ n && n ≤ 0x0D) || (0x1C ≤ n && n ≤ 0x20) || n == 0x85 || n == 0xA0 || n == 0x1680 ||
    (0x2000 ≤ n && n ≤ 0x200A) || n == 0x2028 || n == 0x2029 || n == 0x202F || n == 0x205F ||
    n == 0x3000

/-- The characters at which `str.splitlines` ends a line. -/
def isLineBreak (c : Char) : Bool :=
  let n := c.toNat
  (0x0A ≤ n && n ≤ 0x0D) || (0x1C ≤ n && n ≤ 0x1E) || n == 0x85 || n == 0x2028 || n == 0x2029

/-- The line breaks of Python text: a carriage return takes a following line
feed with it. -/
def textBreaks : LineSplit.Breaks Char where
  isBreak := isLineBreak
  pairs a b := a == '\r' && b == '\n'

/-- `text.splitlines()`. -/
def splitlines (text : String) : List String :=
  (LineSplit.splitLines textBreaks [] text.toList).map String.ofList

/-- `"\n".join(lines)`. -/
def joinLines (lines : List String) : String :=
  String.ofList (LineSplit.join '\n' (lines.map String.toList))

/-- The characters of a text without the leading and trailing ones in `p`. -/
def stripChars (p : Char → Bool) (chars : List Char) : List Char :=
  (chars.dropWhile p).rdropWhile p

/-- `text.strip()`. -/
def strip (text : String) : String :=
  String.ofList (stripChars isSpace text.toList)

/-- `text.startswith(start)`. -/
def startsWith (text start : String) : Bool :=
  start.toList.isPrefixOf text.toList

theorem startsWith_slash_iff {name : String} :
    startsWith name "/" = true ↔ name.toList.head? = some '/' := by
  have hslash : "/".toList = ['/'] := rfl
  unfold startsWith
  rw [hslash]
  cases name.toList with
  | nil => simp
  | cons c chars =>
    simp only [List.isPrefixOf, Bool.and_true, beq_iff_eq, List.head?_cons, Option.some.injEq]
    exact eq_comm

/-- Where there is nothing to strip nothing is stripped. -/
theorem stripChars_eq_self {p : Char → Bool} {chars : List Char} (h : ∀ c ∈ chars, p c = false) :
    stripChars p chars = chars := by
  have hfront : chars.dropWhile p = chars := by
    cases chars with
    | nil => rfl
    | cons c chars => rw [List.dropWhile_cons, h c List.mem_cons_self, if_neg Bool.false_ne_true]
  rw [stripChars, hfront, List.rdropWhile_eq_self_iff]
  intro hne
  rw [h _ (List.getLast_mem hne)]
  exact Bool.false_ne_true

theorem mem_of_mem_stripChars {p : Char → Bool} {chars : List Char} {c : Char}
    (h : c ∈ stripChars p chars) : c ∈ chars :=
  (List.dropWhile_suffix p).subset ((List.rdropWhile_prefix p _).subset h)

/-- Stripping leaves nothing exactly where there is nothing else. -/
theorem stripChars_eq_nil_iff {p : Char → Bool} {chars : List Char} :
    stripChars p chars = [] ↔ ∀ c ∈ chars, p c = true := by
  unfold stripChars
  rw [List.rdropWhile_eq_nil_iff]
  constructor
  · intro h c hc
    rw [← List.takeWhile_append_dropWhile (p := p) (l := chars)] at hc
    rcases List.mem_append.mp hc with hfront | hrest
    · exact List.mem_takeWhile_imp hfront
    · exact h c hrest
  · exact fun h c hc => h c ((List.dropWhile_suffix p).subset hc)

theorem strip_ne_empty_iff {text : String} :
    strip text ≠ "" ↔ ∃ c ∈ text.toList, isSpace c = false := by
  have hempty : strip text = "" ↔ stripChars isSpace text.toList = [] := by
    rw [← String.toList_inj]
    simp [strip]
  rw [Ne, hempty, stripChars_eq_nil_iff]
  simp

/-- What is stripped has nothing left to strip. -/
theorem stripChars_stripChars (p : Char → Bool) (chars : List Char) :
    stripChars p (stripChars p chars) = stripChars p chars :=
  LineSplit.trim_trim chars

/-! ## Lines -/

/-- A line of a text: no character of it ends a line. -/
def IsLine (line : String) : Prop := LineSplit.Unbroken textBreaks line.toList

theorem isLine_of_mem_splitlines {text line : String} (h : line ∈ splitlines text) :
    IsLine line := by
  obtain ⟨chars, hc, rfl⟩ := List.mem_map.mp h
  unfold IsLine
  rw [String.toList_ofList]
  exact LineSplit.unbroken_of_mem_splitLines LineSplit.unbroken_nil chars hc

/-- **Lines survive joining and splitting**: `"\n".join(lines).splitlines()` is
`lines` again, unless the last of them is empty. -/
theorem splitlines_joinLines {lines : List String} (h : ∀ line ∈ lines, IsLine line)
    (hlast : ∀ line ∈ lines.getLast?, line ≠ "") : splitlines (joinLines lines) = lines := by
  have hsplit : LineSplit.splitLines textBreaks []
      (LineSplit.join '\n' (lines.map String.toList)) = lines.map String.toList := by
    refine LineSplit.splitLines_join (by decide) (fun b => by simp [textBreaks]) ?_ ?_
    · intro chars hc
      obtain ⟨line, hl, rfl⟩ := List.mem_map.mp hc
      exact h line hl
    · intro chars hc
      rw [List.getLast?_map] at hc
      obtain ⟨line, hl, rfl⟩ := Option.map_eq_some_iff.mp hc
      intro he
      exact hlast line hl (String.toList_eq_nil_iff.mp he)
  unfold splitlines joinLines
  rw [String.toList_ofList, hsplit, List.map_map]
  simp [Function.comp_def]

end InternumCore
