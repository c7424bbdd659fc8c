import InternumCore.Libraries
import InternumCore.Postprocess

/-!
# Checks on the extracted data

A caller may ask for arithmetic checks on the result: that the numbers some
JSON pointers lead to add up to the number of another.  A check that is malformed
or leads nowhere fails with a reason.  What is not caught is an integer too large for
a float, and one too long for its decimal to be printed in a reason.
-/

namespace InternumCore

/-- `PostCheckOutcome`. -/
structure PostCheckOutcome where
  op : String
  passed : Bool
  detail : List (String × Json)

/-- What ends the evaluation of a pointer: `_PointerError`, or an exception that
is not caught. -/
inductive PointerFault where
  | pointer (reason : String)
  | raised (error : PyError)

/-- A `_PointerError` whose text ends in the `repr` of a value, which may raise first. -/
def shownFault (text : String) : Except PyRepr.ReprError String → PointerFault
  | .ok shown => .pointer (text ++ shown)
  | .error error => .raised (reprErrorOf error)

/-! ## Pointers -/

/-- `text.replace("~" + digit, by)`. -/
def replaceEscape (digit : Char) (by_ : Char) : List Char → List Char
  | '~' :: c :: chars =>
    if c = digit then by_ :: replaceEscape digit by_ chars
    else '~' :: replaceEscape digit by_ (c :: chars)
  | c :: chars => c :: replaceEscape digit by_ chars
  | [] => []

/-- `raw_token.replace("~1", "/").replace("~0", "~")`. -/
def unescapeToken (chars : List Char) : String :=
  String.ofList (replaceEscape '0' '~' (replaceEscape '1' '/' chars))

/-- The digits of an integer literal, where single underscores may stand between
digits. -/
def literalDigits (afterDigit : Bool) : List Char → Option (List Char)
  | [] => if afterDigit then some [] else none
  | c :: chars =>
    if c = '_' then
      if afterDigit then literalDigits false chars else none
    else if isDigit c then (literalDigits true chars).map (c :: ·)
    else none

/-- What `int` takes for white space around a literal: the six of ASCII, and beyond
ASCII whatever `str.isspace` does.  Unlike `str.strip` it leaves the separators
U+001C to U+001F. -/
def isIntSpace (c : Char) : Bool :=
  c = ' ' || ('\t' ≤ c && c ≤ '\r') || (decide (127 < c.toNat) && isSpace c)

theorem isSpace_of_isIntSpace {c : Char} (h : isIntSpace c = true) : isSpace c = true := by
  unfold isIntSpace at h
  rw [Bool.or_eq_true, Bool.or_eq_true, Bool.and_eq_true, Bool.and_eq_true] at h
  rcases h with (hblank | ⟨hlow, hhigh⟩) | ⟨-, hspace⟩
  · rw [of_decide_eq_true hblank]
    rfl
  · have hlow' : 0x09 ≤ c.toNat := of_decide_eq_true hlow
    have hhigh' : c.toNat ≤ 0x0D := of_decide_eq_true hhigh
    simp [isSpace, hlow', hhigh']
  · exact hspace

/-- `int(text)`; `none` is `ValueError`, also for more than 4300 digits. -/
def pyInt (text : String) : Option Int :=
  let (negative, literal) : Bool × List Char := match stripChars isIntSpace text.toList with
    | '-' :: chars => (true, chars)
    | '+' :: chars => (false, chars)
    | chars => (false, chars)
  match literalDigits false literal with
  | some digits =>
    if digits.length ≤ 4300 then
      some (if negative then -(intOfDigits digits : Int) else intOfDigits digits)
    else none
  | none => none

/-- The loop body of `_resolve_pointer`. -/
def resolveToken (lib : Libraries) (pointer : String) (current : Json) (token : String) :
    Except PointerFault Json :=
  let shown := lib.quote pointer
  match current with
  | .obj fields =>
    match fields.lookup token with
    | some v => .ok v
    | none => .error (.pointer
        s!"pointer {shown} does not resolve: missing key {lib.quote token}")
  | .arr items =>
    match pyInt token with
    | none => .error (.pointer
        s!"pointer {shown} does not resolve: invalid index {lib.quote token}")
    | some position =>
      if position < 0 then
        .error (.pointer s!"pointer {shown} does not resolve: index out of range")
      else
        match items[position.toNat]? with
        | some v => .ok v
        | none => .error (.pointer s!"pointer {shown} does not resolve: index out of range")
  | _ => .error (.pointer s!"pointer {shown} does not resolve: not indexable")

/-- The loop of `_resolve_pointer`. -/
def resolveTokens (lib : Libraries) (pointer : String) (current : Json) :
    List String → Except PointerFault Json
  | [] => .ok current
  | token :: tokens => do
    let next ← resolveToken lib pointer current token
    resolveTokens lib pointer next tokens

/-- `_resolve_pointer`. -/
def resolvePointer (lib : Libraries) (data pointer : Json) : Except PointerFault Json :=
  match pointer with
  | .str pointer =>
    if pointer = "" then .ok data
    else if !startsWith pointer "/" then
      .error (.pointer s!"invalid JSON pointer: {lib.quote pointer}")
    else
      resolveTokens lib pointer data ((pointer.toList.splitOn '/').tail.map unescapeToken)
  | _ => .error (shownFault "pointer must be a string, got " (lib.repr pointer))

/-! ## Sums -/

/-- `_numeric`. -/
def numeric (lib : Libraries) : Json → Except PointerFault PyFloat
  | .int n =>
    match lib.floatOfInt n with
    | some x => .ok x
    | none => .error (.raised (.other "OverflowError"))
  | .float x => .ok x
  | v => .error (shownFault "expected a numeric value, got " (lib.repr v))

/-- `abs(x)`. -/
def PyFloat.abs : PyFloat → PyFloat
  | .finite q => .finite (if 0 ≤ q then q else -q)
  | .negZero => .finite 0
  | .infinite _ => .infinite false
  | .nan => .nan

/-- `x <= y` on numbers. -/
def PyFloat.le (x y : PyFloat) : Bool :=
  match x.value, y.value with
  | .finite a, .finite b => decide (a ≤ b)
  | .finite _, .infinite negative => !negative
  | .infinite negative, .finite _ => negative
  | .infinite a, .infinite b => a || !b
  | _, _ => false

/-- The number a tolerance stands for; a boolean is an integer. -/
def toleranceNumber : Json → Option PyFloat
  | .int n => some (.finite n)
  | .bool b => some (.finite (if b then 1 else 0))
  | .float x => some x
  | _ => none

/-- The body of `_evaluate_sum_equals`: the verdict and what it rests on. -/
def sumEquals (lib : Libraries) (data : Json) (check : List (String × Json)) :
    Except PointerFault (Bool × List (String × Json)) :=
  match check.lookup "addends" with
  | some (.arr (pointer :: pointers)) =>
    match check.lookup "total" with
    | some (.str total) =>
      let tolerance := (check.lookup "tolerance").getD (.int 0)
      match toleranceNumber tolerance with
      | none => .error (.pointer "tolerance must be a number")
      | some bound => do
        let addendValues ← (pointer :: pointers).mapM fun pointer => do
          numeric lib (← resolvePointer lib data pointer)
        let totalValue ← numeric lib (← resolvePointer lib data (.str total))
        let actualSum := lib.floatSum addendValues
        let passed := (lib.floatSub actualSum totalValue).abs.le bound
        return (passed, [("addendValues", .arr (addendValues.map .float)),
          ("sum", .float actualSum), ("total", .float totalValue), ("tolerance", tolerance)])
    | _ => .error (.pointer "total must be a JSON pointer string")
  | _ => .error (.pointer "addends must be a non-empty list of pointers")

/-- `_evaluate_sum_equals`. -/
def evaluateSumEquals (lib : Libraries) (data : Json) (check : List (String × Json))
    (index : Option Nat) : Except PyError PostCheckOutcome :=
  let detail : List (String × Json) := match index with
    | some index => [("index", .int index)]
    | none => []
  match sumEquals lib data check with
  | .ok (passed, found) => .ok ⟨"sum_equals", passed, detail ++ found⟩
  | .error (.pointer reason) => .ok ⟨"sum_equals", false, detail ++ [("reason", .str reason)]⟩
  | .error (.raised error) => .error error

/-- `_evaluate_check`. -/
def evaluateCheck (lib : Libraries) (data check : Json) :
    Except PyError (List PostCheckOutcome) :=
  match check with
  | .obj fields =>
    let op := (fields.lookup "op").getD .null
    if op ≠ .str "sum_equals" then do
      let name ← (if op = .null then .ok "unknown" else lib.str op).mapError reprErrorOf
      let shown ← (lib.repr op).mapError reprErrorOf
      return [⟨name, false, [("reason", .str ("unsupported op: " ++ shown))]⟩]
    else
      match fields.lookup "scope" with
      | none | some .null => do return [← evaluateSumEquals lib data fields none]
      | some scope =>
        match resolvePointer lib data scope with
        | .ok (.arr elements) =>
          elements.zipIdx.mapM fun e => evaluateSumEquals lib e.1 fields (some e.2)
        | .ok _ =>
          .ok [⟨"sum_equals", false, [("reason", .str "scope must resolve to an array")]⟩]
        | .error (.pointer reason) => .ok [⟨"sum_equals", false, [("reason", .str reason)]⟩]
        | .error (.raised error) => .error error
  | _ => .ok [⟨"unknown", false, [("reason", .str "check must be an object")]⟩]

/-- `evaluate_post_checks`. -/
def evaluatePostChecks (lib : Libraries) (data : Json) (checks : List Json) :
    Except PyError (List PostCheckOutcome) := do
  let outcomes ← checks.mapM (evaluateCheck lib data)
  return outcomes.flatten

end InternumCore
