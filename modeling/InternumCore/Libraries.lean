import Mathlib.Algebra.Ring.Nat
import InternumCore.PyRepr
import InternumCore.Validator

/-!
# The other packages

What the service uses of `json`, `json_repair`, `decimal` and of Python's own floating
point, as functions of which nothing is assumed; and `repr`, up to the digits of a float
and the characters that are printable.
-/

namespace InternumCore

/-- What `json.loads` raises. -/
inductive LoadsError where
  /-- `JSONDecodeError`, a `ValueError`. -/
  | decode
  /-- The `ValueError` for an integer with too many digits. -/
  | digits
  /-- `RecursionError`. -/
  | recursion
  deriving DecidableEq

def LoadsError.toError : LoadsError → PyError
  | .decode => .other "JSONDecodeError"
  | .digits => .other "ValueError"
  | .recursion => .other "RecursionError"

/-- The packages behind the modelled functions. -/
structure Libraries where
  jsonschema : JsonSchema.Library
  /-- `json.loads`. -/
  jsonLoads : String → Except LoadsError Json
  /-- `repair_json(raw, return_objects=True)`; `none` is any exception. -/
  repairJson : String → Option Json
  /-- `str.isprintable` of a character beyond ASCII. -/
  printable : Char → Bool
  /-- `repr` of a float. -/
  floatRepr : PyFloat → String
  /-- How deep `repr` goes down into a value. -/
  reprDepth : Nat
  /-- `Decimal(text)`; `none` if it is malformed or not finite. -/
  decimal : String → Option ℚ
  /-- Addition in the default decimal context. -/
  decimalAdd : ℚ → ℚ → ℚ
  /-- `float(n)` of an integer; `none` is `OverflowError`. -/
  floatOfInt : Int → Option PyFloat
  /-- `sum` of floats. -/
  floatSum : List PyFloat → PyFloat
  /-- Subtraction of floats. -/
  floatSub : PyFloat → PyFloat → PyFloat

/-- `repr` of a string. -/
def Libraries.quote (lib : Libraries) (text : String) : String :=
  PyRepr.reprString lib.printable text

/-- `repr(value)`. -/
def Libraries.repr (lib : Libraries) (value : Json) : Except PyRepr.ReprError String :=
  PyRepr.reprTree lib.printable lib.floatRepr (lib.reprDepth + 1) value

/-- `str(value)`. -/
def Libraries.str (lib : Libraries) : Json → Except PyRepr.ReprError String
  | .str s => .ok s
  | v => lib.repr v

def reprErrorOf : PyRepr.ReprError → PyError
  | .digits => .other "ValueError"
  | .recursion => .other "RecursionError"

/-- `str(value)` of a value that `json.loads` has read, or of a key or an index in a path.
None of these holds an integer of more than 4300 digits or is nested deeper than Python
goes down, so that there is always one. -/
def Libraries.strOfLoaded (lib : Libraries) (value : Json) : String :=
  (lib.str value).toOption.getD ""

/-- `repr` has a text for the value: its integers are short enough, and it is not nested
too deep. -/
abbrev Libraries.Shows (lib : Libraries) (value : Json) : Prop :=
  PyRepr.Showable (lib.reprDepth + 1) value

theorem Libraries.repr_ok_iff {lib : Libraries} {value : Json} :
    (∃ text, lib.repr value = .ok text) ↔ lib.Shows value := PyRepr.reprTree_ok_iff

theorem Libraries.shows_str (lib : Libraries) (s : String) : lib.Shows (.str s) := .str s

/-- An operation on the finite numbers. -/
def exactly (op : ℚ → ℚ → ℚ) (x y : PyFloat) : PyFloat :=
  match x.value, y.value with
  | .finite a, .finite b => .finite (op a b)
  | _, _ => .nan

/-- Packages with a given reading of JSON texts and exact arithmetic. -/
def plainLibraries (parse : String → Option Json) : Libraries where
  jsonschema := JsonSchema.coreLibrary
  jsonLoads text := (parse text).elim (.error .decode) .ok
  repairJson := parse
  printable _ := true
  floatRepr _ := ""
  reprDepth := 1000
  decimal _ := none
  decimalAdd := (· + ·)
  floatOfInt n := some (.finite n)
  floatSum xs := xs.foldl (exactly (· + ·)) (.finite 0)
  floatSub := exactly (· - ·)

/-- A number rounded to 53 binary digits, a tie to the even neighbour. -/
def roundToDouble (n : Nat) : Nat :=
  let unit := 2 ^ (n.log2 - 52)
  let rest := n % unit
  let below := n / unit
  if unit < 2 * rest ∨ (2 * rest = unit ∧ below % 2 = 1) then (below + 1) * unit else below * unit

/-- `float(n)`: the nearest double, or `OverflowError` where that would be `2 ** 1024`. -/
def doubleOfInt (n : Int) : Option PyFloat :=
  let rounded := roundToDouble n.natAbs
  if rounded < 2 ^ 1024 then some (.finite (if n < 0 then -(rounded : ℚ) else rounded)) else none

end InternumCore
