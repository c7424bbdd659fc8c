import InternumCore.InOrder
import InternumCore.PostChecks

/-!
# What a check reads

The verdict of a check, and all it says about the data, rests on the numbers that
its pointers lead to, or on what stops it on the way (`readings`).  So a check
raises exactly when one of the numbers it reads is an integer that no float can
hold, or when it has to show a value with an integer too long to be printed
(`evaluatePostChecks_ok_iff`).
-/

namespace InternumCore

/-! ## A well-formed check -/

/-- What a sum check asks for. -/
structure SumCheck where
  addends : List Json
  total : String
  tolerance : Json
  bound : PyFloat

/-- The check that the fields spell, or what is wrong with them. -/
def sumCheck (check : List (String × Json)) : Except String SumCheck :=
  match check.lookup "addends" with
  | some (.arr (pointer :: pointers)) =>
    match check.lookup "total" with
    | some (.str total) =>
      let tolerance := (check.lookup "tolerance").getD (.int 0)
      match toleranceNumber tolerance with
      | none => .error "tolerance must be a number"
      | some bound => .ok ⟨pointer :: pointers, total, tolerance, bound⟩
    | _ => .error "total must be a JSON pointer string"
  | _ => .error "addends must be a non-empty list of pointers"

/-- The number a pointer leads to. -/
def readNumber (lib : Libraries) (data pointer : Json) : Except PointerFault PyFloat := do
  numeric lib (← resolvePointer lib data pointer)

/-- The pointers of a check, in the order in which they are followed. -/
def SumCheck.pointers (check : SumCheck) : List Json := check.addends ++ [.str check.total]

/-- The numbers that a check rests on, or what stops it. -/
def SumCheck.readings (lib : Libraries) (data : Json) (check : SumCheck) :
    Except PointerFault (List PyFloat × PyFloat) := do
  let addendValues ← check.addends.mapM (readNumber lib data)
  let totalValue ← readNumber lib data (.str check.total)
  return (addendValues, totalValue)

/-- The verdict on these numbers, and what it rests on. -/
def SumCheck.verdict (lib : Libraries) (check : SumCheck) (numbers : List PyFloat × PyFloat) :
    Bool × List (String × Json) :=
  ((lib.floatSub (lib.floatSum numbers.1) numbers.2).abs.le check.bound,
    [("addendValues", .arr (numbers.1.map .float)), ("sum", .float (lib.floatSum numbers.1)),
      ("total", .float numbers.2), ("tolerance", check.tolerance)])

theorem sumEquals_eq (lib : Libraries) (data : Json) (fields : List (String × Json)) :
    sumEquals lib data fields =
      match sumCheck fields with
      | .error reason => .error (.pointer reason)
      | .ok check => (check.readings lib data).map (check.verdict lib) := by
  unfold sumEquals sumCheck
  generalize fields.lookup "addends" = addends
  generalize fields.lookup "total" = total
  rcases addends with - | (- | - | - | - | - | (- | ⟨pointer, pointers⟩) | -)
  case some.arr.cons =>
    rcases total with - | (- | - | - | - | total | - | -)
    case some.str =>
      dsimp only
      cases toleranceNumber ((fields.lookup "tolerance").getD (.int 0)) with
      | none => rfl
      | some bound =>
        have hread : (fun pointer => do numeric lib (← resolvePointer lib data pointer)) =
            readNumber lib data := rfl
        dsimp only [SumCheck.readings]
        rw [hread]
        cases (pointer :: pointers).mapM (readNumber lib data) with
        | error fault => rfl
        | ok values =>
          unfold readNumber
          cases resolvePointer lib data (.str total) with
          | error fault => rfl
          | ok value =>
            show (do let totalValue ← numeric lib value; _) =
              Except.map _ (do let totalValue ← numeric lib value; _)
            cases numeric lib value <;> rfl
    all_goals rfl
  all_goals rfl

/-! ## What raises -/

/-- The value is no number and cannot be shown, or it is an integer that no float can
hold. -/
def NumberRaises (lib : Libraries) : Json → Prop
  | .int n => lib.floatOfInt n = none
  | .float _ => False
  | v => ¬lib.Shows v

/-- What ought to be a pointer cannot be shown, or it leads to such a value. -/
def RaisesAt (lib : Libraries) (data pointer : Json) : Prop :=
  ¬lib.Shows pointer ∨ ∃ v, resolvePointer lib data pointer = .ok v ∧ NumberRaises lib v

/-- On this value the check meets such a pointer, after reading numbers only. -/
def EvaluationRaises (lib : Libraries) (data : Json) (fields : List (String × Json)) : Prop :=
  ∃ check before pointer after, sumCheck fields = .ok check ∧
    check.pointers = before ++ pointer :: after ∧
    (∀ p ∈ before, ∃ x, readNumber lib data p = .ok x) ∧ RaisesAt lib data pointer

/-- The check does so somewhere in its scope, or it is refused for an operation or a
scope that cannot be shown. -/
inductive CheckRaises (lib : Libraries) (data : Json) : Json → Prop where
  | unsupported {fields : List (String × Json)}
      (hop : fields.lookup "op" ≠ some (.str "sum_equals"))
      (shown : ¬lib.Shows ((fields.lookup "op").getD .null)) : CheckRaises lib data (.obj fields)
  | whole {fields : List (String × Json)} (hop : fields.lookup "op" = some (.str "sum_equals"))
      (unscoped : (fields.lookup "scope").getD .null = .null)
      (raises : EvaluationRaises lib data fields) : CheckRaises lib data (.obj fields)
  | scope {fields : List (String × Json)} {scope : Json}
      (hop : fields.lookup "op" = some (.str "sum_equals"))
      (hscope : fields.lookup "scope" = some scope) (hne : scope ≠ .null)
      (shown : ¬lib.Shows scope) : CheckRaises lib data (.obj fields)
  | element {fields : List (String × Json)} {scope : Json} {elements : List Json} {element : Json}
      (hop : fields.lookup "op" = some (.str "sum_equals"))
      (hscope : fields.lookup "scope" = some scope) (hne : scope ≠ .null)
      (resolved : resolvePointer lib data scope = .ok (.arr elements)) (hm : element ∈ elements)
      (raises : EvaluationRaises lib element fields) : CheckRaises lib data (.obj fields)

theorem resolveToken_ne_raised {lib : Libraries} {pointer token : String} {current : Json}
    {error : PyError} : resolveToken lib pointer current token ≠ .error (.raised error) := by
  unfold resolveToken
  dsimp only
  split
  · split <;> simp
  · split
    · simp
    · split
      · simp
      · split <;> simp
  · simp

theorem resolveTokens_ne_raised {lib : Libraries} {pointer : String} {current : Json}
    {tokens : List String} {error : PyError} :
    resolveTokens lib pointer current tokens ≠ .error (.raised error) := by
  induction tokens generalizing current with
  | nil => simp [resolveTokens]
  | cons token tokens ih =>
    rw [resolveTokens]
    cases h : resolveToken lib pointer current token with
    | ok v => exact ih
    | error fault =>
      intro heq
      cases heq
      exact resolveToken_ne_raised h

theorem shownFault_eq_raised_iff {lib : Libraries} {text : String} {v : Json} :
    (∃ error, shownFault text (lib.repr v) = .raised error) ↔ ¬lib.Shows v := by
  rw [← Libraries.repr_ok_iff]
  cases lib.repr v <;> simp [shownFault]

/-- Following a pointer raises only where it is no string and cannot be shown. -/
theorem resolvePointer_eq_raised_iff {lib : Libraries} {data pointer : Json} :
    (∃ error, resolvePointer lib data pointer = .error (.raised error)) ↔
      ¬lib.Shows pointer := by
  have hother (hno : ∀ s, pointer ≠ .str s) :
      resolvePointer lib data pointer =
        .error (shownFault "pointer must be a string, got " (lib.repr pointer)) := by
    cases pointer with
    | str s => exact absurd rfl (hno s)
    | _ => rfl
  by_cases hstring : ∃ s, pointer = .str s
  · obtain ⟨s, rfl⟩ := hstring
    refine iff_of_false ?_ (not_not_intro (lib.shows_str s))
    rintro ⟨error, h⟩
    unfold resolvePointer at h
    dsimp only at h
    split at h
    · cases h
    · split at h
      · cases h
      · exact resolveTokens_ne_raised h
  · rw [hother fun s h => hstring ⟨s, h⟩,
      ← @shownFault_eq_raised_iff lib "pointer must be a string, got "]
    simp only [Except.error.injEq]

theorem numeric_eq_raised_iff {lib : Libraries} {v : Json} :
    (∃ error, numeric lib v = .error (.raised error)) ↔ NumberRaises lib v := by
  cases v with
  | int n => cases hn : lib.floatOfInt n <;> simp [numeric, NumberRaises, hn]
  | float x => simp [numeric, NumberRaises]
  | _ =>
    simp only [numeric, NumberRaises, Except.error.injEq]
    exact shownFault_eq_raised_iff

theorem readNumber_eq_raised_iff {lib : Libraries} {data pointer : Json} :
    (∃ error, readNumber lib data pointer = .error (.raised error)) ↔ RaisesAt lib data pointer := by
  unfold readNumber RaisesAt
  rw [← @resolvePointer_eq_raised_iff lib data pointer]
  cases h : resolvePointer lib data pointer with
  | error fault =>
    show (∃ error, Except.error fault = Except.error (.raised error)) ↔ _
    simp
  | ok v =>
    show (∃ error, numeric lib v = _) ↔ _
    rw [numeric_eq_raised_iff]
    simp

/-- The readings are what the pointers read, one after the other. -/
theorem mapM_pointers (lib : Libraries) (data : Json) (check : SumCheck) :
    check.pointers.mapM (readNumber lib data) =
      (check.readings lib data).map fun numbers => numbers.1 ++ [numbers.2] := by
  unfold SumCheck.readings SumCheck.pointers
  rw [List.mapM_append]
  cases check.addends.mapM (readNumber lib data) with
  | error fault => rfl
  | ok values =>
    rw [List.mapM_cons, List.mapM_nil]
    cases readNumber lib data (.str check.total) <;> rfl

theorem readings_eq_raised_iff (lib : Libraries) (data : Json) (check : SumCheck) :
    (∃ error, check.readings lib data = .error (.raised error)) ↔
      ∃ error, check.pointers.mapM (readNumber lib data) = .error (.raised error) := by
  rw [mapM_pointers]
  cases check.readings lib data <;> simp [Except.map]

theorem sumEquals_eq_raised_iff {lib : Libraries} {data : Json} {fields : List (String × Json)} :
    (∃ error, sumEquals lib data fields = .error (.raised error)) ↔
      EvaluationRaises lib data fields := by
  rw [sumEquals_eq]
  unfold EvaluationRaises
  cases hcheck : sumCheck fields with
  | error reason => simp
  | ok check =>
    have hmap : (∃ error, (check.readings lib data).map (check.verdict lib) = .error (.raised error)) ↔
        ∃ error, check.readings lib data = .error (.raised error) := by
      cases check.readings lib data <;> simp [Except.map]
    dsimp only
    rw [hmap, readings_eq_raised_iff]
    constructor
    · intro h
      obtain ⟨error, h⟩ := h
      obtain ⟨before, pointer, after, heq, hbefore, hraised⟩ := mapM_eq_error_iff.mp h
      exact ⟨check, before, pointer, after, rfl, heq, hbefore,
        readNumber_eq_raised_iff.mp ⟨error, hraised⟩⟩
    · intro h
      obtain ⟨_, before, pointer, after, hc, heq, hbefore, hraises⟩ := h
      cases hc
      obtain ⟨error, hraised⟩ := readNumber_eq_raised_iff.mpr hraises
      exact ⟨error, mapM_eq_error_iff.mpr ⟨before, pointer, after, heq, hbefore, hraised⟩⟩

theorem evaluateSumEquals_ok_iff {lib : Libraries} {data : Json} {fields : List (String × Json)}
    {index : Option Nat} :
    (∃ outcome, evaluateSumEquals lib data fields index = .ok outcome) ↔
      ¬EvaluationRaises lib data fields := by
  rw [← sumEquals_eq_raised_iff]
  unfold evaluateSumEquals
  rcases sumEquals lib data fields with (reason | error) | ⟨passed, found⟩ <;> simp

/-! ## One check -/

/-- The name under which another operation is reported. -/
def unsupportedName (lib : Libraries) (fields : List (String × Json)) : String :=
  match (fields.lookup "op").getD .null with
  | .null => "unknown"
  | op => (lib.str op).toOption.getD ""

/-- What becomes of a check whose scope cannot be followed. -/
def scopeStopped : PointerFault → Except PyError (List PostCheckOutcome)
  | .pointer reason => .ok [⟨"sum_equals", false, [("reason", .str reason)]⟩]
  | .raised error => .error error

section Check

variable {lib : Libraries} {data : Json} {fields : List (String × Json)}

/-- Without a scope a check is evaluated once. -/
theorem evaluateCheck_unscoped (hop : fields.lookup "op" = some (.str "sum_equals"))
    (hscope : (fields.lookup "scope").getD .null = .null) :
    evaluateCheck lib data (.obj fields) =
      (evaluateSumEquals lib data fields none).map fun outcome => [outcome] := by
  have honce : (do return [← evaluateSumEquals lib data fields none] :
      Except PyError (List PostCheckOutcome)) =
      (evaluateSumEquals lib data fields none).map fun outcome => [outcome] := by
    cases evaluateSumEquals lib data fields none <;> rfl
  rw [evaluateCheck]
  rw [if_neg (by simp [hop])]
  cases hs : fields.lookup "scope" with
  | none => exact honce
  | some scope =>
    rw [hs] at hscope
    obtain rfl : scope = .null := hscope
    exact honce

section Scoped

variable {scope : Json} (hop : fields.lookup "op" = some (.str "sum_equals"))
  (hscope : fields.lookup "scope" = some scope) (hne : scope ≠ .null)

include hop hscope hne

/-- In an array a check is evaluated for each element. -/
theorem evaluateCheck_each {elements : List Json}
    (hr : resolvePointer lib data scope = .ok (.arr elements)) :
    evaluateCheck lib data (.obj fields) =
      elements.zipIdx.mapM fun e => evaluateSumEquals lib e.1 fields (some e.2) := by
  rw [evaluateCheck]
  rw [if_neg (by simp [hop]), hscope]
  split
  · next h => cases h
  · next h => exact absurd (Option.some.inj h) hne
  · next h =>
    cases h
    rw [hr]

/-- What is no array stops a check. -/
theorem evaluateCheck_no_array {v : Json} (hr : resolvePointer lib data scope = .ok v)
    (hv : ∀ elements, v ≠ .arr elements) :
    evaluateCheck lib data (.obj fields) =
      .ok [⟨"sum_equals", false, [("reason", .str "scope must resolve to an array")]⟩] := by
  rw [evaluateCheck]
  rw [if_neg (by simp [hop]), hscope]
  split
  · next h => cases h
  · next h => exact absurd (Option.some.inj h) hne
  · next h =>
    cases h
    rw [hr]
    cases v with
    | arr elements => exact absurd rfl (hv elements)
    | _ => rfl

/-- So does a scope that leads nowhere, unless it cannot be shown. -/
theorem evaluateCheck_stopped {fault : PointerFault}
    (hr : resolvePointer lib data scope = .error fault) :
    evaluateCheck lib data (.obj fields) = scopeStopped fault := by
  rw [evaluateCheck]
  rw [if_neg (by simp [hop]), hscope]
  split
  · next h => cases h
  · next h => exact absurd (Option.some.inj h) hne
  · next h =>
    cases h
    rw [hr]
    cases fault <;> rfl

end Scoped

/-- Another operation is refused unread, if it can be shown. -/
theorem evaluateCheck_unsupported (hop : fields.lookup "op" ≠ some (.str "sum_equals")) :
    evaluateCheck lib data (.obj fields) =
      match lib.repr ((fields.lookup "op").getD .null) with
      | .ok shown => .ok [⟨unsupportedName lib fields, false,
          [("reason", .str ("unsupported op: " ++ shown))]⟩]
      | .error error => .error (reprErrorOf error) := by
  have hne : (fields.lookup "op").getD .null ≠ .str "sum_equals" := by
    cases h : fields.lookup "op" <;> simp_all
  rw [evaluateCheck]
  rw [if_pos hne]
  unfold unsupportedName
  generalize (fields.lookup "op").getD .null = op
  cases op with
  | null => rfl
  | str s => rfl
  | _ =>
    simp only [Libraries.str, reduceCtorEq, if_false]
    cases lib.repr _ <;> rfl

end Check

/-- In an array no element may raise. -/
theorem evaluateEach_ok_iff {lib : Libraries} {elements : List Json}
    {fields : List (String × Json)} :
    (∃ outcomes, (elements.zipIdx.mapM fun e => evaluateSumEquals lib e.1 fields (some e.2)) =
        .ok outcomes) ↔ ∀ element ∈ elements, ¬EvaluationRaises lib element fields := by
  rw [exists_mapM_eq_ok_iff]
  constructor
  · intro h element hm
    obtain ⟨i, hi, rfl⟩ := List.getElem_of_mem hm
    refine evaluateSumEquals_ok_iff.mp (h (elements[i], i) ?_)
    exact List.mem_zipIdx_iff_getElem?.mpr (List.getElem?_eq_getElem hi)
  · intro h e hm
    obtain ⟨element, i⟩ := e
    refine evaluateSumEquals_ok_iff.mpr (h element ?_)
    exact List.mem_of_getElem? (List.mem_zipIdx_iff_getElem?.mp hm)

section Raises

variable {lib : Libraries} {data : Json} {fields : List (String × Json)}

/-- Without a scope it is the one evaluation that may raise. -/
theorem evaluateCheck_unscoped_ok_iff (hop : fields.lookup "op" = some (.str "sum_equals"))
    (hnull : (fields.lookup "scope").getD .null = .null) :
    (∃ outcomes, evaluateCheck lib data (.obj fields) = .ok outcomes) ↔
      ¬CheckRaises lib data (.obj fields) := by
  have hraises : CheckRaises lib data (.obj fields) ↔ EvaluationRaises lib data fields := by
    have hnoscope : ∀ scope, fields.lookup "scope" = some scope → scope = .null := by
      intro scope hscope
      rwa [hscope] at hnull
    constructor
    · intro h
      cases h with
      | unsupported hother => exact absurd hop hother
      | whole _ _ hraises => exact hraises
      | scope _ hscope hne => exact absurd (hnoscope _ hscope) hne
      | element _ hscope hne => exact absurd (hnoscope _ hscope) hne
    · exact .whole hop hnull
  rw [hraises, evaluateCheck_unscoped hop hnull, ← @evaluateSumEquals_ok_iff lib data fields none]
  cases evaluateSumEquals lib data fields none <;> simp [Except.map]

/-- With a scope it may be the scope that cannot be shown, or an element. -/
theorem evaluateCheck_scoped_ok_iff {scope : Json}
    (hop : fields.lookup "op" = some (.str "sum_equals"))
    (hscope : fields.lookup "scope" = some scope) (hne : scope ≠ .null) :
    (∃ outcomes, evaluateCheck lib data (.obj fields) = .ok outcomes) ↔
      ¬CheckRaises lib data (.obj fields) := by
  have hraises : CheckRaises lib data (.obj fields) ↔
      (∃ error, resolvePointer lib data scope = .error (.raised error)) ∨
        ∃ elements element, resolvePointer lib data scope = .ok (.arr elements) ∧
          element ∈ elements ∧ EvaluationRaises lib element fields := by
    rw [resolvePointer_eq_raised_iff]
    constructor
    · intro h
      cases h with
      | unsupported hother => exact absurd hop hother
      | whole _ hnull =>
        rw [hscope] at hnull
        exact absurd hnull hne
      | scope _ hscope' _ hshown =>
        obtain rfl := Option.some.inj (hscope.symm.trans hscope')
        exact Or.inl hshown
      | element _ hscope' _ hresolved hm hraises =>
        obtain rfl := Option.some.inj (hscope.symm.trans hscope')
        exact Or.inr ⟨_, _, hresolved, hm, hraises⟩
    · rintro (hshown | ⟨elements, element, hresolved, hm, hraises⟩)
      · exact .scope hop hscope hne hshown
      · exact .element hop hscope hne hresolved hm hraises
  rw [hraises]
  cases hr : resolvePointer lib data scope with
  | error fault =>
    rw [evaluateCheck_stopped hop hscope hne hr]
    cases fault <;> simp [scopeStopped]
  | ok v =>
    by_cases harr : ∃ elements, v = .arr elements
    · obtain ⟨elements, rfl⟩ := harr
      rw [evaluateCheck_each hop hscope hne hr, evaluateEach_ok_iff]
      simp
    · have hv : ∀ elements, v ≠ .arr elements := fun elements h => harr ⟨elements, h⟩
      rw [evaluateCheck_no_array hop hscope hne hr hv]
      simp [hv]

end Raises

/-- A check raises exactly where it reads what cannot be read or shows what cannot be
shown. -/
theorem evaluateCheck_ok_iff {lib : Libraries} {data check : Json} :
    (∃ outcomes, evaluateCheck lib data check = .ok outcomes) ↔ ¬CheckRaises lib data check := by
  cases check with
  | obj fields =>
    by_cases hop : fields.lookup "op" = some (.str "sum_equals")
    · by_cases hnull : (fields.lookup "scope").getD .null = .null
      · exact evaluateCheck_unscoped_ok_iff hop hnull
      · obtain ⟨scope, hscope⟩ : ∃ scope, fields.lookup "scope" = some scope := by
          cases hs : fields.lookup "scope" with
          | none => simp [hs] at hnull
          | some scope => exact ⟨scope, rfl⟩
        exact evaluateCheck_scoped_ok_iff hop hscope (by simpa [hscope] using hnull)
    · rw [evaluateCheck_unsupported hop]
      have hraises : CheckRaises lib data (.obj fields) ↔
          ¬lib.Shows ((fields.lookup "op").getD .null) := by
        constructor
        · intro h
          cases h with
          | unsupported _ hshown => exact hshown
          | whole hsum => exact absurd hsum hop
          | scope hsum => exact absurd hsum hop
          | element hsum => exact absurd hsum hop
        · exact .unsupported hop
      rw [hraises, ← Libraries.repr_ok_iff]
      cases lib.repr ((fields.lookup "op").getD .null) <;> simp
  | _ =>
    refine iff_of_true ⟨_, rfl⟩ ?_
    rintro ⟨⟩

theorem evaluatePostChecks_ok_iff {lib : Libraries} {data : Json} {checks : List Json} :
    (∃ outcomes, evaluatePostChecks lib data checks = .ok outcomes) ↔
      ∀ check ∈ checks, ¬CheckRaises lib data check := by
  have hall : (∃ outcomes, checks.mapM (evaluateCheck lib data) = .ok outcomes) ↔
      ∀ check ∈ checks, ¬CheckRaises lib data check := by
    rw [exists_mapM_eq_ok_iff]
    exact forall₂_congr fun check _ => evaluateCheck_ok_iff
  rw [← hall]
  unfold evaluatePostChecks
  cases checks.mapM (evaluateCheck lib data) <;> simp [bind, Except.bind, pure, Except.pure]

end InternumCore
