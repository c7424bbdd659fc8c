import Mathlib.Algebra.Ring.Int.Defs
import InternumCore.CheckReadings

/-!
# The outcomes of the checks

A check that can be evaluated in a scope is evaluated on each element of the array
its scope leads to, and any other check once, be it only to say what is wrong with
it.  So the outcomes come in blocks, one for each check (`ChecksOut`), and
`post_checks_return_iff` says when they come at all: unless a check reads an
integer that no float can hold, or is refused with a reason that has to show an
integer too long to be printed.
-/

namespace InternumCore

/-- The elements on which a check is evaluated one by one, if it is a `sum_equals`
whose scope leads to an array. -/
def scopeElements (lib : Libraries) (data check : Json) : Option (List Json) :=
  if check.get? "op" = some (.str "sum_equals") then
    match (check.get? "scope").getD .null with
    | .null => none
    | scope =>
      match resolvePointer lib data scope with
      | .ok (.arr elements) => some elements
      | _ => none
  else none

/-- What one check contributes: an outcome for each element in its order, which
names the index of the element, or else a single outcome. -/
inductive ChecksOut (lib : Libraries) (data : Json) : Json → List PostCheckOutcome → Prop where
  | once {check : Json} {outcome : PostCheckOutcome} (unscoped : scopeElements lib data check = none) :
      ChecksOut lib data check [outcome]
  | each {fields : List (String × Json)} {elements : List Json} {outcomes : List PostCheckOutcome}
      (scope : scopeElements lib data (.obj fields) = some elements)
      (evaluated : List.Forall₂ (fun (e : Json × Nat) outcome =>
        evaluateSumEquals lib e.1 fields (some e.2) = .ok outcome ∧
          outcome.detail.lookup "index" = some (.int e.2)) elements.zipIdx outcomes) :
      ChecksOut lib data (.obj fields) outcomes

section

variable {lib : Libraries} {data : Json}

/-- The outcome for an element says which one it was, whether it passed or not. -/
theorem index_of_evaluateSumEquals {fields : List (String × Json)} {index : Nat}
    {outcome : PostCheckOutcome} (h : evaluateSumEquals lib data fields (some index) = .ok outcome) :
    outcome.detail.lookup "index" = some (.int index) := by
  unfold evaluateSumEquals at h
  dsimp only at h
  split at h
  · cases h
    rfl
  · cases h
    rfl
  · cases h

/-- The elements of a scope are those of the array it points to. -/
theorem scopeElements_of_scope {fields : List (String × Json)} {scope : Json}
    (hop : fields.lookup "op" = some (.str "sum_equals"))
    (hscope : fields.lookup "scope" = some scope) :
    scopeElements lib data (.obj fields) =
      match resolvePointer lib data scope with
      | .ok (.arr elements) => some elements
      | _ => none := by
  rw [scopeElements, Json.get?_obj, Json.get?_obj, if_pos hop, hscope]
  cases scope <;> rfl

/-- A sum that is scoped: once for each element, or once if the scope is no array. -/
theorem checksOut_of_scope {fields : List (String × Json)} {outcomes : List PostCheckOutcome}
    {scope : Json} (hop : fields.lookup "op" = some (.str "sum_equals"))
    (hscope : fields.lookup "scope" = some scope) (hne : scope ≠ .null)
    (h : evaluateCheck lib data (.obj fields) = .ok outcomes) :
    ChecksOut lib data (.obj fields) outcomes := by
  have helements := @scopeElements_of_scope lib data fields scope hop hscope
  cases hr : resolvePointer lib data scope with
  | error fault =>
    rw [evaluateCheck_stopped hop hscope hne hr] at h
    cases fault with
    | pointer reason =>
      cases h
      exact .once (by rw [helements, hr])
    | raised error => cases h
  | ok v =>
    by_cases harr : ∃ elements, v = .arr elements
    · obtain ⟨elements, rfl⟩ := harr
      rw [evaluateCheck_each hop hscope hne hr] at h
      refine .each (by rw [helements, hr]) ?_
      exact (forall₂_of_mapM_eq_ok h).imp fun e outcome he => ⟨he, index_of_evaluateSumEquals he⟩
    · have hv : ∀ elements, v ≠ .arr elements := fun elements hv => harr ⟨elements, hv⟩
      rw [evaluateCheck_no_array hop hscope hne hr hv] at h
      cases h
      refine .once ?_
      rw [helements, hr]
      cases v with
      | arr elements => exact absurd rfl (hv elements)
      | _ => rfl

/-- **One check.**  Whatever it is evaluated to has the form it should. -/
theorem checksOut_of_evaluateCheck {check : Json} {outcomes : List PostCheckOutcome}
    (h : evaluateCheck lib data check = .ok outcomes) : ChecksOut lib data check outcomes := by
  cases check with
  | obj fields =>
    -- an operation that is not supported gives one outcome too
    by_cases hop : fields.lookup "op" = some (.str "sum_equals")
    · by_cases hnull : (fields.lookup "scope").getD .null = .null
      · have hunscoped : scopeElements lib data (.obj fields) = none := by
          simp [scopeElements, hnull]
        rw [evaluateCheck_unscoped hop hnull] at h
        cases hs : evaluateSumEquals lib data fields none with
        | error e =>
          rw [hs] at h
          cases h
        | ok outcome =>
          rw [hs] at h
          cases h
          exact .once hunscoped
      · obtain ⟨scope, hscope⟩ : ∃ scope, fields.lookup "scope" = some scope := by
          cases hs : fields.lookup "scope" with
          | none => simp [hs] at hnull
          | some scope => exact ⟨scope, rfl⟩
        exact checksOut_of_scope hop hscope (by simpa [hscope] using hnull) h
    · have hunscoped : scopeElements lib data (.obj fields) = none := by
        rw [scopeElements, Json.get?_obj, if_neg hop]
      rw [evaluateCheck_unsupported hop] at h
      cases hshown : lib.repr ((fields.lookup "op").getD .null) with
      | error error =>
        rw [hshown] at h
        cases h
      | ok shown =>
        rw [hshown] at h
        cases h
        exact .once hunscoped
  | _ =>
    cases h
    exact .once rfl

/-- The outcomes are the blocks of the checks, one after the other. -/
theorem checksOut_of_evaluatePostChecks {checks : List Json} {outcomes : List PostCheckOutcome}
    (h : evaluatePostChecks lib data checks = .ok outcomes) :
    ∃ blocks, outcomes = blocks.flatten ∧ List.Forall₂ (ChecksOut lib data) checks blocks := by
  unfold evaluatePostChecks at h
  cases hm : checks.mapM (evaluateCheck lib data) with
  | error e =>
    rw [hm] at h
    cases h
  | ok blocks =>
    rw [hm] at h
    cases h
    exact ⟨blocks, rfl, (forall₂_of_mapM_eq_ok hm).imp fun _ _ => checksOut_of_evaluateCheck⟩

end

/-- **The checks return exactly** when none of them reads an integer that no float can
hold or has to show one that is too long, and then each has come out as it should. -/
theorem post_checks_return_iff (lib : Libraries) (data : Json) (checks : List Json) :
    (∃ blocks, evaluatePostChecks lib data checks = .ok blocks.flatten ∧
        List.Forall₂ (ChecksOut lib data) checks blocks) ↔
      ∀ check ∈ checks, ¬CheckRaises lib data check := by
  rw [← evaluatePostChecks_ok_iff]
  constructor
  · intro h
    obtain ⟨blocks, hok, -⟩ := h
    exact ⟨_, hok⟩
  · intro h
    obtain ⟨outcomes, hok⟩ := h
    obtain ⟨blocks, rfl, hblocks⟩ := checksOut_of_evaluatePostChecks hok
    exact ⟨blocks, hok, hblocks⟩

/-- Packages of which `float` raises as Python's does. -/
def doubleLibraries : Libraries :=
  { plainLibraries (fun _ => none) with floatOfInt := doubleOfInt }

/-- A number that is to be equal to itself. -/
def selfCheck : Json :=
  .obj [("op", .str "sum_equals"), ("addends", .arr [.str "/a"]), ("total", .str "/a")]

/-- A number that is too large for a float is not even equal to itself. -/
theorem huge_number_raises :
    ¬∃ blocks, evaluatePostChecks doubleLibraries (.obj [("a", .int (10 ^ 400))]) [selfCheck] =
        .ok blocks.flatten ∧
      List.Forall₂ (ChecksOut doubleLibraries (.obj [("a", .int (10 ^ 400))])) [selfCheck] blocks := by
  have hraises : (evaluatePostChecks doubleLibraries (.obj [("a", .int (10 ^ 400))])
      [selfCheck]).isOk = false := by
    decide +kernel
  intro h
  obtain ⟨blocks, hok, -⟩ := h
  rw [hok] at hraises
  cases hraises

end InternumCore
