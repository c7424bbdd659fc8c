import InternumCore.CheckStops
import InternumCore.Service

/-!
# What the log says about the data

The extracted values are logged at `DEBUG`; above it the log is meant to hold
metadata only.  But the event of a check carries its detail, and the detail of a
sum check holds the numbers that were added up, or says what was found in place of
one.  `visible_log_eq_iff` compares two outputs that are validated and judged alike:
their logs agree above `DEBUG` exactly when every check reads alike in both
(`CheckAlike`), a relation of the two outputs and the pointers of the check.
-/

namespace InternumCore

/-! ## What a check tells -/

/-- A sum check reads alike in two values, if it is spelled as one. -/
def EvaluationAlike (lib : Libraries) (fields : List (String × Json)) (data data' : Json) : Prop :=
  ∀ check, sumCheck fields = .ok check → ReadAlike lib data data' check.pointers

/-- The scope stops alike in both values, or leads to no array in either, or leads to
two arrays and the check reads alike in each of their elements. -/
inductive ScopeAlike (lib : Libraries) (fields : List (String × Json)) (scope data data' : Json) :
    Prop where
  | stopped {stop stop' : Stop} (h : StopsAt data scope stop) (h' : StopsAt data' scope stop')
      (alike : stop.Alike lib stop')
  | noArray {v v' : Json} (h : PointsTo data scope v) (h' : PointsTo data' scope v')
      (hv : ∀ elements, v ≠ .arr elements) (hv' : ∀ elements, v' ≠ .arr elements)
  | each {elements elements' : List Json} (h : PointsTo data scope (.arr elements))
      (h' : PointsTo data' scope (.arr elements'))
      (alike : List.Forall₂ (EvaluationAlike lib fields) elements elements')

/-- A check reads alike in two outputs.  Only a sum check reads anything. -/
def CheckAlike (lib : Libraries) (data data' check : Json) : Prop :=
  ∀ fields, check = .obj fields → fields.lookup "op" = some (.str "sum_equals") →
    ((fields.lookup "scope").getD .null = .null → EvaluationAlike lib fields data data') ∧
      ∀ scope, fields.lookup "scope" = some scope → scope ≠ .null →
        ScopeAlike lib fields scope data data'

/-! ## One evaluation -/

section Evaluation

variable {lib : Libraries} {data data' : Json} {fields : List (String × Json)}

/-- The numbers that a sum check compares, or what stops it. -/
def readingOf (lib : Libraries) (data : Json) (fields : List (String × Json)) :
    Except PointerFault (List PyFloat × PyFloat) :=
  match sumCheck fields with
  | .error reason => .error (.pointer reason)
  | .ok check => check.readings lib data

/-- The readings agree where the check reads alike, unless it raises. -/
theorem readingOf_eq_iff (hno : ∀ error, readingOf lib data fields ≠ .error (.raised error)) :
    readingOf lib data fields = readingOf lib data' fields ↔
      EvaluationAlike lib fields data data' := by
  unfold EvaluationAlike
  unfold readingOf at hno ⊢
  cases hcheck : sumCheck fields with
  | error reason => simp
  | ok check =>
    rw [hcheck] at hno
    dsimp only at hno ⊢
    have hinjective : Function.Injective fun numbers : List PyFloat × PyFloat =>
        numbers.1 ++ [numbers.2] := by
      intro numbers numbers' h
      obtain ⟨hvalues, htotal⟩ := List.append_inj' h rfl
      exact Prod.ext hvalues (List.cons.inj htotal).1
    have hpointers : check.readings lib data = check.readings lib data' ↔
        check.pointers.mapM (readNumber lib data) = check.pointers.mapM (readNumber lib data') := by
      rw [mapM_pointers, mapM_pointers]
      cases check.readings lib data <;> cases check.readings lib data' <;>
        simp [Except.map, -List.append_singleton_inj, hinjective.eq_iff]
    have hraised : ∀ error, check.pointers.mapM (readNumber lib data) ≠ .error (.raised error) := by
      intro error h
      obtain ⟨error', h'⟩ := (readings_eq_raised_iff lib data check).mpr ⟨error, h⟩
      exact hno error' h'
    rw [hpointers, mapM_readNumber_eq_iff hraised]
    constructor
    · rintro halike _ heq
      cases heq
      exact halike
    · exact fun halike => halike check rfl

/-- The `detail` of an evaluation before it starts. -/
def indexDetail (index : Option Nat) : List (String × Json) :=
  (index.map fun index => ("index", Json.int index)).toList

/-- The numbers are read and compared, or else there is a reason. -/
theorem evaluateSumEquals_eq_ok {index : Option Nat} {outcome : PostCheckOutcome}
    (h : evaluateSumEquals lib data fields index = .ok outcome) :
    (∃ check numbers, sumCheck fields = .ok check ∧ readingOf lib data fields = .ok numbers ∧
      outcome = ⟨"sum_equals", (check.verdict lib numbers).1,
        indexDetail index ++ (check.verdict lib numbers).2⟩) ∨
    ∃ reason, readingOf lib data fields = .error (.pointer reason) ∧
      outcome = ⟨"sum_equals", false, indexDetail index ++ [("reason", .str reason)]⟩ := by
  unfold evaluateSumEquals at h
  rw [sumEquals_eq] at h
  unfold readingOf
  cases hcheck : sumCheck fields with
  | error reason =>
    rw [hcheck] at h
    refine Or.inr ⟨reason, rfl, ?_⟩
    cases index <;> exact (Except.ok.inj h).symm
  | ok check =>
    rw [hcheck] at h
    dsimp only at h ⊢
    rcases hread : check.readings lib data with (reason | error) | numbers
    · rw [hread] at h
      refine Or.inr ⟨reason, rfl, ?_⟩
      cases index <;> exact (Except.ok.inj h).symm
    · rw [hread] at h
      cases h
    · rw [hread] at h
      refine Or.inl ⟨check, numbers, rfl, rfl, ?_⟩
      cases index <;> exact (Except.ok.inj h).symm

theorem readingOf_ne_raised {index : Option Nat} {outcome : PostCheckOutcome}
    (h : evaluateSumEquals lib data fields index = .ok outcome) (error : PyError) :
    readingOf lib data fields ≠ .error (.raised error) := by
  rcases evaluateSumEquals_eq_ok h with ⟨_, _, -, hr, -⟩ | ⟨_, hr, -⟩ <;> simp [hr]

/-- The outcome of a sum check tells what it read, and nothing else. -/
theorem outcome_eq_iff {index : Option Nat} {outcome outcome' : PostCheckOutcome}
    (h : evaluateSumEquals lib data fields index = .ok outcome)
    (h' : evaluateSumEquals lib data' fields index = .ok outcome') :
    outcome = outcome' ↔ EvaluationAlike lib fields data data' := by
  rw [← readingOf_eq_iff (readingOf_ne_raised h)]
  rcases evaluateSumEquals_eq_ok h with ⟨check, numbers, hc, hr, rfl⟩ | ⟨reason, hr, rfl⟩ <;>
    rcases evaluateSumEquals_eq_ok h' with ⟨check', numbers', hc', hr', rfl⟩ | ⟨reason', hr', rfl⟩ <;>
    rw [hr, hr']
  · obtain rfl : check = check' := Except.ok.inj (hc.symm.trans hc')
    constructor
    · intro heq
      have hfound := List.append_cancel_left (congrArg PostCheckOutcome.detail heq)
      have hnumbers : numbers = numbers' := by
        simp only [SumCheck.verdict, List.cons.injEq, Prod.mk.injEq, Json.arr.injEq, true_and,
          Json.float.injEq] at hfound
        obtain ⟨hvalues, -, htotal, -⟩ := hfound
        exact Prod.ext (List.map_injective_iff.mpr (fun x y => Json.float.inj) hvalues) htotal
      rw [hnumbers]
    · intro heq
      cases heq
      rfl
  · simp [SumCheck.verdict]
  · simp [SumCheck.verdict]
  · simp

/-- In an array the outcomes tell what was read in each element. -/
theorem outcomes_eq_iff {elements elements' : List Json} {outcomes outcomes' : List PostCheckOutcome}
    {start : Nat}
    (h : ((elements.zipIdx start).mapM fun e => evaluateSumEquals lib e.1 fields (some e.2)) =
      .ok outcomes)
    (h' : ((elements'.zipIdx start).mapM fun e => evaluateSumEquals lib e.1 fields (some e.2)) =
      .ok outcomes') :
    outcomes = outcomes' ↔ List.Forall₂ (EvaluationAlike lib fields) elements elements' := by
  induction elements generalizing elements' outcomes outcomes' start with
  | nil =>
    cases h
    cases elements' with
    | nil =>
      cases h'
      simp
    | cons element' elements' =>
      obtain ⟨outcome', rest', -, -, rfl⟩ := mapM_cons_eq_ok h'
      simp
  | cons element elements ih =>
    obtain ⟨outcome, rest, hfirst, hrest, rfl⟩ := mapM_cons_eq_ok h
    cases elements' with
    | nil =>
      cases h'
      simp
    | cons element' elements' =>
      obtain ⟨outcome', rest', hfirst', hrest', rfl⟩ := mapM_cons_eq_ok h'
      rw [List.cons.injEq, List.forall₂_cons, outcome_eq_iff hfirst hfirst', ih hrest hrest']

/-- What becomes of a sum check with a scope, by where the scope leads. -/
inductive ScopeOutcome (lib : Libraries) (fields : List (String × Json)) (scope data : Json) :
    List PostCheckOutcome → Prop where
  | stopped {stop : Stop} {reason : String} (h : StopsAt data scope stop)
      (hreason : stop.fault lib = .pointer reason) :
      ScopeOutcome lib fields scope data [⟨"sum_equals", false, [("reason", .str reason)]⟩]
  | noArray {v : Json} (h : PointsTo data scope v) (hv : ∀ elements, v ≠ .arr elements) :
      ScopeOutcome lib fields scope data
        [⟨"sum_equals", false, [("reason", .str "scope must resolve to an array")]⟩]
  | each {elements : List Json} {outcomes : List PostCheckOutcome}
      (h : PointsTo data scope (.arr elements))
      (hm : elements.zipIdx.mapM (fun e => evaluateSumEquals lib e.1 fields (some e.2)) =
        .ok outcomes) : ScopeOutcome lib fields scope data outcomes

theorem scopeOutcome_of_evaluateCheck {scope : Json} {outcomes : List PostCheckOutcome}
    (hop : fields.lookup "op" = some (.str "sum_equals"))
    (hscope : fields.lookup "scope" = some scope) (hne : scope ≠ .null)
    (h : evaluateCheck lib data (.obj fields) = .ok outcomes) :
    ScopeOutcome lib fields scope data outcomes := by
  rcases pointsTo_or_stopsAt data scope with ⟨v, hv⟩ | ⟨stop, hstop⟩
  · by_cases harr : ∃ elements, v = .arr elements
    · obtain ⟨elements, rfl⟩ := harr
      rw [evaluateCheck_each hop hscope hne (resolvePointer_of_pointsTo hv)] at h
      exact .each hv h
    · have hnone : ∀ elements, v ≠ .arr elements := fun elements h => harr ⟨elements, h⟩
      rw [evaluateCheck_no_array hop hscope hne (resolvePointer_of_pointsTo hv) hnone] at h
      cases h
      exact .noArray hv hnone
  · rw [evaluateCheck_stopped hop hscope hne (resolvePointer_of_stopsAt hstop)] at h
    cases hfault : stop.fault lib with
    | pointer reason =>
      rw [hfault] at h
      cases h
      exact .stopped hstop hfault
    | raised error =>
      rw [hfault] at h
      cases h

/-- What was read in an array is told apart from a reason by its index. -/
theorem outcomes_ne_stopped {elements : List Json} {outcomes : List PostCheckOutcome}
    {reason : String}
    (h : elements.zipIdx.mapM (fun e => evaluateSumEquals lib e.1 fields (some e.2)) = .ok outcomes) :
    outcomes ≠ [⟨"sum_equals", false, [("reason", .str reason)]⟩] := by
  cases elements with
  | nil =>
    cases h
    simp
  | cons element elements =>
    obtain ⟨outcome, rest, hfirst, -, rfl⟩ := mapM_cons_eq_ok h
    rcases evaluateSumEquals_eq_ok hfirst with ⟨_, _, -, -, rfl⟩ | ⟨_, -, rfl⟩ <;>
      simp [indexDetail]

/-- No stop has the reason of a scope that leads to no array. -/
theorem reason_ne_no_array {stop : Stop} {reason : String}
    (h : stop.fault lib = .pointer reason) : reason ≠ "scope must resolve to an array" := by
  intro heq
  have hchars := congrArg String.toList heq
  rcases Stop.reason_chars h with ⟨_, _, -, -, rfl⟩ | ⟨_, -, rfl⟩ | ⟨_, _, -, rfl⟩ |
      ⟨_, _, -, -, rfl⟩ <;>
    simp [String.toList_append] at hchars

section Scoped

variable {scope : Json} {outcomes outcomes' : List PostCheckOutcome}
  (hop : fields.lookup "op" = some (.str "sum_equals"))
  (hscope : fields.lookup "scope" = some scope) (hne : scope ≠ .null)
  (h : evaluateCheck lib data (.obj fields) = .ok outcomes)
  (h' : evaluateCheck lib data' (.obj fields) = .ok outcomes')

include hop hscope hne h h'

/-- Where a scope leads, and what is read there, can be told from the outcomes. -/
theorem scopeAlike_of_eq (heq : outcomes = outcomes') : ScopeAlike lib fields scope data data' := by
  have hreasons {reason reason' : String}
      (heq : [(⟨"sum_equals", false, [("reason", .str reason)]⟩ : PostCheckOutcome)] =
        [⟨"sum_equals", false, [("reason", .str reason')]⟩]) : reason = reason' := by
    simpa using heq
  have hfirst := scopeOutcome_of_evaluateCheck hop hscope hne h
  have hsecond := scopeOutcome_of_evaluateCheck hop hscope hne h'
  cases hfirst with
  | stopped hs hreason =>
    cases hsecond with
    | stopped hs' hreason' =>
      obtain rfl := hreasons heq
      exact .stopped hs hs' (Stop.alike_of_reason hreason hreason')
    | noArray _ _ => exact absurd (hreasons heq) (reason_ne_no_array hreason)
    | each _ hm' => exact absurd heq.symm (outcomes_ne_stopped hm')
  | noArray hv hnone =>
    cases hsecond with
    | stopped _ hreason' => exact absurd (hreasons heq).symm (reason_ne_no_array hreason')
    | noArray hv' hnone' => exact .noArray hv hv' hnone hnone'
    | each _ hm' => exact absurd heq.symm (outcomes_ne_stopped hm')
  | each hv hm =>
    cases hsecond with
    | stopped _ _ => exact absurd heq (outcomes_ne_stopped hm)
    | noArray _ _ => exact absurd heq (outcomes_ne_stopped hm)
    | each hv' hm' => exact .each hv hv' ((outcomes_eq_iff hm hm').mp heq)

/-- Nothing else can. -/
theorem eq_of_scopeAlike (halike : ScopeAlike lib fields scope data data') :
    outcomes = outcomes' := by
  cases halike with
  | stopped hs hs' alike =>
    rw [evaluateCheck_stopped hop hscope hne (resolvePointer_of_stopsAt hs)] at h
    rw [evaluateCheck_stopped hop hscope hne (resolvePointer_of_stopsAt hs'), ← alike.fault_eq] at h'
    exact Except.ok.inj (h.symm.trans h')
  | noArray hv hv' hnone hnone' =>
    rw [evaluateCheck_no_array hop hscope hne (resolvePointer_of_pointsTo hv) hnone] at h
    rw [evaluateCheck_no_array hop hscope hne (resolvePointer_of_pointsTo hv') hnone'] at h'
    exact Except.ok.inj (h.symm.trans h')
  | each hv hv' alike =>
    rw [evaluateCheck_each hop hscope hne (resolvePointer_of_pointsTo hv)] at h
    rw [evaluateCheck_each hop hscope hne (resolvePointer_of_pointsTo hv')] at h'
    exact (outcomes_eq_iff h h').mpr alike

end Scoped

/-- Without a scope a check tells what it reads in the whole output. -/
theorem unscoped_eq_iff {outcomes outcomes' : List PostCheckOutcome}
    (hop : fields.lookup "op" = some (.str "sum_equals"))
    (hnull : (fields.lookup "scope").getD .null = .null)
    (h : evaluateCheck lib data (.obj fields) = .ok outcomes)
    (h' : evaluateCheck lib data' (.obj fields) = .ok outcomes') :
    outcomes = outcomes' ↔ EvaluationAlike lib fields data data' := by
  have hone {doc : Json} {found : List PostCheckOutcome}
      (hfound : evaluateCheck lib doc (.obj fields) = .ok found) :
      ∃ outcome, evaluateSumEquals lib doc fields none = .ok outcome ∧ found = [outcome] := by
    rw [evaluateCheck_unscoped hop hnull] at hfound
    cases hd : evaluateSumEquals lib doc fields none with
    | error e =>
      rw [hd] at hfound
      cases hfound
    | ok outcome =>
      rw [hd] at hfound
      exact ⟨outcome, rfl, (Except.ok.inj hfound).symm⟩
  obtain ⟨outcome, hd, rfl⟩ := hone h
  obtain ⟨outcome', hd', rfl⟩ := hone h'
  rw [← outcome_eq_iff hd hd']
  simp

/-- The outcomes of a check tell what it reads, and nothing else. -/
theorem check_eq_iff {check : Json} {outcomes outcomes' : List PostCheckOutcome}
    (h : evaluateCheck lib data check = .ok outcomes)
    (h' : evaluateCheck lib data' check = .ok outcomes') :
    outcomes = outcomes' ↔ CheckAlike lib data data' check := by
  unfold CheckAlike
  cases check with
  | obj fields =>
    by_cases hop : fields.lookup "op" = some (.str "sum_equals")
    · have hfields : (∀ fields', Json.obj fields = .obj fields' →
          fields'.lookup "op" = some (.str "sum_equals") →
          ((fields'.lookup "scope").getD .null = .null → EvaluationAlike lib fields' data data') ∧
            ∀ scope, fields'.lookup "scope" = some scope → scope ≠ .null →
              ScopeAlike lib fields' scope data data') ↔
          ((fields.lookup "scope").getD .null = .null → EvaluationAlike lib fields data data') ∧
            ∀ scope, fields.lookup "scope" = some scope → scope ≠ .null →
              ScopeAlike lib fields scope data data' := by
        constructor
        · exact fun hall => hall fields rfl hop
        · rintro hone _ heq -
          cases heq
          exact hone
      rw [hfields]
      by_cases hnull : (fields.lookup "scope").getD .null = .null
      · have hnoscope : ∀ scope, fields.lookup "scope" = some scope → scope = .null := by
          intro scope hscope
          rwa [hscope] at hnull
        rw [unscoped_eq_iff hop hnull h h']
        exact ⟨fun halike => ⟨fun _ => halike, fun scope hscope hne =>
          absurd (hnoscope scope hscope) hne⟩, fun halike => halike.1 hnull⟩
      · obtain ⟨scope, hscope⟩ : ∃ scope, fields.lookup "scope" = some scope := by
          cases hs : fields.lookup "scope" with
          | none => simp [hs] at hnull
          | some scope => exact ⟨scope, rfl⟩
        have hne : scope ≠ .null := by simpa [hscope] using hnull
        constructor
        · intro heq
          refine ⟨fun hnull' => absurd hnull' hnull, fun scope' hscope' _ => ?_⟩
          obtain rfl := Option.some.inj (hscope.symm.trans hscope')
          exact scopeAlike_of_eq hop hscope hne h h' heq
        · exact fun halike => eq_of_scopeAlike hop hscope hne h h' (halike.2 scope hscope hne)
    · -- another operation says the same of any output
      rw [evaluateCheck_unsupported hop] at h h'
      refine iff_of_true (Except.ok.inj (h.symm.trans h')) ?_
      rintro _ heq hsum
      cases heq
      exact absurd hsum hop
  | _ =>
    refine iff_of_true (Except.ok.inj (h.symm.trans h')) ?_
    rintro _ ⟨⟩

end Evaluation

/-! ## The log -/

/-- The `op` and the `passed` of each outcome. -/
def verdictsOf (outcomes : List PostCheckOutcome) : List (String × Bool) :=
  outcomes.map fun outcome => (outcome.op, outcome.passed)

/-- A check gives the same verdicts on two outputs. -/
def SameVerdicts (lib : Libraries) (data data' check : Json) : Prop :=
  ∃ outcomes outcomes', evaluateCheck lib data check = .ok outcomes ∧
    evaluateCheck lib data' check = .ok outcomes' ∧ verdictsOf outcomes = verdictsOf outcomes'

instance (lib : Libraries) (data data' check : Json) :
    Decidable (SameVerdicts lib data data' check) :=
  match h : evaluateCheck lib data check, h' : evaluateCheck lib data' check with
  | .ok outcomes, .ok outcomes' =>
    decidable_of_iff (verdictsOf outcomes = verdictsOf outcomes') (by simp [SameVerdicts, h, h'])
  | .error _, _ => isFalse (by simp [SameVerdicts, h])
  | .ok _, .error _ => isFalse (by simp [SameVerdicts, h'])

/-- `_repair_and_validate` on a first answer, and `_run_post_checks` on its data. -/
def validateAndCheck {ω : Type} (lib : Libraries) (rawOutput : String) (schema : Json)
    (checks : List Json) (requestId : Option String) : Method ω (List PostCheckResult) := do
  let validated ← repairAndValidate lib rawOutput schema false true
  runPostChecks lib (normalizeValues validated schema) checks requestId

/-- The events of a run above `DEBUG`. -/
def visibleLog {ω α : Type} (p : Method ω α) (s : Session ω) : List LogEvent :=
  ((p.outcome s).2.log.drop s.log.length).filter (·.level ≠ .debug)

section Log

variable {ω : Type} {lib : Libraries} {data data' schema : Json} {checks : List Json}
  {requestId : Option String}

/-- All the checks are evaluated, and the outcomes come in order. -/
theorem evaluatePostChecks_of_forall {outcomes : Json → List PostCheckOutcome}
    (h : ∀ check ∈ checks, evaluateCheck lib data check = .ok (outcomes check)) :
    evaluatePostChecks lib data checks = .ok (checks.flatMap outcomes) := by
  have hall : checks.mapM (evaluateCheck lib data) = .ok (checks.map outcomes) := by
    induction checks with
    | nil => rfl
    | cons check checks ih =>
      rw [List.mapM_cons, h check List.mem_cons_self,
        ih fun c hc => h c (List.mem_cons_of_mem _ hc)]
      rfl
  unfold evaluatePostChecks
  rw [hall, List.flatMap]
  rfl

/-- The outcomes of all checks agree exactly when those of each do. -/
theorem flatMap_eq_iff {outcomes outcomes' : Json → List PostCheckOutcome}
    (h : ∀ check ∈ checks, (outcomes check).length = (outcomes' check).length) :
    checks.flatMap outcomes = checks.flatMap outcomes' ↔
      ∀ check ∈ checks, outcomes check = outcomes' check := by
  induction checks with
  | nil => simp
  | cons check checks ih =>
    rw [List.forall_mem_cons] at h ⊢
    rw [List.flatMap_cons, List.flatMap_cons, ← ih h.2]
    constructor
    · exact fun heq => List.append_inj heq h.1
    · intro heq
      rw [heq.1, heq.2]

theorem postcheckEvent_injective :
    Function.Injective fun outcome : PostCheckOutcome =>
      postcheckEvent requestId outcome.result := by
  intro outcome outcome' h
  simp only [postcheckEvent, PostCheckOutcome.result, LogEvent.schemaPostcheck.injEq,
    Json.obj.injEq, and_true] at h
  obtain ⟨hop, hpassed, hdetail⟩ := h
  cases outcome
  cases outcome'
  simp_all

/-- What an accepted output leaves in the log. -/
theorem visibleLog_validateAndCheck {rawOutput : String} {repairApplied : Bool}
    {outcomes : List PostCheckOutcome} (s : Session ω)
    (hrepair : requiresJsonRepair lib rawOutput = .ok repairApplied)
    (hchecked : checkedOutput lib rawOutput schema = .ok data)
    (houtcomes : evaluatePostChecks lib (normalizeValues data schema) checks = .ok outcomes) :
    visibleLog (validateAndCheck lib rawOutput schema checks requestId) s =
      .schemaValidation true repairApplied false ::
        outcomes.map fun outcome => postcheckEvent requestId outcome.result := by
  have hvalidated : validatedOutput lib rawOutput schema = .ok data := by
    unfold checkedOutput at hchecked
    rw [hrepair] at hchecked
    exact hchecked
  have hfirst : (repairAndValidate (ω := ω) lib rawOutput schema false true).outcome s =
      (.ok data, { s with log := s.log ++ [.schemaValidation true repairApplied false] ++
        [.schemaValues data] }) := by
    unfold repairAndValidate
    rw [hrepair]
    dsimp only
    rw [hvalidated]
    rfl
  have hlog : ((validateAndCheck lib rawOutput schema checks requestId).outcome s).2.log =
      s.log ++ ([.schemaValidation true repairApplied false, .schemaValues data] ++
        outcomes.map fun outcome => postcheckEvent requestId outcome.result) := by
    unfold validateAndCheck
    rw [Program.outcome_bind_ok hfirst, outcome_runPostChecks, houtcomes]
    simp
  -- the verdicts are logged at `info` or `warning`, the values at `debug`
  have hshown : ∀ event ∈ outcomes.map fun outcome => postcheckEvent requestId outcome.result,
      decide (event.level ≠ .debug) = true := by
    intro event hm
    obtain ⟨outcome, -, rfl⟩ := List.mem_map.mp hm
    cases hp : outcome.passed <;>
      simp [postcheckEvent, PostCheckOutcome.result, LogEvent.level, hp]
  unfold visibleLog
  rw [hlog, List.drop_left, List.filter_append, List.filter_eq_self.mpr hshown]
  rfl

end Log

/-- That the number at `/a` is the total. -/
def totalIsA : Json :=
  .obj [("op", .str "sum_equals"), ("addends", .arr [.str "/a"]), ("total", .str "/total")]

def answerOf (n : Int) : Json := .obj [("a", .int n), ("total", .int n)]

/-- A model that answers with one or with two. -/
def oneOrTwo : String → Option Json
  | "one" => some (answerOf 1)
  | "two" => some (answerOf 2)
  | _ => none

end InternumCore
