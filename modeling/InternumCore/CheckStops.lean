import InternumCore.CheckReadings
import InternumCore.PointerResolution

/-!
# What stops a check

A pointer of a check leads to a value, or it stops on the way: it is no pointer, a key
is missing, an index is none or out of range, or there is nothing to index (`Stop`).
Both are relations between the pointer and the document (`PointsTo`, `StopsAt`), and
the code resolves or raises as they say.  The reason it gives tells one stop from
another (`Stop.alike_of_reason`), since no string is shown as the beginning of what
another is shown as.
-/

namespace InternumCore

/-! ## Stops -/

/-- What stops a pointer at a token. -/
inductive TokenStop where
  | missingKey (token : String)
  | invalidIndex (token : String)
  | outOfRange
  | notIndexable

def TokenStop.text (lib : Libraries) : TokenStop → String
  | .missingKey token => "missing key " ++ lib.quote token
  | .invalidIndex token => "invalid index " ++ lib.quote token
  | .outOfRange => "index out of range"
  | .notIndexable => "not indexable"

/-- What keeps a pointer of a check from leading to a number. -/
inductive Stop where
  /-- It is no string. -/
  | noPointer (pointer : Json)
  /-- It does not begin with a slash. -/
  | noSlash (pointer : String)
  | unresolved (pointer : String) (stop : TokenStop)
  /-- It leads to something else. -/
  | noNumber (value : Json)

/-- What is raised for a stop. -/
def Stop.fault (lib : Libraries) : Stop → PointerFault
  | .noPointer pointer => shownFault "pointer must be a string, got " (lib.repr pointer)
  | .noSlash pointer => .pointer ("invalid JSON pointer: " ++ lib.quote pointer)
  | .unresolved pointer stop =>
    .pointer ("pointer " ++ (lib.quote pointer ++ (" does not resolve: " ++ stop.text lib)))
  | .noNumber value => shownFault "expected a numeric value, got " (lib.repr value)

/-- The stops are the same, or are about values that are shown alike. -/
inductive Stop.Alike (lib : Libraries) : Stop → Stop → Prop where
  | same (stop : Stop) : Stop.Alike lib stop stop
  | noPointer {pointer pointer' : Json} (h : lib.repr pointer = lib.repr pointer') :
      Stop.Alike lib (.noPointer pointer) (.noPointer pointer')
  | noNumber {value value' : Json} (h : lib.repr value = lib.repr value') :
      Stop.Alike lib (.noNumber value) (.noNumber value')

section Texts

variable {lib : Libraries}

theorem Stop.Alike.fault_eq {stop stop' : Stop} (h : stop.Alike lib stop') :
    stop.fault lib = stop'.fault lib := by
  cases h with
  | same => rfl
  | noPointer h => rw [Stop.fault, Stop.fault, h]
  | noNumber h => rw [Stop.fault, Stop.fault, h]

theorem TokenStop.text_inj {stop stop' : TokenStop} (h : stop.text lib = stop'.text lib) :
    stop = stop' := by
  have hchars := congrArg String.toList h
  cases stop <;> cases stop' <;>
    simp only [TokenStop.text, String.toList_append, String.reduceToList, List.cons_append,
      List.nil_append, List.cons.injEq, Char.reduceEq, false_and, and_false, true_and] at hchars
  case missingKey.missingKey token token' =>
    rw [PyRepr.reprString_inj (String.toList_inj.mp hchars)]
  case invalidIndex.invalidIndex token token' =>
    rw [PyRepr.reprString_inj (String.toList_inj.mp hchars)]
  all_goals rfl

/-- A string is shown between quotes. -/
theorem head_quote (lib : Libraries) (text : String) :
    ∃ rest, (lib.quote text).toList = '\x27' :: rest ∨ (lib.quote text).toList = '\x22' :: rest := by
  have hquote : (lib.quote text).toList = PyRepr.quoteOf text.toList ::
      (text.toList.flatMap (PyRepr.reprChar lib.printable (PyRepr.quoteOf text.toList)) ++
        [PyRepr.quoteOf text.toList]) := String.toList_ofList
  rcases PyRepr.quoteOf_cases text.toList with h | h
  · exact ⟨_, Or.inl (hquote.trans (by rw [h]))⟩
  · exact ⟨_, Or.inr (hquote.trans (by rw [h]))⟩

theorem shownFault_eq_pointer_iff {text reason : String} {shown : Except PyRepr.ReprError String} :
    shownFault text shown = .pointer reason ↔ ∃ t, shown = .ok t ∧ reason = text ++ t := by
  cases shown with
  | ok t => simp [shownFault, eq_comm]
  | error e => simp [shownFault]

/-- The reasons of two kinds of stops begin differently. -/
theorem Stop.reason_chars {stop : Stop} {reason : String} (h : stop.fault lib = .pointer reason) :
    (∃ pointer text, stop = .noPointer pointer ∧ lib.repr pointer = .ok text ∧
        reason = "pointer must be a string, got " ++ text) ∨
      (∃ pointer, stop = .noSlash pointer ∧ reason = "invalid JSON pointer: " ++ lib.quote pointer) ∨
      (∃ pointer token, stop = .unresolved pointer token ∧ reason = "pointer " ++
        (lib.quote pointer ++ (" does not resolve: " ++ token.text lib))) ∨
      ∃ value text, stop = .noNumber value ∧ lib.repr value = .ok text ∧
        reason = "expected a numeric value, got " ++ text := by
  cases stop with
  | noPointer pointer =>
    obtain ⟨text, hshown, rfl⟩ := shownFault_eq_pointer_iff.mp h
    exact Or.inl ⟨pointer, text, rfl, hshown, rfl⟩
  | noSlash pointer => exact Or.inr (Or.inl ⟨pointer, rfl, (PointerFault.pointer.inj h).symm⟩)
  | unresolved pointer token =>
    exact Or.inr (Or.inr (Or.inl ⟨pointer, token, rfl, (PointerFault.pointer.inj h).symm⟩))
  | noNumber value =>
    obtain ⟨text, hshown, rfl⟩ := shownFault_eq_pointer_iff.mp h
    exact Or.inr (Or.inr (Or.inr ⟨value, text, rfl, hshown, rfl⟩))

/-- **The reason tells the stop.** -/
theorem Stop.alike_of_reason {stop stop' : Stop} {reason : String}
    (h : stop.fault lib = .pointer reason) (h' : stop'.fault lib = .pointer reason) :
    stop.Alike lib stop' := by
  -- a text after `pointer ` is not shown in quotes
  have hmust {pointer : String} {token : TokenStop} {text : String} :
      "pointer must be a string, got " ++ text ≠ "pointer " ++
        (lib.quote pointer ++ (" does not resolve: " ++ token.text lib)) := by
    intro heq
    have hchars := congrArg String.toList heq
    obtain ⟨rest, hrest⟩ := head_quote lib pointer
    rcases hrest with hrest | hrest <;>
      simp [String.toList_append, hrest] at hchars
  rcases Stop.reason_chars h with ⟨p, t, rfl, hp, rfl⟩ | ⟨p, rfl, rfl⟩ | ⟨p, t, rfl, rfl⟩ |
      ⟨v, t, rfl, hv, rfl⟩ <;>
    rcases Stop.reason_chars h' with ⟨p', t', rfl, hp', heq⟩ | ⟨p', rfl, heq⟩ | ⟨p', t', rfl, heq⟩ |
      ⟨v', t', rfl, hv', heq⟩
  case inl.inl =>
    exact .noPointer (by rw [hp, hp', (String.append_right_inj _).mp heq])
  case inl.inr.inr.inl => exact absurd heq hmust
  case inr.inr.inl.inl => exact absurd heq.symm hmust
  case inr.inl.inr.inl =>
    rw [PyRepr.reprString_inj ((String.append_right_inj _).mp heq)]
    exact .same _
  case inr.inr.inl.inr.inr.inl =>
    obtain ⟨rfl, htoken⟩ := PyRepr.reprString_append_inj ((String.append_right_inj _).mp heq)
    rw [TokenStop.text_inj ((String.append_right_inj _).mp htoken)]
    exact .same _
  case inr.inr.inr.inr.inr.inr =>
    exact .noNumber (by rw [hv, hv', (String.append_right_inj _).mp heq])
  all_goals
    have hchars := congrArg String.toList heq
    simp [String.toList_append] at hchars

end Texts

/-! ## Where pointers lead -/

/-- The pointer leads from the document to the value. -/
inductive PointsTo (doc : Json) : Json → Json → Prop where
  | whole : PointsTo doc (.str "") doc
  | tokens {rest : List Char} {visits : List (Json × List Char)} {v : Json}
      (h : Follows doc (rest.splitOn '/') visits v) :
      PointsTo doc (.str (String.ofList ('/' :: rest))) v

/-- The token leads nowhere from this value. -/
inductive StopsToken : Json → String → TokenStop → Prop where
  | missingKey {fields : List (String × Json)} {token : String} (h : fields.lookup token = none) :
      StopsToken (.obj fields) token (.missingKey token)
  | invalidIndex {items : List Json} {token : String} (h : pyInt token = none) :
      StopsToken (.arr items) token (.invalidIndex token)
  | outOfRange {items : List Json} {token : String} {position : Int}
      (h : pyInt token = some position) (hout : position < 0 ∨ items.length ≤ position) :
      StopsToken (.arr items) token .outOfRange
  | notIndexable {doc : Json} {token : String} (hobj : ∀ fields, doc ≠ .obj fields)
      (harr : ∀ items, doc ≠ .arr items) : StopsToken doc token .notIndexable

/-- One of the written tokens leads nowhere, and the ones before it lead to it. -/
inductive StopsTokens : Json → List (List Char) → TokenStop → Prop where
  | here {doc : Json} {written : List Char} {rest : List (List Char)} {stop : TokenStop}
      (h : StopsToken doc (unescapeToken written) stop) : StopsTokens doc (written :: rest) stop
  | later {doc next : Json} {written : List Char} {rest : List (List Char)} {stop : TokenStop}
      (he : Enters doc (unescapeToken written) next) (h : StopsTokens next rest stop) :
      StopsTokens doc (written :: rest) stop

/-- The pointer leads nowhere. -/
inductive StopsAt (doc : Json) : Json → Stop → Prop where
  | noPointer {pointer : Json} (h : ∀ text, pointer ≠ .str text) :
      StopsAt doc pointer (.noPointer pointer)
  | noSlash {pointer : String} (hne : pointer ≠ "") (h : startsWith pointer "/" = false) :
      StopsAt doc (.str pointer) (.noSlash pointer)
  | unresolved {rest : List Char} {stop : TokenStop} (h : StopsTokens doc (rest.splitOn '/') stop) :
      StopsAt doc (.str (String.ofList ('/' :: rest)))
        (.unresolved (String.ofList ('/' :: rest)) stop)

/-! ### Every pointer does one or the other -/

theorem enters_or_stops (doc : Json) (token : String) :
    (∃ v, Enters doc token v) ∨ ∃ stop, StopsToken doc token stop := by
  cases doc with
  | obj fields =>
    cases h : fields.lookup token with
    | some v => exact Or.inl ⟨v, h⟩
    | none => exact Or.inr ⟨_, .missingKey h⟩
  | arr items =>
    cases h : pyInt token with
    | none => exact Or.inr ⟨_, .invalidIndex h⟩
    | some position =>
      by_cases hout : position < 0 ∨ items.length ≤ position
      · exact Or.inr ⟨_, .outOfRange h hout⟩
      · obtain ⟨i, rfl⟩ := Int.eq_ofNat_of_zero_le (show 0 ≤ position by omega)
        exact Or.inl ⟨_, i, h, List.getElem?_eq_getElem (by omega)⟩
  | _ => exact Or.inr ⟨_, .notIndexable (fun _ h => by cases h) fun _ h => by cases h⟩

theorem follows_or_stops (doc : Json) (written : List (List Char)) :
    (∃ visits v, Follows doc written visits v) ∨ ∃ stop, StopsTokens doc written stop := by
  induction written generalizing doc with
  | nil => exact Or.inl ⟨[], doc, .done⟩
  | cons w written ih =>
    rcases enters_or_stops doc (unescapeToken w) with ⟨next, he⟩ | ⟨stop, hstop⟩
    · rcases ih next with ⟨visits, v, hfollows⟩ | ⟨stop, hstops⟩
      · exact Or.inl ⟨_, v, .step he hfollows⟩
      · exact Or.inr ⟨stop, .later he hstops⟩
    · exact Or.inr ⟨stop, .here hstop⟩

theorem pointsTo_or_stopsAt (doc pointer : Json) :
    (∃ v, PointsTo doc pointer v) ∨ ∃ stop, StopsAt doc pointer stop := by
  cases pointer with
  | str text =>
    by_cases hempty : text = ""
    · subst hempty
      exact Or.inl ⟨doc, .whole⟩
    by_cases hslash : startsWith text "/" = true
    · obtain ⟨rest, rfl⟩ : ∃ rest, text = String.ofList ('/' :: rest) := by
        rw [startsWith_slash_iff] at hslash
        obtain ⟨rest, hrest⟩ := List.head?_eq_some_iff.mp hslash
        exact ⟨rest, by rw [← hrest, String.ofList_toList]⟩
      rcases follows_or_stops doc (rest.splitOn '/') with ⟨visits, v, hfollows⟩ | ⟨stop, hstops⟩
      · exact Or.inl ⟨v, .tokens hfollows⟩
      · exact Or.inr ⟨_, .unresolved hstops⟩
    · exact Or.inr ⟨_, .noSlash hempty (by simpa using hslash)⟩
  | _ => exact Or.inr ⟨_, .noPointer fun _ h => by cases h⟩

/-! ### The code does what they say -/

section Resolving

variable {lib : Libraries} {doc : Json}

theorem fault_unresolved (pointer : String) (stop : TokenStop) :
    (Stop.unresolved pointer stop).fault lib =
      .pointer ("pointer " ++ lib.quote pointer ++ " does not resolve: " ++ stop.text lib) := by
  rw [Stop.fault, String.append_assoc, String.append_assoc]

theorem resolveToken_of_stops {pointer token : String} {stop : TokenStop}
    (h : StopsToken doc token stop) :
    resolveToken lib pointer doc token = .error ((Stop.unresolved pointer stop).fault lib) := by
  have hself (text : String) : toString text = text := rfl
  rw [fault_unresolved]
  cases h with
  | missingKey h =>
    unfold resolveToken
    simp [h, hself, TokenStop.text, ← String.toList_inj]
  | invalidIndex h =>
    unfold resolveToken
    simp [h, hself, TokenStop.text, ← String.toList_inj]
  | @outOfRange items _ position h hout =>
    unfold resolveToken
    dsimp only
    rw [h]
    dsimp only
    by_cases hneg : position < 0
    · simp [hneg, hself, TokenStop.text, ← String.toList_inj]
    · have hnone : items[position.toNat]? = none := List.getElem?_eq_none (by omega)
      simp [hneg, hnone, hself, TokenStop.text, ← String.toList_inj]
  | notIndexable hobj harr =>
    unfold resolveToken
    cases doc with
    | obj fields => exact absurd rfl (hobj fields)
    | arr items => exact absurd rfl (harr items)
    | _ => simp [hself, TokenStop.text, ← String.toList_inj]

theorem resolveTokens_of_stops {pointer : String} {written : List (List Char)} {stop : TokenStop}
    (h : StopsTokens doc written stop) :
    resolveTokens lib pointer doc (written.map unescapeToken) =
      .error ((Stop.unresolved pointer stop).fault lib) := by
  induction h with
  | here h =>
    rw [List.map_cons, resolveTokens, resolveToken_of_stops h]
    rfl
  | later he _ ih =>
    rw [List.map_cons, resolveTokens, resolveToken_ok_iff.mpr he]
    exact ih

theorem resolvePointer_of_stopsAt {pointer : Json} {stop : Stop} (h : StopsAt doc pointer stop) :
    resolvePointer lib doc pointer = .error (stop.fault lib) := by
  cases h with
  | noPointer h =>
    cases pointer with
    | str text => exact absurd rfl (h text)
    | _ => rfl
  | noSlash hne h =>
    unfold resolvePointer
    dsimp only
    rw [if_neg hne, h]
    rfl
  | unresolved h => rw [resolvePointer_cons, resolveTokens_of_stops h]

theorem resolvePointer_of_pointsTo {pointer v : Json} (h : PointsTo doc pointer v) :
    resolvePointer lib doc pointer = .ok v := by
  cases h with
  | whole => rfl
  | tokens h =>
    rw [resolvePointer_cons]
    exact resolveTokens_ok_iff.mpr ⟨_, h⟩

end Resolving

/-! ## What a check reads -/

/-- The float of a number; there is none for a large integer. -/
def floatOf (lib : Libraries) : Json → Option PyFloat
  | .int n => lib.floatOfInt n
  | .float x => some x
  | _ => none

def Json.isNumber : Json → Bool
  | .int _ | .float _ => true
  | _ => false

/-- The pointer leads to a number with this float. -/
def Reads (lib : Libraries) (doc pointer : Json) (x : PyFloat) : Prop :=
  ∃ v, PointsTo doc pointer v ∧ floatOf lib v = some x

/-- The pointer leads to no number. -/
inductive Misses (doc pointer : Json) : Stop → Prop where
  | stops {stop : Stop} (h : StopsAt doc pointer stop) : Misses doc pointer stop
  | noNumber {v : Json} (h : PointsTo doc pointer v) (hv : v.isNumber = false) :
      Misses doc pointer (.noNumber v)

/-- The first of the pointers that leads to no number. -/
def FirstMiss (lib : Libraries) (doc : Json) (pointers : List Json) (stop : Stop) : Prop :=
  ∃ before pointer after, pointers = before ++ pointer :: after ∧
    (∀ p ∈ before, ∃ x, Reads lib doc p x) ∧ Misses doc pointer stop

/-- In both documents the pointers lead to the same numbers, up to the first that leads
to none, if there is one; and there they stop alike. -/
inductive ReadAlike (lib : Libraries) (doc doc' : Json) (pointers : List Json) : Prop where
  | numbers (h : ∀ pointer ∈ pointers, ∃ x, Reads lib doc pointer x ∧ Reads lib doc' pointer x)
  | stopped {stop stop' : Stop} (h : FirstMiss lib doc pointers stop)
      (h' : FirstMiss lib doc' pointers stop') (alike : stop.Alike lib stop')

section Reading

variable {lib : Libraries} {doc doc' pointer : Json} {pointers : List Json}

theorem numeric_ok_iff {v : Json} {x : PyFloat} :
    numeric lib v = .ok x ↔ floatOf lib v = some x := by
  cases v with
  | int n => cases hn : lib.floatOfInt n <;> simp [numeric, floatOf, hn]
  | _ => simp [numeric, floatOf]

theorem readNumber_ok_iff {x : PyFloat} :
    readNumber lib doc pointer = .ok x ↔ Reads lib doc pointer x := by
  unfold readNumber Reads
  rcases pointsTo_or_stopsAt doc pointer with ⟨v, hv⟩ | ⟨stop, hstop⟩
  · have hresolved : resolvePointer lib doc pointer = .ok v := resolvePointer_of_pointsTo hv
    rw [hresolved]
    refine numeric_ok_iff.trans ⟨fun h => ⟨v, hv, h⟩, ?_⟩
    rintro ⟨w, hw, h⟩
    obtain rfl := Except.ok.inj (hresolved.symm.trans (resolvePointer_of_pointsTo hw))
    exact h
  · have hresolved : resolvePointer lib doc pointer = .error (stop.fault lib) :=
      resolvePointer_of_stopsAt hstop
    rw [hresolved]
    refine iff_of_false (fun h => by cases h) ?_
    rintro ⟨w, hw, -⟩
    rw [resolvePointer_of_pointsTo hw] at hresolved
    cases hresolved

theorem readNumber_of_misses {stop : Stop} (h : Misses doc pointer stop) :
    readNumber lib doc pointer = .error (stop.fault lib) := by
  unfold readNumber
  cases h with
  | stops h =>
    rw [resolvePointer_of_stopsAt h]
    rfl
  | @noNumber v h hv =>
    rw [resolvePointer_of_pointsTo h]
    cases v with
    | int n => cases hv
    | float x => cases hv
    | _ => rfl

/-- A reading that ends with a reason has missed a number. -/
theorem misses_of_readNumber {reason : String}
    (h : readNumber lib doc pointer = .error (.pointer reason)) :
    ∃ stop, Misses doc pointer stop ∧ stop.fault lib = .pointer reason := by
  rcases pointsTo_or_stopsAt doc pointer with ⟨v, hv⟩ | ⟨stop, hstop⟩
  · by_cases hnumber : v.isNumber = true
    · unfold readNumber at h
      rw [resolvePointer_of_pointsTo hv] at h
      change numeric lib v = _ at h
      cases v with
      | int n =>
        cases hn : lib.floatOfInt n <;> simp [numeric, hn] at h
      | float x => cases h
      | _ => cases hnumber
    · have hmiss : Misses doc pointer (.noNumber v) := .noNumber hv (by simpa using hnumber)
      rw [readNumber_of_misses hmiss] at h
      exact ⟨_, hmiss, Except.error.inj h⟩
  · have hmiss : Misses doc pointer stop := .stops hstop
    rw [readNumber_of_misses hmiss] at h
    exact ⟨_, hmiss, Except.error.inj h⟩

theorem mapM_of_firstMiss {stop : Stop} (h : FirstMiss lib doc pointers stop) :
    pointers.mapM (readNumber lib doc) = .error (stop.fault lib) := by
  obtain ⟨before, pointer, after, heq, hbefore, hmiss⟩ := h
  refine mapM_eq_error_iff.mpr ⟨before, pointer, after, heq, fun p hp => ?_,
    readNumber_of_misses hmiss⟩
  obtain ⟨x, hx⟩ := hbefore p hp
  exact ⟨x, readNumber_ok_iff.mpr hx⟩

theorem firstMiss_of_mapM {reason : String}
    (h : pointers.mapM (readNumber lib doc) = .error (.pointer reason)) :
    ∃ stop, FirstMiss lib doc pointers stop ∧ stop.fault lib = .pointer reason := by
  obtain ⟨before, pointer, after, heq, hbefore, herror⟩ := mapM_eq_error_iff.mp h
  obtain ⟨stop, hmiss, hreason⟩ := misses_of_readNumber herror
  refine ⟨stop, ⟨before, pointer, after, heq, fun p hp => ?_, hmiss⟩, hreason⟩
  obtain ⟨x, hx⟩ := hbefore p hp
  exact ⟨x, readNumber_ok_iff.mp hx⟩

/-- **Two readings agree** exactly when the pointers read alike in both documents. -/
theorem mapM_readNumber_eq_iff
    (hno : ∀ error, pointers.mapM (readNumber lib doc) ≠ .error (.raised error)) :
    pointers.mapM (readNumber lib doc) = pointers.mapM (readNumber lib doc') ↔
      ReadAlike lib doc doc' pointers := by
  constructor
  · intro heq
    cases hread : pointers.mapM (readNumber lib doc) with
    | ok xs =>
      refine .numbers fun pointer hp => ?_
      obtain ⟨x, hx, hx'⟩ := exists_of_mapM_eq_ok hread (heq ▸ hread) pointer hp
      exact ⟨x, readNumber_ok_iff.mp hx, readNumber_ok_iff.mp hx'⟩
    | error fault =>
      cases fault with
      | raised error => exact absurd hread (hno error)
      | pointer reason =>
        obtain ⟨stop, hmiss, hreason⟩ := firstMiss_of_mapM hread
        obtain ⟨stop', hmiss', hreason'⟩ := firstMiss_of_mapM (heq ▸ hread)
        exact .stopped hmiss hmiss' (Stop.alike_of_reason hreason hreason')
  · intro halike
    cases halike with
    | numbers h =>
      refine mapM_congr_mem fun pointer hp => ?_
      obtain ⟨x, hx, hx'⟩ := h pointer hp
      rw [readNumber_ok_iff.mpr hx, readNumber_ok_iff.mpr hx']
    | stopped h h' alike => rw [mapM_of_firstMiss h, mapM_of_firstMiss h', alike.fault_eq]

end Reading

end InternumCore
