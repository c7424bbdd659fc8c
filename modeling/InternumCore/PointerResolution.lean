import Mathlib.Algebra.Ring.Nat
import InternumCore.JsonPointer
import InternumCore.PostChecks

/-!
# Following a pointer

`_resolve_pointer` against the pointers of RFC 6901.  A pointer of the standard is
followed token by token (`resolvePointer_of_pointer`), and every place in a document
has one (`pointer_resolves`).  But the code also takes for pointers what are none: it
passes over a tilde that escapes nothing, and an index may be spelled in every way
that `int` accepts.  `standard_resolution_iff` says which strings are resolved as the
standard resolves them or not at all.
-/

namespace InternumCore
open JsonPointer

/-! ## The tokens of a pointer -/

theorem replaceEscape_cons_ne {digit by_ c : Char} (h : c ≠ '~') (chars : List Char) :
    replaceEscape digit by_ (c :: chars) = c :: replaceEscape digit by_ chars := by
  rw [replaceEscape]
  rintro c' chars' rfl
  exact absurd rfl h

theorem replaceEscape_escape (digit by_ : Char) (chars : List Char) :
    replaceEscape digit by_ ('~' :: digit :: chars) = by_ :: replaceEscape digit by_ chars := by
  rw [replaceEscape, if_pos rfl]

theorem replaceEscape_other {digit by_ c : Char} (hd : c ≠ digit) (hc : c ≠ '~')
    (chars : List Char) :
    replaceEscape digit by_ ('~' :: c :: chars) = '~' :: c :: replaceEscape digit by_ chars := by
  rw [replaceEscape, if_neg hd, replaceEscape_cons_ne hc]

/-- The two replacements in this order undo the escapes: the tildes that the second
makes are not read again. -/
theorem unescapeToken_of_reference {written token : List Char} (h : Reference written token) :
    unescapeToken written = String.ofList token := by
  have hchars : replaceEscape '0' '~' (replaceEscape '1' '/' written) = token := by
    induction h with
    | nil => rfl
    | unescaped _ htilde _ ih =>
      rw [replaceEscape_cons_ne htilde, replaceEscape_cons_ne htilde, ih]
    | tilde _ ih =>
      rw [replaceEscape_other (by decide) (by decide), replaceEscape_escape, ih]
    | slash _ ih =>
      rw [replaceEscape_escape, replaceEscape_cons_ne (by decide), ih]
  exact congrArg String.ofList hchars

/-- After a leading slash the tokens are followed. -/
theorem resolvePointer_cons (lib : Libraries) (doc : Json) (rest : List Char) :
    resolvePointer lib doc (.str (String.ofList ('/' :: rest))) =
      resolveTokens lib (String.ofList ('/' :: rest)) doc
        ((rest.splitOn '/').map unescapeToken) := by
  have hne : String.ofList ('/' :: rest) ≠ "" := by
    intro h
    have hchars := congrArg String.toList h
    rw [String.toList_ofList] at hchars
    cases hchars
  have hslash : startsWith (String.ofList ('/' :: rest)) "/" = true := by
    rw [startsWith_slash_iff, String.toList_ofList]
    rfl
  have hsplit : ('/' :: rest).splitOn '/' = [] :: rest.splitOn '/' :=
    List.splitOn_append_cons_self_of_not_mem (List.not_mem_nil) rest
  unfold resolvePointer
  dsimp only
  rw [if_neg hne, hslash, String.toList_ofList, hsplit]
  rfl

/-- **A pointer is followed token by token.** -/
theorem resolvePointer_of_pointer {lib : Libraries} {doc : Json} {pointer : String}
    {tokens : List (List Char)} (h : Pointer pointer.toList tokens) :
    resolvePointer lib doc (.str pointer) =
      resolveTokens lib pointer doc (tokens.map String.ofList) := by
  obtain ⟨chars, rfl⟩ : ∃ chars, pointer = String.ofList chars :=
    ⟨pointer.toList, String.ofList_toList.symm⟩
  rw [String.toList_ofList] at h
  cases chars with
  | nil =>
    cases h
    rfl
  | cons c rest =>
    obtain rfl : c = '/' := by
      cases h
      rfl
    have hunescaped (written tokens : List (List Char))
        (hrefs : List.Forall₂ Reference written tokens) :
        written.map unescapeToken = tokens.map String.ofList := by
      induction hrefs with
      | nil => rfl
      | cons hr _ ih => rw [List.map_cons, List.map_cons, unescapeToken_of_reference hr, ih]
    rw [resolvePointer_cons, hunescaped _ _ (pointer_cons_iff.mp h)]

/-! ## Indices -/

section Digits

/-- Digits alone are a literal. -/
theorem literalDigits_digits {chars : List Char} (h : ∀ c ∈ chars, c.isDigit = true)
    {afterDigit : Bool} (hne : chars ≠ [] ∨ afterDigit = true) :
    literalDigits afterDigit chars = some chars := by
  induction chars generalizing afterDigit with
  | nil =>
    rw [literalDigits, if_pos (hne.resolve_left (fun h => h rfl))]
  | cons c chars ih =>
    obtain ⟨hc, hrest⟩ := List.forall_mem_cons.mp h
    have hunderscore : c ≠ '_' := by
      rintro rfl
      cases hc
    rw [literalDigits, if_neg hunderscore, if_pos (isDigit_ascii hc), ih hrest (Or.inr rfl)]
    rfl

/-- What `int` makes of an index. -/
theorem pyInt_of_isIndex {token : List Char} (h : IsIndex token) :
    pyInt (String.ofList token) =
      if token.length ≤ 4300 then some (Nat.ofDigitChars 10 token 0 : Int) else none := by
  have hdigits := h.all_isDigit
  have hspace : ∀ c ∈ token, isIntSpace c = false := by
    intro c hc
    cases h : isIntSpace c with
    | false => rfl
    | true => exact (isSpace_of_isIntSpace h).symm.trans (isSpace_ascii (hdigits c hc))
  have hstrip : stripChars isIntSpace (String.ofList token).toList = token := by
    rw [String.toList_ofList, stripChars_eq_self hspace]
  have hminus : '-' ∉ token := fun hm => by cases hdigits '-' hm
  have hplus : '+' ∉ token := fun hm => by cases hdigits '+' hm
  unfold pyInt
  rw [hstrip]
  split
  next negative literal hsign =>
    split at hsign
    · exact absurd List.mem_cons_self hminus
    · exact absurd List.mem_cons_self hplus
    · cases hsign
      rw [literalDigits_digits hdigits (Or.inl h.ne_nil)]
      simp [intOfDigits_ascii hdigits]

end Digits

/-! ## One token -/

/-- A document as the standard sees it. -/
def Json.view : Json → View Json
  | .obj fields => .object fun token => fields.lookup (String.ofList token)
  | .arr items => .array items
  | _ => .scalar

/-- What a token, its escapes undone, leads to: the value of a key, or the element
whose number the token is in any spelling that `int` accepts. -/
def Enters (doc : Json) (token : String) (v : Json) : Prop :=
  match doc with
  | .obj fields => fields.lookup token = some v
  | .arr items => ∃ i : Nat, pyInt token = some (i : Int) ∧ items[i]? = some v
  | _ => False

section Tokens

variable {lib : Libraries} {pointer : String}

theorem resolveToken_ok_iff {doc v : Json} {token : String} :
    resolveToken lib pointer doc token = .ok v ↔ Enters doc token v := by
  unfold resolveToken Enters
  cases doc with
  | obj fields =>
    dsimp only
    cases fields.lookup token <;> simp
  | arr items =>
    dsimp only
    cases pyInt token with
    | none => simp
    | some position =>
      dsimp only
      -- `int` reads signs, and a negative position is refused
      by_cases hneg : position < 0
      · rw [if_pos hneg]
        refine iff_of_false (by simp) fun h => ?_
        obtain ⟨i, hi, -⟩ := h
        rw [Option.some.inj hi] at hneg
        omega
      · rw [if_neg hneg]
        obtain ⟨i, rfl⟩ := Int.eq_ofNat_of_zero_le (Int.not_lt.mp hneg)
        have hplace : (∃ j : Nat, some (i : Int) = some (j : Int) ∧ items[j]? = some v) ↔
            items[i]? = some v := by
          constructor
          · intro h
            obtain ⟨j, hj, hv⟩ := h
            obtain rfl : i = j := Int.ofNat.inj (Option.some.inj hj)
            exact hv
          · exact fun hv => ⟨i, rfl, hv⟩
        rw [Int.toNat_natCast, hplace]
        cases items[i]? <;> simp
  | _ => simp

/-- The tokens are followed one by one. -/
theorem resolveTokens_cons_ok_iff {doc v : Json} {token : String} {tokens : List String} :
    resolveTokens lib pointer doc (token :: tokens) = .ok v ↔
      ∃ next, Enters doc token next ∧ resolveTokens lib pointer next tokens = .ok v := by
  rw [resolveTokens]
  cases hr : resolveToken lib pointer doc token with
  | error fault =>
    refine iff_of_false (fun h => (by cases h)) fun h => ?_
    obtain ⟨next, he, -⟩ := h
    rw [resolveToken_ok_iff.mpr he] at hr
    cases hr
  | ok next =>
    have hnext := resolveToken_ok_iff.mp hr
    constructor
    · exact fun h => ⟨next, hnext, h⟩
    · intro h
      obtain ⟨next', he, htokens⟩ := h
      rw [resolveToken_ok_iff.mpr he] at hr
      cases hr
      exact htokens

end Tokens

/-! ## Every place has a pointer -/

/-- A step from a value into it. -/
inductive PathStep where
  | key (name : String)
  | index (i : Nat)

/-- The value at the end of a path. -/
def valueAt (doc : Json) : List PathStep → Option Json
  | [] => some doc
  | .key name :: path =>
    match doc with
    | .obj fields => (fields.lookup name).bind fun v => valueAt v path
    | _ => none
  | .index i :: path =>
    match doc with
    | .arr items => (items[i]?).bind fun v => valueAt v path
    | _ => none

/-- A step as it stands in a pointer. -/
def PathStep.written : PathStep → List Char
  | .key name => escape name.toList
  | .index i => Nat.toDigits 10 i

/-- The pointer of a path. -/
def pointerTo (path : List PathStep) : String :=
  String.ofList (path.flatMap fun step => '/' :: step.written)

/-- `sys.maxsize`, the length no list exceeds. -/
def maxListLength : Nat := 2 ^ 63 - 1

/-- Every list in the document is one that Python can hold. -/
def ListsFit (doc : Json) : Prop :=
  ∀ path items, valueAt doc path = some (.arr items) → items.length ≤ maxListLength

/-- The token of a step. -/
def PathStep.token : PathStep → List Char
  | .key name => name.toList
  | .index i => Nat.toDigits 10 i

theorem PathStep.reference (step : PathStep) : Reference step.written step.token := by
  cases step with
  | key name => exact reference_escape name.toList
  | index i =>
    refine reference_self fun c hc => ?_
    have hdigit := (isIndex_toDigits i).all_isDigit c hc
    constructor
    · rintro rfl
      cases hdigit
    · rintro rfl
      cases hdigit

/-- The decimal of a place in a list is read as that place. -/
theorem pyInt_toDigits {i : Nat} (h : i < maxListLength) :
    pyInt (String.ofList (Nat.toDigits 10 i)) = some (i : Int) := by
  have hbound : i < 10 ^ 19 := h.trans (by decide)
  have hlen : (Nat.toDigits 10 i).length ≤ 4300 :=
    ((Nat.length_toDigits_le_iff (by decide) (by decide)).mpr hbound).trans (by decide)
  rw [pyInt_of_isIndex (isIndex_toDigits i), if_pos hlen, Nat.ofDigitChars_ten_toDigits]

/-- The tokens of a path lead where the path leads. -/
theorem resolveTokens_path {lib : Libraries} {pointer : String} {path : List PathStep}
    {doc v : Json} (hlists : ListsFit doc) (hv : valueAt doc path = some v) :
    resolveTokens lib pointer doc (path.map fun step => String.ofList step.token) = .ok v := by
  induction path generalizing doc with
  | nil =>
    cases hv
    rfl
  | cons step path ih =>
    rw [List.map_cons, resolveTokens_cons_ok_iff]
    cases step with
    | key name =>
      cases doc with
      | obj fields =>
        obtain ⟨next, hnext, hv⟩ := Option.bind_eq_some_iff.mp hv
        refine ⟨next, ?_, ih (fun path' items h => hlists (.key name :: path') items ?_) hv⟩
        · rw [PathStep.token, String.ofList_toList]
          exact hnext
        · rw [valueAt, hnext]
          exact h
      | _ => cases hv
    | index i =>
      cases doc with
      | arr items =>
        obtain ⟨next, hnext, hv⟩ := Option.bind_eq_some_iff.mp hv
        refine ⟨next, ?_, ih (fun path' items' h => hlists (.index i :: path') items' ?_) hv⟩
        -- `int` reads every index that a list can have
        · have hlt : i < items.length := (List.getElem?_eq_some_iff.mp hnext).1
          have hfit : items.length ≤ maxListLength := hlists [] items rfl
          exact ⟨i, pyInt_toDigits (hlt.trans_le hfit), hnext⟩
        · rw [valueAt, hnext]
          exact h
      | _ => cases hv

/-- **Every place in a document has a pointer**: the steps to it, each after a slash
and with its tildes and slashes escaped. -/
theorem pointer_resolves (lib : Libraries) (doc : Json) (hlists : ListsFit doc)
    (path : List PathStep) (v : Json) (hv : valueAt doc path = some v) :
    resolvePointer lib doc (.str (pointerTo path)) = .ok v ∧
      resolvePointer lib doc (.str "") = .ok doc := by
  have hpointer : Pointer (pointerTo path).toList (path.map PathStep.token) := by
    rw [pointer_iff, pointerTo, String.toList_ofList]
    refine ⟨path.map PathStep.written, ?_, (List.flatMap_map ..).symm⟩
    rw [List.forall₂_map_left_iff, List.forall₂_map_right_iff]
    exact List.forall₂_same.mpr fun step _ => step.reference
  refine ⟨?_, rfl⟩
  rw [resolvePointer_of_pointer hpointer, List.map_map]
  exact resolveTokens_path hlists hv

/-- A list under a name with both of the escaped characters and an escape. -/
def oddlyNamed : Json := .obj [("a/~1~b", .arr [.int 5, .int 7])]

theorem listsFit_oddlyNamed : ListsFit oddlyNamed := by
  have hleaf (n : Int) (path : List PathStep) (items : List Json) :
      valueAt (.int n) path ≠ some (.arr items) := by
    intro h
    rcases path with _ | ⟨step | step, path⟩ <;> cases h
  intro path items h
  rcases path with _ | ⟨name | i, path⟩
  · cases h
  · obtain ⟨next, hnext, h⟩ := Option.bind_eq_some_iff.mp h
    obtain ⟨rfl, -⟩ : next = .arr [.int 5, .int 7] ∧ True := by
      by_cases hname : name = "a/~1~b"
      · subst hname
        exact ⟨(Option.some.inj hnext).symm, trivial⟩
      · rw [Dict.lookup_cons_ne hname] at hnext
        cases hnext
    rcases path with _ | ⟨name | i, path⟩
    · cases h
      decide
    · cases h
    · obtain ⟨element, helement, h⟩ := Option.bind_eq_some_iff.mp h
      have hmem := List.mem_of_getElem? helement
      simp only [List.mem_cons, List.not_mem_nil, or_false] at hmem
      rcases hmem with rfl | rfl
      · exact absurd h (hleaf 5 path items)
      · exact absurd h (hleaf 7 path items)
  · cases h

theorem oddlyNamed_resolves :
    resolvePointer (plainLibraries fun _ => none) oddlyNamed (.str "/a~1~01~0b/1") = .ok (.int 7) ∧
      resolvePointer (plainLibraries fun _ => none) oddlyNamed (.str "") = .ok oddlyNamed :=
  pointer_resolves (plainLibraries fun _ => none) oddlyNamed listsFit_oddlyNamed
    [.key "a/~1~b", .index 1] (.int 7) (by decide +kernel)

/-! ## What resolves and is no pointer -/

/-- The way written tokens take through a document, with the values they are met by. -/
inductive Follows : Json → List (List Char) → List (Json × List Char) → Json → Prop where
  | done {v : Json} : Follows v [] [] v
  | step {doc next v : Json} {written : List Char} {rest : List (List Char)}
      {visits : List (Json × List Char)} :
      Enters doc (unescapeToken written) next → Follows next rest visits v →
      Follows doc (written :: rest) ((doc, written) :: visits) v

/-- The token is written as it must be, and is an index where an array meets it. -/
def Regular (doc : Json) (written : List Char) : Prop :=
  ∃ token, Reference written token ∧ ∀ items, doc = .arr items → IsIndex token

section Standard

variable {lib : Libraries} {pointer : String}

theorem resolveTokens_ok_iff {doc v : Json} {written : List (List Char)} :
    resolveTokens lib pointer doc (written.map unescapeToken) = .ok v ↔
      ∃ visits, Follows doc written visits v := by
  induction written generalizing doc with
  | nil =>
    constructor
    · intro h
      cases h
      exact ⟨[], .done⟩
    · intro h
      obtain ⟨visits, h⟩ := h
      cases h
      rfl
  | cons w written ih =>
    rw [List.map_cons, resolveTokens_cons_ok_iff]
    constructor
    · intro h
      obtain ⟨next, he, h⟩ := h
      obtain ⟨visits, h⟩ := ih.mp h
      exact ⟨(doc, w) :: visits, .step he h⟩
    · intro h
      obtain ⟨visits, h⟩ := h
      cases h with
      | step he h => exact ⟨_, he, ih.mpr ⟨_, h⟩⟩

/-- An index leads where the standard says. -/
theorem step_of_enters {doc next : Json} {token : List Char}
    (he : Enters doc (String.ofList token) next)
    (hindex : ∀ items, doc = .arr items → IsIndex token) :
    step Json.view doc token = some next := by
  cases doc with
  | obj fields => exact he
  | arr items =>
    obtain ⟨i, hi, hnext⟩ := he
    have htoken := hindex items rfl
    rw [pyInt_of_isIndex htoken] at hi
    split at hi
    · have hvalue : Nat.ofDigitChars 10 token 0 = i := Int.ofNat.inj (Option.some.inj hi)
      have harray : arrayIndex token = some i := by
        rw [arrayIndex, if_pos htoken, hvalue]
      show (arrayIndex token).bind (fun i => items[i]?) = some next
      rw [harray]
      exact hnext
    · cases hi
  | _ => cases he

/-- Only an index leads the standard into an array. -/
theorem isIndex_of_step {items : List Json} {next : Json} {token : List Char}
    (h : step Json.view (.arr items) token = some next) : IsIndex token := by
  obtain ⟨i, hi, -⟩ := Option.bind_eq_some_iff.mp h
  rw [arrayIndex] at hi
  split at hi
  · assumption
  · cases hi

/-- **The standard goes the same way** exactly where every token is regular. -/
theorem Follows.standard_iff {doc v : Json} {written : List (List Char)}
    {visits : List (Json × List Char)} (h : Follows doc written visits v) :
    (∃ tokens, List.Forall₂ Reference written tokens ∧ evaluate Json.view doc tokens = some v) ↔
      ∀ visit ∈ visits, Regular visit.1 visit.2 := by
  induction h with
  | done => exact ⟨fun _ _ hm => (by cases hm), fun _ => ⟨[], .nil, rfl⟩⟩
  | @step doc next v w rest visits he _ ih =>
    rw [List.forall_mem_cons, ← ih]
    constructor
    · intro h
      obtain ⟨tokens, hrefs, heval⟩ := h
      cases hrefs with
      | @cons _ token _ tokens hr hrefs =>
        obtain ⟨next', hnext', heval⟩ := Option.bind_eq_some_iff.mp heval
        have hindex : ∀ items, doc = .arr items → IsIndex token := by
          rintro items rfl
          exact isIndex_of_step hnext'
        rw [unescapeToken_of_reference hr] at he
        rw [step_of_enters he hindex] at hnext'
        cases hnext'
        exact ⟨⟨token, hr, hindex⟩, tokens, hrefs, heval⟩
    · intro h
      obtain ⟨⟨token, hr, hindex⟩, tokens, hrefs, heval⟩ := h
      rw [unescapeToken_of_reference hr] at he
      refine ⟨token :: tokens, .cons hr hrefs, ?_⟩
      rw [evaluate, step_of_enters he hindex]
      exact heval

end Standard

/-- Without a leading slash nothing but the empty pointer resolves. -/
theorem head_of_resolvePointer {lib : Libraries} {doc v : Json} {chars : List Char}
    (h : resolvePointer lib doc (.str (String.ofList chars)) = .ok v) (hne : chars ≠ []) :
    chars.head? = some '/' := by
  have hne' : String.ofList chars ≠ "" := by
    intro hempty
    have hchars := congrArg String.toList hempty
    rw [String.toList_ofList] at hchars
    exact hne hchars
  unfold resolvePointer at h
  dsimp only at h
  rw [if_neg hne'] at h
  by_cases hslash : startsWith (String.ofList chars) "/" = true
  · rw [startsWith_slash_iff, String.toList_ofList] at hslash
    exact hslash
  · simp [hslash] at h

/-- **Only pointers of the standard resolve**, and to what the standard says, exactly
when on the way of the pointer through the document no tilde is met that escapes
nothing, and no array with a token that is not an index. -/
theorem standard_resolution_iff (lib : Libraries) (doc : Json) (pointer : String) :
    (∀ v, resolvePointer lib doc (.str pointer) = .ok v →
        ∃ tokens, Pointer pointer.toList tokens ∧ evaluate Json.view doc tokens = some v) ↔
      ∀ rest visits v, pointer.toList = '/' :: rest → Follows doc (rest.splitOn '/') visits v →
        ∀ visit ∈ visits, Regular visit.1 visit.2 := by
  obtain ⟨chars, rfl⟩ : ∃ chars, pointer = String.ofList chars :=
    ⟨pointer.toList, String.ofList_toList.symm⟩
  rw [String.toList_ofList]
  constructor
  · rintro h rest visits v rfl hfollows
    have hresolves : resolvePointer lib doc (.str (String.ofList ('/' :: rest))) = .ok v := by
      rw [resolvePointer_cons]
      exact resolveTokens_ok_iff.mpr ⟨visits, hfollows⟩
    obtain ⟨tokens, hpointer, heval⟩ := h v hresolves
    exact hfollows.standard_iff.mp ⟨tokens, pointer_cons_iff.mp hpointer, heval⟩
  · intro h v hresolves
    cases chars with
    | nil =>
      cases hresolves
      exact ⟨[], .nil, rfl⟩
    | cons c rest =>
      obtain rfl : c = '/' :=
        Option.some.inj (head_of_resolvePointer hresolves (List.cons_ne_nil c rest))
      rw [resolvePointer_cons] at hresolves
      obtain ⟨visits, hfollows⟩ := resolveTokens_ok_iff.mp hresolves
      obtain ⟨tokens, hrefs, heval⟩ :=
        hfollows.standard_iff.mpr (h rest visits v rfl hfollows)
      exact ⟨tokens, pointer_cons_iff.mpr hrefs, heval⟩

/-- The first element of an array, with a sign. -/
theorem signed_index_resolves :
    ¬∀ v, resolvePointer (plainLibraries fun _ => none) (.arr [.int 5]) (.str "/+0") = .ok v →
      ∃ tokens, Pointer "/+0".toList tokens ∧
        evaluate Json.view (.arr [.int 5]) tokens = some v := by
  intro h
  obtain ⟨tokens, hpointer, heval⟩ := h (.int 5) rfl
  have hplain : ∀ c ∈ ['+', '0'], c ≠ '/' ∧ c ≠ '~' :=
    List.forall_mem_cons.mpr ⟨by decide, List.forall_mem_singleton.mpr (by decide)⟩
  have hself : Pointer "/+0".toList [['+', '0']] :=
    pointer_cons_iff.mpr (.cons (reference_self hplain) .nil)
  rw [pointer_rightUnique hpointer hself] at heval
  revert heval
  decide +kernel

end InternumCore
