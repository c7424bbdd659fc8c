import Mathlib.Data.List.Forall2

/-!
# JSON pointers

The pointers of RFC 6901 over any kind of document.  A pointer is written as its
reference tokens, each after a slash, where `~0` stands for a tilde and `~1` for a
slash (`Reference`, `Pointer`).  A token names a member of an object or, if it is
zero or decimal digits without a leading zero, an element of an array
(`arrayIndex`), and `evaluate` follows the tokens through a document.

Every token can be written (`reference_escape`), a pointer has one meaning only
(`pointer_rightUnique`), and splitting at the slashes finds it (`pointer_cons_iff`).
-/

namespace JsonPointer

/-! ## Syntax -/

/-- A written token and the token it stands for. -/
inductive Reference : List Char → List Char → Prop where
  | nil : Reference [] []
  | unescaped {c : Char} {written token : List Char} : c ≠ '/' → c ≠ '~' →
      Reference written token → Reference (c :: written) (c :: token)
  | tilde {written token : List Char} :
      Reference written token → Reference ('~' :: '0' :: written) ('~' :: token)
  | slash {written token : List Char} :
      Reference written token → Reference ('~' :: '1' :: written) ('/' :: token)

/-- A written pointer and the tokens it stands for. -/
inductive Pointer : List Char → List (List Char) → Prop where
  | nil : Pointer [] []
  | cons {written token pointer : List Char} {tokens : List (List Char)} :
      Reference written token → Pointer pointer tokens →
      Pointer ('/' :: (written ++ pointer)) (token :: tokens)

/-- A token as it is written. -/
def escape : List Char → List Char
  | [] => []
  | c :: token =>
    if c = '~' then '~' :: '0' :: escape token
    else if c = '/' then '~' :: '1' :: escape token
    else c :: escape token

theorem reference_escape (token : List Char) : Reference (escape token) token := by
  induction token with
  | nil => exact .nil
  | cons c token ih =>
    unfold escape
    by_cases htilde : c = '~'
    · subst htilde
      exact .tilde ih
    · rw [if_neg htilde]
      by_cases hslash : c = '/'
      · subst hslash
        exact .slash ih
      · rw [if_neg hslash]
        exact .unescaped hslash htilde ih

/-- A token without tildes and slashes is written as it is. -/
theorem reference_self {token : List Char} (h : ∀ c ∈ token, c ≠ '/' ∧ c ≠ '~') :
    Reference token token := by
  induction token with
  | nil => exact .nil
  | cons c token ih =>
    obtain ⟨⟨hslash, htilde⟩, hrest⟩ := List.forall_mem_cons.mp h
    exact .unescaped hslash htilde (ih hrest)

theorem Reference.slash_not_mem {written token : List Char} (h : Reference written token) :
    '/' ∉ written := by
  induction h with
  | nil => simp
  | unescaped hslash _ _ ih => simp [Ne.symm hslash, ih]
  | tilde _ ih => simp [ih]
  | slash _ ih => simp [ih]

theorem slash_not_mem_of_references {written tokens : List (List Char)}
    (h : List.Forall₂ Reference written tokens) : ∀ w ∈ written, '/' ∉ w := by
  induction h with
  | nil => simp
  | cons hr _ ih => exact List.forall_mem_cons.mpr ⟨hr.slash_not_mem, ih⟩

/-- A written token stands for one token only. -/
theorem reference_rightUnique : Relator.RightUnique Reference := by
  intro written token token' h h'
  induction h generalizing token' with
  | nil =>
    cases h'
    rfl
  | unescaped _ htilde _ ih =>
    cases h' with
    | unescaped _ _ h' => rw [ih h']
    | tilde h' => exact absurd rfl htilde
    | slash h' => exact absurd rfl htilde
  | tilde _ ih =>
    cases h' with
    | unescaped _ htilde _ => exact absurd rfl htilde
    | tilde h' => rw [ih h']
  | slash _ ih =>
    cases h' with
    | unescaped _ htilde _ => exact absurd rfl htilde
    | slash h' => rw [ih h']

/-- A pointer is a list of written tokens, each after a slash. -/
theorem pointer_iff {pointer : List Char} {tokens : List (List Char)} :
    Pointer pointer tokens ↔ ∃ written, List.Forall₂ Reference written tokens ∧
      pointer = written.flatMap ('/' :: ·) := by
  constructor
  · intro h
    induction h with
    | nil => exact ⟨[], .nil, rfl⟩
    | @cons w t pointer tokens hr _ ih =>
      obtain ⟨written, hrefs, rfl⟩ := ih
      exact ⟨w :: written, .cons hr hrefs, rfl⟩
  · intro h
    obtain ⟨written, hrefs, rfl⟩ := h
    induction hrefs with
    | nil => exact .nil
    | cons hr _ ih => exact .cons hr ih

theorem flatMap_slash (w : List Char) (written : List (List Char)) :
    (w :: written).flatMap ('/' :: ·) = '/' :: ['/'].intercalate (w :: written) := by
  induction written generalizing w with
  | nil => simp
  | cons w' written ih =>
    rw [List.flatMap_cons, ih, List.intercalate_cons_cons]
    simp

/-- **Reading a pointer.**  After the first slash the tokens are found by splitting
at the others. -/
theorem pointer_cons_iff {pointer : List Char} {tokens : List (List Char)} :
    Pointer ('/' :: pointer) tokens ↔ List.Forall₂ Reference (pointer.splitOn '/') tokens := by
  rw [pointer_iff]
  constructor
  · intro h
    obtain ⟨written, hrefs, hp⟩ := h
    cases written with
    | nil => cases hp
    | cons w written =>
      rw [flatMap_slash, List.cons.injEq] at hp
      obtain ⟨-, rfl⟩ := hp
      rwa [List.splitOn_intercalate '/' ?_ (List.cons_ne_nil w written)]
      exact slash_not_mem_of_references hrefs
  · intro h
    refine ⟨pointer.splitOn '/', h, ?_⟩
    obtain ⟨w, written, hw⟩ := List.exists_cons_of_ne_nil (List.splitOn_ne_nil '/' pointer)
    rw [hw, flatMap_slash, ← hw, List.intercalate_splitOn]

/-- A pointer has one meaning only. -/
theorem pointer_rightUnique : Relator.RightUnique Pointer := by
  intro pointer tokens tokens' h h'
  cases pointer with
  | nil =>
    cases h
    cases h'
    rfl
  | cons c pointer =>
    obtain rfl : c = '/' := by
      cases h
      rfl
    exact List.right_unique_forall₂' reference_rightUnique (pointer_cons_iff.mp h)
      (pointer_cons_iff.mp h')

/-! ## Evaluation -/

/-- Zero, or decimal digits without a leading zero. -/
def IsIndex (token : List Char) : Prop :=
  token = ['0'] ∨ token ≠ [] ∧ token.head? ≠ some '0' ∧ token.all Char.isDigit = true

instance (token : List Char) : Decidable (IsIndex token) :=
  inferInstanceAs (Decidable (_ ∨ _))

/-- The number of the element that a token names. -/
def arrayIndex (token : List Char) : Option Nat :=
  if IsIndex token then some (Nat.ofDigitChars 10 token 0) else none

/-- What a document is to a pointer. -/
inductive View (δ : Type*) where
  | object (member : List Char → Option δ)
  | array (elements : List δ)
  | scalar

section Evaluate

variable {δ : Type*} (view : δ → View δ)

/-- The value a token leads to. -/
def step (document : δ) (token : List Char) : Option δ :=
  match view document with
  | .object member => member token
  | .array elements => (arrayIndex token).bind fun i => elements[i]?
  | .scalar => none

/-- The value that the tokens of a pointer lead to. -/
def evaluate (document : δ) : List (List Char) → Option δ
  | [] => some document
  | token :: tokens => (step view document token).bind fun next => evaluate next tokens

end Evaluate

theorem IsIndex.all_isDigit {token : List Char} (h : IsIndex token) :
    ∀ c ∈ token, c.isDigit = true := by
  rcases h with rfl | ⟨-, -, h⟩
  · exact List.forall_mem_singleton.mpr rfl
  · exact List.all_eq_true.mp h

theorem IsIndex.ne_nil {token : List Char} (h : IsIndex token) : token ≠ [] := by
  rcases h with rfl | ⟨h, -, -⟩
  · decide
  · exact h

theorem head?_toDigits {n : Nat} (h : n ≠ 0) : (Nat.toDigits 10 n).head? ≠ some '0' := by
  induction n using Nat.strongRecOn with
  | ind n ih =>
    rw [Nat.toDigits_eq_if (by decide)]
    split
    · simpa using h
    · next hge =>
      rw [List.head?_append_of_ne_nil _ Nat.toDigits_ne_nil]
      exact ih (n / 10) (by omega) (by omega)

/-- A number in decimal is an index. -/
theorem isIndex_toDigits (n : Nat) : IsIndex (Nat.toDigits 10 n) := by
  by_cases hn : n = 0
  · subst hn
    exact Or.inl rfl
  · refine Or.inr ⟨Nat.toDigits_ne_nil, head?_toDigits hn, List.all_eq_true.mpr ?_⟩
    exact fun c hc => Nat.isDigit_of_mem_toDigits (by decide) (by decide) hc

end JsonPointer
