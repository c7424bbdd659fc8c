import Mathlib.Data.Rat.Defs
import InternumCore.Dict

/-!
# JSON values as Python holds them

`json.loads` turns a JSON text into `None`, `bool`, `int`, `float`, `str`,
`list` and `dict`; `Json` has one constructor for each.  A `dict` is an
insertion-ordered association list (`Dict`), an `int` is unbounded, and a
`float` is a double: an exact rational, one of two zeros that are told apart when
they are printed, an infinity, or not-a-number.

`Json` alone admits an object that lists a key twice, which no `dict` does.
`Json.wellFormed` excludes it, together with not-a-number, and `JsonValue` is
the type of the values that pass: what a caller sends and what a model answers.

Two equalities are compared throughout the program, and they differ on
booleans only: Python's `==`, for which `True == 1`, and the equality of JSON
Schema, for which they are distinct.  `Json.eqv` is both.
-/

namespace InternumCore

/-- A Python `float`. -/
inductive PyFloat where
  | finite (q : ℚ)
  /-- `-0.0`; the other zero is `finite 0`. -/
  | negZero
  | infinite (negative : Bool)
  | nan
  deriving DecidableEq

/-- What a float is compared by: both zeros are the number zero. -/
def PyFloat.value : PyFloat → PyFloat
  | .negZero => .finite 0
  | x => x

/-- A value read by `json.loads`. -/
inductive Json where
  | null
  | bool (b : Bool)
  | int (n : Int)
  | float (x : PyFloat)
  | str (s : String)
  | arr (items : List Json)
  | obj (fields : List (String × Json))

namespace Json

/-! ## Decidable equality of trees -/

mutual

/-- Literal equality of two trees, key order included. -/
def beq : Json → Json → Bool
  | .null, .null => true
  | .bool a, .bool b => a == b
  | .int a, .int b => a == b
  | .float a, .float b => a == b
  | .str a, .str b => a == b
  | .arr xs, .arr ys => beqItems xs ys
  | .obj fs, .obj gs => beqFields fs gs
  | _, _ => false

/-- `beq` on the elements of two arrays. -/
def beqItems : List Json → List Json → Bool
  | [], [] => true
  | x :: xs, y :: ys => beq x y && beqItems xs ys
  | _, _ => false

/-- `beq` on the entries of two objects. -/
def beqFields : List (String × Json) → List (String × Json) → Bool
  | [], [] => true
  | (k, x) :: fs, (l, y) :: gs => k == l && beq x y && beqFields fs gs
  | _, _ => false

end

mutual

theorem eq_of_beq : ∀ {a b : Json}, beq a b = true → a = b
  | .null, b, h => by cases b <;> simp_all [beq]
  | .bool _, b, h => by cases b <;> simp_all [beq]
  | .int _, b, h => by cases b <;> simp_all [beq]
  | .float _, b, h => by cases b <;> simp_all [beq]
  | .str _, b, h => by cases b <;> simp_all [beq]
  | .arr xs, b, h => by
      cases b with
      | arr ys =>
        have h' : beqItems xs ys = true := by simpa [beq] using h
        rw [eq_of_beqItems h']
      | _ => simp [beq] at h
  | .obj fs, b, h => by
      cases b with
      | obj gs =>
        have h' : beqFields fs gs = true := by simpa [beq] using h
        rw [eq_of_beqFields h']
      | _ => simp [beq] at h

theorem eq_of_beqItems : ∀ {xs ys : List Json}, beqItems xs ys = true → xs = ys
  | [], ys, h => by cases ys <;> simp_all [beqItems]
  | x :: xs, ys, h => by
      cases ys with
      | nil => simp [beqItems] at h
      | cons y ys =>
        rw [beqItems, Bool.and_eq_true] at h
        rw [eq_of_beq h.1, eq_of_beqItems h.2]

theorem eq_of_beqFields : ∀ {fs gs : List (String × Json)}, beqFields fs gs = true → fs = gs
  | [], gs, h => by cases gs <;> simp_all [beqFields]
  | (k, x) :: fs, gs, h => by
      cases gs with
      | nil => simp [beqFields] at h
      | cons g gs =>
        obtain ⟨l, y⟩ := g
        rw [beqFields, Bool.and_eq_true, Bool.and_eq_true, beq_iff_eq] at h
        rw [h.1.1, eq_of_beq h.1.2, eq_of_beqFields h.2]

end

mutual

theorem beq_self : ∀ a : Json, beq a a = true
  | .null => rfl
  | .bool _ | .int _ | .float _ | .str _ => by simp [beq]
  | .arr xs => by rw [beq]; exact beqItems_self xs
  | .obj fs => by rw [beq]; exact beqFields_self fs

theorem beqItems_self : ∀ xs : List Json, beqItems xs xs = true
  | [] => rfl
  | x :: xs => by rw [beqItems, beq_self x, beqItems_self xs, Bool.and_self]

theorem beqFields_self : ∀ fs : List (String × Json), beqFields fs fs = true
  | [] => rfl
  | (k, x) :: fs => by simp [beqFields, beq_self x, beqFields_self fs]

end

instance : DecidableEq Json := fun a b =>
  decidable_of_iff (beq a b = true) ⟨eq_of_beq, fun h => h ▸ beq_self a⟩

/-! ## Reading an object -/

/-- `value.get(key)` on a `dict`; `none` when the key is missing or the value
is no object. -/
def get? : Json → String → Option Json
  | .obj fields, key => fields.lookup key
  | _, _ => none

@[simp] theorem get?_obj (fields : List (String × Json)) (key : String) :
    (Json.obj fields).get? key = fields.lookup key := rfl

/-- `isinstance(value, dict)`. -/
def isObject : Json → Bool
  | .obj _ => true
  | _ => false

/-- `bool(value)`. -/
def truthy : Json → Bool
  | .null => false
  | .bool b => b
  | .int n => n != 0
  | .float x => x.value != .finite 0
  | .str s => s != ""
  | .arr items => !items.isEmpty
  | .obj fields => !fields.isEmpty

/-! ## Induction over a tree -/

theorem sizeOf_item_lt {items : List Json} {v : Json} (h : v ∈ items) :
    sizeOf v < sizeOf (Json.arr items) := by
  have := List.sizeOf_lt_of_mem h
  simp only [Json.arr.sizeOf_spec]
  omega

theorem sizeOf_field_lt {fields : List (String × Json)} {k : String} {v : Json}
    (h : (k, v) ∈ fields) : sizeOf v < sizeOf (Json.obj fields) := by
  have := List.sizeOf_lt_of_mem h
  simp only [Json.obj.sizeOf_spec, Prod.mk.sizeOf_spec] at *
  omega

theorem sizeOf_lookup_lt {fields : List (String × Json)} {k : String} {v : Json}
    (h : fields.lookup k = some v) : sizeOf v < sizeOf (Json.obj fields) :=
  sizeOf_field_lt (Dict.mem_of_lookup h)

/-- Induction over a value: a container is reached once everything in it is. -/
@[elab_as_elim]
theorem treeInduction {motive : Json → Prop}
    (null : motive .null) (bool : ∀ b, motive (.bool b)) (int : ∀ n, motive (.int n))
    (float : ∀ x, motive (.float x)) (str : ∀ s, motive (.str s))
    (arr : ∀ items, (∀ v ∈ items, motive v) → motive (.arr items))
    (obj : ∀ fields, (∀ k v, (k, v) ∈ fields → motive v) → motive (.obj fields)) :
    ∀ v, motive v
  | .null => null
  | .bool b => bool b
  | .int n => int n
  | .float x => float x
  | .str s => str s
  | .arr items => arr items fun v _hv => treeInduction null bool int float str arr obj v
  | .obj fields => obj fields fun k v _hv => treeInduction null bool int float str arr obj v
termination_by v => sizeOf v
decreasing_by
  · exact sizeOf_item_lt _hv
  · exact sizeOf_field_lt _hv

/-! ## Well-formed values -/

mutual

/-- No object lists a key twice and no number is not-a-number. -/
def wellFormed : Json → Bool
  | .float x => x != .nan
  | .arr items => wellFormedItems items
  | .obj fields => decide (Dict.keys fields).Nodup && wellFormedFields fields
  | _ => true

/-- `wellFormed` of every element. -/
def wellFormedItems : List Json → Bool
  | [] => true
  | v :: items => wellFormed v && wellFormedItems items

/-- `wellFormed` of every entry. -/
def wellFormedFields : List (String × Json) → Bool
  | [] => true
  | (_, v) :: fields => wellFormed v && wellFormedFields fields

end

theorem wellFormedItems_iff {items : List Json} :
    wellFormedItems items = true ↔ ∀ v ∈ items, wellFormed v = true := by
  induction items with
  | nil => simp [wellFormedItems]
  | cons v items ih => simp [wellFormedItems, ih]

theorem wellFormedFields_iff {fields : List (String × Json)} :
    wellFormedFields fields = true ↔ ∀ k v, (k, v) ∈ fields → wellFormed v = true := by
  induction fields with
  | nil => simp [wellFormedFields]
  | cons p fields ih =>
    obtain ⟨k, v⟩ := p
    rw [wellFormedFields, Bool.and_eq_true, ih]
    constructor
    · intro pair l w hm
      obtain ⟨hv, hf⟩ := pair
      rcases List.mem_cons.mp hm with he | hm
      · cases he; exact hv
      · exact hf l w hm
    · intro h
      exact ⟨h k v List.mem_cons_self, fun l w hm => h l w (List.mem_cons_of_mem _ hm)⟩

theorem wellFormed_arr_iff {items : List Json} :
    wellFormed (.arr items) = true ↔ ∀ v ∈ items, wellFormed v = true := by
  rw [wellFormed, wellFormedItems_iff]

theorem wellFormed_obj_iff {fields : List (String × Json)} :
    wellFormed (.obj fields) = true ↔
      (Dict.keys fields).Nodup ∧ ∀ k v, (k, v) ∈ fields → wellFormed v = true := by
  rw [wellFormed, Bool.and_eq_true, decide_eq_true_iff, wellFormedFields_iff]

/-! ## Conditions on every object -/

mutual

/-- No object lists a key twice. -/
def uniqueKeys : Json → Bool
  | .arr items => uniqueKeysItems items
  | .obj fields => decide (Dict.keys fields).Nodup && uniqueKeysFields fields
  | _ => true

/-- `uniqueKeys` of every element. -/
def uniqueKeysItems : List Json → Bool
  | [] => true
  | v :: items => uniqueKeys v && uniqueKeysItems items

/-- `uniqueKeys` of every entry. -/
def uniqueKeysFields : List (String × Json) → Bool
  | [] => true
  | (_, v) :: fields => uniqueKeys v && uniqueKeysFields fields

end

theorem uniqueKeys_arr_iff {items : List Json} :
    uniqueKeys (.arr items) = true ↔ ∀ v ∈ items, uniqueKeys v = true := by
  rw [uniqueKeys]
  induction items with
  | nil => simp [uniqueKeysItems]
  | cons v items ih => simp [uniqueKeysItems, ih]

theorem uniqueKeysFields_iff {fields : List (String × Json)} :
    uniqueKeysFields fields = true ↔ ∀ k v, (k, v) ∈ fields → uniqueKeys v = true := by
  induction fields with
  | nil => simp [uniqueKeysFields]
  | cons p fields ih =>
    obtain ⟨k, v⟩ := p
    rw [uniqueKeysFields, Bool.and_eq_true, ih]
    constructor
    · rintro ⟨hv, hrest⟩ l w hm
      rcases List.mem_cons.mp hm with heq | hm
      · obtain ⟨rfl, rfl⟩ := Prod.mk.inj heq
        exact hv
      · exact hrest l w hm
    · exact fun h => ⟨h k v List.mem_cons_self, fun l w hm => h l w (List.mem_cons_of_mem _ hm)⟩

theorem uniqueKeys_obj_iff {fields : List (String × Json)} :
    uniqueKeys (.obj fields) = true ↔
      (Dict.keys fields).Nodup ∧ ∀ k v, (k, v) ∈ fields → uniqueKeys v = true := by
  rw [uniqueKeys, Bool.and_eq_true, decide_eq_true_iff, uniqueKeysFields_iff]

mutual

/-- `p` holds of the keys of every object in the value. -/
def allKeys (p : String → Bool) : Json → Bool
  | .arr items => allKeysItems p items
  | .obj fields => allKeysFields p fields
  | _ => true

/-- `allKeys` of every element. -/
def allKeysItems (p : String → Bool) : List Json → Bool
  | [] => true
  | v :: items => allKeys p v && allKeysItems p items

/-- `p` of every key and `allKeys` of every entry. -/
def allKeysFields (p : String → Bool) : List (String × Json) → Bool
  | [] => true
  | (k, v) :: fields => p k && allKeys p v && allKeysFields p fields

end

theorem allKeys_obj_iff {p : String → Bool} {fields : List (String × Json)} :
    allKeys p (.obj fields) = true ↔
      ∀ k v, (k, v) ∈ fields → p k = true ∧ allKeys p v = true := by
  rw [allKeys]
  induction fields with
  | nil => simp [allKeysFields]
  | cons q fields ih =>
    obtain ⟨l, w⟩ := q
    simp only [allKeysFields, Bool.and_eq_true, ih, List.mem_cons, Prod.mk.injEq]
    constructor
    · rintro ⟨hl, hf⟩ k v (⟨rfl, rfl⟩ | hm)
      · exact hl
      · exact hf k v hm
    · exact fun h => ⟨h l w (Or.inl ⟨rfl, rfl⟩), fun k v hm => h k v (Or.inr hm)⟩

/-! ## The two equalities -/

/-- What a scalar is compared by. -/
inductive ScalarKey where
  | null
  | bool (b : Bool)
  | number (x : PyFloat)
  | str (s : String)
  deriving DecidableEq

/-- The key of a scalar.  A boolean counts as the integer `0` or `1` under
Python's `==` and as no number under JSON Schema; not-a-number equals nothing
and has no key. -/
def scalarKey (boolIsInt : Bool) : Json → Option ScalarKey
  | .null => some .null
  | .bool b => some (if boolIsInt then .number (.finite (if b then 1 else 0)) else .bool b)
  | .int n => some (.number (.finite n))
  | .float x => if x = .nan then none else some (.number x.value)
  | .str s => some (.str s)
  | .arr _ => none
  | .obj _ => none

/-- Equality of two values that are not both arrays and not both objects. -/
def scalarEqv (boolIsInt : Bool) (a b : Json) : Bool :=
  match a.scalarKey boolIsInt, b.scalarKey boolIsInt with
  | some x, some y => x == y
  | _, _ => false

mutual

/-- Equality up to the order of object keys and the spelling of numbers. -/
def eqv (boolIsInt : Bool) : Json → Json → Bool
  | .arr xs, .arr ys => eqvItems boolIsInt xs ys
  | .obj fs, .obj gs => fs.length == gs.length && eqvFields boolIsInt fs gs
  | a, b => scalarEqv boolIsInt a b

/-- `eqv` on the elements of two arrays. -/
def eqvItems (boolIsInt : Bool) : List Json → List Json → Bool
  | [], [] => true
  | x :: xs, y :: ys => eqv boolIsInt x y && eqvItems boolIsInt xs ys
  | _, _ => false

/-- Every entry of the first object has an equal entry in the second. -/
def eqvFields (boolIsInt : Bool) : List (String × Json) → List (String × Json) → Bool
  | [], _ => true
  | (k, v) :: fs, gs =>
    (match gs.lookup k with
      | some w => eqv boolIsInt v w
      | none => false) && eqvFields boolIsInt fs gs

end

/-- Python's `==`. -/
abbrev pyEq : Json → Json → Bool := eqv true

/-- Equality of JSON Schema instances. -/
abbrev schemaEq : Json → Json → Bool := eqv false

/-! ### Their laws -/

variable {boolIsInt : Bool}

theorem scalarEqv_iff {a b : Json} :
    scalarEqv boolIsInt a b = true ↔
      ∃ x, a.scalarKey boolIsInt = some x ∧ b.scalarKey boolIsInt = some x := by
  unfold scalarEqv
  split
  · next x y hx hy =>
    rw [beq_iff_eq, hx, hy]
    constructor
    · rintro rfl
      exact ⟨x, rfl, rfl⟩
    · intro hr
      obtain ⟨z, hz, hz'⟩ := hr
      exact (Option.some.inj hz).trans (Option.some.inj hz').symm
  · next hno =>
    constructor
    · intro h
      cases h
    · intro hr
      obtain ⟨x, hx, hy⟩ := hr
      exact absurd hy (hno x x hx)

theorem eqvItems_iff {xs ys : List Json} :
    eqvItems boolIsInt xs ys = true ↔ List.Forall₂ (fun a b => eqv boolIsInt a b = true) xs ys := by
  induction xs generalizing ys with
  | nil => cases ys <;> simp [eqvItems]
  | cons x xs ih => cases ys <;> simp [eqvItems, ih]

theorem eqvFields_iff {fs gs : List (String × Json)} :
    eqvFields boolIsInt fs gs = true ↔
      ∀ k v, (k, v) ∈ fs → ∃ w, gs.lookup k = some w ∧ eqv boolIsInt v w = true := by
  induction fs with
  | nil => simp [eqvFields]
  | cons p fs ih =>
    obtain ⟨k, v⟩ := p
    rw [eqvFields, Bool.and_eq_true, ih]
    constructor
    · intro pair l w hm
      obtain ⟨hv, hf⟩ := pair
      rcases List.mem_cons.mp hm with he | hm
      · cases he
        cases hg : gs.lookup k with
        | none => rw [hg] at hv; cases hv
        | some w => rw [hg] at hv; exact ⟨w, rfl, hv⟩
      · exact hf l w hm
    · intro h
      obtain ⟨w, hw, he⟩ := h k v List.mem_cons_self
      exact ⟨by rw [hw]; exact he, fun l w hm => h l w (List.mem_cons_of_mem _ hm)⟩

/-- An array equals arrays only, element by element. -/
theorem eqv_arr_iff {xs : List Json} {b : Json} :
    eqv boolIsInt (.arr xs) b = true ↔
      ∃ ys, b = .arr ys ∧ List.Forall₂ (fun a b => eqv boolIsInt a b = true) xs ys := by
  cases b with
  | arr ys => simp [eqv, eqvItems_iff]
  | _ => simp [eqv, scalarEqv_iff, scalarKey]

/-- An object equals objects only, key by key. -/
theorem eqv_obj_iff {fs : List (String × Json)} {b : Json} :
    eqv boolIsInt (.obj fs) b = true ↔
      ∃ gs, b = .obj gs ∧ fs.length = gs.length ∧
        ∀ k v, (k, v) ∈ fs → ∃ w, gs.lookup k = some w ∧ eqv boolIsInt v w = true := by
  cases b with
  | obj gs => simp [eqv, eqvFields_iff]
  | _ => simp [eqv, scalarEqv_iff, scalarKey]

/-- A value with a key is compared by it. -/
theorem eqv_of_scalarKey {a b : Json} {x : ScalarKey} (ha : a.scalarKey boolIsInt = some x) :
    eqv boolIsInt a b = true ↔ b.scalarKey boolIsInt = some x := by
  have he : eqv boolIsInt a b = scalarEqv boolIsInt a b := by
    cases a with
    | arr xs => cases ha
    | obj fs => cases ha
    | _ => cases b <;> rfl
  rw [he, scalarEqv_iff]
  constructor
  · intro h
    obtain ⟨y, hy, hb⟩ := h
    rw [ha] at hy
    cases hy
    exact hb
  · exact fun hb => ⟨x, ha, hb⟩

/-- A scalar that equals anything has a key. -/
theorem scalarKey_of_eqv {a b : Json} (harr : ∀ xs, a ≠ .arr xs) (hobj : ∀ fs, a ≠ .obj fs)
    (h : eqv boolIsInt a b = true) : ∃ x, a.scalarKey boolIsInt = some x := by
  have he : scalarEqv boolIsInt a b = true := by
    cases a with
    | arr xs => exact absurd rfl (harr xs)
    | obj fs => exact absurd rfl (hobj fs)
    | _ => cases b <;> exact h
  obtain ⟨x, hx, _⟩ := scalarEqv_iff.mp he
  exact ⟨x, hx⟩

/-- The scalar case of a law about `eqv`: only the keys are compared. -/
theorem eqv_scalar_trans {a b c : Json} (harr : ∀ xs, a ≠ .arr xs) (hobj : ∀ fs, a ≠ .obj fs)
    (hab : eqv boolIsInt a b = true) (hbc : eqv boolIsInt b c = true) :
    eqv boolIsInt a c = true := by
  obtain ⟨x, hx⟩ := scalarKey_of_eqv harr hobj hab
  have hb := (eqv_of_scalarKey hx).mp hab
  exact (eqv_of_scalarKey hx).mpr ((eqv_of_scalarKey hb).mp hbc)

theorem eqv_scalar_symm {a b : Json} (harr : ∀ xs, a ≠ .arr xs) (hobj : ∀ fs, a ≠ .obj fs)
    (hab : eqv boolIsInt a b = true) : eqv boolIsInt b a = true := by
  obtain ⟨x, hx⟩ := scalarKey_of_eqv harr hobj hab
  exact (eqv_of_scalarKey ((eqv_of_scalarKey hx).mp hab)).mpr hx

theorem forall₂_trans_of_mem {α : Type*} {R : α → α → Prop} :
    ∀ {xs ys zs : List α}, (∀ x ∈ xs, ∀ y z, R x y → R y z → R x z) →
      List.Forall₂ R xs ys → List.Forall₂ R ys zs → List.Forall₂ R xs zs
  | [], _, _, _, .nil, .nil => .nil
  | x :: _, _, _, h, .cons hxy hxs, .cons hyz hys =>
      .cons (h x List.mem_cons_self _ _ hxy hyz)
        (forall₂_trans_of_mem (fun x' hx' => h x' (List.mem_cons_of_mem _ hx')) hxs hys)

theorem forall₂_symm_of_mem {α : Type*} {R : α → α → Prop} :
    ∀ {xs ys : List α}, (∀ x ∈ xs, ∀ y ∈ ys, R x y → R y x) →
      List.Forall₂ R xs ys → List.Forall₂ R ys xs
  | [], _, _, .nil => .nil
  | x :: _, y :: _, h, .cons hxy hxs =>
      .cons (h x List.mem_cons_self y List.mem_cons_self hxy)
        (forall₂_symm_of_mem
          (fun x' hx' y' hy' => h x' (List.mem_cons_of_mem _ hx') y' (List.mem_cons_of_mem _ hy'))
          hxs)

theorem eqv_trans {a b c : Json} (hab : eqv boolIsInt a b = true)
    (hbc : eqv boolIsInt b c = true) : eqv boolIsInt a c = true := by
  induction a using treeInduction generalizing b c with
  | arr xs ih =>
    obtain ⟨ys, rfl, hxy⟩ := eqv_arr_iff.mp hab
    obtain ⟨zs, rfl, hyz⟩ := eqv_arr_iff.mp hbc
    exact eqv_arr_iff.mpr
      ⟨zs, rfl, forall₂_trans_of_mem (fun x hx y z h₁ h₂ => ih x hx h₁ h₂) hxy hyz⟩
  | obj fs ih =>
    obtain ⟨gs, rfl, hlen, hfg⟩ := eqv_obj_iff.mp hab
    obtain ⟨hs, rfl, hlen', hgh⟩ := eqv_obj_iff.mp hbc
    refine eqv_obj_iff.mpr ⟨hs, rfl, hlen.trans hlen', fun k v hm => ?_⟩
    -- through the entry of the object in the middle
    obtain ⟨w, hw, hvw⟩ := hfg k v hm
    obtain ⟨u, hu, hwu⟩ := hgh k w (Dict.mem_of_lookup hw)
    exact ⟨u, hu, ih k v hm hvw hwu⟩
  | _ => exact eqv_scalar_trans (by simp) (by simp) hab hbc

/-- Equality is symmetric once no object lists a key twice. -/
theorem eqv_symm {a b : Json} (ha : a.wellFormed = true) (hb : b.wellFormed = true)
    (hab : eqv boolIsInt a b = true) : eqv boolIsInt b a = true := by
  induction a using treeInduction generalizing b with
  | arr xs ih =>
    obtain ⟨ys, rfl, hxy⟩ := eqv_arr_iff.mp hab
    rw [wellFormed_arr_iff] at ha hb
    exact eqv_arr_iff.mpr
      ⟨xs, rfl, forall₂_symm_of_mem (fun x hx y hy => ih x hx (ha x hx) (hb y hy)) hxy⟩
  | obj fs ih =>
    obtain ⟨gs, rfl, hlen, hfg⟩ := eqv_obj_iff.mp hab
    rw [wellFormed_obj_iff] at ha hb
    refine eqv_obj_iff.mpr ⟨fs, rfl, hlen.symm, fun k w hm => ?_⟩
    -- as many keys, none twice: no key of `gs` is missing in `fs`
    have hkeys : Dict.keys gs ⊆ Dict.keys fs := by
      refine Dict.keys_subset_of_length ha.1 hlen fun l hl => ?_
      obtain ⟨v, hv⟩ := Dict.exists_lookup hl
      obtain ⟨w, hw, _⟩ := hfg l v (Dict.mem_of_lookup hv)
      exact Dict.mem_keys_of_lookup hw
    obtain ⟨v, hv⟩ := Dict.exists_lookup (hkeys (Dict.mem_keys_of_mem hm))
    have hvm := Dict.mem_of_lookup hv
    obtain ⟨w', hw', hvw⟩ := hfg k v hvm
    rw [Dict.lookup_of_mem hb.1 hm] at hw'
    cases hw'
    exact ⟨v, hv, ih k v hvm (ha.2 k v hvm) (hb.2 k w hm) hvw⟩
  | _ => exact eqv_scalar_symm (by simp) (by simp) hab

end Json

/-- A JSON value proper: what a request carries or a model answers. -/
abbrev JsonValue := { v : Json // v.wellFormed = true }

/-- A value of the JSON parser, which makes dictionaries of objects and reads `NaN` as a
number. -/
abbrev LoadedJson := { v : Json // v.uniqueKeys = true }

/-- On JSON values Python's `==` may be tested on either side of an equality. -/
theorem JsonValue.pyEq_congr_right {a b : JsonValue} (h : Json.pyEq a.1 b.1 = true) (c : JsonValue) :
    Json.pyEq c.1 a.1 = Json.pyEq c.1 b.1 := by
  refine Bool.eq_iff_iff.mpr ⟨fun hc => Json.eqv_trans hc h, fun hc => ?_⟩
  exact Json.eqv_trans hc (Json.eqv_symm a.2 b.2 h)

end InternumCore
