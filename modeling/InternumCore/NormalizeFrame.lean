import InternumCore.NormalizeAccepts
import InternumCore.PointerResolution

/-!
# What normalizing may change

The rewriting of values keeps the tree of a value: the kinds at all places, the keys of
the objects with their order, the lengths of the arrays and every leaf that is no
string (`Alike`).  A string becomes another only where the schema, followed along
the path of the string, has a hint (`normalization_frame`).
-/

namespace InternumCore

/-- The schema for the value at the end of a path. -/
def schemaAt (schema : Json) : List PathStep → Option Json
  | [] => some schema
  | .key name :: path =>
    match schema.get? "properties" with
    | some (.obj properties) => (properties.lookup name).bind fun sub => schemaAt sub path
    | _ => none
  | .index _ :: path => (schema.get? "items").bind fun sub => schemaAt sub path

/-- A hint that asks for something. -/
def EffectiveHint (hint : Json) : Prop := hint = .str "digits" ∨ hint = .str "collapse-whitespace"

/-- The schema asks for its strings to be rewritten. -/
def Hinted (schema : Json) : Prop :=
  schema.get? "format" = some (.str "date") ∨
    ∃ hints, schema.get? "x-normalize" = some hints ∧
      (EffectiveHint hints ∨ ∃ list, hints = .arr list ∧ ∃ hint ∈ list, EffectiveHint hint)

/-- Two values that agree but for what is in them, and for a string that may differ. -/
inductive Alike (mayDiffer : Prop) : Json → Json → Prop where
  | null : Alike mayDiffer .null .null
  | bool (b : Bool) : Alike mayDiffer (.bool b) (.bool b)
  | int (n : Int) : Alike mayDiffer (.int n) (.int n)
  | float (x : PyFloat) : Alike mayDiffer (.float x) (.float x)
  | str {s s' : String} : (s ≠ s' → mayDiffer) → Alike mayDiffer (.str s) (.str s')
  | arr {items items' : List Json} :
      items.length = items'.length → Alike mayDiffer (.arr items) (.arr items')
  | obj {entries entries' : List (String × Json)} :
      Dict.keys entries = Dict.keys entries' → Alike mayDiffer (.obj entries) (.obj entries')

theorem Alike.refl (mayDiffer : Prop) (v : Json) : Alike mayDiffer v v := by
  cases v with
  | null => exact .null
  | bool b => exact .bool b
  | int n => exact .int n
  | float x => exact .float x
  | str s => exact .str fun h => absurd rfl h
  | arr items => exact .arr rfl
  | obj entries => exact .obj rfl

/-! ## Strings -/

/-- A hint that asks for nothing does nothing. -/
theorem applyHint_eq_self {hint : Json} (h : ¬EffectiveHint hint) (value : String) :
    applyHint value hint = value := by
  rw [EffectiveHint, not_or] at h
  rw [applyHint, if_neg h.1, if_neg h.2]

/-- Without a hint a string stays. -/
theorem normalizeLeaf_eq_self {fields : List (String × Json)} (h : ¬Hinted (.obj fields))
    (value : String) : normalizeLeaf value fields = value := by
  rw [Hinted, not_or] at h
  obtain ⟨hdate, hhints⟩ := h
  have hnone (hints : Json) (hh : fields.lookup "x-normalize" = some hints) :
      ¬(EffectiveHint hints ∨ ∃ list, hints = .arr list ∧ ∃ hint ∈ list, EffectiveHint hint) :=
    fun he => hhints ⟨hints, hh, he⟩
  rw [Json.get?_obj] at hdate
  unfold normalizeLeaf
  dsimp only
  rw [if_neg hdate]
  split
  · next hint hh => exact applyHint_eq_self (fun he => hnone _ hh (Or.inl he)) value
  · next hints hh =>
    have hall : ∀ hint ∈ hints, ¬EffectiveHint hint :=
      fun hint hm he => hnone _ hh (Or.inr ⟨hints, rfl, hint, hm, he⟩)
    clear hh
    induction hints with
    | nil => rfl
    | cons hint hints ih =>
      obtain ⟨hhint, hrest⟩ := List.forall_mem_cons.mp hall
      rw [List.foldl_cons, applyHint_eq_self hhint]
      exact ih hrest
  · rfl

/-! ## Values -/

/-- One node: the tree stays, and a string changes by a hint only. -/
theorem alike_normalizeNode (v schema : Json) :
    Alike (Hinted schema) v (normalizeNode v schema) := by
  cases schema with
  | obj fields =>
    rw [normalizeNode_eq]
    cases v with
    | obj entries =>
      dsimp only
      split
      · exact .obj (Dict.keys_modifyEach ..).symm
      · exact .refl _ _
    | arr items =>
      dsimp only
      split
      · exact .arr (List.length_map ..).symm
      · exact .refl _ _
    | str s =>
      refine .str fun hne => ?_
      by_contra hno
      exact hne (normalizeLeaf_eq_self hno s).symm
    | _ => exact .refl _ _
  | _ =>
    rw [normalizeNode_not_object (by simp)]
    exact .refl _ _

theorem Alike.mono {p q : Prop} (h : p → q) {v v' : Json} (hs : Alike p v v') :
    Alike q v v' := by
  cases hs with
  | null => exact .null
  | bool b => exact .bool b
  | int n => exact .int n
  | float x => exact .float x
  | str hne => exact .str fun hd => h (hne hd)
  | arr hlen => exact .arr hlen
  | obj hkeys => exact .obj hkeys

/-- The values at one place before and after the rewriting. -/
def SamePlace (schema : Json) (path : List PathStep) (before after : Option Json) : Prop :=
  Option.Rel (Alike (∃ node, schemaAt schema path = some node ∧ Hinted node)) before after

theorem SamePlace.refl (schema : Json) (path : List PathStep) (v : Option Json) :
    SamePlace schema path v v := by
  cases v with
  | none => exact .none
  | some v => exact .some (.refl _ v)

section Frame

variable {fields : List (String × Json)} {path : List PathStep}

/-- What holds below the properties holds below an object. -/
theorem samePlace_key (hwf : Json.wellFormed (.obj fields) = true)
    (hbelow : ∀ sub v, sub.wellFormed = true →
      SamePlace sub path (valueAt v path) (valueAt (normalizeNode v sub) path))
    (name : String) (entries : List (String × Json)) :
    SamePlace (.obj fields) (.key name :: path) (valueAt (.obj entries) (.key name :: path))
      (valueAt (normalizeNode (.obj entries) (.obj fields)) (.key name :: path)) := by
  rw [normalizeNode_eq]
  dsimp only
  split
  · next properties hp =>
    have hwfp := (Json.wellFormed_obj_iff.mp hwf).2 _ _ (Dict.mem_of_lookup hp)
    obtain ⟨hnodup, hsubs⟩ := Json.wellFormed_obj_iff.mp hwfp
    have hschema : schemaAt (.obj fields) (.key name :: path) =
        (properties.lookup name).bind fun sub => schemaAt sub path := by
      rw [schemaAt, Json.get?_obj, hp]
    unfold SamePlace
    rw [hschema, valueAt, valueAt]
    cases hsub : properties.lookup name with
    | none =>
      rw [Dict.lookup_modifyEach_of_not_mem (Dict.lookup_eq_none_iff.mp hsub)]
      cases (entries.lookup name).bind fun v => valueAt v path with
      | none => exact .none
      | some v => exact .some (.refl _ v)
    | some sub =>
      have hm := Dict.mem_of_lookup hsub
      rw [Dict.lookup_modifyEach hnodup hm]
      cases entries.lookup name with
      | none => exact .none
      | some w => exact hbelow sub w (hsubs _ _ hm)
  · exact .refl ..

/-- What holds below the items holds below an array. -/
theorem samePlace_index (hwf : Json.wellFormed (.obj fields) = true)
    (hbelow : ∀ sub v, sub.wellFormed = true →
      SamePlace sub path (valueAt v path) (valueAt (normalizeNode v sub) path))
    (i : Nat) (items : List Json) :
    SamePlace (.obj fields) (.index i :: path) (valueAt (.arr items) (.index i :: path))
      (valueAt (normalizeNode (.arr items) (.obj fields)) (.index i :: path)) := by
  rw [normalizeNode_eq]
  dsimp only
  split
  · next sub hi =>
    have hwfs := (Json.wellFormed_obj_iff.mp hwf).2 _ _ (Dict.mem_of_lookup hi)
    have hschema : schemaAt (.obj fields) (.index i :: path) = schemaAt (.obj sub) path := by
      rw [schemaAt, Json.get?_obj, hi]
      rfl
    unfold SamePlace
    rw [hschema, valueAt, valueAt]
    rw [List.getElem?_map]
    cases items[i]? with
    | none => exact .none
    | some w => exact hbelow (.obj sub) w hwfs
  · exact .refl ..

end Frame

/-- **Normalizing touches hinted strings only.**  At every place the value is what it
was, or a string where the schema for that place has a hint. -/
theorem normalization_frame (v : Json) (schema : JsonValue) (path : List PathStep) :
    SamePlace schema.1 path (valueAt v path) (valueAt (normalizeValues v schema.1) path) := by
  obtain ⟨schema, hwf⟩ := schema
  show SamePlace schema path (valueAt v path) (valueAt (normalizeNode v schema) path)
  -- along the path, since the rewriting goes down the value and the schema together
  induction path generalizing v schema with
  | nil => exact .some ((alike_normalizeNode v schema).mono fun h => ⟨schema, rfl, h⟩)
  | cons step path ih =>
    have hbelow : ∀ sub w, Json.wellFormed sub = true →
        SamePlace sub path (valueAt w path) (valueAt (normalizeNode w sub) path) :=
      fun sub w hsub => ih w sub hsub
    cases schema with
    | obj fields =>
      cases v with
      | obj entries =>
        cases step with
        | key name => exact samePlace_key hwf hbelow name entries
        | index i =>
          rw [normalizeNode_eq]
          dsimp only
          split <;> exact .none
      | arr items =>
        cases step with
        | index i => exact samePlace_index hwf hbelow i items
        | key name =>
          rw [normalizeNode_eq]
          dsimp only
          split <;> exact .none
      | str s =>
        rw [normalizeNode_eq]
        cases step <;> exact .none
      | _ =>
        rw [normalizeNode_eq]
        exact .refl ..
    | _ =>
      rw [normalizeNode_not_object (by simp)]
      exact .refl ..

end InternumCore
