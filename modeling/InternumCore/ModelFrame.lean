import InternumCore.ModelSchema

/-!
# What preparing a schema may change

The schema sent to the model is the caller's schema with three keywords set here and
there.  `Prepared` says what that leaves alone.  A node keeps its keywords in their
order, and new ones come after them only on a node that declares properties; every
keyword but the three is what it was, save that the schemas under `properties`,
`items` and the compositions may have been prepared in their turn.  Whatever is
reached in another way is a value of some keyword and stays as it is.

The keys of the object under `properties` are names, not keywords: they are all kept,
whatever they are (`prepared_normalizeForModel`).
-/

namespace InternumCore

/-- The keywords that are set. -/
def alteredKeywords : List String := ["type", "additionalProperties", "required"]

mutual

/-- A schema and what may have been made of it. -/
inductive Prepared : Json → Json → Prop where
  | same (v : Json) : Prepared v v
  | node {fields fields' : List (String × Json)} {added : List String}
      (keys : Dict.keys fields' = Dict.keys fields ++ added)
      (altered : ∀ name ∈ added, name ∈ alteredKeywords)
      (object : added ≠ [] → ∃ properties, fields.lookup "properties" = some (.obj properties))
      (kept : ∀ name, name ∉ alteredKeywords →
        KeptKeyword name (fields.lookup name) (fields'.lookup name)) :
      Prepared (.obj fields) (.obj fields')

/-- The value of a keyword and what may have been made of it. -/
inductive KeptKeyword : String → Option Json → Option Json → Prop where
  | same (name : String) (v : Option Json) : KeptKeyword name v v
  | properties {properties properties' : List (String × Json)}
      (keys : Dict.keys properties' = Dict.keys properties)
      (each : ∀ name sub sub', properties.lookup name = some sub →
        properties'.lookup name = some sub' → Prepared sub sub') :
      KeptKeyword "properties" (some (.obj properties)) (some (.obj properties'))
  | items {v v' : Json} (sub : Prepared v v') : KeptKeyword "items" (some v) (some v')
  | options (keyword : Composition) {options options' : List Json}
      (length : options.length = options'.length)
      (each : ∀ (i : Nat) (v v' : Json), options[i]? = some v → options'[i]? = some v' → Prepared v v') :
      KeptKeyword keyword.name (some (.arr options)) (some (.arr options'))

end

/-! ## The keys of a node -/

section Keys

variable {makeNullable : Bool} {fields : List (String × Json)}

theorem keys_set_of_lookup {d : List (String × Json)} {name : String} {v : Json}
    (h : d.lookup name = some v) (w : Json) : Dict.keys (Dict.set d name w) = Dict.keys d :=
  Dict.keys_set_of_mem (Dict.mem_keys_of_lookup h) w

/-- Setting a keyword adds at most that keyword, at the end. -/
theorem exists_keys_set (d : List (String × Json)) (name : String) (v : Json) :
    ∃ added, Dict.keys (Dict.set d name v) = Dict.keys d ++ added ∧ ∀ k ∈ added, k = name := by
  by_cases h : name ∈ Dict.keys d
  · exact ⟨[], by rw [Dict.keys_set_of_mem h, List.append_nil], by simp⟩
  · exact ⟨[name], Dict.keys_set_of_not_mem h v, by simp⟩

theorem exists_keys_closeObject (makeNullable : Bool) (properties fields : List (String × Json)) :
    ∃ added, Dict.keys (closeObject makeNullable properties fields) = Dict.keys fields ++ added ∧
      ∀ name ∈ added, name ∈ alteredKeywords := by
  unfold closeObject
  dsimp only
  obtain ⟨a, ha, hatype⟩ := exists_keys_set fields "type"
    (if makeNullable then withNull (.str "object") else .str "object")
  obtain ⟨b, hb, hbname⟩ := exists_keys_set (Dict.set fields "type"
    (if makeNullable then withNull (.str "object") else .str "object")) "additionalProperties"
    (.bool false)
  obtain ⟨c, hc, hcname⟩ := exists_keys_set (Dict.set (Dict.set fields "type"
    (if makeNullable then withNull (.str "object") else .str "object")) "additionalProperties"
    (.bool false)) "required" (.arr ((sortedNames properties).map .str))
  refine ⟨a ++ (b ++ c), by rw [hc, hb, ha, List.append_assoc, List.append_assoc], fun name hm => ?_⟩
  rcases List.mem_append.mp hm with hm | hm
  · rw [hatype name hm]
    decide
  · rcases List.mem_append.mp hm with hm | hm
    · rw [hbname name hm]
      decide
    · rw [hcname name hm]
      decide

theorem keys_foldl_setOptions {f : Json → Json} (keywords : List Composition)
    {d : List (String × Json)} (h : Dict.keys d = Dict.keys fields) :
    Dict.keys (keywords.foldl (setOptions f fields) d) = Dict.keys fields := by
  induction keywords generalizing d with
  | nil => exact h
  | cons keyword keywords ih =>
    refine ih ?_
    unfold setOptions
    split
    · next options hk =>
      have hm : keyword.name ∈ Dict.keys d := h ▸ Dict.mem_keys_of_lookup hk
      exact (Dict.keys_set_of_mem hm _).trans h
    · exact h

/-- **The keywords of a node** stay in their order, and only a node that declares
properties gets others. -/
theorem keys_modelNode (makeNullable : Bool) (fields : List (String × Json)) :
    ∃ fields' added, modelNode makeNullable (.obj fields) = .obj fields' ∧
      Dict.keys fields' = Dict.keys fields ++ added ∧
      (∀ name ∈ added, name ∈ alteredKeywords) ∧
      (added ≠ [] → ∃ properties, fields.lookup "properties" = some (.obj properties)) := by
  have hnothing : ([] : List String) ≠ [] →
      ∃ properties, fields.lookup "properties" = some (.obj properties) := fun h => absurd rfl h
  rw [modelNode_eq]
  cases hbranch : branchOf fields with
  | object =>
    dsimp only
    split
    · next properties hp =>
      obtain ⟨added, hkeys, haltered⟩ := exists_keys_closeObject makeNullable properties fields
      have hm : "properties" ∈ Dict.keys (closeObject makeNullable properties fields) := by
        rw [hkeys]
        exact List.mem_append_left _ (Dict.mem_keys_of_lookup hp)
      exact ⟨_, added, rfl, (Dict.keys_set_of_mem hm _).trans hkeys, haltered, fun _ => ⟨properties, hp⟩⟩
    · exact ⟨fields, [], rfl, (List.append_nil _).symm, by simp, hnothing⟩
  -- `type` and `items` are there already, and setting them adds no key
  | array =>
    have htype := type_of_array hbranch
    have hkeys : Dict.keys (if makeNullable = true then Dict.set fields "type"
        (withNull (.str "array")) else fields) = Dict.keys fields := by
      cases makeNullable
      · rfl
      · exact keys_set_of_lookup htype _
    dsimp only
    split
    · next items hi =>
      have hm : "items" ∈ Dict.keys (if makeNullable = true then Dict.set fields "type"
          (withNull (.str "array")) else fields) := hkeys ▸ Dict.mem_keys_of_lookup hi
      refine ⟨_, [], rfl, ?_, by simp, hnothing⟩
      rw [Dict.keys_set_of_mem hm, hkeys, List.append_nil]
    · exact ⟨_, [], rfl, by rw [hkeys, List.append_nil], by simp, hnothing⟩
  | other =>
    have hkeys := keys_foldl_setOptions (f := modelNode false) compositions (@rfl _ (Dict.keys fields))
    dsimp only
    split
    · next schemaType ht =>
      refine ⟨_, [], rfl, ?_, by simp, hnothing⟩
      cases makeNullable
      · rw [if_neg Bool.false_ne_true, hkeys, List.append_nil]
      · rw [if_pos rfl, Dict.keys_set_of_mem (hkeys ▸ Dict.mem_keys_of_lookup ht), hkeys,
          List.append_nil]
    · exact ⟨_, [], rfl, by rw [hkeys, List.append_nil], by simp, hnothing⟩

end Keys

/-! ## The whole schema -/

/-- Whatever comes next to a value is prepared: the value itself, or the schemas in it. -/
structure PreparedNext (v : Json) : Prop where
  self : ∀ makeNullable, Prepared v (modelNode makeNullable v)
  properties : ∀ properties, v = .obj properties → ∀ name sub, (name, sub) ∈ properties →
    ∀ makeNullable, Prepared sub (modelNode makeNullable sub)
  options : ∀ options, v = .arr options → ∀ option ∈ options,
    ∀ makeNullable, Prepared option (modelNode makeNullable option)

section Kept

variable {makeNullable : Bool} {fields : List (String × Json)}

/-- Closing an object sets the altered keywords and no others. -/
theorem lookup_closeObject_of_not_mem {properties : List (String × Json)} {name : String}
    (hname : name ∉ alteredKeywords) :
    (closeObject makeNullable properties fields).lookup name = fields.lookup name := by
  have hne (keyword : String) (hkeyword : keyword ∈ alteredKeywords) : name ≠ keyword := by
    rintro rfl
    exact hname hkeyword
  unfold closeObject
  dsimp only
  rw [Dict.lookup_set_ne (hne "required" (by decide)),
    Dict.lookup_set_ne (hne "additionalProperties" (by decide)),
    Dict.lookup_set_ne (hne "type" (by decide))]

/-- A keyword that is not set keeps its value, but for the schemas that are prepared in it. -/
theorem keptKeyword_after (hsub : ∀ name v, fields.lookup name = some v → PreparedNext v)
    {name : String} (hname : name ∉ alteredKeywords) :
    KeptKeyword name (fields.lookup name) (keywordAfter makeNullable fields name) := by
  have htype : name ≠ "type" := by
    rintro rfl
    exact hname (by decide)
  unfold keywordAfter
  cases branchOf fields with
  | object =>
    dsimp only
    split
    · next properties hp =>
      by_cases hproperties : name = "properties"
      · subst hproperties
        rw [if_pos rfl, hp]
        refine .properties ?_ fun name sub sub' hs hs' => ?_
        · simp [Dict.keys, Function.comp_def]
        · rw [Dict.lookup_map_values, hs] at hs'
          cases hs'
          exact (hsub _ _ hp).properties properties rfl name sub (Dict.mem_of_lookup hs) true
      · rw [if_neg hproperties, lookup_closeObject_of_not_mem hname]
        exact .same name _
    · exact .same name _
  | array =>
    dsimp only
    by_cases hitems : name = "items"
    · subst hitems
      rw [if_pos rfl]
      cases hi : fields.lookup "items" with
      | none => exact .same _ _
      | some v => exact .items ((hsub _ _ hi).self false)
    · rw [if_neg hitems, if_neg fun h => htype h.1]
      exact .same name _
  -- the options of a composition are prepared in place, one by one
  | other =>
    dsimp only
    rw [if_neg fun h => htype h.1]
    by_cases hcomposition : name ∈ compositions.map Composition.name
    · rw [if_pos hcomposition]
      obtain ⟨keyword, -, rfl⟩ := List.mem_map.mp hcomposition
      cases hk : fields.lookup keyword.name with
      | none => exact .same _ _
      | some v =>
        cases v with
        | arr options =>
          refine .options keyword (List.length_map _).symm fun i v v' hv hv' => ?_
          rw [List.getElem?_map, hv] at hv'
          cases hv'
          exact (hsub _ _ hk).options options rfl v (List.mem_of_getElem? hv) false
        | _ => exact .same _ _
    · rw [if_neg hcomposition]
      exact .same name _

end Kept

theorem preparedNext (node : Json) : PreparedNext node := by
  induction node using Json.treeInduction with
  | obj fields ih =>
    refine ⟨fun makeNullable => ?_, ?_, fun options h => (by cases h)⟩
    · obtain ⟨fields', added, heq, hkeys, haltered, hobject⟩ := keys_modelNode makeNullable fields
      obtain ⟨fields'', heq', -, hlookup⟩ := modelNode_spec makeNullable fields
      obtain rfl : fields' = fields'' := Json.obj.inj (heq.symm.trans heq')
      rw [heq]
      refine .node hkeys haltered hobject fun name hname => ?_
      rw [hlookup]
      exact keptKeyword_after (fun name v hv => ih name v (Dict.mem_of_lookup hv)) hname
    · rintro properties ⟨⟩ name sub hm
      exact (ih name sub hm).self
  | arr items ih =>
    refine ⟨fun makeNullable => ?_, fun properties h => (by cases h), ?_⟩
    · rw [modelNode_not_object (by simp)]
      exact .same _
    · rintro options ⟨⟩ option hm
      exact (ih option hm).self
  | _ =>
    refine ⟨fun makeNullable => ?_, fun properties h => (by cases h), fun options h => (by cases h)⟩
    rw [modelNode_not_object (by simp)]
    exact .same _

/-- **Preparing a schema alters three keywords**, on nodes that are reached through
`properties`, `items` and the compositions, and nothing else. -/
theorem prepared_normalizeForModel (schema : Json) : Prepared schema (normalizeForModel schema) :=
  (preparedNext schema).self false

end InternumCore
