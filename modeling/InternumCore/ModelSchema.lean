import Mathlib.Data.List.Sort
import Mathlib.Data.String.Basic
import InternumCore.Json

/-!
# The schema sent to the model

A provider in strict mode takes a schema only if every object in it is closed: it
admits no other properties than it declares and requires them all.
`normalizeForModel` rewrites the caller's schema to that form, and makes every
property nullable in turn, so that the model can leave one open.

The rewriting treats a node in one of three ways (`Branch`) and goes on to the
properties of an object, to the items of an array, or to the options of a
composition, but never to two of these.  So it does not come to every node
(`modelNode_nodeAt`), and `closed_everywhere_iff` says which schemas are closed
all the same.
-/

namespace InternumCore

/-! ## The rewriting -/

/-- `sorted(properties.keys())`. -/
def sortedNames (properties : List (String × Json)) : List String :=
  (Dict.keys properties).insertionSort (· ≤ ·)

/-- `_with_null`. -/
def withNull (schemaType : Json) : Json :=
  match schemaType with
  | .arr names => if .str "null" ∈ names then schemaType else .arr (names ++ [.str "null"])
  | _ => if schemaType = .str "null" then schemaType else .arr [schemaType, .str "null"]

/-- The ways in which `_normalize_node` treats a schema. -/
inductive Branch where
  | object
  | array
  | other
  deriving DecidableEq

def branchOf (fields : List (String × Json)) : Branch :=
  if fields.lookup "type" = some (.str "object") ∨ (fields.lookup "properties").isSome then .object
  else if fields.lookup "type" = some (.str "array") then .array
  else .other

/-- The keywords that compose a schema of options. -/
inductive Composition where
  | anyOf
  | oneOf
  | allOf
  deriving DecidableEq

def Composition.name : Composition → String
  | .anyOf => "anyOf"
  | .oneOf => "oneOf"
  | .allOf => "allOf"

/-- The compositions in the order in which they are rewritten. -/
def compositions : List Composition := [.anyOf, .oneOf, .allOf]

/-- What `_normalize_node` sets on an object with these properties. -/
def closeObject (makeNullable : Bool) (properties fields : List (String × Json)) :
    List (String × Json) :=
  let fields := Dict.set fields "type"
    (if makeNullable then withNull (.str "object") else .str "object")
  let fields := Dict.set fields "additionalProperties" (.bool false)
  Dict.set fields "required" (.arr ((sortedNames properties).map .str))

/-- `_normalize_node`. -/
def modelNode (makeNullable : Bool) (node : Json) : Json :=
  match node with
  | .obj fields =>
    match branchOf fields with
    | .object =>
      match _hp : fields.lookup "properties" with
      | some (.obj properties) =>
        .obj (Dict.set (closeObject makeNullable properties fields) "properties"
          (.obj (properties.attach.map fun p => (p.1.1, modelNode true p.1.2))))
      | _ => node
    | .array =>
      let fields' := if makeNullable then Dict.set fields "type" (withNull (.str "array")) else fields
      match _hi : fields.lookup "items" with
      | some items => .obj (Dict.set fields' "items" (modelNode false items))
      | none => .obj fields'
    | .other =>
      let fields' := compositions.foldl (fun fields' keyword =>
        match _hk : fields.lookup keyword.name with
        | some (.arr options) =>
          Dict.set fields' keyword.name
            (.arr (options.attach.map fun option => modelNode false option.1))
        | _ => fields') fields
      match fields.lookup "type" with
      | some schemaType =>
        .obj (if makeNullable then Dict.set fields' "type" (withNull schemaType) else fields')
      | none => .obj fields'
  | _ => node
termination_by sizeOf node
decreasing_by
  · exact (Json.sizeOf_field_lt p.2).trans (Json.sizeOf_lookup_lt _hp)
  · exact Json.sizeOf_lookup_lt _hi
  · exact (Json.sizeOf_item_lt option.2).trans (Json.sizeOf_lookup_lt _hk)

/-- `normalize_for_model`. -/
def normalizeForModel (schema : Json) : Json := modelNode false schema

/-! ## One node

What a keyword of a schema is after the rewriting. -/

/-- The options of a composition, rewritten; anything else stays. -/
def mapOptions (f : Json → Json) : Json → Json
  | .arr options => .arr (options.map f)
  | v => v

/-- The value of a keyword after the rewriting. -/
def keywordAfter (makeNullable : Bool) (fields : List (String × Json)) (name : String) :
    Option Json :=
  match branchOf fields with
  | .object =>
    match fields.lookup "properties" with
    | some (.obj properties) =>
      if name = "properties" then
        some (.obj (properties.map fun p => (p.1, modelNode true p.2)))
      else (closeObject makeNullable properties fields).lookup name
    | _ => fields.lookup name
  | .array =>
    if name = "items" then (fields.lookup "items").map (modelNode false)
    else if name = "type" ∧ makeNullable = true then some (withNull (.str "array"))
    else fields.lookup name
  | .other =>
    if name = "type" ∧ makeNullable = true then (fields.lookup "type").map withNull
    else if name ∈ compositions.map Composition.name then
      (fields.lookup name).map (mapOptions (modelNode false))
    else fields.lookup name

section Node

variable {makeNullable : Bool} {fields : List (String × Json)}

theorem modelNode_not_object {node : Json} (h : ∀ fields, node ≠ .obj fields) :
    modelNode makeNullable node = node := by
  cases node with
  | obj fields => exact absurd rfl (h fields)
  | _ => rw [modelNode.eq_def]

/-- One turn of the loop over the compositions. -/
def setOptions (f : Json → Json) (fields d : List (String × Json)) (keyword : Composition) :
    List (String × Json) :=
  match fields.lookup keyword.name with
  | some (.arr options) => Dict.set d keyword.name (.arr (options.map f))
  | _ => d

theorem lookup_setOptions {f : Json → Json} (keyword : Composition) (d : List (String × Json))
    (name : String) :
    (setOptions f fields d keyword).lookup name =
      match fields.lookup name with
      | some (.arr options) =>
        if name = keyword.name then some (.arr (options.map f)) else d.lookup name
      | _ => d.lookup name := by
  unfold setOptions
  by_cases hname : name = keyword.name
  · subst hname
    split
    · simp
    · rfl
  · simp only [if_neg hname]
    have hsame : (match fields.lookup name with
        | some (.arr _) => d.lookup name
        | _ => d.lookup name) = d.lookup name := by
      split <;> rfl
    rw [hsame]
    split
    · rw [Dict.lookup_set, if_neg hname]
    · rfl

/-- The loop over the compositions rewrites each of them. -/
theorem lookup_foldl_setOptions {f : Json → Json} (keywords : List Composition)
    (d : List (String × Json)) (name : String) :
    (keywords.foldl (setOptions f fields) d).lookup name =
      match fields.lookup name with
      | some (.arr options) =>
        if name ∈ keywords.map Composition.name then some (.arr (options.map f)) else d.lookup name
      | _ => d.lookup name := by
  induction keywords generalizing d with
  | nil =>
    split <;> rfl
  | cons keyword keywords ih =>
    rw [List.foldl_cons, ih, lookup_setOptions, List.map_cons]
    cases fields.lookup name with
    | none => rfl
    | some v =>
      cases v with
      | arr options => by_cases hname : name = keyword.name <;> simp [hname]
      | _ => rfl

theorem nodup_foldl_setOptions {f : Json → Json} (keywords : List Composition)
    {d : List (String × Json)} (h : (Dict.keys d).Nodup) :
    (Dict.keys (keywords.foldl (setOptions f fields) d)).Nodup := by
  induction keywords generalizing d with
  | nil => exact h
  | cons keyword keywords ih =>
    refine ih ?_
    unfold setOptions
    split
    · exact Dict.nodup_keys_set h _ _
    · exact h

/-- `modelNode` on an object, one step unfolded. -/
theorem modelNode_eq (makeNullable : Bool) (fields : List (String × Json)) :
    modelNode makeNullable (.obj fields) =
      match branchOf fields with
      | .object =>
        match fields.lookup "properties" with
        | some (.obj properties) =>
          .obj (Dict.set (closeObject makeNullable properties fields) "properties"
            (.obj (properties.map fun p => (p.1, modelNode true p.2))))
        | _ => .obj fields
      | .array =>
        let fields' := if makeNullable then Dict.set fields "type" (withNull (.str "array")) else fields
        match fields.lookup "items" with
        | some items => .obj (Dict.set fields' "items" (modelNode false items))
        | none => .obj fields'
      | .other =>
        let fields' := compositions.foldl (setOptions (modelNode false) fields) fields
        match fields.lookup "type" with
        | some schemaType =>
          .obj (if makeNullable then Dict.set fields' "type" (withNull schemaType) else fields')
        | none => .obj fields' := by
  rw [modelNode.eq_def]
  dsimp only
  cases branchOf fields with
  | object =>
    dsimp only
    split
    · next properties hp =>
      rw [hp, List.attach_map_val (f := fun p : String × Json => (p.1, modelNode true p.2))]
    · next hno =>
      split
      · next properties hp => exact absurd hp (hno properties)
      · rfl
  | array =>
    dsimp only
    split
    · next items hi => rw [hi]
    · next hi => rw [hi]
  | other =>
    -- the loop over the compositions, without the proofs that its recursion ends by
    have hloop : (fun (d : List (String × Json)) (keyword : Composition) =>
        match _hk : fields.lookup keyword.name with
        | some (.arr options) =>
          Dict.set d keyword.name
            (.arr (options.attach.map fun option => modelNode false option.1))
        | _ => d) = setOptions (modelNode false) fields := by
      funext d keyword
      unfold setOptions
      split
      · next options hk =>
        rw [hk, List.attach_map_val]
      · next hno =>
        split
        · next options hk => exact absurd hk (hno options)
        · rfl
    dsimp only
    rw [hloop]

/-- What the rewriting makes of one schema, keyword by keyword. -/
theorem modelNode_spec (makeNullable : Bool) (fields : List (String × Json)) :
    ∃ fields', modelNode makeNullable (.obj fields) = .obj fields' ∧
      ((Dict.keys fields).Nodup → (Dict.keys fields').Nodup) ∧
      ∀ name, fields'.lookup name = keywordAfter makeNullable fields name := by
  rw [modelNode_eq]
  unfold keywordAfter
  cases hbranch : branchOf fields with
  | object =>
    dsimp only
    split
    · next properties hp =>
      refine ⟨_, rfl, fun h => ?_, fun name => Dict.lookup_set ..⟩
      exact Dict.nodup_keys_set (Dict.nodup_keys_set (Dict.nodup_keys_set
        (Dict.nodup_keys_set h _ _) _ _) _ _) _ _
    · exact ⟨fields, rfl, id, fun name => rfl⟩
  | array =>
    dsimp only
    have hset : ∀ name, (if makeNullable = true then Dict.set fields "type" (withNull (.str "array"))
        else fields).lookup name = if name = "type" ∧ makeNullable = true then
          some (withNull (.str "array")) else fields.lookup name := by
      intro name
      cases makeNullable <;> simp [Dict.lookup_set]
    have hnodup : (Dict.keys fields).Nodup → (Dict.keys (if makeNullable = true then
        Dict.set fields "type" (withNull (.str "array")) else fields)).Nodup := by
      intro h
      cases makeNullable
      · exact h
      · exact Dict.nodup_keys_set h _ _
    split
    · next items hi =>
      refine ⟨_, rfl, fun h => Dict.nodup_keys_set (hnodup h) _ _, fun name => ?_⟩
      rw [Dict.lookup_set, hset, hi]
      rfl
    · next hi =>
      refine ⟨_, rfl, hnodup, fun name => ?_⟩
      rw [hset, hi]
      by_cases hname : name = "items"
      · subst hname
        simp [hi]
      · rw [if_neg hname]
  | other =>
    -- every option is read from `fields`, whatever the loop has set before
    obtain ⟨composed, hcomposed⟩ : ∃ composed,
      composed = compositions.foldl (setOptions (modelNode false) fields) fields := ⟨_, rfl⟩
    have hlookup : ∀ name, composed.lookup name =
        if name ∈ compositions.map Composition.name then
          (fields.lookup name).map (mapOptions (modelNode false))
        else fields.lookup name := by
      intro name
      rw [hcomposed, lookup_foldl_setOptions]
      cases fields.lookup name with
      | none => simp
      | some v =>
        cases v with
        | arr options => rfl
        | _ => simp [mapOptions]
    have hnodup : (Dict.keys fields).Nodup → (Dict.keys composed).Nodup := by
      intro h
      rw [hcomposed]
      exact nodup_foldl_setOptions compositions h
    dsimp only
    rw [← hcomposed]
    split
    · next schemaType ht =>
      refine ⟨_, rfl, fun h => ?_, fun name => ?_⟩
      · cases makeNullable
        · exact hnodup h
        · exact Dict.nodup_keys_set (hnodup h) _ _
      · cases makeNullable
        · simp [hlookup]
        · simp [Dict.lookup_set, hlookup, ht]
    · next ht =>
      refine ⟨composed, rfl, hnodup, fun name => ?_⟩
      rw [hlookup]
      by_cases hname : name = "type"
      · subst hname
        simp [ht]
      · simp [hname]

theorem get?_modelNode (name : String) :
    (modelNode makeNullable (.obj fields)).get? name = keywordAfter makeNullable fields name := by
  obtain ⟨fields', heq, -, hlookup⟩ := modelNode_spec makeNullable fields
  rw [heq]
  exact hlookup name

end Node

/-! ## Where the rewriting goes -/

/-- A step from a schema to one that it holds. -/
inductive SchemaStep where
  | property (name : String)
  | items
  | option (keyword : Composition) (index : Nat)
  deriving DecidableEq

def child (node : Json) : SchemaStep → Option Json
  | .property name =>
    match node.get? "properties" with
    | some (.obj properties) => properties.lookup name
    | _ => none
  | .items => node.get? "items"
  | .option keyword index =>
    match node.get? keyword.name with
    | some (.arr options) => options[index]?
    | _ => none

/-- The schema at the end of a path. -/
def nodeAt (node : Json) : List SchemaStep → Option Json
  | [] => some node
  | step :: path => (child node step).bind fun next => nodeAt next path

/-- Whether the rewriting takes this step from a schema, and then whether it makes
nullable what it comes to. -/
def follows (node : Json) (step : SchemaStep) : Option Bool :=
  match node with
  | .obj fields =>
    match branchOf fields, step with
    | .object, .property _ => some true
    | .array, .items => some false
    | .other, .option _ _ => some false
    | _, _ => none
  | _ => none

/-- Whether the rewriting comes to the end of a path. -/
def reaches (makeNullable : Bool) (node : Json) : List SchemaStep → Option Bool
  | [] => some makeNullable
  | step :: path =>
    (follows node step).bind fun makeNullable' =>
      (child node step).bind fun next => reaches makeNullable' next path

section Paths

variable {makeNullable : Bool}

theorem branchOf_eq_object_of_properties {fields : List (String × Json)} {v : Json}
    (h : fields.lookup "properties" = some v) : branchOf fields = .object := by
  simp [branchOf, h]

theorem properties_eq_none {fields : List (String × Json)} (h : branchOf fields ≠ .object) :
    fields.lookup "properties" = none := by
  cases hp : fields.lookup "properties" with
  | none => rfl
  | some v => exact absurd (branchOf_eq_object_of_properties hp) h

theorem type_of_array {fields : List (String × Json)} (h : branchOf fields = .array) :
    fields.lookup "type" = some (.str "array") := by
  unfold branchOf at h
  split at h
  · cases h
  · split at h
    · assumption
    · cases h

/-- Away from the steps it takes the rewriting changes nothing below a schema. -/
theorem child_modelNode (node : Json) (step : SchemaStep) :
    child (modelNode makeNullable node) step =
      match follows node step with
      | some makeNullable' => (child node step).map (modelNode makeNullable')
      | none => child node step := by
  cases node with
  | obj fields =>
    unfold child follows
    simp only [get?_modelNode, Json.get?_obj]
    unfold keywordAfter
    cases hbranch : branchOf fields with
    | object =>
      cases fields.lookup "properties" with
      | none =>
        cases step with
        | property name => simp
        | items => simp
        | option keyword index => cases keyword <;> simp
      | some v =>
        cases v with
        | obj properties =>
          cases step with
          | property name => simp [Dict.lookup_map_values]
          | items => simp [closeObject, Dict.lookup_set]
          | option keyword index =>
            cases keyword <;> simp [closeObject, Dict.lookup_set, Composition.name]
        | _ =>
          cases step with
          | property name => simp
          | items => simp
          | option keyword index => cases keyword <;> simp
    -- a schema with `properties` takes the branch of objects: here there are none
    | array =>
      have hnone := @properties_eq_none fields (by simp [hbranch])
      cases step with
      | property name => simp [hnone]
      | items => simp
      | option keyword index => cases keyword <;> simp [Composition.name]
    | other =>
      have hnone := @properties_eq_none fields (by simp [hbranch])
      cases step with
      | property name => simp [hnone, compositions, Composition.name]
      | items => simp [compositions, Composition.name]
      | option keyword index =>
        have hne : keyword.name ≠ "type" := by cases keyword <;> decide
        have hmem : keyword.name ∈ compositions.map Composition.name := by cases keyword <;> decide
        simp only [hne, false_and, if_false, if_pos hmem]
        cases fields.lookup keyword.name with
        | none => simp
        | some v => cases v <;> simp [mapOptions]
  | _ =>
    rw [modelNode_not_object (by simp)]
    rfl

/-- **What stands where after the rewriting**: the schema that stood there, rewritten
where the rewriting comes and as it was elsewhere. -/
theorem nodeAt_modelNode (node : Json) (path : List SchemaStep) :
    nodeAt (modelNode makeNullable node) path =
      match reaches makeNullable node path with
      | some makeNullable' => (nodeAt node path).map (modelNode makeNullable')
      | none => nodeAt node path := by
  induction path generalizing makeNullable node with
  | nil => rfl
  | cons step path ih =>
    rw [nodeAt, child_modelNode, reaches, nodeAt]
    cases follows node step with
    | none => rfl
    | some makeNullable' =>
      cases child node step with
      | none => rfl
      | some next => exact ih next

end Paths

/-! ## Closed objects -/

/-- A schema that declares properties admits no others and requires them all. -/
def Closed (node : Json) : Prop :=
  ∀ properties, node.get? "properties" = some (.obj properties) →
    node.get? "additionalProperties" = some (.bool false) ∧
      ∃ names : List String, node.get? "required" = some (.arr (names.map .str)) ∧
        names.Pairwise (· ≤ ·) ∧ names.Perm (Dict.keys properties)

theorem sortedNames_sorted (properties : List (String × Json)) :
    (sortedNames properties).Pairwise (· ≤ ·) :=
  List.pairwise_insertionSort _ _

theorem sortedNames_perm (properties : List (String × Json)) :
    (sortedNames properties).Perm (Dict.keys properties) :=
  List.perm_insertionSort _ _

/-- The rewriting declares the properties that were declared. -/
theorem declares_modelNode_iff {makeNullable : Bool} {node : Json}
    {properties' : List (String × Json)} :
    (modelNode makeNullable node).get? "properties" = some (.obj properties') ↔
      ∃ properties, node.get? "properties" = some (.obj properties) ∧
        properties' = properties.map fun p => (p.1, modelNode true p.2) := by
  cases node with
  | obj fields =>
    rw [get?_modelNode, Json.get?_obj]
    unfold keywordAfter
    cases hp : fields.lookup "properties" with
    | none =>
      cases branchOf fields <;> simp [compositions, Composition.name]
    | some v =>
      rw [branchOf_eq_object_of_properties hp]
      cases v <;> simp [eq_comm]
  | _ =>
    rw [modelNode_not_object (by simp)]
    simp [Json.get?]

/-- Whatever the rewriting comes to is closed. -/
theorem closed_modelNode (makeNullable : Bool) (node : Json) :
    Closed (modelNode makeNullable node) := by
  intro properties' hp'
  obtain ⟨properties, hp, rfl⟩ := declares_modelNode_iff.mp hp'
  cases node with
  | obj fields =>
    have hp : fields.lookup "properties" = some (.obj properties) := hp
    have hkeys : Dict.keys (properties.map fun p => (p.1, modelNode true p.2)) =
        Dict.keys properties := by
      simp [Dict.keys, Function.comp_def]
    rw [get?_modelNode, get?_modelNode, hkeys]
    unfold keywordAfter
    rw [branchOf_eq_object_of_properties hp, hp]
    refine ⟨by simp [closeObject, Dict.lookup_set], sortedNames properties, by simp [closeObject],
      sortedNames_sorted properties, sortedNames_perm properties⟩
  | _ => cases hp

/-- **The schema is closed everywhere exactly when** every schema in it that
declares properties is closed as it stands or is one that the rewriting comes to. -/
theorem closed_everywhere_iff (schema : Json) :
    (∀ path node, nodeAt (normalizeForModel schema) path = some node → Closed node) ↔
      ∀ path node, nodeAt schema path = some node →
        (reaches false schema path).isSome = true ∨ Closed node := by
  constructor
  · intro h path node hn
    cases hr : reaches false schema path with
    | some makeNullable => exact Or.inl rfl
    | none =>
      refine Or.inr (h path node ?_)
      rw [normalizeForModel, nodeAt_modelNode, hr]
      exact hn
  · intro h path node hn
    rw [normalizeForModel, nodeAt_modelNode] at hn
    cases hr : reaches false schema path with
    | some makeNullable =>
      rw [hr] at hn
      obtain ⟨before, -, rfl⟩ := Option.map_eq_some_iff.mp hn
      exact closed_modelNode makeNullable before
    | none =>
      rw [hr] at hn
      refine (h path node hn).resolve_left ?_
      simp [hr]

/-- A schema whose rows are objects or missing. -/
def nullableRows : Json :=
  .obj [("type", .str "object"), ("properties", .obj [("rows", .obj
    [("type", .arr [.str "array", .str "null"]), ("items", .obj
      [("type", .str "object"), ("properties", .obj [("a", .obj [("type", .str "string")])])])])])]

/-- The rewriting does not come to the items of an array that may be null. -/
theorem nullable_rows_open :
    ¬∀ path node, nodeAt (normalizeForModel nullableRows) path = some node → Closed node := by
  intro h
  have hat : nodeAt (normalizeForModel nullableRows) [.property "rows", .items] =
      some (.obj [("type", .str "object"), ("properties", .obj
        [("a", .obj [("type", .str "string")])])]) := by
    decide +kernel
  have hclosed := (h _ _ hat _ rfl).1
  cases hclosed

end InternumCore
