import InternumCore.ModelAccepts

/-!
# Fields the model may leave open

The model is told to answer null for a field it cannot resolve, and the rewritten
schema requires every field.  So each field should admit null.  The rewriting sees
to it by way of `type` alone, and `null_answerable_iff` says for which fields that
is enough (`KeepsNull`): an `enum` has to list null, an object has to declare its
properties, and a composition needs an option that admits null after the rewriting,
which makes no option nullable.

`composedVerdict` is the verdict of the validator with `anyOf` decided as well.
-/

namespace InternumCore
open JsonSchema

/-! ## Compositions -/

section Composed

variable (lib : Library)

/-- `anyOf`. -/
def anyOfVerdict (descend : Json → Json → Verdict) (value inst : Json) : Verdict :=
  match value with
  | .arr options => .ofBool (options.any fun option => descend option inst = .valid)
  | _ => .raised

/-- One keyword of a schema object, `anyOf` among them. -/
def composedKeyword (descend : Json → Json → Verdict) (root : Json)
    (fields : List (String × Json)) (name : String) (value inst : Json) : Verdict :=
  if name = "anyOf" then anyOfVerdict descend value inst
  else keywordVerdict lib descend root fields name value inst

/-- The verdict on a subschema and an instance, with room for `depth` nested
validations. -/
def composedVerdict (root : Json) : Nat → Json → Json → Verdict
  | 0, _, _ => .raised
  | depth + 1, schema, inst =>
    match schema with
    | .bool b => .ofBool b
    | .obj fields =>
      Verdict.first (fields.map fun p =>
        composedKeyword lib (composedVerdict root depth) root fields p.1 p.2 inst)
    | _ => .raised

/-- The schema accepts the value. -/
def Admits (root schema v : Json) : Prop :=
  ∃ depth, composedVerdict lib root depth schema v = .valid

/-- Without `anyOf` this is the verdict of the validator. -/
theorem composedVerdict_eq_verdict (root : Json) (depth : Nat) {schema v : Json}
    (h : overPlainKeywords schema = true) :
    composedVerdict lib root depth schema v = verdict lib root depth schema v := by
  induction depth generalizing schema v with
  | zero => rfl
  | succ depth ih =>
    cases schema with
    | obj fields =>
      unfold composedVerdict verdict nodeVerdict
      refine first_map_congr fun p hm => ?_
      obtain ⟨keyword, hk, hname⟩ := @keyword_of_overPlainKeywords fields h p.1 p.2 hm
      have hne : p.1 ≠ "anyOf" := by
        intro hany
        rw [hany] at hname
        cases hname
      rw [composedKeyword, if_neg hne]
      exact keywordVerdict_congr hm (sameNode_of_overPlainKeywords h) fun sub w hd =>
        ih (allNodes_of_descends hd h)
    | _ => rfl

end Composed

/-! ## Null -/

/-- The names of the JSON types. -/
def isTypeName : Json → Bool
  | .str name => (isType .null name).isSome
  | _ => false

/-- A schema over `type` (a name or a list of names), `properties`, `items`, `enum`
and `anyOf`, as far as its own keywords go. -/
def overFieldKeywords (node : Json) : Bool :=
  match node with
  | .obj fields => fields.all fun p =>
    match p.1 with
    | "type" =>
      match p.2 with
      | .arr names => names.all isTypeName
      | name => isTypeName name
    | "properties" => p.2.isObject
    | "items" | "enum" | "anyOf" => true
    | _ => false
  | _ => true

/-- So are all the schemas in it. -/
def OverFieldKeywords (schema : Json) : Prop :=
  ∀ path node, nodeAt schema path = some node → overFieldKeywords node = true

/-- One of the options passes. -/
def HasOption (p : Json → Prop) (value : Json) : Prop :=
  ∃ options option, value = .arr options ∧ option ∈ options ∧ p option

section Null

variable {lib : Library} {root : Json} {fields : List (String × Json)}

/-- On null only three keywords matter. -/
theorem admits_null_iff (hnodup : (Dict.keys fields).Nodup)
    (hnames : ∀ name ∈ Dict.keys fields, name = "anyOf" ∨
      ∃ keyword ∈ plainKeywords, Keyword.ofName name = some keyword) :
    Admits lib root (.obj fields) .null ↔
      (∀ value, fields.lookup "type" = some value → typeVerdict value .null = .valid) ∧
      (∀ value, fields.lookup "enum" = some value → enumVerdict value .null = .valid) ∧
      ∀ value, fields.lookup "anyOf" = some value →
        HasOption (fun option => Admits lib root option .null) value := by
  constructor
  · intro h
    obtain ⟨depth, h⟩ := h
    cases depth with
    | zero => cases h
    | succ depth =>
      have hkey {name : String} {value : Json} (hv : fields.lookup name = some value) :
          composedKeyword lib (composedVerdict lib root depth) root fields name value .null =
            .valid := valid_of_mem_first_map h (Dict.mem_of_lookup hv)
      refine ⟨fun value hv => hkey hv, fun value hv => hkey hv, fun value hv => ?_⟩
      have hany : anyOfVerdict (composedVerdict lib root depth) value .null = .valid := hkey hv
      cases value with
      | arr options =>
        rw [anyOfVerdict, Verdict.ofBool_eq_valid_iff, List.any_eq_true] at hany
        obtain ⟨option, hm, hvalid⟩ := hany
        exact ⟨options, option, rfl, hm, depth, of_decide_eq_true hvalid⟩
      | _ => cases hany
  · intro h
    obtain ⟨htype, henum, hany⟩ := h
    -- one level more than the option needs, if there are options
    obtain ⟨depth, hdepth⟩ : ∃ depth, ∀ value, fields.lookup "anyOf" = some value →
        anyOfVerdict (composedVerdict lib root depth) value .null = .valid := by
      cases hv : fields.lookup "anyOf" with
      | none => exact ⟨0, fun value h => by cases h⟩
      | some value =>
        obtain ⟨options, option, rfl, hm, depth, hvalid⟩ := hany value hv
        refine ⟨depth, fun value h => ?_⟩
        cases h
        rw [anyOfVerdict, Verdict.ofBool_eq_valid_iff, List.any_eq_true]
        exact ⟨option, hm, decide_eq_true hvalid⟩
    refine ⟨depth + 1, first_map_eq_valid fun p hm => ?_⟩
    have hv : fields.lookup p.1 = some p.2 := Dict.lookup_of_mem hnodup hm
    rcases hnames p.1 (Dict.mem_keys_of_mem hm) with hname | ⟨keyword, hk, hname⟩
    · rw [composedKeyword, if_pos hname]
      exact hdepth p.2 (hname ▸ hv)
    · have hne : p.1 ≠ "anyOf" := by
        intro h
        rw [h] at hname
        cases hname
      rw [composedKeyword, if_neg hne, keywordVerdict, hname]
      rw [Keyword.name_of_ofName hname fun hu => absurd hk (by rw [hu]; decide)] at hv
      cases keyword with
      | type => exact htype p.2 hv
      | enum => exact henum p.2 hv
      | properties => rfl
      | required => rfl
      | additionalProperties => rfl
      | items => rfl
      | _ => exact absurd hk (by decide)

theorem keyword_of_overFieldKeywords (h : overFieldKeywords (.obj fields) = true) {name : String}
    {value : Json} (hm : (name, value) ∈ fields) :
    name = "anyOf" ∨ ∃ keyword ∈ plainKeywords, Keyword.ofName name = some keyword := by
  have hp := List.all_eq_true.mp h _ hm
  dsimp only at hp
  split at hp
  · exact Or.inr ⟨.type, by decide, rfl⟩
  · exact Or.inr ⟨.properties, by decide, rfl⟩
  · exact Or.inr ⟨.items, by decide, rfl⟩
  · exact Or.inr ⟨.enum, by decide, rfl⟩
  · exact Or.inl rfl
  · cases hp

theorem isObject_of_overFieldKeywords (h : overFieldKeywords (.obj fields) = true) {value : Json}
    (hv : fields.lookup "properties" = some value) : value.isObject = true :=
  List.all_eq_true.mp h _ (Dict.mem_of_lookup hv)

/-- Among type names, null admits null. -/
theorem anyType_null {names : List Json} (hnames : ∀ name ∈ names, isTypeName name = true)
    (h : .str "null" ∈ names) : anyType .null names = .valid := by
  induction names with
  | nil => cases h
  | cons name names ih =>
    have hname := hnames name List.mem_cons_self
    cases name with
    | str name =>
      unfold anyType
      rcases List.mem_cons.mp h with he | hm
      · cases he
        rfl
      · cases ht : isType .null name with
        | none => simp [isTypeName, ht] at hname
        | some b =>
          cases b
          · exact ih (fun n hn => hnames n (List.mem_cons_of_mem _ hn)) hm
          · rfl
    | _ => cases hname

/-- A type with null added to it admits null. -/
theorem withNull_admits_null (h : overFieldKeywords (.obj fields) = true) {value : Json}
    (hv : fields.lookup "type" = some value) : typeVerdict (withNull value) .null = .valid := by
  have htype := List.all_eq_true.mp h _ (Dict.mem_of_lookup hv)
  dsimp only at htype
  cases value with
  | arr names =>
    have hnames : ∀ name ∈ names, isTypeName name = true := List.all_eq_true.mp htype
    unfold withNull
    dsimp only
    split
    · next hm => exact anyType_null hnames hm
    · refine anyType_null (fun name hm => ?_) (by simp)
      rcases List.mem_append.mp hm with hm | hm
      · exact hnames name hm
      · rw [List.mem_singleton.mp hm]
        rfl
  | str name =>
    unfold withNull
    dsimp only
    split
    · next hnull =>
      cases hnull
      rfl
    · refine anyType_null (fun n hm => ?_) (by simp)
      rcases List.mem_cons.mp hm with rfl | hm
      · exact htype
      · rw [List.mem_singleton.mp hm]
        rfl
  | _ => cases htype

/-- The rewritten schema on null, by the keywords that matter. -/
theorem admits_modelNode_obj_iff {makeNullable : Bool} (hnodup : (Dict.keys fields).Nodup)
    (hover : overFieldKeywords (.obj fields) = true) :
    Admits lib root (modelNode makeNullable (.obj fields)) .null ↔
      (∀ value, keywordAfter makeNullable fields "type" = some value →
        typeVerdict value .null = .valid) ∧
      (∀ value, fields.lookup "enum" = some value → enumVerdict value .null = .valid) ∧
      ∀ value, keywordAfter makeNullable fields "anyOf" = some value →
        HasOption (fun option => Admits lib root option .null) value := by
  obtain ⟨fields', heq, hnodup', hafter⟩ := modelNode_spec makeNullable fields
  rw [heq, admits_null_iff (hnodup' hnodup), hafter, hafter, hafter, enum_after]
  intro name hm
  by_contra hno
  rw [not_or, not_exists] at hno
  obtain ⟨hany, hplain⟩ := hno
  have hnone : fields.lookup name = none := by
    cases hv : fields.lookup name with
    | none => rfl
    | some value =>
      rcases keyword_of_overFieldKeywords hover (Dict.mem_of_lookup hv) with h | ⟨keyword, hk⟩
      · exact absurd h hany
      · exact absurd hk (hplain keyword)
  obtain ⟨value, hv⟩ := Dict.exists_lookup hm
  rw [hafter, keywordAfter_eq_none hnone fun keyword hk h => hplain keyword ⟨hk, h⟩] at hv
  cases hv

/-! ### What the rewriting leaves of null -/

/-- The schema's `enum` lists null, if it has one. -/
def ListsNull (fields : List (String × Json)) : Prop :=
  ∀ value, fields.lookup "enum" = some value → enumVerdict value .null = .valid

/-- The schema admits null once it is rewritten, made nullable or not. -/
inductive KeepsNull (lib : Library) (root : Json) : Bool → Json → Prop where
  | anything {makeNullable : Bool} : KeepsNull lib root makeNullable (.bool true)
  /-- An object that declares its properties; its options are not rewritten. -/
  | object {fields properties : List (String × Json)}
      (declares : fields.lookup "properties" = some (.obj properties)) (enum : ListsNull fields)
      (anyOf : ∀ value, fields.lookup "anyOf" = some value →
        HasOption (fun option => Admits lib root option .null) value) :
      KeepsNull lib root true (.obj fields)
  | array {fields : List (String × Json)} (branch : branchOf fields = .array)
      (enum : ListsNull fields)
      (anyOf : ∀ value, fields.lookup "anyOf" = some value →
        HasOption (fun option => Admits lib root option .null) value) :
      KeepsNull lib root true (.obj fields)
  | single {makeNullable : Bool} {fields : List (String × Json)} (branch : branchOf fields = .other)
      (type : makeNullable = true ∨
        ∀ value, fields.lookup "type" = some value → typeVerdict value .null = .valid)
      (enum : ListsNull fields) (single : fields.lookup "anyOf" = none) :
      KeepsNull lib root makeNullable (.obj fields)
  /-- No option is made nullable. -/
  | option {makeNullable : Bool} {fields : List (String × Json)} {options : List Json}
      {option : Json} (branch : branchOf fields = .other)
      (type : makeNullable = true ∨
        ∀ value, fields.lookup "type" = some value → typeVerdict value .null = .valid)
      (enum : ListsNull fields) (anyOf : fields.lookup "anyOf" = some (.arr options))
      (mem : option ∈ options) (keeps : KeepsNull lib root false option) :
      KeepsNull lib root makeNullable (.obj fields)

theorem OverFieldKeywords.child {schema sub : Json} (h : OverFieldKeywords schema)
    {step : SchemaStep} (hs : child schema step = some sub) : OverFieldKeywords sub := by
  intro path node hn
  refine h (step :: path) node ?_
  rw [nodeAt, hs]
  exact hn

theorem overFieldKeywords_of_children {schema : Json} (h : overFieldKeywords schema = true)
    (hdown : ∀ step sub, child schema step = some sub → OverFieldKeywords sub) :
    OverFieldKeywords schema := by
  intro path node hn
  cases path with
  | nil =>
    cases hn
    exact h
  | cons step path =>
    obtain ⟨next, hs, hn⟩ := Option.bind_eq_some_iff.mp hn
    exact hdown step next hs path node hn

theorem OverFieldKeywords.option {options : List Json} {option : Json}
    (h : OverFieldKeywords (.obj fields)) (hany : fields.lookup "anyOf" = some (.arr options))
    (hm : option ∈ options) : OverFieldKeywords option := by
  obtain ⟨i, hi⟩ := List.mem_iff_getElem?.mp hm
  refine @OverFieldKeywords.child _ _ h (.option .anyOf i) ?_
  simp only [InternumCore.child, Json.get?_obj, Composition.name, hany]
  exact hi

theorem keepsNull_type_iff {makeNullable : Bool} (hbranch : branchOf fields = .other)
    (hover : overFieldKeywords (.obj fields) = true) :
    (∀ value, keywordAfter makeNullable fields "type" = some value →
        typeVerdict value .null = .valid) ↔
      (makeNullable = true ∨
        ∀ value, fields.lookup "type" = some value → typeVerdict value .null = .valid) := by
  unfold keywordAfter
  rw [hbranch]
  cases makeNullable with
  | false => simp [compositions, Composition.name]
  | true =>
    simp only [true_or, iff_true]
    intro value hv
    obtain ⟨before, ht, rfl⟩ : ∃ before, fields.lookup "type" = some before ∧
        withNull before = value := by simpa using hv
    exact withNull_admits_null hover ht

theorem admits_object_iff {makeNullable : Bool} (hnodup : (Dict.keys fields).Nodup)
    (hover : overFieldKeywords (.obj fields) = true) (hbranch : branchOf fields = .object) :
    Admits lib root (modelNode makeNullable (.obj fields)) .null ↔
      KeepsNull lib root makeNullable (.obj fields) := by
  rw [admits_modelNode_obj_iff hnodup hover]
  unfold keywordAfter
  rw [hbranch]
  cases hp : fields.lookup "properties" with
  | none =>
    -- without properties nothing is rewritten, and `type` still says object
    have htype : fields.lookup "type" = some (.str "object") := by
      unfold branchOf at hbranch
      by_contra hno
      rw [hp, if_neg (by simp [hno])] at hbranch
      split at hbranch <;> cases hbranch
    constructor
    · intro h
      have hnull := h.1 _ htype
      cases hnull
    · intro h
      cases h with
      | object declares =>
        rw [hp] at declares
        cases declares
      | array branch | single branch | option branch =>
        rw [hbranch] at branch
        cases branch
  | some value =>
    have hobject := isObject_of_overFieldKeywords hover hp
    cases value with
    | obj properties =>
      have hclosed : (∀ value, (closeObject makeNullable properties fields).lookup "type" =
          some value → typeVerdict value .null = .valid) ↔ makeNullable = true := by
        have hnull := @typeVerdict_closed_iff makeNullable .null
        simp only [closeObject, Dict.lookup_set]
        simpa [Json.isObject] using hnull
      constructor
      · intro h
        obtain ⟨htype, henum, hany⟩ := h
        obtain rfl := hclosed.mp htype
        exact .object hp henum fun value hv => hany value (by simpa [closeObject, Dict.lookup_set])
      · intro h
        cases h with
        | object declares enum anyOf =>
          refine ⟨hclosed.mpr rfl, enum, fun value hv => anyOf value ?_⟩
          simpa [closeObject, Dict.lookup_set] using hv
        | array branch | single branch | option branch =>
          rw [hbranch] at branch
          cases branch
    | _ => cases hobject

theorem admits_array_iff {makeNullable : Bool} (hnodup : (Dict.keys fields).Nodup)
    (hover : overFieldKeywords (.obj fields) = true) (hbranch : branchOf fields = .array) :
    Admits lib root (modelNode makeNullable (.obj fields)) .null ↔
      KeepsNull lib root makeNullable (.obj fields) := by
  have htype : fields.lookup "type" = some (.str "array") := type_of_array hbranch
  rw [admits_modelNode_obj_iff hnodup hover]
  unfold keywordAfter
  rw [hbranch]
  constructor
  · intro h
    obtain ⟨htype', henum, hany⟩ := h
    cases makeNullable with
    | false =>
      have hnull := htype' _ htype
      cases hnull
    | true => exact .array hbranch henum fun value hv => hany value (by simpa)
  · intro h
    cases h with
    | object declares =>
      rw [branchOf_eq_object_of_properties declares] at hbranch
      cases hbranch
    | array branch enum anyOf =>
      refine ⟨fun value hv => ?_, enum, fun value hv => anyOf value (by simpa using hv)⟩
      obtain rfl : withNull (.str "array") = value := by simpa using hv
      rfl
    | single branch | option branch =>
      rw [hbranch] at branch
      cases branch

/-- A rewritten schema admits null exactly when the rewriting leaves it null. -/
theorem admits_modelNode_iff {makeNullable : Bool} {schema : Json} (hwf : schema.wellFormed = true)
    (hover : OverFieldKeywords schema) :
    Admits lib root (modelNode makeNullable schema) .null ↔
      KeepsNull lib root makeNullable schema := by
  -- the size of the schema, since the options of a composition are smaller
  induction hn : sizeOf schema using Nat.strong_induction_on generalizing makeNullable schema with
  | _ n ih =>
    cases schema with
    | obj fields =>
      obtain ⟨hnodup, hsub⟩ := Json.wellFormed_obj_iff.mp hwf
      have hself : overFieldKeywords (.obj fields) = true := hover [] _ rfl
      cases hbranch : branchOf fields with
      | object => exact admits_object_iff hnodup hself hbranch
      | array => exact admits_array_iff hnodup hself hbranch
      | other =>
        have hoption {options : List Json} {option : Json}
            (hany : fields.lookup "anyOf" = some (.arr options)) (hm : option ∈ options) :
            Admits lib root (modelNode false option) .null ↔ KeepsNull lib root false option := by
          have hlt : sizeOf option < n :=
            hn ▸ (Json.sizeOf_item_lt hm).trans (Json.sizeOf_lookup_lt hany)
          have hwf' := Json.wellFormed_arr_iff.mp (hsub _ _ (Dict.mem_of_lookup hany)) _ hm
          exact ih _ hlt hwf' (hover.option hany hm) rfl
        have hafter : keywordAfter makeNullable fields "anyOf" =
            (fields.lookup "anyOf").map (mapOptions (modelNode false)) := by
          unfold keywordAfter
          rw [hbranch]
          simp [compositions, Composition.name]
        rw [admits_modelNode_obj_iff hnodup hself, keepsNull_type_iff hbranch hself, hafter]
        constructor
        · intro h
          obtain ⟨htype, henum, hany⟩ := h
          cases hv : fields.lookup "anyOf" with
          | none => exact .single hbranch htype henum hv
          | some value =>
            rw [hv] at hany
            obtain ⟨options', option', heq, hm', hnull⟩ := hany _ rfl
            cases value with
            | arr options =>
              cases heq
              obtain ⟨option, hm, rfl⟩ := List.mem_map.mp hm'
              exact .option hbranch htype henum hv hm ((hoption hv hm).mp hnull)
            | _ => cases heq
        · intro h
          cases h with
          | object declares =>
            rw [branchOf_eq_object_of_properties declares] at hbranch
            cases hbranch
          | array branch =>
            rw [hbranch] at branch
            cases branch
          | single _ type enum single =>
            refine ⟨type, enum, fun value hv => ?_⟩
            rw [single] at hv
            cases hv
          | @option _ _ options option _ type enum anyOf mem keeps =>
            refine ⟨type, enum, fun value hv => ?_⟩
            rw [anyOf] at hv
            cases hv
            exact ⟨options.map (modelNode false), modelNode false option, rfl,
              List.mem_map_of_mem mem, (hoption anyOf mem).mpr keeps⟩
    | bool b =>
      rw [modelNode_not_object (by simp)]
      constructor
      · intro h
        obtain ⟨depth, h⟩ := h
        cases b with
        | false => cases depth <;> cases h
        | true => exact .anything
      · intro h
        cases h
        exact ⟨1, rfl⟩
    | _ =>
      rw [modelNode_not_object (by simp)]
      constructor
      · intro h
        obtain ⟨depth, h⟩ := h
        cases depth <;> cases h
      · intro h
        cases h

end Null

/-! ## Every field -/

/-- A step to a property or to the items. -/
def SchemaStep.isDirect : SchemaStep → Bool
  | .option _ _ => false
  | _ => true

/-- A property of an object is declared by `sub`, in the schema at the end of a path
through properties and items along which `schema` is rewritten. -/
def DeclaresField (schema after sub : Json) : Prop :=
  ∃ path node properties name, (∀ step ∈ path, SchemaStep.isDirect step = true) ∧
    (reaches false schema path).isSome = true ∧ nodeAt after path = some node ∧
    node.get? "properties" = some (.obj properties) ∧ (name, sub) ∈ properties

theorem declaresField_normalizeForModel_iff {schema sub' : Json} :
    DeclaresField schema (normalizeForModel schema) sub' ↔
      ∃ sub, DeclaresField schema schema sub ∧ sub' = modelNode true sub := by
  constructor
  · intro h
    obtain ⟨path, node', properties', name, hdirect, hreached, hn, hp, hm⟩ := h
    rw [normalizeForModel, nodeAt_modelNode] at hn
    obtain ⟨makeNullable, hr⟩ := Option.isSome_iff_exists.mp hreached
    rw [hr] at hn
    obtain ⟨node, hnode, rfl⟩ := Option.map_eq_some_iff.mp hn
    obtain ⟨properties, hdeclares, rfl⟩ := declares_modelNode_iff.mp hp
    obtain ⟨p, hpm, heq⟩ := List.mem_map.mp hm
    cases heq
    exact ⟨p.2, ⟨path, node, properties, p.1, hdirect, hreached, hnode, hdeclares, hpm⟩, rfl⟩
  · intro h
    obtain ⟨sub, ⟨path, node, properties, name, hdirect, hreached, hn, hp, hm⟩, rfl⟩ := h
    obtain ⟨makeNullable, hr⟩ := Option.isSome_iff_exists.mp hreached
    refine ⟨path, modelNode makeNullable node, _, name, hdirect, hreached, ?_,
      declares_modelNode_iff.mpr ⟨properties, hp, rfl⟩, List.mem_map.mpr ⟨_, hm, rfl⟩⟩
    rw [normalizeForModel, nodeAt_modelNode, hr, hn]
    rfl

theorem wellFormed_get? {schema value : Json} (hwf : schema.wellFormed = true) {name : String}
    (h : schema.get? name = some value) : value.wellFormed = true := by
  cases schema with
  | obj fields => exact (Json.wellFormed_obj_iff.mp hwf).2 _ _ (Dict.mem_of_lookup h)
  | _ => cases h

theorem wellFormed_child {schema sub : Json} (hwf : schema.wellFormed = true) {step : SchemaStep}
    (h : child schema step = some sub) : sub.wellFormed = true := by
  cases step with
  | property name =>
    dsimp only [child] at h
    split at h
    · next properties hp =>
      have hproperties := Json.wellFormed_obj_iff.mp (wellFormed_get? hwf hp)
      exact hproperties.2 _ _ (Dict.mem_of_lookup h)
    · cases h
  | items => exact wellFormed_get? hwf h
  | option keyword index =>
    dsimp only [child] at h
    split at h
    · next options ho =>
      exact Json.wellFormed_arr_iff.mp (wellFormed_get? hwf ho) _ (List.mem_of_getElem? h)
    · cases h

theorem wellFormed_nodeAt {schema node : Json} (hwf : schema.wellFormed = true)
    {path : List SchemaStep} (h : nodeAt schema path = some node) : node.wellFormed = true := by
  induction path generalizing schema with
  | nil =>
    cases h
    exact hwf
  | cons step path ih =>
    obtain ⟨next, hs, hn⟩ := Option.bind_eq_some_iff.mp h
    exact ih (wellFormed_child hwf hs) hn

theorem OverFieldKeywords.nodeAt {schema node : Json} (h : OverFieldKeywords schema)
    {path : List SchemaStep} (hn : InternumCore.nodeAt schema path = some node) :
    OverFieldKeywords node := by
  induction path generalizing schema with
  | nil =>
    cases hn
    exact h
  | cons step path ih =>
    obtain ⟨next, hs, hn⟩ := Option.bind_eq_some_iff.mp hn
    exact ih (h.child hs) hn

/-- **The model may answer null exactly when** the rewriting leaves it null.  That is
said of every field together: all of them admit null in the rewritten schema if and
only if each of them keeps it. -/
theorem null_answerable_iff (lib : Library) (schema : JsonValue)
    (hover : OverFieldKeywords schema.1) :
    (∀ sub, DeclaresField schema.1 (normalizeForModel schema.1) sub →
        Admits lib (normalizeForModel schema.1) sub .null) ↔
      ∀ sub, DeclaresField schema.1 schema.1 sub →
        KeepsNull lib (normalizeForModel schema.1) true sub := by
  have hfield {sub : Json} (h : DeclaresField schema.1 schema.1 sub) :
      Admits lib (normalizeForModel schema.1) (modelNode true sub) .null ↔
        KeepsNull lib (normalizeForModel schema.1) true sub := by
    obtain ⟨path, node, properties, name, -, -, hn, hp, hm⟩ := h
    have hnodup : (Dict.keys properties).Nodup :=
      (Json.wellFormed_obj_iff.mp (wellFormed_get? (wellFormed_nodeAt schema.2 hn) hp)).1
    have hchild : child node (.property name) = some sub := by
      simp only [child, hp]
      exact Dict.lookup_of_mem hnodup hm
    exact admits_modelNode_iff (wellFormed_child (wellFormed_nodeAt schema.2 hn) hchild)
      ((hover.nodeAt hn).child hchild)
  constructor
  · intro h sub hs
    exact (hfield hs).mp (h _ (declaresField_normalizeForModel_iff.mpr ⟨sub, hs, rfl⟩))
  · intro h sub' hs'
    obtain ⟨sub, hs, rfl⟩ := declaresField_normalizeForModel_iff.mp hs'
    exact (hfield hs).mpr (h sub hs)

/-! ### An object without properties -/

/-- An object with a field that may hold any object. -/
def bareField : JsonValue :=
  ⟨.obj [("type", .str "object"), ("properties", .obj [("a", .obj [("type", .str "object")])])],
    by decide⟩

/-- The field does not admit null. -/
theorem bare_field_not_nullable :
    DeclaresField bareField.1 (normalizeForModel bareField.1) (.obj [("type", .str "object")]) ∧
      ¬Admits coreLibrary (normalizeForModel bareField.1) (.obj [("type", .str "object")])
        .null := by
  refine ⟨⟨[], normalizeForModel bareField.1, [("a", .obj [("type", .str "object")])], "a", by simp,
    rfl, rfl, by decide +kernel, by simp⟩, ?_⟩
  intro h
  obtain ⟨depth, h⟩ := h
  cases depth <;> cases h

theorem overFieldKeywords_bareField : OverFieldKeywords bareField.1 := by
  refine overFieldKeywords_of_children (by decide) fun step sub hs => ?_
  cases step with
  | property name =>
    have hm := Dict.mem_of_lookup hs
    cases List.mem_singleton.mp hm
    refine overFieldKeywords_of_children (by decide) fun step sub hs => ?_
    cases step with
    | property name => cases hs
    | items => cases hs
    | option keyword index => cases keyword <;> cases hs
  | items => cases hs
  | option keyword index => cases keyword <;> cases hs

/-- The theorem on that schema. -/
theorem bare_field_answerable_iff :
    (∀ sub, DeclaresField bareField.1 (normalizeForModel bareField.1) sub →
        Admits coreLibrary (normalizeForModel bareField.1) sub .null) ↔
      ∀ sub, DeclaresField bareField.1 bareField.1 sub →
        KeepsNull coreLibrary (normalizeForModel bareField.1) true sub :=
  null_answerable_iff coreLibrary bareField overFieldKeywords_bareField

end InternumCore
