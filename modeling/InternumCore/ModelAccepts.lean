import InternumCore.ModelSchema
import InternumCore.NormalizeAccepts

/-!
# What the schema sent to the model accepts

The model is asked for a value of the rewritten schema, while its answer is checked
against the caller's own.  A right answer with every declared property in it should
satisfy both.  `modelNode_valid_iff` says when it does: the rewriting overwrites the
`type` of a schema with properties, so what stands there must be an object, or null
where the rewriting makes the schema nullable (`KeepsType`).  All other changes admit
a complete answer.
-/

namespace InternumCore
open JsonSchema

/-! ## The schemas and the answers -/

def plainKeywords : List Keyword :=
  [.type, .properties, .required, .additionalProperties, .items, .enum]

/-- A schema over `type`, `properties`, `required`, `additionalProperties`, `items`
and `enum`, whose `additionalProperties` are booleans. -/
def overPlainKeywords (schema : Json) : Bool :=
  allNodes (fun fields => fields.all fun p =>
    match Keyword.ofName p.1 with
    | some .type | some .properties | some .required | some .items | some .enum => true
    | some .additionalProperties =>
      match p.2 with
      | .bool _ => true
      | _ => false
    | _ => false) schema

/-- An object has exactly the properties its schema declares, if it declares any. -/
def HasDeclared (schema v : Json) : Prop :=
  ∀ properties entries, schema.get? "properties" = some (.obj properties) → v = .obj entries →
    ∀ name, name ∈ Dict.keys entries ↔ name ∈ Dict.keys properties

/-- So it is wherever the validation comes to. -/
def Complete (lib : Library) (schema v : Json) : Prop :=
  ∀ q, Visits lib (schema, v) q → HasDeclared q.1 q.2

theorem Complete.here {lib : Library} {schema v : Json} (h : Complete lib schema v) :
    HasDeclared schema v :=
  h _ .refl

theorem Complete.below {lib : Library} {schema v sub w : Json} (h : Complete lib schema v)
    (hd : Descends lib (schema, v) (sub, w)) : Complete lib sub w :=
  fun q hq => h q (.head hd hq)

/-! ## What the rewriting comes to -/

/-- One step of the rewriting and of the validation, from a schema that is made
nullable or not, and a value. -/
inductive Rewritten : Bool × Json × Json → Bool × Json × Json → Prop where
  | property {makeNullable : Bool} {fields properties entries : List (String × Json)}
      {name : String} {sub v : Json} (keyword : fields.lookup "properties" = some (.obj properties))
      (declared : (name, sub) ∈ properties) (present : entries.lookup name = some v) :
      Rewritten (makeNullable, .obj fields, .obj entries) (true, sub, v)
  | item {makeNullable : Bool} {fields : List (String × Json)} {items : List Json} {sub v : Json}
      (branch : branchOf fields = .array) (keyword : fields.lookup "items" = some sub)
      (mem : v ∈ items) : Rewritten (makeNullable, .obj fields, .arr items) (false, sub, v)

/-- Where the rewriting overwrites the type, it overwrites it with one of the value. -/
def KeepsType (q : Bool × Json × Json) : Prop :=
  ∀ properties, q.2.1.get? "properties" = some (.obj properties) →
    q.2.2.isObject = true ∨ q.1 = true ∧ q.2.2 = .null

/-- So it is wherever the rewriting comes to. -/
def KeepsTypes (q : Bool × Json × Json) : Prop :=
  ∀ r, Relation.ReflTransGen Rewritten q r → KeepsType r

theorem keepsTypes_iff {q : Bool × Json × Json} :
    KeepsTypes q ↔ KeepsType q ∧ ∀ r, Rewritten q r → KeepsTypes r := by
  constructor
  · intro h
    exact ⟨h _ .refl, fun r hr t ht => h t (.head hr ht)⟩
  · intro h r hr
    obtain ⟨hself, hdown⟩ := h
    rcases Relation.ReflTransGen.cases_head hr with rfl | ⟨t, ht, hr⟩
    · exact hself
    · exact hdown t ht r hr

section

variable {lib : Library} {root root' : Json} {depth : Nat} {fields : List (String × Json)}

theorem keyword_of_overPlainKeywords (h : overPlainKeywords (.obj fields) = true) {name : String}
    {value : Json} (hm : (name, value) ∈ fields) :
    ∃ keyword ∈ plainKeywords, Keyword.ofName name = some keyword := by
  have hp := List.all_eq_true.mp (allNodes_obj h) _ hm
  dsimp only at hp
  split at hp <;> simp_all [plainKeywords]

/-- No reference and no keyword of the library is read. -/
theorem sameNode_of_overPlainKeywords {schema v : Json} (h : overPlainKeywords schema = true) :
    SameNode lib root root' schema v := by
  rintro fields rfl name value hm
  obtain ⟨keyword, hk, hname⟩ := keyword_of_overPlainKeywords h hm
  rw [hname]
  refine ⟨?_, fun hnone => by cases hnone⟩
  rintro ⟨⟩
  exact absurd hk (by decide)

theorem verdict_of_overPlainKeywords (depth : Nat) {schema v : Json}
    (h : overPlainKeywords schema = true) :
    verdict lib root depth schema v = verdict lib root' depth schema v :=
  verdict_congr depth fun _ hq => sameNode_of_overPlainKeywords (allNodes_of_visits hq h)

theorem lookup_of_overPlainKeywords (h : overPlainKeywords (.obj fields) = true) {name : String}
    (hname : ∀ keyword ∈ plainKeywords, Keyword.ofName name ≠ some keyword) :
    fields.lookup name = none := by
  cases hv : fields.lookup name with
  | none => rfl
  | some v =>
    obtain ⟨keyword, hk, hk'⟩ := keyword_of_overPlainKeywords h (Dict.mem_of_lookup hv)
    exact absurd hk' (hname keyword hk)

/-- The rewriting adds no other keywords. -/
theorem keywordAfter_eq_none {makeNullable : Bool} {name : String}
    (hnone : fields.lookup name = none)
    (hname : ∀ keyword ∈ plainKeywords, Keyword.ofName name ≠ some keyword) :
    keywordAfter makeNullable fields name = none := by
  have hne : ∀ keyword ∈ plainKeywords, name ≠ keyword.name := by
    rintro keyword hk rfl
    have hself : ∀ keyword ∈ plainKeywords, Keyword.ofName keyword.name = some keyword := by decide
    exact hname keyword hk (hself keyword hk)
  have htype : name ≠ "type" := hne .type (by decide)
  have hproperties : name ≠ "properties" := hne .properties (by decide)
  have hrequired : name ≠ "required" := hne .required (by decide)
  have hadditional : name ≠ "additionalProperties" := hne .additionalProperties (by decide)
  have hitems : name ≠ "items" := hne .items (by decide)
  unfold keywordAfter
  cases branchOf fields with
  | object =>
    dsimp only
    split
    · simp [closeObject, Dict.lookup_set, htype, hproperties, hrequired, hadditional, hnone]
    · exact hnone
  | array => simp [htype, hitems, hnone]
  | other => simp [htype, hnone]

theorem keywordAfter_of_overPlainKeywords (h : overPlainKeywords (.obj fields) = true)
    {makeNullable : Bool} {name : String}
    (hname : ∀ keyword ∈ plainKeywords, Keyword.ofName name ≠ some keyword) :
    keywordAfter makeNullable fields name = none :=
  keywordAfter_eq_none (lookup_of_overPlainKeywords h hname) hname

theorem prefixLength_eq_zero {fields : List (String × Json)}
    (h : fields.lookup "prefixItems" = none) : prefixLength fields = 0 := by
  unfold prefixLength
  rw [h]

/-- The rewriting goes where the validation goes. -/
theorem Rewritten.descends (hplain : overPlainKeywords (.obj fields) = true) {makeNullable : Bool}
    {v : Json} {r : Bool × Json × Json} (h : Rewritten (makeNullable, .obj fields, v) r) :
    Descends lib (.obj fields, v) r.2 := by
  cases h with
  | property keyword declared present =>
    exact .property (Dict.mem_of_lookup keyword) declared present
  | item branch keyword mem =>
    refine .item (Dict.mem_of_lookup keyword) ?_
    rwa [prefixLength_eq_zero (lookup_of_overPlainKeywords hplain (by decide))]

/-- The validation against the rewritten schema goes there too. -/
theorem Rewritten.descends_modelNode {makeNullable : Bool} {v : Json} {r : Bool × Json × Json}
    (hplain : overPlainKeywords (.obj fields) = true)
    (h : Rewritten (makeNullable, .obj fields, v) r) :
    Descends lib (modelNode makeNullable (.obj fields), v) (modelNode r.1 r.2.1, r.2.2) := by
  obtain ⟨fields', heq, -, hlookup⟩ := modelNode_spec makeNullable fields
  rw [heq]
  cases h with
  | @property _ _ properties entries name sub v keyword declared present =>
    have hp : fields'.lookup "properties" =
        some (.obj (properties.map fun p => (p.1, modelNode true p.2))) := by
      rw [hlookup, keywordAfter, branchOf_eq_object_of_properties keyword, keyword]
      rfl
    refine .property (Dict.mem_of_lookup hp) (List.mem_map.mpr ⟨(name, sub), declared, rfl⟩) present
  | @item _ _ items sub v branch keyword mem =>
    have hi : fields'.lookup "items" = some (modelNode false sub) := by
      rw [hlookup, keywordAfter, branch, keyword]
      rfl
    refine .item (Dict.mem_of_lookup hi) ?_
    rwa [prefixLength_eq_zero ((hlookup _).trans (keywordAfter_of_overPlainKeywords hplain (by decide)))]

/-! ## The keywords after the rewriting -/

theorem anyType_append {v : Json} {names more : List Json} (h : anyType v names = .valid) :
    anyType v (names ++ more) = .valid := by
  induction names with
  | nil => cases h
  | cons name names ih =>
    cases name with
    | str name =>
      rw [List.cons_append]
      unfold anyType at h ⊢
      split at h
      · cases h
      · rfl
      · exact ih h
    | _ => cases h

/-- What a type admits it admits with null added to it. -/
theorem typeVerdict_withNull {schemaType v : Json} (h : typeVerdict schemaType v = .valid) :
    typeVerdict (withNull schemaType) v = .valid := by
  cases schemaType with
  | str name =>
    unfold withNull
    dsimp only
    split
    · exact h
    · exact @anyType_append v [.str name] [.str "null"] h
  | arr names =>
    unfold withNull
    dsimp only
    split
    · exact h
    · exact anyType_append h
  | _ => cases h

theorem typeVerdict_closed_iff {makeNullable : Bool} {v : Json} :
    typeVerdict (if makeNullable then withNull (.str "object") else .str "object") v = .valid ↔
      v.isObject = true ∨ makeNullable = true ∧ v = .null := by
  cases makeNullable <;> cases v <;> simp [withNull, typeVerdict, anyType, isType, Json.isObject]

section Keywords

variable {makeNullable : Bool} {v value : Json} {fields' : List (String × Json)}
  {descend descend' : Json → Json → Verdict}

theorem type_after
    (hbefore : ∀ value, fields.lookup "type" = some value → typeVerdict value v = .valid)
    (hkeeps : KeepsType (makeNullable, .obj fields, v))
    (h : keywordAfter makeNullable fields "type" = some value) : typeVerdict value v = .valid := by
  unfold keywordAfter at h
  cases hbranch : branchOf fields with
  | object =>
    rw [hbranch] at h
    dsimp only at h
    split at h
    · next properties hp =>
      have hvalue : value = if makeNullable then withNull (.str "object") else .str "object" := by
        simpa [closeObject, Dict.lookup_set, eq_comm] using h
      rw [hvalue, typeVerdict_closed_iff]
      exact hkeeps properties hp
    · exact hbefore value h
  | array =>
    have htype := type_of_array hbranch
    rw [hbranch] at h
    cases makeNullable
    · exact hbefore value (by simpa using h)
    · obtain rfl : withNull (.str "array") = value := by simpa using h
      exact typeVerdict_withNull (hbefore _ htype)
  | other =>
    rw [hbranch] at h
    cases makeNullable
    · exact hbefore value (by simpa [compositions, Composition.name] using h)
    · obtain ⟨schemaType, ht, rfl⟩ : ∃ schemaType, fields.lookup "type" = some schemaType ∧
          withNull schemaType = value := by simpa using h
      exact typeVerdict_withNull (hbefore _ ht)

theorem required_after
    (hbefore : ∀ value, fields.lookup "required" = some value → requiredVerdict value v = .valid)
    (hdeclared : HasDeclared (.obj fields) v)
    (h : keywordAfter makeNullable fields "required" = some value) :
    requiredVerdict value v = .valid := by
  unfold keywordAfter at h
  cases hbranch : branchOf fields with
  | object =>
    rw [hbranch] at h
    dsimp only at h
    split at h
    · next properties hp =>
      obtain rfl : value = .arr ((sortedNames properties).map .str) := by
        simpa [closeObject, eq_comm] using h
      cases v with
      | obj entries =>
        refine first_map_eq_valid fun name hm => ?_
        obtain ⟨name, hname, rfl⟩ := List.mem_map.mp hm
        have hkey : name ∈ Dict.keys entries :=
          (hdeclared properties entries hp rfl name).mpr ((sortedNames_perm properties).mem_iff.mp hname)
        obtain ⟨w, hw⟩ := Dict.exists_lookup hkey
        simp [hw]
      | _ => rfl
    · exact hbefore value h
  | array =>
    rw [hbranch] at h
    exact hbefore value (by simpa using h)
  | other =>
    rw [hbranch] at h
    exact hbefore value (by simpa [compositions, Composition.name] using h)

theorem additional_after (hplain : overPlainKeywords (.obj fields) = true)
    (hbefore : ∀ value, fields.lookup "additionalProperties" = some value →
      additionalVerdict lib descend fields value v = .valid)
    (hdeclared : HasDeclared (.obj fields) v)
    (hafter : ∀ name, fields'.lookup name = keywordAfter makeNullable fields name)
    (h : keywordAfter makeNullable fields "additionalProperties" = some value) :
    additionalVerdict lib descend' fields' value v = .valid := by
  have hsame (hv : fields.lookup "additionalProperties" = some value)
      (hp : fields'.lookup "properties" = fields.lookup "properties") :
      additionalVerdict lib descend' fields' value v = .valid := by
    have hpatterns : fields'.lookup "patternProperties" = fields.lookup "patternProperties" := by
      rw [hafter, keywordAfter_of_overPlainKeywords hplain (by decide),
        lookup_of_overPlainKeywords hplain (by decide)]
    have hvalid := hbefore value hv
    have hbool := List.all_eq_true.mp (allNodes_obj hplain) _ (Dict.mem_of_lookup hv)
    cases v with
    | obj entries =>
      cases value with
      | bool b =>
        unfold additionalVerdict additionalEntries at hvalid ⊢
        rwa [hp, hpatterns]
      | _ => cases hbool
    | _ => rfl
  have hp := hafter "properties"
  unfold keywordAfter at h hp
  cases hbranch : branchOf fields with
  | object =>
    rw [hbranch] at h hp
    dsimp only at h hp
    split at h
    · next properties hproperties =>
      -- the object is closed, which leaves no entry over: its keys are the declared ones
      obtain rfl : value = .bool false := by
        simpa [closeObject, Dict.lookup_set, eq_comm] using h
      rw [hproperties] at hp
      cases v with
      | obj entries =>
        have hnone : additionalEntries lib fields' entries = [] := by
          refine additionalEntries_eq_nil (hp.trans rfl) fun name hm => ?_
          have hmem := (hdeclared properties entries hproperties rfl name).mp hm
          simpa [Dict.keys, Function.comp_def] using hmem
        unfold additionalVerdict
        dsimp only
        rw [hnone]
        rfl
      | _ => rfl
    · next hno =>
      refine hsame h ?_
      rw [hp]
      split
      · next properties hproperties => exact absurd hproperties (hno properties)
      · rfl
  | array =>
    rw [hbranch] at h hp
    exact hsame (by simpa using h) (by simpa using hp)
  | other =>
    rw [hbranch] at h hp
    exact hsame (by simpa [compositions, Composition.name] using h)
      (by simpa [compositions, Composition.name] using hp)

theorem properties_after
    (hbefore : ∀ value, fields.lookup "properties" = some value →
      propertiesVerdict descend value v = .valid)
    (hdown : ∀ sub w, Rewritten (makeNullable, .obj fields, v) (true, sub, w) →
      descend' (modelNode true sub) w = .valid)
    (h : keywordAfter makeNullable fields "properties" = some value) :
    propertiesVerdict descend' value v = .valid := by
  cases hp : fields.lookup "properties" with
  | none =>
    exfalso
    unfold keywordAfter at h
    cases hbranch : branchOf fields <;> rw [hbranch] at h <;>
      simp [hp, compositions, Composition.name] at h
  | some before =>
    unfold keywordAfter at h
    rw [branchOf_eq_object_of_properties hp, hp] at h
    cases before with
    | obj properties =>
      obtain rfl : value = .obj (properties.map fun p => (p.1, modelNode true p.2)) := by
        simpa [eq_comm] using h
      cases v with
      | obj entries =>
        refine first_map_eq_valid fun q hq => ?_
        obtain ⟨p, hm, rfl⟩ := List.mem_map.mp hq
        dsimp only
        cases hw : entries.lookup p.1 with
        | none => rfl
        | some w => exact hdown p.2 w (.property hp hm hw)
      | _ => rfl
    | _ =>
      have hvalid := hbefore _ hp
      obtain rfl : _ = value := by simpa using h
      cases v with
      | obj entries => cases hvalid
      | _ => rfl

/-- Without `prefixItems` every item is checked. -/
theorem itemsVerdict_arr_iff (hnone : fields.lookup "prefixItems" = none)
    (hfalse : ∀ w, descend (.bool false) w ≠ .valid) {items : List Json} :
    itemsVerdict descend fields value (.arr items) = .valid ↔
      ∀ w ∈ items, descend value w = .valid := by
  unfold itemsVerdict
  rw [prefixLength_eq_zero hnone]
  dsimp only
  rw [List.drop_zero]
  split
  · rw [Verdict.ofBool_eq_valid_iff, List.isEmpty_iff, List.eq_nil_iff_forall_not_mem]
    exact forall_congr' fun w => imp_congr_right fun _ => ⟨False.elim, hfalse w⟩
  · exact ⟨fun h w hw => valid_of_mem_first_map h hw, first_map_eq_valid⟩

theorem items_after (hplain : overPlainKeywords (.obj fields) = true)
    (hfalse : ∀ w, descend (.bool false) w ≠ .valid)
    (hfalse' : ∀ w, descend' (.bool false) w ≠ .valid)
    (hbefore : ∀ value, fields.lookup "items" = some value →
      itemsVerdict descend fields value v = .valid)
    (hafter : ∀ name, fields'.lookup name = keywordAfter makeNullable fields name)
    (hdown : ∀ sub w, Rewritten (makeNullable, .obj fields, v) (false, sub, w) →
      descend' (modelNode false sub) w = .valid)
    (hsame : fields.lookup "items" = some value →
      ∀ w, descend value w = .valid → descend' value w = .valid)
    (h : keywordAfter makeNullable fields "items" = some value) :
    itemsVerdict descend' fields' value v = .valid := by
  have hnone : fields'.lookup "prefixItems" = none := by
    rw [hafter, keywordAfter_of_overPlainKeywords hplain (by decide)]
  cases v with
  | arr items =>
    -- outside the branch of arrays the items keep their schema
    have hunchanged (hi : fields.lookup "items" = some value) :
        itemsVerdict descend' fields' value (.arr items) = .valid := by
      have hvalid := hbefore value hi
      rw [itemsVerdict_arr_iff (lookup_of_overPlainKeywords hplain (by decide)) hfalse] at hvalid
      rw [itemsVerdict_arr_iff hnone hfalse']
      exact fun w hw => hsame hi w (hvalid w hw)
    unfold keywordAfter at h
    cases hbranch : branchOf fields with
    | object =>
      rw [hbranch] at h
      dsimp only at h
      split at h
      · exact hunchanged (by simpa [closeObject, Dict.lookup_set] using h)
      · exact hunchanged h
    | array =>
      rw [hbranch] at h
      obtain ⟨sub, hi, rfl⟩ : ∃ sub, fields.lookup "items" = some sub ∧
          modelNode false sub = value := by simpa using h
      rw [itemsVerdict_arr_iff hnone hfalse']
      exact fun w hw => hdown sub w (.item hbranch hi hw)
    | other =>
      rw [hbranch] at h
      exact hunchanged (by simpa [compositions, Composition.name] using h)
  | _ => rfl

theorem enum_after : keywordAfter makeNullable fields "enum" = fields.lookup "enum" := by
  unfold keywordAfter
  cases branchOf fields with
  | object =>
    dsimp only
    split
    · simp [closeObject, Dict.lookup_set]
    · rfl
  | array => simp
  | other => simp [compositions, Composition.name]

end Keywords

/-! ## Acceptance after the rewriting -/

theorem verdict_false_ne_valid (depth : Nat) (w : Json) :
    verdict lib root depth (.bool false) w ≠ .valid := by
  cases depth <;> simp [verdict, nodeVerdict, Verdict.ofBool]

/-- **What the rewritten schema accepts.**  A complete value that the schema accepts
is accepted after the rewriting exactly when the rewriting overwrites no type with
one the value does not have. -/
theorem modelNode_valid_iff {makeNullable : Bool} {schema v : Json}
    (hwf : schema.wellFormed = true) (hplain : overPlainKeywords schema = true)
    (hcomplete : Complete lib schema v) (hvalid : verdict lib root depth schema v = .valid) :
    verdict lib root' depth (modelNode makeNullable schema) v = .valid ↔
      KeepsTypes (makeNullable, schema, v) := by
  -- the depth of the verdict, since the rewriting goes where the validation goes
  induction depth generalizing makeNullable schema v with
  | zero => cases hvalid
  | succ depth ih =>
    cases schema with
    | obj fields =>
      obtain ⟨hnodup, hsub⟩ := Json.wellFormed_obj_iff.mp hwf
      have hchild {r : Bool × Json × Json} (hr : Rewritten (makeNullable, .obj fields, v) r) :
          verdict lib root' depth (modelNode r.1 r.2.1) r.2.2 = .valid ↔ KeepsTypes r := by
        have hd : Descends lib (.obj fields, v) r.2 := hr.descends hplain
        have hwf' : r.2.1.wellFormed = true := by
          cases hr with
          | property keyword declared present =>
            have hwfp := hsub _ _ (Dict.mem_of_lookup keyword)
            exact (Json.wellFormed_obj_iff.mp hwfp).2 _ _ declared
          | item branch keyword mem => exact hsub _ _ (Dict.mem_of_lookup keyword)
        exact ih hwf' (allNodes_of_descends hd hplain) (hcomplete.below hd)
          (valid_of_descends hd hvalid)
      have hkey := verdict_obj_valid_iff.mp hvalid
      rw [keepsTypes_iff]
      constructor
      · intro h
        refine ⟨fun properties hp => ?_, fun r hr =>
          (hchild hr).mp (valid_of_descends (hr.descends_modelNode hplain) h)⟩
        obtain ⟨fields', heq, -, hafter⟩ := modelNode_spec makeNullable fields
        have htype : fields'.lookup "type" =
            some (if makeNullable then withNull (.str "object") else .str "object") := by
          have hp' : fields.lookup "properties" = some (.obj properties) := hp
          rw [hafter, keywordAfter, branchOf_eq_object_of_properties hp', hp']
          simp [closeObject, Dict.lookup_set]
        rw [heq] at h
        exact typeVerdict_closed_iff.mp (verdict_obj_valid_iff.mp h _ _ (Dict.mem_of_lookup htype))
      · intro hkeeps
        obtain ⟨htype, hdown⟩ := hkeeps
        have hdown' {r : Bool × Json × Json} (hr : Rewritten (makeNullable, .obj fields, v) r) :
            verdict lib root' depth (modelNode r.1 r.2.1) r.2.2 = .valid :=
          (hchild hr).mpr (hdown r hr)
        have hbefore (keyword : Keyword) (value : Json) (hv : fields.lookup keyword.name = some value) :=
          hkey _ _ (Dict.mem_of_lookup hv)
        obtain ⟨fields', heq, hnodup', hafter⟩ := modelNode_spec makeNullable fields
        rw [heq]
        refine verdict_obj_valid_iff.mpr fun name value hm => ?_
        have hv : keywordAfter makeNullable fields name = some value :=
          (hafter name).symm.trans (Dict.lookup_of_mem (hnodup' hnodup) hm)
        by_cases hknown : ∃ keyword ∈ plainKeywords, Keyword.ofName name = some keyword
        · obtain ⟨keyword, hk, hname⟩ := hknown
          obtain rfl := Keyword.name_of_ofName hname fun hu => absurd hk (by rw [hu]; decide)
          cases keyword with
          | type => exact type_after (hbefore .type) htype hv
          | properties =>
            exact properties_after (hbefore .properties) (fun sub w hr => hdown' hr) hv
          | required => exact required_after (hbefore .required) hcomplete.here hv
          | additionalProperties =>
            exact additional_after hplain (hbefore .additionalProperties) hcomplete.here hafter hv
          | items =>
            refine items_after hplain (verdict_false_ne_valid depth) (verdict_false_ne_valid depth)
              (hbefore .items) hafter (fun sub w hr => hdown' hr) (fun hi w hw => ?_) hv
            have hsub : overPlainKeywords value = true :=
              allNodesBelow_of_mem (allNodes_below hplain) (Dict.mem_of_lookup hi)
            rwa [verdict_of_overPlainKeywords depth hsub] at hw
          | enum => exact hbefore .enum value (enum_after.symm.trans hv)
          | _ => exact absurd hk (by decide)
        · rw [keywordAfter_of_overPlainKeywords hplain (by simpa using hknown)] at hv
          cases hv
    | _ =>
      -- a schema that is no object is not rewritten and declares nothing
      rw [modelNode_not_object (by simp), keepsTypes_iff]
      refine ⟨fun _ => ⟨fun properties hp => (by cases hp), fun r hr => (by cases hr)⟩, fun _ => ?_⟩
      exact hvalid

end

/-- **The schema sent to the model admits a right answer exactly when** the type it
prescribes is that of the answer wherever it is overwritten.  The answer is one that
the caller's schema accepts and that has every declared property. -/
theorem model_schema_accepts_iff (lib : Library) (schema : JsonValue)
    (hplain : overPlainKeywords schema.1 = true) (v : Json) (hvalid : Accepts lib schema.1 v)
    (hcomplete : Complete lib schema.1 v) :
    Accepts lib (normalizeForModel schema.1) v ↔ KeepsTypes (false, schema.1, v) :=
  modelNode_valid_iff schema.2 hplain hcomplete hvalid

/-! ### A row that is missing -/

/-- Rows, some of which may be null. -/
def optionalRows : JsonValue :=
  ⟨.obj [("type", .str "array"), ("items", .obj
    [("type", .arr [.str "object", .str "null"]),
      ("properties", .obj [("a", .obj [("type", .str "string")])])])], by decide⟩

/-- There is no object in the answer. -/
theorem complete_missing_row : Complete coreLibrary optionalRows.1 (.arr [.null]) := by
  have hvalue : ∀ q, Visits coreLibrary (optionalRows.1, .arr [.null]) q →
      q.2 = .arr [.null] ∨ q.2 = .null := by
    intro q hq
    induction hq with
    | refl => exact Or.inl rfl
    | @tail b c _ hd ih =>
      obtain ⟨sub, w⟩ := b
      rcases ih with ih | ih
      · obtain rfl : w = .arr [.null] := ih
        cases hd with
        | item keyword rest => exact Or.inr (List.mem_singleton.mp (List.mem_of_mem_drop rest))
      · obtain rfl : w = .null := ih
        cases hd
  intro q hq properties entries hp hv
  rcases hvalue q hq with h | h <;> rw [hv] at h <;> cases h

/-- The null that the caller's schema accepts is forbidden to the model. -/
theorem missing_row_forbidden :
    Accepts coreLibrary optionalRows.1 (.arr [.null]) ∧
      Complete coreLibrary optionalRows.1 (.arr [.null]) ∧
      ¬Accepts coreLibrary (normalizeForModel optionalRows.1) (.arr [.null]) :=
  ⟨by decide +kernel, complete_missing_row, by decide +kernel⟩

/-- The theorem on that answer. -/
theorem missing_row_accepted_iff :
    Accepts coreLibrary (normalizeForModel optionalRows.1) (.arr [.null]) ↔
      KeepsTypes (false, optionalRows.1, .arr [.null]) :=
  model_schema_accepts_iff coreLibrary optionalRows (by decide) (.arr [.null]) (by decide +kernel)
    complete_missing_row

end InternumCore
