import InternumCore.Postprocess

/-!
# Normalizing accepted data

The data is validated first and normalized afterwards, and not validated again.
`normalizeNode_valid_iff` says what that does to a value the schema accepted:
it remains accepted exactly when, at every node the rewriting comes to, the
`enum` and the `minLength` of that node admit what the node has become
(`KeepsConstraints`).  All other keywords look at the kinds of the values, at
keys and at lengths of arrays, which the rewriting leaves alone.
-/

namespace InternumCore
open JsonSchema

/-! ## What the rewriting comes to -/

/-- One step of the rewriting from a value and its schema to a value in it. -/
inductive Rewrites : Json × Json → Json × Json → Prop where
  | property {fields properties entries : List (String × Json)} {name : String} {sub v : Json}
      (keyword : fields.lookup "properties" = some (.obj properties))
      (declared : (name, sub) ∈ properties) (present : entries.lookup name = some v) :
      Rewrites (.obj fields, .obj entries) (sub, v)
  | item {fields sub : List (String × Json)} {items : List Json} {v : Json}
      (keyword : fields.lookup "items" = some (.obj sub)) (mem : v ∈ items) :
      Rewrites (.obj fields, .arr items) (.obj sub, v)

/-- The node's own `enum` and `minLength` admit the rewritten value. -/
def AdmitsRewritten (schema value : Json) : Prop :=
  (∀ options, schema.get? "enum" = some options →
    enumVerdict options (normalizeNode value schema) = .valid) ∧
  ∀ bound, schema.get? "minLength" = some bound →
    minLengthVerdict bound (normalizeNode value schema) = .valid

/-- Every node the rewriting comes to admits what it has become. -/
def KeepsConstraints (schema value : Json) : Prop :=
  ∀ q, Relation.ReflTransGen Rewrites (schema, value) q → AdmitsRewritten q.1 q.2

theorem keepsConstraints_iff {schema value : Json} :
    KeepsConstraints schema value ↔ AdmitsRewritten schema value ∧
      ∀ q, Rewrites (schema, value) q → KeepsConstraints q.1 q.2 := by
  constructor
  · intro h
    exact ⟨h _ .refl, fun q hq r hr => h r (.head hq hr)⟩
  · intro p q hq
    obtain ⟨h, hdown⟩ := p
    rcases Relation.ReflTransGen.cases_head hq with rfl | ⟨r, hr, hq⟩
    · exact h
    · exact hdown r hr q hq

/-- A schema over the modelled keywords, without references. -/
def modelledOnly (schema : Json) : Bool :=
  allNodes (fun fields => fields.all fun p =>
    match Keyword.ofName p.1 with
    | none => false
    | some .ref => false
    | some _ => true) schema

section

variable {lib : Library} {root : Json} {depth : Nat} {fields : List (String × Json)}

theorem ofName_of_modelledOnly (h : modelledOnly (.obj fields) = true) {name : String}
    {value : Json} (hm : (name, value) ∈ fields) :
    ∃ keyword, Keyword.ofName name = some keyword ∧ keyword ≠ .ref := by
  have hp := List.all_eq_true.mp (allNodes_obj h) _ hm
  dsimp only at hp
  split at hp
  · cases hp
  · cases hp
  · next keyword hne hk => exact ⟨keyword, hk, hne⟩

theorem prefixLength_of_modelledOnly (h : modelledOnly (.obj fields) = true) :
    prefixLength fields = 0 := by
  unfold prefixLength
  split
  · next items hi =>
    obtain ⟨keyword, hk, _⟩ := ofName_of_modelledOnly h (Dict.mem_of_lookup hi)
    cases hk
  · rfl

/-- The rewriting goes where the validation goes. -/
theorem Rewrites.descends (hmod : modelledOnly (.obj fields) = true) {v : Json} {q : Json × Json}
    (h : Rewrites (.obj fields, v) q) : Descends lib (.obj fields, v) q := by
  cases h with
  | property keyword declared present =>
    exact .property (Dict.mem_of_lookup keyword) declared present
  | item keyword mem =>
    refine .item (Dict.mem_of_lookup keyword) ?_
    rwa [prefixLength_of_modelledOnly hmod]

/-- After the rewriting the validation meets the rewritten value. -/
theorem Rewrites.descends_rewritten (hkeys : Json.uniqueKeys (.obj fields) = true)
    (hmod : modelledOnly (.obj fields) = true) {v sub w : Json}
    (h : Rewrites (.obj fields, v) (sub, w)) :
    Descends lib (.obj fields, normalizeNode v (.obj fields)) (sub, normalizeNode w sub) := by
  cases h with
  | @property _ properties entries name _ _ keyword declared present =>
    have hunique := (Json.uniqueKeys_obj_iff.mp hkeys).2 _ _ (Dict.mem_of_lookup keyword)
    rw [normalizeNode_eq]
    dsimp only
    rw [keyword]
    refine .property (Dict.mem_of_lookup keyword) declared ?_
    rw [Dict.lookup_modifyEach (Json.uniqueKeys_obj_iff.mp hunique).1 declared, present]
    rfl
  | @item _ sub items _ keyword mem =>
    rw [normalizeNode_eq]
    dsimp only
    rw [keyword]
    refine .item (Dict.mem_of_lookup keyword) ?_
    rw [prefixLength_of_modelledOnly hmod]
    exact List.mem_map.mpr ⟨w, mem, rfl⟩

theorem Rewrites.uniqueKeys (hkeys : Json.uniqueKeys (.obj fields) = true) {v : Json}
    {q : Json × Json} (h : Rewrites (.obj fields, v) q) : q.1.uniqueKeys = true := by
  have hsub := (Json.uniqueKeys_obj_iff.mp hkeys).2
  cases h with
  | property keyword declared present =>
    have hunique := hsub _ _ (Dict.mem_of_lookup keyword)
    exact (Json.uniqueKeys_obj_iff.mp hunique).2 _ _ declared
  | item keyword mem => exact hsub _ _ (Dict.mem_of_lookup keyword)

/-! ## What the rewriting leaves alone -/

/-- The rewriting changes no value's kind. -/
theorem isType_normalizeNode (v schema : Json) (name : String) :
    isType (normalizeNode v schema) name = isType v name := by
  cases schema with
  | obj fields =>
    rw [normalizeNode_eq]
    cases v with
    | obj entries => dsimp only; split <;> rfl
    | arr items => dsimp only; split <;> rfl
    | _ => rfl
  | _ => rw [normalizeNode_not_object (by simp)]

theorem typeVerdict_normalizeNode (value v schema : Json) :
    typeVerdict value (normalizeNode v schema) = typeVerdict value v := by
  have hany (names : List Json) : anyType (normalizeNode v schema) names = anyType v names := by
    induction names with
    | nil => rfl
    | cons name names ih =>
      cases name with
      | str name => rw [anyType, anyType, isType_normalizeNode, ih]
      | _ => rfl
  cases value with
  | str name => exact hany _
  | arr names => exact hany _
  | _ => rfl

/-- The entries of a rewritten object, if its schema declares properties. -/
theorem normalizeNode_entries (fields entries : List (String × Json)) :
    ∃ entries', normalizeNode (.obj entries) (.obj fields) = .obj entries' ∧
      Dict.keys entries' = Dict.keys entries ∧
      ∀ lib, additionalEntries lib fields entries' = additionalEntries lib fields entries := by
  rw [normalizeNode_eq]
  dsimp only
  split
  · next properties hp =>
    refine ⟨_, rfl, Dict.keys_modifyEach _ _, fun lib => ?_⟩
    unfold additionalEntries
    rw [hp]
    refine Dict.filter_modifyEach (fun k hk v => ?_) entries
    simp [hk]
  · exact ⟨entries, rfl, rfl, fun _ => rfl⟩

theorem requiredVerdict_normalizeNode (value v : Json) :
    requiredVerdict value (normalizeNode v (.obj fields)) = requiredVerdict value v := by
  cases v with
  | obj entries =>
    obtain ⟨entries', he, hkeys, -⟩ := normalizeNode_entries fields entries
    have hlookup (name : String) : (entries'.lookup name).isSome = (entries.lookup name).isSome := by
      rw [Bool.eq_iff_iff, Option.isSome_iff_ne_none, Option.isSome_iff_ne_none, Ne, Ne,
        Dict.lookup_eq_none_iff, Dict.lookup_eq_none_iff, hkeys]
    rw [he]
    unfold requiredVerdict
    cases value with
    | arr names => simp only [hlookup]
    | _ => rfl
  | arr items =>
    rw [normalizeNode_eq]
    dsimp only
    split <;> rfl
  | str s =>
    rw [normalizeNode_eq]
    cases value <;> rfl
  | _ => rw [normalizeNode_eq]

theorem additionalVerdict_normalizeNode (descend : Json → Json → Verdict) (value v : Json) :
    additionalVerdict lib descend fields value (normalizeNode v (.obj fields)) =
      additionalVerdict lib descend fields value v := by
  cases v with
  | obj entries =>
    obtain ⟨entries', he, -, hextra⟩ := normalizeNode_entries fields entries
    rw [he]
    unfold additionalVerdict
    dsimp only
    rw [hextra]
  | arr items =>
    rw [normalizeNode_eq]
    dsimp only
    split <;> rfl
  | str s =>
    rw [normalizeNode_eq]
    rfl
  | _ => rw [normalizeNode_eq]

/-! ## Acceptance after the rewriting -/

/-- What the properties accept after the rewriting. -/
theorem propertiesVerdict_normalizeNode {descend : Json → Json → Verdict}
    (hkeys : Json.uniqueKeys (.obj fields) = true) {value v : Json}
    (hkeyword : ("properties", value) ∈ fields)
    (hvalid : propertiesVerdict descend value v = .valid)
    (hdown : ∀ sub w, Rewrites (.obj fields, v) (sub, w) →
      descend sub (normalizeNode w sub) = .valid) :
    propertiesVerdict descend value (normalizeNode v (.obj fields)) = .valid := by
  have hkeys' := Json.uniqueKeys_obj_iff.mp hkeys
  have hp := Dict.lookup_of_mem hkeys'.1 hkeyword
  rw [normalizeNode_eq]
  cases v with
  | obj entries =>
    cases value with
    | obj properties =>
      have hnodup := (Json.uniqueKeys_obj_iff.mp (hkeys'.2 _ _ hkeyword)).1
      dsimp only
      rw [hp]
      refine first_map_eq_valid fun p hm => ?_
      rw [Dict.lookup_modifyEach hnodup hm]
      cases hv : entries.lookup p.1 with
      | none => rfl
      | some w => exact hdown p.2 w (.property hp hm hv)
    | _ => cases hvalid
  | arr items =>
    dsimp only
    split <;> rfl
  | _ => exact hvalid

/-- What the items accept after the rewriting. -/
theorem itemsVerdict_normalizeNode {descend : Json → Json → Verdict}
    (hkeys : Json.uniqueKeys (.obj fields) = true) (hmod : modelledOnly (.obj fields) = true)
    {value v : Json} (hkeyword : ("items", value) ∈ fields)
    (hvalid : itemsVerdict descend fields value v = .valid)
    (hdown : ∀ sub w, Rewrites (.obj fields, v) (sub, w) →
      descend sub (normalizeNode w sub) = .valid) :
    itemsVerdict descend fields value (normalizeNode v (.obj fields)) = .valid := by
  have hi := Dict.lookup_of_mem (Json.uniqueKeys_obj_iff.mp hkeys).1 hkeyword
  rw [normalizeNode_eq]
  cases v with
  | arr items =>
    dsimp only
    rw [hi]
    cases value with
    | obj sub =>
      unfold itemsVerdict
      rw [prefixLength_of_modelledOnly hmod]
      dsimp only
      rw [List.drop_zero]
      refine first_map_eq_valid fun w' hw' => ?_
      obtain ⟨w, hw, rfl⟩ := List.mem_map.mp hw'
      exact hdown _ w (.item hi hw)
    | _ => exact hvalid
  | obj entries =>
    dsimp only
    split <;> rfl
  | _ => exact hvalid

/-- **Normalizing accepted data.**  A value the schema accepted is accepted after
the rewriting exactly when every node the rewriting comes to admits what it has
become. -/
theorem normalizeNode_valid_iff {schema v : Json} (hkeys : schema.uniqueKeys = true)
    (hmod : modelledOnly schema = true) (hvalid : verdict lib root depth schema v = .valid) :
    verdict lib root depth schema (normalizeNode v schema) = .valid ↔
      KeepsConstraints schema v := by
  -- the depth of the verdict, since the rewriting goes where the validation goes
  induction depth generalizing schema v with
  | zero => cases hvalid
  | succ depth ih =>
    cases schema with
    | obj fields =>
      have hnodup := (Json.uniqueKeys_obj_iff.mp hkeys).1
      have hchild {sub w : Json} (h : Rewrites (.obj fields, v) (sub, w)) :
          verdict lib root depth sub (normalizeNode w sub) = .valid ↔ KeepsConstraints sub w := by
        have hd : Descends lib (.obj fields, v) (sub, w) := h.descends hmod
        exact ih (h.uniqueKeys hkeys) (allNodes_of_descends hd hmod) (valid_of_descends hd hvalid)
      have hkey := verdict_obj_valid_iff.mp hvalid
      rw [keepsConstraints_iff]
      constructor
      · intro h
        have hk := verdict_obj_valid_iff.mp h
        refine ⟨⟨fun options ho => hk _ _ (Dict.mem_of_lookup ho),
          fun bound hb => hk _ _ (Dict.mem_of_lookup hb)⟩, ?_⟩
        intro p hr
        obtain ⟨sub, w⟩ := p
        exact (hchild hr).mp (valid_of_descends (hr.descends_rewritten hkeys hmod) h)
      · intro hp
        obtain ⟨⟨henum, hmin⟩, hdown⟩ := hp
        have hdown' (sub w : Json) (hr : Rewrites (.obj fields, v) (sub, w)) :
            verdict lib root depth sub (normalizeNode w sub) = .valid :=
          (hchild hr).mpr (hdown _ hr)
        refine verdict_obj_valid_iff.mpr fun name value hm => ?_
        have hbefore := hkey name value hm
        obtain ⟨keyword, hk, hne⟩ := ofName_of_modelledOnly hmod hm
        -- of the node's own keywords only `enum` and `minLength` see the rewriting
        unfold keywordVerdict at hbefore ⊢
        rw [hk] at hbefore ⊢
        cases keyword with
        | type => exact (typeVerdict_normalizeNode value v _).trans hbefore
        | properties =>
          obtain rfl := Keyword.name_of_ofName hk (by decide)
          exact propertiesVerdict_normalizeNode hkeys hm hbefore hdown'
        | required => exact (requiredVerdict_normalizeNode value v).trans hbefore
        | additionalProperties =>
          exact (additionalVerdict_normalizeNode _ value v).trans hbefore
        | items =>
          obtain rfl := Keyword.name_of_ofName hk (by decide)
          exact itemsVerdict_normalizeNode hkeys hmod hm hbefore hdown'
        | enum =>
          obtain rfl := Keyword.name_of_ofName hk (by decide)
          exact henum value (Dict.lookup_of_mem hnodup hm)
        | minLength =>
          obtain rfl := Keyword.name_of_ofName hk (by decide)
          exact hmin value (Dict.lookup_of_mem hnodup hm)
        | ref => exact absurd rfl hne
        | unchecked => rfl
    | _ =>
      -- a schema that is no object rewrites nothing and constrains nothing
      rw [normalizeNode_not_object (by simp)]
      refine ⟨fun _ => ?_, fun _ => hvalid⟩
      rw [keepsConstraints_iff]
      refine ⟨⟨fun _ h => (by cases h), fun _ h => (by cases h)⟩, fun q hq => ?_⟩
      cases hq

end

end InternumCore
