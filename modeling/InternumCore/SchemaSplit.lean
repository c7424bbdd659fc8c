import InternumCore.ChunkMerge
import InternumCore.Validator

/-!
# The schemas of the parts

A chunk is asked for under a schema of its own, an object that holds only the row
array, and the other properties are asked for under a summary schema.  Both are
built from fragments of the caller's schema at a new root.

`assembled_parts_valid`: if the caller's schema constrains its root by the shape
of the object alone and holds no reference, then what the parts accept assembles
into what the whole accepts, whatever the items are asked to be.

`split_schemas_accept_iff`: a reference into `$defs` does not survive the move.
The definitions stay behind, so a row that the caller's schema accepts is accepted
by the chunk schema exactly when its validation meets no reference.
-/

namespace InternumCore
namespace Chunking
open JsonSchema

/-! ## Where the row array stands -/

theorem rowArrayAt_eq_some {name : String} {subschema : Json} {location : RowArrayLocation}
    (h : rowArrayAt name subschema = some location) :
    location.propertyName = name ∧ ∃ fields items, subschema = .obj fields ∧
      fields.lookup "type" = some (.str "array") ∧ fields.lookup "items" = some (.obj items) ∧
      location.itemSchema = .obj items := by
  unfold rowArrayAt at h
  split at h
  · next fields =>
    split at h
    · cases h
    · next htype =>
      split at h
      · next items hitems =>
        split at h
        · cases h
          exact ⟨rfl, fields, items, rfl, not_not.mp htype, hitems, rfl⟩
        · cases h
      · cases h
  · cases h

theorem locateRowArray_eq_some {schema : Json} {location : RowArrayLocation}
    (h : locateRowArray schema = some location) :
    ∃ fields properties, schema = .obj fields ∧
      fields.lookup "properties" = some (.obj properties) ∧
      ∃ array items, (location.propertyName, .obj array) ∈ properties ∧
        array.lookup "type" = some (.str "array") ∧ array.lookup "items" = some (.obj items) ∧
        location.itemSchema = .obj items := by
  unfold locateRowArray at h
  split at h
  · next properties hp =>
    cases schema with
    | obj fields =>
      split at h
      · next loc hloc =>
        cases h
        have hmem : location ∈ properties.filterMap (fun p => rowArrayAt p.1 p.2) := by
          rw [hloc]
          exact List.mem_singleton_self _
        obtain ⟨p, hp', hat⟩ := List.mem_filterMap.mp hmem
        obtain ⟨hname, array, items, hsub, htype, hitems, hitem⟩ := rowArrayAt_eq_some hat
        refine ⟨fields, properties, rfl, hp, array, items, ?_, htype, hitems, hitem⟩
        rw [hname, ← hsub]
        exact hp'
      · cases h
    | _ => cases hp
  · cases h

theorem mem_otherProperties {fields properties : List (String × Json)}
    {location : RowArrayLocation} (hp : fields.lookup "properties" = some (.obj properties))
    {name : String} {sub : Json} :
    (name, sub) ∈ otherProperties (.obj fields) location ↔
      (name, sub) ∈ properties ∧ name ≠ location.propertyName := by
  simp [otherProperties, hp]

/-! ## What the parts accept -/

section Accepts

variable {lib : Library} {root : Json} {depth : Nat}

theorem typeVerdict_object {inst : Json} :
    typeVerdict (.str "object") inst = .valid ↔ ∃ entries, inst = .obj entries := by
  refine typeVerdict_str_iff.trans ?_
  show some inst.isObject = some true ↔ _
  cases inst <;> simp [Json.isObject]

theorem typeVerdict_array {inst : Json} :
    typeVerdict (.str "array") inst = .valid ↔ ∃ items, inst = .arr items := by
  refine typeVerdict_str_iff.trans ?_
  cases inst with
  | arr items => exact ⟨fun _ => ⟨items, rfl⟩, fun _ => rfl⟩
  | _ => exact ⟨fun h => (by cases h), fun ⟨_, h⟩ => (by cases h)⟩

theorem propertiesVerdict_valid_iff {descend : Json → Json → Verdict}
    {properties entries : List (String × Json)} :
    propertiesVerdict descend (.obj properties) (.obj entries) = .valid ↔
      ∀ name sub, (name, sub) ∈ properties → ∀ v, entries.lookup name = some v →
        descend sub v = .valid := by
  unfold propertiesVerdict
  constructor
  · intro h name sub hm v hv
    have hp := valid_of_mem_first_map h hm
    rwa [hv] at hp
  · intro h
    refine first_map_eq_valid fun p hp => ?_
    cases hv : entries.lookup p.1 with
    | none => rfl
    | some v => exact h p.1 p.2 hp v hv

theorem requiredVerdict_valid_iff {names : List String} {entries : List (String × Json)} :
    requiredVerdict (.arr (names.map .str)) (.obj entries) = .valid ↔
      ∀ name ∈ names, name ∈ Dict.keys entries := by
  have hkey (name : String) : (entries.lookup name).isSome = true ↔ name ∈ Dict.keys entries := by
    rw [Option.isSome_iff_ne_none, Ne, Dict.lookup_eq_none_iff, not_not]
  unfold requiredVerdict
  simp only [List.map_map, Verdict.first_eq_valid_iff, List.mem_map, forall_exists_index, and_imp,
    forall_apply_eq_imp_iff₂, Function.comp_apply, Verdict.ofBool_eq_valid_iff, hkey]

theorem mem_keys_of_additionalEntries {fields properties entries : List (String × Json)}
    (hp : fields.lookup "properties" = some (.obj properties))
    (hpattern : fields.lookup "patternProperties" = none)
    (h : additionalEntries lib fields entries = []) {name : String}
    (hn : name ∈ Dict.keys entries) : name ∈ Dict.keys properties := by
  obtain ⟨p, hm, rfl⟩ := List.mem_map.mp hn
  have hno := List.filter_eq_nil_iff.mp h p hm
  simpa [hp, hpattern] using hno

theorem itemsVerdict_valid_iff {descend : Json → Json → Verdict}
    {fields items : List (String × Json)} {rows : List Json}
    (hstarts : fields.lookup "prefixItems" = none) :
    itemsVerdict descend fields (.obj items) (.arr rows) = .valid ↔
      ∀ row ∈ rows, descend (.obj items) row = .valid := by
  unfold itemsVerdict prefixLength
  rw [hstarts]
  exact ⟨fun h row hr => valid_of_mem_first_map h hr, first_map_eq_valid⟩

/-- A closed object with declared properties, all of them required. -/
theorem summarySchemaOf_valid_iff {others : List (String × Json)} {inst : Json} :
    verdict lib root (depth + 1) (summarySchemaOf others) inst = .valid ↔
      ∃ entries, inst = .obj entries ∧
        (∀ name, name ∈ Dict.keys entries ↔ name ∈ Dict.keys others) ∧
        ∀ name sub, (name, sub) ∈ others → ∀ v, entries.lookup name = some v →
          verdict lib root depth sub v = .valid := by
  constructor
  · intro h
    have hk := verdict_obj_valid_iff.mp h
    have htype : typeVerdict (.str "object") inst = .valid := hk "type" _ List.mem_cons_self
    obtain ⟨entries, rfl⟩ := typeVerdict_object.mp htype
    have hprops : propertiesVerdict (verdict lib root depth) (.obj others) (.obj entries) = .valid :=
      hk "properties" (.obj others) (by simp)
    have hreq : requiredVerdict (.arr ((Dict.keys others).map .str)) (.obj entries) = .valid :=
      hk "required" (.arr ((Dict.keys others).map .str)) (by simp)
    have hclosed := List.isEmpty_iff.mp
      (Verdict.ofBool_eq_valid_iff.mp (hk "additionalProperties" (.bool false) (by simp)))
    refine ⟨entries, rfl, fun name => ⟨fun hn => ?_, requiredVerdict_valid_iff.mp hreq name⟩,
      propertiesVerdict_valid_iff.mp hprops⟩
    exact mem_keys_of_additionalEntries rfl rfl hclosed hn
  · intro hr
    obtain ⟨entries, rfl, hkeys, hprops⟩ := hr
    refine verdict_obj_valid_iff.mpr fun name value hm => ?_
    simp only [List.mem_cons, Prod.mk.injEq, List.not_mem_nil, or_false] at hm
    rcases hm with ⟨rfl, rfl⟩ | ⟨rfl, rfl⟩ | ⟨rfl, rfl⟩ | ⟨rfl, rfl⟩
    · exact typeVerdict_object.mpr ⟨entries, rfl⟩
    · exact propertiesVerdict_valid_iff.mpr hprops
    · exact requiredVerdict_valid_iff.mpr fun name hn => (hkeys name).mpr hn
    · refine Verdict.ofBool_eq_valid_iff.mpr (List.isEmpty_iff.mpr ?_)
      exact additionalEntries_eq_nil rfl fun name hn => (hkeys name).mp hn

theorem rowArray_valid_iff {items : List (String × Json)} {inst : Json} :
    verdict lib root (depth + 1) (.obj [("type", .str "array"), ("items", .obj items)]) inst =
        .valid ↔
      ∃ rows, inst = .arr rows ∧ ∀ row ∈ rows, verdict lib root depth (.obj items) row = .valid := by
  constructor
  · intro h
    have hk := verdict_obj_valid_iff.mp h
    have htype : typeVerdict (.str "array") inst = .valid := hk "type" _ List.mem_cons_self
    obtain ⟨rows, rfl⟩ := typeVerdict_array.mp htype
    have hitems : itemsVerdict (verdict lib root depth)
        [("type", .str "array"), ("items", .obj items)] (.obj items) (.arr rows) = .valid :=
      hk "items" (.obj items) (by simp)
    exact ⟨rows, rfl, (itemsVerdict_valid_iff rfl).mp hitems⟩
  · intro hr
    obtain ⟨rows, rfl, hrows⟩ := hr
    refine verdict_obj_valid_iff.mpr fun name value hm => ?_
    simp only [List.mem_cons, Prod.mk.injEq, List.not_mem_nil, or_false] at hm
    rcases hm with ⟨rfl, rfl⟩ | ⟨rfl, rfl⟩
    · exact typeVerdict_array.mpr ⟨rows, rfl⟩
    · exact (itemsVerdict_valid_iff rfl).mpr hrows

/-- The chunk schema accepts an object that holds the array of accepted rows and
nothing else. -/
theorem chunkSchemaOf_valid_iff {location : RowArrayLocation} {items : List (String × Json)}
    (hitem : location.itemSchema = .obj items) {inst : Json} :
    verdict lib root (depth + 2) (chunkSchemaOf location) inst = .valid ↔
      ∃ entries rows, inst = .obj entries ∧
        entries.lookup location.propertyName = some (.arr rows) ∧
        (∀ name ∈ Dict.keys entries, name = location.propertyName) ∧
        ∀ row ∈ rows, verdict lib root depth (.obj items) row = .valid := by
  have hshape : chunkSchemaOf location = summarySchemaOf
      [(location.propertyName, .obj [("type", .str "array"), ("items", .obj items)])] := by
    rw [chunkSchemaOf, hitem]
    rfl
  rw [hshape, summarySchemaOf_valid_iff]
  constructor
  · intro h
    obtain ⟨entries, rfl, hkeys, hprops⟩ := h
    obtain ⟨v, hv⟩ := Dict.exists_lookup ((hkeys location.propertyName).mpr (by simp))
    obtain ⟨rows, rfl, hrows⟩ := rowArray_valid_iff.mp (hprops _ _ List.mem_cons_self v hv)
    exact ⟨entries, rows, rfl, hv, fun name hn => by simpa using (hkeys name).mp hn, hrows⟩
  · intro h
    obtain ⟨entries, rows, rfl, hv, hkeys, hrows⟩ := h
    refine ⟨entries, rfl, fun name => ?_, fun name sub hm v hv' => ?_⟩
    · rw [Dict.keys_cons, Dict.keys_nil, List.mem_singleton]
      refine ⟨hkeys name, ?_⟩
      rintro rfl
      exact Dict.mem_keys_of_lookup hv
    · rw [List.mem_singleton] at hm
      cases hm
      rw [hv] at hv'
      cases hv'
      exact rowArray_valid_iff.mpr ⟨rows, rfl, hrows⟩

end Accepts

/-! ## Schemas without references -/

/-- No object in the schema has a key that refers to another place. -/
def refFree (schema : Json) : Bool :=
  schema.allKeys (fun key => key != "$ref" && key != "$dynamicRef")

/-- Only references make a keyword depend on the document it stands in. -/
def KeywordsLocal (lib : Library) : Prop :=
  ∀ root root' fields name value inst, refFree (.obj fields) = true → (name, value) ∈ fields →
    Keyword.ofName name = none →
    lib.keyword root name value fields inst = lib.keyword root' name value fields inst

section RefFree

variable {lib : Library}

theorem refFree_of_mem {fields : List (String × Json)} (h : refFree (.obj fields) = true)
    {name : String} {value : Json} (hm : (name, value) ∈ fields) : refFree value = true :=
  (Json.allKeys_obj_iff.mp h name value hm).2

theorem refFree_of_descends {p q : Json × Json} (hd : Descends lib p q)
    (h : refFree p.1 = true) : refFree q.1 = true := by
  cases hd with
  | property keyword declared present => exact refFree_of_mem (refFree_of_mem h keyword) declared
  | additional keyword extra => exact refFree_of_mem h keyword
  | item keyword rest => exact refFree_of_mem h keyword

theorem refFree_of_visits {p q : Json × Json} (hv : Visits lib p q)
    (h : refFree p.1 = true) : refFree q.1 = true := by
  induction hv with
  | refl => exact h
  | tail _ hd ih => exact refFree_of_descends hd ih

/-- A schema without references means the same in every document. -/
theorem verdict_eq_of_refFree (hlocal : KeywordsLocal lib) {schema : Json}
    (hfree : refFree schema = true) (root root' : Json) (depth : Nat) (inst : Json) :
    verdict lib root depth schema inst = verdict lib root' depth schema inst := by
  refine verdict_congr depth fun q hq => ?_
  have hq := refFree_of_visits hq hfree
  rintro fields hf name value hm
  rw [hf] at hq
  refine ⟨fun hn => ?_, hlocal root root' fields name value q.2 hq hm⟩
  obtain rfl := Keyword.name_of_ofName hn (by decide)
  have hkey := (Json.allKeys_obj_iff.mp hq _ value hm).1
  revert hkey
  decide

end RefFree

/-! ## Assembling -/

/-- The root asks for the shape of an object only: it is an object, requires no
undeclared property, and its row array is asked for its items only. -/
structure ShapedRoot (schema : Json) (arrayName : String) : Prop where
  keywords : ∀ name value, schema.get? name = some value →
    name ∈ ["type", "properties", "required", "additionalProperties"]
  object : ∀ value, schema.get? "type" = some value → value = .str "object"
  required : ∀ value, schema.get? "required" = some value →
    ∃ names : List String, value = .arr (names.map .str) ∧
    ∀ name ∈ names, ∃ properties, schema.get? "properties" = some (.obj properties) ∧
      name ∈ Dict.keys properties
  array : ∀ properties, schema.get? "properties" = some properties →
    ∀ array, properties.get? arrayName = some array →
      ∀ name value, array.get? name = some value → name = "type" ∨ name = "items"

/-- The summary pass, where there is one, brought an object its schema accepts. -/
def SummaryAccepted (lib : Library) : Option Json → Option Json → Prop
  | some summarySchema, some data => Accepts lib summarySchema data
  | some _, none => False
  | none, summaryData => summaryData = none

instance (lib : Library) (summarySchema summaryData : Option Json) :
    Decidable (SummaryAccepted lib summarySchema summaryData) :=
  match summarySchema, summaryData with
  | some summarySchema, some data => inferInstanceAs (Decidable (Accepts lib summarySchema data))
  | some _, none => inferInstanceAs (Decidable False)
  | none, summaryData => inferInstanceAs (Decidable (summaryData = none))

section Assemble

variable {lib : Library}

/-- Every merged row comes from a chunk that succeeded. -/
theorem mem_mergeChunkRows {outcomes : List ChunkOutcome} {row : Json}
    (h : row ∈ (mergeChunkRows outcomes).1) :
    ∃ outcome ∈ outcomes, ∃ rows, outcome.rows = some rows ∧ row ∈ rows := by
  rw [mergeChunkRows_eq] at h
  obtain ⟨rows, hrows, hr⟩ := (BoundaryJoin.mem_foldl_append h).resolve_left List.not_mem_nil
  obtain ⟨outcome, ho, he⟩ := List.mem_filterMap.mp hrows
  exact ⟨outcome, List.mem_mergeSort.mp ho, rows, he, hr⟩

/-- A shaped root accepts an object whose keys are the declared properties and
whose values the properties accept. -/
theorem shapedRoot_accepts {fields properties entries : List (String × Json)} {arrayName : String}
    {depth : Nat} {root : Json} (hnodup : (Dict.keys fields).Nodup)
    (hroot : ShapedRoot (.obj fields) arrayName)
    (hp : fields.lookup "properties" = some (.obj properties))
    (hkeys : ∀ name, name ∈ Dict.keys entries ↔ name ∈ Dict.keys properties)
    (hvalues : ∀ name sub, (name, sub) ∈ properties → ∀ v, entries.lookup name = some v →
      verdict lib root depth sub v = .valid) :
    verdict lib root (depth + 1) (.obj fields) (.obj entries) = .valid := by
  refine verdict_obj_valid_iff.mpr fun name value hm => ?_
  have hv : (Json.obj fields).get? name = some value := Dict.lookup_of_mem hnodup hm
  have hname := hroot.keywords name value hv
  simp only [List.mem_cons, List.not_mem_nil, or_false] at hname
  rcases hname with rfl | rfl | rfl | rfl
  · rw [hroot.object value hv]
    exact typeVerdict_object.mpr ⟨entries, rfl⟩
  · obtain rfl : Json.obj properties = value := Option.some.inj (hp.symm.trans hv)
    exact propertiesVerdict_valid_iff.mpr hvalues
  · obtain ⟨names, rfl, hnames⟩ := hroot.required value hv
    refine requiredVerdict_valid_iff.mpr fun name hn => ?_
    obtain ⟨properties', hp', hmem⟩ := hnames name hn
    obtain rfl : properties = properties' := by
      simpa using hp.symm.trans hp'
    exact (hkeys name).mpr hmem
  -- every key is declared, so that `additionalProperties` has nothing to check
  · have hextras : additionalEntries lib fields entries = [] :=
      additionalEntries_eq_nil hp fun name hn => (hkeys name).mp hn
    change additionalVerdict lib (verdict lib root depth) fields value (.obj entries) = .valid
    unfold additionalVerdict
    dsimp only
    rw [hextras]
    split
    · rfl
    · simp

/-- What a plan fixes about the caller's schema: its root object, the declared
properties, and the row array among them. -/
theorem schema_of_plan {markdown : String} {schema : JsonValue} {config : ChunkingConfig}
    {plan : ChunkPlan} (hplan : buildChunkPlan markdown schema.1 config = some plan) :
    ∃ fields properties array items, schema.1 = .obj fields ∧ (Dict.keys fields).Nodup ∧
      fields.lookup "properties" = some (.obj properties) ∧ (Dict.keys properties).Nodup ∧
      (plan.arrayLocation.propertyName, .obj array) ∈ properties ∧ (Dict.keys array).Nodup ∧
      array.lookup "type" = some (.str "array") ∧ array.lookup "items" = some (.obj items) ∧
      plan.arrayLocation.itemSchema = .obj items := by
  obtain ⟨_, _, _, hloc, _⟩ := buildChunkPlan_eq_some hplan
  obtain ⟨fields, properties, hf, hp, array, items, hm, htype, hitems, hitem⟩ :=
    locateRowArray_eq_some hloc
  have hwf := schema.2
  rw [hf, Json.wellFormed_obj_iff] at hwf
  have hwfp := Json.wellFormed_obj_iff.mp (hwf.2 _ _ (Dict.mem_of_lookup hp))
  have hwfa := Json.wellFormed_obj_iff.mp (hwfp.2 _ _ hm)
  exact ⟨fields, properties, array, items, hf, hwf.1, hp, hwfp.1, hm, hwfa.1, htype, hitems, hitem⟩

/-- The row array of a shaped root accepts the rows its items accept. -/
theorem rowArray_accepts {array items : List (String × Json)} {rows : List Json} {depth : Nat}
    {root : Json} (hnodup : (Dict.keys array).Nodup)
    (honly : ∀ name value, array.lookup name = some value → name = "type" ∨ name = "items")
    (htype : array.lookup "type" = some (.str "array"))
    (hitems : array.lookup "items" = some (.obj items))
    (hrows : ∀ row ∈ rows, verdict lib root depth (.obj items) row = .valid) :
    verdict lib root (depth + 1) (.obj array) (.arr rows) = .valid := by
  refine verdict_obj_valid_iff.mpr fun name value hm => ?_
  have hv := Dict.lookup_of_mem hnodup hm
  rcases honly name value hv with rfl | rfl
  · rw [htype] at hv
    cases hv
    exact typeVerdict_array.mpr ⟨rows, rfl⟩
  · rw [hitems] at hv
    cases hv
    refine (itemsVerdict_valid_iff ?_).mpr hrows
    refine Dict.lookup_eq_none_iff.mpr fun hn => ?_
    obtain ⟨v, hv⟩ := Dict.exists_lookup hn
    rcases honly _ v hv with h | h <;> exact absurd h (by decide)

theorem keys_otherProperties_sublist {fields properties : List (String × Json)}
    {location : RowArrayLocation} (hp : fields.lookup "properties" = some (.obj properties)) :
    (Dict.keys (otherProperties (.obj fields) location)).Sublist (Dict.keys properties) := by
  simp only [otherProperties, Json.get?_obj, hp]
  exact List.filter_sublist.map Prod.fst

theorem mem_keys_otherProperties {fields properties : List (String × Json)}
    {location : RowArrayLocation} (hp : fields.lookup "properties" = some (.obj properties))
    {name : String} :
    name ∈ Dict.keys (otherProperties (.obj fields) location) ↔
      name ∈ Dict.keys properties ∧ name ≠ location.propertyName := by
  constructor
  · intro h
    obtain ⟨p, hm, rfl⟩ := List.mem_map.mp h
    obtain ⟨hm, hne⟩ := (mem_otherProperties hp).mp hm
    exact ⟨Dict.mem_keys_of_mem hm, hne⟩
  · intro pair
    obtain ⟨h, hne⟩ := pair
    obtain ⟨p, hm, rfl⟩ := List.mem_map.mp h
    exact Dict.mem_keys_of_mem ((mem_otherProperties hp).mpr ⟨hm, hne⟩)

/-- What the summary brings: exactly the other properties, each accepted. -/
theorem summary_entries {others : List (String × Json)} {summarySchema summaryData : Option Json}
    {depth : Nat} (hdepth : lib.depth = depth + 1)
    (hschema : summarySchema = if others.isEmpty then none else some (summarySchemaOf others))
    (hsummary : SummaryAccepted lib summarySchema summaryData) :
    ∃ entries root, summaryFields summaryData = entries ∧
      (∀ name, name ∈ Dict.keys entries ↔ name ∈ Dict.keys others) ∧
      ∀ name sub, (name, sub) ∈ others → ∀ v, entries.lookup name = some v →
        verdict lib root depth sub v = .valid := by
  cases others with
  | nil =>
    subst hschema
    have hnone : summaryData = none := hsummary
    subst hnone
    exact ⟨[], .null, rfl, fun _ => Iff.rfl, fun _ _ hm => absurd hm List.not_mem_nil⟩
  | cons p others =>
    subst hschema
    cases summaryData with
    | none => cases hsummary
    | some data =>
      change verdict lib _ lib.depth _ data = .valid at hsummary
      rw [hdepth] at hsummary
      obtain ⟨entries, rfl, hkeys, hvalues⟩ := summarySchemaOf_valid_iff.mp hsummary
      exact ⟨entries, _, rfl, hkeys, hvalues⟩

/-- A merged row comes from an object the chunk schema accepted, so the item
schema accepts it, in whatever document it stands. -/
theorem mergedRow_valid (hlocal : KeywordsLocal lib) {plan : ChunkPlan}
    {items : List (String × Json)} {depth : Nat} (hdepth : lib.depth = depth + 2)
    (hchunk : plan.chunkSchema = chunkSchemaOf plan.arrayLocation)
    (hitem : plan.arrayLocation.itemSchema = .obj items) (hfree : refFree (.obj items) = true)
    {outcomes : List ChunkOutcome}
    (hrows : ∀ outcome ∈ outcomes, ∀ rows, outcome.rows = some rows → ∃ data,
      Accepts lib plan.chunkSchema data ∧
        data.get? plan.arrayLocation.propertyName = some (.arr rows))
    {root row : Json} (hr : row ∈ (mergeChunkRows outcomes).1) :
    verdict lib root depth (.obj items) row = .valid := by
  obtain ⟨outcome, ho, rows, hor, hr⟩ := mem_mergeChunkRows hr
  obtain ⟨data, hacc, hdata⟩ := hrows outcome ho rows hor
  unfold Accepts at hacc
  rw [hdepth, hchunk] at hacc
  obtain ⟨entries, rows', rfl, hrows', -, hvalid⟩ := (chunkSchemaOf_valid_iff hitem).mp hacc
  rw [Json.get?_obj, hrows'] at hdata
  cases hdata
  rw [verdict_eq_of_refFree hlocal hfree _ (chunkSchemaOf plan.arrayLocation)]
  exact hvalid row hr

end Assemble

/-- **Parts that validate assemble into a whole that validates.**  For a schema
with a shaped root and no reference: let every chunk that succeeded hold the rows
of an object the chunk schema accepts, and let the summary be accepted by the
summary schema.  Then the caller's schema accepts the assembled object, so the
final validation returns it. -/
theorem assembled_parts_valid (lib : Library) (hlocal : KeywordsLocal lib) (markdown : String)
    (schema : JsonValue) (config : ChunkingConfig) (plan : ChunkPlan)
    (hplan : buildChunkPlan markdown schema.1 config = some plan)
    (hroot : ShapedRoot schema.1 plan.arrayLocation.propertyName)
    (hfree : refFree schema.1 = true) (outcomes : List ChunkOutcome)
    (hrows : ∀ outcome ∈ outcomes, ∀ rows, outcome.rows = some rows → ∃ data,
      Accepts lib plan.chunkSchema data ∧
        data.get? plan.arrayLocation.propertyName = some (.arr rows))
    (summaryData : Option Json)
    (hsummary : SummaryAccepted lib plan.summarySchema summaryData) :
    Accepts lib schema.1 (assembleResult plan (mergeChunkRows outcomes).1 summaryData) ∧
      (lib.checkSchema schema.1 = none →
        validateAgainstOriginal lib
          (assembleResult plan (mergeChunkRows outcomes).1 summaryData) schema.1 =
            .ok (assembleResult plan (mergeChunkRows outcomes).1 summaryData)) := by
  suffices h : Accepts lib schema.1
      (assembleResult plan (mergeChunkRows outcomes).1 summaryData) from
    ⟨h, fun hc => validateAgainstOriginal_eq_ok_iff.mpr ⟨hc, h, rfl⟩⟩
  obtain ⟨fields, properties, array, items, hf, hfields, hp, hproperties, harray, hnodup, htype,
    hitems, hitem⟩ := schema_of_plan hplan
  obtain ⟨_, _, _, _, hchunk, hsum, _, _⟩ := buildChunkPlan_eq_some hplan
  obtain ⟨depth, hdepth⟩ := Nat.exists_eq_add_of_le' lib.two_le_depth
  rw [hf] at hroot hfree hsum ⊢
  have hfreep := refFree_of_mem hfree (Dict.mem_of_lookup hp)
  have hfreei := refFree_of_mem (refFree_of_mem hfreep harray) (Dict.mem_of_lookup hitems)
  obtain ⟨entries, sroot, he, hkeys, hvalues⟩ := summary_entries hdepth hsum hsummary
  have hrow : ∀ row ∈ (mergeChunkRows outcomes).1,
      verdict lib (.obj fields) depth (.obj items) row = .valid :=
    fun row hr => mergedRow_valid hlocal hdepth hchunk hitem hfreei hrows hr
  unfold Accepts assembleResult
  rw [hdepth, he]
  refine shapedRoot_accepts hfields hroot hp (fun name => ?_) fun name sub hm v hv => ?_
  -- the keys of the whole are the row array and the keys of the summary
  · rw [Dict.mem_keys_set, hkeys, mem_keys_otherProperties hp]
    by_cases hname : name = plan.arrayLocation.propertyName
    · subst hname
      simp [Dict.mem_keys_of_mem harray]
    · simp [hname]
  · by_cases hname : name = plan.arrayLocation.propertyName
    · subst hname
      rw [Dict.lookup_set_self] at hv
      cases hv
      obtain rfl : Json.obj array = sub := Option.some.inj
        ((Dict.lookup_of_mem hproperties harray).symm.trans (Dict.lookup_of_mem hproperties hm))
      exact rowArray_accepts hnodup (hroot.array _ hp _ (Dict.lookup_of_mem hproperties harray))
        htype hitems hrow
    · rw [Dict.lookup_set_ne hname] at hv
      rw [verdict_eq_of_refFree hlocal (refFree_of_mem hfreep hm) _ sroot]
      exact hvalues name sub ((mem_otherProperties hp).mpr ⟨hm, hname⟩) v hv

/-! ### The theorem on a table with a summary and a failed chunk -/

/-- Rows that show their line, and the owner of the account. -/
def accountSchema : Json :=
  .obj [("type", .str "object"),
    ("properties", .obj [
      ("rows", .obj [("type", .str "array"),
        ("items", .obj [("type", .str "object"),
          ("properties", .obj [("line", .obj [("type", .str "string")])]),
          ("required", .arr [.str "line"])])]),
      ("owner", .obj [("type", .str "string")])]),
    ("required", .arr [.str "rows", .str "owner"]),
    ("additionalProperties", .bool false)]

def ownedPlan : ChunkPlan :=
  (buildChunkPlan accountMarkdown accountSchema ledgerConfig).get (by decide +kernel)

/-- The chunk in the middle fails, the others are answered by the rows that show their
lines. -/
def ownedOutcomes : List ChunkOutcome :=
  ownedPlan.chunks.map (answer lineRow (· == 2) fun _ => some "boom")

theorem shapedRoot_account : ShapedRoot accountSchema "rows" where
  keywords name value h := by
    have hm := Dict.mem_of_lookup h
    simp only [List.mem_cons, Prod.mk.injEq, List.not_mem_nil, or_false] at hm
    rcases hm with hm | hm | hm | hm <;> simp [hm.1]
  object value h := by
    cases h
    rfl
  required value h := by
    cases h
    refine ⟨["rows", "owner"], rfl, fun name hname => ⟨_, rfl, ?_⟩⟩
    exact hname
  array properties hp array ha name value h := by
    cases hp
    cases ha
    have hm := Dict.mem_of_lookup h
    simp only [List.mem_cons, Prod.mk.injEq, List.not_mem_nil, or_false] at hm
    exact hm.imp And.left And.left

theorem rows_of_ownedOutcomes : ∀ outcome ∈ ownedOutcomes, ∀ rows ∈ outcome.rows,
    Accepts coreLibrary ownedPlan.chunkSchema (.obj [("rows", .arr rows)]) := by
  decide +kernel

def ownedResult : Json :=
  assembleResult ownedPlan (mergeChunkRows ownedOutcomes).1 (some (.obj [("owner", .str "Ada")]))

/-- The answers to four chunks of five and the summary assemble into an object that
passes the final validation. -/
theorem assembled_account_valid :
    Accepts coreLibrary accountSchema ownedResult ∧
      validateAgainstOriginal coreLibrary ownedResult accountSchema = .ok ownedResult := by
  have hname : ownedPlan.arrayLocation.propertyName = "rows" := by decide +kernel
  have hrows (outcome : ChunkOutcome) (ho : outcome ∈ ownedOutcomes) (rows : List Json)
      (hr : outcome.rows = some rows) : ∃ data, Accepts coreLibrary ownedPlan.chunkSchema data ∧
        data.get? ownedPlan.arrayLocation.propertyName = some (.arr rows) := by
    refine ⟨.obj [("rows", .arr rows)], rows_of_ownedOutcomes outcome ho rows hr, ?_⟩
    rw [hname]
    rfl
  obtain ⟨haccepts, hvalidates⟩ := assembled_parts_valid coreLibrary
    (fun _ _ _ _ _ _ _ _ _ => rfl) accountMarkdown ⟨accountSchema, by decide⟩ ledgerConfig
    ownedPlan (Option.some_get _).symm (hname ▸ shapedRoot_account) (by decide) ownedOutcomes hrows
    (some (.obj [("owner", .str "Ada")])) (by decide +kernel)
  exact ⟨haccepts, hvalidates rfl⟩

/-! ## References -/

/-- The validation of the value comes to a schema with a reference. -/
def MeetsRef (lib : Library) (schema v : Json) : Prop :=
  ∃ fields inst value, Visits lib (schema, v) (.obj fields, inst) ∧ ("$ref", value) ∈ fields

/-- A schema over the modelled keywords, whose references all lead into the
`$defs` of the document. -/
def refsIntoDefs (schema : Json) : Bool :=
  allNodes (fun fields => fields.all fun p =>
    match Keyword.ofName p.1, p.2 with
    | none, _ => false
    | some .ref, .str ref => startsWith ref "#/$defs/"
    | some .ref, _ => false
    | some _, _ => true) schema

/-- A reference into `$defs` leads nowhere in a document that has none. -/
def DefsResolveLocally (lib : Library) : Prop :=
  ∀ root ref, startsWith ref "#/$defs/" = true → root.get? "$defs" = none →
    lib.lookup root ref = none

section References

variable {lib : Library} {root root' : Json} {depth : Nat}

theorem sameNode_of_not_meetsRef {schema v : Json} (hlocal : refsIntoDefs schema = true)
    (hno : ¬ MeetsRef lib schema v) {q : Json × Json} (hq : Visits lib (schema, v) q) :
    SameNode lib root root' q.1 q.2 := by
  intro fields hf name value hm
  obtain ⟨s, inst⟩ := q
  obtain rfl : s = .obj fields := hf
  have hnode := List.all_eq_true.mp (allNodes_obj (allNodes_of_visits hq hlocal)) _ hm
  refine ⟨fun hn => ?_, fun hn => ?_⟩
  · obtain rfl := Keyword.name_of_ofName hn (by decide)
    exact hno ⟨fields, inst, value, hq, hm⟩
  · simp [hn] at hnode

/-- **A schema moved to a document without its definitions** accepts what it
accepted before exactly when the validation meets no reference. -/
theorem moved_valid_iff (hdefs : DefsResolveLocally lib) {schema v : Json}
    (hlocal : refsIntoDefs schema = true) (hnone : root'.get? "$defs" = none)
    (hvalid : verdict lib root depth schema v = .valid) :
    verdict lib root' depth schema v = .valid ↔ ¬ MeetsRef lib schema v := by
  constructor
  · intro h hr
    obtain ⟨fields, inst, value, hvisit, hm⟩ := hr
    have hnode := List.all_eq_true.mp (allNodes_obj (allNodes_of_visits hvisit hlocal)) _ hm
    obtain ⟨depth', hv⟩ := valid_of_visits hvisit h
    have href : refVerdict lib (verdict lib root' depth') root' value inst = .valid :=
      verdict_obj_valid_iff.mp hv _ _ hm
    unfold refVerdict at href
    cases value with
    | str ref =>
      have hstarts : startsWith ref "#/$defs/" = true := hnode
      dsimp only at href
      rw [hdefs root' ref hstarts hnone] at href
      cases href
    | _ => cases href
  · intro hno
    rw [← hvalid]
    exact (verdict_congr depth fun q hq => sameNode_of_not_meetsRef hlocal hno hq).symm

/-- The schema a document declares for one property. -/
def propertySchema (schema : Json) (name : String) : Option Json :=
  (schema.get? "properties").bind (·.get? name)

/-- The item schema and the other properties inherit the condition. -/
theorem refsIntoDefs_of_properties {fields properties : List (String × Json)}
    (h : refsIntoDefs (.obj fields) = true)
    (hp : fields.lookup "properties" = some (.obj properties)) {name : String} {sub : Json}
    (hm : (name, sub) ∈ properties) : refsIntoDefs sub = true :=
  allNodesEntries_iff.mp (allNodesBelow_of_mem (allNodes_below h) (Dict.mem_of_lookup hp)) name sub
    hm

theorem refsIntoDefs_of_items {fields : List (String × Json)} {items : Json}
    (h : refsIntoDefs (.obj fields) = true) (hitems : fields.lookup "items" = some items) :
    refsIntoDefs items = true :=
  allNodesBelow_of_mem (allNodes_below h) (Dict.mem_of_lookup hitems)

end References

/-- **When the split schemas keep the meaning of rows and other fields.**  A row
that the caller's schema accepts as an element of the row array is accepted by
the chunk schema, alone in its array, exactly when its validation meets no
`$ref`; and so for a value of another property under the summary schema. -/
theorem split_schemas_accept_iff (lib : Library) (hdefs : DefsResolveLocally lib)
    (markdown : String) (schema : JsonValue) (config : ChunkingConfig) (plan : ChunkPlan)
    (hplan : buildChunkPlan markdown schema.1 config = some plan)
    (hlocal : refsIntoDefs schema.1 = true) :
    (∀ depth row, verdict lib schema.1 depth plan.arrayLocation.itemSchema row = .valid →
      (verdict lib plan.chunkSchema (depth + 2) plan.chunkSchema
          (.obj [(plan.arrayLocation.propertyName, .arr [row])]) = .valid ↔
        ¬ MeetsRef lib plan.arrayLocation.itemSchema row)) ∧
    ∀ name sub, propertySchema schema.1 name = some sub → name ≠ plan.arrayLocation.propertyName →
      ∃ summarySchema, plan.summarySchema = some summarySchema ∧
        propertySchema summarySchema name = some sub ∧
        ∀ depth v, verdict lib schema.1 depth sub v = .valid →
          (verdict lib summarySchema depth sub v = .valid ↔ ¬ MeetsRef lib sub v) := by
  obtain ⟨fields, properties, array, items, hf, _, hp, hproperties, harray, _, _, hitems, hitem⟩ :=
    schema_of_plan hplan
  obtain ⟨_, _, _, _, hchunk, hsum, _, _⟩ := buildChunkPlan_eq_some hplan
  rw [hf] at hlocal hsum ⊢
  have hlocali : refsIntoDefs (.obj items) = true :=
    refsIntoDefs_of_items (refsIntoDefs_of_properties hlocal hp harray) hitems
  constructor
  · intro depth row hvalid
    rw [hitem] at hvalid ⊢
    -- the chunk schema has no `$defs`, and a reference has nowhere to go
    have hnone : (chunkSchemaOf plan.arrayLocation).get? "$defs" = none := rfl
    rw [hchunk, ← moved_valid_iff hdefs hlocali hnone hvalid, chunkSchemaOf_valid_iff hitem]
    constructor
    · intro h
      obtain ⟨entries, rows, he, hrows, _, hv⟩ := h
      cases he
      rw [List.lookup_cons_self] at hrows
      cases hrows
      exact hv row List.mem_cons_self
    · intro hv
      refine ⟨_, [row], rfl, List.lookup_cons_self, ?_, ?_⟩
      · simp
      · simpa using hv
  · intro name sub hsub hne
    have hmem : (name, sub) ∈ properties := by
      rw [propertySchema, Json.get?_obj, hp] at hsub
      exact Dict.mem_of_lookup hsub
    have hother := (mem_otherProperties hp).mpr ⟨hmem, hne⟩
    refine ⟨summarySchemaOf (otherProperties (.obj fields) plan.arrayLocation), ?_, ?_,
      fun depth v hvalid => moved_valid_iff hdefs (refsIntoDefs_of_properties hlocal hp hmem) rfl
        hvalid⟩
    · rw [hsum, if_neg]
      rw [List.isEmpty_iff]
      exact List.ne_nil_of_mem hother
    · refine Dict.lookup_of_mem ?_ hother
      exact (keys_otherProperties_sublist hp).nodup hproperties

/-! ### A schema with definitions -/

/-- The small table with a definition of its cells. -/
def definedSchema : Json :=
  .obj [
    ("$defs", .obj [("cell", .obj [("type", .str "string")])]),
    ("properties", .obj [
      ("rows", .obj [
        ("type", .str "array"),
        ("items", .obj [
          ("type", .str "object"),
          ("properties", .obj [("a", .obj [("$ref", .str "#/$defs/cell")])])])]),
      ("title", .obj [("$ref", .str "#/$defs/cell")])])]

def definedPlan : ChunkPlan :=
  (buildChunkPlan ledgerMarkdown definedSchema ledgerConfig).get (by decide +kernel)

theorem buildChunkPlan_defined :
    buildChunkPlan ledgerMarkdown definedSchema ledgerConfig = some definedPlan :=
  (Option.some_get _).symm

theorem defsResolveLocally_coreLibrary : DefsResolveLocally coreLibrary := by
  intro root ref _ hnone
  change lookupDefs root ref = none
  simp [lookupDefs, hnone]

/-- A row and a title that the caller's schema accepts and the split schemas do
not. -/
theorem split_schemas_lose_definitions :
    buildChunkPlan ledgerMarkdown definedSchema ledgerConfig = some definedPlan ∧
      verdict coreLibrary definedSchema 10 definedPlan.arrayLocation.itemSchema ledgerRow.1 =
        .valid ∧
      verdict coreLibrary definedPlan.chunkSchema 12 definedPlan.chunkSchema
        (.obj [("rows", .arr [ledgerRow.1])]) ≠ .valid ∧
      (∃ sub ∈ propertySchema definedSchema "title", ∃ summarySchema ∈ definedPlan.summarySchema,
        verdict coreLibrary definedSchema 10 sub (.str "x") = .valid ∧
          verdict coreLibrary summarySchema 10 sub (.str "x") ≠ .valid) := by
  refine ⟨buildChunkPlan_defined, ?_⟩
  decide +kernel

/-- The theorem on that schema. -/
theorem split_schemas_of_defined :
    verdict coreLibrary definedPlan.chunkSchema 12 definedPlan.chunkSchema
        (.obj [(definedPlan.arrayLocation.propertyName, .arr [ledgerRow.1])]) = .valid ↔
      ¬ MeetsRef coreLibrary definedPlan.arrayLocation.itemSchema ledgerRow.1 :=
  (split_schemas_accept_iff coreLibrary defsResolveLocally_coreLibrary ledgerMarkdown
    ⟨definedSchema, by decide⟩ ledgerConfig definedPlan buildChunkPlan_defined
    (by decide +kernel)).1 10 ledgerRow.1 (by decide +kernel)

end Chunking
end InternumCore
