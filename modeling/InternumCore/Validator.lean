import Mathlib.Logic.Relation
import InternumCore.Errors
import InternumCore.PyText

/-!
# The schema validator

The service hands every schema to jsonschema's `Draft202012Validator`.  The
keywords the program itself speaks about (`type`, `properties`, `required`,
`additionalProperties`, `items`, `enum`, `minLength`, `$ref`) are defined here
as that validator decides them; `format` and `x-normalize` are hints it does not
check.  What else belongs to the package is the parameter `Library`: where a
reference leads, what the other keywords mean, regular expressions, the metaschema
and the texts of its errors.

`Validator.validate` raises the first error it meets, so a validation ends in one
of three ways (`Verdict`): it finds no error, it finds a `ValidationError`, or it
breaks off with another exception, as for a reference that leads nowhere.

`Visits` is what one validation reads: the pairs of a subschema and a value that
it descends to without following a reference.  `verdict_congr` is the reason it
matters: the rest of the document is never looked at.
-/

namespace InternumCore
namespace JsonSchema

/-- How a validation ends. -/
inductive Verdict where
  | valid
  | invalid
  | raised
  deriving DecidableEq

/-- Checks made in turn: the first that is not passed decides. -/
def Verdict.first : List Verdict → Verdict
  | [] => .valid
  | .valid :: rest => Verdict.first rest
  | .invalid :: _ => .invalid
  | .raised :: _ => .raised

/-- A check that finds an error unless `b`. -/
def Verdict.ofBool (b : Bool) : Verdict := if b then .valid else .invalid

theorem Verdict.first_eq_valid_iff {verdicts : List Verdict} :
    Verdict.first verdicts = .valid ↔ ∀ v ∈ verdicts, v = .valid := by
  induction verdicts with
  | nil => simp [Verdict.first]
  | cons v verdicts ih => cases v <;> simp [Verdict.first, ih]

@[simp] theorem Verdict.ofBool_eq_valid_iff {b : Bool} : Verdict.ofBool b = .valid ↔ b = true := by
  cases b <;> simp [Verdict.ofBool]

/-- What the model takes from the jsonschema package as it is. -/
structure Library where
  /-- The schema a `$ref` leads to in the given document, if any. -/
  lookup : Json → String → Option Json
  /-- One keyword that is not modelled here: the document, the keyword and its
  value, the schema they stand in, and the instance. -/
  keyword : Json → String → Json → List (String × Json) → Json → Verdict
  /-- `re.search(pattern, text)` finds something. -/
  search : String → String → Bool
  /-- `check_schema`: the message of its error, if it finds one. -/
  checkSchema : Json → Option String
  /-- `list(exc.path)` and `exc.message` of the first error. -/
  explain : Json → Json → List Json × String
  /-- How many validations the interpreter's stack lets nest. -/
  depth : Nat
  /-- The stack holds a document and its properties. -/
  two_le_depth : 2 ≤ depth

/-- The keywords the model decides, and those jsonschema passes over. -/
inductive Keyword where
  | type
  | properties
  | required
  | additionalProperties
  | items
  | enum
  | minLength
  | ref
  | unchecked
  deriving DecidableEq

def Keyword.ofName : String → Option Keyword
  | "type" => some .type
  | "properties" => some .properties
  | "required" => some .required
  | "additionalProperties" => some .additionalProperties
  | "items" => some .items
  | "enum" => some .enum
  | "minLength" => some .minLength
  | "$ref" => some .ref
  -- no format checker is passed, and the other two have no validator
  | "format" => some .unchecked
  | "x-normalize" => some .unchecked
  | "$defs" => some .unchecked
  | _ => none

/-- The name of a keyword that is checked. -/
def Keyword.name : Keyword → String
  | .type => "type"
  | .properties => "properties"
  | .required => "required"
  | .additionalProperties => "additionalProperties"
  | .items => "items"
  | .enum => "enum"
  | .minLength => "minLength"
  | .ref => "$ref"
  | .unchecked => ""

theorem Keyword.name_of_ofName {name : String} {keyword : Keyword}
    (h : Keyword.ofName name = some keyword) (hc : keyword ≠ .unchecked) : name = keyword.name := by
  unfold Keyword.ofName at h
  split at h <;> cases h <;> first | rfl | exact absurd rfl hc

/-! ## The keywords

`check_schema` comes first, so a keyword whose value the metaschema refuses is
never reached; such a value is `raised` here. -/

/-- `is_type`; `none` is `UnknownType`. -/
def isType (inst : Json) (name : String) : Option Bool :=
  match name with
  | "array" => some (match inst with | .arr _ => true | _ => false)
  | "boolean" => some (match inst with | .bool _ => true | _ => false)
  | "integer" => some (match inst with
      | .int _ => true
      | .float (.finite q) => q.den == 1
      | .float .negZero => true
      | _ => false)
  | "null" => some (match inst with | .null => true | _ => false)
  | "number" => some (match inst with | .int _ => true | .float _ => true | _ => false)
  | "object" => some inst.isObject
  | "string" => some (match inst with | .str _ => true | _ => false)
  | _ => none

/-- `any(validator.is_type(instance, type) for type in types)`. -/
def anyType (inst : Json) : List Json → Verdict
  | [] => .invalid
  | .str name :: names =>
    match isType inst name with
    | none => .raised
    | some true => .valid
    | some false => anyType inst names
  | _ :: _ => .raised

/-- `type`. -/
def typeVerdict (value inst : Json) : Verdict :=
  match value with
  | .str name => anyType inst [.str name]
  | .arr names => anyType inst names
  | _ => .raised

/-- A single type name admits what is of that type. -/
theorem typeVerdict_str_iff {name : String} {inst : Json} :
    typeVerdict (.str name) inst = .valid ↔ isType inst name = some true := by
  show anyType inst [.str name] = .valid ↔ _
  unfold anyType
  rcases isType inst name with _ | _ | _ <;> simp [anyType]

/-- `required`. -/
def requiredVerdict (value inst : Json) : Verdict :=
  match inst, value with
  | .obj entries, .arr names =>
    Verdict.first (names.map fun name =>
      match name with
      | .str name => .ofBool (entries.lookup name).isSome
      | _ => .raised)
  | .obj _, _ => .raised
  | _, _ => .valid

/-- `enum`. -/
def enumVerdict (value inst : Json) : Verdict :=
  match value with
  | .arr options => .ofBool (options.any (fun option => Json.schemaEq option inst))
  | _ => .raised

/-- `minLength`. -/
def minLengthVerdict (value inst : Json) : Verdict :=
  match inst, value with
  | .str s, .int n => .ofBool (decide (n ≤ s.length))
  | .str s, .float (.finite q) => .ofBool (decide (q ≤ s.length))
  | .str _, .float .negZero => .valid
  | .str _, _ => .raised
  | _, _ => .valid

section Applicators

variable (lib : Library) (descend : Json → Json → Verdict)

/-- `properties`. -/
def propertiesVerdict (value inst : Json) : Verdict :=
  match inst, value with
  | .obj entries, .obj properties =>
    Verdict.first (properties.map fun p =>
      match entries.lookup p.1 with
      | some v => descend p.2 v
      | none => .valid)
  | .obj _, _ => .raised
  | _, _ => .valid

/-- The names of the entries that neither `properties` nor `patternProperties`
speaks about, with their values: `find_additional_properties`. -/
def additionalEntries (fields entries : List (String × Json)) : List (String × Json) :=
  let properties := match fields.lookup "properties" with | some (.obj ps) => Dict.keys ps | _ => []
  let patterns := match fields.lookup "patternProperties" with
    | some (.obj ps) => String.intercalate "|" (Dict.keys ps)
    | _ => ""
  entries.filter fun p => !(properties.contains p.1) && !(patterns != "" && lib.search patterns p.1)

/-- Nothing stands beside the declared properties. -/
theorem additionalEntries_eq_nil {lib : Library}
    {fields properties entries : List (String × Json)}
    (hp : fields.lookup "properties" = some (.obj properties))
    (h : ∀ name ∈ Dict.keys entries, name ∈ Dict.keys properties) :
    additionalEntries lib fields entries = [] := by
  refine List.filter_eq_nil_iff.mpr fun p hm => ?_
  have hd := h p.1 (Dict.mem_keys_of_mem hm)
  simp [hp, hd]

/-- `additionalProperties`. -/
def additionalVerdict (fields : List (String × Json)) (value inst : Json) : Verdict :=
  match inst with
  | .obj entries =>
    let extras := additionalEntries lib fields entries
    match value with
    | .obj sub => Verdict.first (extras.map fun p => descend (.obj sub) p.2)
    | _ => .ofBool (value.truthy || extras.isEmpty)
  | _ => .valid

/-- `len(schema.get("prefixItems", []))`. -/
def prefixLength (fields : List (String × Json)) : Nat :=
  match fields.lookup "prefixItems" with
  | some (.arr items) => items.length
  | _ => 0

/-- `items`. -/
def itemsVerdict (fields : List (String × Json)) (value inst : Json) : Verdict :=
  match inst with
  | .arr items =>
    let rest := items.drop (prefixLength fields)
    match value with
    | .bool false => .ofBool rest.isEmpty
    | _ => Verdict.first (rest.map (descend value))
  | _ => .valid

/-- `$ref`. -/
def refVerdict (root value inst : Json) : Verdict :=
  match value with
  | .str ref =>
    match lib.lookup root ref with
    | some target => descend target inst
    | none => .raised
  | _ => .raised

/-- One keyword of a schema object. -/
def keywordVerdict (root : Json) (fields : List (String × Json)) (name : String)
    (value inst : Json) : Verdict :=
  match Keyword.ofName name with
  | none => lib.keyword root name value fields inst
  | some .type => typeVerdict value inst
  | some .properties => propertiesVerdict descend value inst
  | some .required => requiredVerdict value inst
  | some .additionalProperties => additionalVerdict lib descend fields value inst
  | some .items => itemsVerdict descend fields value inst
  | some .enum => enumVerdict value inst
  | some .minLength => minLengthVerdict value inst
  | some .ref => refVerdict lib descend root value inst
  | some .unchecked => .valid

/-- One schema: its keywords in the order of the document. -/
def nodeVerdict (root schema inst : Json) : Verdict :=
  match schema with
  | .bool b => .ofBool b
  | .obj fields =>
    Verdict.first (fields.map fun p => keywordVerdict lib descend root fields p.1 p.2 inst)
  | _ => .raised

end Applicators

/-- `Draft202012Validator(root)` on a subschema and an instance, with room for
`depth` nested validations. -/
def verdict (lib : Library) (root : Json) : Nat → Json → Json → Verdict
  | 0, _, _ => .raised
  | depth + 1, schema, inst => nodeVerdict lib (verdict lib root depth) root schema inst

/-- `Draft202012Validator(schema)` finds no error in the value. -/
def Accepts (lib : Library) (schema v : Json) : Prop :=
  verdict lib schema lib.depth schema v = .valid

instance (lib : Library) (schema v : Json) : Decidable (Accepts lib schema v) :=
  inferInstanceAs (Decidable (_ = _))

/-- `validate_against_original`. -/
def validateAgainstOriginal (lib : Library) (output schema : Json) : Except PyError Json :=
  match lib.checkSchema schema with
  | some message =>
    .error (.schema ⟨"Caller schema is not a valid JSON Schema",
      some (.obj [("message", .str message)])⟩)
  | none =>
    match verdict lib schema lib.depth schema output with
    | .valid => .ok output
    | .invalid =>
      let (path, message) := lib.explain schema output
      .error (.schema ⟨"Model output did not match the requested schema",
        some (.obj [("path", .arr path), ("message", .str message)])⟩)
    -- a reference that does not resolve, an unknown type, the recursion limit
    | .raised => .error (.other "jsonschema")

theorem validateAgainstOriginal_eq_ok_iff {lib : Library} {output schema v : Json} :
    validateAgainstOriginal lib output schema = .ok v ↔
      lib.checkSchema schema = none ∧ Accepts lib schema output ∧ v = output := by
  unfold validateAgainstOriginal Accepts
  cases lib.checkSchema schema with
  | some message => simp
  | none => cases verdict lib schema lib.depth schema output <;> simp [eq_comm]

/-! ## Conditions on every schema object -/

mutual

/-- `p` holds of the schema and of every schema below it through `properties`,
`additionalProperties` and `items`. -/
def allNodes (p : List (String × Json) → Bool) : Json → Bool
  | .obj fields => p fields && allNodesBelow p fields
  | _ => true

/-- `allNodes` of what the keywords of one schema hold. -/
def allNodesBelow (p : List (String × Json) → Bool) : List (String × Json) → Bool
  | [] => true
  | (name, value) :: fields =>
    (match Keyword.ofName name with
      | some .properties => allNodesDeclared p value
      | some .additionalProperties => allNodes p value
      | some .items => allNodes p value
      | _ => true) && allNodesBelow p fields

/-- `allNodes` of every schema that a `properties` value declares. -/
def allNodesDeclared (p : List (String × Json) → Bool) : Json → Bool
  | .obj properties => allNodesEntries p properties
  | _ => true

/-- `allNodes` of every entry. -/
def allNodesEntries (p : List (String × Json) → Bool) : List (String × Json) → Bool
  | [] => true
  | (_, sub) :: properties => allNodes p sub && allNodesEntries p properties

end

theorem allNodes_obj {p : List (String × Json) → Bool} {fields : List (String × Json)}
    (h : allNodes p (.obj fields) = true) : p fields = true := by
  rw [allNodes, Bool.and_eq_true] at h
  exact h.1

theorem allNodes_below {p : List (String × Json) → Bool} {fields : List (String × Json)}
    (h : allNodes p (.obj fields) = true) : allNodesBelow p fields = true := by
  rw [allNodes, Bool.and_eq_true] at h
  exact h.2

theorem allNodesEntries_iff {p : List (String × Json) → Bool} {properties : List (String × Json)} :
    allNodesEntries p properties = true ↔
      ∀ name sub, (name, sub) ∈ properties → allNodes p sub = true := by
  induction properties with
  | nil => simp [allNodesEntries]
  | cons q properties ih =>
    obtain ⟨name, sub⟩ := q
    simp only [allNodesEntries, Bool.and_eq_true, ih, List.mem_cons, Prod.mk.injEq]
    constructor
    · rintro ⟨hs, hp⟩ n s (⟨-, rfl⟩ | hm)
      · exact hs
      · exact hp n s hm
    · exact fun h => ⟨h name sub (Or.inl ⟨rfl, rfl⟩), fun n s hm => h n s (Or.inr hm)⟩

theorem allNodesBelow_of_mem {p : List (String × Json) → Bool} {fields : List (String × Json)}
    (h : allNodesBelow p fields = true) {name : String} {value : Json}
    (hm : (name, value) ∈ fields) :
    (match Keyword.ofName name with
      | some .properties => allNodesDeclared p value
      | some .additionalProperties => allNodes p value
      | some .items => allNodes p value
      | _ => true) = true := by
  induction fields with
  | nil => cases hm
  | cons q fields ih =>
    obtain ⟨name', value'⟩ := q
    rw [allNodesBelow, Bool.and_eq_true] at h
    rcases List.mem_cons.mp hm with he | hm
    · cases he
      exact h.1
    · exact ih h.2 hm

/-! ## What a validation reads -/

/-- One step down from a schema and an instance, other than along a `$ref`. -/
inductive Descends (lib : Library) : Json × Json → Json × Json → Prop where
  | property {fields properties entries : List (String × Json)} {name : String} {sub v : Json}
      (keyword : ("properties", .obj properties) ∈ fields) (declared : (name, sub) ∈ properties)
      (present : entries.lookup name = some v) :
      Descends lib (.obj fields, .obj entries) (sub, v)
  | additional {fields sub entries : List (String × Json)} {p : String × Json}
      (keyword : ("additionalProperties", .obj sub) ∈ fields)
      (extra : p ∈ additionalEntries lib fields entries) :
      Descends lib (.obj fields, .obj entries) (.obj sub, p.2)
  | item {fields : List (String × Json)} {items : List Json} {sub v : Json}
      (keyword : ("items", sub) ∈ fields) (rest : v ∈ items.drop (prefixLength fields)) :
      Descends lib (.obj fields, .arr items) (sub, v)

/-- Everything that the validation of an instance descends to. -/
abbrev Visits (lib : Library) : Json × Json → Json × Json → Prop :=
  Relation.ReflTransGen (Descends lib)

theorem allNodes_of_descends {lib : Library} {p : List (String × Json) → Bool} {a b : Json × Json}
    (hd : Descends lib a b) (h : allNodes p a.1 = true) : allNodes p b.1 = true := by
  cases hd with
  | property keyword declared present =>
    exact allNodesEntries_iff.mp (allNodesBelow_of_mem (allNodes_below h) keyword) _ _ declared
  | additional keyword extra => exact allNodesBelow_of_mem (allNodes_below h) keyword
  | item keyword rest => exact allNodesBelow_of_mem (allNodes_below h) keyword

/-- A condition on every schema object holds wherever a validation goes. -/
theorem allNodes_of_visits {lib : Library} {p : List (String × Json) → Bool} {a b : Json × Json}
    (hv : Visits lib a b) (h : allNodes p a.1 = true) : allNodes p b.1 = true := by
  induction hv with
  | refl => exact h
  | tail _ hd ih => exact allNodes_of_descends hd ih

theorem valid_of_mem_first_map {α : Type*} {l : List α} {f : α → Verdict}
    (h : Verdict.first (l.map f) = .valid) {a : α} (ha : a ∈ l) : f a = .valid :=
  Verdict.first_eq_valid_iff.mp h _ (List.mem_map.mpr ⟨a, ha, rfl⟩)

theorem first_map_eq_valid {α : Type*} {l : List α} {f : α → Verdict}
    (h : ∀ a ∈ l, f a = .valid) : Verdict.first (l.map f) = .valid := by
  refine Verdict.first_eq_valid_iff.mpr fun v hv => ?_
  obtain ⟨a, ha, rfl⟩ := List.mem_map.mp hv
  exact h a ha

section Acceptance

variable {lib : Library} {root : Json} {depth : Nat}

/-- A schema object accepts what each of its keywords accepts. -/
theorem verdict_obj_valid_iff {fields : List (String × Json)} {inst : Json} :
    verdict lib root (depth + 1) (.obj fields) inst = .valid ↔
      ∀ name value, (name, value) ∈ fields →
        keywordVerdict lib (verdict lib root depth) root fields name value inst = .valid := by
  unfold verdict nodeVerdict
  exact ⟨fun h name value hm => valid_of_mem_first_map h hm,
    fun h => first_map_eq_valid fun p hp => h p.1 p.2 hp⟩

/-- What a schema accepts is accepted by every schema it descends to. -/
theorem valid_of_descends {schema inst sub v : Json} (hd : Descends lib (schema, inst) (sub, v))
    (h : verdict lib root (depth + 1) schema inst = .valid) :
    verdict lib root depth sub v = .valid := by
  cases hd with
  | @property fields properties entries name sub v keyword declared present =>
    have hk : propertiesVerdict (verdict lib root depth) (.obj properties) (.obj entries) = .valid :=
      verdict_obj_valid_iff.mp h _ _ keyword
    have hp := valid_of_mem_first_map hk declared
    rwa [present] at hp
  | @additional fields sub entries p keyword extra =>
    have hk : additionalVerdict lib (verdict lib root depth) fields (.obj sub) (.obj entries) =
        .valid := verdict_obj_valid_iff.mp h _ _ keyword
    exact valid_of_mem_first_map hk extra
  | @item fields items sub v keyword rest =>
    have hk : itemsVerdict (verdict lib root depth) fields sub (.arr items) = .valid :=
      verdict_obj_valid_iff.mp h _ _ keyword
    unfold itemsVerdict at hk
    dsimp only at hk
    split at hk
    · rw [Verdict.ofBool_eq_valid_iff, List.isEmpty_iff] at hk
      rw [hk] at rest
      cases rest
    · exact valid_of_mem_first_map hk rest

theorem valid_of_visits {p q : Json × Json} (hv : Visits lib p q)
    (h : verdict lib root depth p.1 p.2 = .valid) :
    ∃ depth', verdict lib root (depth' + 1) q.1 q.2 = .valid := by
  -- every step of the visit uses up one level of the depth
  induction hv using Relation.ReflTransGen.head_induction_on generalizing depth with
  | refl =>
    cases depth with
    | zero => cases h
    | succ depth => exact ⟨depth, h⟩
  | head hd _ ih =>
    cases depth with
    | zero => cases h
    | succ depth => exact ih (valid_of_descends hd h)

end Acceptance

/-- Two documents that a schema cannot tell apart by itself: it holds no
reference, and the keywords left to the library read the same in both. -/
def SameNode (lib : Library) (root root' : Json) (schema inst : Json) : Prop :=
  ∀ fields, schema = .obj fields → ∀ name value, (name, value) ∈ fields →
    Keyword.ofName name ≠ some .ref ∧
      (Keyword.ofName name = none →
        lib.keyword root name value fields inst = lib.keyword root' name value fields inst)

section Congruence

variable {lib : Library} {root root' : Json}

theorem first_map_congr {α : Type*} {l : List α} {f g : α → Verdict} (h : ∀ a ∈ l, f a = g a) :
    Verdict.first (l.map f) = Verdict.first (l.map g) := by
  rw [List.map_congr_left h]

/-- A keyword asks for nothing but the instances one step below. -/
theorem keywordVerdict_congr {descend descend' : Json → Json → Verdict}
    {fields : List (String × Json)} {name : String} {value inst : Json}
    (hmem : (name, value) ∈ fields) (hsame : SameNode lib root root' (.obj fields) inst)
    (hdown : ∀ sub v, Descends lib (.obj fields, inst) (sub, v) → descend sub v = descend' sub v) :
    keywordVerdict lib descend root fields name value inst =
      keywordVerdict lib descend' root' fields name value inst := by
  obtain ⟨hnoref, hother⟩ := hsame fields rfl name value hmem
  unfold keywordVerdict
  cases hk : Keyword.ofName name with
  | none => exact hother hk
  | some keyword =>
    -- three keywords go down one step, and a `ref` is excluded
    cases keyword with
    | ref => exact absurd hk hnoref
    | properties =>
      obtain rfl := Keyword.name_of_ofName hk (by decide)
      dsimp only
      unfold propertiesVerdict
      split
      · next entries properties =>
        refine first_map_congr fun p hp => ?_
        cases hv : entries.lookup p.1 with
        | none => rfl
        | some v => exact hdown p.2 v (.property hmem hp hv)
      · rfl
      · rfl
    | additionalProperties =>
      obtain rfl := Keyword.name_of_ofName hk (by decide)
      dsimp only
      unfold additionalVerdict
      cases inst with
      | obj entries =>
        dsimp only
        split
        · exact first_map_congr fun p hp => hdown _ _ (.additional hmem hp)
        all_goals rfl
      | _ => rfl
    | items =>
      obtain rfl := Keyword.name_of_ofName hk (by decide)
      dsimp only
      unfold itemsVerdict
      cases inst with
      | arr items =>
        dsimp only
        split
        · rfl
        · exact first_map_congr fun v hv => hdown _ _ (.item hmem hv)
      | _ => rfl
    | _ => rfl

/-- **A validation looks at nothing but the schemas it visits.**  If none of
them tells two documents apart, neither does the verdict. -/
theorem verdict_congr (depth : Nat) {schema inst : Json}
    (h : ∀ q, Visits lib (schema, inst) q → SameNode lib root root' q.1 q.2) :
    verdict lib root depth schema inst = verdict lib root' depth schema inst := by
  induction depth generalizing schema inst with
  | zero => rfl
  | succ depth ih =>
    -- every keyword asks one level further down
    unfold verdict nodeVerdict
    cases schema with
    | obj fields =>
      refine first_map_congr fun p hp => keywordVerdict_congr hp (h _ .refl) fun sub v hd => ?_
      exact ih fun q hq => h q (.head hd hq)
    | _ => rfl

end Congruence

/-! ## The package on the modelled keywords -/

/-- A reference into the `$defs` of the document: `#/$defs/name`. -/
def lookupDefs (root : Json) (ref : String) : Option Json :=
  if startsWith ref "#/$defs/" then
    (root.get? "$defs").bind (·.get? (String.ofList (ref.toList.drop 8)))
  else none

/-- The package as far as valid schemas over the modelled keywords need it. -/
def coreLibrary : Library where
  lookup := lookupDefs
  keyword _ _ _ _ _ := .valid
  search _ _ := false
  checkSchema _ := none
  explain _ _ := ([], "")
  depth := 1000
  two_le_depth := by decide

end JsonSchema
end InternumCore
