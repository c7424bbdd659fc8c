import InternumCore.Billing
import InternumCore.NormalizeAccepts

/-!
# The data a parse returns

On both paths the data is validated against the caller's schema and then
normalized (`runParse_data`).  So what leaves the parser conforms to the schema
exactly when the normalization keeps the constraints of the schema on the data
that was validated; a hint that empties a string breaks a `minLength`.
-/

namespace InternumCore
open JsonSchema

/-- Data that was accepted by the caller's schema, and then normalized. -/
def NormalizedFrom (lib : Library) (schema validated data : Json) : Prop :=
  lib.checkSchema schema = none ∧ Accepts lib schema validated ∧
    data = normalizeValues validated schema

section Runs

variable {ω : Type} {service : DocumentParsingService ω} {request : ParseMultipartRequest}
  {consumerId requestId : Option String} {s : Session ω}

/-- What ends in data that was validated and normalized. -/
abbrev YieldsNormalized (service : DocumentParsingService ω) (request : ParseMultipartRequest)
    (p : Method ω ParsedDocument) (s : Session ω) : Prop :=
  p.Triple s (fun doc _ => ∃ validated,
    NormalizedFrom service.client.lib.jsonschema request.schema.1 validated doc.data) fun _ _ => True

theorem runSinglePass_data {markdown : String} {resolved : ResolvedModelConfig}
    {metadata : ParseMetadata} :
    YieldsNormalized service request
      (service.runSinglePass request markdown resolved metadata consumerId requestId) s := by
  refine ((answer_triple rfl).mono (fun _ _ h => h) fun _ _ _ => trivial).bind ?_
  intro p s₁ hr
  obtain ⟨data, result⟩ := p
  obtain ⟨_, _, _, hchecked⟩ := hr
  obtain ⟨hcheck, haccepts, -⟩ := accepts_of_checkedOutput hchecked
  exact (Program.Triple.any _ _).bind fun _ _ _ => .pure ⟨data, hcheck, haccepts, rfl⟩

theorem requireObject_eq_ok {validated data : Json} (h : requireObject validated = .ok data) :
    data = validated := by
  unfold requireObject at h
  split at h
  · exact (Except.ok.inj h).symm
  · cases h

theorem runChunkedParse_data {plan : Chunking.ChunkPlan} {resolved : ResolvedModelConfig}
    {metadata : ParseMetadata} :
    YieldsNormalized service request
      (service.runChunkedParse request plan resolved metadata consumerId requestId) s := by
  -- the plan, the chunks, the end of `gather`, the summary and the failed chunks
  refine (Program.Triple.any _ _).bind fun _ _ _ => ?_
  refine (Program.Triple.any _ _).bind fun results _ _ => ?_
  refine (Program.Triple.any _ _).bind fun interruption _ _ => ?_
  refine (Program.Triple.any _ _).bind fun _ _ _ => ?_
  refine (Program.Triple.any _ _).bind fun summary _ _ => ?_
  refine (Program.Triple.any _ _).bind fun _ _ _ => ?_
  refine (Program.Triple.ofExcept_eq _ _).bind fun validated _ hvalidated => ?_
  refine (Program.Triple.ofExcept_eq _ _).bind fun data _ hdata => ?_
  obtain ⟨hcheck, haccepts, rfl⟩ := validateAgainstOriginal_eq_ok_iff.mp hvalidated
  obtain rfl := requireObject_eq_ok hdata
  exact (Program.Triple.any _ _).bind fun _ _ _ => .pure ⟨_, hcheck, haccepts, rfl⟩

/-- **What a parse returns** was accepted by the caller's schema before it was
normalized. -/
theorem runParse_data :
    YieldsNormalized service request (service.runParse request consumerId requestId) s := by
  refine (Program.Triple.any _ _).bind fun extracted s₁ _ => ?_
  dsimp only
  split
  · exact runChunkedParse_data
  · exact runSinglePass_data

end Runs

/-- **The data a parse returns conforms to the caller's schema exactly when** the
normalization keeps the constraints of the schema on the data that was validated. -/
theorem parsed_data_conforms_iff {ω : Type} (service : DocumentParsingService ω)
    (request : ParseMultipartRequest) (consumerId requestId : Option String) (s : Session ω)
    (hschema : modelledOnly request.schema.1 = true) :
    (service.runParse request consumerId requestId).Triple s
      (fun doc _ => ∃ validated,
        validateAgainstOriginal service.client.lib.jsonschema validated request.schema.1 =
          .ok validated ∧
        doc.data = normalizeValues validated request.schema.1 ∧
        (validateAgainstOriginal service.client.lib.jsonschema doc.data request.schema.1 =
            .ok doc.data ↔ KeepsConstraints request.schema.1 validated))
      (fun _ _ => True) := by
  refine runParse_data.mono ?_ fun _ _ _ => trivial
  intro doc s' hr
  obtain ⟨validated, hcheck, haccepts, hdata⟩ := hr
  refine ⟨validated, validateAgainstOriginal_eq_ok_iff.mpr ⟨hcheck, haccepts, rfl⟩, hdata, ?_⟩
  rw [validateAgainstOriginal_eq_ok_iff, hdata]
  have hiff := normalizeNode_valid_iff request.schema.2 hschema haccepts
  exact ⟨fun h => hiff.mp h.2.1, fun h => ⟨hcheck, hiff.mpr h, rfl⟩⟩

/-! ### A code without digits -/

/-- A request for an object with a code, which is not empty and has its digits
kept. -/
def codeParse : ParseMultipartRequest where
  upload := twoReads (.chunk [] none)
  schema := ⟨.obj [("type", .str "object"), ("properties", .obj [("code", .obj
    [("type", .str "string"), ("minLength", .int 1), ("x-normalize", .str "digits")])])],
    by decide⟩

/-- A model that finds a code of letters. -/
def lettersOnly : String → Option Json
  | "first" => some (streamedChunk "code" 1 1)
  | "code" => some (.obj [("code", .str "abc")])
  | _ => none

/-- The code comes out empty, which its schema does not allow. -/
theorem code_without_digits_rejected :
    let run := ((sampleService lettersOnly).runParse codeParse none none).outcome { world := 0 }
    run.1.toOption.map (·.data) = some (.obj [("code", .str "")]) ∧
      ¬Accepts coreLibrary codeParse.schema.1 (.obj [("code", .str "")]) := by
  decide +kernel

theorem letters_code_conforms_iff :
    ((sampleService lettersOnly).runParse codeParse none none).Triple { world := 0 }
      (fun doc _ => ∃ validated,
        validateAgainstOriginal coreLibrary validated codeParse.schema.1 = .ok validated ∧
        doc.data = normalizeValues validated codeParse.schema.1 ∧
        (validateAgainstOriginal coreLibrary doc.data codeParse.schema.1 = .ok doc.data ↔
          KeepsConstraints codeParse.schema.1 validated))
      (fun _ _ => True) :=
  parsed_data_conforms_iff (sampleService lettersOnly) codeParse none none { world := 0 } (by decide)

end InternumCore
