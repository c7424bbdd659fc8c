import InternumCore.FirstOccurrences
import InternumCore.Settings

/-!
# The model chain of a request

Whatever a request overrides and whatever the settings are, the provider is
handed a chain of one to three different names, none of them empty, and the
first of them is the model of the request (`resolved_chain_well_formed`).

The chain comes from the first source that is not empty.  The loop over it keeps
the first occurrences of its non-empty names (`firstOccurrences_foldl`), and the
chain is the first three of these, or the default model where there are none.
-/

namespace InternumCore

/-- The sources of the chain in their order of precedence, a missing one empty. -/
def chainSources (settings : CoreSettings) (overrides : SafeRequestOverrides) :
    List (List String) :=
  [overrides.models.getD [], (overrides.model.filter (· ≠ "")).toList,
    settings.defaultModels.getD [], [settings.defaultModel]]

/-- A chain that every caller may index at 0 and hand to the provider. -/
structure WellFormedChain (resolved : ResolvedModelConfig) : Prop where
  nonempty : resolved.models ≠ []
  bounded : resolved.models.length ≤ 3
  named : ∀ name ∈ resolved.models, name ≠ ""
  distinct : resolved.models.Nodup
  first : resolved.models.head? = some resolved.model

/-- The chain is taken from the first source that is not empty. -/
theorem find_chainSources (settings : CoreSettings) (overrides : SafeRequestOverrides) :
    (chainSources settings overrides).find? (fun source => !source.isEmpty) =
      some (sourceChain settings overrides) := by
  unfold chainSources sourceChain
  rcases overrides.models with _ | _ | ⟨model, models⟩ <;>
    rcases overrides.model.filter (· ≠ "") with _ | name <;>
    rcases settings.defaultModels with _ | _ | ⟨default, defaults⟩ <;> rfl

/-- One turn of the loop: what is kept of a name more. -/
theorem firstOccurrences_dedupStep {read kept : List String}
    (h : FirstOccurrences (· ≠ "") read kept) (model : String) :
    FirstOccurrences (· ≠ "") (read ++ [model]) (dedupStep kept model) := by
  unfold dedupStep
  split
  · next hkeep => exact h.keep hkeep.1 hkeep.2
  · next hdrop =>
    refine h.drop fun hne => ?_
    by_contra hnew
    exact hdrop ⟨hne, hnew⟩

/-- The whole loop keeps the first occurrences of the non-empty names. -/
theorem firstOccurrences_foldl {read kept : List String}
    (h : FirstOccurrences (· ≠ "") read kept) (chain : List String) :
    FirstOccurrences (· ≠ "") (read ++ chain) (chain.foldl dedupStep kept) := by
  induction chain generalizing read kept with
  | nil => rwa [List.append_nil]
  | cons model chain ih =>
    have hstep := ih (firstOccurrences_dedupStep h model)
    rwa [List.append_assoc, List.singleton_append] at hstep

/-- `_resolve_model_chain` by cases: there are names to take, or there are none. -/
theorem resolveModelChain_cases (settings : CoreSettings) (overrides : SafeRequestOverrides) :
    ∃ names, FirstOccurrences (· ≠ "") (sourceChain settings overrides) names ∧
      (((∃ name ∈ sourceChain settings overrides, name ≠ "") ∧
          resolveModelChain settings overrides = names.take 3) ∨
        ((∀ name ∈ sourceChain settings overrides, name = "") ∧
          resolveModelChain settings overrides = [settings.defaultModel])) := by
  have hnames := firstOccurrences_foldl .nil (sourceChain settings overrides)
  rw [List.nil_append] at hnames
  refine ⟨_, hnames, ?_⟩
  unfold resolveModelChain
  rcases he : (sourceChain settings overrides).foldl dedupStep [] with _ | ⟨name, names⟩
  · refine Or.inr ⟨fun name hname => ?_, rfl⟩
    by_contra hne
    exact hnames.eq_nil_iff.mp he name hname hne
  · refine Or.inl ⟨⟨name, ?_⟩, rfl⟩
    exact (hnames.mem_iff name).mp (he ▸ List.mem_cons_self)

/-- Three of the names, like the default alone, are different and not empty. -/
theorem distinct_named_of_cases {models chain names : List String} {default : String}
    (hnames : FirstOccurrences (· ≠ "") chain names) (hdefault : default ≠ "")
    (h : models = names.take 3 ∨ models = [default]) :
    models.length ≤ 3 ∧ (∀ name ∈ models, name ≠ "") ∧ models.Nodup := by
  rcases h with rfl | rfl
  · refine ⟨List.length_take_le 3 names, fun name hname => ?_,
      hnames.nodup.sublist (List.take_sublist 3 names)⟩
    exact ((hnames.mem_iff name).mp (List.mem_of_mem_take hname)).2
  · refine ⟨by simp, fun name hname => ?_, by simp⟩
    rw [List.mem_singleton.mp hname]
    exact hdefault

theorem wellFormedChain_resolved (settings : CoreSettings) (overrides : SafeRequestOverrides) :
    WellFormedChain (resolveRequestOverrides settings overrides) := by
  obtain ⟨names, hnames, hcases⟩ := resolveModelChain_cases settings overrides
  have hmodels : resolveModelChain settings overrides = names.take 3 ∨
      resolveModelChain settings overrides = [settings.defaultModel] :=
    hcases.imp And.right And.right
  obtain ⟨hlen, hnamed, hnodup⟩ :=
    distinct_named_of_cases hnames settings.defaultModel_ne hmodels
  exact ⟨resolveModelChain_ne_nil settings overrides, hlen, hnamed, hnodup,
    List.head?_eq_some_head _⟩

/-- **The model chain is always well-formed**, and it is the first three
different names of the first source that is not empty.  A request without
overrides overrides nothing. -/
theorem resolved_chain_well_formed (settings : CoreSettings)
    (overrides : Option SafeRequestOverrides) :
    WellFormedChain (resolveRequestOverrides settings (overrides.getD {})) ∧
    ∃ chain names,
      (chainSources settings (overrides.getD {})).find? (fun source => !source.isEmpty) =
        some chain ∧
      FirstOccurrences (· ≠ "") chain names ∧
      (((∃ name ∈ chain, name ≠ "") ∧
          (resolveRequestOverrides settings (overrides.getD {})).models = names.take 3) ∨
        ((∀ name ∈ chain, name = "") ∧
          (resolveRequestOverrides settings (overrides.getD {})).models =
            [settings.defaultModel])) := by
  obtain ⟨names, hnames, hcases⟩ := resolveModelChain_cases settings (overrides.getD {})
  exact ⟨wellFormedChain_resolved settings _, _, names, find_chainSources settings _, hnames,
    hcases⟩

example : (resolveRequestOverrides .plain
    { model := some "z", models := some ["a", "", "b", "a", "c", "d"] }).models =
      ["a", "b", "c"] := by decide

end InternumCore
