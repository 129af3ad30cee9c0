import Aftercare.System.Checkpoints

/-!
# The pinned strategy

A checkpoint carries the identity of its strategy: the strategy, the configuration of the model, the policy and the
tool schemas. `run_model_harness` compares the first two only (`strategy_pinned_iff`), so another policy goes on
under the old identity (`policy_change_unnoticed`).
-/

namespace Aftercare

open Relational Text

/-- The hook, the renderer, the provider and the executor. -/
structure Outside where
  before_run : Option (RunScope → Result Unit)
  render_input : Checkpoint → Result ResponsesInput
  complete : ResponsesRequest → Except ProviderFailure NormalizedResponse
  execute : ToolRequest → RunScope → Time → Result ArtifactReference

def ModelHarness.within (harness : ModelHarness) (outside : Outside) : ModelHarness :=
  { harness with
    before_run := outside.before_run, render_input := outside.render_input
    complete := outside.complete, execute := outside.execute }

/-- A hook that raises shows in every slice that calls it. -/
def Outside.failing (failure : Failure) : Outside where
  before_run := some fun _ => .error failure
  render_input _ := .error failure
  complete _ := .error (.raised failure)
  execute _ _ _ := .error failure

/-- The deployment differs from the checkpoint's. -/
def ModelHarness.Drifted (harness : ModelHarness) (c : Checkpoint) : Prop :=
  c.strategy_id.val ≠ harness.strategy_id ∨ c.model_config_version.val ≠ harness.configVersion ∨
    c.policy_version.val ≠ harness.policy_version ∨
    c.tool_schema_version.val ≠ harness.tool_schema_version

/-- The slice ends in the same review, with the budget and results. -/
def ModelHarness.StopsChanged [JsonDecoding] (harness : ModelHarness) (scope : RunScope)
    (c : Checkpoint) (now : Time) (max_steps : ℤ) : Prop :=
  ∃ result, (∀ outside, runModelHarness (harness.within outside) scope (some c) now max_steps = .ok result) ∧
    result.checkpoint.next_step = .review ∧
    result.checkpoint.route_reason = some .modelStrategyChanged ∧
    result.checkpoint.remaining_budget = c.remaining_budget ∧
    result.checkpoint.tool_results = c.tool_results

theorem ModelHarness.strategyChanged_iff {harness : ModelHarness} {c : Checkpoint} : harness.strategyChanged c = true ↔
      c.strategy_id.val ≠ harness.strategy_id ∨ c.model_config_version.val ≠ harness.configVersion := by
  simp only [ModelHarness.strategyChanged, Bool.or_eq_true, bne_iff_ne]

theorem runModelHarness_hook [JsonDecoding] {harness : ModelHarness} {c : Checkpoint} {now : Time}
    {max_steps : ℤ} (hsteps : 1 ≤ max_steps) (hsame : ¬harness.strategyChanged c = true) :
    runModelHarness (harness.within (.failing .assertion)) c.toRunScope (some c) now max_steps = .error .assertion := by
  have hsame' : ¬(harness.within (.failing .assertion)).strategyChanged c = true := hsame
  simp only [runModelHarness, require, if_pos hsteps, ok_bind, if_true, if_neg hsame']
  rfl

/-- **The pinned strategy.** A slice stops on a change of identity exactly when the strategy or the model's configuration is
among what changed. -/
theorem strategy_pinned_iff [JsonDecoding] (harness : ModelHarness) (scope : RunScope) (c : Checkpoint)
    (now : Time) (max_steps : ℤ) : (harness.Drifted c → harness.StopsChanged scope c now max_steps) ↔
      (harness.Drifted c → 1 ≤ max_steps ∧ c.toRunScope = scope ∧ (c.strategy_id.val ≠ harness.strategy_id ∨
          c.model_config_version.val ≠ harness.configVersion)) := by
  refine imp_congr_right fun _ => ⟨?_, ?_⟩
  · rintro ⟨result, hresult, -⟩
    have hrun := hresult (.failing .assertion)
    have hchecks := hrun
    simp only [runModelHarness, ok_iff] at hchecks
    obtain ⟨hsteps, hscope, -⟩ := hchecks
    refine ⟨hsteps, hscope, ?_⟩
    -- Otherwise the hook is called, and what it raises leaves the slice.
    by_contra hsame
    rw [← ModelHarness.strategyChanged_iff] at hsame
    rw [← hscope, runModelHarness_hook hsteps hsame] at hrun
    cases hrun
  · rintro ⟨hsteps, hscope, hchanged⟩
    refine ⟨.of (c.route .review .modelStrategyChanged c.remaining_budget none) false,
      fun outside => ?_, rfl, rfl, rfl, rfl⟩
    have hchanged' : (harness.within outside).strategyChanged c = true :=
      ModelHarness.strategyChanged_iff.mpr hchanged
    simp only [runModelHarness, require, if_pos hsteps, if_pos hscope, ok_bind, if_pos hchanged']
    rfl

def firstDeployment : ModelHarness := (sampleInput firstCall (·.toCaseScope)).harness

/-- One with another policy, and one with other tool schemas. -/
def laterDeployments : List ModelHarness :=
  [{ firstDeployment with policy_version := "policy-v2" },
    { firstDeployment with tool_schema_version := "tools-v2" }]

/-- Under another deployment a slice goes on and buys a turn. -/
theorem policy_change_unnoticed : ∃ c, initialCheckpoint firstDeployment sampleScope 0 = .ok c ∧
      ∀ harness ∈ laterDeployments, harness.Drifted c ∧
        ¬@ModelHarness.StopsChanged sampleDecoding harness sampleScope c 1 8 ∧
        (@runModelHarness sampleDecoding harness sampleScope (some c) 1 8).map
          (fun result => (result.checkpoint.next_step, c.remaining_budget.model_calls,
            result.checkpoint.remaining_budget.model_calls)) = .ok (.tool, 8, 7) := by
  refine ⟨_, rfl, ?_⟩
  simp only [laterDeployments, List.forall_mem_cons, List.not_mem_nil, false_implies, implies_true, and_true]
  refine ⟨⟨?_, ?_, by decide⟩, ⟨?_, ?_, by decide⟩⟩
  · exact .inr (.inr (.inl (by decide)))
  · rintro ⟨result, hresult, -⟩
    have hrun := hresult (.failing .assertion)
    cases hrun
  · exact .inr (.inr (.inr (by decide)))
  · rintro ⟨result, hresult, -⟩
    have hrun := hresult (.failing .assertion)
    cases hrun

end Aftercare
