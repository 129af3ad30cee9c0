import Aftercare.Runtime.Adapter

/-!
# Turns of the model

What a turn does to its checkpoint once the provider has been called: it costs one model call, and the
Run is routed or goes on (`Turned`). A turn that raises does neither, and the worker saves nothing. The
second half says when the parts of a turn raise something that no `except ContractViolation` catches.
-/

namespace Aftercare

open Relational Text Investigation

/-! ## What a turn costs -/

structure Turned (c c' : Checkpoint) : Prop where
  version : c'.checkpoint_version = c.checkpoint_version + 1
  calls : c'.remaining_budget.model_calls = c.remaining_budget.model_calls - 1
  deadline : c'.remaining_budget.deadline = c.remaining_budget.deadline
  next : c'.next_step = .review ∨ c'.next_step = .retry ∨ c'.next_step = .tool ∨
    c'.next_step = .evaluate

variable {c c' : Checkpoint} {charged : RemainingBudget}

/-- The checkpoint of a turn that leaves this budget. -/
structure TurnEnds (c : Checkpoint) (charged : RemainingBudget) (c' : Checkpoint) : Prop where
  version : c'.checkpoint_version = c.checkpoint_version + 1
  budget : c'.remaining_budget = charged
  next : c'.next_step = .review ∨ c'.next_step = .retry ∨ c'.next_step = .tool ∨
    c'.next_step = .evaluate
  admitted : ∀ reason, c'.route_reason = some reason → reason.refuses = false

theorem Turn.ends [JsonDecoding] {response : Option NormalizedResponse} (h : Turn c charged response c') :
    TurnEnds c charged c' := by
  cases h with
  | review hreason =>
    refine ⟨rfl, rfl, .inl rfl, ?_⟩
    rintro _ ⟨⟩
    exact hreason
  | retry hreason available_at =>
    refine ⟨rfl, rfl, .inr (.inl rfl), ?_⟩
    rintro _ ⟨⟩
    exact hreason
  | asked hcalls htool => exact ⟨rfl, rfl, .inr (.inr (.inl rfl)), nofun⟩
  | proposed hparsed => exact ⟨rfl, rfl, .inr (.inr (.inr rfl)), nofun⟩

theorem TurnEnds.turned (h : TurnEnds c charged c') (hcalls : charged.model_calls = c.remaining_budget.model_calls - 1)
    (hdeadline : charged.deadline = c.remaining_budget.deadline) : Turned c c' where
  version := h.version
  calls := by rw [h.budget, hcalls]
  deadline := by rw [h.budget, hdeadline]
  next := h.next

variable {harness : ModelHarness} {response : NormalizedResponse}

/-! ## What leaves a turn -/

theorem attempt_raises {α : Type} {x : Result α} : Raises (fun _ => True) (attempt x) ↔ Raises Failure.Escapes x := by
  rcases x with e | a
  · cases e <;> simp [attempt, Failure.Escapes]
  · simp [attempt]

theorem parseInvestigationProposal_contract [JsonDecoding] {payload : String} :
    ¬Raises Failure.Escapes (parseInvestigationProposal payload) := by
  rw [parseInvestigationProposal, strictJsonObject, raises_bind, raises_bind, raises_require]
  rintro ((⟨-, h⟩ | ⟨_, -, h⟩) | ⟨pairs, -, h⟩)
  · exact h
  · split at h
    · exact raises_error.mp h
    · rw [raises_bind, raises_require] at h
      rcases h with ⟨-, h⟩ | ⟨_, -, h⟩
      · exact h
      · split at h
        · exact raises_pure h
        · exact raises_error.mp h
  · unfold fetch at h
    split at h
    · exact raises_ok h
    · exact raises_error.mp h

theorem ToolCall.request_raises {call : ToolCall} :
    Raises (fun _ => True) call.request ↔ 65536 < (Json.object call.arguments).dumps.length := by
  unfold ToolCall.request
  simp only
  split_ifs with h
  · simpa using h
  · simpa using h

/-- An answered turn raises only on a paid tool with too long arguments. -/
theorem ModelHarness.answeredTurn_raises [JsonDecoding] : Raises (fun _ => True) (harness.answeredTurn c response) ↔
      ∃ paid call, cost response harness.pricing = some paid ∧
        paid ≤ c.remaining_budget.cost_microusd ∧ response.tool_calls = [call] ∧
        1 ≤ c.remaining_budget.tool_calls ∧
        65536 < (Json.object call.arguments).dumps.length := by
  unfold ModelHarness.answeredTurn
  simp only
  cases hcost : cost response harness.pricing with
  | none => simp
  | some paid =>
    simp only
    split_ifs with hpaid
    · simp only [raises_pure, false_iff]
      rintro ⟨_, _, hsome, hle, -⟩
      cases hsome
      exact absurd hpaid (not_lt.mpr hle)
    · unfold chargedTurn
      cases hcalls : response.tool_calls with
      | nil =>
        simp only [List.ne_cons_self, false_and, and_false, exists_false, iff_false]
        split_ifs
        · exact raises_pure
        · rw [raises_bind, attempt_raises]
          rintro (h | ⟨outcome, -, h⟩)
          · exact parseInvestigationProposal_contract h
          · cases outcome <;> exact raises_pure h
      | cons call rest =>
        cases rest with
        | nil =>
          simp only
          split_ifs with htools
          · simp only [raises_pure, false_iff]
            rintro ⟨_, _, -, -, -, hone, -⟩
            exact absurd htools (not_lt.mpr hone)
          · rw [raises_bind, ToolCall.request_raises]
            constructor
            · rintro (h | ⟨tool, -, h⟩)
              · exact ⟨paid, call, rfl, not_lt.mp hpaid, rfl, not_lt.mp htools, h⟩
              · exact absurd h raises_pure
            · rintro ⟨_, _, -, -, heq, -, h⟩
              cases heq
              exact .inl h
        | cons other rest => simp

end Aftercare
