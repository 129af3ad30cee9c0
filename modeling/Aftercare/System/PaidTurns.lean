import Aftercare.Runtime.Turns
import Aftercare.System.Checkpoints

/-!
# Paid turns

Once the provider has been called the turn is to end with a checkpoint that has one model call less. What the
harness does not catch is lost with the charge: `TurnLost` lists these answers, and `paid_turn_iff` says that there
are no others.
-/

namespace Aftercare

open Relational Text

/-- A turn that is lost on this answer. -/
inductive TurnLost [JsonDecoding] (harness : ModelHarness) (allowed_tools : List String)
    (c : Checkpoint) (input : ResponsesInput) (payload : List (String × Json)) : Prop
  /-- The model has no valid name, or the input is empty. -/
  | request (hrequest : identifierValid harness.model = false ∨ input.present = false)
  /-- The adapter raises what is no contract violation. -/
  | response (htools : ∀ tool ∈ harness.tools, tool.name.val ∈ allowed_tools)
      (hlost : ResponseLost allowed_tools payload)
  /-- The arguments of the call are too long for the checkpoint. -/
  | tool {response_id name call_id text : String} {output : List Json} {usage : ResponseUsage}
      {item : List (String × Json)} {read : Json}
      (htools : ∀ tool ∈ harness.tools, tool.name.val ∈ allowed_tools)
      (hopens : Opens payload response_id output)
      (haccepted : Accepted allowed_tools payload output)
      (husage : responseUsage payload = .ok usage)
      (hpaid : ((usage.input_tokens * harness.pricing.input_microusd_per_token +
        usage.output_tokens * harness.pricing.output_microusd_per_token : ℕ) : ℤ) ≤
          c.remaining_budget.cost_microusd)
      (hcall : functionCalls output = [item]) (hasks : Asks allowed_tools item name call_id text)
      (hloads : JsonDecoding.loads text = .ok read) (hbudget : 1 ≤ c.remaining_budget.tool_calls)
      (hlong : 65536 < read.merged.dumps.length)

variable {harness : ModelHarness} {adapter : ResponsesAdapter} {c : Checkpoint} {now : Time}
  {input : ResponsesInput} {payload : List (String × Json)}

theorem ModelHarness.failedTurn_raises {failure : Failure} :
    Raises (fun _ => True) (harness.failedTurn c now (.raised failure)) ↔ failure.Escapes := by
  cases failure <;>
    simp [ModelHarness.failedTurn, ProviderFailure.normalizeError, Failure.Escapes, raises_bind]

theorem responsesRequest_raises {model : String} {tools : List ToolSpec} :
    Raises Failure.Escapes (responsesRequest model input tools) ↔
      identifierValid model = false ∨ input.present = false := by
  simp only [responsesRequest, raises_bind, identifier_raises, raises_require, raises_pure,
    identifier_eq_ok, Failure.Escapes, and_true, and_false, exists_false, or_false]
  cases hvalid : identifierValid model with
  | false => simp
  | true =>
    constructor
    · rintro (h | ⟨_, -, h⟩)
      · cases h
      · exact .inr (by simpa using h)
    · rintro (h | h)
      · cases h
      · exact .inr ⟨⟨model, hvalid⟩, rfl, by simpa using h⟩

/-- A paid call with too long arguments raises. -/
theorem answeredTurn_lost [JsonDecoding] {allowed_tools : List String} {response : NormalizedResponse}
    (htools : ∀ tool ∈ harness.tools, tool.name.val ∈ allowed_tools)
    (hresponse : normalizeResponse payload allowed_tools = .ok response)
    (h : Raises (fun _ => True) (harness.answeredTurn c response)) :
    TurnLost harness allowed_tools c input payload := by
  obtain ⟨output, items, hopens, hitems, husage, -, hcalls⟩ := normalizeResponse_eq_ok.mp hresponse
  obtain ⟨paid, call, hcost, hpaid, hcall, hbudget, hlong⟩ := harness.answeredTurn_raises.mp h
  obtain ⟨usage, hsome, rfl⟩ : ∃ usage, response.usage = some usage ∧ _ = paid := by
    simpa only [cost, Option.map_eq_some_iff] using hcost
  rw [hsome] at husage
  have hforall := mapM_outputItem_calls hitems
  rw [← hcalls, hcall, List.forall₂_cons_right_iff] at hforall
  obtain ⟨item, rest, hfunction, hrest, heq⟩ := hforall
  rw [List.forall₂_nil_right_iff] at hrest
  rw [hrest] at heq
  obtain ⟨text, read, hasks, hloads, hobject, -, -⟩ := functionCall_eq_ok.mp hfunction
  refine .tool htools hopens ⟨mapM_exists_ok.mp ⟨items, hitems⟩, ?_⟩
    (optionalUsage_eq_some.mp husage) hpaid heq hasks hloads hbudget ?_
  · exact optionalUsage_exists.mp ⟨_, husage⟩
  · rw [hobject]
    exact hlong

theorem TurnLost.answeredTurn_raises [JsonDecoding] {allowed_tools : List String} {response : NormalizedResponse}
    (hrequest : ¬(identifierValid harness.model = false ∨ input.present = false))
    (hresponse : normalizeResponse payload allowed_tools = .ok response)
    (h : TurnLost harness allowed_tools c input payload) :
    Raises (fun _ => True) (harness.answeredTurn c response) := by
  rcases h with hno | ⟨-, hlost⟩ | ⟨-, hopens, -, husage, hpaid, hcall, hasks, hloads, hbudget, hlong⟩
  · exact absurd hno hrequest
  · rw [← normalizeResponse_raises, hresponse] at hlost
    exact absurd hlost raises_ok
  obtain ⟨output, items, hopens', hitems, husage', -, hcalls⟩ := normalizeResponse_eq_ok.mp hresponse
  -- The output and the usage of the answer are those that were normalized.
  obtain rfl := Json.array.inj (hopens.output.symm.trans hopens'.output)
  have hsome : some _ = response.usage := Except.ok.inj ((optionalUsage_eq_some.mpr husage).symm.trans husage')
  have hforall := mapM_outputItem_calls hitems
  rw [← hcalls, hcall, List.forall₂_cons_left_iff] at hforall
  obtain ⟨call, rest, hfunction, hrest, heq⟩ := hforall
  rw [List.forall₂_nil_left_iff] at hrest
  rw [hrest] at heq
  obtain ⟨text, read, hasks', hloads', hobject, -, -⟩ := functionCall_eq_ok.mp hfunction
  obtain rfl := Json.string.inj (hasks.arguments.symm.trans hasks'.arguments)
  obtain rfl := Except.ok.inj (hloads.symm.trans hloads')
  refine harness.answeredTurn_raises.mpr ⟨_, call, ?_, hpaid, heq, hbudget, ?_⟩
  · rw [cost, ← hsome]
    rfl
  · rw [← hobject]
    exact hlong

theorem ModelHarness.modelStep_called [JsonDecoding] (hdeadline : now < c.remaining_budget.deadline)
    (hcalls : 1 ≤ c.remaining_budget.model_calls) (hinput : harness.render_input c = .ok input) :
    harness.modelStep c now =
      match harness.callProvider input with
      | .error failure => harness.failedTurn c now failure
      | .ok response => harness.answeredTurn c response := by
  rw [ModelHarness.modelStep, if_neg (not_le.mpr hdeadline), if_neg (not_lt.mpr hcalls), hinput]
  rfl

theorem ResponsesAdapter.complete_answer [JsonDecoding] {request : ResponsesRequest}
    (hanswer : adapter.create request = .ok (.object payload)) : adapter.complete request =
      if ∀ tool ∈ request.tools, tool.name.val ∈ adapter.allowed_tools then
        (normalizeResponse payload adapter.allowed_tools).mapError .raised
      else .error (.raised (.contract .forbidden "request contains an unallowed tool")) := by
  rw [ResponsesAdapter.complete, hanswer]
  simp only [List.all_eq_true, List.contains_iff_mem]
  rfl

theorem responsesRequest_tools {model : String} {tools : List ToolSpec} {request : ResponsesRequest}
    (h : responsesRequest model input tools = .ok request) : request.tools = tools := by
  simp only [responsesRequest, ok_iff] at h
  obtain ⟨_, -, -, rfl⟩ := h
  rfl

theorem modelStep_raises [JsonDecoding] (hprovider : harness.complete = adapter.complete)
    (hanswer : ∀ request, adapter.create request = .ok (.object payload))
    (hdeadline : now < c.remaining_budget.deadline) (hcalls : 1 ≤ c.remaining_budget.model_calls)
    (hinput : harness.render_input c = .ok input) : Raises (fun _ => True) (harness.modelStep c now) ↔
      TurnLost harness adapter.allowed_tools c input payload := by
  rw [harness.modelStep_called hdeadline hcalls hinput, ModelHarness.callProvider]
  cases hrequest : responsesRequest harness.model input harness.tools with
  | error failure =>
    have hfails : Raises Failure.Escapes (responsesRequest harness.model input harness.tools) := by
      rw [hrequest, raises_error]
      -- Neither of the two validations is a contract violation.
      have hno : ∀ code message, failure ≠ .contract code message := by
        rintro code message rfl
        unfold responsesRequest identifier require at hrequest
        split_ifs at hrequest <;> cases hrequest
      cases failure <;> simp_all [Failure.Escapes]
    have hlost := responsesRequest_raises.mp hfails
    rw [hrequest, raises_error] at hfails
    exact iff_of_true (ModelHarness.failedTurn_raises.mpr hfails) (.request hlost)
  | ok request =>
    have hbuilt : ¬(identifierValid harness.model = false ∨ input.present = false) := by
      rw [← responsesRequest_raises, hrequest]
      exact raises_ok
    simp only
    rw [hprovider, ResponsesAdapter.complete_answer (hanswer request), responsesRequest_tools hrequest]
    split_ifs with htools
    · cases hresponse : normalizeResponse payload adapter.allowed_tools with
      | error failure =>
        have hescapes : failure.Escapes ↔ ResponseLost adapter.allowed_tools payload := by
          rw [← normalizeResponse_raises, hresponse, raises_error]
        simp only [Except.mapError]
        rw [ModelHarness.failedTurn_raises, hescapes]
        constructor
        · exact .response htools
        · rintro (hno | ⟨-, hlost⟩ | ⟨-, hopens, haccepted, -⟩)
          · exact absurd hno hbuilt
          · exact hlost
          · obtain ⟨r, hr⟩ | hlost := haccepted.normalized hopens
            · rw [hresponse] at hr
              cases hr
            · exact hlost
      | ok response =>
        simp only [Except.mapError]
        exact ⟨answeredTurn_lost htools hresponse, TurnLost.answeredTurn_raises hbuilt hresponse⟩
    · refine iff_of_false ?_ ?_
      · simp only
        rw [ModelHarness.failedTurn_raises]
        exact id
      · rintro (hno | ⟨hyes, -⟩ | ⟨hyes, -⟩)
        · exact hbuilt hno
        · exact htools hyes
        · exact htools hyes

/-! ## Answers that are kept and answers that are lost -/

def callItem (tool : Identifier) (call_id arguments_text : String) : List (String × Json) :=
  [("type", .string "function_call"), ("name", .string tool.val), ("call_id", .string call_id),
    ("arguments", .string arguments_text)]

def toolAnswer (tool : Identifier) (response_id call_id arguments_text : String) : List (String × Json) :=
  [("id", .string response_id), ("output", .array [.object (callItem tool call_id arguments_text)]),
    ("usage", .object [("input_tokens", .int 10), ("output_tokens", .int 5)])]

/-- An adapter of this tool whose client gives this answer. -/
def answeringAdapter (tool : Identifier) (payload : List (String × Json)) : ResponsesAdapter :=
  ⟨[tool.val], fun _ => .ok (.object payload)⟩

/-- The deployment with this tool and this adapter. -/
def answeringHarness [JsonDecoding] (tool : Identifier) (payload : List (String × Json)) : ModelHarness :=
  { (sampleInput firstCall (·.toCaseScope)).harness with
    tools := [⟨tool⟩], complete := (answeringAdapter tool payload).complete }

/-- A decoder that gives up on one nested text. -/
@[reducible]
def shallowDecoding : JsonDecoding where
  loads text := if text = "[[]]" then .error .recursion else sampleDecoding.loads text

/-- The model phase on the answer with these ids and arguments. -/
def sampleTurn [JsonDecoding] (c : Checkpoint) (response_id call_id arguments_text : String) :
    Result Checkpoint :=
  (answeringHarness sampleTool (toolAnswer sampleTool response_id call_id arguments_text)).modelStep c
    1

end Aftercare
