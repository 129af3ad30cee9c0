import Aftercare.Runtime.Slices
import Aftercare.System.PaidTurns

/-!
# Ambiguous arguments

`strict_json_object` refuses a text that repeats a key, but the tool phase reads what the adapter has left of it,
which keeps the last value of each key. So a call of the one tool with arguments is executed when what is left is
in order (`ambiguous_executed`), and every other ambiguous call is refused (`ambiguous_refused`).
-/

namespace Aftercare

open Relational Text

/-! ## Calls of the executor -/

/-- The deployment with an executor that raises on a request. -/
def ModelHarness.interrupted (harness : ModelHarness) (request : ToolRequest) (failure : Failure) :
    ModelHarness :=
  { harness with
    execute := fun r scope now =>
      if r = request then .error failure else harness.execute r scope now }

def RunSlice.interrupted (s : RunSlice) (request : ToolRequest) (failure : Failure) : RunSlice :=
  { s with input := { s.input with harness := s.input.harness.interrupted request failure } }

/-- The slice passes the request to its executor. -/
def RunSlice.Passes [JsonDecoding] (s : RunSlice) (previous : Option Checkpoint)
    (request : ToolRequest) : Prop :=
  ∀ failure : Failure, failure.Escapes →
    (s.interrupted request failure).advance previous = .error failure

/-- Some budget, time and set of tools let the request pass. -/
def ToolRequest.Admissible [JsonDecoding] (request : ToolRequest) : Prop :=
  ∃ allowed_tools budget now arguments, validateToolRequest request true allowed_tools budget now = .ok arguments

variable {harness : ModelHarness} {c : Checkpoint} {now : Time} {request : ToolRequest}
  {failure : Failure}

theorem ModelHarness.toolStep_interrupted [JsonDecoding] (h : ¬request.Admissible) :
    (harness.interrupted request failure).toolStep c now = harness.toolStep c now := by
  unfold ModelHarness.toolStep
  refine bind_congr_ok fun pending _ => bind_congr_ok fun outcome hvalidated => ?_
  cases outcome with
  | error code => rfl
  | ok arguments =>
    have hne : pending ≠ request := by
      rintro rfl
      exact h ⟨_, _, _, arguments, attempt_eq_value.mp hvalidated⟩
    simp only [ModelHarness.interrupted, if_neg hne]

theorem ModelHarness.resume_interrupted [JsonDecoding] (h : ¬request.Admissible) :
    (harness.interrupted request failure).resume c now = harness.resume c now := by
  unfold ModelHarness.resume
  refine bind_congr_ok fun outcome _ => ?_
  cases outcome with
  | error code => rfl
  | ok _ =>
    simp only [ModelHarness.phase, ModelHarness.toolStep_interrupted h]
    rfl

theorem runModelHarness_interrupted [JsonDecoding] {scope : RunScope}
    {checkpoint : Option Checkpoint} {max_steps : ℤ} (h : ¬request.Admissible) :
    runModelHarness (harness.interrupted request failure) scope checkpoint now max_steps =
      runModelHarness harness scope checkpoint now max_steps := by
  unfold runModelHarness
  simp only [ModelHarness.resume_interrupted h]
  rfl

theorem RunSlice.Passes.admissible [JsonDecoding] {s : RunSlice} {previous : Option Checkpoint}
    (hpasses : s.Passes previous request) : request.Admissible := by
  by_contra h
  have hsame : ∀ failure, (s.interrupted request failure).advance previous = s.advance previous := by
    intro failure
    unfold RunSlice.advance
    simp only [RunSlice.interrupted, runModelHarness_interrupted h]
    rfl
  -- Two executors that raise different things cannot end one slice.
  have hfirst := hpasses .assertion trivial
  have hsecond := hpasses .overflow trivial
  rw [hsame] at hfirst hsecond
  rw [hfirst] at hsecond
  cases hsecond

/-! ## What is left of ambiguous arguments -/

variable {pairs : List (String × Json)} {c' : Checkpoint}

theorem strictJsonObject_loads [JsonDecoding] {payload : String}
    (h : strictJsonObject payload = .ok pairs) : JsonDecoding.loads payload = .ok (.object pairs) := by
  simp only [strictJsonObject, ok_iff] at h
  obtain ⟨-, h⟩ := h
  split at h
  · cases h
  · rename_i value hloads
    simp only [ok_iff] at h
    obtain ⟨-, h⟩ := h
    split at h
    · cases h
      exact hloads
    · cases h

theorem materialQuestion_sorted (value : Json) : materialQuestion value.sorted = materialQuestion value := by
  cases value <;> rfl

theorem mapM_materialQuestion_sorted (items : List Json) :
    (sortedItems items).mapM materialQuestion = items.mapM materialQuestion := by
  induction items with
  | nil => rfl
  | cons item items ih =>
    rw [sortedItems, List.mapM_cons, List.mapM_cons, materialQuestion_sorted, ih]

theorem materialDraftArguments_single (key : String) (value : Json) :
    materialDraftArguments [(key, value.sorted)] = materialDraftArguments [(key, value)] := by
  have hfields : onlyFields ["questions"] [(key, value.sorted)] = onlyFields ["questions"] [(key, value)] := rfl
  unfold materialDraftArguments
  rw [hfields]
  simp only [List.lookup_cons, List.lookup_nil]
  cases onlyFields ["questions"] [(key, value)] with
  | false => rfl
  | true =>
    cases "questions" == key with
    | false => rfl
    | true =>
      cases value with
      | array items => simp only [Json.sorted, mapM_materialQuestion_sorted]
      | _ => rfl

theorem materialDraftArguments_sorted {arguments : ToolArguments} (hnodup : (pairs.map Prod.fst).Nodup)
    (h : materialDraftArguments ((sortedPairs pairs).insertionSort fun a b => a.1 ≤ b.1) = some arguments) :
    materialDraftArguments pairs = some arguments := by
  -- Every key is the only one that is known.
  have hkeys : ∀ k ∈ pairs.map Prod.fst, k = "questions" := by
    have honly : onlyFields ["questions"] ((sortedPairs pairs).insertionSort fun a b => a.1 ≤ b.1) = true := by
      by_contra hnot
      rw [Bool.not_eq_true] at hnot
      rw [materialDraftArguments, hnot] at h
      cases h
    intro k hk
    rw [← keys_sortedPairs, List.mem_map] at hk
    obtain ⟨p, hp, rfl⟩ := hk
    rw [onlyFields, List.all_eq_true] at honly
    have hp' := honly p ((List.perm_insertionSort _ _).mem_iff.mpr hp)
    simpa using hp'
  match pairs, hnodup, hkeys, h with
  | [], _, _, h => cases h
  | [(key, value)], _, _, h =>
    rw [sortedPairs, sortedPairs] at h
    rw [← materialDraftArguments_single]
    exact h
  | p :: q :: rest, hnodup, hkeys, _ =>
    have hp := hkeys p.1 (by simp)
    have hq := hkeys q.1 (by simp)
    rw [List.map_cons, List.map_cons, List.nodup_cons, hp, hq] at hnodup
    exact absurd List.mem_cons_self hnodup.1

theorem Json.merged_ambiguous {value : Json} (hambiguous : value.ambiguous = true)
    (hmerged : value.merged = .object pairs) : (pairs.map Prod.fst).Nodup ∧ pairs ≠ [] := by
  cases value with
  | object read =>
    rw [Json.merged, Json.object.injEq] at hmerged
    have hempty : (([] : List (String × Json)).map Prod.fst).Nodup := List.nodup_nil
    obtain ⟨hnodup, hkeys⟩ := @setKeys_keys _ (mergedPairs read) [] hempty
    rw [hmerged, keys_mergedPairs] at hkeys
    rw [hmerged] at hnodup
    refine ⟨hnodup, fun hnil => ?_⟩
    have hread : read = [] := by
      cases read with
      | nil => rfl
      | cons p rest =>
        have hp := (hkeys p.1).mpr (.inl (by simp))
        rw [hnil] at hp
        cases hp
    rw [hread] at hambiguous
    cases hambiguous
  | _ => cases hmerged

/-- An ambiguous call passes only as a draft that is in order. -/
theorem ToolCall.not_admissible [JsonDecoding] {call : ToolCall} {read : Json}
    (hmerged : read.merged = .object call.arguments) (hambiguous : read.ambiguous = true)
    (hreads : JsonDecoding.ReadsBack read.merged) (hdraft : call.name.val = "request_material_draft" →
      materialDraftArguments call.arguments = none)
    (hrequest : call.request = .ok request) : ¬request.Admissible := by
  obtain ⟨hnodup, hne⟩ := Json.merged_ambiguous hambiguous hmerged
  have hfields : request.name = call.name ∧ request.arguments_json = (Json.object call.arguments).dumps := by
    unfold ToolCall.request at hrequest
    simp only at hrequest
    split_ifs at hrequest
    cases hrequest
    exact ⟨rfl, rfl⟩
  rintro ⟨allowed_tools, budget, now, arguments, h⟩
  simp only [validateToolRequest, ok_iff] at h
  obtain ⟨-, -, -, pairs, hpairs, h⟩ := h
  rw [hfields.1] at h
  -- The strict reader sees the text of what was left, in the order of the keys.
  have hsorted : pairs = (sortedPairs call.arguments).insertionSort fun a b => a.1 ≤ b.1 := by
    have hloads := strictJsonObject_loads hpairs
    rw [hfields.2, ← hmerged] at hloads
    have hread := hreads _ hloads
    rw [hmerged, Json.sorted] at hread
    exact Json.object.inj hread
  split_ifs at h with hname
  · rw [hsorted] at h
    rw [materialDraftArguments_sorted hnodup h] at hdraft
    cases hdraft hname
  · have hnil : pairs = [] := by
      unfold boundLookupArguments at h
      split_ifs at h with honly
      rw [onlyFields, List.all_eq_true] at honly
      refine List.eq_nil_iff_forall_not_mem.mpr fun p hp => ?_
      exact absurd (honly p hp) (by simp)
    have hlength := congrArg List.length (hsorted.symm.trans hnil)
    rw [List.length_insertionSort, ← List.length_map (f := Prod.fst), keys_sortedPairs,
      List.length_map, List.length_nil] at hlength
    exact hne (List.eq_nil_of_length_eq_zero hlength)

/-! ## The turn and the slices after it -/

/-- A turn goes on to the tool phase with its only call. -/
theorem modelStep_tool [JsonDecoding] {adapter : ResponsesAdapter} {payload : List (String × Json)}
    (hprovider : harness.complete = adapter.complete)
    (hanswer : ∀ request, adapter.create request = .ok (.object payload))
    (hturn : harness.modelStep c now = .ok c') (hnext : c'.next_step = .tool) :
    ∃ output item call request, getField payload "output" = .array output ∧
      functionCalls output = [item] ∧ functionCall item adapter.allowed_tools = .ok call ∧
      call.request = .ok request ∧ c'.pending_tool = some request := by
  obtain ⟨-, reason, rfl⟩ | ⟨charged, response, htaken, -, hresponse⟩ := harness.modelStep_turn hturn
  · cases hnext
  cases htaken with
  | review hreason => cases hnext
  | retry hreason available_at => cases hnext
  | proposed hparsed => cases hnext
  | @asked response call request hcall hrequest =>
    obtain ⟨input, hresponse⟩ := hresponse response rfl
    have hnormal : normalizeResponse payload adapter.allowed_tools = .ok response := by
      unfold ModelHarness.callProvider at hresponse
      split at hresponse
      · cases hresponse
      rw [hprovider, ResponsesAdapter.complete_answer (hanswer _)] at hresponse
      split_ifs at hresponse
      cases hnormal : normalizeResponse payload adapter.allowed_tools with
      | error e =>
        rw [hnormal] at hresponse
        cases hresponse
      | ok r =>
        rw [hnormal] at hresponse
        cases hresponse
        rfl
    obtain ⟨output, items, hopens, hitems, -, -, hcalls⟩ := normalizeResponse_eq_ok.mp hnormal
    have hforall := mapM_outputItem_calls hitems
    rw [← hcalls, hcall, List.forall₂_cons_right_iff] at hforall
    obtain ⟨item, rest, hfunction, hrest, heq⟩ := hforall
    rw [List.forall₂_nil_right_iff] at hrest
    rw [hrest] at heq
    exact ⟨output, item, call, request, hopens.output, heq, hfunction, hrequest, rfl⟩

theorem RunSlice.advance_refused [JsonDecoding] {s : RunSlice} (hnext : c.next_step = .tool)
    (hpending : c.pending_tool = some request) (hrefused : ¬request.Admissible) (h : s.advance (some c) = .ok c') :
    c'.pending_tool = none ∧ (c'.next_step = .review ∨ c'.next_step = .retry) := by
  have hwait : ¬c.next_step = .wait := by rw [hnext]; decide
  have hreopened : c.reopened = c := by
    unfold Checkpoint.reopened
    rw [if_neg (by rw [hnext]; decide)]
  simp only [RunSlice.advance, Slice.resume, resumeWait, if_neg hwait, ok_iff] at h
  obtain ⟨_, ⟨_, rfl, rfl⟩, result, hresult, -, hassess⟩ := h
  simp only [runModelHarness, hreopened, ok_iff] at hresult
  obtain ⟨-, -, hresult⟩ := hresult
  suffices hrouted : result.proposal = none ∧ result.checkpoint.pending_tool = none ∧
      (result.checkpoint.next_step = .review ∨ result.checkpoint.next_step = .retry) by
    rw [hrouted.1] at hassess
    cases hassess
    exact hrouted.2
  split_ifs at hresult
  · cases hresult
    exact ⟨rfl, rfl, .inl rfl⟩
  simp only [ModelHarness.resume, bind_eq_ok] at hresult
  obtain ⟨hook, -, hresult⟩ := hresult
  cases hook with
  | error code =>
    simp only [ok_iff] at hresult
    obtain ⟨routed, hrouted, rfl⟩ := hresult
    cases ModelHarness.routeFailure_turn rfl hrouted with
    | review hreason => exact ⟨rfl, rfl, .inl rfl⟩
    | retry hreason available_at => exact ⟨rfl, rfl, .inr rfl⟩
  | ok _ =>
    simp only [ModelHarness.phase, hnext, ok_iff, ModelHarness.toolStep, hpending] at hresult
    obtain ⟨routed, ⟨pending, hsome, outcome, hvalidated, hstep⟩, rfl⟩ := hresult
    cases hsome
    cases outcome with
    | error code =>
      cases hstep
      exact ⟨rfl, rfl, .inl rfl⟩
    | ok arguments =>
      exact absurd ⟨_, _, _, arguments, attempt_eq_value.mp hvalidated⟩ hrefused

/-! ## Two calls -/

/-- A slice whose provider calls its one tool. -/
def callSlice [JsonDecoding] (tool : Identifier) (arguments_text : String) : RunSlice :=
  ⟨sampleClaim,
    { sampleInput firstCall (·.toCaseScope) with
      harness := answeringHarness tool (toolAnswer tool "response-1" "call-1" arguments_text) }⟩

def draftTool : Identifier := ⟨"request_material_draft", Eq.refl true⟩

/-- Two different questions under one key. -/
def twoQuestions : String :=
  "\x7b\"questions\":[\"confirm_address\"],\"questions\":[\"provide_delivery_photo\"]\x7d"

/-- Arguments of a lookup that name two orders under one key. -/
def twoOrders : String := "\x7b\"order_id\":\"1\",\"order_id\":\"2\"\x7d"

def twoQuestionsRead : Json :=
  .object [("questions", .array [.string "confirm_address"]),
    ("questions", .array [.string "provide_delivery_photo"])]

def twoOrdersRead : Json := .object [("order_id", .string "1"), ("order_id", .string "2")]

/-- A decoder of the two texts, and of what is left of them. -/
@[reducible]
def ambiguousDecoding : JsonDecoding where
  loads text :=
    if text = twoQuestions then .ok twoQuestionsRead
    else if text = twoOrders then .ok twoOrdersRead
    else if text = "\x7b\"questions\":[\"provide_delivery_photo\"]\x7d" then
      .ok (.object [("questions", .array [.string "provide_delivery_photo"])])
    else if text = "\x7b\"order_id\":\"2\"\x7d" then .ok (.object [("order_id", .string "2")])
    else .error .malformed

end Aftercare
