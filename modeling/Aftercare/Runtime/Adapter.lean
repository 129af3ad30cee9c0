import Aftercare.Runtime.Harness

/-!
# The responses adapter

`model_adapters/responses.py`: how the answer of a provider becomes the `NormalizedResponse` that the harness reads.
What the adapter checks itself is refused with a `ContractViolation`; what its models and the decoder of the
arguments refuse is not. A `dict` is the list of its pairs.
-/

namespace Aftercare

open Relational Text

variable {s : String} {item response : List (String × Json)} {allowed_tools : List String}
  {raw_item : Json} {output : List Json}

/-- `Mapping.get`: `None` when there is no such key. -/
def getField (item : List (String × Json)) (key : String) : Json := (item.lookup key).getD .null

def asObject (value : Json) (message : String) : Result (List (String × Json)) :=
  match value with
  | .object pairs => pure pairs
  | _ => .error (.contract .invalidInput message)

def asList (value : Json) (message : String) : Result (List Json) :=
  match value with
  | .array items => pure items
  | _ => .error (.contract .invalidInput message)

def asText (value : Json) (message : String) : Result String :=
  match value with
  | .string s => pure s
  | _ => .error (.contract .invalidInput message)

def mapping (value : Json) (label : String) : Result (List (String × Json)) :=
  asObject value ("Responses " ++ label ++ " must be an object")

/-- `_string`. -/
def nonEmptyString (value : Json) (label : String) : Result String := do
  let s ← asText value ("Responses " ++ label ++ " must be non-empty")
  require (s ≠ "") (.contract .invalidInput ("Responses " ++ label ++ " must be non-empty"))
  pure s

/-- The status is left out, or it is `completed`. -/
def statusComplete (item : List (String × Json)) : Bool :=
  match getField item "status" with
  | .null => true
  | .string s => s == "completed"
  | _ => false

/-! ## The parts of a response -/

/-- `_usage`. -/
def responseUsage (response : List (String × Json)) : Result ResponseUsage := do
  let usage ← mapping (getField response "usage") "usage"
  match usage.lookup "input_tokens", usage.lookup "output_tokens" with
  | some (.int input_tokens), some (.int output_tokens) =>
    match (usage.lookup "total_tokens").getD (.int (input_tokens + output_tokens)) with
    | .int total =>
      -- The validation of `ResponseUsage`, whose error is turned into a contract violation.
      if h : (0 ≤ input_tokens ∧ 0 ≤ output_tokens) ∧ total = input_tokens + output_tokens then
        pure ⟨input_tokens.toNat, output_tokens.toNat, total.toNat, by omega⟩
      else .error (.contract .invalidInput "Responses usage total_tokens is inconsistent")
    | _ => .error (.contract .invalidInput "Responses total_tokens must be an integer")
  | some _, some _ => .error (.contract .invalidInput "Responses usage tokens must be integers")
  | _, _ => .error (.contract .invalidInput "Responses usage is incomplete")

def contentBlock (block : Json) : Result String := do
  let value ← mapping block "message content block"
  match getField value "type" with
  | .string "output_text" => nonEmptyString (getField value "text") "output_text"
  | _ => .error (.contract .invalidInput "unsupported Responses content block")

/-- `_message`, of which only the text is used. -/
def messageText (item : List (String × Json)) : Result String := do
  require (statusComplete item = true)
    (.contract .invalidInput "Responses message is not complete")
  let content ← asList (getField item "content") "Responses message content must be a list"
  let texts ← content.mapM contentBlock
  pure (String.join texts)

/-- `json.loads`. Only malformed text is a contract violation. -/
def loadArguments [JsonDecoding] (arguments_text : String) : Result Json :=
  match JsonDecoding.loads arguments_text with
  | .ok value => pure value.merged
  | .error .malformed =>
    .error (.contract .invalidInput "function arguments are invalid JSON")
  | .error .value => .error .value
  | .error .recursion => .error .recursion

/-- The fields of a known tool. -/
def expectedFields (name : String) : Option (List String) :=
  if name = "lookup_order" then some ["order_id"]
  else if name = "lookup_tracking" then some ["order_id"]
  else if name = "lookup_buyer_message" then some []
  else if name = "request_material_draft" then some ["questions"]
  else none

/-- The arguments have no field that the tool does not know. -/
def knownFields (name : String) (arguments : List (String × Json)) : Bool :=
  match expectedFields name with
  | none => true
  | some expected => onlyFields expected arguments

/-- `_function_call`, without its event. -/
def functionCall [JsonDecoding] (item : List (String × Json)) (allowed_tools : List String) :
    Result ToolCall := do
  let name ← nonEmptyString (getField item "name") "function name"
  require (name ∈ allowed_tools) (.contract .forbidden ("tool is not allowed: " ++ name))
  let call_id ← nonEmptyString (getField item "call_id") "function call_id"
  let arguments_text ← asText (getField item "arguments") "function arguments must be JSON text"
  let value ← loadArguments arguments_text
  let arguments ← asObject value "function arguments must be a JSON object"
  require (knownFields name arguments = true)
    (.contract .invalidInput "function arguments contain unknown fields")
  require (statusComplete item = true) (.contract .invalidInput "function call is not complete")
  let call_id ← identifier "ToolCall" call_id
  let name ← identifier "ToolCall" name
  pure ⟨call_id, name, arguments⟩

/-- Reasoning and calls of hosted tools are recorded and not read. -/
inductive OutputItem
  | message (text : String)
  | call (call : ToolCall)
  | recorded

/-- A value in the text of an error; a nested one as JSON. -/
def typeText : Json → String
  | .null => "None"
  | .bool b => if b then "True" else "False"
  | .string s => s
  | value => value.dumps

/-- The body of the loop of `normalize_response`. -/
def outputItem [JsonDecoding] (allowed_tools : List String) (raw_item : Json) : Result OutputItem := do
  let item ← mapping raw_item "output item"
  match getField item "type" with
  | .string "message" => do
    let text ← messageText item
    pure (.message text)
  | .string "function_call" => do
    let call ← functionCall item allowed_tools
    pure (.call call)
  | .string "reasoning" | .string "web_search_call" | .string "file_search_call" => pure .recorded
  | item_type =>
    .error (.contract .invalidInput ("unsupported Responses output type: " ++ typeText item_type))

def OutputItem.text : OutputItem → String
  | .message text => text
  | _ => ""

def OutputItem.toolCall : OutputItem → Option ToolCall
  | .call asked => some asked
  | _ => none

/-- The usage of a response is checked when it is there. -/
def optionalUsage (response : List (String × Json)) : Result (Option ResponseUsage) :=
  match response.lookup "usage" with
  | none => pure none
  | some _ => do
    let usage ← responseUsage response
    pure (some usage)

def normalizeResponse [JsonDecoding] (response : List (String × Json))
    (allowed_tools : List String) : Result NormalizedResponse := do
  let response_id ← nonEmptyString (getField response "id") "id"
  require (statusComplete response = true)
    (.contract .invalidInput "Responses response is not complete")
  let output ← asList (getField response "output") "Responses output must be a list"
  let items ← output.mapM (outputItem allowed_tools)
  let usage ← optionalUsage response
  let response_id ← identifier "NormalizedResponse" response_id
  pure ⟨response_id, String.join (items.map OutputItem.text), items.filterMap OutputItem.toolCall, usage⟩

/-! ## The adapter -/

/-- `ResponsesAdapter`, with the `create` endpoint of its client. -/
structure ResponsesAdapter where
  allowed_tools : List String
  create : ResponsesRequest → Except ProviderFailure Json

def ResponsesAdapter.complete [JsonDecoding] (adapter : ResponsesAdapter)
    (request : ResponsesRequest) : Except ProviderFailure NormalizedResponse :=
  if request.tools.all (fun tool => adapter.allowed_tools.contains tool.name.val) then do
    match ← adapter.create request with
    | .object payload => (normalizeResponse payload adapter.allowed_tools).mapError .raised
    | _ => .error (.raised (.contract .invalidInput "Responses client returned a non-object"))
  else .error (.raised (.contract .forbidden "request contains an unallowed tool"))

/-! ## What leaves the adapter -/

section

variable {value : Json} {message label : String}

theorem asObject_eq_ok {pairs : List (String × Json)} : asObject value message = .ok pairs ↔ value = .object pairs := by
  unfold asObject
  split <;> simp_all [pure_eq_ok]

theorem asList_eq_ok {items : List Json} : asList value message = .ok items ↔ value = .array items := by
  unfold asList
  split <;> simp_all [pure_eq_ok]

theorem asText_eq_ok : asText value message = .ok s ↔ value = .string s := by
  unfold asText
  split <;> simp_all [pure_eq_ok]

theorem nonEmptyString_eq_ok : nonEmptyString value label = .ok s ↔ value = .string s ∧ s ≠ "" := by
  simp only [nonEmptyString, ok_iff, asText_eq_ok]
  constructor
  · rintro ⟨s', rfl, hs, rfl⟩
    exact ⟨rfl, hs⟩
  · rintro ⟨rfl, hs⟩
    exact ⟨s, rfl, hs, rfl⟩

theorem asObject_contract : ¬Raises Failure.Escapes (asObject value message) := by
  unfold asObject
  split <;> simp [Failure.Escapes]

theorem asList_contract : ¬Raises Failure.Escapes (asList value message) := by
  unfold asList
  split <;> simp [Failure.Escapes]

theorem asText_contract : ¬Raises Failure.Escapes (asText value message) := by
  unfold asText
  split <;> simp [Failure.Escapes]

theorem nonEmptyString_contract : ¬Raises Failure.Escapes (nonEmptyString value label) := by
  simp only [nonEmptyString, raises_bind, raises_require, asText_contract, raises_pure]
  simp [Failure.Escapes]

end

theorem responseUsage_contract : ¬Raises Failure.Escapes (responseUsage response) := by
  rw [responseUsage, raises_bind]
  rintro (h | ⟨usage, -, h⟩)
  · exact asObject_contract h
  · split at h
    · split at h
      · split_ifs at h
        · exact raises_pure h
        · exact raises_error.mp h
      · exact raises_error.mp h
    · exact raises_error.mp h
    · exact raises_error.mp h

theorem contentBlock_contract {block : Json} : ¬Raises Failure.Escapes (contentBlock block) := by
  rw [contentBlock, raises_bind]
  rintro (h | ⟨value, -, h⟩)
  · exact asObject_contract h
  · split at h
    · exact nonEmptyString_contract h
    · exact raises_error.mp h

theorem messageText_contract : ¬Raises Failure.Escapes (messageText item) := by
  simp only [messageText, raises_bind, raises_require, raises_mapM, raises_pure, asList_contract, contentBlock_contract]
  simp [Failure.Escapes]

theorem loadArguments_raises [JsonDecoding] {text : String} : Raises Failure.Escapes (loadArguments text) ↔
      JsonDecoding.loads text = .error .value ∨ JsonDecoding.loads text = .error .recursion := by
  unfold loadArguments
  split <;> simp_all [Failure.Escapes]

theorem identifier_raises {model text : String} :
    Raises Failure.Escapes (identifier model text) ↔ identifierValid text = false := by
  unfold identifier
  split_ifs with h <;> simp [h, Failure.Escapes]

theorem loadArguments_eq_ok [JsonDecoding] {text : String} {value : Json} :
    loadArguments text = .ok value ↔ ∃ read, JsonDecoding.loads text = .ok read ∧ read.merged = value := by
  unfold loadArguments
  split <;> simp_all [pure_eq_ok]

/-! ## Function calls -/

def isFunctionCall (item : List (String × Json)) : Bool :=
  match getField item "type" with
  | .string s => s == "function_call"
  | _ => false

/-- The function call that an item of the output is, if it is one. -/
def asFunctionCall (raw_item : Json) : Option (List (String × Json)) :=
  match raw_item with
  | .object item => if isFunctionCall item = true then some item else none
  | _ => none

/-- A call of an allowed tool with a call id. -/
structure Asks (allowed_tools : List String) (item : List (String × Json))
    (name call_id text : String) : Prop where
  tool : getField item "name" = .string name
  named : name ≠ ""
  allowed : name ∈ allowed_tools
  id : getField item "call_id" = .string call_id
  identified : call_id ≠ ""
  arguments : getField item "arguments" = .string text

/-- A function call that raises what is no contract violation. -/
inductive CallLost [JsonDecoding] (allowed_tools : List String) (item : List (String × Json)) : Prop
  /-- The decoder gives up on the arguments. -/
  | arguments {name call_id text : String} (hasks : Asks allowed_tools item name call_id text)
      (hloads : JsonDecoding.loads text = .error .value ∨ JsonDecoding.loads text = .error .recursion)
  /-- The id or the tool's name is no identifier. -/
  | identity {name call_id text : String} {read : Json} {arguments : List (String × Json)}
      (hasks : Asks allowed_tools item name call_id text)
      (hloads : JsonDecoding.loads text = .ok read) (hobject : read.merged = .object arguments)
      (hknown : knownFields name arguments = true) (hcomplete : statusComplete item = true)
      (hinvalid : identifierValid call_id = false ∨ identifierValid name = false)

theorem functionCall_eq_ok [JsonDecoding] {call : ToolCall} : functionCall item allowed_tools = .ok call ↔
      ∃ text read, Asks allowed_tools item call.name.val call.call_id.val text ∧
        JsonDecoding.loads text = .ok read ∧ read.merged = .object call.arguments ∧
        knownFields call.name.val call.arguments = true ∧ statusComplete item = true := by
  simp only [functionCall, ok_iff, nonEmptyString_eq_ok, asText_eq_ok, loadArguments_eq_ok,
    asObject_eq_ok, identifier_eq_ok]
  constructor
  · rintro ⟨_, ⟨hname, hnamed⟩, hallowed, _, ⟨hid, hidentified⟩, text, htext, _, ⟨read, hloads, rfl⟩,
      arguments, hobject, hknown, hcomplete, call_id, rfl, name, rfl, rfl⟩
    exact ⟨text, read, ⟨hname, hnamed, hallowed, hid, hidentified, htext⟩, hloads, hobject, hknown, hcomplete⟩
  · rintro ⟨text, read, hasks, hloads, hobject, hknown, hcomplete⟩
    exact ⟨_, ⟨hasks.tool, hasks.named⟩, hasks.allowed, _, ⟨hasks.id, hasks.identified⟩, text,
      hasks.arguments, _, ⟨read, hloads, rfl⟩, _, hobject, hknown, hcomplete, call.call_id, rfl,
      call.name, rfl, rfl⟩

theorem functionCall_raises [JsonDecoding] :
    Raises Failure.Escapes (functionCall item allowed_tools) ↔ CallLost allowed_tools item := by
  simp only [functionCall, raises_bind, nonEmptyString_contract, nonEmptyString_eq_ok,
    raises_require, require_eq_ok, asText_contract, asText_eq_ok, loadArguments_raises,
    loadArguments_eq_ok, asObject_contract, asObject_eq_ok, identifier_raises, raises_pure,
    Failure.Escapes, exists_unit, and_false, false_or, or_false, exists_false]
  constructor
  · rintro ⟨name, ⟨hname, hnamed⟩, hallowed, call_id, ⟨hcall, hidentified⟩, text, htext, h⟩
    have hasks : Asks allowed_tools item name call_id text := ⟨hname, hnamed, hallowed, hcall, hidentified, htext⟩
    rcases h with hloads | ⟨_, ⟨read, hloads, rfl⟩, arguments, hobject, hknown, hcomplete, h⟩
    · exact .arguments hasks hloads
    · exact .identity hasks hloads hobject hknown hcomplete (h.imp_right fun ⟨_, _, h⟩ => h)
  · rintro (⟨hasks, hloads⟩ | ⟨hasks, hloads, hobject, hknown, hcomplete, hinvalid⟩)
    · exact ⟨_, ⟨hasks.tool, hasks.named⟩, hasks.allowed, _, ⟨hasks.id, hasks.identified⟩, _,
        hasks.arguments, .inl hloads⟩
    · refine ⟨_, ⟨hasks.tool, hasks.named⟩, hasks.allowed, _, ⟨hasks.id, hasks.identified⟩, _,
        hasks.arguments, .inr ⟨_, ⟨_, hloads, rfl⟩, _, hobject, hknown, hcomplete, ?_⟩⟩
      rename_i name call_id _ _ _
      -- The name is validated after the call id, so that one error hides the other.
      cases hvalid : identifierValid call_id with
      | false => exact .inl rfl
      | true =>
        rw [hvalid] at hinvalid
        exact .inr ⟨⟨call_id, hvalid⟩, identifier_eq_ok.mpr rfl, by simpa using hinvalid⟩

theorem outputItem_of_call [JsonDecoding] (h : asFunctionCall raw_item = some item) :
    outputItem allowed_tools raw_item = functionCall item allowed_tools >>= fun call => pure (.call call) := by
  unfold asFunctionCall at h
  split at h
  · split_ifs at h with hcall
    cases h
    unfold isFunctionCall at hcall
    split at hcall
    · rename_i htype
      rw [beq_iff_eq] at hcall
      rw [outputItem, mapping, asObject, pure_bind, htype, hcall]
      simp only
    · cases hcall
  · cases h

theorem outputItem_of_other [JsonDecoding] (h : asFunctionCall raw_item = none) :
    ¬Raises Failure.Escapes (outputItem allowed_tools raw_item) ∧
      ∀ y, outputItem allowed_tools raw_item = .ok y → y.toolCall = none := by
  unfold outputItem
  simp only [raises_bind, bind_eq_ok, mapping, asObject_contract, asObject_eq_ok, false_or]
  constructor
  · rintro ⟨item, rfl, hraises⟩
    split at hraises
    · rw [raises_bind] at hraises
      rcases hraises with hraises | ⟨_, -, hraises⟩
      · exact messageText_contract hraises
      · exact raises_pure hraises
    · rename_i htype
      simp [asFunctionCall, isFunctionCall, htype] at h
    iterate 3 exact raises_pure hraises
    · exact raises_error.mp hraises
  · rintro y ⟨item, rfl, hy⟩
    split at hy
    · rw [bind_eq_ok] at hy
      obtain ⟨text, -, hy⟩ := hy
      cases hy
      rfl
    · rename_i htype
      simp [asFunctionCall, isFunctionCall, htype] at h
    iterate 3 cases hy; rfl
    · cases hy

theorem outputItem_raises [JsonDecoding] : Raises Failure.Escapes (outputItem allowed_tools raw_item) ↔
      ∃ item, asFunctionCall raw_item = some item ∧ CallLost allowed_tools item := by
  cases hcall : asFunctionCall raw_item with
  | none => simp [(outputItem_of_other hcall).1]
  | some item =>
    rw [outputItem_of_call hcall, raises_bind, functionCall_raises]
    simp

def functionCalls (output : List Json) : List (List (String × Json)) :=
  output.filterMap asFunctionCall

theorem mapM_outputItem_calls [JsonDecoding] {items : List OutputItem}
    (h : output.mapM (outputItem allowed_tools) = .ok items) :
    List.Forall₂ (fun item call => functionCall item allowed_tools = .ok call)
      (functionCalls output) (items.filterMap OutputItem.toolCall) := by
  induction output generalizing items with
  | nil =>
    rw [List.mapM_nil, pure_eq_ok] at h
    rw [← h]
    exact .nil
  | cons raw_item output ih =>
    simp only [List.mapM_cons, ok_iff] at h
    obtain ⟨y, hy, rest, hrest, rfl⟩ := h
    unfold functionCalls
    cases hcall : asFunctionCall raw_item with
    | none =>
      rw [List.filterMap_cons_none hcall, List.filterMap_cons_none ((outputItem_of_other hcall).2 y hy)]
      exact ih hrest
    | some item =>
      rw [outputItem_of_call hcall] at hy
      simp only [ok_iff] at hy
      obtain ⟨call, hfunction, rfl⟩ := hy
      rw [List.filterMap_cons_some hcall, List.filterMap_cons_some (by rfl)]
      exact .cons hfunction (ih hrest)

/-! ## Responses -/

/-- It has an id, is complete, and has an output. -/
structure Opens (response : List (String × Json)) (response_id : String) (output : List Json) :
    Prop where
  id : getField response "id" = .string response_id
  identified : response_id ≠ ""
  complete : statusComplete response = true
  output : getField response "output" = .array output

/-- Every item is accepted, and so is the usage, if any. -/
structure Accepted [JsonDecoding] (allowed_tools : List String) (response : List (String × Json))
    (output : List Json) : Prop where
  items : ∀ x ∈ output, ∃ y, outputItem allowed_tools x = .ok y
  usage : response.lookup "usage" = none ∨ ∃ usage, responseUsage response = .ok usage

/-- A response that raises what is no contract violation. -/
inductive ResponseLost [JsonDecoding] (allowed_tools : List String)
    (response : List (String × Json)) : Prop
  /-- A function call does, and the items in front of it are accepted. -/
  | call {response_id : String} {output before after : List Json} {raw_item : Json}
      {item : List (String × Json)} (hopens : Opens response response_id output)
      (hitem : output = before ++ raw_item :: after)
      (hbefore : ∀ x ∈ before, ∃ y, outputItem allowed_tools x = .ok y)
      (hcall : asFunctionCall raw_item = some item) (hlost : CallLost allowed_tools item)
  /-- All of it is accepted but its id, which is no identifier. -/
  | identity {response_id : String} {output : List Json} (hopens : Opens response response_id output)
      (haccepted : Accepted allowed_tools response output)
      (hinvalid : identifierValid response_id = false)

theorem optionalUsage_contract : ¬Raises Failure.Escapes (optionalUsage response) := by
  unfold optionalUsage
  split
  · exact raises_pure
  · rw [raises_bind]
    rintro (h | ⟨usage, -, h⟩)
    · exact responseUsage_contract h
    · exact raises_pure h

theorem optionalUsage_eq_some {usage : ResponseUsage} :
    optionalUsage response = .ok (some usage) ↔ responseUsage response = .ok usage := by
  unfold optionalUsage
  split
  · rename_i hnone
    have hnull : getField response "usage" = .null := by rw [getField, hnone]; rfl
    rw [responseUsage, hnull]
    constructor <;> intro h <;> cases h
  · simp only [ok_iff, Option.some.injEq, exists_eq_right]

theorem optionalUsage_exists : (∃ usage, optionalUsage response = .ok usage) ↔
      response.lookup "usage" = none ∨ ∃ usage, responseUsage response = .ok usage := by
  constructor
  · rintro ⟨usage | usage, h⟩
    · unfold optionalUsage at h
      split at h
      · exact .inl (by assumption)
      · simp only [ok_iff, reduceCtorEq, and_false, exists_false] at h
    · exact .inr ⟨usage, optionalUsage_eq_some.mp h⟩
  · rintro (hnone | ⟨usage, h⟩)
    · exact ⟨none, by rw [optionalUsage, hnone]; rfl⟩
    · exact ⟨some usage, optionalUsage_eq_some.mpr h⟩

theorem normalizeResponse_eq_ok [JsonDecoding] {r : NormalizedResponse} :
    normalizeResponse response allowed_tools = .ok r ↔ ∃ output items, Opens response r.response_id.val output ∧
        output.mapM (outputItem allowed_tools) = .ok items ∧ optionalUsage response = .ok r.usage ∧
        r.text = String.join (items.map OutputItem.text) ∧
        r.tool_calls = items.filterMap OutputItem.toolCall := by
  simp only [normalizeResponse, ok_iff, nonEmptyString_eq_ok, asList_eq_ok, identifier_eq_ok]
  constructor
  · rintro ⟨_, ⟨hid, hne⟩, hcomplete, output, houtput, items, hitems, usage, husage, i, rfl, rfl⟩
    exact ⟨output, items, ⟨hid, hne, hcomplete, houtput⟩, hitems, husage, rfl, rfl⟩
  · rintro ⟨output, items, hopens, hitems, husage, htext, hcalls⟩
    refine ⟨_, ⟨hopens.id, hopens.identified⟩, hopens.complete, output, hopens.output, items, hitems,
      r.usage, husage, r.response_id, rfl, ?_⟩
    rw [← htext, ← hcalls]

theorem normalizeResponse_raises [JsonDecoding] : Raises Failure.Escapes (normalizeResponse response allowed_tools) ↔
      ResponseLost allowed_tools response := by
  simp only [normalizeResponse, raises_bind, nonEmptyString_contract, nonEmptyString_eq_ok,
    raises_require, require_eq_ok, asList_contract, asList_eq_ok, raises_mapM, outputItem_raises,
    optionalUsage_contract, identifier_raises, raises_pure, Failure.Escapes, exists_unit, and_false,
    false_or, or_false, exists_false]
  constructor
  · rintro ⟨response_id, ⟨hid, hne⟩, hcomplete, output, houtput, h⟩
    have hopens : Opens response response_id output := ⟨hid, hne, hcomplete, houtput⟩
    rcases h with ⟨before, raw_item, after, hitem, hbefore, item, hcall, hlost⟩ |
      ⟨items, hitems, usage, husage, hinvalid⟩
    · exact .call hopens hitem hbefore hcall hlost
    · exact .identity hopens ⟨mapM_exists_ok.mp ⟨items, hitems⟩, optionalUsage_exists.mp ⟨usage, husage⟩⟩ hinvalid
  · rintro (⟨hopens, hitem, hbefore, hcall, hlost⟩ | ⟨hopens, haccepted, hinvalid⟩)
    · exact ⟨_, ⟨hopens.id, hopens.identified⟩, hopens.complete, _, hopens.output,
        .inl ⟨_, _, _, hitem, hbefore, _, hcall, hlost⟩⟩
    · obtain ⟨items, hitems⟩ := mapM_exists_ok.mpr haccepted.items
      obtain ⟨usage, husage⟩ := optionalUsage_exists.mpr haccepted.usage
      exact ⟨_, ⟨hopens.id, hopens.identified⟩, hopens.complete, _, hopens.output,
        .inr ⟨items, hitems, usage, husage, hinvalid⟩⟩

theorem Accepted.normalized [JsonDecoding] {response_id : String}
    (haccepted : Accepted allowed_tools response output) (hopens : Opens response response_id output) :
    (∃ r, normalizeResponse response allowed_tools = .ok r) ∨ ResponseLost allowed_tools response := by
  cases hvalid : identifierValid response_id with
  | false => exact .inr (.identity hopens haccepted hvalid)
  | true =>
    obtain ⟨items, hitems⟩ := mapM_exists_ok.mpr haccepted.items
    obtain ⟨usage, husage⟩ := optionalUsage_exists.mpr haccepted.usage
    exact .inl ⟨⟨⟨response_id, hvalid⟩, _, _, usage⟩,
      normalizeResponse_eq_ok.mpr ⟨output, items, hopens, hitems, husage, rfl, rfl⟩⟩

end Aftercare
