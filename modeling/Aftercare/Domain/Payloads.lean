import Aftercare.Domain.Investigation
import Aftercare.Domain.Protocol
import Aftercare.Text.Json

/-!
# Payloads of a model

The arguments of a tool, which `validate_tool_request` checks, and a proposal, which
`parse_investigation_proposal` reads; both refuse a field they do not know. A proposal always fits into the
checkpoint (`InvestigationProposal.length_dumpJson`).
-/

namespace Aftercare

open Relational Text Investigation

/-- `strict_json_object`, which refuses a repeated key. -/
def strictJsonObject [JsonDecoding] (payload : String) : Result (List (String × Json)) := do
  require (payload.utf8ByteSize ≤ 65536)
    (.contract .invalidInput "JSON input exceeds 65536 bytes")
  match JsonDecoding.loads payload with
  | .error _ => .error (.contract .invalidInput "malformed or ambiguous JSON")
  | .ok value => do
    require (value.strict = true) (.contract .invalidInput "malformed or ambiguous JSON")
    match value with
    | .object pairs => pure pairs
    | _ => .error (.contract .invalidInput "JSON object required")

/-- `extra="forbid"`: an object has no field besides these. -/
def onlyFields (names : List String) (pairs : List (String × Json)) : Bool :=
  pairs.all fun p => names.contains p.1

/-! ## Tool requests -/

/-- A question of `MaterialDraftArguments`. -/
inductive MaterialQuestion
  | confirmAddress
  | checkDeliveryLocation
  | provideDeliveryPhoto
deriving DecidableEq, Repr

/-- `BoundLookupArguments`, which are empty, or `MaterialDraftArguments`. -/
inductive ToolArguments
  | boundLookup
  | materialDraft (questions : List MaterialQuestion)
      (questions_length : 1 ≤ questions.length ∧ questions.length ≤ 3)
      (no_duplicates : questions.Nodup)
deriving DecidableEq, Repr

def materialQuestion : Json → Option MaterialQuestion
  | .string s =>
    if s = "confirm_address" then some .confirmAddress
    else if s = "check_delivery_location" then some .checkDeliveryLocation
    else if s = "provide_delivery_photo" then some .provideDeliveryPhoto
    else none
  | _ => none

/-- `BoundLookupArguments.model_validate_json`. -/
def boundLookupArguments (pairs : List (String × Json)) : Option ToolArguments :=
  if onlyFields [] pairs = true then some .boundLookup else none

/-- `MaterialDraftArguments.model_validate_json`. -/
def materialDraftArguments (pairs : List (String × Json)) : Option ToolArguments :=
  match onlyFields ["questions"] pairs, pairs.lookup "questions" with
  | true, some (.array items) => do
    let questions ← items.mapM materialQuestion
    if h : (1 ≤ questions.length ∧ questions.length ≤ 3) ∧ questions.Nodup then
      some (.materialDraft questions h.1 h.2)
    else none
  | _, _ => none

def validateToolRequest [JsonDecoding] (request : ToolRequest) (stream_complete : Bool)
    (allowed_tools : List Identifier) (budget : RemainingBudget) (now : Time) : Result ToolArguments := do
  require (stream_complete = true) (.contract .invalidInput "partial tool call cannot execute")
  require (request.name.val ∈ ["lookup_order", "lookup_tracking", "lookup_buyer_message",
      "request_material_draft"] ∧ request.name ∈ allowed_tools)
    (.contract .forbidden "tool unavailable in this execution scope")
  require (¬(budget.tool_calls = 0 ∨ budget.deadline ≤ now))
    (.contract .budgetExhausted "tool budget exhausted")
  let pairs ← strictJsonObject request.arguments_json
  fetch (if request.name.val = "request_material_draft" then materialDraftArguments pairs
      else boundLookupArguments pairs)
    (.contract .invalidInput "tool arguments violate schema")

theorem validateToolRequest_budget [JsonDecoding] {request : ToolRequest} {stream_complete : Bool}
    {allowed_tools : List Identifier} {budget : RemainingBudget} {now : Time} {arguments : ToolArguments}
    (h : validateToolRequest request stream_complete allowed_tools budget now = .ok arguments) :
    budget.tool_calls ≠ 0 := by
  simp only [validateToolRequest, ok_iff] at h
  obtain ⟨-, -, hbudget, -⟩ := h
  exact fun hzero => hbudget (.inl hzero)

/-! ## Proposals -/

namespace Investigation

def InvestigationClaim.text : InvestigationClaim → String
  | .orderRecorded => "order_recorded"
  | .carrierReportedDelivered => "carrier_reported_delivered"
  | .carrierReportedInTransit => "carrier_reported_in_transit"
  | .buyerReportedNotReceived => "buyer_reported_not_received"
  | .buyerReportedReceived => "buyer_reported_received"

def InvestigationClaim.all : List InvestigationClaim :=
  [.orderRecorded, .carrierReportedDelivered, .carrierReportedInTransit, .buyerReportedNotReceived,
    .buyerReportedReceived]

def investigationClaim : Json → Option InvestigationClaim
  | .string s => InvestigationClaim.all.find? fun claim => claim.text == s
  | _ => none

def evidenceRef : Json → Option Identifier
  | .string s => if h : identifierValid s = true then some ⟨s, h⟩ else none
  | _ => none

/-- Validate a `ClaimProposal`. -/
def claimProposal : Json → Option ClaimProposal
  | .object pairs =>
    match onlyFields ["claim", "evidence_refs"] pairs, pairs.lookup "claim",
        pairs.lookup "evidence_refs" with
    | true, some claim, some (.array items) => do
      let claim ← investigationClaim claim
      let refs ← items.mapM evidenceRef
      if h : (1 ≤ refs.length ∧ refs.length ≤ 32) ∧ refs.Nodup then
        some ⟨claim, refs, h.1, h.2⟩
      else none
    | _, _, _ => none
  | _ => none

/-- Validate the schema version, which may be left out. -/
def schemaVersion : Option Json → Bool
  | none => true
  | some (.int n) => n == 1
  | some _ => false

/-- `InvestigationProposal.model_validate_json`. -/
def investigationProposal (pairs : List (String × Json)) : Option InvestigationProposal :=
  match onlyFields ["schema_version", "claims"] pairs && schemaVersion (pairs.lookup "schema_version"),
      pairs.lookup "claims" with
  | true, some (.array items) => do
    let claims ← items.mapM claimProposal
    if h : (1 ≤ claims.length ∧ claims.length ≤ 16) ∧ (claims.map ClaimProposal.claim).Nodup then
      some ⟨claims, h.1, h.2⟩
    else none
  | _, _ => none

def parseInvestigationProposal [JsonDecoding] (payload : String) : Result InvestigationProposal := do
  let pairs ← strictJsonObject payload
  fetch (investigationProposal pairs) (.contract .invalidInput "proposal violates schema")

/-- A field dumped as text that JSON does not escape. -/
def dumpText (s : String) : String := "\"" ++ s ++ "\""

/-- A `ClaimProposal` in the text of `model_dump_json`. -/
def ClaimProposal.dumpJson (p : ClaimProposal) : String :=
  "\x7b\"claim\":" ++ dumpText p.claim.text ++ ",\"evidence_refs\":" ++
    bracketed (p.evidence_refs.map fun ref => dumpText ref.val) ++ "\x7d"

/-- `InvestigationProposal.model_dump_json`. -/
def InvestigationProposal.dumpJson (p : InvestigationProposal) : String :=
  "\x7b\"schema_version\":1,\"claims\":" ++ bracketed (p.claims.map ClaimProposal.dumpJson) ++
    "\x7d"

/-! ## The size of a proposal -/

theorem utf8Size_of_identifierChar {c : Char} (h : identifierChar c = true) : c.utf8Size = 1 := by
  have hbelow : ∀ last : Char, last.val ≤ 127 → c ≤ last → c.utf8Size = 1 := fun last hlast hle =>
    Char.utf8Size_eq_one_iff.mpr (UInt32.le_trans hle hlast)
  simp only [identifierChar, alphanumeric, Bool.or_eq_true, Bool.and_eq_true, decide_eq_true_eq, beq_iff_eq] at h
  obtain ((((((hupper | hlower) | hdigit) | rfl) | rfl) | rfl) | rfl) | rfl := h
  · exact hbelow 'Z' (by decide) hupper.2
  · exact hbelow 'z' (by decide) hlower.2
  · exact hbelow '9' (by decide) hdigit.2
  all_goals decide

theorem utf8ByteSize_identifier (i : Identifier) : i.val.utf8ByteSize ≤ 160 := by
  have hsize : ∀ cs : List Char, (∀ c ∈ cs, identifierChar c = true) → String.utf8Len cs = cs.length := by
    intro cs hcs
    induction cs with
    | nil => rfl
    | cons c cs ih =>
      rw [List.forall_mem_cons] at hcs
      rw [String.utf8Len_cons, ih hcs.2, utf8Size_of_identifierChar hcs.1, List.length_cons]
  have hlength := hsize i.val.toList (List.all_eq_true.mp i.text)
  rw [← String.utf8ByteSize_ofList, String.ofList_toList, String.length_toList] at hlength
  rw [hlength]
  exact (identifierValid_iff.mp i.valid).2.2

theorem utf8ByteSize_dumpText (s : String) : (dumpText s).utf8ByteSize = s.utf8ByteSize + 2 := by
  have hquote : "\"".utf8ByteSize = 1 := by decide
  rw [dumpText, String.utf8ByteSize_append, String.utf8ByteSize_append]
  omega

theorem ClaimProposal.utf8ByteSize_dumpJson (p : ClaimProposal) : p.dumpJson.utf8ByteSize ≤ 5300 := by
  have hrefs : ∀ s ∈ p.evidence_refs.map (fun ref => dumpText ref.val), s.utf8ByteSize ≤ 162 := by
    intro s hs
    obtain ⟨ref, -, rfl⟩ := List.mem_map.mp hs
    have hsize := utf8ByteSize_identifier ref
    rw [utf8ByteSize_dumpText]
    omega
  have hlist := utf8ByteSize_bracketed_le hrefs
  have hclaim : (dumpText p.claim.text).utf8ByteSize ≤ 29 := by
    rw [utf8ByteSize_dumpText]
    cases p.claim <;> decide
  have hcount := p.refs_length.2
  have hopen : "\x7b\"claim\":".utf8ByteSize = 9 := by decide
  have hmiddle : ",\"evidence_refs\":".utf8ByteSize = 17 := by decide
  have hclose : "\x7d".utf8ByteSize = 1 := by decide
  rw [List.length_map] at hlist
  unfold ClaimProposal.dumpJson
  simp only [String.utf8ByteSize_append]
  omega

theorem InvestigationProposal.length_claims (p : InvestigationProposal) : p.claims.length ≤ 5 := by
  have hall : p.claims.map ClaimProposal.claim ⊆ InvestigationClaim.all := by
    intro claim _
    cases claim <;> decide
  have hle := (List.subperm_of_subset p.unique_claims hall).length_le
  rwa [List.length_map] at hle

theorem InvestigationProposal.utf8ByteSize_dumpJson (p : InvestigationProposal) : p.dumpJson.utf8ByteSize ≤ 65536 := by
  have hclaims : ∀ s ∈ p.claims.map ClaimProposal.dumpJson, s.utf8ByteSize ≤ 5300 := by
    intro s hs
    obtain ⟨claim, -, rfl⟩ := List.mem_map.mp hs
    exact claim.utf8ByteSize_dumpJson
  have hlist := utf8ByteSize_bracketed_le hclaims
  have hcount := p.length_claims
  have hopen : "\x7b\"schema_version\":1,\"claims\":".utf8ByteSize = 29 := by decide
  have hclose : "\x7d".utf8ByteSize = 1 := by decide
  rw [List.length_map] at hlist
  unfold InvestigationProposal.dumpJson
  rw [String.utf8ByteSize_append, String.utf8ByteSize_append]
  omega

theorem InvestigationProposal.length_dumpJson (p : InvestigationProposal) : p.dumpJson.length ≤ 65536 :=
  (length_le_utf8ByteSize p.dumpJson).trans p.utf8ByteSize_dumpJson

end Investigation

end Aftercare
