import Aftercare.Investigation.Rendering
import Aftercare.Runtime.Harness

/-!
# Stored proposals

The model phase stores a proposal in the text of `model_dump_json`, and the evaluate phase reads it again with
`parse_investigation_proposal`. The text is that of one JSON value (`toList_dumpJson`), so the reader gives the
value back, and the value passes the schema.
-/

namespace Aftercare

open Relational Text Investigation

/-- `json.loads` with the hooks of `strict_json_object`, which see the pairs of an object as they stand. -/
def strictLoads (text : String) : Except JsonError Json :=
  match parseValue text.length (skipSpace text.toList) with
  | some (value, rest) => if skipSpace rest = [] then .ok value else .error .malformed
  | none => .error .malformed

@[reducible]
def strictDecoding : JsonDecoding := ⟨strictLoads⟩

/-- What `strict_json_object` refuses: a repeated key, or a number that is not finite. -/
def RefusedPart : Json → Prop
  | .object pairs => ¬(pairs.map Prod.fst).Nodup
  | .float _ finite => finite = false
  | _ => False

theorem parseInvestigationProposal_refused [JsonDecoding] {payload : String} {value : Json}
    (hloads : JsonDecoding.loads payload = .ok value)
    (h : (∃ part : Json, part.Within value ∧ RefusedPart part) ∨ ∀ pairs, value ≠ .object pairs) :
    ∃ message, parseInvestigationProposal payload = .error (.contract .invalidInput message) := by
  unfold parseInvestigationProposal strictJsonObject
  rw [hloads]
  by_cases hsize : payload.utf8ByteSize ≤ 65536
  swap
  · exact ⟨_, by rw [require, if_neg hsize]; rfl⟩
  by_cases hstrict : value.strict = true
  swap
  · exact ⟨_, by simp only [require, if_pos hsize, if_neg hstrict]; rfl⟩
  obtain ⟨part, hwithin, hrefused⟩ | hother := h
  · have hpart := hwithin.strict hstrict
    cases part with
    | object pairs =>
      rw [Json.strict, Bool.and_eq_true, decide_eq_true_eq] at hpart
      exact absurd hpart.1 hrefused
    | float text finite => cases hrefused.symm.trans hpart
    | _ => exact hrefused.elim
  · cases value with
    | object pairs => exact absurd rfl (hother pairs)
    | _ => exact ⟨_, by simp only [require, if_pos hsize, if_pos hstrict]; rfl⟩

/-! ## The value of a proposal -/

namespace Investigation

def ClaimProposal.json (p : ClaimProposal) : Json :=
  .object [("claim", .string p.claim.text),
    ("evidence_refs", .array (p.evidence_refs.map fun ref => .string ref.val))]

def InvestigationProposal.json (p : InvestigationProposal) : List (String × Json) :=
  [("schema_version", .int 1), ("claims", .array (p.claims.map ClaimProposal.json))]

theorem toList_dumpText {s : String} (h : s.toList.all plainChar = true) :
    (dumpText s).toList = (Json.string s).chars := by
  rw [dumpText, String.toList_append, String.toList_append, Json.chars, quotedChars, escaped_of_plain h]
  rfl

theorem ClaimProposal.toList_dumpJson (p : ClaimProposal) : p.dumpJson.toList = p.json.chars := by
  have hclaim : (dumpText p.claim.text).toList = (Json.string p.claim.text).chars := by
    cases p.claim <;> exact toList_dumpText (by decide)
  have hrefs := @toList_bracketed _ p.evidence_refs _ _ fun ref _ => toList_dumpText
    (List.all_eq_true.mpr fun c hc => plain_of_identifierChar (List.all_eq_true.mp ref.text c hc))
  unfold ClaimProposal.dumpJson
  rw [String.toList_append, String.toList_append, String.toList_append, String.toList_append, hclaim, hrefs]
  simp [ClaimProposal.json, Json.chars, pairsTail, quotedChars, escaped, escapeChar]

theorem InvestigationProposal.toList_dumpJson (p : InvestigationProposal) :
    p.dumpJson.toList = (Json.object p.json).chars := by
  have hclaims := @toList_bracketed _ p.claims _ _ fun claim _ => claim.toList_dumpJson
  unfold InvestigationProposal.dumpJson
  rw [String.toList_append, String.toList_append, hclaims]
  simp [InvestigationProposal.json, Json.chars, pairsTail, quotedChars, escaped, escapeChar]
  rfl

theorem mapM_map_of_inverse {α β : Type} {read : β → Option α} {print : α → β}
    (h : ∀ a, read (print a) = some a) (l : List α) : (l.map print).mapM read = some l := by
  induction l with
  | nil => rfl
  | cons a l ih => simp [h, ih]

theorem evidenceRef_string (ref : Identifier) : evidenceRef (.string ref.val) = some ref := dif_pos ref.valid

theorem claimProposal_json (p : ClaimProposal) : claimProposal p.json = some p := by
  have hclaim : investigationClaim (.string p.claim.text) = some p.claim := by
    cases p.claim <;> decide
  have hrefs := mapM_map_of_inverse evidenceRef_string p.evidence_refs
  have hvalid := And.intro p.refs_length p.unique_references
  simp [claimProposal, ClaimProposal.json, onlyFields, List.lookup_cons, hclaim, hrefs, hvalid]

theorem investigationProposal_json (p : InvestigationProposal) : investigationProposal p.json = some p := by
  have hclaims := mapM_map_of_inverse claimProposal_json p.claims
  have hvalid := And.intro p.claims_length p.unique_claims
  simp [investigationProposal, InvestigationProposal.json, onlyFields, List.lookup_cons, schemaVersion, hclaims, hvalid]

theorem ClaimProposal.json_whole (p : ClaimProposal) : p.json.whole = true := by
  simp [ClaimProposal.json, Json.whole, wholePairs, wholeItems_iff]

theorem ClaimProposal.json_strict (p : ClaimProposal) : p.json.strict = true := by
  simp [ClaimProposal.json, Json.strict, strictPairs, strictItems_iff]

theorem strictLoads_dumpJson (p : InvestigationProposal) : strictLoads p.dumpJson = .ok (.object p.json) := by
  have hwhole : (Json.object p.json).whole = true := by
    simp [InvestigationProposal.json, Json.whole, wholePairs, wholeItems_iff, ClaimProposal.json_whole]
  have hparse := @parseValue_chars _ [] _ hwhole le_rfl fun c hc => by cases hc
  have hspace := skipSpace_chars hwhole []
  rw [List.append_nil, ← p.toList_dumpJson, String.length_toList] at hparse
  rw [List.append_nil, ← p.toList_dumpJson] at hspace
  rw [strictLoads, hspace, hparse]
  rfl

theorem parse_dumpJson (p : InvestigationProposal) : @parseInvestigationProposal strictDecoding p.dumpJson = .ok p := by
  have hstrict : (Json.object p.json).strict = true := by
    simp [InvestigationProposal.json, Json.strict, strictPairs, strictItems_iff, ClaimProposal.json_strict]
  have hloads : @JsonDecoding.loads strictDecoding p.dumpJson = .ok (.object p.json) := strictLoads_dumpJson p
  simp only [parseInvestigationProposal, strictJsonObject, hloads, require, p.utf8ByteSize_dumpJson, hstrict,
    if_true, ok_bind]
  exact fetch_eq_ok.mpr (investigationProposal_json p)

end Investigation

/-! ## The phases -/

/-- **Stored proposals.** A proposal is read back from its text, which both limits admit; a text with a repeated key, a
number that is not finite or no object is refused; and what the model phase stored is handed over by the evaluate
phase, whatever else happened to the checkpoint. -/
theorem proposal_persistence :
    (∀ p : InvestigationProposal, @parseInvestigationProposal strictDecoding p.dumpJson = .ok p ∧
      p.dumpJson.length ≤ 65536 ∧ p.dumpJson.utf8ByteSize ≤ 65536) ∧
    (∀ payload value, strictLoads payload = .ok value →
      (∃ part : Json, part.Within value ∧ RefusedPart part) ∨ (∀ pairs, value ≠ .object pairs) →
        ∃ message, @parseInvestigationProposal strictDecoding payload =
          .error (.contract .invalidInput message)) ∧
    ∀ (harness : ModelHarness) (c c' : Checkpoint) (now : Time),
      @ModelHarness.modelStep strictDecoding harness c now = .ok c' → c'.next_step = .evaluate →
        ∃ input response proposal, harness.callProvider input = .ok response ∧
          @parseInvestigationProposal strictDecoding response.text = .ok proposal ∧
          ∀ d : Checkpoint, d.pending_proposal_json = c'.pending_proposal_json →
            @evaluateStep strictDecoding d = .ok ⟨d, d.tool_results.length, false, some proposal⟩ := by
  let D := strictDecoding
  refine ⟨fun p => ⟨parse_dumpJson p, p.length_dumpJson, p.utf8ByteSize_dumpJson⟩,
    fun payload value hloads h => parseInvestigationProposal_refused hloads h,
    fun harness c c' now hstep hphase => ?_⟩
  obtain ⟨-, reason, rfl⟩ | ⟨charged, response, hturn, -, hanswer⟩ := harness.modelStep_turn hstep
  · cases hphase
  cases hturn with
  | review hreason => cases hphase
  | retry hreason available_at => cases hphase
  | asked hcalls htool => cases hphase
  | @proposed response proposal hparsed =>
    obtain ⟨input, hinput⟩ := hanswer response rfl
    refine ⟨input, response, proposal, hinput, hparsed, fun d hd => ?_⟩
    have hread := attempt_eq_value.mpr (parse_dumpJson proposal)
    unfold evaluateStep
    simp only [hd, Checkpoint.proposed, hread, ok_bind]
    rfl

/-- A proposal of one claim, and a text with a number that is not finite inside of a list. -/
theorem proposal_persistence_order :
    let p : InvestigationProposal :=
      ⟨[⟨.orderRecorded, [⟨"order-1", Eq.refl true⟩], by decide, by decide⟩], by decide, by decide⟩
    @parseInvestigationProposal strictDecoding p.dumpJson = .ok p ∧
      ∃ message, @parseInvestigationProposal strictDecoding "[NaN]" =
        .error (.contract .invalidInput message) := by
  intro p
  have hloads : strictLoads "[NaN]" = .ok (.array [.float "NaN" false]) := by rfl
  have hpart : (Json.float "NaN" false).Within (.array [.float "NaN" false]) := .item List.mem_cons_self .here
  exact ⟨(proposal_persistence.1 p).1, proposal_persistence.2.1 _ _ hloads (.inl ⟨_, hpart, rfl⟩)⟩

end Aftercare
