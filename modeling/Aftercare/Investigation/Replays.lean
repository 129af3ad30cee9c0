import Mathlib.Logic.Relation
import Aftercare.Investigation.Exports
import Aftercare.Investigation.Recorder

/-!
# Replays of a recording

What a recording has left in the ledger stays there whatever other workers do, so a replay returns the row that
the ledger holds and changes nothing. Only a revoked row is refused as a conflict.
-/

namespace Aftercare.Investigation

open Relational Text Connectors

variable {binding : InvestigationEgmBinding} {operation_id : String} {expected_revision : ℤ}
  {accepted evidence : InvestigationEvidence} {work : Projecting} {recording : Recording}
  {now : Time} {grant : SourceGrant} {reply : EgmReply} {r : ObservationRow}

/-! ## What the methods read back -/

section

variable {ledger ledger' : Ledger} {scope : InvestigationScope}

theorem getBinding_eq_some : getBinding ledger scope = .ok (some binding) ↔
      ledger.bindings.get (scope.tenant_id, scope.case_id) = some binding ∧ binding.order_id = scope.order_id := by
  unfold getBinding
  split
  · next hnone => simp [hnone, pure_eq_ok]
  · next existing hsome =>
    simp only [ok_iff, hsome, Option.some.injEq]
    exact and_comm.trans (and_congr_right fun heq => by rw [heq])

theorem getProjection_eq_some {evidence_id : Identifier} {projection : InvestigationEgmProjection} :
    getProjection ledger scope evidence_id = .ok (some projection) ↔
      ledger.projections.get (scope.tenant_id, scope.case_id, evidence_id) = some projection ∧
        projection.order_id = scope.order_id := by
  unfold getProjection
  split
  · next hnone => simp [hnone, pure_eq_ok]
  · next existing hsome =>
    simp only [ok_iff, hsome, Option.some.injEq]
    exact and_comm.trans (and_congr_right fun heq => by rw [heq])

theorem putBinding_eq_ok {existing : InvestigationEgmBinding}
    (h : putBinding ledger binding = .ok (ledger', existing)) :
    existing = binding ∧ getBinding ledger' binding.toInvestigationScope = .ok (some binding) := by
  simp only [putBinding, ok_iff] at h
  obtain ⟨-, bindings, -, found, hfound, read, rfl, rfl, rfl, rfl⟩ := h
  exact ⟨rfl, hfound⟩

variable {evidence_id : Identifier} {projection : InvestigationEgmProjection}

theorem reserveProjection_eq_ok
    (h : reserveProjection ledger scope evidence_id operation_id expected_revision = .ok (ledger', projection)) :
    getProjection ledger' scope evidence_id = .ok (some projection) := by
  simp only [reserveProjection, ok_iff] at h
  obtain ⟨-, -, -, projections, -, found, hfound, read, rfl, -, rfl, rfl⟩ := h
  exact hfound

theorem rebaseProjection_eq_ok {previous_revision : ℤ}
    (h : rebaseProjection ledger scope evidence_id operation_id previous_revision expected_revision =
      .ok (ledger', projection)) :
    getProjection ledger' scope evidence_id = .ok (some projection) := by
  simp only [rebaseProjection, ok_iff] at h
  obtain ⟨-, written, -, found, hfound, read, rfl, -, rfl, rfl⟩ := h
  exact hfound

theorem completeProjection_eq_ok {egm_evidence_id : String} {completed_revision : ℤ}
    (h : completeProjection ledger scope evidence_id operation_id expected_revision completed_revision
      egm_evidence_id = .ok (ledger', projection)) :
    getProjection ledger' scope evidence_id = .ok (some projection) ∧
      projection.completed_revision = some completed_revision := by
  simp only [completeProjection, ok_iff] at h
  obtain ⟨-, written, -, found, hfound, read, rfl, ⟨-, -, hcompleted, -⟩, rfl, rfl⟩ := h
  exact ⟨hfound, hcompleted⟩

end

/-! ## What a recording leaves behind -/

/-- The observation is in the ledger, though it may be revoked. -/
structure Stored (ledger : Ledger) (evidence : InvestigationEvidence) : Prop where
  order_id : ledger.order_ids evidence.caseScope = some evidence.order_id
  row : ∃ r, ledger.observations.get (evidence.tenant_id, evidence.case_id, evidence.evidence_id) =
    some r ∧ SameEvent r evidence ∧ (r.payload = evidence ∨ r.payload.revoked_at ≠ none)

/-- The Case is bound to the application with the fingerprint. -/
def Bound (ledger : Ledger) (scope : InvestigationScope) (fingerprint : String) : Prop :=
  ∃ binding, getBinding ledger scope = .ok (some binding) ∧ binding.schema_fingerprint = fingerprint

def Completed (ledger : Ledger) (scope : InvestigationScope) (evidence_id : Identifier) : Prop :=
  ∃ projection, getProjection ledger scope evidence_id = .ok (some projection) ∧
    projection.completed_revision ≠ none

section

variable {ledger ledger' : Ledger}

theorem Stored.of_keeps (hkeeps : Keeps ledger ledger') (h : Stored ledger evidence) : Stored ledger' evidence := by
  obtain ⟨r, hr, hsame, hpayload⟩ := h.row
  obtain ⟨r', hr', hkept⟩ := hkeeps.observations _ r hr
  have hsame' := hkept.same_event
  refine ⟨hkeeps.order_ids ▸ h.order_id, r', hr', ⟨hsame'.tenant_id.symm.trans hsame.tenant_id,
    hsame'.case_id.symm.trans hsame.case_id, hsame'.evidence_id.symm.trans hsame.evidence_id,
    hsame'.source_event.symm.trans hsame.source_event⟩, ?_⟩
  obtain heq | hrevoked := hkept.payload
  · rw [heq]
    exact hpayload
  · exact .inr hrevoked

theorem Bound.of_keeps {scope : InvestigationScope} {fingerprint : String} (hkeeps : Keeps ledger ledger')
    (h : Bound ledger scope fingerprint) : Bound ledger' scope fingerprint := by
  obtain ⟨binding, hbinding, hfingerprint⟩ := h
  rw [getBinding_eq_some] at hbinding
  exact ⟨binding, getBinding_eq_some.mpr ⟨hkeeps.bindings _ _ hbinding.1, hbinding.2⟩, hfingerprint⟩

theorem Completed.of_keeps {scope : InvestigationScope} {evidence_id : Identifier}
    (hkeeps : Keeps ledger ledger') (h : Completed ledger scope evidence_id) :
    Completed ledger' scope evidence_id := by
  obtain ⟨projection, hprojection, hcompleted⟩ := h
  rw [getProjection_eq_some] at hprojection
  exact ⟨projection, getProjection_eq_some.mpr
    ⟨hkeeps.projections _ _ hprojection.1 hcompleted, hprojection.2⟩, hcompleted⟩

end

section

variable [Hashing] (recorder : ConnectorEvidenceRecorder) (call : RecordCall) (horizon : Time)

/-- What a call of the recorder derives, received before the horizon. -/
structure Accepted (evidence : InvestigationEvidence) : Prop where
  own_case : call.scope = recorder.scope.caseScope
  granted : ∃ grant, recorder.grants call.answer.source_id = some grant
  derived : evidenceFromAnswer call.answer recorder.scope call.artifact recorder.registered_sources =
    .ok evidence
  received : evidence.received_at ≤ horizon

/-- What a recording that returned has left in the ledger. -/
structure Settled (ledger : Ledger) (evidence : InvestigationEvidence) : Prop where
  accepted : Accepted recorder call horizon evidence
  stored : Stored ledger evidence
  projected : ∀ fingerprint ∈ recorder.fingerprint,
    Bound ledger recorder.scope fingerprint ∧ Completed ledger recorder.scope evidence.evidence_id

/-- While a recording projects, its observation is stored. -/
structure Begun (ledger : Ledger) (work : Projecting) : Prop where
  accepted : Accepted recorder call horizon work.accepted
  stored : Stored ledger work.accepted
  fingerprint : recorder.fingerprint = some work.fingerprint

/-- What holds of the ledger wherever a recording stands. -/
def Recording.Holds (ledger : Ledger) : Recording → Prop
  | .persisting | .raised _ => True
  | .binding work | .creating work | .putting work _ => Begun recorder call horizon ledger work
  | .projecting work _ | .revising work _ | .reserving work _ _ | .ingesting work _ _ _
  | .rebasing work _ _ | .rewriting work _ _ _ | .completing work _ _ _ =>
    Begun recorder call horizon ledger work ∧ Bound ledger recorder.scope work.fingerprint
  | .returned accepted => Settled recorder call horizon ledger accepted

variable {recorder call horizon} {ledger ledger' : Ledger}

theorem Settled.of_keeps (hkeeps : Keeps ledger ledger') (h : Settled recorder call horizon ledger accepted) :
    Settled recorder call horizon ledger' accepted where
  accepted := h.accepted
  stored := h.stored.of_keeps hkeeps
  projected fingerprint hfingerprint := ⟨(h.projected fingerprint hfingerprint).1.of_keeps hkeeps,
      (h.projected fingerprint hfingerprint).2.of_keeps hkeeps⟩

theorem Begun.of_keeps (hkeeps : Keeps ledger ledger') (h : Begun recorder call horizon ledger work) :
    Begun recorder call horizon ledger' work :=
  ⟨h.accepted, h.stored.of_keeps hkeeps, h.fingerprint⟩

theorem Recording.Holds.of_keeps (hkeeps : Keeps ledger ledger')
    (h : recording.Holds recorder call horizon ledger) : recording.Holds recorder call horizon ledger' := by
  match recording with
  | .persisting | .raised _ => trivial
  | .binding work | .creating work | .putting work _ => exact Begun.of_keeps hkeeps h
  | .projecting work _ | .revising work _ | .reserving work _ _ | .ingesting work _ _ _
  | .rebasing work _ _ | .rewriting work _ _ _ | .completing work _ _ _ =>
    exact ⟨h.1.of_keeps hkeeps, h.2.of_keeps hkeeps⟩
  | .returned accepted => exact Settled.of_keeps hkeeps h

/-! ## Steps -/

theorem persist_stored (h : recorder.persist call ledger now = .ok (ledger', accepted, grant))
    (hnow : now ≤ horizon) : Accepted recorder call horizon accepted ∧ Stored ledger' accepted := by
  obtain ⟨hcase, hgrant, hderived, hreceived, hput⟩ := ConnectorEvidenceRecorder.persist_put h
  obtain ⟨r, hr, hpayload⟩ := hput.mem
  refine ⟨⟨hcase, ⟨grant, hgrant⟩, hderived, hreceived.trans hnow⟩, ?_, r,
    Table.get_eq_some.mpr ⟨hr, ?_⟩, ?_, .inl hpayload⟩
  · rw [hput.frame]
    exact hput.order_id
  · rw [observationSchema_key, hpayload]
  · exact ⟨by rw [hpayload], by rw [hpayload], by rw [hpayload], by rw [hpayload]⟩

theorem goOn_holds {node_id : String} {projection : InvestigationEgmProjection} {attempt : ℕ}
    (hbegun : Begun recorder call horizon ledger work) (hbound : Bound ledger recorder.scope work.fingerprint)
    (hread : getProjection ledger recorder.scope work.accepted.evidence_id = .ok (some projection)) :
    (work.goOn node_id projection attempt).Holds recorder call horizon ledger := by
  unfold Projecting.goOn
  split_ifs with hcompleted
  · refine ⟨hbegun.accepted, hbegun.stored, fun fingerprint hfingerprint => ?_⟩
    rw [hbegun.fingerprint, Option.mem_some] at hfingerprint
    exact ⟨hfingerprint ▸ hbound, projection, hread, hcompleted⟩
  · exact ⟨hbegun, hbound⟩

theorem step_holds (hnow : now ≤ horizon) (h : recording.Holds recorder call horizon ledger) :
    (recorder.step call now reply ledger recording).2.Holds recorder call horizon
      (recorder.step call now reply ledger recording).1 := by
  let P : Ledger × Recording → Prop := fun s => s.2.Holds recorder call horizon s.1
  have hraise : ∀ failure, P (ledger, .raised failure) := fun _ => trivial
  match recording with
  | .persisting =>
    refine orRaise_cases (P := P) hraise fun (written, accepted, grant) hpersist => ?_
    obtain ⟨haccepted, hstored⟩ := persist_stored hpersist hnow
    dsimp only
    split
    · next hunbound =>
      exact ⟨haccepted, hstored, fun fingerprint hbound => by simp [hunbound] at hbound⟩
    · next fingerprint hbound => exact ⟨haccepted, hstored, hbound⟩
  | .binding work =>
    refine orRaise_cases (P := P) hraise fun existing hread => ?_
    match existing with
    | none => exact h
    | some existing =>
      dsimp only
      split_ifs with hfingerprint
      · exact ⟨h, existing, hread, hfingerprint⟩
      · exact hraise _
  | .creating work => exact orRaise_cases (P := P) hraise fun node_id _ => h
  | .putting work node_id =>
    refine orRaise_cases (P := P) hraise fun (written, existing) hput => ?_
    have hkeeps := putBinding_keeps hput
    obtain ⟨-, hread⟩ := putBinding_eq_ok hput
    exact ⟨Begun.of_keeps hkeeps h, _, hread, rfl⟩
  | .projecting work node_id =>
    refine orRaise_cases (P := P) hraise fun existing hread => ?_
    match existing with
    | none => exact h
    | some projection => exact goOn_holds h.1 h.2 hread
  | .revising work node_id => exact orRaise_cases (P := P) hraise fun revision _ => h
  | .reserving work node_id revision =>
    refine orRaise_cases (P := P) hraise fun (written, projection) hreserve => ?_
    have hkeeps := reserveProjection_keeps hreserve
    exact goOn_holds (h.1.of_keeps hkeeps) (h.2.of_keeps hkeeps) (reserveProjection_eq_ok hreserve)
  | .ingesting work node_id projection attempt =>
    refine orRaise_cases (P := P) hraise fun _ _ => ?_
    match reply with
    | .error code text =>
      dsimp only [ConnectorEvidenceRecorder.ingested]
      split_ifs
      · exact hraise _
      · exact h
    | .envelope .. => exact orRaise_cases (P := P) hraise fun receipt _ => h
    | .other => exact orRaise_cases (P := P) hraise fun receipt _ => h
  | .rebasing work node_id projection =>
    exact orRaise_cases (P := P) hraise fun revision _ => h
  | .rewriting work node_id projection revision =>
    refine orRaise_cases (P := P) hraise fun (written, projection) hrebase => ?_
    have hkeeps := rebaseProjection_keeps hrebase
    exact goOn_holds (h.1.of_keeps hkeeps) (h.2.of_keeps hkeeps) (rebaseProjection_eq_ok hrebase)
  | .completing work projection completed_revision egm_evidence_id =>
    refine orRaise_cases (P := P) hraise fun (written, projection) hcomplete => ?_
    have hkeeps := completeProjection_keeps hcomplete
    obtain ⟨hread, hcompleted⟩ := completeProjection_eq_ok hcomplete
    refine ⟨h.1.accepted, h.1.stored.of_keeps hkeeps, fun fingerprint hfingerprint => ?_⟩
    rw [h.1.fingerprint, Option.mem_some] at hfingerprint
    exact ⟨hfingerprint ▸ h.2.of_keeps hkeeps, projection, hread, by simp [hcompleted]⟩
  | .returned accepted => exact h
  | .raised failure => trivial

/-! ## Histories of a recording -/

variable (recorder call horizon) in
/-- A step of the recording, or calls of other workers. -/
inductive Moves : Ledger × Recording → Ledger × Recording → Prop
  | own {ledger : Ledger} {recording : Recording} (now : Time) (reply : EgmReply) (h : now ≤ horizon) :
    Moves (ledger, recording) (recorder.step call now reply ledger recording)
  | other {ledger : Ledger} {recording : Recording} (calls : List LedgerCall) :
    Moves (ledger, recording) (ledger.after calls, recording)

theorem settled_of_moves
    (h : Relation.ReflTransGen (Moves recorder call horizon) (ledger, .persisting) (ledger', .returned accepted)) :
    Settled recorder call horizon ledger' accepted := by
  have hholds : ∀ s, Relation.ReflTransGen (Moves recorder call horizon) (ledger, .persisting) s →
      s.2.Holds recorder call horizon s.1 := by
    intro s hs
    induction hs with
    | refl => trivial
    | tail _ hmove ih =>
      cases hmove with
      | own now reply hnow => exact step_holds hnow ih
      | other calls => exact Recording.Holds.of_keeps (Ledger.keeps_after _ calls) ih
  exact hholds _ h

/-! ## The replay -/

theorem evidenceFromAnswer_congr {answer : ConnectorAnswer} {scope : InvestigationScope}
    {artifact artifact' : ArtifactReference} {registered_sources : Identifier → Option SourceKind}
    (hcase : artifact.toCaseScope = artifact'.toCaseScope) (hsha : artifact.sha256 = artifact'.sha256) :
    evidenceFromAnswer answer scope artifact registered_sources =
      evidenceFromAnswer answer scope artifact' registered_sources := by
  unfold evidenceFromAnswer originalReference
  rw [hcase, hsha]

theorem persist_replay (h : Settled recorder call horizon ledger evidence) (hnow : horizon ≤ now)
    (hr : ledger.observations.get (evidence.tenant_id, evidence.case_id, evidence.evidence_id) = some r) :
    ∃ grant, recorder.persist call ledger now =
      if r.payload = evidence then .ok (ledger, evidence, grant)
      else .error (.contract .conflict "observation replay conflicts") := by
  obtain ⟨hcase, ⟨grant, hgrant⟩, hderived, hreceived⟩ := h.accepted
  have hfacts := evidenceFromAnswer_derived hderived
  obtain ⟨row, hrow, hsame, -⟩ := h.stored.row
  rw [hr, Option.some.injEq] at hrow
  have hput := putObservation_replay (Table.mem_of_get hr) (hrow ▸ hsame) hfacts.revoked_at
    h.stored.order_id
  rw [hfacts.scope_eq] at hput
  refine ⟨grant, ?_⟩
  rw [ConnectorEvidenceRecorder.persist_eq hcase hgrant hderived (hreceived.trans hnow), hput]
  split_ifs with heq
  · rw [heq]
    rfl
  · rfl

theorem run_cons {recording' : Recording}
    (hstep : recorder.step call now reply ledger recording = (ledger', recording'))
    (replies : List EgmReply) : recorder.run call now (reply :: replies) ledger recording =
      recorder.run call now replies ledger' recording' := by
  rw [ConnectorEvidenceRecorder.run, hstep]

theorem run_returned (replies : List EgmReply) :
    recorder.run call now replies ledger (.returned evidence) = (ledger, .returned evidence) := by
  induction replies with
  | nil => rfl
  | cons reply replies ih => exact ih

theorem run_raised {failure : Failure} (replies : List EgmReply) :
    recorder.run call now replies ledger (.raised failure) = (ledger, .raised failure) := by
  induction replies with
  | nil => rfl
  | cons reply replies ih => exact ih

theorem run_replay (h : Settled recorder call horizon ledger evidence)
    (hpersist : recorder.persist call ledger now = .ok (ledger, evidence, grant))
    {replies : List EgmReply} (hlength : 3 ≤ replies.length) :
    recorder.run call now replies ledger .persisting = (ledger, .returned evidence) := by
  match replies, hlength with
  | first :: second :: third :: replies, _ =>
    cases hfingerprint : recorder.fingerprint with
    | none =>
      have hstep : recorder.step call now first ledger .persisting = (ledger, .returned evidence) := by
        simp only [ConnectorEvidenceRecorder.step, hpersist, orRaise, hfingerprint]
      rw [run_cons hstep]
      exact run_returned _
    | some fingerprint =>
      obtain ⟨⟨binding, hbinding, hsame⟩, projection, hprojection, hcompleted⟩ := h.projected fingerprint hfingerprint
      have hfirst : recorder.step call now first ledger .persisting =
          (ledger, .binding ⟨evidence, grant, fingerprint⟩) := by
        simp only [ConnectorEvidenceRecorder.step, hpersist, orRaise, hfingerprint]
      have hsecond : recorder.step call now second ledger (.binding ⟨evidence, grant, fingerprint⟩) =
          (ledger, .projecting ⟨evidence, grant, fingerprint⟩ binding.node_id) := by
        simp only [ConnectorEvidenceRecorder.step, hbinding, orRaise, hsame, if_true]
      have hthird : recorder.step call now third ledger (.projecting ⟨evidence, grant, fingerprint⟩ binding.node_id) =
            (ledger, .returned evidence) := by
        simp only [ConnectorEvidenceRecorder.step, hprojection, orRaise, Projecting.goOn, if_pos hcompleted]
      rw [run_cons hfirst, run_cons hsecond, run_cons hthird]
      exact run_returned _

theorem run_replay_revoked (h : Settled recorder call horizon ledger evidence) (hnow : horizon ≤ now)
    (hr : ledger.observations.get (evidence.tenant_id, evidence.case_id, evidence.evidence_id) = some r)
    (hrevoked : r.payload.revoked_at ≠ none) (reply : EgmReply) (replies : List EgmReply) :
    recorder.run call now (reply :: replies) ledger .persisting =
      (ledger, .raised (.contract .conflict "observation replay conflicts")) := by
  have hfacts := evidenceFromAnswer_derived h.accepted.derived
  have hne : r.payload ≠ evidence := fun heq => hrevoked (heq ▸ hfacts.revoked_at)
  obtain ⟨grant, hpersist⟩ := persist_replay h hnow hr
  rw [if_neg hne] at hpersist
  have hstep : recorder.step call now reply ledger .persisting =
      (ledger, .raised (.contract .conflict "observation replay conflicts")) := by
    simp only [ConnectorEvidenceRecorder.step, hpersist, orRaise]
  rw [run_cons hstep]
  exact run_raised replies

/-- A replay returns the stored row exactly when it was not revoked. -/
theorem recording_replays {accepted : InvestigationEvidence}
    (hrecorded : Relation.ReflTransGen (Moves recorder call horizon) (ledger, .persisting)
      (ledger', .returned accepted))
    (calls : List LedgerCall) {again : RecordCall} {now : Time} (hnow : horizon ≤ now)
    (hscope : again.scope = call.scope) (hanswer : again.answer = call.answer)
    (hcase : again.artifact.toCaseScope = call.artifact.toCaseScope)
    (hsha : again.artifact.sha256 = call.artifact.sha256) :
    ∃ row, (ledger'.after calls).observations.get
        (accepted.tenant_id, accepted.case_id, accepted.evidence_id) = some row ∧
      ((∀ replies : List EgmReply, 3 ≤ replies.length →
          recorder.run again now replies (ledger'.after calls) .persisting =
            (ledger'.after calls, .returned row.payload)) ↔
        row.payload.revoked_at = none) := by
  have hsettled := (settled_of_moves hrecorded).of_keeps (Ledger.keeps_after ledger' calls)
  have haccepted := hsettled.accepted
  have hagain : Settled recorder again horizon (ledger'.after calls) accepted := by
    refine ⟨⟨hscope ▸ haccepted.own_case, hanswer ▸ haccepted.granted, ?_, haccepted.received⟩,
      hsettled.stored, hsettled.projected⟩
    rw [hanswer, evidenceFromAnswer_congr hcase hsha]
    exact haccepted.derived
  obtain ⟨row, hrow, -, hpayload⟩ := hagain.stored.row
  refine ⟨row, hrow, fun hruns => ?_, fun hkept replies hlength => ?_⟩
  · by_contra hrevoked
    have hrun := hruns [.other, .other, .other] le_rfl
    rw [run_replay_revoked hagain hnow hrow hrevoked, Prod.mk.injEq] at hrun
    simp at hrun
  · have heq : row.payload = accepted := hpayload.resolve_right fun hrevoked => hrevoked hkept
    obtain ⟨grant, hpersist⟩ := persist_replay hagain hnow hrow
    rw [if_pos heq] at hpersist
    rw [heq]
    exact run_replay hagain hpersist hlength

end

/-! ## A recording that is revoked -/

def sampleRecorder : ConnectorEvidenceRecorder :=
  unboundRecorder orderScope ⟨"aftercare-connector", Eq.refl true⟩ sampleSources

def sampleCall : RecordCall := letI := zeroHashing
  let answer := (messageConnector 5 five_fits).buyerAnswer orderScope.order_id (sampleMessage 5 five_fits)
  ⟨orderScope.caseScope, answer, ⟨orderScope.caseScope, ⟨"message-1", Eq.refl true⟩, answer.digest⟩⟩

/-- A recording that has returned, with its row, which can be revoked. -/
def Revocable (now : Time) : Ledger × Recording → Bool
  | (ledger, .returned evidence) =>
    decide (evidence.received_at = now ∧ ledger.observations.rows = [⟨evidence, none⟩] ∧
      evidence.revoked_at = none) &&
    ((ledger.after [.revoke orderScope evidence.evidence_id now "mistaken"]).observations.get
      (evidence.tenant_id, evidence.case_id, evidence.evidence_id)).any fun row =>
        decide (row.revocation_reason = some "mistaken" ∧ row.payload.revoked_at ≠ none)
  | _ => false

/-- A recording of a message. -/
def sampleRecorded : { result : Ledger × Recording // Revocable sampleTime.val result = true } :=
  ⟨@ConnectorEvidenceRecorder.step zeroHashing sampleRecorder sampleCall sampleTime.val .other
    (.opened orderScope) .persisting, by decide +kernel⟩

theorem exists_sampleRecording : letI := zeroHashing
    ∃ ledger evidence updated, sampleRecorder.step sampleCall evidence.received_at .other (.opened orderScope)
        .persisting = (ledger, .returned evidence) ∧
      ledger.observations.rows = [⟨evidence, none⟩] ∧ evidence.revoked_at = none ∧
      (ledger.after [.revoke orderScope evidence.evidence_id evidence.received_at "mistaken"]).observations.get
        (evidence.tenant_id, evidence.case_id, evidence.evidence_id) = some ⟨updated, some "mistaken"⟩ ∧
      updated.revoked_at ≠ none := by
  let H := zeroHashing
  have hruns := sampleRecorded.2
  have hstep : sampleRecorder.step sampleCall sampleTime.val .other (.opened orderScope) .persisting =
    sampleRecorded.1 := by rw [sampleRecorded]
  generalize sampleRecorded.1 = result at hruns hstep
  obtain ⟨ledger, recording⟩ := result
  cases recording with
  | returned evidence =>
    simp only [Revocable, Bool.and_eq_true, decide_eq_true_eq, Option.any_eq_true] at hruns
    obtain ⟨⟨hreceived, hrows, hopen⟩, ⟨updated, reason⟩, hget, rfl, hrevoked⟩ := hruns
    rw [← hreceived] at hstep hget
    exact ⟨ledger, evidence, updated, hstep, hrows, hopen, hget, hrevoked⟩
  | _ => cases hruns

theorem moves_of_step [Hashing] {recorder : ConnectorEvidenceRecorder} {call : RecordCall} {ledger ledger' : Ledger}
    (hstep : recorder.step call evidence.received_at .other ledger .persisting = (ledger', .returned evidence)) :
    Relation.ReflTransGen (Moves recorder call evidence.received_at) (ledger, .persisting)
      (ledger', .returned evidence) := by
  have hmove : Moves recorder call evidence.received_at (ledger, .persisting)
    (recorder.step call evidence.received_at .other ledger .persisting) := .own _ _ le_rfl
  rw [hstep] at hmove
  exact .single hmove

/-- A message is recorded, and its replay returns the same row. -/
theorem recording_replays_once : letI := zeroHashing
    ∃ (call : RecordCall) (ledger : Ledger) (evidence : InvestigationEvidence),
      sampleRecorder.step call evidence.received_at .other (.opened orderScope) .persisting =
        (ledger, .returned evidence) ∧
      sampleRecorder.run call evidence.received_at [.other, .other, .other] ledger .persisting =
        (ledger, .returned evidence) := by
  let H := zeroHashing
  obtain ⟨ledger, evidence, -, hstep, hrows, hrevoked, -⟩ := exists_sampleRecording
  obtain ⟨row, hrow, hiff⟩ := recording_replays (moves_of_step hstep) [] le_rfl rfl rfl rfl rfl
  have hmem : row ∈ ledger.observations.rows := Table.mem_of_get hrow
  rw [hrows, List.mem_singleton] at hmem
  have hrun := hiff.mpr (by rw [hmem]; exact hrevoked) [.other, .other, .other] le_rfl
  rw [hmem] at hrun
  exact ⟨sampleCall, ledger, evidence, hstep, hrun⟩

/-- A message is recorded, revoked, and recorded again. -/
theorem revoked_recording_conflicts : letI := zeroHashing
    ∃ (call : RecordCall) (ledger revoked : Ledger) (evidence updated : InvestigationEvidence),
      sampleRecorder.step call evidence.received_at .other (.opened orderScope) .persisting =
        (ledger, .returned evidence) ∧
      revoked = ledger.after
        [.revoke orderScope evidence.evidence_id evidence.received_at "mistaken"] ∧
      revoked.observations.get (evidence.tenant_id, evidence.case_id, evidence.evidence_id) =
        some ⟨updated, some "mistaken"⟩ ∧
      sampleRecorder.run call evidence.received_at [.other, .other, .other] revoked .persisting =
        (revoked, .raised (.contract .conflict "observation replay conflicts")) := by
  let H := zeroHashing
  obtain ⟨ledger, evidence, updated, hstep, -, -, hget, hrevoked⟩ := exists_sampleRecording
  have hkept := (settled_of_moves (moves_of_step hstep)).of_keeps (Ledger.keeps_after ledger
    [.revoke orderScope evidence.evidence_id evidence.received_at "mistaken"])
  exact ⟨sampleCall, ledger, _, evidence, updated, hstep, rfl, hget,
    run_replay_revoked hkept le_rfl hget hrevoked _ _⟩

end Aftercare.Investigation
