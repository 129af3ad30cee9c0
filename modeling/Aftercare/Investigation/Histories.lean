import Aftercare.Persistence.Investigations

/-!
# Histories of the observation ledger

A history of a Case is a sequence of calls of the repositories: of recordings, of revocations and of
imports, from any number of workers, each of which is one transaction. Whatever a call does, a row of the
observations keeps its id and its source event, and changes only by being revoked; a binding and a completed
projection stay as they are. So the same holds after every history.
-/

namespace Aftercare.Investigation

open Relational Text

variable {ledger ledger' : Ledger} {updated evidence : InvestigationEvidence} {revoked_at : Time}
  {evidence_id : Identifier} {reason operation_id egm_evidence_id : String}
  {expected_revision previous_revision completed_revision : ℤ}
  {projection : InvestigationEgmProjection} {revocation : InvestigationEgmRevocation}

/-! ## What a method keeps -/

structure Kept (r r' : ObservationRow) : Prop where
  same_event : SameEvent r r'.payload
  payload : r' = r ∨ r'.payload.revoked_at ≠ none

structure Keeps (ledger ledger' : Ledger) : Prop where
  order_ids : ledger'.order_ids = ledger.order_ids
  observations : ∀ k r, ledger.observations.get k = some r →
    ∃ r', ledger'.observations.get k = some r' ∧ Kept r r'
  bindings : ∀ k b, ledger.bindings.get k = some b → ledger'.bindings.get k = some b
  projections : ∀ k p, ledger.projections.get k = some p → p.completed_revision ≠ none →
    ledger'.projections.get k = some p

theorem Kept.refl (r : ObservationRow) : Kept r r := ⟨⟨rfl, rfl, rfl, rfl⟩, .inl rfl⟩

theorem Kept.trans {r r' r'' : ObservationRow} (h : Kept r r') (h' : Kept r' r'') : Kept r r'' := by
  have hfirst := h.same_event
  have hsecond := h'.same_event
  refine ⟨⟨hfirst.tenant_id.trans hsecond.tenant_id, hfirst.case_id.trans hsecond.case_id,
    hfirst.evidence_id.trans hsecond.evidence_id, hfirst.source_event.trans hsecond.source_event⟩, ?_⟩
  obtain hsame | hrevoked := h'.payload
  · rw [hsame]
    exact h.payload
  · exact .inr hrevoked

theorem Keeps.refl (ledger : Ledger) : Keeps ledger ledger :=
  ⟨rfl, fun _ r h => ⟨r, h, .refl r⟩, fun _ _ h => h, fun _ _ h _ => h⟩

theorem Keeps.trans {ledger'' : Ledger} (h : Keeps ledger ledger') (h' : Keeps ledger' ledger'') :
    Keeps ledger ledger'' where
  order_ids := h'.order_ids.trans h.order_ids
  observations k r hr := by
    obtain ⟨r', hr', hkept⟩ := h.observations k r hr
    obtain ⟨r'', hr'', hkept'⟩ := h'.observations k r' hr'
    exact ⟨r'', hr'', hkept.trans hkept'⟩
  bindings k b hb := h'.bindings k b (h.bindings k b hb)
  projections k p hp hdone := h'.projections k p (h.projections k p hp hdone) hdone

theorem Keeps.of_eq (horder : ledger'.order_ids = ledger.order_ids)
    (hobservations : ledger'.observations = ledger.observations) (hbindings : ledger'.bindings = ledger.bindings)
    (hprojections : ledger'.projections = ledger.projections) : Keeps ledger ledger' where
  order_ids := horder
  observations _ r hr := ⟨r, hobservations ▸ hr, .refl r⟩
  bindings _ _ hb := hbindings ▸ hb
  projections _ _ hp _ := hprojections ▸ hp

variable {scope : InvestigationScope}

theorem putObservation_keeps {accepted : InvestigationEvidence}
    (h : putObservation ledger evidence scope = .ok (ledger', accepted)) : Keeps ledger ledger' := by
  obtain ⟨-, -, hput⟩ := putObservation_eq_ok h
  have hframe := hput.frame
  refine ⟨by rw [hframe], fun k r hr => ⟨r, ?_, .refl r⟩, fun k b hb => ?_, fun k p hp _ => ?_⟩
  · obtain ⟨hmem, hkey⟩ := Table.get_eq_some.mp hr
    exact Table.get_eq_some.mpr ⟨hput.keeps hmem, hkey⟩
  · rw [hframe]
    exact hb
  · rw [hframe]
    exact hp

theorem withRevokedAt_eq_ok (h : withRevokedAt evidence revoked_at = .ok updated) :
    SameEvent ⟨evidence, none⟩ updated ∧ updated.revoked_at = some revoked_at := by
  unfold withRevokedAt at h
  split_ifs at h
  rw [pure_eq_ok] at h
  rw [← h]
  exact ⟨⟨rfl, rfl, rfl, rfl⟩, rfl⟩

theorem revokeObservation_keeps
    (h : revokeObservation ledger scope evidence_id revoked_at reason = .ok (ledger', updated)) :
    Keeps ledger ledger' := by
  simp only [revokeObservation, ok_iff, lockCase_eq_ok, statement_eq_ok] at h
  obtain ⟨-, -, row, hrow, -, changed, hchanged, observations, hupdate, hledger, -⟩ := h
  obtain ⟨hsame, hrevoked⟩ := withRevokedAt_eq_ok hchanged
  rw [Option.filter_eq_some_iff] at hrow
  rw [← hledger]
  refine ⟨rfl, fun k r hr => ?_, fun _ _ hb => hb, fun _ _ hp _ => hp⟩
  rw [Table.get_update hupdate]
  split_ifs with hk
  · rw [hk, hrow.1, Option.some.injEq] at hr
    rw [hrow.1]
    refine ⟨_, rfl, ⟨hr ▸ ⟨hsame.tenant_id, hsame.case_id, hsame.evidence_id, hsame.source_event⟩, ?_⟩⟩
    exact .inr (by simp [hrevoked])
  · exact ⟨r, hr, .refl r⟩

theorem putBinding_keeps {binding existing : InvestigationEgmBinding}
    (h : putBinding ledger binding = .ok (ledger', existing)) : Keeps ledger ledger' := by
  simp only [putBinding, ok_iff, statement_eq_ok] at h
  obtain ⟨-, bindings, hinsert, -, -, -, -, -, hledger, -⟩ := h
  rw [← hledger]
  refine ⟨rfl, fun _ r hr => ⟨r, hr, .refl r⟩, fun k b hb => ?_, fun _ _ hp _ => hp⟩
  rw [Table.get_insertIfAbsent hinsert, hb]
  split_ifs
  · rfl
  · rfl

theorem reserveProjection_keeps
    (h : reserveProjection ledger scope evidence_id operation_id expected_revision = .ok (ledger', projection)) :
    Keeps ledger ledger' := by
  simp only [reserveProjection, ok_iff, statement_eq_ok] at h
  obtain ⟨-, -, -, projections, hinsert, -, -, -, -, -, hledger, -⟩ := h
  rw [← hledger]
  refine ⟨rfl, fun _ r hr => ⟨r, hr, .refl r⟩, fun _ _ hb => hb, fun k p hp _ => ?_⟩
  rw [Table.get_insertIfAbsent hinsert, hp]
  split_ifs
  · rfl
  · rfl

theorem updateProjection_keeps {change : InvestigationEgmProjection → InvestigationEgmProjection}
    (h : updateProjection ledger scope evidence_id operation_id expected_revision change = .ok ledger') :
    Keeps ledger ledger' := by
  simp only [updateProjection, ok_iff, statement_eq_ok] at h
  obtain ⟨projections, hupdate, hledger⟩ := h
  rw [← hledger]
  refine ⟨rfl, fun _ r hr => ⟨r, hr, .refl r⟩, fun _ _ hb => hb, fun k p hp hdone => ?_⟩
  -- a completed projection is not pending, so that the statement does not match it
  have hpending : p.pending scope operation_id expected_revision = false := by
    rw [InvestigationEgmProjection.pending, Option.isNone_eq_false_iff.mpr
      (Option.isSome_iff_ne_none.mpr hdone), Bool.and_false]
  rw [Table.get_update hupdate]
  split_ifs with hk
  · rw [← hk, hp, Option.map_some, hpending]
    rfl
  · exact hp

theorem rebaseProjection_keeps
    (h : rebaseProjection ledger scope evidence_id operation_id previous_revision expected_revision =
      .ok (ledger', projection)) :
    Keeps ledger ledger' := by
  simp only [rebaseProjection, ok_iff] at h
  obtain ⟨-, written, hupdate, -, -, -, -, -, hledger, -⟩ := h
  rw [← hledger]
  exact updateProjection_keeps hupdate

theorem completeProjection_keeps
    (h : completeProjection ledger scope evidence_id operation_id expected_revision completed_revision
      egm_evidence_id = .ok (ledger', projection)) :
    Keeps ledger ledger' := by
  simp only [completeProjection, ok_iff] at h
  obtain ⟨-, written, hupdate, -, -, -, -, -, hledger, -⟩ := h
  rw [← hledger]
  exact updateProjection_keeps hupdate

theorem reserveRevocation_keeps
    (h : reserveRevocation ledger scope evidence_id egm_evidence_id operation_id reason revoked_at
      expected_revision = .ok (ledger', revocation)) :
    Keeps ledger ledger' := by
  simp only [reserveRevocation, ok_iff, statement_eq_ok] at h
  obtain ⟨-, -, revocations, -, -, -, -, -, -, hledger, -⟩ := h
  rw [← hledger]
  exact .of_eq rfl rfl rfl rfl

theorem updateRevocation_keeps {change : InvestigationEgmRevocation → InvestigationEgmRevocation}
    (h : updateRevocation ledger scope evidence_id operation_id expected_revision change = .ok ledger') :
    Keeps ledger ledger' := by
  simp only [updateRevocation, ok_iff] at h
  obtain ⟨revocations, -, hledger⟩ := h
  rw [← hledger]
  exact .of_eq rfl rfl rfl rfl

theorem rebaseRevocation_keeps
    (h : rebaseRevocation ledger scope evidence_id operation_id previous_revision expected_revision =
      .ok (ledger', revocation)) :
    Keeps ledger ledger' := by
  simp only [rebaseRevocation, ok_iff] at h
  obtain ⟨-, written, hupdate, -, -, -, -, -, hledger, -⟩ := h
  rw [← hledger]
  exact updateRevocation_keeps hupdate

theorem completeRevocation_keeps {egm_revoked_at : Time}
    (h : completeRevocation ledger scope evidence_id operation_id expected_revision completed_revision
      egm_revoked_at = .ok (ledger', revocation)) :
    Keeps ledger ledger' := by
  simp only [completeRevocation, ok_iff] at h
  obtain ⟨-, written, hupdate, -, -, -, -, -, hledger, -⟩ := h
  rw [← hledger]
  exact updateRevocation_keeps hupdate

theorem advanceCursor_keeps {source_id next_message_id : Identifier} {expected_message_id : Option Identifier}
    {cursor : BuyerHistoryCursor}
    (h : advanceCursor ledger scope source_id expected_message_id next_message_id = .ok (ledger', cursor)) :
    Keeps ledger ledger' := by
  simp only [advanceCursor, ok_iff] at h
  obtain ⟨-, -, cursors, -, -, -, -, -, -, hledger, -⟩ := h
  rw [← hledger]
  exact .of_eq rfl rfl rfl rfl

/-! ## Calls -/

/-- A transaction; a revocation reserves its command in the same one. -/
inductive LedgerCall
  | put (evidence : InvestigationEvidence) (scope : InvestigationScope)
  | revoke (scope : InvestigationScope) (evidence_id : Identifier) (revoked_at : Time) (reason : String)
  | revokeBound (scope : InvestigationScope) (evidence_id : Identifier) (revoked_at : Time)
      (reason egm_evidence_id operation_id : String) (expected_revision : ℤ)
  | rebaseRevoked (scope : InvestigationScope) (evidence_id : Identifier) (operation_id : String)
      (previous_revision expected_revision : ℤ)
  | completeRevoked (scope : InvestigationScope) (evidence_id : Identifier) (operation_id : String)
      (expected_revision completed_revision : ℤ) (egm_revoked_at : Time)
  | bind (binding : InvestigationEgmBinding)
  | reserve (scope : InvestigationScope) (evidence_id : Identifier) (operation_id : String)
      (expected_revision : ℤ)
  | rebase (scope : InvestigationScope) (evidence_id : Identifier) (operation_id : String)
      (previous_revision expected_revision : ℤ)
  | complete (scope : InvestigationScope) (evidence_id : Identifier) (operation_id : String)
      (expected_revision completed_revision : ℤ) (egm_evidence_id : String)
  | advance (scope : InvestigationScope) (source_id : Identifier)
      (expected_message_id : Option Identifier) (next_message_id : Identifier)

/-- The ledger after a transaction that is committed. -/
def LedgerCall.run (ledger : Ledger) : LedgerCall → Result Ledger
  | .put evidence scope => (putObservation ledger evidence scope).map Prod.fst
  | .revoke scope evidence_id revoked_at reason =>
    (revokeObservation ledger scope evidence_id revoked_at reason).map Prod.fst
  | .revokeBound scope evidence_id revoked_at reason egm_evidence_id operation_id expected_revision => do
    let (revoked, _) ← revokeObservation ledger scope evidence_id revoked_at reason
    (reserveRevocation revoked scope evidence_id egm_evidence_id operation_id reason revoked_at
      expected_revision).map Prod.fst
  | .rebaseRevoked scope evidence_id operation_id previous_revision expected_revision =>
    (rebaseRevocation ledger scope evidence_id operation_id previous_revision expected_revision).map
      Prod.fst
  | .completeRevoked scope evidence_id operation_id expected_revision completed_revision
      egm_revoked_at =>
    (completeRevocation ledger scope evidence_id operation_id expected_revision completed_revision
      egm_revoked_at).map Prod.fst
  | .bind binding => (putBinding ledger binding).map Prod.fst
  | .reserve scope evidence_id operation_id expected_revision =>
    (reserveProjection ledger scope evidence_id operation_id expected_revision).map Prod.fst
  | .rebase scope evidence_id operation_id previous_revision expected_revision =>
    (rebaseProjection ledger scope evidence_id operation_id previous_revision expected_revision).map
      Prod.fst
  | .complete scope evidence_id operation_id expected_revision completed_revision egm_evidence_id =>
    (completeProjection ledger scope evidence_id operation_id expected_revision completed_revision
      egm_evidence_id).map Prod.fst
  | .advance scope source_id expected_message_id next_message_id =>
    (advanceCursor ledger scope source_id expected_message_id next_message_id).map Prod.fst

theorem keeps_of_map {α : Type} {x : Result (Ledger × α)}
    (hkeeps : ∀ {written a}, x = .ok (written, a) → Keeps ledger written)
    (h : x.map Prod.fst = .ok ledger') : Keeps ledger ledger' := by
  match x with
  | .error failure => simp [Except.map] at h
  | .ok (written, a) =>
    rw [← Except.ok.inj h]
    exact hkeeps rfl

theorem LedgerCall.run_keeps {call : LedgerCall} (h : call.run ledger = .ok ledger') : Keeps ledger ledger' := by
  match call with
  | .put .. => exact keeps_of_map putObservation_keeps h
  | .revoke .. => exact keeps_of_map revokeObservation_keeps h
  | .revokeBound .. =>
    simp only [LedgerCall.run, bind_eq_ok, Prod.exists] at h
    obtain ⟨revoked, updated, hrevoke, hreserve⟩ := h
    exact (revokeObservation_keeps hrevoke).trans (keeps_of_map reserveRevocation_keeps hreserve)
  | .rebaseRevoked .. => exact keeps_of_map rebaseRevocation_keeps h
  | .completeRevoked .. => exact keeps_of_map completeRevocation_keeps h
  | .bind .. => exact keeps_of_map putBinding_keeps h
  | .reserve .. => exact keeps_of_map reserveProjection_keeps h
  | .rebase .. => exact keeps_of_map rebaseProjection_keeps h
  | .complete .. => exact keeps_of_map completeProjection_keeps h
  | .advance .. => exact keeps_of_map advanceCursor_keeps h

/-- The ledger after calls, where one that raises is rolled back. -/
def Ledger.after (ledger : Ledger) (calls : List LedgerCall) : Ledger :=
  calls.foldl (fun ledger call => (call.run ledger).toOption.getD ledger) ledger

theorem Ledger.keeps_after (ledger : Ledger) (calls : List LedgerCall) : Keeps ledger (ledger.after calls) := by
  induction calls generalizing ledger with
  | nil => exact .refl ledger
  | cons call calls ih =>
    have hcall : Keeps ledger ((call.run ledger).toOption.getD ledger) := by
      cases hrun : call.run ledger with
      | error failure => exact .refl ledger
      | ok ledger' => exact LedgerCall.run_keeps hrun
    exact hcall.trans (ih _)

end Aftercare.Investigation
