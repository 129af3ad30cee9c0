import Aftercare.Investigation.Bridge
import Aftercare.Persistence.Database

/-!
# The observation ledger

The repositories of `persistence/investigations.py`: the observations of a Case, the position of its buyer
history, and the receipts of the projection into the evidence application. Every method runs in one transaction.
Columns that nothing reads, such as `created_at`, are left out.
-/

namespace Aftercare.Investigation

open Relational Text

/-! ## Rows -/

/-- A row of `aftercare_investigation_observations`. -/
structure ObservationRow where
  payload : InvestigationEvidence
  revocation_reason : Option String
deriving DecidableEq, Repr

/-- The check of a stored reason: not only blanks, and not too long. -/
def reasonCheck (reason : String) : Bool :=
  reason.toList.any (· != ' ') && decide (reason.length ≤ 4000)

/-- One observation under each evidence id, and for each source event. -/
@[simps]
def observationSchema : Schema ObservationRow (Identifier × Identifier × Identifier) where
  key r := (r.payload.tenant_id, r.payload.case_id, r.payload.evidence_id)
  clash a b := a.payload.tenant_id == b.payload.tenant_id && a.payload.case_id == b.payload.case_id &&
    a.payload.source_event == b.payload.source_event
  check r := r.payload.revoked_at.isNone == r.revocation_reason.isNone &&
    r.revocation_reason.all reasonCheck

structure InvestigationEgmBinding extends InvestigationScope where
  (node_id schema_fingerprint : String)
deriving DecidableEq, Repr

@[simps]
def bindingSchema : Schema InvestigationEgmBinding (Identifier × Identifier) where
  key b := (b.tenant_id, b.case_id)
  clash _ _ := false
  check b := b.node_id != "" && b.schema_fingerprint != ""

structure InvestigationEgmProjection extends InvestigationScope where
  evidence_id : Identifier
  operation_id : String
  expected_revision : ℤ
  completed_revision : Option ℤ
  egm_evidence_id : Option String
deriving DecidableEq, Repr

/-- One projection for each observation, and for each operation. -/
@[simps]
def projectionSchema : Schema InvestigationEgmProjection (Identifier × Identifier × Identifier) where
  key p := (p.tenant_id, p.case_id, p.evidence_id)
  clash a b := a.tenant_id == b.tenant_id && a.case_id == b.case_id && a.operation_id == b.operation_id
  check p := p.operation_id != "" && decide (0 ≤ p.expected_revision ∧ p.expected_revision ≤ maxInt) &&
    p.completed_revision.isNone == p.egm_evidence_id.isNone &&
    p.completed_revision.all fun completed =>
      decide (p.expected_revision < completed ∧ completed ≤ maxInt)

structure InvestigationEgmRevocation extends InvestigationScope where
  evidence_id : Identifier
  (egm_evidence_id operation_id reason : String)
  revoked_at : Time
  expected_revision : ℤ
  completed_revision : Option ℤ
  egm_revoked_at : Option Time
deriving DecidableEq, Repr

/-- One revocation for each observation, and for each operation. -/
@[simps]
def revocationSchema : Schema InvestigationEgmRevocation (Identifier × Identifier × Identifier) where
  key r := (r.tenant_id, r.case_id, r.evidence_id)
  clash a b := a.tenant_id == b.tenant_id && a.case_id == b.case_id && a.operation_id == b.operation_id
  check r := r.egm_evidence_id != "" && r.operation_id != "" && reasonCheck r.reason &&
    decide (0 ≤ r.expected_revision ∧ r.expected_revision ≤ maxInt) &&
    r.completed_revision.isNone == r.egm_revoked_at.isNone &&
    r.completed_revision.all fun completed =>
      decide (r.expected_revision < completed ∧ completed ≤ maxInt)

structure BuyerHistoryCursor extends InvestigationScope where
  (source_id message_id : Identifier)
deriving DecidableEq, Repr

@[simps]
def cursorSchema : Schema BuyerHistoryCursor (Identifier × Identifier × Identifier) where
  key c := (c.tenant_id, c.case_id, c.source_id)
  clash _ _ := false
  check _ := true

/-- The tables of the investigations, and the order of each Case. -/
structure Ledger where
  order_ids : CaseScope → Option Identifier
  observations : Table observationSchema
  bindings : Table bindingSchema
  projections : Table projectionSchema
  revocations : Table revocationSchema
  cursors : Table cursorSchema

def InvestigationScope.caseScope (scope : InvestigationScope) : CaseScope :=
  ⟨scope.tenant_id, scope.case_id⟩

def Ledger.opened (scope : InvestigationScope) : Ledger where
  order_ids case := if case = scope.caseScope then some scope.order_id else none
  observations := .empty
  bindings := .empty
  projections := .empty
  revocations := .empty
  cursors := .empty

/-! ## Observations -/

def lockCase (ledger : Ledger) (scope : InvestigationScope) : Result Unit := do
  let order_id ← fetch (ledger.order_ids scope.caseScope) (.contract .forbidden "case not found")
  require (order_id = scope.order_id)
    (.contract .conflict "investigation order binding changed")

/-- The observation with this id, or of this source event. -/
def replayed (ledger : Ledger) (evidence : InvestigationEvidence) : Option ObservationRow :=
  ledger.observations.rows.find? fun r =>
    r.payload.tenant_id == evidence.tenant_id && r.payload.case_id == evidence.case_id &&
      (r.payload.evidence_id == evidence.evidence_id || r.payload.source_event == evidence.source_event)

/-- `InvestigationObservationRepository.put`. -/
def putObservation (ledger : Ledger) (evidence : InvestigationEvidence) (scope : InvestigationScope) :
    Result (Ledger × InvestigationEvidence) := do
  require (evidence.toInvestigationScope = scope)
    (.contract .forbidden "observation scope mismatch")
  lockCase ledger scope
  let (observations, inserted) ← statement "aftercare_investigation_observations" <|
    ledger.observations.insertOrIgnore ⟨evidence, none⟩
  if inserted then pure ({ ledger with observations := observations }, evidence)
  else do
    let row ← fetch (replayed ledger evidence)
      (.contract .retryable "observation replay outcome is unknown")
    require (row.payload = evidence) (.contract .conflict "observation replay conflicts")
    pure (ledger, row.payload)

/-- The observation is a new row, or it is there already. -/
structure Put (ledger : Ledger) (evidence : InvestigationEvidence) (ledger' : Ledger) : Prop where
  order_id : ledger.order_ids evidence.caseScope = some evidence.order_id
  frame : ledger' = { ledger with observations := ledger'.observations }
  rows : ledger'.observations.rows = ledger.observations.rows ++ [⟨evidence, none⟩] ∨
    ledger'.observations = ledger.observations ∧
      ∃ r ∈ ledger.observations.rows, r.payload = evidence

variable {scope : InvestigationScope} {ledger : Ledger}

theorem lockCase_eq_ok {u : Unit} :
    lockCase ledger scope = .ok u ↔ ledger.order_ids scope.caseScope = some scope.order_id := by
  simp only [lockCase, ok_iff, exists_eq_right]

variable {ledger' : Ledger} {evidence : InvestigationEvidence} {r : ObservationRow}
  {expected_message_id : Option Identifier}

theorem putObservation_eq_ok {accepted : InvestigationEvidence}
    (h : putObservation ledger evidence scope = .ok (ledger', accepted)) :
    accepted = evidence ∧ evidence.toInvestigationScope = scope ∧ Put ledger evidence ledger' := by
  simp only [putObservation, ok_iff, lockCase_eq_ok, statement_eq_ok, Prod.exists] at h
  obtain ⟨rfl, hlock, observations, inserted, hinsert, h⟩ := h
  obtain ⟨hinserted, hrows⟩ | ⟨hinserted, hrows⟩ := Table.insertOrIgnore_eq_ok hinsert
  · rw [hinserted, if_pos rfl, pure_eq_ok, Prod.mk.injEq] at h
    obtain ⟨-, -, happend⟩ := Table.insert_eq_ok hrows
    rw [← h.1, ← h.2]
    exact ⟨rfl, rfl, hlock, rfl, .inl happend⟩
  · rw [hinserted] at h
    simp only [Bool.false_eq_true, if_false, ok_iff] at h
    obtain ⟨row, hrow, hsame, hledger, haccepted⟩ := h
    rw [← haccepted, ← hledger]
    exact ⟨hsame, rfl, hlock, rfl, .inr ⟨rfl, row, List.mem_of_find?_eq_some hrow, hsame⟩⟩

theorem Put.mem (h : Put ledger evidence ledger') : ∃ r ∈ ledger'.observations.rows, r.payload = evidence := by
  obtain hrows | ⟨hsame, r, hr, hpayload⟩ := h.rows
  · exact ⟨⟨evidence, none⟩, by rw [hrows]; simp, rfl⟩
  · exact ⟨r, hsame ▸ hr, hpayload⟩

theorem Put.mem_rows (h : Put ledger evidence ledger') (hr : r ∈ ledger'.observations.rows) :
    r ∈ ledger.observations.rows ∨ r.payload = evidence := by
  obtain hrows | ⟨hsame, -⟩ := h.rows
  · rw [hrows, List.mem_append, List.mem_singleton] at hr
    exact hr.imp_right fun heq => by rw [heq]
  · exact .inl (hsame ▸ hr)

theorem Put.keeps (h : Put ledger evidence ledger') (hr : r ∈ ledger.observations.rows) :
    r ∈ ledger'.observations.rows := by
  obtain hrows | ⟨hsame, -⟩ := h.rows
  · rw [hrows]
    exact List.mem_append_left _ hr
  · rw [hsame]
    exact hr

/-- The evidence has the id and the source event of a row. -/
structure SameEvent (r : ObservationRow) (evidence : InvestigationEvidence) : Prop where
  tenant_id : r.payload.tenant_id = evidence.tenant_id
  case_id : r.payload.case_id = evidence.case_id
  evidence_id : r.payload.evidence_id = evidence.evidence_id
  source_event : r.payload.source_event = evidence.source_event

theorem replayed_of_sameEvent (hr : r ∈ ledger.observations.rows) (hsame : SameEvent r evidence) :
    replayed ledger evidence = some r := by
  cases hfind : replayed ledger evidence with
  | none =>
    have hnone := List.find?_eq_none.mp hfind r hr
    simp [hsame.tenant_id, hsame.case_id, hsame.evidence_id] at hnone
  | some a =>
    have ha : a ∈ ledger.observations.rows := List.mem_of_find?_eq_some hfind
    have hmatch := List.find?_some hfind
    simp only [Bool.and_eq_true, Bool.or_eq_true, beq_iff_eq] at hmatch
    obtain ⟨⟨htenant, hcase⟩, hid⟩ := hmatch
    -- another row would share either the primary key or the source event with this one
    by_contra hne
    have hapart := ledger.observations.apart.forall ha hr fun heq => hne (by rw [heq])
    obtain hid | hevent := hid
    · refine hapart.1 ?_
      simp only [observationSchema_key, htenant, hcase, hid, hsame.tenant_id, hsame.case_id, hsame.evidence_id]
    · have hclash := hapart.2.1
      simp [htenant, hcase, hevent, hsame.tenant_id, hsame.case_id, hsame.source_event] at hclash

theorem putObservation_replay (hr : r ∈ ledger.observations.rows) (hsame : SameEvent r evidence)
    (hrevoked : evidence.revoked_at = none)
    (hlock : ledger.order_ids evidence.caseScope = some evidence.order_id) :
    putObservation ledger evidence evidence.toInvestigationScope =
      if r.payload = evidence then .ok (ledger, r.payload)
      else .error (.contract .conflict "observation replay conflicts") := by
  have hignored : ledger.observations.insertOrIgnore ⟨evidence, none⟩ = .ok (ledger.observations, false) := by
    refine Table.insertOrIgnore_ignored.mpr ⟨by simp [hrevoked], r, hr, fun hapart => hapart.1 ?_⟩
    simp only [observationSchema_key, hsame.tenant_id, hsame.case_id, hsame.evidence_id]
  have hlocked := lockCase_eq_ok (u := ()).mpr hlock
  simp only [putObservation, require, if_true, ok_bind, hlocked, hignored, statement,
    Bool.false_eq_true, if_false, fetch, replayed_of_sameEvent hr hsame]
  split_ifs
  · rfl
  · rfl

/-- `{**existing, "revoked_at": revoked_at}`, validated. -/
def withRevokedAt (evidence : InvestigationEvidence) (revoked_at : Time) : Result InvestigationEvidence :=
  if h : evidence.received_at ≤ revoked_at then
    pure { evidence with
      revoked_at := some revoked_at
      chronological := ⟨evidence.chronological.1, by simpa using h⟩ }
  else .error (.contract .evidenceRejected "observation revocation timestamp is invalid")

/-- `InvestigationObservationRepository.revoke`. -/
def revokeObservation (ledger : Ledger) (scope : InvestigationScope) (evidence_id : Identifier)
    (revoked_at : Time) (reason : String) : Result (Ledger × InvestigationEvidence) := do
  require (strip reason ≠ [] ∧ reason.length ≤ 4000)
    (.contract .invalidInput "invalid revocation reason")
  lockCase ledger scope
  let row ← fetch ((ledger.observations.get (scope.tenant_id, scope.case_id, evidence_id)).filter
      fun r => r.payload.order_id = scope.order_id)
    (.contract .forbidden "observation not found")
  require (row.payload.revoked_at = none ∨
      row.payload.revoked_at = some revoked_at ∧ row.revocation_reason = some reason)
    (.contract .conflict "observation revocation conflicts")
  let updated ← withRevokedAt row.payload revoked_at
  let observations ← statement "aftercare_investigation_observations" <|
    ledger.observations.update (scope.tenant_id, scope.case_id, evidence_id) fun _ =>
      ⟨updated, some reason⟩
  pure ({ ledger with observations := observations }, updated)

/-! ## Bindings -/

/-- `InvestigationEgmBindingRepository.get`. -/
def getBinding (ledger : Ledger) (scope : InvestigationScope) : Result (Option InvestigationEgmBinding) :=
  match ledger.bindings.get (scope.tenant_id, scope.case_id) with
  | none => pure none
  | some binding => do
    require (binding.order_id = scope.order_id)
      (.contract .conflict "EGM node binding order conflicts")
    pure (some binding)

/-- `InvestigationEgmBindingRepository.put`. -/
def putBinding (ledger : Ledger) (binding : InvestigationEgmBinding) :
    Result (Ledger × InvestigationEgmBinding) := do
  foreignKey "aftercare_investigation_egm_bindings case" (ledger.order_ids binding.caseScope)
  let bindings ← statement "aftercare_investigation_egm_bindings" <|
    ledger.bindings.insertIfAbsent binding
  let written := { ledger with bindings := bindings }
  let existing ← getBinding written binding.toInvestigationScope
  let existing ← fetch existing (.contract .retryable "EGM binding write outcome is unknown")
  require (existing = binding) (.contract .conflict "EGM node binding conflicts")
  pure (written, existing)

/-! ## Projections -/

/-- `InvestigationEgmProjectionRepository.get`. -/
def getProjection (ledger : Ledger) (scope : InvestigationScope) (evidence_id : Identifier) :
    Result (Option InvestigationEgmProjection) :=
  match ledger.projections.get (scope.tenant_id, scope.case_id, evidence_id) with
  | none => pure none
  | some projection => do
    require (projection.order_id = scope.order_id)
      (.contract .conflict "EGM projection order conflicts")
    pure (some projection)

/-- `InvestigationEgmProjectionRepository.reserve`. -/
def reserveProjection (ledger : Ledger) (scope : InvestigationScope) (evidence_id : Identifier)
    (operation_id : String) (expected_revision : ℤ) : Result (Ledger × InvestigationEgmProjection) := do
  require (operation_id ≠ "") (.contract .invalidInput "invalid EGM projection reservation")
  require (0 ≤ expected_revision) (.contract .invalidInput "invalid EGM projection revision")
  foreignKey "aftercare_investigation_egm_projections observation"
    (ledger.observations.get (scope.tenant_id, scope.case_id, evidence_id))
  let projections ← statement "aftercare_investigation_egm_projections" <|
    ledger.projections.insertIfAbsent
      { scope with
        evidence_id := evidence_id, operation_id := operation_id
        expected_revision := expected_revision, completed_revision := none, egm_evidence_id := none }
  let written := { ledger with projections := projections }
  let projection ← getProjection written scope evidence_id
  let projection ← fetch projection (.contract .retryable "EGM projection reservation is unknown")
  require (projection.operation_id = operation_id)
    (.contract .conflict "EGM projection operation conflicts")
  pure (written, projection)

/-- A projection that is not completed, of this command. -/
def InvestigationEgmProjection.pending (projection : InvestigationEgmProjection)
    (scope : InvestigationScope) (operation_id : String) (expected_revision : ℤ) : Bool :=
  projection.order_id == scope.order_id && projection.operation_id == operation_id &&
    projection.expected_revision == expected_revision && projection.completed_revision.isNone

/-- `UPDATE` of a pending projection. -/
def updateProjection (ledger : Ledger) (scope : InvestigationScope) (evidence_id : Identifier)
    (operation_id : String) (expected_revision : ℤ)
    (change : InvestigationEgmProjection → InvestigationEgmProjection) : Result Ledger := do
  let projections ← statement "aftercare_investigation_egm_projections" <|
    ledger.projections.update (scope.tenant_id, scope.case_id, evidence_id) fun projection =>
      if projection.pending scope operation_id expected_revision then change projection else projection
  pure { ledger with projections := projections }

/-- `InvestigationEgmProjectionRepository.rebase`. -/
def rebaseProjection (ledger : Ledger) (scope : InvestigationScope) (evidence_id : Identifier)
    (operation_id : String) (previous_revision expected_revision : ℤ) :
    Result (Ledger × InvestigationEgmProjection) := do
  require (expected_revision ≠ previous_revision)
    (.contract .conflict "EGM projection revision did not advance")
  let written ← updateProjection ledger scope evidence_id operation_id previous_revision fun p =>
    { p with expected_revision := expected_revision }
  let projection ← getProjection written scope evidence_id
  let projection ← fetch projection (.contract .retryable "EGM projection rebase is unknown")
  require (projection.completed_revision ≠ none ∨
      projection.operation_id = operation_id ∧ projection.expected_revision = expected_revision)
    (.contract .conflict "EGM projection rebased elsewhere")
  pure (written, projection)

/-- `InvestigationEgmProjectionRepository.complete`. -/
def completeProjection (ledger : Ledger) (scope : InvestigationScope) (evidence_id : Identifier)
    (operation_id : String) (expected_revision completed_revision : ℤ) (egm_evidence_id : String) :
    Result (Ledger × InvestigationEgmProjection) := do
  require (expected_revision < completed_revision ∧ egm_evidence_id ≠ "")
    (.contract .conflict "invalid EGM projection result")
  let written ← updateProjection ledger scope evidence_id operation_id expected_revision fun p =>
    { p with completed_revision := some completed_revision, egm_evidence_id := some egm_evidence_id }
  let projection ← getProjection written scope evidence_id
  let projection ← fetch projection (.contract .retryable "EGM projection completion is unknown")
  require (projection.operation_id = operation_id ∧ projection.expected_revision = expected_revision ∧
      projection.completed_revision = some completed_revision ∧
      projection.egm_evidence_id = some egm_evidence_id)
    (.contract .conflict "EGM projection completion conflicts")
  pure (written, projection)

/-! ## Revocations -/

/-- `InvestigationEgmRevocationRepository.get`. -/
def getRevocation (ledger : Ledger) (scope : InvestigationScope) (evidence_id : Identifier) :
    Result (Option InvestigationEgmRevocation) :=
  match ledger.revocations.get (scope.tenant_id, scope.case_id, evidence_id) with
  | none => pure none
  | some revocation => do
    require (revocation.order_id = scope.order_id)
      (.contract .conflict "EGM revocation order conflicts")
    pure (some revocation)

/-- `InvestigationEgmRevocationRepository.reserve`. -/
def reserveRevocation (ledger : Ledger) (scope : InvestigationScope) (evidence_id : Identifier)
    (egm_evidence_id operation_id reason : String) (revoked_at : Time) (expected_revision : ℤ) :
    Result (Ledger × InvestigationEgmRevocation) := do
  require (egm_evidence_id ≠ "" ∧ operation_id ≠ "" ∧ strip reason ≠ [] ∧ reason.length ≤ 4000 ∧
      0 ≤ expected_revision)
    (.contract .invalidInput "invalid EGM revocation reservation")
  foreignKey "aftercare_investigation_egm_revocations projection"
    (ledger.projections.get (scope.tenant_id, scope.case_id, evidence_id))
  let revocations ← statement "aftercare_investigation_egm_revocations" <|
    ledger.revocations.insertIfAbsent
      { scope with
        evidence_id := evidence_id, egm_evidence_id := egm_evidence_id, operation_id := operation_id
        reason := reason, revoked_at := revoked_at, expected_revision := expected_revision
        completed_revision := none, egm_revoked_at := none }
  let written := { ledger with revocations := revocations }
  let revocation ← getRevocation written scope evidence_id
  let revocation ← fetch revocation (.contract .retryable "EGM revocation reservation is unknown")
  require (revocation.egm_evidence_id = egm_evidence_id ∧ revocation.operation_id = operation_id ∧
      revocation.reason = reason ∧ revocation.revoked_at = revoked_at)
    (.contract .conflict "EGM revocation reservation conflicts")
  pure (written, revocation)

/-- `UPDATE` of a revocation that is not completed. -/
def updateRevocation (ledger : Ledger) (scope : InvestigationScope) (evidence_id : Identifier)
    (operation_id : String) (expected_revision : ℤ)
    (change : InvestigationEgmRevocation → InvestigationEgmRevocation) : Result Ledger := do
  let revocations ← statement "aftercare_investigation_egm_revocations" <|
    ledger.revocations.update (scope.tenant_id, scope.case_id, evidence_id) fun revocation =>
      if revocation.order_id = scope.order_id ∧ revocation.operation_id = operation_id ∧
          revocation.expected_revision = expected_revision ∧ revocation.completed_revision = none then
        change revocation
      else revocation
  pure { ledger with revocations := revocations }

/-- `InvestigationEgmRevocationRepository.rebase`. -/
def rebaseRevocation (ledger : Ledger) (scope : InvestigationScope) (evidence_id : Identifier)
    (operation_id : String) (previous_revision expected_revision : ℤ) :
    Result (Ledger × InvestigationEgmRevocation) := do
  require (expected_revision ≠ previous_revision)
    (.contract .conflict "EGM revocation revision did not advance")
  let written ← updateRevocation ledger scope evidence_id operation_id previous_revision fun r =>
    { r with expected_revision := expected_revision }
  let revocation ← getRevocation written scope evidence_id
  let revocation ← fetch revocation (.contract .retryable "EGM revocation rebase is unknown")
  require (revocation.completed_revision ≠ none ∨
      revocation.operation_id = operation_id ∧ revocation.expected_revision = expected_revision)
    (.contract .conflict "EGM revocation rebased elsewhere")
  pure (written, revocation)

/-- `InvestigationEgmRevocationRepository.complete`. -/
def completeRevocation (ledger : Ledger) (scope : InvestigationScope) (evidence_id : Identifier)
    (operation_id : String) (expected_revision completed_revision : ℤ) (egm_revoked_at : Time) :
    Result (Ledger × InvestigationEgmRevocation) := do
  require (expected_revision < completed_revision)
    (.contract .conflict "invalid EGM revocation result")
  let written ← updateRevocation ledger scope evidence_id operation_id expected_revision fun r =>
    { r with completed_revision := some completed_revision, egm_revoked_at := some egm_revoked_at }
  let revocation ← getRevocation written scope evidence_id
  let revocation ← fetch revocation (.contract .retryable "EGM revocation completion is unknown")
  require (revocation.operation_id = operation_id ∧ revocation.expected_revision = expected_revision ∧
      revocation.completed_revision = some completed_revision ∧
      revocation.egm_revoked_at = some egm_revoked_at)
    (.contract .conflict "EGM revocation completion conflicts")
  pure (written, revocation)

/-! ## The position in the buyer history -/

/-- `BuyerHistoryCursorRepository.get`. -/
def getCursor (ledger : Ledger) (scope : InvestigationScope) (source_id : Identifier) :
    Result (Option BuyerHistoryCursor) :=
  match ledger.cursors.get (scope.tenant_id, scope.case_id, source_id) with
  | none => pure none
  | some cursor => do
    require (cursor.order_id = scope.order_id)
      (.contract .conflict "buyer history cursor order conflicts")
    pure (some cursor)

/-- An insertion, or an update of the position that was read. -/
def moveCursor (ledger : Ledger) (scope : InvestigationScope) (source_id : Identifier)
    (expected_message_id : Option Identifier) (next_message_id : Identifier) :
    Except Violation (Table cursorSchema) :=
  match expected_message_id with
  | none => ledger.cursors.insertIfAbsent
      { scope with source_id := source_id, message_id := next_message_id }
  | some expected_message_id =>
    ledger.cursors.update (scope.tenant_id, scope.case_id, source_id) fun cursor =>
      if cursor.order_id = scope.order_id ∧ cursor.message_id = expected_message_id then
        { cursor with message_id := next_message_id }
      else cursor

/-- `BuyerHistoryCursorRepository.advance`. -/
def advanceCursor (ledger : Ledger) (scope : InvestigationScope) (source_id : Identifier)
    (expected_message_id : Option Identifier) (next_message_id : Identifier) :
    Result (Ledger × BuyerHistoryCursor) := do
  require (some next_message_id ≠ expected_message_id)
    (.contract .invalidInput "buyer history cursor cannot advance")
  foreignKey "aftercare_investigation_buyer_cursors case" (ledger.order_ids scope.caseScope)
  let cursors ← statement "aftercare_investigation_buyer_cursors" <|
    moveCursor ledger scope source_id expected_message_id next_message_id
  let written := { ledger with cursors := cursors }
  let current ← getCursor written scope source_id
  let current ← fetch current (.contract .retryable "buyer history cursor outcome is unknown")
  require (current.message_id = next_message_id)
    (.contract .conflict "buyer history cursor advanced elsewhere")
  pure (written, current)

theorem getCursor_eq_ok {source_id : Identifier} {current : Option BuyerHistoryCursor}
    (h : getCursor ledger scope source_id = .ok current) :
    ledger.cursors.get (scope.tenant_id, scope.case_id, source_id) = current := by
  unfold getCursor at h
  split at h
  · next hnone => rw [hnone, ← pure_eq_ok.mp h]
  · next cursor hsome =>
    simp only [ok_iff] at h
    rw [hsome, h.2]

theorem advanceCursor_eq_ok {source_id next_message_id : Identifier} {cursor : BuyerHistoryCursor}
    (h : advanceCursor ledger scope source_id expected_message_id next_message_id = .ok (ledger', cursor)) :
    ledger' = { ledger with cursors := ledger'.cursors } ∧
      (ledger'.cursors.get (scope.tenant_id, scope.case_id, source_id)).map
        BuyerHistoryCursor.message_id = some next_message_id := by
  simp only [advanceCursor, ok_iff] at h
  obtain ⟨-, -, cursors, -, found, hfound, current, rfl, hnext, rfl, -⟩ := h
  refine ⟨rfl, ?_⟩
  rw [getCursor_eq_ok hfound, Option.map_some, hnext]

end Aftercare.Investigation
