import Aftercare.Persistence.Approvals

/-!
# The action repository

The methods of `ActionRepository`. An action is reserved, then requested from its provider, and then
its outcome is recorded. An action that needs an approval is requested only under one that passes
`lockForDispatch` at that moment.

`ActionStep` is what one transaction does to the actions.
-/

namespace Aftercare

open Relational

variable {db db' : Database} {clk : Clock Time} {intent : ActionIntent}
  {a result current : ActionRecord} {action_id : Identifier} {stop : Time} {state : ActionState}
  {approval_id policy_version : Option Identifier}

/-! ## Reservation -/

/-- The row that a reservation inserts. -/
def ActionIntent.row (intent : ActionIntent) (clk : Clock Time) : ActionRecord :=
  { intent with
    state := .reserved, provider_reference := none, result_sha256 := none, failure_code := none
    fencing_token := none, created_at := clk.read 0, updated_at := clk.read 1 }

/-- `_assert_claim_scope`, and then `_claim_valid`. -/
def requireClaim (db : Database) (clk : Clock Time) (intent : ActionIntent)
    (claim : Option ExecutionClaim) : Result Unit :=
  match claim with
  | none => pure ()
  | some claim => do
    require (intent.toCaseScope = claim.toCaseScope)
      (.contract .forbidden "action scope does not match claim")
    claimValid db claim (clk.read 0)

def sameParameters (current : ActionRecord) (intent : ActionIntent) : Bool :=
  current.order_id == intent.order_id && current.action_type == intent.action_type &&
    current.business_key == intent.business_key &&
    current.parameters_sha256 == intent.parameters_sha256 &&
    current.amount_minor == intent.amount_minor && current.currency == intent.currency &&
    current.provider_idempotency_key == intent.provider_idempotency_key &&
    current.approval_required == intent.approval_required

/-- The end of a reservation whose insertion met a conflict. -/
def reserveConflict (db : Database) (intent : ActionIntent) : Result ActionRecord := do
  let rows := db.actions.select fun a => a.tenant_id == intent.tenant_id &&
    (a.action_id == intent.action_id || a.business_key == intent.business_key ||
      a.idempotency_key == intent.idempotency_key)
  require (rows ≠ []) (.contract .retryable "action reservation outcome is unknown")
  match rows.find? fun a => a.idempotency_key == intent.idempotency_key with
  | some current => do
    require (current.action_id = intent.action_id ∧ sameParameters current intent = true)
      (.contract .conflict "action idempotency key reused with different input")
    pure current
  | none => do
    require (rows.all (fun a => a.action_id != intent.action_id || sameParameters a intent) = true)
      (.contract .conflict "action id reused with different input")
    let current ← fetch (rows.find? fun a => a.business_key == intent.business_key)
      (.contract .conflict "action identity conflicts")
    require (sameParameters current intent = true)
      (.contract .conflict "business key reused with different input")
    pure current

def reserve (db : Database) (clk : Clock Time) (intent : ActionIntent)
    (claim : Option ExecutionClaim) : Result (Database × ActionRecord × Bool) := do
  requireClaim db clk intent claim
  let (actions, inserted) ← statement "aftercare_actions" <|
    db.actions.insertOrIgnore (intent.row (clk.drop 1))
  if inserted then do
    foreignKey "aftercare_actions case" (db.cases.get intent.toCaseScope)
    pure ({ db with actions := actions }, intent.row (clk.drop 1), false)
  else do
    let current ← reserveConflict db intent
    pure (db, current, true)

/-! ## Moves -/

/-- `ActionRepository._locked`, with the check of the claim's case. -/
def lockedAction (db : Database) (claim : ExecutionClaim) (action_id : Identifier) : Result ActionRecord := do
  let current ← fetch (db.actions.get (claim.tenant_id, action_id))
    (.contract .forbidden "action not found")
  require (current.case_id = claim.case_id)
    (.contract .forbidden "action scope does not match claim")
  pure current

/-- What `_update_state` records next to the new state. -/
structure ActionOutcome where
  provider_reference : Option Identifier
  result_sha256 : Option Sha256
  failure_code : Option Identifier
deriving DecidableEq, Repr

def ActionRecord.outcome (a : ActionRecord) : ActionOutcome :=
  ⟨a.provider_reference, a.result_sha256, a.failure_code⟩

/-- The update that `_update_state` makes. -/
def ActionRecord.moved (state : ActionState) (token : PositiveInt) (outcome : ActionOutcome)
    (updated_at : Time) (a : ActionRecord) : ActionRecord :=
  { a with
    state := state, provider_reference := outcome.provider_reference
    result_sha256 := outcome.result_sha256, failure_code := outcome.failure_code
    fencing_token := some token, updated_at := updated_at }

def updateState (db : Database) (clk : Clock Time) (current : ActionRecord) (state : ActionState)
    (claim : ExecutionClaim) (outcome : ActionOutcome) : Result (Database × ActionRecord) := do
  let move := ActionRecord.moved state claim.fencing_token outcome (clk.read 0)
  let actions ← statement "aftercare_actions" <|
    db.actions.update (current.tenant_id, current.action_id) move
  pure ({ db with actions := actions }, move current)

/-- Only an action that needs an approval names one, which passes the check. -/
def requireApproval (db : Database) (clk : Clock Time) (current : ActionRecord)
    (approval_id policy_version : Option Identifier) : Result Unit :=
  if current.approval_required then do
    let approval_id ← fetch approval_id (.contract .forbidden "action approval is required")
    let policy_version ← fetch policy_version (.contract .invalidInput "approval policy is required")
    let _ ← lockForDispatch db clk current approval_id policy_version
    pure ()
  else require (approval_id = none) (.contract .invalidInput "approval supplied for exempt action")

def markRequested (db : Database) (clk : Clock Time) (action_id : Identifier) (claim : ExecutionClaim)
    (approval_id policy_version : Option Identifier) : Result (Database × ActionRecord) := do
  claimValid db claim (clk.read 0)
  let current ← lockedAction db claim action_id
  if current.state = .reserved then do
    requireApproval db (clk.drop 1) current approval_id policy_version
    updateState db (clk.drop 2) current .requested claim ⟨none, none, none⟩
  else pure (db, current)

/-- The checks of `mark_result` on the outcome that it is given. -/
def requireOutcome (state : ActionState) (outcome : ActionOutcome) : Result Unit := do
  require (state.isResult = true) (.contract .invalidInput "invalid action result state")
  require (state = .confirmed → outcome.provider_reference.isSome = true ∧ outcome.result_sha256.isSome = true)
    (.contract .invalidInput "confirmed result needs provider reference and digest")
  require (state = .failed → outcome.failure_code.isSome = true)
    (.contract .invalidInput "failed result needs failure code")
  require (state ≠ .confirmed → outcome.result_sha256 = none)
    (.contract .invalidInput "result digest is only valid for confirmation")

def markResult (db : Database) (clk : Clock Time) (action_id : Identifier) (claim : ExecutionClaim)
    (state : ActionState) (outcome : ActionOutcome) : Result (Database × ActionRecord) := do
  requireOutcome state outcome
  claimValid db claim (clk.read 0)
  let current ← lockedAction db claim action_id
  if current.state = state then do
    require (current.outcome = outcome) (.contract .conflict "action result replay changed")
    pure (db, current)
  else do
    require (state ∈ current.state.transitions)
      (.contract .conflict "illegal action state transition")
    updateState db (clk.drop 1) current state claim outcome

def markReceipt (db : Database) (clk : Clock Time) (receipt : ProviderReceipt)
    (claim : ExecutionClaim) : Result (Database × ActionRecord) := do
  claimValid db claim (clk.read 0)
  let current ← lockedAction db claim receipt.action_id
  validateProviderReceipt current receipt
  markResult db (clk.drop 1) receipt.action_id claim receipt.state
    ⟨receipt.provider_reference, receipt.result_sha256, receipt.failure_code⟩

/-! ## What the methods do -/

/-- An approval permits the request of an action at a time. -/
structure Permits (approval : ApprovalRecord) (action : ActionRecord) (t : Time) : Prop where
  scope : approval.toCaseScope = action.toCaseScope
  same_action : approval.action_id = action.action_id
  parameters : approval.action_parameters_sha256 = action.parameters_sha256
  approved : approval.decision = .approved
  current : t < approval.expires_at

/-- What one transaction does to the actions at the time `t`. -/
inductive ActionStep (t : Time) (db : Database) : Table actionSchema → Prop
  /-- An action is reserved. -/
  | reserve {actions : Table actionSchema} (action : ActionRecord)
      (hstate : action.state = .reserved) (h : db.actions.insert action = .ok actions) :
      ActionStep t db actions
  /-- An action moves as its transitions allow, under its approval. -/
  | move {actions : Table actionSchema} {action : ActionRecord} {state : ActionState}
      {token : PositiveInt} {outcome : ActionOutcome} {updated_at : Time}
      (hget : db.actions.get (action.tenant_id, action.action_id) = some action)
      (htransition : state ∈ action.state.transitions)
      (hgate : state = .requested → action.approval_required = true →
        ∃ approval ∈ db.approvals.rows, Permits approval action t)
      (h : db.actions.update (action.tenant_id, action.action_id)
        (ActionRecord.moved state token outcome updated_at) = .ok actions) :
      ActionStep t db actions

/-- Nothing, or one step of the ledger at a time of the clock. -/
def Acts (start stop : Time) (db db' : Database) : Prop :=
  db' = db ∨ ∃ t actions, (start ≤ t ∧ t ≤ stop) ∧ ActionStep t db actions ∧
    db' = { db with actions := actions }

/-- The new row of the intent, or the action that it clashed with. -/
inductive Reservation (db : Database) (clk : Clock Time) (intent : ActionIntent) :
    Database → ActionRecord → Prop
  | inserted {actions : Table actionSchema}
      (h : db.actions.insert (intent.row (clk.drop 1)) = .ok actions) :
      Reservation db clk intent { db with actions := actions } (intent.row (clk.drop 1))
  | found {a : ActionRecord}
      (hignored : db.actions.insertOrIgnore (intent.row (clk.drop 1)) = .ok (db.actions, false))
      (h : reserveConflict db intent = .ok a) : Reservation db clk intent db a

variable {claim : Option ExecutionClaim} {replayed : Bool}

theorem reserve_cases (h : reserve db clk intent claim = .ok (db', a, replayed)) : Reservation db clk intent db' a := by
  simp only [reserve, ok_iff, statement_eq_ok] at h
  obtain ⟨-, ⟨actions, inserted⟩, hinsert, h⟩ := h
  rcases Table.insertOrIgnore_eq_ok hinsert with ⟨rfl, hnew⟩ | ⟨rfl, rfl⟩
  · simp only [if_true, ok_iff] at h
    obtain ⟨-, rfl, rfl, -⟩ := h
    exact .inserted hnew
  · simp only [Bool.false_eq_true, if_false, ok_iff] at h
    obtain ⟨current, hconflict, rfl, rfl, -⟩ := h
    exact .found hinsert hconflict

theorem reserve_of_found (hclaim : requireClaim db clk intent claim = .ok ())
    (hignored : db.actions.insertOrIgnore (intent.row (clk.drop 1)) = .ok (db.actions, false))
    (hconflict : reserveConflict db intent = .ok a) : reserve db clk intent claim = .ok (db, a, true) := by
  simp only [reserve, ok_iff, statement_eq_ok]
  refine ⟨hclaim, _, hignored, ?_⟩
  simp only [Bool.false_eq_true, if_false, ok_iff]
  exact ⟨a, hconflict, trivial, rfl, trivial⟩

theorem reserve_acts (h : reserve db clk intent claim = .ok (db', result, replayed)) :
    Acts (clk.read 0) clk.stop db db' := by
  cases reserve_cases h with
  | inserted hnew =>
    exact .inr ⟨clk.read 0, _, ⟨le_rfl, clk.start_le_stop⟩, .reserve _ rfl hnew, rfl⟩
  | found => exact .inl rfl

/-! ### What a reservation returns -/

/-- The obligation that an intent asks for, under whichever ids. -/
structure ActionRecord.StandsFor (a : ActionRecord) (intent : ActionIntent) : Prop where
  tenant_id : a.tenant_id = intent.tenant_id
  order_id : a.order_id = intent.order_id
  action_type : a.action_type = intent.action_type
  business_key : a.business_key = intent.business_key
  parameters_sha256 : a.parameters_sha256 = intent.parameters_sha256
  amount_minor : a.amount_minor = intent.amount_minor
  currency : a.currency = intent.currency
  provider_idempotency_key : a.provider_idempotency_key = intent.provider_idempotency_key
  approval_required : a.approval_required = intent.approval_required

theorem sameParameters_iff (htenant : a.tenant_id = intent.tenant_id) :
    sameParameters a intent = true ↔ a.StandsFor intent := by
  simp only [sameParameters, Bool.and_eq_true, beq_iff_eq]
  constructor
  · rintro ⟨⟨⟨⟨⟨⟨⟨horder, htype⟩, hbusiness⟩, hdigest⟩, hamount⟩, hcurrency⟩, hprovider⟩, happroval⟩
    exact ⟨htenant, horder, htype, hbusiness, hdigest, hamount, hcurrency, hprovider, happroval⟩
  · intro h
    exact ⟨⟨⟨⟨⟨⟨⟨h.order_id, h.action_type⟩, h.business_key⟩, h.parameters_sha256⟩, h.amount_minor⟩,
      h.currency⟩, h.provider_idempotency_key⟩, h.approval_required⟩

theorem reserveConflict_eq_ok (h : reserveConflict db intent = .ok a) : a ∈ db.actions.rows ∧ a.StandsFor intent := by
  simp only [reserveConflict, ok_iff] at h
  obtain ⟨-, h⟩ := h
  -- Whichever of the keys led to the action, it is one of the rows that were selected.
  have hselected : ∀ b, b ∈ db.actions.select (fun a => a.tenant_id == intent.tenant_id &&
      (a.action_id == intent.action_id || a.business_key == intent.business_key ||
        a.idempotency_key == intent.idempotency_key)) →
      b ∈ db.actions.rows ∧ b.tenant_id = intent.tenant_id := by
    intro b hb
    simp only [Table.select, List.mem_filter, Bool.and_eq_true, beq_iff_eq] at hb
    exact ⟨hb.1, hb.2.1⟩
  split at h
  · rename_i current hfind
    simp only [ok_iff] at h
    obtain ⟨⟨-, hsame⟩, rfl⟩ := h
    obtain ⟨hmem, htenant⟩ := hselected current (List.mem_of_find?_eq_some hfind)
    exact ⟨hmem, (sameParameters_iff htenant).mp hsame⟩
  · simp only [ok_iff] at h
    obtain ⟨-, current, hfind, hsame, rfl⟩ := h
    obtain ⟨hmem, htenant⟩ := hselected current (List.mem_of_find?_eq_some hfind)
    exact ⟨hmem, (sameParameters_iff htenant).mp hsame⟩

theorem reserveConflict_of_ids (ha : a ∈ db.actions.rows) (hstands : a.StandsFor intent)
    (hid : a.action_id = intent.action_id) (hkey : a.idempotency_key = intent.idempotency_key) :
    reserveConflict db intent = .ok a := by
  have hsame : sameParameters a intent = true := (sameParameters_iff hstands.tenant_id).mpr hstands
  have hselected : a ∈ db.actions.select (fun b => b.tenant_id == intent.tenant_id &&
      (b.action_id == intent.action_id || b.business_key == intent.business_key ||
        b.idempotency_key == intent.idempotency_key)) := by
    simp [Table.select, ha, hstands.tenant_id, hid]
  -- No other action of the tenant has its idempotency key, so the first loop stops at this one.
  have hfind : (db.actions.select (fun b => b.tenant_id == intent.tenant_id &&
      (b.action_id == intent.action_id || b.business_key == intent.business_key ||
        b.idempotency_key == intent.idempotency_key))).find?
        (fun b => b.idempotency_key == intent.idempotency_key) = some a := by
    cases hfound : List.find? (fun b => b.idempotency_key == intent.idempotency_key)
        (db.actions.select _) with
    | none => simpa [hkey] using List.find?_eq_none.mp hfound a hselected
    | some b =>
      have hb := List.mem_of_find?_eq_some hfound
      have hbkey : b.idempotency_key = intent.idempotency_key := by simpa using List.find?_some hfound
      simp only [Table.select, List.mem_filter, Bool.and_eq_true, beq_iff_eq] at hb
      by_contra hne
      have hapart := (db.actions.apart.forall hb.1 ha fun heq => hne (by rw [heq])).2.1
      simp [hb.2.1, hbkey, hstands.tenant_id, hkey] at hapart
  simp only [reserveConflict, ok_iff]
  refine ⟨List.ne_nil_of_mem hselected, ?_⟩
  rw [hfind]
  simp only [ok_iff]
  exact ⟨⟨hid, hsame⟩, trivial⟩

theorem reserve_standsFor (h : reserve db clk intent claim = .ok (db', a, replayed)) :
    a ∈ db'.actions.rows ∧ a.StandsFor intent := by
  cases reserve_cases h with
  | inserted hnew => exact ⟨(Table.mem_insert hnew).mpr (.inr rfl), rfl, rfl, rfl, rfl, rfl, rfl, rfl, rfl, rfl⟩
  | found hignored hconflict => exact reserveConflict_eq_ok hconflict

theorem reserve_again {clk' : Clock Time} (h : reserve db clk intent claim = .ok (db', a, replayed))
    (hclaim : requireClaim db' clk' intent claim = .ok ()) :
    reserve db' clk' intent claim = .ok (db', a, true) := by
  obtain ⟨hmem, hstands⟩ := reserve_standsFor h
  cases reserve_cases h with
  | inserted hnew =>
    -- The stored row has the key of the new one.
    exact reserve_of_found hclaim (Table.insertOrIgnore_ignored.mpr
        ⟨(Table.insert_eq_ok hnew).1, _, hmem, fun hapart => hapart.1 rfl⟩)
      (reserveConflict_of_ids hmem hstands rfl rfl)
  | found hignored hconflict =>
    -- Rows clash by their keys, and the times of a row are none of them.
    obtain ⟨hcheck, b, hb, hclash⟩ := Table.insertOrIgnore_ignored.mp hignored
    exact reserve_of_found hclaim (Table.insertOrIgnore_ignored.mpr ⟨hcheck, b, hb, hclash⟩) hconflict

/-! ### Moves -/

theorem lockedAction_eq_ok {claim : ExecutionClaim} {action : ActionRecord}
    (h : lockedAction db claim action_id = .ok action) :
    db.actions.get (action.tenant_id, action.action_id) = some action := by
  simp only [lockedAction, ok_iff] at h
  obtain ⟨row, hrow, -, rfl⟩ := h
  exact Table.get_of_mem (Table.mem_of_get hrow)

theorem updateState_acts {start t : Time} {claim : ExecutionClaim} {outcome : ActionOutcome}
    (ht : start ≤ t ∧ t ≤ stop) (hget : db.actions.get (current.tenant_id, current.action_id) = some current)
    (htransition : state ∈ current.state.transitions)
    (hgate : state = .requested → current.approval_required = true →
      ∃ approval ∈ db.approvals.rows, Permits approval current t)
    (h : updateState db clk current state claim outcome = .ok (db', result)) :
    Acts start stop db db' := by
  simp only [updateState, statement_eq_ok, ok_iff] at h
  obtain ⟨actions, hupdate, rfl, -⟩ := h
  exact .inr ⟨t, actions, ht, .move hget htransition hgate hupdate, rfl⟩

theorem requireApproval_eq_ok (h : requireApproval db clk current approval_id policy_version = .ok ())
    (hrequired : current.approval_required = true) :
    ∃ approval ∈ db.approvals.rows, Permits approval current (clk.read 0) := by
  simp only [requireApproval, hrequired, if_true, ok_iff] at h
  obtain ⟨id, -, policy, -, approval, hdispatch, -⟩ := h
  obtain ⟨hget, hscope, haction, hdigest, happroved, hexpiry⟩ := lockForDispatch_eq_ok hdispatch
  exact ⟨approval, Table.mem_of_get hget, hscope, haction, hdigest, happroved, hexpiry⟩

theorem markRequested_acts {claim : ExecutionClaim}
    (h : markRequested db clk action_id claim approval_id policy_version = .ok (db', result)) :
    Acts (clk.read 0) clk.stop db db' := by
  simp only [markRequested, ok_iff] at h
  obtain ⟨-, current, hlocked, h⟩ := h
  split_ifs at h with hreserved
  · simp only [ok_iff] at h
    obtain ⟨hgate, hupdate⟩ := h
    refine updateState_acts ⟨clk.start_le 1, clk.le_stop 1⟩ (lockedAction_eq_ok hlocked) ?_
      (fun _ => requireApproval_eq_ok hgate) hupdate
    rw [hreserved]
    decide
  · cases h
    exact .inl rfl

theorem markResult_acts {start : Time} {claim : ExecutionClaim} {outcome : ActionOutcome}
    (hclk : Within start stop clk) (h : markResult db clk action_id claim state outcome = .ok (db', result)) :
    Acts start stop db db' := by
  simp only [markResult, requireOutcome, ok_iff] at h
  obtain ⟨⟨hresult, -, -, -⟩, -, current, hlocked, h⟩ := h
  split_ifs at h with hsame
  · simp only [ok_iff] at h
    obtain ⟨-, rfl, -⟩ := h
    exact .inl rfl
  · simp only [ok_iff] at h
    refine updateState_acts ⟨hclk.start_le, hclk.stop_eq ▸ clk.le_stop 0⟩ (lockedAction_eq_ok hlocked) h.1 ?_ h.2
    -- `REQUESTED` is not a result, so this is not the step that the gate guards.
    intro hrequested
    rw [hrequested] at hresult
    cases hresult

theorem markReceipt_acts {receipt : ProviderReceipt} {claim : ExecutionClaim}
    (h : markReceipt db clk receipt claim = .ok (db', result)) : Acts (clk.read 0) clk.stop db db' := by
  simp only [markReceipt, ok_iff] at h
  obtain ⟨-, current, -, -, h⟩ := h
  exact markResult_acts ((Within.refl clk).drop 1) h

end Aftercare
