import Aftercare.System.Ledger
import Aftercare.System.Pipeline

/-!
# Settling expired approvals

`expire` names its decision and its event after the approval, and both names can be taken or too long.
`expired_settles_iff` is the exact condition under which an expired approval can be settled; the request of an
approval guarantees less (`expiry_blocked`).
-/

namespace Aftercare

open Relational

variable {store : EventStore} {row : OutboxRow} {snapshot : Snapshot} {event_id : String}
  {clk : Clock Time} {now stop : Time} {db db' : Database} {a : ApprovalRecord}

variable {gate : Gate}

/-! ## Appending a new event -/

theorem EventStore.Ordered.position_free (h : store.Ordered) (event : DomainEvent)
    (hseq : event.case_seq.val = (store.caseEvents event.toCaseScope).length + 1)
    (hrow : row ∈ store.outbox.rows) (hscope : row.payload.toCaseScope = event.toCaseScope) :
    row.payload.case_seq ≠ event.case_seq := by
  intro heq
  have hmem : row.payload ∈ store.caseEvents event.toCaseScope := by
    rw [← hscope, EventStore.mem_caseEvents]
    exact List.mem_map_of_mem hrow
  have hpos : row.payload.position = (store.caseEvents event.toCaseScope).length + 1 := by
    rw [← hseq, ← heq]
    rfl
  have hle := ((h.numbered event.toCaseScope).take_succ hmem hpos).2
  omega

/-- **A new event is appended**: its id and the reference to its snapshot are not taken, and the
counter of the case has room. -/
theorem appendEvent_total [Hashing] (h : store.Ordered) (clk : Clock Time)
    (draft : DomainEventDraft) (hdigest : Hashing.snapshotSha256 snapshot = draft.payload.sha256)
    (hid : store.outbox.get (draft.tenant_id, draft.event_id) = none)
    (hreference : store.payloads.get (draft.toCaseScope, draft.payload.reference_id) = none)
    (hroom : (store.caseEvents draft.toCaseScope).length < maxInt) :
    ∃ store' event, appendEvent store clk draft (some snapshot) = .ok (store', event, false) ∧
      event.toDomainEventDraft = draft ∧ OutboxRow.new event clk ∈ store'.outbox.rows ∧
      OutboxRow.new event clk ∉ store.outbox.rows := by
  obtain ⟨sequences, hlock, hrow⟩ := lockCaseSequence_total h hroom.le
  obtain ⟨payloads, kept, hpayloads, -⟩ := Table.insertOrIgnore_total (t := store.payloads)
    (r := ⟨draft.toCaseScope, draft.payload.reference_id, draft.payload.sha256, snapshot⟩) rfl
    fun _ => ⟨rfl, rfl⟩
  let case_seq : PositiveInt :=
    ⟨(store.caseEvents draft.toCaseScope).length + 1, Nat.le_add_left .., hroom⟩
  have hkey : outboxSchema.key (OutboxRow.new ⟨draft, case_seq⟩ clk) = (draft.tenant_id, draft.event_id) := rfl
  have happart : ∀ row ∈ store.outbox.rows, outboxSchema.Apart row (OutboxRow.new ⟨draft, case_seq⟩ clk) := by
    intro row hmem
    have hfree : row.payload.toCaseScope = draft.toCaseScope →
        row.payload.case_seq ≠ case_seq := h.position_free ⟨draft, case_seq⟩ rfl hmem
    refine ⟨fun heq => ?_, ?_, ?_⟩
    · rw [hkey] at heq
      rw [← heq, Table.get_of_mem hmem] at hid
      cases hid
    · simp only [outboxSchema_clash, OutboxRow.new, Bool.and_eq_false_imp, beq_iff_eq, beq_eq_false_iff_ne]
      exact hfree
    · simp only [outboxSchema_clash, OutboxRow.new, Bool.and_eq_false_imp, beq_iff_eq, beq_eq_false_iff_ne]
      exact fun hscope heq => hfree hscope.symm heq.symm
  obtain ⟨outbox, hinsert⟩ := Table.insert_of_apart (by rfl) happart
  obtain ⟨counted, hcounted⟩ := Table.update_total (t := sequences)
    (f := fun s => { s with last_case_seq := case_seq.val }) hrow (decide_eq_true case_seq.le) rfl
    fun _ => ⟨rfl, rfl⟩
  refine ⟨⟨outbox, counted, payloads⟩, ⟨draft, case_seq⟩, ?_, rfl,
    (Table.mem_insert hinsert).mpr (.inr rfl), fun hmem => (happart _ hmem).1 rfl⟩
  have hsnapshot : recordSnapshot { store with sequences := sequences } draft (some snapshot) =
      .ok { store with sequences := sequences, payloads := payloads } := by
    simp only [recordSnapshot, bind_eq_ok, exists_unit, require_eq_ok, statement_eq_ok, pure_eq_ok]
    exact ⟨hdigest, by rw [hreference]; rfl, _, hpayloads, rfl⟩
  simp only [appendEvent, bind_eq_ok]
  refine ⟨_, hlock, ?_⟩
  dsimp only
  rw [hid]
  simp only [bind_eq_ok, exists_unit, require_eq_ok, statement_eq_ok, positiveInt_eq_ok, pure_eq_ok]
  exact ⟨_, hsnapshot, case_seq, rfl, _, Table.insertOrIgnore_of_insert hinsert, rfl, counted, hcounted, rfl⟩

theorem recordEvent_total [Hashing] (h : store.Ordered) (clk : Clock Time) (now : Time)
    {scope : CaseScope} (run_id : Option Identifier) (snapshot : Snapshot) (kind : EventType)
    (correlation_id : Identifier) {reference_id id : Identifier}
    (hreference : reference_id.val = "event-payload:" ++ event_id) (hid : id.val = event_id)
    (hrun : kind.needsRun = true → run_id.isSome = true) (hfree : store.outbox.get (scope.tenant_id, id) = none)
    (hsnapshot : store.payloads.get (scope, reference_id) = none)
    (hroom : (store.caseEvents scope).length < maxInt) :
    ∃ store', recordEvent store clk now scope run_id snapshot kind event_id correlation_id = .ok store' ∧
      ∃ row ∈ store'.outbox.rows, row ∉ store.outbox.rows ∧ row.payload.event_type = kind ∧
        row.payload.toCaseScope = scope ∧ row.payload.correlation_id = correlation_id := by
  let draft : DomainEventDraft :=
    { scope with
      event_id := id, event_type := kind
      payload := ⟨scope, reference_id, Hashing.snapshotSha256 snapshot⟩
      run_id := run_id, correlation_id := correlation_id, causation_id := none
      recorded_at := now, coherent_draft := ⟨rfl, hrun⟩ }
  obtain ⟨store', event, happend, hevent, hmem, hnew⟩ := appendEvent_total h clk draft rfl hfree hsnapshot hroom
  refine ⟨store', ?_, OutboxRow.new event clk, hmem, hnew, ?_, ?_, ?_⟩
  · simp only [recordEvent, bind_eq_ok, identifier_eq_ok]
    refine ⟨reference_id, hreference, id, hid, ?_⟩
    rw [dif_pos hrun]
    simp only [ok_iff]
    exact ⟨_, happend, rfl⟩
  · exact congrArg DomainEventDraft.event_type hevent
  · exact congrArg DomainEventDraft.toCaseScope hevent
  · exact congrArg DomainEventDraft.correlation_id hevent

theorem recordEvent_new [Hashing] {store' : EventStore} (h : store.Ordered) {scope : CaseScope}
    {run_id : Option Identifier} {kind : EventType} {correlation_id : Identifier}
    (hok : recordEvent store clk now scope run_id snapshot kind event_id correlation_id = .ok store')
    (hmem : row ∈ store'.outbox.rows) (hnew : row ∉ store.outbox.rows) :
    ∃ reference_id id : Identifier, reference_id.val = "event-payload:" ++ event_id ∧
      id.val = event_id ∧ store.outbox.get (scope.tenant_id, id) = none ∧
      (∀ p, store.payloads.get (scope, reference_id) = some p → p.payload = snapshot) ∧
      (store.caseEvents scope).length < maxInt := by
  simp only [recordEvent, bind_eq_ok, identifier_eq_ok] at hok
  obtain ⟨reference_id, hreference, id, hid, hok⟩ := hok
  split_ifs at hok with hrun
  simp only [ok_iff, appendEvent] at hok
  obtain ⟨⟨appended, event, replayed⟩, ⟨⟨locked, current⟩, hlock, hok⟩, rfl⟩ := hok
  obtain ⟨sequences, counter, hinsert, hcounter, rfl, rfl⟩ := lockCaseSequence_eq_ok hlock
  have hcount := h.lock hinsert scope counter hcounter
  refine ⟨reference_id, id, hreference, hid, ?_⟩
  dsimp only at hok
  cases hget : store.outbox.get (scope.tenant_id, id) with
  | some stored =>
    -- The event was there already, so that no row is new.
    simp only [hget, ok_iff] at hok
    obtain ⟨-, rfl, -⟩ := hok
    exact absurd hmem hnew
  | none =>
    simp only [hget, ok_iff, recordSnapshot, positiveInt_eq_ok] at hok
    obtain ⟨recorded, ⟨-, hkept, -⟩, case_seq, hseq, -⟩ := hok
    refine ⟨rfl, fun p hp => ?_, ?_⟩
    · rw [hp] at hkept
      simp only [Option.all_some, decide_eq_true_eq] at hkept
      exact hkept.2
    · have hle := case_seq.le
      omega

/-! ## Approvals have a case and an action -/

/-- Every approval is of an action and a case that exist. -/
def Grounded (db : Database) : Prop :=
  ∀ a ∈ db.approvals.rows, (db.cases.get a.toCaseScope).isSome = true ∧
    (db.actions.get (a.tenant_id, a.action_id)).isSome = true

theorem Write.grounded {start : Time} (hdb : Grounded db) (h : Write gate start stop db db') : Grounded db' := by
  cases h <;> try exact hdb
  case cases cases kept => exact fun a ha => ⟨kept _ (hdb a ha).1, (hdb a ha).2⟩
  case requestApproval hgate a hpending hcase haction h =>
    intro b hb
    rcases (Table.mem_insert h).mp hb with hb | rfl
    · exact hdb b hb
    · exact ⟨hcase, haction⟩
  case decideApproval k f a hgate hget hpending hrequest happroved h =>
    intro b hb
    rcases (Table.mem_update hget h).mp hb with ⟨hb, -⟩ | rfl
    · exact hdb b hb
    · rw [hrequest]
      exact hdb a (Table.mem_of_get hget)

theorem ActionStep.keeps_action {t : Time} {actions : Table actionSchema} (h : ActionStep t db actions)
    {k : Identifier × Identifier} (hk : (db.actions.get k).isSome = true) : (actions.get k).isSome = true := by
  cases h with
  | reserve action hstate h =>
    rw [Table.get_insert h]
    split_ifs
    · rfl
    · exact hk
  | move hget htransition hgate h =>
    rw [Table.get_update h]
    split_ifs with heq
    · rw [hget]
      rfl
    · exact hk

theorem Effect.grounded {start : Time} {c : Call} (hdb : Grounded db)
    (h : Effect start stop db c db') : Grounded db' := by
  exact h.rule (fun hwrites => hwrites.invariant (fun hdb h => h.grounded hdb) hdb) (fun hmid => hmid)
    (fun _ hstep a ha => ⟨(hdb a ha).1, hstep.keeps_action (hdb a ha).2⟩) (fun _ _ => hdb)

theorem History.ordered_grounded [Hashing] {h : List CallTransaction} {t₀ t : Time} {db : Database}
    (hr : History h t₀ db t) : db.events.Ordered ∧ Grounded db := by
  refine hr.invariant (fun (db : Database) _ => db.events.Ordered ∧ Grounded db) (fun _ hdb => hdb) ?_ ?_
  · intro db clk c db' o hdb hexec
    have heffect := exec_effect hexec
    exact ⟨(EventStore.appends_ordered hdb.1 heffect.appends).1, heffect.grounded hdb.2⟩
  · refine ⟨⟨fun _ => numbered_nil _, fun scope row hrow => ?_⟩, fun a ha => ?_⟩
    · cases hrow
    · cases ha

/-! ## Expiry -/

/-- The key of the decision that expires an approval. -/
def ApprovalRecord.expiryKey (a : ApprovalRecord) : String := "expiry:" ++ a.approval_id.val

/-- The id of the event that tells of the expiry of an approval. -/
def ApprovalRecord.expiryEvent (a : ApprovalRecord) : String :=
  "approval:" ++ a.case_id.val ++ ":" ++ a.approval_id.val ++ ":decision:" ++ a.expiryKey

/-- The derived names fit and are free, and the log has room. -/
structure ExpiryOpen (db : Database) (a : ApprovalRecord) : Prop where
  fits : a.case_id.val.length + 2 * a.approval_id.val.length ≤ 119
  key_free : ∀ b ∈ db.approvals.rows, b.tenant_id = a.tenant_id →
    ∀ key, b.decision_idempotency_key = some key → key.val ≠ a.expiryKey
  event_free : ∀ row ∈ db.events.outbox.rows, row.payload.tenant_id = a.tenant_id →
    row.payload.event_id.val ≠ a.expiryEvent
  snapshot_free : ∀ p ∈ db.events.payloads.rows, p.toCaseScope = a.toCaseScope →
    p.reference_id.val ≠ "event-payload:" ++ a.expiryEvent
  room : (db.events.caseEvents a.toCaseScope).length < maxInt

/-- `expire` stores the approval as expired, and records an event. -/
def SettlesExpired [Hashing] (db : Database) (clk : Clock Time) (now : Time) (a : ApprovalRecord) : Prop :=
  ∃ db' result, expireApproval db clk now a.tenant_id a.approval_id = .ok (db', result) ∧
    result.decision = .expired ∧ result.toApprovalRequest = a.toApprovalRequest ∧
    result ∈ db'.approvals.rows ∧
    ∃ row ∈ db'.events.outbox.rows, row ∉ db.events.outbox.rows ∧
      row.payload.event_type = .approvalExpired ∧ row.payload.toCaseScope = a.toCaseScope ∧
      row.payload.correlation_id = a.approval_id

/-- The longest name fits exactly when the ids are short enough. -/
theorem ApprovalRecord.expiryReference_valid : identifierValid ("event-payload:" ++ a.expiryEvent) = true ↔
      a.case_id.val.length + 2 * a.approval_id.val.length ≤ 119 := by
  have htext : identifierText ("event-payload:" ++ a.expiryEvent) = true := by
    simp only [ApprovalRecord.expiryEvent, ApprovalRecord.expiryKey, identifierText_append, Identifier.text, and_true]
    decide
  have hstart : identifierStart ("event-payload:" ++ a.expiryEvent) = true := identifierStart_append (by decide)
  have hlength : ("event-payload:" ++ a.expiryEvent).length =
      41 + (a.case_id.val.length + 2 * a.approval_id.val.length) := by
    simp only [ApprovalRecord.expiryEvent, ApprovalRecord.expiryKey, String.length_append]
    have h₁ : "event-payload:".length = 14 := rfl
    have h₂ : "approval:".length = 9 := rfl
    have h₃ : ":".length = 1 := rfl
    have h₄ : ":decision:".length = 10 := rfl
    have h₅ : "expiry:".length = 7 := rfl
    omega
  rw [identifierValid_iff, hlength]
  constructor
  · intro h
    omega
  · exact fun h => ⟨hstart, htext, by omega⟩

theorem ApprovalRecord.expiryNames_valid (h : a.case_id.val.length + 2 * a.approval_id.val.length ≤ 119) :
    identifierValid a.expiryKey = true ∧ identifierValid a.expiryEvent = true := by
  obtain ⟨-, htext, hlength⟩ := identifierValid_iff.mp (expiryReference_valid.mpr h)
  rw [String.length_append] at hlength
  have hevent : identifierText a.expiryEvent = true := (identifierText_append.mp htext).2
  have hkey : identifierText a.expiryKey = true := (identifierText_append.mp hevent).2
  have hle : a.expiryKey.length ≤ a.expiryEvent.length := by
    unfold ApprovalRecord.expiryEvent
    rw [String.length_append]
    omega
  refine ⟨identifierValid_iff.mpr ⟨identifierStart_append (by decide), hkey, by omega⟩,
    identifierValid_iff.mpr ⟨?_, hevent, by omega⟩⟩
  unfold ApprovalRecord.expiryEvent
  simp only [String.append_assoc]
  exact identifierStart_append (by decide)

theorem ApprovalRecord.pending_of_check (hcheck : a.check = true) (hpending : a.decision = .pending) :
    a.approver = none ∧ a.decision_idempotency_key = none ∧ a.decided_at = none ∧ a.decision_reason = none := by
  simp only [ApprovalRecord.check, hpending, beq_self_eq_true, bne_self_eq_false, Bool.false_or,
    Bool.and_eq_true, beq_iff_eq, Option.isNone_iff_eq_none] at hcheck
  obtain ⟨⟨-, hnone⟩, hreason⟩ := hcheck
  have hnone' := hnone.symm
  simp only [Bool.and_eq_true, Option.isNone_iff_eq_none] at hnone'
  exact ⟨hnone'.1.1, hnone'.1.2, hnone'.2, hreason⟩

theorem findApproval_of_pending (ha : a ∈ db.approvals.rows) (hpending : a.decision = .pending) :
    findApproval db a.tenant_id a.approval_id = .ok a := by
  obtain ⟨happrover, hkey, hdecided, hreason⟩ := ApprovalRecord.pending_of_check (db.approvals.checked a ha) hpending
  simp only [findApproval, ok_iff, ApprovalRecord.record_eq_ok]
  refine ⟨a, Table.get_of_mem ha, ?_, rfl⟩
  simp [ApprovalRecord.coherentDecision, hpending, happrover, hkey, hdecided, hreason, maxLength]

theorem expireApproval_eq_ok [Hashing] {result : ApprovalRecord} (hdb : Grounded db) (ha : a ∈ db.approvals.rows)
    (hpending : a.decision = .pending) (htime : a.expires_at ≤ clk.read 0) :
    expireApproval db clk now a.tenant_id a.approval_id = .ok (db', result) ↔
      ∃ approver key : Identifier, approver.val = "approval-expiry-reconciler" ∧
        key.val = a.expiryKey ∧ result = a.expired approver key (clk.drop 1) ∧
        ∃ approvals events, db.approvals.update (a.tenant_id, a.approval_id)
            (ApprovalRecord.expired approver key (clk.drop 1)) = .ok approvals ∧
          recordEvent db.events (clk.drop 3) now a.toCaseScope (a.binding.map (·.run_id))
            (.approval result) .approvalExpired a.expiryEvent a.approval_id = .ok events ∧
          db' = { db with approvals := approvals, events := events } := by
  obtain ⟨hcase, haction⟩ := hdb a ha
  obtain ⟨action, haction⟩ := Option.isSome_iff_exists.mp haction
  obtain ⟨-, -, -, hreason⟩ := ApprovalRecord.pending_of_check (db.approvals.checked a ha) hpending
  have hopen : ¬(a.decision ≠ .pending ∨ clk.read 0 < a.expires_at) := by
    rw [not_or, not_not, not_lt]
    exact ⟨hpending, htime⟩
  have hlock : lockCase db ⟨a.tenant_id, a.case_id⟩ = .ok () := require_eq_ok.mpr hcase
  have hlockAction : lockAction db a.tenant_id a.action_id = .ok action := fetch_eq_ok.mpr haction
  have hrecord : ∀ approver key, (a.expired approver key (clk.drop 1)).record =
      .ok (a.expired approver key (clk.drop 1)) := by
    intro approver key
    rw [ApprovalRecord.record_eq_ok]
    exact ⟨by simp [ApprovalRecord.coherentDecision, ApprovalRecord.expired, hreason, maxLength], rfl⟩
  unfold expireApproval
  rw [findApproval_of_pending ha hpending, ok_bind, hlock, ok_bind, hlockAction, ok_bind, ok_bind, if_neg hopen]
  simp only [ok_iff, identifier_eq_ok, statement_eq_ok, hrecord, Except.ok.injEq, appendApprovalDecided]
  constructor
  · rintro ⟨approver, happrover, key, hkey, approvals, hupdate, _, rfl, events, ⟨key', hkey', hevents⟩, rfl, rfl⟩
    cases Option.some.inj hkey'
    rw [hkey] at hevents
    exact ⟨approver, key, happrover, hkey, rfl, approvals, events, hupdate, hevents, rfl⟩
  · rintro ⟨approver, key, happrover, hkey, rfl, approvals, events, hupdate, hevents, rfl⟩
    refine ⟨approver, happrover, key, hkey, approvals, hupdate, _, rfl, events, ⟨key, rfl, ?_⟩, rfl, rfl⟩
    rw [hkey]
    exact hevents

theorem expiry_update_ok_iff (ha : a ∈ db.approvals.rows) (hpending : a.decision = .pending)
    (approver key : Identifier) (clk : Clock Time) :
    (∃ approvals, db.approvals.update (a.tenant_id, a.approval_id)
      (ApprovalRecord.expired approver key clk) = .ok approvals) ↔
    ∀ b ∈ db.approvals.rows, b.tenant_id = a.tenant_id → b.decision_idempotency_key ≠ some key := by
  have hcheck := db.approvals.checked a ha
  obtain ⟨-, hkey, -, hreason⟩ := ApprovalRecord.pending_of_check hcheck hpending
  have hcheck' : (a.expired approver key clk).check = true := by
    simp only [approvalSchema_check, ApprovalRecord.check, Bool.and_eq_true] at hcheck
    simp [ApprovalRecord.check, ApprovalRecord.expired, hreason, decide_eq_true_eq.mp hcheck.1.1]
  have hget : db.approvals.get (a.tenant_id, a.approval_id) = some a := Table.get_of_mem ha
  rw [Table.update_ok_iff hget]
  constructor
  · rintro ⟨-, -, hclash⟩ b hb htenant hb_key
    -- The row of the approval itself has no key yet, so that the row with the key is another one.
    have hne : approvalSchema.key b ≠ (a.tenant_id, a.approval_id) := by
      intro heq
      rw [Table.eq_of_key_eq hb ha heq, hkey] at hb_key
      cases hb_key
    have hfalse := (hclash b hb hne).1
    simp [approvalSchema_clash, ApprovalRecord.expired, htenant, hb_key, sameKey] at hfalse
  · intro hfree
    refine ⟨hcheck', rfl, fun b hb hne => ?_⟩
    have hba : b ≠ a := fun heq => hne (heq ▸ rfl)
    obtain ⟨-, hclash, -⟩ := db.approvals.apart.forall hb ha hba
    by_cases htenant : b.tenant_id = a.tenant_id
    · have haction : b.action_id ≠ a.action_id := by
        intro heq
        simp [approvalSchema_clash, htenant, heq] at hclash
      have hbkey := hfree b hb htenant
      constructor
      · simp [approvalSchema_clash, ApprovalRecord.expired, haction, sameKey, hbkey]
      · simp [approvalSchema_clash, ApprovalRecord.expired, haction.symm, sameKey, hbkey.symm]
    · constructor
      · simp [approvalSchema_clash, ApprovalRecord.expired, htenant]
      · simp [approvalSchema_clash, ApprovalRecord.expired, Ne.symm htenant]

theorem expireApproval_names [Hashing] {db : Database} {clk : Clock Time} {now : Time} {a : ApprovalRecord}
    {r : Database × ApprovalRecord} (hdb : Grounded db) (ha : a ∈ db.approvals.rows)
    (hpending : a.decision = .pending) (htime : a.expires_at ≤ clk.read 0)
    (h : expireApproval db clk now a.tenant_id a.approval_id = .ok r) :
    a.case_id.val.length + 2 * a.approval_id.val.length ≤ 119 ∧ ∀ b ∈ db.approvals.rows, b.tenant_id = a.tenant_id →
        ∀ key, b.decision_idempotency_key = some key → key.val ≠ a.expiryKey := by
  obtain ⟨approver, key, -, hkey, -, approvals, events, hupdate, hevents, -⟩ :=
    (expireApproval_eq_ok hdb ha hpending htime).mp h
  constructor
  · simp only [recordEvent, bind_eq_ok, identifier_eq_ok] at hevents
    obtain ⟨reference_id, hreference, -⟩ := hevents
    rw [← ApprovalRecord.expiryReference_valid, ← hreference]
    exact reference_id.valid
  · intro b hb htenant key' hb_key hval
    have hsame : key' = key := Identifier.ext (hval.trans hkey.symm)
    rw [hsame] at hb_key
    exact (expiry_update_ok_iff ha hpending approver key _).mp ⟨approvals, hupdate⟩ b hb htenant hb_key

theorem ExpiryOpen.settles [Hashing] (hopen : ExpiryOpen db a) (hordered : db.events.Ordered)
    (hground : Grounded db) (ha : a ∈ db.approvals.rows) (hpending : a.decision = .pending) (clk : Clock Time)
    (now : Time) (htime : a.expires_at ≤ clk.read 0) : SettlesExpired db clk now a := by
  obtain ⟨hkeyValid, heventValid⟩ := ApprovalRecord.expiryNames_valid hopen.fits
  let approver : Identifier := ⟨"approval-expiry-reconciler", Eq.refl true⟩
  let key : Identifier := ⟨a.expiryKey, hkeyValid⟩
  let event_id : Identifier := ⟨a.expiryEvent, heventValid⟩
  let reference_id : Identifier :=
    ⟨"event-payload:" ++ a.expiryEvent, ApprovalRecord.expiryReference_valid.mpr hopen.fits⟩
  have hkey : ∀ b ∈ db.approvals.rows, b.tenant_id = a.tenant_id → b.decision_idempotency_key ≠ some key :=
    fun b hb htenant heq => hopen.key_free b hb htenant key heq rfl
  obtain ⟨approvals, hupdate⟩ := (expiry_update_ok_iff ha hpending approver key (clk.drop 1)).mpr hkey
  have hevent : db.events.outbox.get (a.tenant_id, event_id) = none := by
    rw [Table.get_eq_none]
    intro row hrow heq
    obtain ⟨htenant, hid⟩ := Prod.mk.inj heq
    exact hopen.event_free row hrow htenant (congrArg Identifier.val hid)
  have hsnapshot : db.events.payloads.get (a.toCaseScope, reference_id) = none := by
    rw [Table.get_eq_none]
    intro p hp heq
    obtain ⟨hscope, hid⟩ := Prod.mk.inj heq
    exact hopen.snapshot_free p hp hscope (congrArg Identifier.val hid)
  let result := a.expired approver key (clk.drop 1)
  obtain ⟨events, hevents, hrow⟩ := recordEvent_total hordered (clk.drop 3) now
    (a.binding.map (·.run_id)) (.approval result) .approvalExpired a.approval_id rfl rfl
    (fun h => by cases h) hevent hsnapshot hopen.room
  refine ⟨_, result, (expireApproval_eq_ok hground ha hpending htime).mpr
    ⟨approver, key, rfl, rfl, rfl, approvals, events, hupdate, hevents, rfl⟩, rfl, rfl, ?_, hrow⟩
  exact (Table.mem_update (Table.get_of_mem ha) hupdate).mpr (.inr rfl)

/-- **When an expired approval can be settled**: exactly when the names that `expire` derives from its ids fit and are
free, and the log of the case has room. -/
theorem expired_settles_iff [Hashing] {h : List (Transaction Database Time Call Output Failure)}
    {t₀ t : Time} {db : Database} (hr : History h t₀ db t) {a : ApprovalRecord}
    (ha : a ∈ db.approvals.rows) (hpending : a.decision = .pending) :
    (∀ (clk : Clock Time) (now : Time), t ≤ clk.read 0 → a.expires_at ≤ clk.read 0 →
      SettlesExpired db clk now a) ↔ ExpiryOpen db a := by
  obtain ⟨hordered, hground⟩ := hr.ordered_grounded
  refine ⟨fun hsettles => ?_, fun hopen clk now _ htime =>
    hopen.settles hordered hground ha hpending clk now htime⟩
  have hfound : ∀ now ≥ max t a.expires_at, ∃ approver key reference_id event_id : Identifier,
      reference_id.val = "event-payload:" ++ a.expiryEvent ∧ event_id.val = a.expiryEvent ∧
      db.events.outbox.get (a.tenant_id, event_id) = none ∧
      (∀ p, db.events.payloads.get (a.toCaseScope, reference_id) = some p →
        p.payload = .approval (a.expired approver key ((Clock.still now).drop 1))) ∧
      (db.events.caseEvents a.toCaseScope).length < maxInt := by
    intro now hnow
    obtain ⟨ht, htime⟩ := max_le_iff.mp hnow
    obtain ⟨db', result, hexpire, -, -, -, row, hrow, hnew, -⟩ := hsettles (.still now) now ht htime
    obtain ⟨approver, key, -, -, rfl, approvals, events, -, hevents, rfl⟩ :=
      (expireApproval_eq_ok hground ha hpending htime).mp hexpire
    obtain ⟨reference_id, event_id, hevent⟩ := recordEvent_new hordered hevents hrow hnew
    exact ⟨approver, key, reference_id, event_id, hevent⟩
  obtain ⟨ht, htime⟩ := max_le_iff.mp (le_refl (max t a.expires_at))
  obtain ⟨db', result, hexpire, -⟩ := hsettles (.still _) 0 ht htime
  obtain ⟨hfits, hkeys⟩ := expireApproval_names hground ha hpending htime hexpire
  obtain ⟨approver, key, reference_id, event_id, hreference, hid, hfree, hsnapshot, hroom⟩ :=
    hfound _ le_rfl
  refine ⟨hfits, hkeys, ?_, ?_, hroom⟩
  · intro row hrow htenant hval
    refine Table.get_eq_none.mp hfree row hrow ?_
    exact Prod.ext htenant (Identifier.ext (hval.trans hid.symm))
  · -- Two readings of the clock give two snapshots, so that no stored snapshot is that of both.
    intro p hp hscope hval
    have hget : db.events.payloads.get (a.toCaseScope, reference_id) = some p := by
      rw [← hscope, ← Identifier.ext (hval.trans hreference.symm)]
      exact Table.get_of_mem hp
    obtain ⟨approver', key', reference_id', -, hreference', -, -, hsnapshot', -⟩ :=
      hfound (max t a.expires_at + 1) (Int.le_add_one le_rfl)
    have hsame : reference_id' = reference_id := Identifier.ext (hreference'.trans hreference.symm)
    rw [hsame] at hsnapshot'
    have hrecord := (hsnapshot p hget).symm.trans (hsnapshot' p hget)
    have hdecided := congrArg ApprovalRecord.decided_at (Snapshot.approval.inj hrecord)
    simp only [ApprovalRecord.expired, Clock.still, Clock.drop, Option.some.injEq] at hdecided
    exact absurd hdecided (Int.lt_succ _).ne

/-- The refund waits for an approval that expires at 1000. -/
def expiringCalls : List (Time × Call) :=
  sampleCalls ++
    [(3, .reserve sampleIntent (some sampleClaim)), (4, .requestApproval 4 sampleApproval)]

/-- The approval is settled once its time has come. -/
theorem expired_settles_refund :
    @SettlesExpired sampleHashing (replay (@exec sampleHashing) Database.empty expiringCalls)
      (.still 1000) 1000 (sampleApproval.row ((Clock.still 4).drop 1)) := by
  have hr : @History sampleHashing _ 0 _ 4 :=
    replay_runs (@exec sampleHashing) expiringCalls Database.empty 0 (by decide)
  have hfree : ∀ b ∈ (replay (@exec sampleHashing) Database.empty expiringCalls).approvals.rows,
      b.decision_idempotency_key = none := by decide
  refine (@expired_settles_iff sampleHashing _ _ _ _ hr (sampleApproval.row ((Clock.still 4).drop 1))
    (by decide) rfl).mpr ⟨by decide, ?_, by decide, by decide, by decide⟩ (.still 1000) 1000
    (by decide) (by decide)
  intro b hb _ key hkey
  rw [hfree b hb] at hkey
  cases hkey

def longApproval : ApprovalRequest :=
  { sampleApproval with
    approval_id := ⟨"approval-of-the-refund-for-the-first-order-of-the-customer-1", Eq.refl true⟩ }

/-- The approval with the long id is requested, and accepted. -/
def longCalls : List (Time × Call) :=
  sampleCalls ++
    [(3, .reserve sampleIntent (some sampleClaim)), (4, .requestApproval 4 longApproval)]

def secondIntent : ActionIntent :=
  { sampleIntent with
    action_id := ⟨"refund-2", Eq.refl true⟩, business_key := ⟨"order-1:refund-2", Eq.refl true⟩
    idempotency_key := ⟨"key-9", Eq.refl true⟩ }

def secondApproval : ApprovalRequest :=
  { sampleApproval with
    approval_id := ⟨"approval-2", Eq.refl true⟩, action_id := secondIntent.action_id }

/-- The second refund is decided under a derived key. -/
def takenKeyCalls : List (Time × Call) :=
  expiringCalls ++
    [(5, .reserve secondIntent none), (6, .requestApproval 6 secondApproval),
      (7, .decideApproval 7 sampleScope.tenant_id secondApproval.approval_id
        ⟨"manager-1", Eq.refl true⟩ .rejected ⟨"expiry:approval-1", Eq.refl true⟩ none)]

/-- The event does not fit, or the decision key is taken. -/
theorem expiry_blocked : (∃ t, @History sampleHashing (trace (@exec sampleHashing) Database.empty longCalls) 0
      (replay (@exec sampleHashing) Database.empty longCalls) t) ∧
    longApproval.row ((Clock.still 4).drop 1) ∈
      (replay (@exec sampleHashing) Database.empty longCalls).approvals.rows ∧
    (∀ (clk : Clock Time) (now : Time), longApproval.expires_at ≤ clk.read 0 →
      ∃ e, @expireApproval sampleHashing (replay (@exec sampleHashing) Database.empty longCalls)
        clk now longApproval.tenant_id longApproval.approval_id = .error e) ∧
    (∃ t, @History sampleHashing (trace (@exec sampleHashing) Database.empty takenKeyCalls) 0
      (replay (@exec sampleHashing) Database.empty takenKeyCalls) t) ∧
    sampleApproval.row ((Clock.still 4).drop 1) ∈
      (replay (@exec sampleHashing) Database.empty takenKeyCalls).approvals.rows ∧
    (∀ (clk : Clock Time) (now : Time), sampleApproval.expires_at ≤ clk.read 0 →
      ∃ e, @expireApproval sampleHashing (replay (@exec sampleHashing) Database.empty takenKeyCalls)
        clk now sampleApproval.tenant_id sampleApproval.approval_id = .error e) := by
  have hlong := replay_runs (@exec sampleHashing) longCalls Database.empty 0 (by decide)
  have htaken := replay_runs (@exec sampleHashing) takenKeyCalls Database.empty 0 (by decide)
  have halong : longApproval.row ((Clock.still 4).drop 1) ∈
      (replay (@exec sampleHashing) Database.empty longCalls).approvals.rows := by decide +kernel
  have hasample : sampleApproval.row ((Clock.still 4).drop 1) ∈
      (replay (@exec sampleHashing) Database.empty takenKeyCalls).approvals.rows := by decide
  refine ⟨⟨_, hlong⟩, halong, fun clk now htime => ?_, ⟨_, htaken⟩, hasample, fun clk now htime => ?_⟩
  · cases hexpire : @expireApproval sampleHashing _ clk now _ _ with
    | error e => exact ⟨e, rfl⟩
    | ok result =>
      have hfits := (@expireApproval_names sampleHashing _ _ _ _ _
        (@History.ordered_grounded sampleHashing _ _ _ _ hlong).2 halong rfl htime hexpire).1
      exact absurd hfits (by decide)
  · cases hexpire : @expireApproval sampleHashing _ clk now _ _ with
    | error e => exact ⟨e, rfl⟩
    | ok result =>
      have hfree := (@expireApproval_names sampleHashing _ _ _ _ _
        (@History.ordered_grounded sampleHashing _ _ _ _ htaken).2 hasample rfl htime hexpire).2
      exact absurd rfl (hfree (ApprovalRecord.decided ⟨"manager-1", Eq.refl true⟩ .rejected
        ⟨"expiry:approval-1", Eq.refl true⟩ none (.still 7)
        (secondApproval.row ((Clock.still 6).drop 1))) (by decide) rfl _ rfl)

end Aftercare
