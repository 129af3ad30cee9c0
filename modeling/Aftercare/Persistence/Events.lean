import Aftercare.Persistence.Runs

/-!
# The event repository

The methods of `EventRepository` that append: `append_event`, which allocates the next position of the
case, `append_outbox`, which takes an event that names its position, and `receive_inbox`. The events of
all cases are one `EventStore`, and the appending methods are functions of it alone.

`EventStore.Appends` says once what they do to it.
-/

namespace Aftercare

open Relational

/-- The events of a case, in the order they were written. -/
def EventStore.caseRows (store : EventStore) (scope : CaseScope) : List OutboxRow :=
  store.outbox.select fun r => r.payload.toCaseScope = scope

/-- `COALESCE(MAX(case_seq),0)` over the events of a case. -/
def EventStore.maxCaseSeq (store : EventStore) (scope : CaseScope) : ℕ :=
  ((store.caseRows scope).map (·.payload.case_seq.val)).foldl max 0

def lockCaseSequence (store : EventStore) (scope : CaseScope) : Result (EventStore × ℕ) := do
  let (sequences, _) ← statement "aftercare_case_event_sequences" <|
    store.sequences.insertOrIgnore { scope with last_case_seq := store.maxCaseSeq scope }
  let row ← fetch (sequences.get scope)
    (.contract .retryable "case event sequence row is unavailable")
  pure ({ store with sequences := sequences }, row.last_case_seq)

/-- The row of a new event, with the defaults of the table. -/
def OutboxRow.new (event : DomainEvent) (clk : Clock Time) : OutboxRow where
  payload := event
  recorded_at := clk.read 0
  delivery_state := .pending
  delivery_owner := none
  delivery_lease_until := none
  delivery_attempts := 0
  next_attempt_at := clk.read 1
  last_error := none
  delivered_at := none

/-- The part of `append_event` that preserves the snapshot. -/
def recordSnapshot [Hashing] (store : EventStore) (draft : DomainEventDraft)
    (snapshot : Option Snapshot) : Result EventStore :=
  match snapshot with
  | none => pure store
  | some payload => do
    require (Hashing.snapshotSha256 payload = draft.payload.sha256)
      (.contract .conflict "event snapshot digest does not match")
    require ((store.payloads.get (draft.toCaseScope, draft.payload.reference_id)).all
        (fun p => p.sha256 = draft.payload.sha256 ∧ p.payload = payload) = true)
      (.contract .conflict "event payload snapshot conflicts")
    let (payloads, _) ← statement "aftercare_event_payloads" <|
      store.payloads.insertOrIgnore
        ⟨draft.toCaseScope, draft.payload.reference_id, draft.payload.sha256, payload⟩
    pure { store with payloads := payloads }

def appendEvent [Hashing] (store : EventStore) (clk : Clock Time) (draft : DomainEventDraft)
    (snapshot : Option Snapshot) : Result (EventStore × DomainEvent × Bool) := do
  let (store, current) ← lockCaseSequence store draft.toCaseScope
  match store.outbox.get (draft.tenant_id, draft.event_id) with
  | some row => do
    require (row.payload.toDomainEventDraft = draft)
      (.contract .conflict "outbox event identity conflicts")
    pure (store, row.payload, true)
  | none => do
    let store ← recordSnapshot store draft snapshot
    let case_seq ← positiveInt "DomainEvent" (current + 1)
    let (outbox, inserted) ← statement "aftercare_outbox" <|
      store.outbox.insertOrIgnore (.new ⟨draft, case_seq⟩ clk)
    require (inserted = true) (.contract .conflict "case event sequence was occupied")
    let sequences ← statement "aftercare_case_event_sequences" <|
      store.sequences.update draft.toCaseScope fun s => { s with last_case_seq := case_seq.val }
    pure ({ store with outbox := outbox, sequences := sequences }, ⟨draft, case_seq⟩, false)

def appendOutbox (store : EventStore) (clk : Clock Time) (event : DomainEvent) : Result (EventStore × Bool) := do
  let (store, current) ← lockCaseSequence store event.toCaseScope
  match store.outbox.get event.key with
  | some row => do
    require (row.payload = event) (.contract .conflict "outbox event identity conflicts")
    pure (store, false)
  | none => do
    require (event.case_seq.val = current + 1)
      (.contract .conflict "outbox case sequence must be the next contiguous position")
    let (outbox, inserted) ← statement "aftercare_outbox" <|
      store.outbox.insertOrIgnore (.new event clk)
    -- The lookup above found no event of this id, so a row that stands in the way has another id.
    require (inserted = true)
      (.contract .conflict "outbox event identity or sequence conflicts")
    let sequences ← statement "aftercare_case_event_sequences" <|
      store.sequences.update event.toCaseScope fun s =>
        { s with last_case_seq := event.case_seq.val }
    pure ({ store with outbox := outbox, sequences := sequences }, true)

/-- `_record_event` of the gate events; `now` is the program's clock. -/
def recordEvent [Hashing] (store : EventStore) (clk : Clock Time) (now : Time) (scope : CaseScope)
    (run_id : Option Identifier) (snapshot : Snapshot) (kind : EventType) (event_id : String)
    (correlation_id : Identifier) : Result EventStore := do
  let reference_id ← identifier "ArtifactReference" ("event-payload:" ++ event_id)
  let event_id ← identifier "DomainEventDraft" event_id
  if h : kind.needsRun → run_id.isSome then do
    let draft : DomainEventDraft :=
      { scope with
        event_id := event_id, event_type := kind
        payload := ⟨scope, reference_id, Hashing.snapshotSha256 snapshot⟩
        run_id := run_id, correlation_id := correlation_id, causation_id := none
        recorded_at := now, coherent_draft := ⟨rfl, h⟩ }
    let (store, _) ← appendEvent store clk draft (some snapshot)
    pure store
  else .error (.validation "DomainEventDraft")

def receiveInbox (db : Database) (signal : InboxSignal) : Result (Database × Bool) := do
  let (inbox, inserted) ← statement "aftercare_inbox" (db.inbox.insertOrIgnore signal)
  if inserted then pure ({ db with inbox := inbox }, true)
  else
    match db.inbox.get (signal.tenant_id, signal.source_id, signal.source_event_id) with
    | none => do
      require ((db.inbox.select fun s =>
          s.tenant_id == signal.tenant_id && s.event_id == signal.event_id) = [])
        (.contract .conflict "inbox event identity conflicts")
      .error (.contract .retryable "inbox replay outcome is unknown")
    | some stored => do
      checkInboxReplay stored signal
      pure (db, false)

/-! ## What appending does -/

/-- At most one event is written, at the position after the counter. -/
inductive EventStore.Appends (store : EventStore) : EventStore → Prop
  /-- The counter of a case was created or found, and no event written. -/
  | lock {sequences : Table sequenceSchema} {payloads : Table payloadSchema} (scope : CaseScope)
      (hlock : (store.sequences.insertOrIgnore ⟨scope, store.maxCaseSeq scope⟩).map Prod.fst = .ok sequences) :
      store.Appends { store with sequences := sequences, payloads := payloads }
  /-- An event was written too. -/
  | append {locked sequences : Table sequenceSchema} {payloads : Table payloadSchema}
      {outbox : Table outboxSchema} (event : DomainEvent) (clk : Clock Time) (row : SequenceRow)
      (hlock : (store.sequences.insertOrIgnore
        ⟨event.toCaseScope, store.maxCaseSeq event.toCaseScope⟩).map Prod.fst = .ok locked)
      (hrow : locked.get event.toCaseScope = some row)
      (hseq : event.case_seq.val = row.last_case_seq + 1)
      (houtbox : store.outbox.insert (.new event clk) = .ok outbox)
      (hsequences : locked.update event.toCaseScope
        (fun s => { s with last_case_seq := event.case_seq.val }) = .ok sequences) :
      store.Appends ⟨outbox, sequences, payloads⟩

variable {store store' : EventStore} {clk : Clock Time}

theorem lockCaseSequence_eq_ok {scope : CaseScope} {current : ℕ}
    (h : lockCaseSequence store scope = .ok (store', current)) :
    ∃ sequences row, (store.sequences.insertOrIgnore ⟨scope, store.maxCaseSeq scope⟩).map Prod.fst =
        .ok sequences ∧ sequences.get scope = some row ∧ row.last_case_seq = current ∧
      store' = { store with sequences := sequences } := by
  simp only [lockCaseSequence, statement_eq_ok, ok_iff] at h
  obtain ⟨⟨sequences, inserted⟩, hinsert, row, hrow, hstore, hcurrent⟩ := h
  exact ⟨sequences, row, by rw [hinsert]; rfl, hrow, hcurrent, hstore.symm⟩

theorem recordSnapshot_eq_ok [Hashing] {draft : DomainEventDraft}
    {snapshot : Option Snapshot} (h : recordSnapshot store draft snapshot = .ok store') :
    ∃ payloads, store' = { store with payloads := payloads } := by
  unfold recordSnapshot at h
  cases snapshot with
  | none => exact ⟨store.payloads, (pure_eq_ok.mp h).symm⟩
  | some payload =>
    simp only [ok_iff, statement_eq_ok] at h
    obtain ⟨-, -, ⟨payloads, _⟩, -, hstore⟩ := h
    exact ⟨payloads, hstore.symm⟩

theorem appendEvent_appends [Hashing] {draft : DomainEventDraft} {snapshot : Option Snapshot}
    {event : DomainEvent} {replayed : Bool}
    (h : appendEvent store clk draft snapshot = .ok (store', event, replayed)) : store.Appends store' := by
  simp only [appendEvent, bind_eq_ok] at h
  obtain ⟨⟨locked, current⟩, hlock, h⟩ := h
  obtain ⟨sequences, row, hinsert, hrow, hcurrent, rfl⟩ := lockCaseSequence_eq_ok hlock
  dsimp only at h
  cases hget : store.outbox.get (draft.tenant_id, draft.event_id) with
  | some stored =>
    simp only [hget, ok_iff] at h
    obtain ⟨-, rfl, -⟩ := h
    exact .lock draft.toCaseScope hinsert
  | none =>
    simp only [hget, ok_iff, statement_eq_ok] at h
    obtain ⟨recorded, hrecord, case_seq, hseq, ⟨outbox, inserted⟩, houtbox, h⟩ := h
    obtain ⟨hinserted, sequences', hsequences, rfl, -⟩ := h
    obtain ⟨payloads, rfl⟩ := recordSnapshot_eq_ok hrecord
    dsimp only at *
    obtain ⟨-, houtbox⟩ | ⟨hfalse, -⟩ := Table.insertOrIgnore_eq_ok houtbox
    · refine .append ⟨draft, case_seq⟩ clk row hinsert hrow ?_ houtbox hsequences
      rw [positiveInt_eq_ok.mp hseq, hcurrent]
    · cases hinserted.symm.trans hfalse

theorem appendOutbox_appends {event : DomainEvent} {appended : Bool}
    (h : appendOutbox store clk event = .ok (store', appended)) : store.Appends store' := by
  simp only [appendOutbox, bind_eq_ok] at h
  obtain ⟨⟨locked, current⟩, hlock, h⟩ := h
  obtain ⟨sequences, row, hinsert, hrow, hcurrent, rfl⟩ := lockCaseSequence_eq_ok hlock
  dsimp only at h
  cases hget : store.outbox.get event.key with
  | some stored =>
    simp only [hget, ok_iff] at h
    obtain ⟨-, rfl, -⟩ := h
    exact .lock event.toCaseScope hinsert
  | none =>
    simp only [hget, statement_eq_ok, ok_iff] at h
    obtain ⟨hseq, ⟨outbox, inserted⟩, houtbox, hinserted, sequences', hsequences, rfl, -⟩ := h
    obtain ⟨-, houtbox⟩ | ⟨hfalse, -⟩ := Table.insertOrIgnore_eq_ok houtbox
    · exact .append event clk row hinsert hrow (by rw [hseq, hcurrent]) houtbox hsequences
    · cases hinserted.symm.trans hfalse

theorem recordEvent_appends [Hashing] {now : Time} {scope : CaseScope} {run_id : Option Identifier}
    {snapshot : Snapshot} {kind : EventType} {event_id : String} {correlation_id : Identifier}
    (h : recordEvent store clk now scope run_id snapshot kind event_id correlation_id = .ok store') :
    store.Appends store' := by
  simp only [recordEvent, bind_eq_ok] at h
  obtain ⟨reference_id, -, id, -, h⟩ := h
  split_ifs at h with hrun
  simp only [ok_iff] at h
  obtain ⟨⟨appended, event, replayed⟩, happend, rfl⟩ := h
  exact appendEvent_appends happend

theorem receiveInbox_eq_ok {db db' : Database} {signal : InboxSignal} {inserted : Bool}
    (h : receiveInbox db signal = .ok (db', inserted)) : ∃ inbox, db' = { db with inbox := inbox } ∧
      (db.inbox.insert signal = .ok inbox ∨ (inbox = db.inbox ∧ signal ∈ db.inbox.rows)) := by
  simp only [receiveInbox, statement_eq_ok, ok_iff] at h
  obtain ⟨⟨inbox, new⟩, hinsert, h⟩ := h
  dsimp only at h
  cases new with
  | true =>
    obtain ⟨-, hinsert⟩ | ⟨hfalse, -⟩ := Table.insertOrIgnore_eq_ok hinsert
    · cases h
      exact ⟨inbox, rfl, .inl hinsert⟩
    · cases hfalse
  | false =>
    rw [if_neg (by simp)] at h
    split at h
    · simp only [ok_iff] at h
      cases h.2
    · rename_i stored hget
      simp only [ok_iff, checkInboxReplay] at h
      obtain ⟨rfl, rfl, -⟩ := h
      exact ⟨db.inbox, rfl, .inr ⟨rfl, Table.mem_of_get hget⟩⟩

end Aftercare
