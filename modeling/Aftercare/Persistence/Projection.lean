import Mathlib.Logic.Relation
import Aftercare.Persistence.Events
import Aftercare.Relational.Numbered

/-!
# The projection repository

For each consumer of a case: the position up to which it has applied the events, the ledger of the applied events,
and a buffer of events that arrived early. `ProjectionStore.Ingests` says once what a call of `ingest` does.
-/

namespace Aftercare

open Relational

/-! ## Tables -/

/-- A row of the applied events, or of the buffer. -/
structure ProjectionRow where
  consumer_id : Identifier
  payload : DomainEvent
deriving DecidableEq

/-- The stream that a row belongs to: a consumer of a case. -/
abbrev StreamKey := CaseScope × Identifier

def ProjectionRow.stream (r : ProjectionRow) : StreamKey := (r.payload.toCaseScope, r.consumer_id)

/-- An event id is unique in its stream, and so is a position. -/
@[simps]
def projectionSchema : Schema ProjectionRow (StreamKey × Identifier) where
  key r := (r.stream, r.payload.event_id)
  clash a b := a.stream == b.stream && a.payload.case_seq == b.payload.case_seq
  check _ := true

def ProjectionPosition.stream (p : ProjectionPosition) : StreamKey := (p.toCaseScope, p.consumer_id)

/-- `aftercare_projection_positions`. -/
@[simps]
def positionSchema : Schema ProjectionPosition StreamKey where
  key := ProjectionPosition.stream
  clash _ _ := false
  check p := decide (p.last_case_seq ≤ maxInt)

structure ProjectionStore where
  positions : Table positionSchema
  (applied buffer : Table projectionSchema)

def ProjectionStore.empty : ProjectionStore := ⟨.empty, .empty, .empty⟩

/-! ## Statements -/

def ensurePosition (store : ProjectionStore) (stream : StreamKey) :
    Result (ProjectionStore × ProjectionPosition) := do
  let (positions, _) ← statement "aftercare_projection_positions" <|
    store.positions.insertOrIgnore ⟨stream.1, stream.2, 0⟩
  let position ← fetch (positions.get stream)
    (.contract .retryable "projection position disappeared")
  pure ({ store with positions := positions }, position)

def eventAtSequence (table : Table projectionSchema) (stream : StreamKey) (case_seq : ℕ) : Option DomainEvent :=
  (table.rows.find? fun r => r.stream == stream && r.payload.case_seq.val == case_seq).map
    (·.payload)

def recordApplied (store : ProjectionStore) (event : DomainEvent) (consumer_id : Identifier) :
    Result ProjectionStore := do
  let applied ← statement "aftercare_projection_applied" (store.applied.insert ⟨consumer_id, event⟩)
  pure { store with applied := applied }

/-- `UPDATE aftercare_projection_positions`. -/
def advancePosition (store : ProjectionStore) (stream : StreamKey) (last_case_seq : ℕ) :
    Result ProjectionStore := do
  let positions ← statement "aftercare_projection_positions" <|
    store.positions.update stream fun p => { p with last_case_seq := last_case_seq }
  pure { store with positions := positions }

/-- `DELETE FROM aftercare_projection_buffer`. -/
def unbuffer (store : ProjectionStore) (stream : StreamKey) (case_seq : ℕ) : ProjectionStore :=
  { store with
    buffer := store.buffer.deleteWhere fun r => r.stream = stream ∧ r.payload.case_seq.val = case_seq }

/-! ## Ingestion -/

/-- The loop of `_drain`, for at most `fuel` rounds. -/
def drainLoop : ℕ → ProjectionStore → ProjectionPosition →
    Result (ProjectionStore × ProjectionPosition × List DomainEvent)
  | 0, store, current => pure (store, current, [])
  | fuel + 1, store, current =>
    match eventAtSequence store.buffer current.stream (current.last_case_seq + 1) with
    | none => pure (store, current, [])
    | some event => do
      require (event.case_seq.val = current.last_case_seq + 1)
        (.contract .conflict "buffer sequence is inconsistent")
      let store ← recordApplied store event current.consumer_id
      let store := unbuffer store current.stream event.case_seq.val
      let current := { current with last_case_seq := event.case_seq.val }
      let store ← advancePosition store current.stream current.last_case_seq
      let (store, current, applied) ← drainLoop fuel store current
      pure (store, current, event :: applied)

/-- `_drain`: every round takes a row out of the buffer. -/
def drain (store : ProjectionStore) (position : ProjectionPosition) :
    Result (ProjectionStore × ProjectionPosition × List DomainEvent) :=
  drainLoop store.buffer.rows.length store position

structure ProjectionIngestResult where
  decision : ProjectionDecision
  applied : List DomainEvent
  position : ProjectionPosition
deriving DecidableEq

/-- The part of `ingest` for an event that neither ledger has. -/
def ingestNew (store : ProjectionStore) (position : ProjectionPosition) (event : DomainEvent)
    (consumer_id : Identifier) : Result (ProjectionStore × ProjectionIngestResult) := do
  let decision ← projectionDecision position event none
  if decision = .bufferGap then do
    let buffer ← statement "aftercare_projection_buffer" (store.buffer.insert ⟨consumer_id, event⟩)
    pure ({ store with buffer := buffer }, ⟨.bufferGap, [], position⟩)
  else do
    let store ← recordApplied store event consumer_id
    let position := { position with last_case_seq := event.case_seq.val }
    let store ← advancePosition store (position.toCaseScope, consumer_id) position.last_case_seq
    let (store, position, drained) ← drain store position
    pure (store, ⟨.apply, event :: drained, position⟩)

/-- `ingest` of an event whose id neither ledger has. -/
def ingestAtSequence (store : ProjectionStore) (position : ProjectionPosition) (event : DomainEvent)
    (consumer_id : Identifier) : Result (ProjectionStore × ProjectionIngestResult) :=
  let stream := (event.toCaseScope, consumer_id)
  match eventAtSequence store.applied stream event.case_seq.val with
  | some stored => do
    require (stored.event_id = event.event_id ∧ stored = event)
      (.contract .conflict "applied sequence conflicts")
    pure (store, ⟨.replay, [], position⟩)
  | none =>
    match eventAtSequence store.buffer stream event.case_seq.val with
    | some stored => do
      require (stored.event_id = event.event_id ∧ stored = event)
        (.contract .conflict "buffer sequence conflicts")
      let (store, current, drained) ← drain store position
      pure (store, ⟨.bufferGap, drained, current⟩)
    | none => ingestNew store position event consumer_id

/-- `ProjectionRepository.ingest`, whose consumer id is a text. -/
def ingest (store : ProjectionStore) (event : DomainEvent) (consumer_id : String) :
    Result (ProjectionStore × ProjectionIngestResult) := do
  require (consumer_id ≠ "") (.contract .invalidInput "consumer_id is required")
  let consumer_id ← identifier "ProjectionPosition" consumer_id
  let stream := (event.toCaseScope, consumer_id)
  let (store, position) ← ensurePosition store stream
  match store.applied.get (stream, event.event_id) with
  | some row => do
    require (row.payload.case_seq = event.case_seq ∧ row.payload = event)
      (.contract .conflict "applied event identity conflicts")
    require (event.case_seq.val ≤ position.last_case_seq)
      (.contract .conflict "projection position trails applied index")
    pure (store, ⟨.replay, [], position⟩)
  | none =>
    match store.buffer.get (stream, event.event_id) with
    | some row => do
      require (row.payload.case_seq = event.case_seq ∧ row.payload = event)
        (.contract .conflict "buffered event identity conflicts")
      let (store, current, drained) ← drain store position
      pure (store, ⟨if drained.any (·.event_id == event.event_id) then .replay else .bufferGap,
        drained, current⟩)
    | none => ingestAtSequence store position event consumer_id

/-! ## What ingestion does -/

/-- One step of the ingestion of `event`. -/
inductive ProjectionStore.IngestStep (event : DomainEvent) (store : ProjectionStore) :
    ProjectionStore → Prop
  /-- A stream starts before its first event. -/
  | start {positions : Table positionSchema} (stream : StreamKey)
      (h : store.positions.insert ⟨stream.1, stream.2, 0⟩ = .ok positions) :
      store.IngestStep event { store with positions := positions }
  /-- The event is buffered. -/
  | buffer {buffer : Table projectionSchema} (consumer_id : Identifier)
      (h : store.buffer.insert ⟨consumer_id, event⟩ = .ok buffer) :
      store.IngestStep event { store with buffer := buffer }
  /-- An event is applied at the position after the last one. -/
  | apply {positions : Table positionSchema} {applied buffer : Table projectionSchema}
      {position : ProjectionPosition} (next : DomainEvent) (consumer_id : Identifier)
      (hnext : next = event ∨ ⟨consumer_id, next⟩ ∈ store.buffer.rows)
      (hposition : store.positions.get (next.toCaseScope, consumer_id) = some position)
      (hseq : next.case_seq.val = position.last_case_seq + 1)
      (happlied : store.applied.insert ⟨consumer_id, next⟩ = .ok applied)
      (hpositions : store.positions.update (next.toCaseScope, consumer_id)
        (fun p => { p with last_case_seq := next.case_seq.val }) = .ok positions)
      (hbuffer : ∀ r ∈ buffer.rows, r ∈ store.buffer.rows) :
      store.IngestStep event ⟨positions, applied, buffer⟩

abbrev ProjectionStore.Ingests (event : DomainEvent) : ProjectionStore → ProjectionStore → Prop :=
  Relation.ReflTransGen (ProjectionStore.IngestStep event)

variable {event : DomainEvent}

theorem eventAtSequence_eq_some {table : Table projectionSchema} {stream : StreamKey} {case_seq : ℕ}
    (h : eventAtSequence table stream case_seq = some event) :
    event.toCaseScope = stream.1 ∧ event.case_seq.val = case_seq ∧ ⟨stream.2, event⟩ ∈ table.rows := by
  simp only [eventAtSequence, Option.map_eq_some_iff] at h
  obtain ⟨⟨consumer_id, payload⟩, hfind, rfl⟩ := h
  have hmem := List.mem_of_find?_eq_some hfind
  have hrow := List.find?_some hfind
  simp only [ProjectionRow.stream, Bool.and_eq_true, beq_iff_eq] at hrow
  obtain ⟨rfl, hseq⟩ := hrow
  exact ⟨rfl, hseq, hmem⟩

variable {store store' : ProjectionStore} {result : ProjectionIngestResult}

theorem ingestStep_of_apply (event : DomainEvent) {recorded advanced : ProjectionStore}
    {next : DomainEvent} {position : ProjectionPosition} {buffer : Table projectionSchema}
    (hscope : next.toCaseScope = position.toCaseScope)
    (hposition : store.positions.get position.stream = some position)
    (hnext : next = event ∨ ⟨position.consumer_id, next⟩ ∈ store.buffer.rows)
    (hseq : next.case_seq.val = position.last_case_seq + 1) (hbuffer : ∀ r ∈ buffer.rows, r ∈ store.buffer.rows)
    (hrecord : recordApplied store next position.consumer_id = .ok recorded)
    (hadvance : advancePosition { recorded with buffer := buffer } position.stream next.case_seq.val = .ok advanced) :
    store.IngestStep event advanced ∧ advanced.buffer = buffer ∧ advanced.positions.get position.stream =
        some { position with last_case_seq := next.case_seq.val } := by
  simp only [recordApplied, ok_iff, statement_eq_ok] at hrecord
  obtain ⟨applied, happlied, rfl⟩ := hrecord
  simp only [advancePosition, ok_iff, statement_eq_ok] at hadvance
  obtain ⟨positions, hpositions, rfl⟩ := hadvance
  have hstream : position.stream = (next.toCaseScope, position.consumer_id) := by
    rw [hscope]; rfl
  refine ⟨?_, rfl, ?_⟩
  · rw [hstream] at hposition hpositions
    exact .apply next position.consumer_id hnext hposition hseq happlied hpositions hbuffer
  · show positions.get position.stream = _
    rw [Table.get_update hpositions, if_pos rfl, hposition]
    rfl

/-- With a round for each row the loop stops only at a gap. -/
theorem drainLoop_spec (event : DomainEvent) {fuel : ℕ} {current current' : ProjectionPosition}
    {applied : List DomainEvent} (hcurrent : store.positions.get current.stream = some current)
    (h : drainLoop fuel store current = .ok (store', current', applied)) :
    ProjectionStore.Ingests event store store' ∧ (store.buffer.rows.length ≤ fuel →
      eventAtSequence store'.buffer current'.stream (current'.last_case_seq + 1) = none) := by
  induction fuel generalizing store current applied with
  | zero =>
    simp only [drainLoop, pure_eq_ok, Prod.mk.injEq] at h
    obtain ⟨rfl, rfl, -⟩ := h
    refine ⟨.refl, fun hfuel => ?_⟩
    rw [eventAtSequence, List.eq_nil_of_length_eq_zero (Nat.le_zero.mp hfuel)]
    rfl
  | succ fuel ih =>
    unfold drainLoop at h
    split at h
    · rename_i hnone
      simp only [pure_eq_ok, Prod.mk.injEq] at h
      obtain ⟨rfl, rfl, -⟩ := h
      exact ⟨.refl, fun _ => hnone⟩
    · rename_i next hnext
      obtain ⟨hscope, -, hmem⟩ := eventAtSequence_eq_some hnext
      simp only [ok_iff, Prod.exists] at h
      obtain ⟨hseq, recorded, hrecord, advanced, hadvance, final, last, later, hrest, rfl, rfl, -⟩ := h
      have hkept : recorded.buffer = store.buffer := by
        simp only [recordApplied, ok_iff, statement_eq_ok] at hrecord
        obtain ⟨_, -, rfl⟩ := hrecord
        rfl
      have hbuffer : ∀ r ∈ (unbuffer recorded current.stream next.case_seq.val).buffer.rows, r ∈ store.buffer.rows := by
        intro r hr
        rw [← hkept]
        exact (Table.mem_deleteWhere.mp hr).1
      obtain ⟨hstep, hbuffered, hposition⟩ := ingestStep_of_apply event hscope hcurrent (.inr hmem)
        hseq hbuffer hrecord hadvance
      obtain ⟨hsteps, hdone⟩ := ih hposition hrest
      refine ⟨.head hstep hsteps, fun hfuel => hdone ?_⟩
      -- The row that was applied is no longer in the buffer, so a round less is enough.
      have hshorter : (unbuffer recorded current.stream next.case_seq.val).buffer.rows.length <
          store.buffer.rows.length := by
        rw [← hkept]
        refine List.length_filter_lt_length_iff_exists.mpr ⟨_, hkept ▸ hmem, ?_⟩
        have hstream : (next.toCaseScope, current.stream.2) = current.stream := by rw [hscope]
        simp [ProjectionRow.stream, hstream]
      rw [hbuffered]
      omega

theorem drain_ingests (event : DomainEvent) {position position' : ProjectionPosition}
    {applied : List DomainEvent} (hposition : store.positions.get position.stream = some position)
    (h : drain store position = .ok (store', position', applied)) :
    ProjectionStore.Ingests event store store' := (drainLoop_spec event hposition h).1

theorem ensurePosition_ingests (event : DomainEvent) {stream : StreamKey} {position : ProjectionPosition}
    (h : ensurePosition store stream = .ok (store', position)) :
    ProjectionStore.Ingests event store store' ∧ position.stream = stream ∧
      store'.positions.get stream = some position := by
  simp only [ensurePosition, ok_iff, statement_eq_ok, Prod.exists] at h
  obtain ⟨positions, inserted, hinsert, found, hget, rfl, rfl⟩ := h
  refine ⟨?_, Table.key_of_get hget, hget⟩
  obtain ⟨-, hinsert⟩ | ⟨-, rfl⟩ := Table.insertOrIgnore_eq_ok hinsert
  · exact .single (.start stream hinsert)
  · exact .refl

theorem projectionDecision_eq_ok {position : ProjectionPosition} {decision : ProjectionDecision}
    (h : projectionDecision position event none = .ok decision) :
    decision = .bufferGap ∨ event.case_seq.val = position.last_case_seq + 1 := by
  simp only [projectionDecision, ok_iff] at h
  obtain ⟨-, h⟩ := h
  split_ifs at h with hle hgap
  · simp only [ok_iff] at h
    cases h.1
  · simp only [ok_iff] at h
    exact .inl h.2.symm
  · exact .inr (not_not.mp hgap)

theorem ingestNew_ingests {position : ProjectionPosition} {consumer_id : Identifier}
    (hstream : position.stream = (event.toCaseScope, consumer_id))
    (hposition : store.positions.get position.stream = some position)
    (h : ingestNew store position event consumer_id = .ok (store', result)) :
    ProjectionStore.Ingests event store store' := by
  obtain ⟨hscope, rfl⟩ := Prod.mk.inj hstream
  simp only [ingestNew, bind_eq_ok] at h
  obtain ⟨decision, hdecision, h⟩ := h
  split_ifs at h with hgap
  · simp only [ok_iff, statement_eq_ok] at h
    obtain ⟨buffer, hinsert, rfl, -⟩ := h
    exact .single (.buffer position.consumer_id hinsert)
  · have hseq := (projectionDecision_eq_ok hdecision).resolve_left hgap
    simp only [ok_iff, Prod.exists] at h
    obtain ⟨recorded, hrecord, advanced, hadvance, final, last, drained, hdrain, rfl, -⟩ := h
    have hkept : recorded.buffer = store.buffer := by
      simp only [recordApplied, ok_iff, statement_eq_ok] at hrecord
      obtain ⟨_, -, rfl⟩ := hrecord
      rfl
    have hbuffer : ∀ r ∈ recorded.buffer.rows, r ∈ store.buffer.rows := by rw [hkept]; simp
    obtain ⟨hstep, -, hnow⟩ := ingestStep_of_apply event hscope.symm hposition (.inl rfl) hseq hbuffer hrecord hadvance
    exact .head hstep (drain_ingests event hnow hdrain)

theorem ingestAtSequence_ingests {position : ProjectionPosition} {consumer_id : Identifier}
    (hstream : position.stream = (event.toCaseScope, consumer_id))
    (hposition : store.positions.get position.stream = some position)
    (h : ingestAtSequence store position event consumer_id = .ok (store', result)) :
    ProjectionStore.Ingests event store store' := by
  unfold ingestAtSequence at h
  dsimp only at h
  split at h
  · simp only [ok_iff] at h
    obtain ⟨-, rfl, -⟩ := h
    exact .refl
  split at h
  · simp only [ok_iff, Prod.exists] at h
    obtain ⟨-, final, last, drained, hdrain, rfl, -⟩ := h
    exact drain_ingests event hposition hdrain
  · exact ingestNew_ingests hstream hposition h

theorem ingest_opened {consumer_id : String} (h : ingest store event consumer_id = .ok (store', result)) :
    ∃ consumer opened position, consumer.val = consumer_id ∧
      ensurePosition store (event.toCaseScope, consumer) = .ok (opened, position) ∧
      ProjectionStore.Ingests event opened store' := by
  simp only [ingest, ok_iff, Prod.exists] at h
  obtain ⟨-, consumer, hconsumer, opened, position, hensure, h⟩ := h
  obtain ⟨-, hstream, hposition⟩ := ensurePosition_ingests event hensure
  rw [← hstream] at hposition
  refine ⟨consumer, opened, position, identifier_eq_ok.mp hconsumer, hensure, ?_⟩
  split at h
  · simp only [ok_iff] at h
    obtain ⟨-, -, rfl, -⟩ := h
    exact .refl
  split at h
  · simp only [ok_iff, Prod.exists] at h
    obtain ⟨-, final, last, drained, hdrain, rfl, -⟩ := h
    exact drain_ingests event hposition hdrain
  · exact ingestAtSequence_ingests hstream hposition h

theorem ingest_ingests {consumer_id : String} (h : ingest store event consumer_id = .ok (store', result)) :
    ProjectionStore.Ingests event store store' := by
  obtain ⟨consumer, opened, position, -, hensure, hsteps⟩ := ingest_opened h
  exact (ensurePosition_ingests event hensure).1.trans hsteps

/-! ## Ledgers -/

/-- The position up to which a stream has been applied. -/
def ProjectionStore.position (store : ProjectionStore) (stream : StreamKey) : ℕ :=
  ((store.positions.get stream).map (·.last_case_seq)).getD 0

/-- The events that a stream has applied, in order. -/
def ProjectionStore.ledger (store : ProjectionStore) (stream : StreamKey) : List DomainEvent :=
  (store.applied.select fun r => r.stream = stream).map (·.payload)

def DomainEvent.position (e : DomainEvent) : ℕ := e.case_seq.val

/-- Each stream has applied a part of its log, and buffers entries of the logs. -/
structure ProjectionStore.Follows (log : CaseScope → List DomainEvent) (store : ProjectionStore) :
    Prop where
  ledger : ∀ stream, store.ledger stream = (log stream.1).take (store.position stream)
  bounded : ∀ stream, store.position stream ≤ (log stream.1).length
  buffered : ∀ r ∈ store.buffer.rows, r.payload ∈ log r.payload.toCaseScope

theorem ProjectionStore.follows_empty (log : CaseScope → List DomainEvent) : ProjectionStore.empty.Follows log :=
  ⟨fun _ => rfl, fun _ => Nat.zero_le _, fun r hr => by cases hr⟩

theorem ProjectionStore.Follows.mono {log log' : CaseScope → List DomainEvent} (h : store.Follows log)
    (hlog : ∀ scope, log scope <+: log' scope) : store.Follows log' := by
  refine ⟨fun stream => ?_, fun stream => ?_, fun r hr => ?_⟩
  · rw [take_of_grows (hlog stream.1) (h.bounded stream)]
    exact h.ledger stream
  · exact (h.bounded stream).trans (hlog stream.1).length_le
  · exact (hlog _).subset (h.buffered r hr)

/-- **One step of an ingestion** goes on to follow the logs. -/
theorem ProjectionStore.Follows.step {log : CaseScope → List DomainEvent} {event : DomainEvent}
    (h : store.Follows log) (hlog : ∀ scope, Numbered DomainEvent.position (log scope))
    (hevent : event ∈ log event.toCaseScope) (hstep : store.IngestStep event store') : store'.Follows log := by
  cases hstep with
  | @start positions stream hinsert =>
    have hsame : ∀ other, ProjectionStore.position { store with positions := positions } other =
        store.position other := by
      intro other
      have hnone := Table.get_none_of_insert hinsert
      unfold ProjectionStore.position
      rw [Table.get_insert hinsert]
      split_ifs with heq
      · rw [heq, hnone]
        rfl
      · rfl
    refine ⟨fun other => ?_, fun other => ?_, h.buffered⟩
    · rw [hsame]
      exact h.ledger other
    · rw [hsame]
      exact h.bounded other
  | buffer consumer_id hinsert =>
    refine ⟨h.ledger, h.bounded, fun r hr => ?_⟩
    rcases (Table.mem_insert hinsert).mp hr with hr | rfl
    · exact h.buffered r hr
    · exact hevent
  | @apply positions applied buffer position next consumer_id hnext hposition hseq happlied hpositions hbuffer =>
    have hmem : next ∈ log next.toCaseScope := by
      rcases hnext with rfl | hbuffered
      · exact hevent
      · exact h.buffered _ hbuffered
    have hbefore : store.position (next.toCaseScope, consumer_id) = position.last_case_seq := by
      rw [ProjectionStore.position, hposition]
      rfl
    obtain ⟨htake, hlength⟩ := (hlog next.toCaseScope).take_succ hmem hseq
    have hpos : ∀ stream, ProjectionStore.position ⟨positions, applied, buffer⟩ stream =
        if stream = (next.toCaseScope, consumer_id) then position.last_case_seq + 1
        else store.position stream := by
      intro stream
      unfold ProjectionStore.position
      rw [Table.get_update hpositions]
      split_ifs with heq
      · rw [hposition, ← hseq]
        rfl
      · rfl
    have hledger : ∀ stream, ProjectionStore.ledger ⟨positions, applied, buffer⟩ stream =
        if stream = (next.toCaseScope, consumer_id) then store.ledger stream ++ [next]
        else store.ledger stream := by
      intro stream
      obtain ⟨-, -, hrows⟩ := Table.insert_eq_ok happlied
      unfold ProjectionStore.ledger Table.select
      rw [hrows, List.filter_append, List.map_append]
      split_ifs with heq
      · simp [ProjectionRow.stream, heq]
      · simp [ProjectionRow.stream, Ne.symm heq]
    refine ⟨fun stream => ?_, fun stream => ?_, fun r hr => h.buffered r (hbuffer r hr)⟩
    · rw [hledger, hpos]
      split_ifs with heq
      · rw [h.ledger, heq, hbefore, htake]
      · exact h.ledger stream
    · rw [hpos]
      split_ifs with heq
      · rw [heq]
        exact hlength
      · exact h.bounded stream

/-- **A whole ingestion** goes on to follow the logs. -/
theorem ProjectionStore.Follows.ingests {log : CaseScope → List DomainEvent} (h : store.Follows log)
    (hlog : ∀ scope, Numbered DomainEvent.position (log scope)) (hevent : event ∈ log event.toCaseScope)
    (hsteps : ProjectionStore.Ingests event store store') :
    store'.Follows log := by
  induction hsteps with
  | refl => exact h
  | tail _ hlast ih => exact ih.step hlog hevent hlast

end Aftercare
