import Aftercare.Persistence.Events

/-!
# Delivery of the outbox

The methods that a publisher calls: `claim_outbox` leases due events, `ack_outbox` marks one as delivered,
`retry_outbox` releases one. The attempt number of a lease is its token. None of them appends, removes or changes
an event (`EventStore.Redelivers`).
-/

namespace Aftercare

open Relational

structure OutboxDelivery where
  event : DomainEvent
  attempts : ℕ
  owner : String
  lease_until : Time
deriving DecidableEq

def maxOutboxBatch : ℤ := 500

/-! ## Claims -/

/-- What `claim_outbox` selects by, with two readings of the clock. -/
def OutboxRow.due (r : OutboxRow) (t : ℕ → Time) : Bool :=
  (r.delivery_state == .pending && decide (r.next_attempt_at ≤ t 0)) ||
    (r.delivery_state == .claimed && r.delivery_lease_until.any (· ≤ t 1))

/-- The `ORDER BY` clause of `claim_outbox`. -/
def deliverBefore (a b : OutboxRow) : Bool :=
  ((compare a.next_attempt_at b.next_attempt_at).then ((compare a.recorded_at b.recorded_at).then
    (compare a.payload.event_id.val b.payload.event_id.val))).isLE

/-- Due events of the tenant that no other transaction has locked. -/
def outboxCandidates (store : EventStore) (readings : Identifier × Identifier → ℕ → Time)
    (locked : Identifier × Identifier → Bool) (tenant_id : String) (limit : ℕ) : List OutboxRow :=
  ((store.outbox.select fun r => r.payload.tenant_id.val == tenant_id &&
    r.due (readings r.payload.key) && !locked r.payload.key).insertionSort
      fun a b => deliverBefore a b = true).take limit

def OutboxRow.claimed (owner : String) (leaseUntil : Time) (r : OutboxRow) : OutboxRow :=
  { r with
    delivery_state := .claimed, delivery_owner := some owner
    delivery_lease_until := some leaseUntil, delivery_attempts := r.delivery_attempts + 1
    last_error := none }

/-- The update of the candidates, each with its own reading. -/
def claimRows (owner : String) (lease : ℤ) : List OutboxRow → Table outboxSchema → Clock Time →
      Result (Table outboxSchema × List OutboxDelivery)
  | [], outbox, _ => pure (outbox, [])
  | row :: rest, outbox, clk => do
    let leaseUntil := clk.read 0 + lease
    let outbox ← statement "aftercare_outbox" <|
      outbox.update row.payload.key (OutboxRow.claimed owner leaseUntil)
    let (outbox, deliveries) ← claimRows owner lease rest outbox (clk.drop 1)
    pure (outbox, ⟨row.payload, row.delivery_attempts + 1, owner, leaseUntil⟩ :: deliveries)

/-- `EventRepository.claim_outbox`, which reads the clock for each row. -/
def claimOutbox (store : EventStore) (clk : Clock Time)
    (readings : Identifier × Identifier → ℕ → Time) (locked : Identifier × Identifier → Bool)
    (tenant_id owner : String) (lease limit : ℤ) : Result (EventStore × List OutboxDelivery) := do
  require (owner ≠ "" ∧ 1 ≤ limit ∧ limit ≤ maxOutboxBatch)
    (.contract .invalidInput "outbox owner and limit between 1 and 500 required")
  require (0 < lease) (.contract .invalidInput "outbox lease must be positive")
  let candidates := outboxCandidates store
    (fun k i => between (clk.read 0) (clk.read 1) (readings k i)) locked tenant_id limit.toNat
  let (outbox, deliveries) ← claimRows owner lease candidates store.outbox (clk.drop 2)
  pure ({ store with outbox := outbox }, deliveries)

/-! ## Acknowledgements and retries -/

/-- The row is leased for this delivery and the lease has not ended. -/
def OutboxRow.leasedFor (delivery : OutboxDelivery) (t : Time) (r : OutboxRow) : Bool :=
  r.delivery_state == .claimed && r.delivery_owner == some delivery.owner &&
    r.delivery_attempts == delivery.attempts && r.delivery_lease_until.any (t < ·)

def OutboxRow.acknowledged (delivered_at : Time) (r : OutboxRow) : OutboxRow :=
  { r with
    delivery_state := .acked, delivery_owner := none, delivery_lease_until := none
    delivered_at := some delivered_at, last_error := none }

def ackOutbox (store : EventStore) (clk : Clock Time) (delivery : OutboxDelivery)
    (delivered_at : Time) : Result (EventStore × Bool) :=
  let row := store.outbox.get delivery.event.key
  match row.filter (·.leasedFor delivery (clk.read 0)) with
  | some _ => do
    let outbox ← statement "aftercare_outbox" <|
      store.outbox.update delivery.event.key (OutboxRow.acknowledged delivered_at)
    pure ({ store with outbox := outbox }, true)
  | none => do
    require (row.any (·.delivery_state == .acked) = true)
      (.contract .leaseLost "outbox acknowledgement lease was lost")
    pure (store, false)

def OutboxRow.released (next_attempt_at : Time) (error : String) (r : OutboxRow) : OutboxRow :=
  { r with
    delivery_state := .pending, delivery_owner := none, delivery_lease_until := none
    next_attempt_at := next_attempt_at, last_error := some error }

def retryOutbox (store : EventStore) (clk : Clock Time) (delivery : OutboxDelivery) (error : String)
    (delay : ℤ) : Result (EventStore × Bool) := do
  require (0 ≤ delay) (.contract .invalidInput "outbox retry delay cannot be negative")
  let row := store.outbox.get delivery.event.key
  match row.filter (·.leasedFor delivery (clk.read 0)) with
  | some _ => do
    let outbox ← statement "aftercare_outbox" <| store.outbox.update delivery.event.key
      (OutboxRow.released (clk.read 1 + delay) (String.ofList (error.toList.take 2000)))
    pure ({ store with outbox := outbox }, true)
  | none => do
    require (row.any (·.delivery_state == .acked) = false)
      (.contract .conflict "cannot retry an acknowledged outbox event")
    .error (.contract .leaseLost "outbox retry lease was lost")

/-! ## What delivery does -/

/-- The events stay, and only those acknowledged become `ACKED`. -/
structure Redelivers (acknowledged : DomainEvent → Prop) (outbox outbox' : Table outboxSchema) :
    Prop where
  events : outbox'.rows.map (·.payload) = outbox.rows.map (·.payload)
  acked : ∀ row' ∈ outbox'.rows, row'.delivery_state = .acked →
    ∃ row ∈ outbox.rows, row.payload = row'.payload ∧ (row.delivery_state = .acked ∨
      row.delivery_state = .claimed ∧ acknowledged row.payload)

variable {acknowledged : DomainEvent → Prop}

theorem Redelivers.refl (outbox : Table outboxSchema) : Redelivers acknowledged outbox outbox :=
  ⟨rfl, fun row hrow hacked => ⟨row, hrow, rfl, .inl hacked⟩⟩

theorem Redelivers.trans {a b c : Table outboxSchema} (h : Redelivers acknowledged a b)
    (h' : Redelivers (fun _ => False) b c) : Redelivers acknowledged a c := by
  refine ⟨h'.events.trans h.events, fun row' hrow' hacked => ?_⟩
  obtain ⟨row, hrow, hpayload, hstate | ⟨-, hfalse⟩⟩ := h'.acked row' hrow' hacked
  · obtain ⟨first, hfirst, hsame, hbefore⟩ := h.acked row hrow hstate
    exact ⟨first, hfirst, hsame.trans hpayload, hbefore⟩
  · exact hfalse.elim

theorem Redelivers.of_update {outbox outbox' : Table outboxSchema} {k : Identifier × Identifier}
    {f : OutboxRow → OutboxRow} {row : OutboxRow} (hget : outbox.get k = some row)
    (hpayload : (f row).payload = row.payload)
    (hacked : (f row).delivery_state = .acked → row.delivery_state = .claimed ∧ acknowledged row.payload)
    (h : outbox.update k f = .ok outbox') : Redelivers acknowledged outbox outbox' := by
  refine ⟨Table.map_update hget hpayload h, fun row' hrow' hstate => ?_⟩
  rcases (Table.mem_update hget h).mp hrow' with ⟨hold, -⟩ | rfl
  · exact ⟨row', hold, rfl, .inl hstate⟩
  · exact ⟨row, Table.mem_of_get hget, hpayload.symm, .inr (hacked hstate)⟩

variable {clk : Clock Time} {store store' : EventStore}

theorem claimRows_redelivers {owner : String} {lease : ℤ} {rows : List OutboxRow}
    {outbox outbox' : Table outboxSchema} {deliveries : List OutboxDelivery}
    (h : claimRows owner lease rows outbox clk = .ok (outbox', deliveries)) :
    Redelivers (fun _ => False) outbox outbox' ∧ deliveries.map (·.event) = rows.map (·.payload) := by
  induction rows generalizing outbox clk deliveries with
  | nil =>
    simp only [claimRows, pure_eq_ok, Prod.mk.injEq] at h
    obtain ⟨rfl, rfl⟩ := h
    exact ⟨.refl outbox, rfl⟩
  | cons row rest ih =>
    simp only [claimRows, ok_iff, statement_eq_ok, Prod.exists] at h
    obtain ⟨next, hupdate, final, later, hrest, rfl, rfl⟩ := h
    obtain ⟨hlater, hevents⟩ := ih hrest
    refine ⟨?_, congrArg _ hevents⟩
    cases hget : outbox.get row.payload.key with
    | none => rwa [Table.update_of_none hget hupdate] at hlater
    | some old =>
      have hfirst : Redelivers (fun _ => False) outbox next :=
        .of_update hget rfl (fun hstate => by cases hstate) hupdate
      exact hfirst.trans hlater

theorem claimOutbox_redelivers {readings : Identifier × Identifier → ℕ → Time}
    {locked : Identifier × Identifier → Bool} {tenant_id owner : String} {lease limit : ℤ}
    {deliveries : List OutboxDelivery}
    (h : claimOutbox store clk readings locked tenant_id owner lease limit = .ok (store', deliveries)) :
    ∃ outbox, store' = { store with outbox := outbox } ∧ Redelivers (fun _ => False) store.outbox outbox ∧
      ∀ d ∈ deliveries, d.event ∈ store.outbox.rows.map (·.payload) := by
  simp only [claimOutbox, ok_iff, Prod.exists] at h
  obtain ⟨-, -, outbox, returned, hrows, rfl, rfl⟩ := h
  obtain ⟨hredelivers, hevents⟩ := claimRows_redelivers hrows
  refine ⟨outbox, rfl, hredelivers, fun d hd => ?_⟩
  have hmem : d.event ∈ returned.map (·.event) := List.mem_map_of_mem hd
  rw [hevents] at hmem
  obtain ⟨row, hrow, heq⟩ := List.mem_map.mp hmem
  have hselected := (List.mem_insertionSort _).mp (List.mem_of_mem_take hrow)
  exact List.mem_map.mpr ⟨row, (List.mem_filter.mp hselected).1, heq⟩

theorem ackOutbox_redelivers {delivery : OutboxDelivery} {delivered_at : Time} {updated : Bool}
    (h : ackOutbox store clk delivery delivered_at = .ok (store', updated)) :
    ∃ outbox, store' = { store with outbox := outbox } ∧
      Redelivers (fun e => e.key = delivery.event.key) store.outbox outbox := by
  unfold ackOutbox at h
  dsimp only at h
  split at h
  · rename_i row hrow
    simp only [ok_iff, statement_eq_ok] at h
    obtain ⟨outbox, hupdate, rfl, -⟩ := h
    obtain ⟨hget, hleased⟩ := Option.filter_eq_some_iff.mp hrow
    simp only [OutboxRow.leasedFor, Bool.and_eq_true, beq_iff_eq] at hleased
    exact ⟨outbox, rfl, .of_update hget rfl (fun _ => ⟨hleased.1.1.1, Table.key_of_get hget⟩) hupdate⟩
  · simp only [ok_iff] at h
    obtain ⟨-, rfl, -⟩ := h
    exact ⟨store.outbox, rfl, .refl store.outbox⟩

theorem retryOutbox_redelivers {delivery : OutboxDelivery} {error : String} {delay : ℤ} {updated : Bool}
    (h : retryOutbox store clk delivery error delay = .ok (store', updated)) :
    ∃ outbox, store' = { store with outbox := outbox } ∧ Redelivers (fun _ => False) store.outbox outbox := by
  simp only [retryOutbox, ok_iff] at h
  obtain ⟨-, h⟩ := h
  split at h
  · rename_i row hrow
    simp only [ok_iff, statement_eq_ok] at h
    obtain ⟨outbox, hupdate, rfl, -⟩ := h
    obtain ⟨hget, -⟩ := Option.filter_eq_some_iff.mp hrow
    exact ⟨outbox, rfl, .of_update hget rfl (fun hstate => by cases hstate) hupdate⟩
  · simp only [ok_iff] at h
    cases h.2

end Aftercare
