import Aftercare.System.Pipeline

/-!
# Fencing of outbox deliveries

Publishers lease events with `claim_outbox` and end a lease with `ack_outbox` or `retry_outbox`, in any order and
with any delivery they like. `RowStep` says once what a call does to the row of an event; a claim raises the attempt
number, so the deliveries returned before are fenced off (`Fenced`).
-/

namespace Aftercare

open Relational

variable {owner : String} {lease : ℤ} {rows : List OutboxRow} {deliveries : List OutboxDelivery}
  {t t₀ : Time} {updated : Bool} {d : OutboxDelivery} {row' : OutboxRow}

/-- A call of a publisher, or of a transaction that appends. -/
inductive DeliveryCall
  | claim (readings : Identifier × Identifier → ℕ → Time) (locked : Identifier × Identifier → Bool)
      (tenant_id owner : String) (lease limit : ℤ)
  | ack (delivery : OutboxDelivery) (delivered_at : Time)
  | retry (delivery : OutboxDelivery) (error : String) (delay : ℤ)
  | appendEvent (draft : DomainEventDraft) (snapshot : Option Snapshot)
  | appendOutbox (event : DomainEvent)

/-- The calls, with the deliveries that they return. -/
def deliver [Hashing] : Engine EventStore Time DeliveryCall (List OutboxDelivery) Failure :=
  fun store clk call =>
    match call with
    | .claim readings locked tenant_id owner lease limit =>
      claimOutbox store clk readings locked tenant_id owner lease limit
    | .ack delivery delivered_at => do
      let (store, _) ← ackOutbox store clk delivery delivered_at
      pure (store, [])
    | .retry delivery error delay => do
      let (store, _) ← retryOutbox store clk delivery error delay
      pure (store, [])
    | .appendEvent draft snapshot => do
      let (store, _) ← Aftercare.appendEvent store clk draft snapshot
      pure (store, [])
    | .appendOutbox event => do
      let (store, _) ← Aftercare.appendOutbox store clk event
      pure (store, [])

/-! ## One row -/

def OutboxRow.delivery (r : OutboxRow) (owner : String) (leaseUntil : Time) : OutboxDelivery :=
  ⟨r.payload, r.delivery_attempts + 1, owner, leaseUntil⟩

/-- What a call does to a row, and the deliveries it returns. -/
inductive RowStep (row : OutboxRow) : OutboxRow → List OutboxDelivery → Prop
  | same : RowStep row row []
  | claim (owner : String) (leaseUntil : Time) (hstate : row.delivery_state ≠ .acked) :
      RowStep row (row.claimed owner leaseUntil) [row.delivery owner leaseUntil]
  | ack (delivery : OutboxDelivery) (t delivered_at : Time) (hleased : row.leasedFor delivery t = true) :
      RowStep row (row.acknowledged delivered_at) []
  | retry (delivery : OutboxDelivery) (t next_attempt_at : Time) (error : String)
      (hleased : row.leasedFor delivery t = true) : RowStep row (row.released next_attempt_at error) []

def deliveriesOf (k : Identifier × Identifier) (deliveries : List OutboxDelivery) : List OutboxDelivery :=
  deliveries.filter fun d => d.event.key = k

/-- A step of every row, and nothing else is returned. -/
structure OutboxStep (outbox outbox' : Table outboxSchema) (deliveries : List OutboxDelivery) : Prop where
  row : ∀ k row, outbox.get k = some row → ∃ row', outbox'.get k = some row' ∧
    RowStep row row' (deliveriesOf k deliveries)
  absent : ∀ k, outbox.get k = none → deliveriesOf k deliveries = []

section

variable {outbox outbox' : Table outboxSchema} {row : OutboxRow} {k : Identifier × Identifier}

theorem OutboxStep.refl (outbox : Table outboxSchema) : OutboxStep outbox outbox [] :=
  ⟨fun _ row hget => ⟨row, hget, .same⟩, fun _ _ => rfl⟩

theorem OutboxStep.of_update {f : OutboxRow → OutboxRow} (hget : outbox.get k = some row)
    (h : outbox.update k f = .ok outbox') (hstep : RowStep row (f row) []) : OutboxStep outbox outbox' [] := by
  refine ⟨fun k' row' hrow' => ?_, fun _ _ => rfl⟩
  rw [Table.get_update h]
  split_ifs with hsame
  · rw [hsame, hget] at hrow'
    obtain rfl := Option.some.inj hrow'
    exact ⟨f row, congrArg (Option.map f) hget, hstep⟩
  · exact ⟨row', hrow', .same⟩

theorem OutboxStep.of_insert (h : outbox.insert row = .ok outbox') : OutboxStep outbox outbox' [] := by
  refine ⟨fun k' row' hrow' => ⟨row', ?_, .same⟩, fun _ _ => rfl⟩
  rw [Table.get_insert h, if_neg fun hsame => ?_]
  · exact hrow'
  · rw [hsame, Table.get_none_of_insert h] at hrow'
    cases hrow'

theorem claimRows_others {clk : Clock Time} (hother : ∀ row ∈ rows, row.payload.key ≠ k)
    (h : claimRows owner lease rows outbox clk = .ok (outbox', deliveries)) :
    outbox'.get k = outbox.get k ∧ deliveriesOf k deliveries = [] := by
  induction rows generalizing outbox clk deliveries with
  | nil =>
    simp only [claimRows, pure_eq_ok, Prod.mk.injEq] at h
    obtain ⟨rfl, rfl⟩ := h
    exact ⟨rfl, rfl⟩
  | cons row rest ih =>
    simp only [claimRows, ok_iff, statement_eq_ok, Prod.exists] at h
    obtain ⟨next, hupdate, final, later, hrest, rfl, rfl⟩ := h
    have hrow := hother row List.mem_cons_self
    obtain ⟨hget, hnone⟩ := ih (fun row' hrow' => hother row' (List.mem_cons_of_mem _ hrow')) hrest
    refine ⟨hget.trans ?_, ?_⟩
    · rw [Table.get_update hupdate, if_neg hrow.symm]
    · rw [deliveriesOf, List.filter_cons_of_neg (by simpa using hrow)]
      exact hnone

theorem claimRows_step {clk : Clock Time}
    (hrows : ∀ row ∈ rows, outbox.get row.payload.key = some row ∧ row.delivery_state ≠ .acked)
    (hdistinct : rows.Pairwise (·.payload.key ≠ ·.payload.key))
    (h : claimRows owner lease rows outbox clk = .ok (outbox', deliveries)) :
    OutboxStep outbox outbox' deliveries := by
  induction rows generalizing outbox clk deliveries with
  | nil =>
    simp only [claimRows, pure_eq_ok, Prod.mk.injEq] at h
    obtain ⟨rfl, rfl⟩ := h
    exact .refl outbox
  | cons row rest ih =>
    simp only [claimRows, ok_iff, statement_eq_ok, Prod.exists] at h
    obtain ⟨next, hupdate, final, later, hrest, rfl, rfl⟩ := h
    obtain ⟨hget, hstate⟩ := hrows row List.mem_cons_self
    have hother : ∀ row' ∈ rest, row'.payload.key ≠ row.payload.key :=
      fun row' hrow' => (List.rel_of_pairwise_cons hdistinct hrow').symm
    have hstep := ih (fun row' hrow' => by
      rw [Table.get_update hupdate, if_neg (hother row' hrow')]
      exact hrows row' (List.mem_cons_of_mem _ hrow')) hdistinct.of_cons hrest
    have hskip : ∀ {k}, row.payload.key ≠ k → ∀ d : OutboxDelivery, d.event = row.payload →
        deliveriesOf k (d :: later) = deliveriesOf k later := fun hne d hd =>
      List.filter_cons_of_neg (by simpa [hd] using hne)
    refine ⟨fun k row' hrow' => ?_, fun k hnone => ?_⟩
    · by_cases hsame : row.payload.key = k
      · -- the row is claimed first, and the later claims are of other rows
        subst hsame
        obtain rfl := Option.some.inj (hget.symm.trans hrow')
        obtain ⟨hkept, hnothing⟩ := claimRows_others hother hrest
        refine ⟨row.claimed owner (clk.read 0 + lease), ?_, ?_⟩
        · rw [hkept, Table.get_update hupdate, if_pos rfl, hget]
          rfl
        · rw [deliveriesOf, List.filter_cons_of_pos (by simp)]
          change RowStep row _ (_ :: deliveriesOf row.payload.key later)
          rw [hnothing]
          exact .claim owner _ hstate
      · rw [hskip hsame _ rfl]
        refine hstep.row k row' ?_
        rw [Table.get_update hupdate, if_neg (Ne.symm hsame)]
        exact hrow'
    · have hne : row.payload.key ≠ k := fun hsame => by
        rw [← hsame, hget] at hnone
        cases hnone
      rw [hskip hne _ rfl]
      refine hstep.absent k ?_
      rw [Table.get_update hupdate, if_neg hne.symm]
      exact hnone

variable {store store' : EventStore} {clk : Clock Time}

theorem claimOutbox_step {readings : Identifier × Identifier → ℕ → Time}
    {locked : Identifier × Identifier → Bool} {tenant_id : String} {limit : ℤ}
    (h : claimOutbox store clk readings locked tenant_id owner lease limit = .ok (store', deliveries)) :
    OutboxStep store.outbox store'.outbox deliveries := by
  simp only [claimOutbox, ok_iff, Prod.exists] at h
  obtain ⟨-, -, outbox, returned, hrows, rfl, rfl⟩ := h
  refine claimRows_step (fun row hrow => ?_) ?_ hrows
  · have hselected := (List.mem_insertionSort _).mp (List.mem_of_mem_take hrow)
    obtain ⟨hmem, hdue⟩ := List.mem_filter.mp hselected
    refine ⟨Table.get_of_mem hmem, fun hacked => ?_⟩
    simp [OutboxRow.due, hacked] at hdue
  · have hapart : store.outbox.rows.Pairwise (·.payload.key ≠ ·.payload.key) :=
      store.outbox.apart.imp fun hapart => hapart.1
    refine List.Pairwise.sublist (List.take_sublist _ _) ?_
    exact ((List.perm_insertionSort _ _).pairwise_iff fun hne => hne.symm).mpr (hapart.filter _)

variable {delivery : OutboxDelivery}

theorem leased_of_filter (h : (store.outbox.get k).filter (·.leasedFor delivery t) = some row) :
    store.outbox.get k = some row ∧ row.leasedFor delivery t = true :=
  Option.filter_eq_some_iff.mp h

theorem ackOutbox_step {delivered_at : Time} (h : ackOutbox store clk delivery delivered_at = .ok (store', updated)) :
    OutboxStep store.outbox store'.outbox [] := by
  unfold ackOutbox at h
  dsimp only at h
  split at h
  · rename_i row hrow
    simp only [ok_iff, statement_eq_ok] at h
    obtain ⟨outbox, hupdate, rfl, -⟩ := h
    obtain ⟨hget, hleased⟩ := leased_of_filter hrow
    exact .of_update hget hupdate (.ack delivery (clk.read 0) delivered_at hleased)
  · simp only [ok_iff] at h
    obtain ⟨-, rfl, -⟩ := h
    exact .refl store.outbox

theorem retryOutbox_step {error : String} {delay : ℤ}
    (h : retryOutbox store clk delivery error delay = .ok (store', updated)) :
    OutboxStep store.outbox store'.outbox [] := by
  simp only [retryOutbox, ok_iff] at h
  obtain ⟨-, h⟩ := h
  split at h
  · rename_i row hrow
    simp only [ok_iff, statement_eq_ok] at h
    obtain ⟨outbox, hupdate, rfl, -⟩ := h
    obtain ⟨hget, hleased⟩ := leased_of_filter hrow
    exact .of_update hget hupdate (.retry delivery (clk.read 0) _ _ hleased)
  · simp only [ok_iff] at h
    cases h.2

theorem EventStore.Appends.outboxStep (h : store.Appends store') : OutboxStep store.outbox store'.outbox [] := by
  cases h with
  | lock scope _ => exact .refl store.outbox
  | append event clk row _ _ _ houtbox _ => exact .of_insert houtbox

/-- **One call** makes a step of every row. -/
theorem deliver_step [Hashing] {call : DeliveryCall} (h : deliver store clk call = .ok (store', deliveries)) :
    OutboxStep store.outbox store'.outbox deliveries := by
  unfold deliver at h
  match call with
  | .claim readings locked tenant_id owner lease limit => exact claimOutbox_step h
  | .ack delivery delivered_at =>
    simp only [ok_iff, Prod.exists] at h
    obtain ⟨_, _, hack, rfl, rfl⟩ := h
    exact ackOutbox_step hack
  | .retry delivery error delay =>
    simp only [ok_iff, Prod.exists] at h
    obtain ⟨_, _, hretry, rfl, rfl⟩ := h
    exact retryOutbox_step hretry
  | .appendEvent draft snapshot =>
    simp only [ok_iff, Prod.exists] at h
    obtain ⟨_, _, _, happend, rfl, rfl⟩ := h
    exact (appendEvent_appends happend).outboxStep
  | .appendOutbox event =>
    simp only [ok_iff, Prod.exists] at h
    obtain ⟨_, _, happend, rfl, rfl⟩ := h
    exact (appendOutbox_appends happend).outboxStep

/-! ## Runs -/

/-- A history of deliveries, from an outbox in any state. -/
abbrev DeliveryHistory [Hashing] (start : EventStore)
    (h : List (Transaction EventStore Time DeliveryCall (List OutboxDelivery) Failure))
    (t₀ : Time) (store : EventStore) (t : Time) : Prop := Runs deliver start t₀ h store t

def returnedBy (τ : Transaction EventStore Time DeliveryCall (List OutboxDelivery) Failure) :
    List OutboxDelivery :=
  match τ.outcome with
  | .ok (_, deliveries) => deliveries
  | .error _ => []

/-- The deliveries that a history returned, the newest ones first. -/
def returnedIn (h : List (Transaction EventStore Time DeliveryCall (List OutboxDelivery) Failure)) :
    List OutboxDelivery := h.flatMap returnedBy

/-- The last delivery of the row, with its lease; or there was a later one. -/
def OutboxDelivery.FencedBy (d : OutboxDelivery) (row : OutboxRow) : Prop :=
  d.attempts ≤ row.delivery_attempts ∧ (d.attempts = row.delivery_attempts → row.delivery_state = .claimed →
      row.delivery_owner = some d.owner ∧ row.delivery_lease_until = some d.lease_until)

/-- Each delivery is fenced, and later ones have larger numbers. -/
structure Fenced (deliveries : List OutboxDelivery) (store : EventStore) : Prop where
  fenced : ∀ d ∈ deliveries, ∃ row, store.outbox.get d.event.key = some row ∧ d.FencedBy row
  increasing : deliveries.Pairwise fun d d' => d.event.key = d'.event.key → d'.attempts < d.attempts

theorem Fenced.attempts_ne (h : Fenced deliveries store) {d' : OutboxDelivery} (hd : d ∈ deliveries)
    (hd' : d' ∈ deliveries) (hne : d ≠ d') (hsame : d.event.key = d'.event.key) : d.attempts ≠ d'.attempts := by
  let Different (d d' : OutboxDelivery) : Prop := d.event.key = d'.event.key → d.attempts ≠ d'.attempts
  have : Std.Symm Different := ⟨fun _ _ hdifferent hkey => (hdifferent hkey.symm).symm⟩
  have hdifferent : deliveries.Pairwise Different := h.increasing.imp fun hlt hkey => (hlt hkey).ne'
  exact hdifferent.forall hd hd' hne hsame

theorem OutboxDelivery.FencedBy.step {d : OutboxDelivery} {row row' : OutboxRow}
    {deliveries : List OutboxDelivery} (h : d.FencedBy row) (hstep : RowStep row row' deliveries) :
    d.FencedBy row' := by
  cases hstep with
  | same => exact h
  | claim owner leaseUntil _ =>
    refine ⟨h.1.trans (Nat.le_succ _), fun hsame => ?_⟩
    have hnext : d.attempts = row.delivery_attempts + 1 := hsame
    have := h.1
    omega
  | ack delivery t delivered_at _ => exact ⟨h.1, fun _ hstate => by cases hstate⟩
  | retry delivery t next_attempt_at error _ => exact ⟨h.1, fun _ hstate => by cases hstate⟩

theorem RowStep.returned {row : OutboxRow} (h : RowStep row row' deliveries) (hd : d ∈ deliveries) :
    d.FencedBy row' ∧ d.attempts = row.delivery_attempts + 1 ∧ row.delivery_state ≠ .acked := by
  cases h with
  | claim owner leaseUntil hstate =>
    obtain rfl := List.mem_singleton.mp hd
    exact ⟨⟨le_rfl, fun _ _ => ⟨rfl, rfl⟩⟩, rfl, hstate⟩
  | same => cases hd
  | ack => cases hd
  | retry => cases hd

theorem OutboxStep.pairwise (h : OutboxStep outbox outbox' deliveries) :
    deliveries.Pairwise (·.event.key ≠ ·.event.key) := by
  rw [List.pairwise_iff_forall_sublist]
  intro d d' hsublist hsame
  -- both are deliveries of one event, of which a step returns at most one
  have hboth : [d, d'].Sublist (deliveriesOf d'.event.key deliveries) := by
    have hfilter := hsublist.filter fun e => decide (e.event.key = d'.event.key)
    simpa [deliveriesOf, hsame] using hfilter
  have hlength := hboth.length_le
  cases hget : outbox.get d'.event.key with
  | none =>
    rw [h.absent _ hget] at hlength
    exact absurd hlength (by simp)
  | some row =>
    obtain ⟨row', -, hstep⟩ := h.row _ row hget
    revert hlength
    generalize deliveriesOf d'.event.key deliveries = returned at hstep
    cases hstep <;> exact fun hlength => absurd hlength (by simp)

/-- **One call** keeps the deliveries fenced. -/
theorem Fenced.step {deliveries returned : List OutboxDelivery} (h : Fenced deliveries store)
    (hstep : OutboxStep store.outbox store'.outbox returned) : Fenced (returned ++ deliveries) store' := by
  have hnew : ∀ d ∈ returned, ∃ row row', store.outbox.get d.event.key = some row ∧
      store'.outbox.get d.event.key = some row' ∧ d.FencedBy row' ∧
      d.attempts = row.delivery_attempts + 1 := by
    intro d hd
    have hof : d ∈ deliveriesOf d.event.key returned := List.mem_filter.mpr ⟨hd, by simp⟩
    cases hget : store.outbox.get d.event.key with
    | none =>
      rw [hstep.absent _ hget] at hof
      cases hof
    | some row =>
      obtain ⟨row', hget', hrow⟩ := hstep.row _ row hget
      obtain ⟨hfenced, hnext, -⟩ := hrow.returned hof
      exact ⟨row, row', rfl, hget', hfenced, hnext⟩
  refine ⟨fun d hd => ?_, List.pairwise_append.mpr ⟨?_, h.increasing, fun d hd d' hd' hsame => ?_⟩⟩
  · obtain hd | hd := List.mem_append.mp hd
    · obtain ⟨_, row', -, hget, hfenced, -⟩ := hnew d hd
      exact ⟨row', hget, hfenced⟩
    · obtain ⟨row, hget, hfenced⟩ := h.fenced d hd
      obtain ⟨row', hget', hrow⟩ := hstep.row _ row hget
      exact ⟨row', hget', hfenced.step hrow⟩
  · exact hstep.pairwise.imp fun hne hsame => absurd hsame hne
  · obtain ⟨row, _, hget, -, -, hnext⟩ := hnew d hd
    obtain ⟨row', hget', hle, -⟩ := h.fenced d' hd'
    rw [← hsame, hget] at hget'
    obtain rfl := Option.some.inj hget'
    omega

/-- **A whole history** keeps the deliveries fenced. -/
theorem DeliveryHistory.fenced [Hashing] {start : EventStore}
    {h : List (Transaction EventStore Time DeliveryCall (List OutboxDelivery) Failure)}
    (hr : DeliveryHistory start h t₀ store t) : Fenced (returnedIn h) store := by
  induction hr with
  | refl =>
    refine ⟨fun d hd => ?_, List.Pairwise.nil⟩
    cases hd
  | @call h store t clk call _ _ ih =>
    rw [returnedIn, List.flatMap_cons, returnedBy]
    cases hcall : deliver store clk call with
    | error e => exact ih
    | ok result => exact ih.step (deliver_step hcall)

/-! ## Ending a lease -/

/-- An acknowledgement or a retry would change the row. -/
def CanEnd (store : EventStore) (clk : Clock Time) (d : OutboxDelivery) : Prop :=
  (∃ delivered_at store', ackOutbox store clk d delivered_at = .ok (store', true)) ∨
    ∃ error delay store', retryOutbox store clk d error delay = .ok (store', true)

theorem not_leased (h : ∀ row, store.outbox.get d.event.key = some row → row.leasedFor d (clk.read 0) = false) :
    (∀ delivered_at, committed store (ackOutbox store clk d delivered_at) = store) ∧
      (∀ error delay, committed store (retryOutbox store clk d error delay) = store) ∧
      ¬CanEnd store clk d := by
  have hnone : (store.outbox.get d.event.key).filter (·.leasedFor d (clk.read 0)) = none := by
    rw [Option.filter_eq_none_iff]
    intro row hget
    rw [h row hget]
    exact Bool.false_ne_true
  have hack : ∀ delivered_at, ackOutbox store clk d delivered_at = (do
      require ((store.outbox.get d.event.key).any (·.delivery_state == .acked) = true)
        (.contract .leaseLost "outbox acknowledgement lease was lost")
      pure (store, false)) := by
    intro delivered_at
    rw [ackOutbox, hnone]
  have hretry : ∀ error delay result, retryOutbox store clk d error delay ≠ .ok result := by
    intro error delay result hok
    rw [retryOutbox] at hok
    simp only [ok_iff, hnone] at hok
    cases hok.2.2
  refine ⟨fun delivered_at => ?_, fun error delay => ?_, ?_⟩
  · rw [hack]
    unfold require
    split_ifs
    · rfl
    · rfl
  · cases hresult : retryOutbox store clk d error delay with
    | error e => rfl
    | ok result => exact absurd hresult (hretry error delay result)
  · rintro (⟨delivered_at, store', hok⟩ | ⟨error, delay, store', hok⟩)
    · rw [hack] at hok
      simp only [ok_iff] at hok
      exact Bool.false_ne_true hok.2.2
    · exact hretry error delay _ hok

theorem CanEnd.leased (h : CanEnd store clk d) :
    ∃ row, store.outbox.get d.event.key = some row ∧ row.leasedFor d (clk.read 0) = true := by
  by_contra hnone
  have hfree : ∀ row, store.outbox.get d.event.key = some row → row.leasedFor d (clk.read 0) = false :=
    fun row hget => Bool.eq_false_iff.mpr fun hleased => hnone ⟨row, hget, hleased⟩
  exact (not_leased hfree).2.2 h

theorem OutboxDelivery.FencedBy.not_leased (h : d.FencedBy row) (hexpired : d.lease_until ≤ t) :
    row.leasedFor d t = false := by
  refine Bool.eq_false_iff.mpr fun hleased => ?_
  simp only [OutboxRow.leasedFor, Bool.and_eq_true, beq_iff_eq] at hleased
  obtain ⟨⟨⟨hstate, -⟩, hattempts⟩, huntil⟩ := hleased
  rw [(h.2 hattempts.symm hstate).2, Option.any_some, decide_eq_true_eq] at huntil
  exact not_lt.mpr hexpired huntil

theorem RowStep.acked {row : OutboxRow} (h : RowStep row row' deliveries) (hacked : row.delivery_state = .acked) :
    row' = row ∧ deliveries = [] := by
  have hnot : ∀ {d t}, row.leasedFor d t = true → False := fun hleased => by
    simp [OutboxRow.leasedFor, hacked] at hleased
  cases h with
  | same => exact ⟨rfl, rfl⟩
  | claim _ _ hstate => exact absurd hacked hstate
  | ack _ _ _ hleased => exact (hnot hleased).elim
  | retry _ _ _ _ hleased => exact (hnot hleased).elim

/-- **An acknowledged event** is neither changed nor claimed again. -/
theorem DeliveryHistory.acked [Hashing] {start : EventStore}
    {h : List (Transaction EventStore Time DeliveryCall (List OutboxDelivery) Failure)}
    (hr : DeliveryHistory start h t₀ store t) (hrow : start.outbox.get k = some row)
    (hacked : row.delivery_state = .acked) :
    store.outbox.get k = some row ∧ ∀ d ∈ returnedIn h, d.event.key ≠ k := by
  induction hr with
  | refl => exact ⟨hrow, fun d hd => by cases hd⟩
  | @call h store t clk call _ _ ih =>
    obtain ⟨hget, hnone⟩ := ih
    rw [returnedIn, List.flatMap_cons, returnedBy]
    cases hcall : deliver store clk call with
    | error e => exact ⟨hget, hnone⟩
    | ok result =>
      obtain ⟨store', deliveries⟩ := result
      obtain ⟨row', hget', hstep⟩ := (deliver_step hcall).row _ row hget
      obtain ⟨rfl, hnothing⟩ := hstep.acked hacked
      refine ⟨hget', fun d hd hsame => ?_⟩
      obtain hd | hd := List.mem_append.mp hd
      · have hof : d ∈ deliveriesOf k deliveries := List.mem_filter.mpr ⟨hd, by simp [hsame]⟩
        rw [hnothing] at hof
        cases hof
      · exact hnone d hd hsame

theorem RowStep.attempts {row : OutboxRow} (h : RowStep row row' deliveries) :
    row'.delivery_attempts = row.delivery_attempts + deliveries.length ∧
      ∀ d ∈ deliveries, d.attempts = row'.delivery_attempts := by
  cases h with
  | claim owner leaseUntil _ =>
    refine ⟨rfl, fun d hd => ?_⟩
    rw [List.mem_singleton.mp hd]
    rfl
  | same => exact ⟨rfl, fun d hd => by cases hd⟩
  | ack => exact ⟨rfl, fun d hd => by cases hd⟩
  | retry => exact ⟨rfl, fun d hd => by cases hd⟩

end

/-- **Outbox delivery fencing.** The numbers of the returned deliveries of an event strictly increase, at most one of them
can end a lease, a delivery whose lease has ended changes nothing, and an event that is `ACKED` keeps its row. -/
theorem outbox_delivery_fencing [Hashing] {start store : EventStore} {t₀ t : Time}
    {h : List (Transaction EventStore Time DeliveryCall (List OutboxDelivery) Failure)}
    (hr : DeliveryHistory start h t₀ store t) :
    (∀ τ ∈ h, ∀ k row, τ.before.outbox.get k = some row → ∃ row', τ.after.outbox.get k = some row' ∧
      row'.delivery_attempts = row.delivery_attempts + (deliveriesOf k (returnedBy τ)).length ∧
      ∀ d ∈ deliveriesOf k (returnedBy τ), d.attempts = row'.delivery_attempts) ∧
    ((returnedIn h).Pairwise fun d d' => d.event.key = d'.event.key → d'.attempts < d.attempts) ∧
    (∀ d ∈ returnedIn h, ∀ d' ∈ returnedIn h, d.event.key = d'.event.key →
      ∀ clk clk' : Clock Time, CanEnd store clk d → CanEnd store clk' d' → d = d') ∧
    (∀ (d : OutboxDelivery) (clk : Clock Time), (d ∈ returnedIn h ∧ d.lease_until ≤ clk.read 0) ∨
        (∀ row, store.outbox.get d.event.key = some row → d.attempts ≠ row.delivery_attempts) →
      (∀ delivered_at, committed store (ackOutbox store clk d delivered_at) = store) ∧
        (∀ error delay, committed store (retryOutbox store clk d error delay) = store) ∧
        ¬CanEnd store clk d) ∧
    ∀ row ∈ store.outbox.rows, row.delivery_state = .acked → ∀ h' store' t',
      DeliveryHistory store h' t store' t' →
      row ∈ store'.outbox.rows ∧ ∀ d ∈ returnedIn h', d.event.key ≠ row.payload.key := by
  have hfenced := hr.fenced
  refine ⟨fun τ hτ k row hget => ?_, hfenced.increasing, fun d hd d' hd' hsame clk clk' hend hend' => ?_,
    fun d clk hlost => not_leased fun row hget => ?_, fun row hrow hacked h' store' t' hr' => ?_⟩
  · obtain ⟨_, _, -, -, houtcome⟩ := hr.before hτ
    cases hcall : deliver τ.before τ.clock τ.call with
    | error e =>
      rw [hcall] at houtcome
      refine ⟨row, ?_, ?_⟩
      · rw [Transaction.after, houtcome]
        exact hget
      · rw [returnedBy, houtcome]
        exact ⟨rfl, fun d hd => by cases hd⟩
    | ok result =>
      rw [hcall] at houtcome
      obtain ⟨row', hget', hstep⟩ := (deliver_step hcall).row k row hget
      refine ⟨row', ?_, ?_⟩
      · rw [Transaction.after, houtcome]
        exact hget'
      · rw [returnedBy, houtcome]
        exact hstep.attempts
  · obtain ⟨row, hget, hleased⟩ := hend.leased
    obtain ⟨row', hget', hleased'⟩ := hend'.leased
    rw [← hsame, hget] at hget'
    obtain rfl := Option.some.inj hget'
    simp only [OutboxRow.leasedFor, Bool.and_eq_true, beq_iff_eq] at hleased hleased'
    have hattempts : d.attempts = d'.attempts := hleased.1.2.symm.trans hleased'.1.2
    by_contra hne
    exact hfenced.attempts_ne hd hd' hne hsame hattempts
  · obtain ⟨hd, hexpired⟩ | hother := hlost
    · obtain ⟨row', hget', hrow⟩ := hfenced.fenced d hd
      rw [hget] at hget'
      obtain rfl := Option.some.inj hget'
      exact hrow.not_leased hexpired
    · refine Bool.eq_false_iff.mpr fun hleased => hother row hget ?_
      simp only [OutboxRow.leasedFor, Bool.and_eq_true, beq_iff_eq] at hleased
      exact hleased.1.2.symm
  · obtain ⟨hget, hnone⟩ := hr'.acked (Table.get_of_mem hrow) hacked
    exact ⟨Table.mem_of_get hget, hnone⟩

/-- One owner leases an event twice, after the first lease has ended. -/
def reclaimedCalls : List (Time × DeliveryCall) :=
  [(0, .appendOutbox firstEvent), (1, .claim (fun _ _ => 0) (fun _ => false) "tenant-1" "publisher-1" 10 1),
    (20, .claim (fun _ _ => 0) (fun _ => false) "tenant-1" "publisher-1" 10 1)]

/-- The second delivery has the larger number. -/
theorem outbox_delivery_fencing_reclaimed :
    let h := trace (@deliver sampleHashing) ⟨.empty, .empty, .empty⟩ reclaimedCalls
    returnedIn h = [⟨firstEvent, 2, "publisher-1", 30⟩, ⟨firstEvent, 1, "publisher-1", 11⟩] ∧
      ((returnedIn h).Pairwise fun d d' => d.event.key = d'.event.key → d'.attempts < d.attempts) := by
  have hr := replay_runs (@deliver sampleHashing) reclaimedCalls ⟨.empty, .empty, .empty⟩ 0 (by decide)
  exact ⟨by decide, (@outbox_delivery_fencing sampleHashing _ _ _ _ _ hr).2.1⟩

end Aftercare
