import Mathlib.Logic.Function.Basic
import Aftercare.Persistence.Outbox
import Aftercare.Persistence.Projection
import Aftercare.System.Calls

/-!
# The event pipeline

Events go from the outbox over a broker to the consumers of their case. A publisher leases a batch, calls the broker
and acknowledges or releases each event; it may crash between any two of these. The broker delivers what reached it
in any order and any number of times. `Pipeline.step` is one step of one of them, and a history is a `Runs` of it.
-/

namespace Aftercare

open Relational

variable {store store' : EventStore} {acknowledged : DomainEvent → Prop} {t t₀ stop : Time}
  {db db' : Database} {todo : List OutboxDelivery} {p : ℕ} {delivery : OutboxDelivery}

variable {gate : Gate}

/-! ## The log of a case -/

def EventStore.caseEvents (store : EventStore) (scope : CaseScope) : List DomainEvent :=
  (store.outbox.rows.map (·.payload)).filter fun e => e.toCaseScope = scope

variable {e : DomainEvent} {s s' : Pipeline} {publisher : Publisher} {h : List PipelineTransaction}

theorem EventStore.mem_caseEvents : e ∈ store.caseEvents e.toCaseScope ↔ e ∈ store.outbox.rows.map (·.payload) := by
  simp [EventStore.caseEvents]

/-- Logs are numbered, and counters are their lengths. -/
structure EventStore.Ordered (store : EventStore) : Prop where
  numbered : ∀ scope, Numbered DomainEvent.position (store.caseEvents scope)
  counted : ∀ scope row, store.sequences.get scope = some row →
    row.last_case_seq = (store.caseEvents scope).length

theorem EventStore.Ordered.maxCaseSeq_eq (h : store.Ordered) (scope : CaseScope) :
    store.maxCaseSeq scope = (store.caseEvents scope).length := by
  have hmap : (store.caseRows scope).map (·.payload.case_seq.val) =
      (store.caseEvents scope).map DomainEvent.position := by
    unfold EventStore.caseRows EventStore.caseEvents Table.select
    rw [List.filter_map, List.map_map]
    rfl
  rw [EventStore.maxCaseSeq, hmap]
  exact (h.numbered scope).foldl_max

theorem EventStore.Ordered.lock (h : store.Ordered) {scope : CaseScope} {sequences : Table sequenceSchema}
    (hlock : (store.sequences.insertOrIgnore ⟨scope, store.maxCaseSeq scope⟩).map Prod.fst = .ok sequences)
    (other : CaseScope) (row : SequenceRow) (hrow : sequences.get other = some row) :
    row.last_case_seq = (store.caseEvents other).length := by
  obtain hinserted | rfl := Table.insertOrIgnore_map_fst hlock
  · rw [Table.get_insert hinserted] at hrow
    split_ifs at hrow with heq
    · cases hrow
      rw [heq]
      exact h.maxCaseSeq_eq scope
    · exact h.counted other row hrow
  · exact h.counted other row hrow

theorem lockCaseSequence_total (h : store.Ordered) {scope : CaseScope}
    (hroom : (store.caseEvents scope).length ≤ maxInt) : ∃ sequences, lockCaseSequence store scope =
        .ok ({ store with sequences := sequences }, (store.caseEvents scope).length) ∧
      sequences.get scope = some ⟨scope, (store.caseEvents scope).length⟩ := by
  have hcheck : sequenceSchema.check ⟨scope, store.maxCaseSeq scope⟩ = true := by
    rw [sequenceSchema_check, h.maxCaseSeq_eq]
    exact decide_eq_true hroom
  obtain ⟨sequences, inserted, hinsert, hget⟩ :=
    Table.insertOrIgnore_total (t := store.sequences) hcheck fun _ => ⟨rfl, rfl⟩
  -- The row is the one that was there, whose counter is right, or the new one.
  have hrow : sequences.get scope = some ⟨scope, (store.caseEvents scope).length⟩ := by
    refine hget.trans (congrArg some ?_)
    rw [sequenceSchema_key]
    cases hold : store.sequences.get scope with
    | none => rw [Option.getD_none, h.maxCaseSeq_eq]
    | some row =>
      have hkey : row.toCaseScope = scope := Table.key_of_get hold
      have hcount := h.counted scope row hold
      rw [Option.getD_some, SequenceRow.mk.injEq]
      exact ⟨hkey, hcount⟩
  refine ⟨sequences, ?_, hrow⟩
  simp only [lockCaseSequence, bind_eq_ok, statement_eq_ok, fetch_eq_ok, pure_eq_ok]
  exact ⟨(sequences, inserted), hinsert, _, hrow, rfl⟩

theorem EventStore.Ordered.length_le (h : store.Ordered) (scope : CaseScope) :
    (store.caseEvents scope).length ≤ maxInt := by
  cases hlength : (store.caseEvents scope).length with
  | zero => exact Nat.zero_le _
  | succ n =>
    have hget := List.getElem?_eq_getElem (show n < (store.caseEvents scope).length by omega)
    have hpos := (h.numbered scope).pos_eq hget
    rw [← hpos]
    exact PositiveInt.le _

/-- **Appending** extends the logs and acknowledges nothing. -/
theorem EventStore.Appends.ordered (h : store.Ordered) (happends : store.Appends store') :
    store'.Ordered ∧ (∀ scope, store.caseEvents scope <+: store'.caseEvents scope) ∧
      ∀ row ∈ store'.outbox.rows, row.delivery_state = .acked → row ∈ store.outbox.rows := by
  cases happends with
  | lock scope hlock =>
    exact ⟨⟨h.numbered, h.lock hlock⟩, fun _ => List.prefix_rfl, fun _ hrow _ => hrow⟩
  | @append locked sequences payloads outbox event clk row hlock hrow hseq houtbox hsequences =>
    obtain ⟨-, -, hrows⟩ := Table.insert_eq_ok houtbox
    have hcount := h.lock hlock event.toCaseScope row hrow
    have hevents : ∀ scope, EventStore.caseEvents ⟨outbox, sequences, payloads⟩ scope =
        if scope = event.toCaseScope then store.caseEvents scope ++ [event]
        else store.caseEvents scope := by
      intro scope
      unfold EventStore.caseEvents
      rw [hrows, List.map_append, List.filter_append]
      split_ifs with heq
      · simp [OutboxRow.new, heq]
      · simp [OutboxRow.new, Ne.symm heq]
    refine ⟨⟨fun scope => ?_, fun scope row' hrow' => ?_⟩, fun scope => ?_, fun row' hrow' hacked => ?_⟩
    · rw [hevents]
      split_ifs with heq
      · refine (h.numbered scope).concat ?_
        rw [heq, ← hcount]
        exact hseq
      · exact h.numbered scope
    · rw [hevents]
      have hrow'' : sequences.get scope = some row' := hrow'
      rw [Table.get_update hsequences] at hrow''
      split_ifs at hrow'' with heq
      · rw [if_pos heq, heq, List.length_append, List.length_singleton, ← hcount, ← hseq]
        rw [hrow] at hrow''
        cases hrow''
        rfl
      · rw [if_neg heq]
        exact h.lock hlock scope row' hrow''
    · rw [hevents]
      split_ifs
      · exact List.prefix_append _ _
      · exact List.prefix_rfl
    · rcases (Table.mem_insert houtbox).mp hrow' with hrow' | rfl
      · exact hrow'
      · cases hacked

theorem EventStore.appends_ordered (h : store.Ordered)
    (happends : Relation.ReflTransGen EventStore.Appends store store') :
    store'.Ordered ∧ (∀ scope, store.caseEvents scope <+: store'.caseEvents scope) ∧
      ∀ row ∈ store'.outbox.rows, row.delivery_state = .acked → row ∈ store.outbox.rows := by
  induction happends with
  | refl => exact ⟨h, fun _ => List.prefix_rfl, fun _ hrow _ => hrow⟩
  | tail _ hlast ih =>
    obtain ⟨hmid, hgrown, hacked⟩ := ih
    obtain ⟨hend, hgrown', hacked'⟩ := hlast.ordered hmid
    exact ⟨hend, fun scope => (hgrown scope).trans (hgrown' scope), fun row hrow hstate =>
      hacked row (hacked' row hrow hstate) hstate⟩

variable {outbox : Table outboxSchema} {start : Time}

theorem Redelivers.caseEvents_eq (h : Redelivers acknowledged store.outbox outbox) :
    EventStore.caseEvents { store with outbox := outbox } = store.caseEvents := by
  funext scope
  unfold EventStore.caseEvents
  rw [h.events]

theorem Redelivers.grows (h : Redelivers acknowledged store.outbox outbox) (scope : CaseScope) :
    store.caseEvents scope <+: EventStore.caseEvents { store with outbox := outbox } scope := by
  simp only [h.caseEvents_eq, List.prefix_rfl]

theorem Write.appends (h : Write gate start stop db db') :
    Relation.ReflTransGen EventStore.Appends db.events db'.events := by
  cases h <;> try exact .refl
  case append h => exact .single h

theorem Writes.appends (h : Writes gate start stop db db') :
    Relation.ReflTransGen EventStore.Appends db.events db'.events := by
  induction h with
  | refl => exact .refl
  | tail _ hlast ih => exact ih.trans hlast.appends

theorem Effect.appends {c : Call} (h : Effect start stop db c db') :
    Relation.ReflTransGen EventStore.Appends db.events db'.events := by
  cases h with
  | resolves c h =>
    cases h with
    | writes h => exact h.appends
    | settle hprepare hruns hget hopen hwait hsettle hevents =>
      obtain ⟨events, hevents, rfl⟩ := hevents
      cases hsettle
      exact hprepare.appends.trans hevents
  | acts c h =>
    rcases h with rfl | ⟨t, actions, -, -, rfl⟩ <;> exact .refl
  | transitions claim target args h =>
    cases h
    exact .refl
  | saves checkpoint claim h =>
    obtain ⟨checkpoints, -, rfl⟩ := h
    exact .refl

/-! ## The pipeline -/

/-- Where a publisher stands in `publish_once`. -/
inductive Publisher
  /-- Deliveries to publish; with none left the call is over. -/
  | delivering (todo : List OutboxDelivery)
  /-- The broker took the event, which is to be acknowledged. -/
  | published (delivery : OutboxDelivery) (todo : List OutboxDelivery)
  /-- The broker raised, and the event is to be released. -/
  | failed (delivery : OutboxDelivery) (error : String) (todo : List OutboxDelivery)

def Publisher.deliveries : Publisher → List OutboxDelivery
  | .delivering todo => todo
  | .published delivery todo => delivery :: todo
  | .failed delivery _ todo => delivery :: todo

/-- The database, the consumers, the publishers, and the broker. -/
structure Pipeline where
  db : Database
  projection : ProjectionStore
  publishers : ℕ → Publisher
  broker : List DomainEvent

def Pipeline.empty : Pipeline := ⟨.empty, .empty, fun _ => .delivering [], []⟩

inductive PipelineCall
  /-- A call of a repository, with any events that it appends. -/
  | call (c : Call)
  /-- A publisher starts `publish_once` and leases a batch. -/
  | claim (p : ℕ) (readings : Identifier × Identifier → ℕ → Time)
      (locked : Identifier × Identifier → Bool) (tenant_id owner : String) (lease limit : ℤ)
  /-- The broker takes the next event of a publisher. -/
  | publish (p : ℕ)
  /-- The broker raises; the event may have arrived all the same. -/
  | raise (p : ℕ) (error : String) (arrived : Bool)
  /-- A publisher acknowledges the event that it published. -/
  | ack (p : ℕ) (now : Time)
  /-- A publisher releases the event that it failed to publish. -/
  | retry (p : ℕ) (delay : ℤ)
  /-- A publisher crashes. -/
  | crash (p : ℕ)
  /-- The broker delivers an event to a consumer. -/
  | ingest (event : DomainEvent) (consumer_id : String)

def Pipeline.setPublisher (s : Pipeline) (p : ℕ) (publisher : Publisher) : Pipeline :=
  { s with publishers := Function.update s.publishers p publisher }

def Pipeline.setEvents (s : Pipeline) (events : EventStore) : Pipeline :=
  { s with db := { s.db with events := events } }

/-- An exception drops the rest of the batch. -/
def Pipeline.finish (s : Pipeline) (p : ℕ) (todo : List OutboxDelivery)
    (outcome : Result (EventStore × Bool)) : Pipeline :=
  match outcome with
  | .ok (events, _) => (s.setEvents events).setPublisher p (.delivering todo)
  | .error _ => s.setPublisher p (.delivering [])

/-- A step that is not the next of its publisher does nothing. -/
def Pipeline.step [Hashing] : Engine Pipeline Time PipelineCall Unit Failure := fun s clk c =>
  match c with
  | .call c => do
    let (db, _) ← exec s.db clk c
    pure ({ s with db := db }, ())
  | .claim p readings locked tenant_id owner lease limit =>
    match s.publishers p with
    | .delivering [] => do
      let (events, deliveries) ←
        claimOutbox s.db.events clk readings locked tenant_id owner lease limit
      pure ((s.setEvents events).setPublisher p (.delivering deliveries), ())
    | _ => pure (s, ())
  | .publish p =>
    match s.publishers p with
    | .delivering (delivery :: todo) =>
      pure ({ s with broker := delivery.event :: s.broker }.setPublisher p
        (.published delivery todo), ())
    | _ => pure (s, ())
  | .raise p error arrived =>
    match s.publishers p with
    | .delivering (delivery :: todo) =>
      pure ({ s with broker := if arrived then delivery.event :: s.broker else s.broker }.setPublisher
        p (.failed delivery error todo), ())
    | _ => pure (s, ())
  | .ack p now =>
    match s.publishers p with
    | .published delivery todo => pure (s.finish p todo (ackOutbox s.db.events clk delivery now), ())
    | _ => pure (s, ())
  | .retry p delay =>
    match s.publishers p with
    | .failed delivery error todo =>
      pure (s.finish p todo (retryOutbox s.db.events clk delivery error delay), ())
    | _ => pure (s, ())
  | .crash p => pure (s.setPublisher p (.delivering []), ())
  | .ingest event consumer_id =>
    if event ∈ s.broker then do
      let (projection, _) ← ingest s.projection event consumer_id
      pure ({ s with projection := projection }, ())
    else pure (s, ())

abbrev PipelineTransaction := Transaction Pipeline Time PipelineCall Unit Failure

abbrev PipelineHistory [Hashing] (h : List (Transaction Pipeline Time PipelineCall Unit Failure))
    (t₀ : Time) (s : Pipeline) (t : Time) : Prop := Runs Pipeline.step Pipeline.empty t₀ h s t

/-! ## What a step does -/

inductive PipelineEffect (s : Pipeline) : PipelineCall → Pipeline → Prop
  /-- Nothing changed. -/
  | skip (c : PipelineCall) : PipelineEffect s c s
  /-- The repositories may have appended events. -/
  | call {db : Database} (c : Call)
      (h : Relation.ReflTransGen EventStore.Appends s.db.events db.events) :
      PipelineEffect s (.call c) { s with db := db }
  /-- A publisher has deliveries in hand; nothing was acknowledged. -/
  | deliver {outbox : Table outboxSchema} {todo : List OutboxDelivery} (c : PipelineCall) (p : ℕ)
      (h : Redelivers (fun _ => False) s.db.events.outbox outbox)
      (htodo : ∀ d ∈ todo, d ∈ (s.publishers p).deliveries ∨ d.event ∈ s.db.events.outbox.rows.map (·.payload)) :
      PipelineEffect s c
        ((s.setEvents { s.db.events with outbox := outbox }).setPublisher p (.delivering todo))
  /-- The broker took an event. -/
  | publish {delivery : OutboxDelivery} {todo : List OutboxDelivery} (p : ℕ)
      (h : s.publishers p = .delivering (delivery :: todo)) :
      PipelineEffect s (.publish p) ({ s with broker := delivery.event :: s.broker }.setPublisher p
        (.published delivery todo))
  /-- The broker raised. -/
  | fail {delivery : OutboxDelivery} {todo : List OutboxDelivery} {broker : List DomainEvent}
      (p : ℕ) (error : String) (arrived : Bool) (h : s.publishers p = .delivering (delivery :: todo))
      (hbroker : ∀ e ∈ broker, e = delivery.event ∨ e ∈ s.broker) :
      PipelineEffect s (.raise p error arrived)
        ({ s with broker := broker }.setPublisher p (.failed delivery error todo))
  /-- A publisher acknowledged the event that it published. -/
  | ack {delivery : OutboxDelivery} {todo : List OutboxDelivery} {outbox : Table outboxSchema}
      (p : ℕ) (now : Time) (h : s.publishers p = .published delivery todo)
      (hack : Redelivers (fun e => e.key = delivery.event.key) s.db.events.outbox outbox) :
      PipelineEffect s (.ack p now)
        ((s.setEvents { s.db.events with outbox := outbox }).setPublisher p (.delivering todo))
  /-- A consumer ingested an event of the broker. -/
  | ingest {projection : ProjectionStore} {event : DomainEvent} (consumer_id : String)
      (hevent : event ∈ s.broker) (h : ProjectionStore.Ingests event s.projection projection) :
      PipelineEffect s (.ingest event consumer_id) { s with projection := projection }

theorem PipelineEffect.drop (c : PipelineCall) (p : ℕ) (htodo : ∀ d ∈ todo, d ∈ (s.publishers p).deliveries) :
    PipelineEffect s c (s.setPublisher p (.delivering todo)) :=
  .deliver c p (.refl s.db.events.outbox) fun d hd => .inl (htodo d hd)

/-- **What a step does.** -/
theorem Pipeline.step_effect [Hashing] {clk : Clock Time} {c : PipelineCall}
    {o : Unit} (h : Pipeline.step s clk c = .ok (s', o)) : PipelineEffect s c s' := by
  cases c <;> simp only [Pipeline.step] at h
  case call c =>
    simp only [ok_iff, Prod.exists] at h
    obtain ⟨db, output, hexec, rfl, -⟩ := h
    exact .call c (exec_effect hexec).appends
  case claim p readings locked tenant_id owner lease limit =>
    split at h
    · simp only [ok_iff, Prod.exists] at h
      obtain ⟨events, deliveries, hclaim, rfl, -⟩ := h
      obtain ⟨outbox, rfl, hredelivers, hevents⟩ := claimOutbox_redelivers hclaim
      exact .deliver _ p hredelivers fun d hd => .inr (hevents d hd)
    · cases h
      exact .skip _
  case publish p =>
    split at h
    · rename_i delivery todo hp
      cases h
      exact .publish p hp
    · cases h
      exact .skip _
  case raise p error arrived =>
    split at h
    · rename_i delivery todo hp
      cases h
      refine .fail p error arrived hp fun e he => ?_
      cases arrived with
      | false => exact .inr he
      | true => exact List.mem_cons.mp he
    · cases h
      exact .skip _
  case ack p now =>
    split at h
    · rename_i delivery todo hp
      cases h
      unfold Pipeline.finish
      split
      · rename_i events updated hack
        obtain ⟨outbox, rfl, hredelivers⟩ := ackOutbox_redelivers hack
        exact .ack p now hp hredelivers
      · exact .drop _ p fun d hd => by cases hd
    · cases h
      exact .skip _
  case retry p delay =>
    split at h
    · rename_i delivery error todo hp
      cases h
      unfold Pipeline.finish
      split
      · rename_i events updated hretry
        obtain ⟨outbox, rfl, hredelivers⟩ := retryOutbox_redelivers hretry
        refine .deliver _ p hredelivers fun d hd => .inl ?_
        rw [hp]
        exact List.mem_cons_of_mem _ hd
      · exact .drop _ p fun d hd => by cases hd
    · cases h
      exact .skip _
  case crash p =>
    cases h
    exact .drop _ p fun d hd => by cases hd
  case ingest event consumer_id =>
    split_ifs at h with hevent
    · simp only [ok_iff, Prod.exists] at h
      obtain ⟨projection, result, hingest, rfl, -⟩ := h
      exact .ingest consumer_id hevent (ingest_ingests hingest)
    · cases h
      exact .skip _

/-! ## The invariant -/

/-- Logs are numbered and followed, and only committed events travel. -/
structure Pipeline.Sound (s : Pipeline) : Prop where
  ordered : s.db.events.Ordered
  follows : s.projection.Follows s.db.events.caseEvents
  broker : ∀ e ∈ s.broker, e ∈ s.db.events.outbox.rows.map (·.payload)
  inHand : ∀ p, ∀ d ∈ (s.publishers p).deliveries, d.event ∈ s.db.events.outbox.rows.map (·.payload)

theorem Pipeline.sound_empty : Pipeline.empty.Sound where
  ordered := ⟨fun _ => numbered_nil _, fun _ _ h => by cases h⟩
  follows := ProjectionStore.follows_empty _
  broker e he := by cases he
  inHand p d hd := by cases hd

theorem deliveries_update {publishers : ℕ → Publisher} {P : OutboxDelivery → Prop}
    (h : ∀ q, ∀ d ∈ (publishers q).deliveries, P d) (hp : ∀ d ∈ publisher.deliveries, P d) (q : ℕ) :
    ∀ d ∈ (Function.update publishers p publisher q).deliveries, P d := by
  by_cases hq : q = p
  · rw [hq, Function.update_self]
    exact hp
  · rw [Function.update_of_ne hq]
    exact h q

theorem Pipeline.Sound.redeliver (hs : s.Sound) (p : ℕ) (h : Redelivers acknowledged s.db.events.outbox outbox)
    (htodo : ∀ d ∈ todo, d.event ∈ s.db.events.outbox.rows.map (·.payload)) :
    ((s.setEvents { s.db.events with outbox := outbox }).setPublisher p (.delivering todo)).Sound := by
  have hevents := h.caseEvents_eq
  refine ⟨⟨fun scope => ?_, fun scope row hrow => ?_⟩, ?_, fun e he => ?_, ?_⟩
  · exact hevents ▸ hs.ordered.numbered scope
  · rw [hs.ordered.counted scope row hrow, ← hevents]
    rfl
  · exact hevents ▸ hs.follows
  · exact h.events ▸ hs.broker e he
  · have hmap := h.events
    exact deliveries_update (fun q d hd => hmap ▸ hs.inHand q d hd) fun d hd => hmap ▸ htodo d hd

theorem Pipeline.Sound.callBroker {broker : List DomainEvent}
    (hs : s.Sound) (h : s.publishers p = .delivering (delivery :: todo))
    (hbroker : ∀ e ∈ broker, e = delivery.event ∨ e ∈ s.broker)
    (hpublisher : publisher.deliveries = delivery :: todo) :
    ({ s with broker := broker }.setPublisher p publisher).Sound := by
  have hinHand := hs.inHand p
  rw [h] at hinHand
  refine ⟨hs.ordered, hs.follows, fun e he => ?_, deliveries_update hs.inHand ?_⟩
  · rcases hbroker e he with rfl | he
    · exact hinHand delivery List.mem_cons_self
    · exact hs.broker e he
  · rw [hpublisher]
    exact hinHand

/-- **A step keeps the pipeline sound**, and the logs only grow. -/
theorem Pipeline.Sound.step {c : PipelineCall} (hs : s.Sound) (h : PipelineEffect s c s') :
    s'.Sound ∧ ∀ scope, s.db.events.caseEvents scope <+: s'.db.events.caseEvents scope := by
  cases h with
  | skip => exact ⟨hs, fun _ => List.prefix_rfl⟩
  | call c h =>
    obtain ⟨hordered, hgrows, -⟩ := EventStore.appends_ordered hs.ordered h
    have hmem : ∀ e ∈ s.db.events.outbox.rows.map (·.payload), e ∈ _ := fun e he =>
      EventStore.mem_caseEvents.mp ((hgrows e.toCaseScope).subset (EventStore.mem_caseEvents.mpr he))
    exact ⟨⟨hordered, hs.follows.mono hgrows, fun e he => hmem e (hs.broker e he),
      fun p d hd => hmem d.event (hs.inHand p d hd)⟩, hgrows⟩
  | deliver c p h htodo =>
    refine ⟨hs.redeliver p h fun d hd => ?_, h.grows⟩
    rcases htodo d hd with hd | hd
    · exact hs.inHand p d hd
    · exact hd
  | publish p h =>
    exact ⟨hs.callBroker h (fun e he => List.mem_cons.mp he) rfl, fun _ => List.prefix_rfl⟩
  | fail p error arrived h hbroker =>
    exact ⟨hs.callBroker h hbroker rfl, fun _ => List.prefix_rfl⟩
  | ack p now h hack =>
    have hinHand := hs.inHand p
    rw [h] at hinHand
    exact ⟨hs.redeliver p hack fun d hd => hinHand d (List.mem_cons_of_mem _ hd), hack.grows⟩
  | ingest consumer_id hevent h =>
    have hlog := EventStore.mem_caseEvents.mpr (hs.broker _ hevent)
    exact ⟨⟨hs.ordered, hs.follows.ingests hs.ordered.numbered hlog h, hs.broker, hs.inHand⟩, fun _ => List.prefix_rfl⟩

theorem PipelineHistory.sound [Hashing] (hr : PipelineHistory h t₀ s t) : s.Sound :=
  hr.invariant (fun s _ => s.Sound) (fun _ hs => hs)
    (fun hs hstep => (hs.step (Pipeline.step_effect hstep)).1) Pipeline.sound_empty

theorem PipelineHistory.grows [Hashing] {t' : Time} (hs : s.Sound) (hr : Runs Pipeline.step s t h s' t')
    (scope : CaseScope) : s.db.events.caseEvents scope <+: s'.db.events.caseEvents scope := by
  let P : Pipeline → Time → Prop := fun x _ => x.Sound ∧
    s.db.events.caseEvents scope <+: x.db.events.caseEvents scope
  have hend : P s' t' := by
    refine hr.invariant P (fun _ hx => hx) (fun hx hstep => ?_) ⟨hs, List.prefix_rfl⟩
    obtain ⟨hsound, hgrows⟩ := hx.1.step (Pipeline.step_effect hstep)
    exact ⟨hsound, hx.2.trans (hgrows scope)⟩
  exact hend.2

/-! ## Acknowledgements -/

/-- A call of the broker with the event returned in the history. -/
def PublishedIn (h : List PipelineTransaction) (e : DomainEvent) : Prop :=
  ∃ τ ∈ h, ∃ p delivery todo, τ.call = .publish p ∧
    τ.before.publishers p = .delivering (delivery :: todo) ∧ delivery.event = e

/-- The event is `CLAIMED` and was published before. -/
def PublishedBeforeAck [Hashing] (t₀ : Time) (h : List PipelineTransaction) (e : DomainEvent) : Prop :=
  ∃ earlier later s t, h = later ++ earlier ∧ PipelineHistory earlier t₀ s t ∧
    (∃ row ∈ s.db.events.outbox.rows, row.payload = e ∧ row.delivery_state = .claimed) ∧
    PublishedIn earlier e

theorem PublishedIn.cons (hp : PublishedIn h e) (τ : PipelineTransaction) : PublishedIn (τ :: h) e := by
  obtain ⟨σ, hσ, hrest⟩ := hp
  exact ⟨σ, List.mem_cons_of_mem _ hσ, hrest⟩

theorem PublishedBeforeAck.cons [Hashing] {t₀ : Time} (hp : PublishedBeforeAck t₀ h e) (τ : PipelineTransaction) :
    PublishedBeforeAck t₀ (τ :: h) e := by
  obtain ⟨earlier, later, s, t, rfl, hrest⟩ := hp
  exact ⟨earlier, τ :: later, s, t, rfl, hrest⟩

/-- What is or will be `ACKED` was published before. -/
structure Vouches [Hashing] (t₀ : Time)
    (h : List (Transaction Pipeline Time PipelineCall Unit Failure)) (s : Pipeline) : Prop where
  published : ∀ p delivery todo, s.publishers p = .published delivery todo →
    PublishedIn h delivery.event
  acked : ∀ row ∈ s.db.events.outbox.rows, row.delivery_state = .acked →
    PublishedBeforeAck t₀ h row.payload

theorem Vouches.keep [Hashing] (hs : Vouches t₀ h s) (τ : PipelineTransaction)
    (hpublished : ∀ p delivery todo, s'.publishers p = .published delivery todo →
      s.publishers p = .published delivery todo)
    (hacked : ∀ row' ∈ s'.db.events.outbox.rows, row'.delivery_state = .acked →
      ∃ row ∈ s.db.events.outbox.rows, row.payload = row'.payload ∧ row.delivery_state = .acked) :
    Vouches t₀ (τ :: h) s' := by
  refine ⟨fun p delivery todo hp => ?_, fun row' hrow' hstate => ?_⟩
  · exact (hs.published p delivery todo (hpublished p delivery todo hp)).cons τ
  · obtain ⟨row, hrow, hpayload, hbefore⟩ := hacked row' hrow' hstate
    exact hpayload ▸ (hs.acked row hrow hbefore).cons τ

theorem published_of_update {publishers : ℕ → Publisher} {q : ℕ}
    (hne : ∀ delivery todo, publisher ≠ .published delivery todo)
    (h : Function.update publishers p publisher q = .published delivery todo) :
    publishers q = .published delivery todo := by
  by_cases hq : q = p
  · rw [hq, Function.update_self] at h
    exact absurd h (hne delivery todo)
  · rwa [Function.update_of_ne hq] at h

/-- **A step keeps what the history vouches for.** -/
theorem Vouches.step [Hashing] {t₀ t : Time} {τ : PipelineTransaction} (hr : PipelineHistory h t₀ s t)
    (hs : Vouches t₀ h s) (hbefore : τ.before = s) (heffect : PipelineEffect s τ.call s') :
    Vouches t₀ (τ :: h) s' := by
  have hsame : ∀ row' ∈ s.db.events.outbox.rows, row'.delivery_state = .acked →
      ∃ row ∈ s.db.events.outbox.rows, row.payload = row'.payload ∧ row.delivery_state = .acked :=
    fun row' hrow' hstate => ⟨row', hrow', rfl, hstate⟩
  generalize hcall : τ.call = c at heffect
  cases heffect with
  | skip => exact hs.keep τ (fun _ _ _ hp => hp) hsame
  | call c happends =>
    obtain ⟨-, -, hacked⟩ := EventStore.appends_ordered hr.sound.ordered happends
    exact hs.keep τ (fun _ _ _ hp => hp) fun row' hrow' hstate => ⟨row', hacked row' hrow' hstate, rfl, hstate⟩
  | deliver c p hredelivers htodo =>
    refine hs.keep τ (fun q d todo hq => published_of_update (by simp) hq) fun row' hrow' hstate => ?_
    obtain ⟨row, hrow, hpayload, hbefore | ⟨-, hfalse⟩⟩ := hredelivers.acked row' hrow' hstate
    · exact ⟨row, hrow, hpayload, hbefore⟩
    · exact hfalse.elim
  | @publish delivery todo p hp =>
    refine ⟨fun q d rest hq => ?_, fun row' hrow' hstate => (hs.acked row' hrow' hstate).cons τ⟩
    by_cases hqp : q = p
    · -- The publisher that called the broker is about to acknowledge the event.
      rw [hqp] at hq
      have hd : Publisher.published delivery todo = .published d rest := by
        exact (Function.update_self p _ s.publishers).symm.trans hq
      cases hd
      exact ⟨τ, List.mem_cons_self, p, delivery, todo, hcall, hbefore ▸ hp, rfl⟩
    · have hq' : s.publishers q = .published d rest := by
        exact (Function.update_of_ne hqp _ s.publishers).symm.trans hq
      exact (hs.published q d rest hq').cons τ
  | fail p error arrived hp hbroker =>
    exact hs.keep τ (fun q d todo hq => published_of_update (by simp) hq) hsame
  | @ack delivery todo outbox p now hp hack =>
    have hpublished := hs.published p delivery todo hp
    have hcommitted := hr.sound.inHand p delivery (by rw [hp]; exact List.mem_cons_self)
    obtain ⟨stored, hstored, hevent⟩ := List.mem_map.mp hcommitted
    refine ⟨fun q d rest hq => ?_, fun row' hrow' hstate => ?_⟩
    · exact (hs.published q d rest (published_of_update (by simp) hq)).cons τ
    · obtain ⟨row, hrow, hpayload, hacked | ⟨hclaimed, hkey⟩⟩ := hack.acked row' hrow' hstate
      · exact hpayload ▸ (hs.acked row hrow hacked).cons τ
      · -- The row that is acknowledged is that of the event that was published.
        have hrow_eq : row = stored :=
          Table.eq_of_key_eq hrow hstored (hkey.trans (congrArg DomainEvent.key hevent).symm)
        have hpayload' : delivery.event = row'.payload := by rw [← hpayload, hrow_eq, hevent]
        refine ⟨h, [τ], s, t, rfl, hr, ⟨row, hrow, hpayload, hclaimed⟩, ?_⟩
        rw [← hpayload']
        exact hpublished
  | ingest consumer_id hevent hingests => exact hs.keep τ (fun _ _ _ hp => hp) hsame

theorem PipelineHistory.vouches [Hashing] (hr : PipelineHistory h t₀ s t) : Vouches t₀ h s := by
  induction hr with
  | refl => exact ⟨fun p d todo hp => (by cases hp), fun row hrow => (by cases hrow)⟩
  | @call h s t clk c hr hle ih =>
    cases hstep : Pipeline.step s clk c with
    | error e => exact ih.step hr rfl (.skip c)
    | ok result => exact ih.step hr rfl (Pipeline.step_effect hstep)

/-- **The event pipeline end to end.** In every history the events of a case are numbered in order, the ledger of every
consumer is a number of the first of them, and no committed event is dropped. -/
theorem event_pipeline [Hashing] {h : List (Transaction Pipeline Time PipelineCall Unit Failure)}
    {t₀ t : Time} {s : Pipeline} (hr : PipelineHistory h t₀ s t) :
    (∀ scope, (s.db.events.caseEvents scope).map (·.case_seq.val) =
      List.range' 1 (s.db.events.caseEvents scope).length) ∧
    (∀ scope consumer, (s.projection.ledger (scope, consumer)).Nodup ∧
      ∃ k, s.projection.ledger (scope, consumer) = (s.db.events.caseEvents scope).take k) ∧
    (∀ row ∈ s.db.events.outbox.rows, row.delivery_state = .pending ∨ row.delivery_state = .claimed ∨
      row.delivery_state = .acked ∧ PublishedBeforeAck t₀ h row.payload) ∧
    ∀ h' s' t', Runs Pipeline.step s t h' s' t' →
      ∀ scope, s.db.events.caseEvents scope <+: s'.db.events.caseEvents scope := by
  have hsound := hr.sound
  have hvouches := hr.vouches
  refine ⟨hsound.ordered.numbered, fun scope consumer => ?_, fun row hrow => ?_,
    fun h' s' t' hr' => PipelineHistory.grows hsound hr'⟩
  · have hledger := hsound.follows.ledger (scope, consumer)
    refine ⟨?_, _, hledger⟩
    rw [hledger]
    exact (hsound.ordered.numbered scope).nodup.sublist (List.take_sublist _ _)
  · cases hstate : row.delivery_state with
    | pending => exact .inl rfl
    | claimed => exact .inr (.inl rfl)
    | acked => exact .inr (.inr ⟨rfl, hvouches.acked row hrow hstate⟩)

def sampleEvent (event_id : Identifier) (case_seq : PositiveInt) : DomainEvent where
  toCaseScope := sampleScope.toCaseScope
  event_id := event_id
  event_type := .inputReceived
  payload := ⟨sampleScope.toCaseScope, ⟨"artifact-1", Eq.refl true⟩, sampleDigest⟩
  run_id := none
  correlation_id := ⟨"correlation-1", Eq.refl true⟩
  causation_id := none
  recorded_at := 0
  coherent_draft := ⟨rfl, by decide⟩
  case_seq := case_seq

def firstEvent : DomainEvent := sampleEvent ⟨"event-1", Eq.refl true⟩ .one

def secondEvent : DomainEvent := sampleEvent ⟨"event-2", Eq.refl true⟩ .two

/-- Two events arrive the wrong way round, the second without its `ACKED`. -/
def pipelineCalls : List (Time × PipelineCall) :=
  [(0, .call (.appendOutbox firstEvent)), (1, .call (.appendOutbox secondEvent)),
    (2, .claim 0 (fun _ _ => 0) (fun _ => false) "tenant-1" "publisher-1" 100 10),
    (3, .publish 0), (4, .ack 0 4), (5, .publish 0), (6, .crash 0),
    (7, .ingest secondEvent "consumer-1"), (8, .ingest firstEvent "consumer-1"),
    (9, .ingest firstEvent "consumer-1")]

def samplePipeline : Pipeline := replay (@Pipeline.step sampleHashing) Pipeline.empty pipelineCalls

/-- The consumer has both events, in order. -/
theorem event_pipeline_reordered :
    samplePipeline.projection.ledger (sampleScope.toCaseScope, ⟨"consumer-1", Eq.refl true⟩) =
      [firstEvent, secondEvent] ∧
    samplePipeline.db.events.outbox.rows.map (·.delivery_state) = [.acked, .claimed] ∧
    ∃ k, samplePipeline.projection.ledger (sampleScope.toCaseScope, ⟨"consumer-1", Eq.refl true⟩) =
      (samplePipeline.db.events.caseEvents sampleScope.toCaseScope).take k := by
  have hr : @PipelineHistory sampleHashing _ 0 samplePipeline _ :=
    replay_runs (@Pipeline.step sampleHashing) pipelineCalls Pipeline.empty 0 (by decide)
  exact ⟨by decide, by decide, ((@event_pipeline sampleHashing _ _ _ _ hr).2.1 _ _).2⟩

end Aftercare
