import Aftercare.Relational.Locking
import Aftercare.System.Pipeline

/-!
# The numbers of the events of a Case

Appends run inside transactions that may append to several Cases, interleave and roll back. `_lock_case_sequence`
locks the counter row of a Case, so the parts of the store that `Relational.Sessions` locks are the Cases;
`EventStore.WritesCase` says what an append writes.
-/

namespace Aftercare

open Relational

/-! ## Calls -/

/-- A call of the repository, with its clock. -/
inductive AppendCall
  | event (clk : Clock Time) (draft : DomainEventDraft) (snapshot : Option Snapshot)
  | outbox (clk : Clock Time) (event : DomainEvent)

namespace AppendCall

def scope : AppendCall → CaseScope
  | .event _ draft _ => draft.toCaseScope
  | .outbox _ e => e.toCaseScope

/-- The primary key of the event that the call names. -/
def key : AppendCall → Identifier × Identifier
  | .event _ draft _ => (draft.tenant_id, draft.event_id)
  | .outbox _ e => e.key

/-- The call names the stored event with all of its content. -/
def Repeats (c : AppendCall) (stored : DomainEvent) : Prop :=
  match c with
  | .event _ draft _ => stored.toDomainEventDraft = draft
  | .outbox _ e => stored = e

/-- The call: the event, and whether it was stored before. -/
def run [Hashing] (c : AppendCall) (store : EventStore) : Result (EventStore × DomainEvent × Bool) :=
  match c with
  | .event clk draft snapshot => appendEvent store clk draft snapshot
  | .outbox clk e => do
    let (store, appended) ← appendOutbox store clk e
    pure (store, e, !appended)

/-- The insertion waits for another transaction with the event id. -/
def waits {τ : Type} [DecidableEq τ] (s : Sessions EventStore CaseScope τ) (t : τ) (c : AppendCall) : Bool :=
  s.locks.any fun l => decide (l.holder ≠ t) && s.store.outbox.rows.any fun r =>
    decide (r.payload.toCaseScope = l.part ∧ r.payload.key = c.key ∧ r ∉ l.before.outbox.rows)

end AppendCall

theorem sequences_apart (a b : SequenceRow) : sequenceSchema.clash a b = false := rfl

/-- The store with one Case as it was before. -/
def restoreCase (store : EventStore) (scope : CaseScope) (before : EventStore) : EventStore where
  outbox := store.outbox.deleteWhere fun r => r.payload.toCaseScope = scope ∧ r ∉ before.outbox.rows
  sequences := store.sequences.restoreKey scope before.sequences sequences_apart
  payloads := store.payloads.deleteWhere fun p => p.toCaseScope = scope ∧ p ∉ before.payloads.rows

abbrev AppendSessions (τ : Type) := Sessions EventStore CaseScope τ

/-- A call that raises rolls its transaction back. -/
def AppendSessions.step [Hashing] {τ : Type} [DecidableEq τ] :
    AppendSessions τ → τ × Op AppendCall → AppendSessions τ :=
  Sessions.step restoreCase AppendCall.scope (fun c store => (c.run store).map Prod.fst) AppendCall.waits

/-! ## What an append writes -/

/-- What is written is of the Case, which has a counter then. -/
structure EventStore.WritesCase (scope : CaseScope) (store store' : EventStore) : Prop where
  outbox : ∃ new, store'.outbox.rows = store.outbox.rows ++ new ∧
    ∀ r ∈ new, r.payload.toCaseScope = scope
  payloads : ∃ new, store'.payloads.rows = store.payloads.rows ++ new ∧ ∀ p ∈ new, p.toCaseScope = scope
  counter : (store'.sequences.get scope).isSome
  others : ∀ other, other ≠ scope → store'.sequences.get other = store.sequences.get other
  restored : ∀ before : Table sequenceSchema, ((before.get scope).isSome → (store.sequences.get scope).isSome) →
    store'.sequences.restoreKey scope before sequences_apart =
      store.sequences.restoreKey scope before sequences_apart

section

variable {store store' : EventStore} {scope : CaseScope}

theorem lockCaseSequence_writesCase {current : ℕ} (h : lockCaseSequence store scope = .ok (store', current)) :
    store.WritesCase scope store' ∧ store'.outbox = store.outbox ∧ store'.payloads = store.payloads := by
  obtain ⟨sequences, row, hinsert, hrow, -, rfl⟩ := lockCaseSequence_eq_ok h
  have hsome : (sequences.get scope).isSome := hrow ▸ rfl
  refine ⟨⟨⟨[], by simp⟩, ⟨[], by simp⟩, hsome, fun other hne => ?_, fun before hthere => ?_⟩, rfl, rfl⟩
  · obtain hnew | rfl := Table.insertOrIgnore_map_fst hinsert
    · exact (Table.get_insert hnew other).trans (if_neg hne)
    · rfl
  · obtain hnew | rfl := Table.insertOrIgnore_map_fst hinsert
    · refine Table.restoreKey_insert sequences_apart hnew (Option.not_isSome_iff_eq_none.mp fun hbefore => ?_)
      -- the counter was not there when it was inserted
      have hnone : store.sequences.get scope = none := Table.get_none_of_insert hnew
      have hstored := hthere hbefore
      rw [hnone] at hstored
      cases hstored
    · rfl

theorem recordSnapshot_rows [Hashing] {draft : DomainEventDraft} {snapshot : Option Snapshot}
    (h : recordSnapshot store draft snapshot = .ok store') :
    ∃ new, store'.payloads.rows = store.payloads.rows ++ new ∧ ∀ p ∈ new, p.toCaseScope = draft.toCaseScope := by
  unfold recordSnapshot at h
  cases snapshot with
  | none =>
    rw [← pure_eq_ok.mp h]
    exact ⟨[], by simp⟩
  | some payload =>
    simp only [ok_iff, statement_eq_ok] at h
    obtain ⟨-, -, ⟨payloads, inserted⟩, hinsert, rfl⟩ := h
    obtain ⟨-, hnew⟩ | ⟨-, rfl⟩ := Table.insertOrIgnore_eq_ok hinsert
    · obtain ⟨-, -, hrows⟩ := Table.insert_eq_ok hnew
      exact ⟨_, hrows, fun p hp => by rw [List.mem_singleton.mp hp]⟩
    · exact ⟨[], by simp⟩

theorem EventStore.WritesCase.append {locked : EventStore} {payloads : Table payloadSchema}
    {outbox : Table outboxSchema} {sequences : Table sequenceSchema} {row : OutboxRow} {last : ℕ}
    (h : store.WritesCase scope locked)
    (hpayloads : ∃ new, payloads.rows = store.payloads.rows ++ new ∧ ∀ p ∈ new, p.toCaseScope = scope)
    (hrow : row.payload.toCaseScope = scope) (hinsert : store.outbox.insert row = .ok outbox)
    (hupdate : locked.sequences.update scope (fun s => { s with last_case_seq := last }) = .ok sequences) :
    store.WritesCase scope ⟨outbox, sequences, payloads⟩ := by
  obtain ⟨-, -, hrows⟩ := Table.insert_eq_ok hinsert
  obtain ⟨counter, hcounter⟩ := Option.isSome_iff_exists.mp h.counter
  refine ⟨⟨[row], hrows, fun r hr => ?_⟩, hpayloads, ?_, fun other hne => ?_, fun before hthere => ?_⟩
  · rw [List.mem_singleton.mp hr]
    exact hrow
  · rw [Table.get_update hupdate, if_pos rfl, Option.isSome_map]
    exact h.counter
  · rw [Table.get_update hupdate, if_neg hne]
    exact h.others other hne
  · rw [Table.restoreKey_update sequences_apart hcounter hupdate]
    exact h.restored before hthere

theorem appendEvent_writesCase [Hashing] {clk : Clock Time} {draft : DomainEventDraft}
    {snapshot : Option Snapshot} {result : DomainEvent × Bool}
    (h : appendEvent store clk draft snapshot = .ok (store', result)) :
    store.WritesCase draft.toCaseScope store' := by
  simp only [appendEvent, bind_eq_ok] at h
  obtain ⟨⟨locked, current⟩, hlock, h⟩ := h
  obtain ⟨hwrites, houtbox, hpayloads⟩ := lockCaseSequence_writesCase hlock
  dsimp only at h
  cases hget : locked.outbox.get (draft.tenant_id, draft.event_id) with
  | some stored =>
    simp only [hget, ok_iff] at h
    obtain ⟨-, rfl, -⟩ := h
    exact hwrites
  | none =>
    simp only [hget, ok_iff, statement_eq_ok] at h
    obtain ⟨recorded, hrecord, case_seq, -, ⟨outbox, inserted⟩, hinsert, h⟩ := h
    obtain ⟨hinserted, sequences, hsequences, rfl, -⟩ := h
    have hkept := recordSnapshot_rows hrecord
    obtain ⟨payloads, rfl⟩ := recordSnapshot_eq_ok hrecord
    rw [hpayloads] at hkept
    obtain ⟨-, hinsert⟩ | ⟨hfalse, -⟩ := Table.insertOrIgnore_eq_ok hinsert
    · exact hwrites.append hkept rfl (houtbox ▸ hinsert) hsequences
    · cases hinserted.symm.trans hfalse

theorem appendOutbox_writesCase {clk : Clock Time} {event : DomainEvent} {appended : Bool}
    (h : appendOutbox store clk event = .ok (store', appended)) : store.WritesCase event.toCaseScope store' := by
  simp only [appendOutbox, bind_eq_ok] at h
  obtain ⟨⟨locked, current⟩, hlock, h⟩ := h
  obtain ⟨hwrites, houtbox, hpayloads⟩ := lockCaseSequence_writesCase hlock
  dsimp only at h
  cases hget : locked.outbox.get event.key with
  | some stored =>
    simp only [hget, ok_iff] at h
    obtain ⟨-, rfl, -⟩ := h
    exact hwrites
  | none =>
    simp only [hget, statement_eq_ok, ok_iff] at h
    obtain ⟨-, ⟨outbox, inserted⟩, hinsert, hinserted, sequences, hsequences, rfl, -⟩ := h
    obtain ⟨-, hinsert⟩ | ⟨hfalse, -⟩ := Table.insertOrIgnore_eq_ok hinsert
    · exact hwrites.append ⟨[], by simp [hpayloads]⟩ rfl (houtbox ▸ hinsert) hsequences
    · cases hinserted.symm.trans hfalse

variable {c : AppendCall}

/-- **A call** appends, and writes its Case only. -/
theorem AppendCall.run_eq_ok [Hashing] (h : (c.run store).map Prod.fst = .ok store') :
    store.Appends store' ∧ store.WritesCase c.scope store' := by
  cases hrun : c.run store with
  | error e =>
    rw [hrun] at h
    cases h
  | ok result =>
    obtain ⟨left, event, replayed⟩ := result
    rw [hrun] at h
    cases h
    match c with
    | .event clk draft snapshot => exact ⟨appendEvent_appends hrun, appendEvent_writesCase hrun⟩
    | .outbox clk e =>
      simp only [AppendCall.run, ok_iff, Prod.exists] at hrun
      obtain ⟨_, appended, happend, rfl, -⟩ := hrun
      exact ⟨appendOutbox_appends happend, appendOutbox_writesCase happend⟩

/-! ## Undoing appends -/

/-- What the Case had before is still there. -/
structure CaseWithin (scope : CaseScope) (before store : EventStore) : Prop where
  outbox : before.caseRows scope <+: store.caseRows scope
  sequences : (before.sequences.get scope).isSome → (store.sequences.get scope).isSome
  payloads : ∀ p ∈ before.payloads.rows, p.toCaseScope = scope → p ∈ store.payloads.rows

/-- Numbers are right, and a Case with an event has a counter. -/
structure EventStore.Counted (store : EventStore) : Prop extends store.Ordered where
  counter : ∀ scope, store.caseEvents scope ≠ [] → (store.sequences.get scope).isSome

theorem EventStore.caseEvents_eq (store : EventStore) (scope : CaseScope) :
    store.caseEvents scope = (store.caseRows scope).map (·.payload) := by
  unfold EventStore.caseEvents EventStore.caseRows Table.select
  rw [List.filter_map]
  rfl

theorem mem_caseRows {r : OutboxRow} :
    r ∈ store.caseRows scope ↔ r ∈ store.outbox.rows ∧ r.payload.toCaseScope = scope := by
  simp [EventStore.caseRows, Table.select]

variable {before : EventStore}

theorem caseRows_restoreCase_of_ne {other : CaseScope} (hne : other ≠ scope) :
    (restoreCase store scope before).caseRows other = store.caseRows other := by
  unfold EventStore.caseRows Table.select restoreCase Table.deleteWhere
  rw [List.filter_filter]
  refine List.filter_congr fun r _ => ?_
  by_cases hr : r.payload.toCaseScope = other
  · simp [hr, hne]
  · simp [hr]

theorem caseRows_restoreCase (h : CaseWithin scope before store) :
    (restoreCase store scope before).caseRows scope = before.caseRows scope := by
  obtain ⟨new, hnew⟩ := h.outbox
  have hnodup : (before.caseRows scope ++ new).Nodup := by
    rw [hnew]
    exact store.outbox.nodup_rows.filter _
  -- what is left are the events of the Case that were there before
  have hkept : (restoreCase store scope before).caseRows scope =
      (before.caseRows scope ++ new).filter fun r => r ∈ before.caseRows scope := by
    rw [hnew]
    unfold EventStore.caseRows Table.select restoreCase Table.deleteWhere
    rw [List.filter_filter, List.filter_filter]
    refine List.filter_congr fun r _ => ?_
    by_cases hr : r.payload.toCaseScope = scope
    · simp [hr]
    · simp [hr]
  rw [hkept, List.filter_append, List.filter_eq_self.mpr fun r hr => decide_eq_true hr,
    List.filter_eq_nil_iff.mpr fun r hr hmem => ?_, List.append_nil]
  exact List.disjoint_of_nodup_append hnodup (of_decide_eq_true hmem) hr

theorem Counted.restoreCase (hs : store.Counted) (hb : before.Counted)
    (h : CaseWithin scope before store) : (restoreCase store scope before).Counted := by
  have hevents : ∀ other, (Aftercare.restoreCase store scope before).caseEvents other =
      if other = scope then before.caseEvents other else store.caseEvents other := by
    intro other
    rw [EventStore.caseEvents_eq]
    split_ifs with hsame
    · rw [hsame, caseRows_restoreCase h, ← EventStore.caseEvents_eq]
    · rw [caseRows_restoreCase_of_ne hsame, ← EventStore.caseEvents_eq]
  have hcounter : ∀ other, (Aftercare.restoreCase store scope before).sequences.get other =
      if other = scope then before.sequences.get other else store.sequences.get other := by
    intro other
    split_ifs with hsame
    · rw [hsame]
      exact Table.get_restoreKey sequences_apart h.sequences
    · exact Table.get_restoreKey_of_ne sequences_apart hsame
  refine ⟨⟨fun other => ?_, fun other row hrow => ?_⟩, fun other hevent => ?_⟩
  · rw [hevents]
    split_ifs
    · exact hb.numbered other
    · exact hs.numbered other
  · rw [hcounter] at hrow
    rw [hevents]
    split_ifs at hrow ⊢
    · exact hb.counted other row hrow
    · exact hs.counted other row hrow
  · rw [hevents] at hevent
    rw [hcounter]
    split_ifs at hevent ⊢
    · exact hb.counter other hevent
    · exact hs.counter other hevent

theorem restoreCase_restores : Restores restoreCase CaseWithin EventStore.Counted where
  refl := ⟨List.prefix_rfl, id, fun _ hp _ => hp⟩
  self := by
    intro scope store
    unfold restoreCase
    rw [Table.restoreKey_self, Table.deleteWhere_of_forall fun r hr => by simp [hr],
      Table.deleteWhere_of_forall fun r hr => by simp [hr]]
  inv hs hb h := Counted.restoreCase hs hb h
  within := by
    intro scope before other before' store hne h
    refine ⟨?_, fun hsome => ?_, fun p hp hcase => ?_⟩
    · rw [caseRows_restoreCase_of_ne hne.symm]
      exact h.outbox
    · rw [restoreCase, Table.get_restoreKey_of_ne sequences_apart hne.symm]
      exact h.sequences hsome
    · refine Table.mem_deleteWhere.mpr ⟨h.payloads p hp hcase, ?_⟩
      simp [hcase, hne.symm]
  comm := by
    intro scope before other before' store hne
    unfold restoreCase
    rw [EventStore.mk.injEq]
    exact ⟨Table.deleteWhere_comm .., Table.restoreKey_comm sequences_apart hne, Table.deleteWhere_comm ..⟩

theorem run_writes [Hashing] (hs : store.Counted) (h : (c.run store).map Prod.fst = .ok store') :
    Relational.Writes restoreCase CaseWithin EventStore.Counted c.scope store store' := by
  obtain ⟨happends, hwrites⟩ := AppendCall.run_eq_ok h
  obtain ⟨hordered, -, -⟩ := happends.ordered hs.toOrdered
  obtain ⟨new, hnew, hcase⟩ := hwrites.outbox
  obtain ⟨kept, hkept, hkeptcase⟩ := hwrites.payloads
  have hsome : ∀ other, (store.sequences.get other).isSome → (store'.sequences.get other).isSome := by
    intro other hother
    by_cases hsame : other = c.scope
    · rw [hsame]
      exact hwrites.counter
    · rw [hwrites.others other hsame]
      exact hother
  have hrows : ∀ other, store'.caseRows other =
      store.caseRows other ++ new.filter fun r => r.payload.toCaseScope = other := by
    intro other
    rw [EventStore.caseRows, Table.select, hnew, List.filter_append]
    rfl
  refine ⟨⟨hordered, fun other hevent => ?_⟩, fun {other before} hb => ⟨?_, fun hbefore => ?_, ?_⟩,
    fun {before} hb => ?_⟩
  · by_cases hsame : other = c.scope
    · rw [hsame]
      exact hwrites.counter
    · refine hsome other (hs.counter other fun hnone => hevent ?_)
      rw [EventStore.caseEvents_eq, hrows, List.map_append, ← EventStore.caseEvents_eq, hnone,
        List.nil_append, List.filter_eq_nil_iff.mpr fun r hr heq => ?_]
      · rfl
      · exact hsame ((of_decide_eq_true heq).symm.trans (hcase r hr))
  · rw [hrows]
    exact hb.outbox.trans (List.prefix_append _ _)
  · exact hsome other (hb.sequences hbefore)
  · intro p hp hpcase
    rw [hkept]
    exact List.mem_append_left _ (hb.payloads p hp hpcase)
  · -- what the call wrote is of the Case, and was not there before
    have hfresh : ∀ r ∈ new, r ∉ before.outbox.rows := by
      intro r hr hold
      have hmem := mem_caseRows.mp (hb.outbox.subset (mem_caseRows.mpr ⟨hold, hcase r hr⟩))
      have hnodup : (store.outbox.rows ++ new).Nodup := hnew ▸ store'.outbox.nodup_rows
      exact List.disjoint_of_nodup_append hnodup hmem.1 hr
    have hfreshkept : ∀ p ∈ kept, p ∉ before.payloads.rows := by
      intro p hp hold
      have hmem := hb.payloads p hold (hkeptcase p hp)
      have hnodup : (store.payloads.rows ++ kept).Nodup := hkept ▸ store'.payloads.nodup_rows
      exact List.disjoint_of_nodup_append hnodup hmem hp
    unfold restoreCase
    rw [hwrites.restored before.sequences hb.sequences,
      Table.deleteWhere_append hnew fun r hr => by simp [hcase r hr, hfresh r hr],
      Table.deleteWhere_append hkept fun p hp => by simp [hkeptcase p hp, hfreshkept p hp]]

/-! ## Events that are stored -/

theorem lockCaseSequence_found (hs : store.Ordered) (hcounter : (store.sequences.get scope).isSome) :
    lockCaseSequence store scope = .ok (store, (store.caseEvents scope).length) := by
  obtain ⟨row, hrow⟩ := Option.isSome_iff_exists.mp hcounter
  have hignored := (Table.insertOrIgnore_ignored (t := store.sequences) (r := ⟨scope, store.maxCaseSeq scope⟩)).mpr ⟨by
      rw [hs.maxCaseSeq_eq]
      exact decide_eq_true (hs.length_le scope),
    row, Table.mem_of_get hrow, fun hapart => hapart.1 (Table.key_of_get hrow)⟩
  simp only [lockCaseSequence, hignored, statement, ok_bind, hrow, fetch, hs.counted scope row hrow]
  rfl

/-- **A call that repeats a stored event** writes nothing. -/
theorem AppendCall.run_repeats [Hashing] (hs : store.Counted) {row : OutboxRow} (hrow : row ∈ store.outbox.rows)
    (hrepeats : c.Repeats row.payload) :
    c.run store = .ok (store, row.payload, true) := by
  have hcounter : (store.sequences.get row.payload.toCaseScope).isSome := by
    refine hs.counter _ (List.ne_nil_of_mem (a := row.payload) (EventStore.mem_caseEvents.mpr ?_))
    exact List.mem_map_of_mem hrow
  have hlock := lockCaseSequence_found hs.toOrdered hcounter
  have hget : store.outbox.get row.payload.key = some row := Table.get_of_mem hrow
  match c with
  | .event clk draft snapshot =>
    obtain rfl : row.payload.toDomainEventDraft = draft := hrepeats
    rw [run, appendEvent, hlock, ok_bind]
    dsimp only
    rw [show (row.payload.tenant_id, row.payload.event_id) = row.payload.key from rfl, hget]
    dsimp only
    rw [(require_eq_ok (u := ())).mpr rfl]
    rfl
  | .outbox clk e =>
    obtain rfl : row.payload = e := hrepeats
    rw [run, appendOutbox, hlock, ok_bind]
    dsimp only
    rw [hget]
    dsimp only
    rw [(require_eq_ok (u := ())).mpr rfl]
    rfl

/-- **A call with another content** is refused. -/
theorem AppendCall.run_conflict [Hashing] (hs : store.Counted) {row : OutboxRow} (hrow : row ∈ store.outbox.rows)
    (hkey : row.payload.key = c.key) (hother : ¬c.Repeats row.payload) :
    c.run store = .error (.contract .conflict "outbox event identity conflicts") := by
  have hget : store.outbox.get c.key = some row := hkey ▸ Table.get_of_mem hrow
  obtain ⟨sequences, hlock, -⟩ := lockCaseSequence_total hs.toOrdered (hs.length_le c.scope)
  match c with
  | .event clk draft snapshot =>
    have hne : row.payload.toDomainEventDraft ≠ draft := hother
    simp only [AppendCall.scope, AppendCall.key] at hlock hget
    simp only [run, appendEvent, hlock, ok_bind, hget, require, if_neg hne]
    rfl
  | .outbox clk e =>
    have hne : row.payload ≠ e := hother
    simp only [AppendCall.scope, AppendCall.key] at hlock hget
    simp only [run, appendOutbox, hlock, ok_bind, hget, require, if_neg hne]
    rfl

end

/-- **Case event numbering.** Any transactions append to any Cases, interleaved in any way, and commit or roll back. At every
point the committed events of each Case have the numbers `1..n` and its counter is `n`. -/
theorem case_event_numbering [Hashing] {τ : Type} [DecidableEq τ] {store : EventStore} (hstore : store.Counted)
    (schedule : List (τ × Op AppendCall)) : let s := schedule.foldl AppendSessions.step (Sessions.start store)
    (∀ scope, ((s.committed restoreCase).caseEvents scope).map (·.case_seq.val) =
        List.range' 1 ((s.committed restoreCase).caseEvents scope).length ∧
      match (s.committed restoreCase).sequences.get scope with
      | some counter => counter.last_case_seq = ((s.committed restoreCase).caseEvents scope).length
      | none => (s.committed restoreCase).caseEvents scope = []) ∧
    (∀ (c : AppendCall), ∀ row ∈ s.store.outbox.rows, c.Repeats row.payload →
      c.run s.store = .ok (s.store, row.payload, true)) ∧
    ∀ (t : τ) (c : AppendCall), ∀ row ∈ s.store.outbox.rows, row.payload.key = c.key →
      ¬c.Repeats row.payload →
      c.run s.store = .error (.contract .conflict "outbox event identity conflicts") ∧
      (AppendSessions.step s (t, .call c)).committed restoreCase = s.committed restoreCase ∧
      ((∀ l ∈ s.locks, l.holder ≠ t) → AppendSessions.step s (t, .call c) = s) := by
  intro s
  have hcall : ∀ (c : AppendCall) (store store' : EventStore), store.Counted →
      (c.run store).map Prod.fst = .ok store' →
      Relational.Writes restoreCase CaseWithin EventStore.Counted c.scope store store' :=
    fun c store store' hs h => run_writes hs h
  have hs : Sound CaseWithin EventStore.Counted s :=
    run_sound restoreCase_restores hcall (sound_start hstore) schedule
  have hcommitted := hs.committed restoreCase_restores
  refine ⟨fun scope => ⟨hcommitted.numbered scope, ?_⟩,
    fun c row hrow hrepeats => AppendCall.run_repeats hs.store hrow hrepeats,
    fun t c row hrow hkey hother => ?_⟩
  · split
    · rename_i counter hcounter
      exact hcommitted.counted scope counter hcounter
    · rename_i hnone
      by_contra hevents
      have hsome := hcommitted.counter scope hevents
      rw [hnone] at hsome
      cases hsome
  · have hrun := AppendCall.run_conflict hs.store hrow hkey hother
    refine ⟨hrun, committed_step restoreCase_restores hcall hs t c, fun hfree => ?_⟩
    rw [AppendSessions.step, step_call, hrun]
    split_ifs
    · rfl
    · exact rollback_of_free hfree

def noEvents : EventStore := ⟨.empty, .empty, .empty⟩

theorem noEvents_counted : noEvents.Counted where
  numbered _ := numbered_nil _
  counted _ _ hrow := by cases hrow
  counter _ hevents := absurd rfl hevents

/-- One transaction rolls back, and another one commits. -/
def rolledBackSchedule : List (ℕ × Op AppendCall) :=
  let clk : Clock Time := .still 0
  [(1, .call (.outbox clk firstEvent)), (2, .call (.outbox clk firstEvent)), (1, .rollback),
    (2, .call (.outbox clk firstEvent)), (2, .commit), (1, .call (.outbox clk secondEvent))]

def rolledBackSessions : AppendSessions ℕ :=
  rolledBackSchedule.foldl (@AppendSessions.step sampleHashing ℕ _) (Sessions.start noEvents)

/-- One event is committed, and it has the number one. -/
theorem case_event_numbering_rolled_back :
    (rolledBackSessions.committed restoreCase).caseEvents sampleScope.toCaseScope = [firstEvent] ∧
      ((rolledBackSessions.committed restoreCase).caseEvents sampleScope.toCaseScope).map
        (·.case_seq.val) = [1] := by
  have hevents : (rolledBackSessions.committed restoreCase).caseEvents sampleScope.toCaseScope =
      [firstEvent] := by decide
  obtain ⟨hnumbers, -⟩ := @case_event_numbering sampleHashing ℕ _ _ noEvents_counted rolledBackSchedule
  refine ⟨hevents, ((hnumbers sampleScope.toCaseScope).1).trans ?_⟩
  exact congrArg (fun events : List DomainEvent => List.range' 1 events.length) hevents

end Aftercare
