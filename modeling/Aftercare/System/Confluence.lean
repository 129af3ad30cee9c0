import Mathlib.Order.Bounds.Defs
import Aftercare.System.Pipeline

/-!
# The order of deliveries does not matter

What the projection of a consumer holds depends only on which events were delivered: it has applied the history up
to the first event that is missing. `Holding` holds at every point of an ingestion, `CaughtUp` between ingestions,
and each ingestion leads from one store that is caught up to the next (`ingest_ingested`).
-/

namespace Aftercare

open Relational

variable {stream : StreamKey} {n fuel : ℕ} {store' : ProjectionStore} {event : DomainEvent}
  {consumer_id : Identifier} {current position : ProjectionPosition} {r : ProjectionRow}

/-- The histories are free of gaps, with event ids of their own. -/
structure GapFree (log : CaseScope → List DomainEvent) : Prop where
  scope : ∀ scope, ∀ e ∈ log scope, e.toCaseScope = scope
  numbered : ∀ scope, Numbered DomainEvent.position (log scope)
  ids : ∀ scope, ((log scope).map (·.event_id)).Nodup

namespace GapFree

variable {log : CaseScope → List DomainEvent} {scope : CaseScope} {e e' : DomainEvent}

theorem eq_of_seq (h : GapFree log) (he : e ∈ log scope) (he' : e' ∈ log scope)
    (hseq : e.case_seq.val = e'.case_seq.val) : e = e' := by
  have hpos : DomainEvent.position e' = (e.case_seq.val - 1) + 1 := by
    rw [DomainEvent.position, ← hseq, Nat.sub_add_cancel e.case_seq.pos]
  have hself : DomainEvent.position e = (e.case_seq.val - 1) + 1 := (Nat.sub_add_cancel e.case_seq.pos).symm
  have hfirst := (h.numbered scope).getElem?_of_mem he hself
  rw [(h.numbered scope).getElem?_of_mem he' hpos] at hfirst
  exact (Option.some.inj hfirst).symm

theorem eq_of_id (h : GapFree log) (he : e ∈ log scope) (he' : e' ∈ log scope)
    (hid : e.event_id = e'.event_id) : e = e' :=
  List.inj_on_of_nodup_map (h.ids scope) he he' hid

theorem mem_take {k : ℕ} (h : GapFree log) : e ∈ (log scope).take k ↔ e ∈ log scope ∧ e.case_seq.val ≤ k := by
  constructor
  · intro hmem
    obtain ⟨i, hi⟩ := List.mem_iff_getElem?.mp hmem
    rw [List.getElem?_take] at hi
    split_ifs at hi with hlt
    refine ⟨List.mem_of_getElem? hi, ?_⟩
    have hpos : e.case_seq.val = i + 1 := (h.numbered scope).pos_eq hi
    omega
  · rintro ⟨hmem, hle⟩
    have hpos : DomainEvent.position e = (e.case_seq.val - 1) + 1 := (Nat.sub_add_cancel e.case_seq.pos).symm
    have hget := (h.numbered scope).getElem?_of_mem hmem hpos
    refine List.mem_of_getElem? (i := e.case_seq.val - 1) ?_
    rw [List.getElem?_take, if_pos (by have := e.case_seq.pos; omega), hget]

end GapFree

/-! ## Rounds of the loop -/

variable {store : ProjectionStore}

theorem length_unbuffer {next : DomainEvent} (h : eventAtSequence store.buffer stream n = some next) :
    (unbuffer store stream next.case_seq.val).buffer.rows.length < store.buffer.rows.length := by
  obtain ⟨hscope, -, hmem⟩ := eventAtSequence_eq_some h
  refine List.length_filter_lt_length_iff_exists.mpr ⟨_, hmem, ?_⟩
  have hstream : (next.toCaseScope, stream.2) = stream := by rw [hscope]
  simp [ProjectionRow.stream, hstream]

theorem recordApplied_buffer (h : recordApplied store event consumer_id = .ok store') :
    store'.buffer = store.buffer := by
  simp only [recordApplied, ok_iff, statement_eq_ok] at h
  obtain ⟨applied, -, rfl⟩ := h
  rfl

theorem advancePosition_buffer (h : advancePosition store stream n = .ok store') : store'.buffer = store.buffer := by
  simp only [advancePosition, ok_iff, statement_eq_ok] at h
  obtain ⟨positions, -, rfl⟩ := h
  rfl

theorem drainLoop_succ (fuel : ℕ) (hfuel : store.buffer.rows.length ≤ fuel) :
    drainLoop (fuel + 1) store current = drainLoop fuel store current := by
  induction fuel generalizing store current with
  | zero =>
    have hnone : eventAtSequence store.buffer current.stream (current.last_case_seq + 1) = none := by
      rw [eventAtSequence, List.eq_nil_of_length_eq_zero (Nat.le_zero.mp hfuel)]
      rfl
    simp only [drainLoop, hnone]
  | succ fuel ih =>
    rw [drainLoop, drainLoop]
    cases hnext : eventAtSequence store.buffer current.stream (current.last_case_seq + 1) with
    | none => rfl
    | some next =>
      have hshorter := length_unbuffer hnext
      refine bind_congr_ok fun _ _ => bind_congr_ok fun recorded hrecord => bind_congr_ok fun advanced hadvance => ?_
      have hbuffer : advanced.buffer = (unbuffer store current.stream next.case_seq.val).buffer := by
        rw [advancePosition_buffer hadvance, unbuffer, unbuffer, recordApplied_buffer hrecord]
      rw [ih (by rw [hbuffer]; omega)]

theorem drainLoop_eq_drain (position : ProjectionPosition) (hfuel : store.buffer.rows.length ≤ fuel) :
    drainLoop fuel store position = drain store position := by
  induction fuel, hfuel using Nat.le_induction with
  | base => rfl
  | succ fuel hfuel ih => rw [drainLoop_succ fuel hfuel, ih]

/-! ## What holds of the tables -/

section

variable (log : CaseScope → List DomainEvent) (delivered : StreamKey → DomainEvent → Prop)

/-- A part of the history is applied, and delivered events are buffered. -/
structure Holding (store : ProjectionStore) : Prop extends store.Follows log where
  applied : ∀ stream, ∀ e ∈ (log stream.1).take (store.position stream), delivered stream e
  buffer : ∀ r : ProjectionRow, r ∈ store.buffer.rows ↔ r.payload ∈ log r.payload.toCaseScope ∧
    delivered r.stream r.payload ∧ store.position r.stream < r.payload.case_seq.val

/-- The next event of each stream was not delivered. -/
structure CaughtUp (store : ProjectionStore) : Prop extends Holding log delivered store where
  gap : ∀ stream, ∀ e ∈ log stream.1, e.case_seq.val = store.position stream + 1 → ¬delivered stream e

variable {log delivered} {store : ProjectionStore}

theorem mem_applied : r ∈ store.applied.rows ↔ r.payload ∈ store.ledger r.stream := by
  unfold ProjectionStore.ledger Table.select
  simp only [List.mem_map, List.mem_filter, decide_eq_true_eq]
  constructor
  · intro hr
    exact ⟨r, ⟨hr, rfl⟩, rfl⟩
  · rintro ⟨a, ⟨ha, hstream⟩, hpayload⟩
    obtain ⟨consumer_id, payload⟩ := r
    obtain ⟨consumer_id', payload'⟩ := a
    simp only [ProjectionRow.stream, Prod.mk.injEq] at hstream hpayload
    rw [← hpayload, ← hstream.2]
    exact ha

theorem Holding.mem_applied (hlog : GapFree log) (h : Holding log delivered store) :
    r ∈ store.applied.rows ↔ r.payload ∈ log r.payload.toCaseScope ∧
      r.payload.case_seq.val ≤ store.position r.stream := by
  rw [Aftercare.mem_applied, h.ledger, hlog.mem_take]
  rfl

theorem projection_apart {a : ProjectionRow} (h : a.stream = r.stream →
    a.payload.event_id ≠ r.payload.event_id ∧ a.payload.case_seq ≠ r.payload.case_seq) :
    projectionSchema.Apart a r := by
  refine ⟨fun hkey => ?_, ?_, ?_⟩
  · obtain ⟨hsame, hid⟩ := Prod.mk.inj hkey
    exact (h hsame).1 hid
  · rw [projectionSchema_clash, Bool.and_eq_false_iff, beq_eq_false_iff_ne, beq_eq_false_iff_ne]
    by_contra hboth
    push Not at hboth
    exact (h hboth.1).2 hboth.2
  · rw [projectionSchema_clash, Bool.and_eq_false_iff, beq_eq_false_iff_ne, beq_eq_false_iff_ne]
    by_contra hboth
    push Not at hboth
    exact (h hboth.1.symm).2 hboth.2.symm

theorem position_of_get (h : store.positions.get current.stream = some current) :
    store.position current.stream = current.last_case_seq := by
  rw [ProjectionStore.position, h]
  rfl

section

variable {next : DomainEvent} {delivered' : StreamKey → DomainEvent → Prop} (buffer : Table projectionSchema)
  (hlog : GapFree log) (h : Holding log delivered store)
  (hscope : next.toCaseScope = current.toCaseScope) (hnext : next ∈ log next.toCaseScope)
  (hseq : next.case_seq.val = current.last_case_seq + 1)
include hlog h hscope hnext hseq

theorem apply_total (hcurrent : store.positions.get current.stream = some current) :
    ∃ recorded advanced, recordApplied store next current.consumer_id = .ok recorded ∧ recorded.buffer = store.buffer ∧
      advancePosition { recorded with buffer := buffer } current.stream next.case_seq.val =
        .ok advanced ∧ advanced.buffer = buffer ∧
      advanced.positions.get current.stream = some { current with last_case_seq := next.case_seq.val } ∧
      ∀ stream, advanced.position stream =
        if stream = current.stream then next.case_seq.val else store.position stream := by
  have hstream : (⟨current.consumer_id, next⟩ : ProjectionRow).stream = current.stream := by
    rw [ProjectionRow.stream, hscope]
    rfl
  have hposition := position_of_get hcurrent
  -- every applied event of the stream stands before the next one
  have hbefore : ∀ a ∈ store.applied.rows, a.stream = current.stream →
      a.payload ∈ log next.toCaseScope ∧ a.payload.case_seq.val < next.case_seq.val := by
    intro a ha hsame
    obtain ⟨hmem, hle⟩ := (h.mem_applied hlog).mp ha
    have hcase : a.payload.toCaseScope = next.toCaseScope := (congrArg Prod.fst hsame).trans hscope.symm
    rw [hsame, hposition] at hle
    exact ⟨hcase ▸ hmem, by omega⟩
  obtain ⟨applied, happlied⟩ := Table.insert_of_apart (S := projectionSchema) (t := store.applied)
    (r := ⟨current.consumer_id, next⟩) rfl fun a ha => projection_apart fun hsame => by
      obtain ⟨hmem, hlt⟩ := hbefore a ha (hsame.trans hstream)
      refine ⟨fun hid => ?_, fun hsame => ?_⟩
      · rw [hlog.eq_of_id hmem hnext hid] at hlt
        exact lt_irrefl _ hlt
      · rw [hsame] at hlt
        exact lt_irrefl _ hlt
  let f : ProjectionPosition → ProjectionPosition := fun p => { p with last_case_seq := next.case_seq.val }
  have hcheck : positionSchema.check (f current) = true := by
    simpa using next.case_seq.le
  obtain ⟨positions, hpositions⟩ := Table.update_total (f := f) hcurrent hcheck rfl fun _ => ⟨rfl, rfl⟩
  refine ⟨{ store with applied := applied }, ⟨positions, applied, buffer⟩, ?_, rfl, ?_, rfl, ?_, ?_⟩
  · rw [recordApplied, happlied]
    rfl
  · rw [advancePosition, hpositions]
    rfl
  · rw [Table.get_update hpositions, if_pos rfl, hcurrent]
    rfl
  · intro stream
    rw [ProjectionStore.position, Table.get_update hpositions]
    split_ifs with hsame
    · rw [hcurrent]
      rfl
    · rfl

theorem Holding.apply (hfollows : store'.Follows log) (hcurrent : store.position current.stream = current.last_case_seq)
    (hdelivered : ∀ stream e, delivered' stream e ↔ delivered stream e ∨ stream = current.stream ∧ e = next)
    (hbuffer : ∀ r : ProjectionRow, r ∈ store'.buffer.rows ↔ r ∈ store.buffer.rows ∧
      ¬(r.stream = current.stream ∧ r.payload.case_seq.val = next.case_seq.val))
    (hposition : ∀ stream, store'.position stream =
      if stream = current.stream then next.case_seq.val else store.position stream) :
    Holding log delivered' store' := by
  refine ⟨hfollows, fun stream e he => ?_, fun r => ?_⟩
  · rw [hdelivered]
    rw [hlog.mem_take, hposition] at he
    split_ifs at he with hsame
    · obtain hlt | heq := Nat.lt_or_eq_of_le he.2
      · refine .inl (h.applied stream e (hlog.mem_take.mpr ⟨he.1, ?_⟩))
        rw [hsame, hcurrent]
        omega
      · have hmem : next ∈ log stream.1 := by
          rw [hsame, ← show next.toCaseScope = current.stream.1 from hscope]
          exact hnext
        exact .inr ⟨hsame, hlog.eq_of_seq he.1 hmem heq⟩
    · exact .inl (h.applied stream e (hlog.mem_take.mpr he))
  · rw [hbuffer, h.buffer, hdelivered, hposition]
    split_ifs with hsame
    · rw [hsame, hcurrent]
      constructor
      · rintro ⟨⟨hmem, hd, hlt⟩, hother⟩
        refine ⟨hmem, .inl hd, ?_⟩
        have hne : r.payload.case_seq.val ≠ next.case_seq.val := fun heq => hother ⟨rfl, heq⟩
        omega
      · rintro ⟨hmem, hd | ⟨-, heq⟩, hlt⟩
        · exact ⟨⟨hmem, hd, by omega⟩, fun ⟨_, heq⟩ => by omega⟩
        · rw [heq] at hlt
          exact absurd hlt (lt_irrefl _)
    · simp [hsame]

/-- Applying the next event extends the ledger of the stream. -/
theorem apply_holds (hcurrent : store.positions.get current.stream = some current)
    (hdelivered : ∀ stream e, delivered' stream e ↔ delivered stream e ∨ stream = current.stream ∧ e = next)
    (hbuffer : ∀ r : ProjectionRow, r ∈ buffer.rows ↔ r ∈ store.buffer.rows ∧
      ¬(r.stream = current.stream ∧ r.payload.case_seq.val = next.case_seq.val)) :
    ∃ recorded advanced, recordApplied store next current.consumer_id = .ok recorded ∧ recorded.buffer = store.buffer ∧
      advancePosition { recorded with buffer := buffer } current.stream next.case_seq.val =
        .ok advanced ∧ advanced.buffer = buffer ∧ Holding log delivered' advanced ∧
      advanced.positions.get current.stream = some { current with last_case_seq := next.case_seq.val } ∧
      (∀ stream, stream ≠ current.stream → advanced.position stream = store.position stream) ∧
      advanced.ledger current.stream = store.ledger current.stream ++ [next] := by
  obtain ⟨recorded, advanced, hrecord, hkept, hadvance, hbuffered, hget, hposition⟩ :=
    apply_total buffer hlog h hscope hnext hseq hcurrent
  obtain ⟨hstep, -, -⟩ := ingestStep_of_apply next hscope hcurrent (.inl rfl) hseq
    (fun r hr => ((hbuffer r).mp hr).1) hrecord hadvance
  have hfollows := h.toFollows.step hlog.numbered hnext hstep
  have hbefore := position_of_get hcurrent
  refine ⟨recorded, advanced, hrecord, hkept, hadvance, hbuffered,
    h.apply hlog hscope hnext hseq hfollows hbefore hdelivered (by rw [hbuffered]; exact hbuffer) hposition,
    hget, fun stream hne => by rw [hposition, if_neg hne], ?_⟩
  have hmem : next ∈ log current.stream.1 := by
    rw [← show next.toCaseScope = current.stream.1 from hscope]
    exact hnext
  rw [hfollows.ledger, hposition, if_pos rfl, hseq, h.ledger, hbefore]
  exact ((hlog.numbered _).take_succ hmem hseq).1

end

theorem eventAtSequence_eq_none {table : Table projectionSchema} : eventAtSequence table stream n = none ↔
      ∀ r ∈ table.rows, r.stream = stream → r.payload.case_seq.val ≠ n := by
  simp [eventAtSequence, List.find?_eq_none]

theorem Holding.not_delivered (hlog : GapFree log) (h : Holding log delivered store)
    (hnone : eventAtSequence store.buffer stream (store.position stream + 1) = none) :
    ∀ e ∈ log stream.1, e.case_seq.val = store.position stream + 1 → ¬delivered stream e := by
  intro e he hseq hd
  have hcase : (e.toCaseScope, stream.2) = stream := by rw [hlog.scope _ e he]
  have hrow : (⟨stream.2, e⟩ : ProjectionRow) ∈ store.buffer.rows := by
    refine (h.buffer _).mpr ⟨?_, ?_, ?_⟩
    · rw [hlog.scope _ e he]
      exact he
    · exact hcase.symm ▸ hd
    · change store.position (e.toCaseScope, stream.2) < e.case_seq.val
      rw [hcase]
      omega
  exact eventAtSequence_eq_none.mp hnone _ hrow hcase hseq

structure Drained (log : CaseScope → List DomainEvent) (delivered : StreamKey → DomainEvent → Prop)
    (stream : StreamKey) (store store' : ProjectionStore) (current : ProjectionPosition)
    (applied : List DomainEvent) : Prop where
  holds : Holding log delivered store'
  same_stream : current.stream = stream
  position : store'.positions.get stream = some current
  others : ∀ other, other ≠ stream → store'.position other = store.position other
  ledger : store'.ledger stream = store.ledger stream ++ applied
  gap : ∀ e ∈ log stream.1, e.case_seq.val = store'.position stream + 1 → ¬delivered stream e

theorem Holding.drained (hlog : GapFree log) (h : Holding log delivered store)
    (hcurrent : store.positions.get current.stream = some current)
    (hnone : eventAtSequence store.buffer current.stream (current.last_case_seq + 1) = none) :
    Drained log delivered current.stream store store current [] := by
  rw [← position_of_get hcurrent] at hnone
  exact ⟨h, rfl, hcurrent, fun _ _ => rfl, (List.append_nil _).symm, h.not_delivered hlog hnone⟩

theorem drainLoop_drained (hlog : GapFree log) (current : ProjectionPosition) (h : Holding log delivered store)
    (hfuel : store.buffer.rows.length ≤ fuel) (hcurrent : store.positions.get current.stream = some current) :
    ∃ store' current' applied, drainLoop fuel store current = .ok (store', current', applied) ∧
      Drained log delivered current.stream store store' current' applied := by
  induction fuel generalizing store current with
  | zero =>
    refine ⟨store, current, [], rfl, h.drained hlog hcurrent ?_⟩
    rw [eventAtSequence, List.eq_nil_of_length_eq_zero (Nat.le_zero.mp hfuel)]
    rfl
  | succ fuel ih =>
    rw [drainLoop]
    cases hnext : eventAtSequence store.buffer current.stream (current.last_case_seq + 1) with
    | none => exact ⟨store, current, [], rfl, h.drained hlog hcurrent hnext⟩
    | some next =>
      obtain ⟨hscope, hseq, hmem⟩ := eventAtSequence_eq_some hnext
      obtain ⟨hlogged, hd, -⟩ := (h.buffer _).mp hmem
      have hstream : (next.toCaseScope, current.consumer_id) = current.stream := by
        rw [hscope]
        rfl
      have hknown : ∀ stream e, delivered stream e ↔
          delivered stream e ∨ stream = current.stream ∧ e = next := fun stream e =>
        ⟨.inl, fun hor => hor.elim id fun heq => by rw [heq.1, heq.2, ← hstream]; exact hd⟩
      have hshorter := length_unbuffer hnext
      -- one round, and then the rest of the loop from the position it has reached
      obtain ⟨recorded, advanced, hrecord, hkept, hadvance, hbuffered, hholds, hget, hothers, hledger⟩ :=
        apply_holds (unbuffer store current.stream next.case_seq.val).buffer hlog h hscope hlogged hseq
          hcurrent hknown fun r => by simp [unbuffer, Table.mem_deleteWhere]
      obtain ⟨store', current', applied, hloop, hrest⟩ :=
        ih { current with last_case_seq := next.case_seq.val } hholds (by rw [hbuffered]; omega) hget
      have hdrained : Drained log delivered current.stream advanced store' current' applied := hrest
      have hunbuffer : unbuffer recorded current.stream next.case_seq.val =
          { recorded with buffer := (unbuffer store current.stream next.case_seq.val).buffer } := by
        rw [unbuffer, unbuffer, hkept]
      refine ⟨store', current', next :: applied, ?_, hdrained.holds, hdrained.same_stream,
        hdrained.position, fun other hne => (hdrained.others other hne).trans (hothers other hne), ?_,
        hdrained.gap⟩
      · dsimp only
        rw [(require_eq_ok (u := ())).mpr hseq, ok_bind, hrecord, ok_bind, hunbuffer]
        change (advancePosition _ current.stream _ >>= _) = _
        rw [hadvance, ok_bind, hloop]
        rfl
      · rw [hdrained.ledger, hledger, List.append_assoc, List.singleton_append]

/-! ## One ingestion -/

def also (delivered : StreamKey → DomainEvent → Prop) (stream : StreamKey) (event : DomainEvent) :
    StreamKey → DomainEvent → Prop :=
  fun s e => delivered s e ∨ s = stream ∧ e = event

theorem also_eq_self (h : delivered stream event) : also delivered stream event = delivered := by
  funext s e
  exact propext ⟨fun hor => hor.elim id fun ⟨hs, he⟩ => hs ▸ he ▸ h, .inl⟩

theorem ensurePosition_total (store : ProjectionStore) (stream : StreamKey) :
    ∃ opened position, ensurePosition store stream = .ok (opened, position) ∧
      position.stream = stream ∧ opened.positions.get stream = some position ∧
      opened.applied = store.applied ∧ opened.buffer = store.buffer ∧
      ∀ s, opened.position s = store.position s := by
  obtain ⟨positions, inserted, hinsert, hget⟩ := Table.insertOrIgnore_total (t := store.positions)
    (r := ⟨stream.1, stream.2, 0⟩) (by simp) fun _ => ⟨rfl, rfl⟩
  have hkey : positionSchema.key ⟨stream.1, stream.2, 0⟩ = stream := rfl
  rw [hkey] at hget
  refine ⟨{ store with positions := positions }, _, ?_, Table.key_of_get hget, hget, rfl, rfl, fun s => ?_⟩
  · simp only [ensurePosition, hinsert, statement, ok_bind, hget, fetch]
    rfl
  · obtain ⟨-, hnew⟩ | ⟨-, hsame⟩ := Table.insertOrIgnore_eq_ok hinsert
    · have hnone := Table.get_none_of_insert hnew
      rw [ProjectionStore.position, ProjectionStore.position, Table.get_insert hnew]
      split_ifs with hs
      · rw [hs, hnone]
        rfl
      · rfl
    · rw [hsame]

theorem CaughtUp.congr (h : CaughtUp log delivered store) (happlied : store'.applied = store.applied)
    (hbuffer : store'.buffer = store.buffer)
    (hposition : ∀ stream, store'.position stream = store.position stream) : CaughtUp log delivered store' where
  ledger stream := by
    rw [ProjectionStore.ledger, happlied, hposition]
    exact h.ledger stream
  bounded stream := hposition stream ▸ h.bounded stream
  buffered := hbuffer ▸ h.buffered
  applied stream e he := h.applied stream e (hposition stream ▸ he)
  buffer r := by
    rw [hbuffer, hposition]
    exact h.buffer r
  gap stream e he hseq := h.gap stream e he (hposition stream ▸ hseq)

/-- One more delivery is caught up with, and the ledger has grown. -/
structure Ingested (log : CaseScope → List DomainEvent) (delivered : StreamKey → DomainEvent → Prop)
    (stream : StreamKey) (event : DomainEvent) (store store' : ProjectionStore)
    (applied : List DomainEvent) : Prop where
  caughtUp : CaughtUp log (also delivered stream event) store'
  others : ∀ other, other ≠ stream → store'.ledger other = store.ledger other
  ledger : store'.ledger stream = store.ledger stream ++ applied

theorem CaughtUp.ingested_again (h : CaughtUp log delivered store) (hd : delivered stream event) :
    Ingested log delivered stream event store store [] :=
  ⟨(also_eq_self hd).symm ▸ h, fun _ _ => rfl, (List.append_nil _).symm⟩

theorem Drained.caughtUp {middle : ProjectionStore} {applied : List DomainEvent} (h : CaughtUp log delivered store)
    (hmiddle : ∀ other, other ≠ stream → middle.position other = store.position other)
    (hdrained : Drained log (also delivered stream event) stream middle store' current applied) :
    CaughtUp log (also delivered stream event) store' ∧
      ∀ other, other ≠ stream → store'.ledger other = store.ledger other := by
  have hother : ∀ other, other ≠ stream → store'.position other = store.position other :=
    fun other hne => (hdrained.others other hne).trans (hmiddle other hne)
  refine ⟨⟨hdrained.holds, fun other e he hseq hd => ?_⟩, fun other hne => ?_⟩
  · by_cases hsame : other = stream
    · rw [hsame] at he hseq hd
      exact hdrained.gap e he hseq hd
    · rw [hother other hsame] at hseq
      exact h.gap other e he hseq (hd.resolve_right fun hnew => hsame hnew.1)
  · rw [hdrained.holds.ledger, h.ledger, hother other hne]

theorem drain_again (hlog : GapFree log) (h : CaughtUp log delivered store)
    (hposition : store.positions.get position.stream = some position) (hd : delivered position.stream event) :
    ∃ store' position' drained, drain store position = .ok (store', position', drained) ∧
      Ingested log delivered position.stream event store store' drained := by
  have hsame := also_eq_self hd
  obtain ⟨store', position', drained, hdrain, hdrained⟩ := drainLoop_drained hlog position h.toHolding le_rfl hposition
  rw [← hsame] at hdrained
  obtain ⟨hcaught, hothers⟩ := hdrained.caughtUp h fun _ _ => rfl
  exact ⟨store', position', drained, hdrain, hcaught, hothers, hdrained.ledger⟩

theorem Holding.stored_eq (hlog : GapFree log) (h : Holding log delivered store)
    (hevent : event ∈ log event.toCaseScope) (hr : r ∈ store.applied.rows ∨ r ∈ store.buffer.rows)
    (hcase : r.payload.toCaseScope = event.toCaseScope)
    (hsame : r.payload.event_id = event.event_id ∨ r.payload.case_seq.val = event.case_seq.val) :
    r.payload = event := by
  have hmem : r.payload ∈ log r.payload.toCaseScope :=
    hr.elim (fun hr => ((h.mem_applied hlog).mp hr).1) fun hr => ((h.buffer r).mp hr).1
  rw [hcase] at hmem
  exact hsame.elim (hlog.eq_of_id hmem hevent) (hlog.eq_of_seq hmem hevent)

theorem Holding.delivered_of_stored (hlog : GapFree log) (h : Holding log delivered store)
    (hr : r ∈ store.applied.rows ∨ r ∈ store.buffer.rows) : delivered r.stream r.payload :=
  hr.elim (fun hr => h.applied r.stream r.payload (hlog.mem_take.mpr ((h.mem_applied hlog).mp hr)))
    fun hr => ((h.buffer r).mp hr).2.1

theorem projectionDecision_after (hscope : position.toCaseScope = event.toCaseScope)
    (hafter : position.last_case_seq < event.case_seq.val) : projectionDecision position event none =
      .ok (if event.case_seq.val ≠ position.last_case_seq + 1 then .bufferGap else .apply) := by
  have hcase : (position.tenant_id, position.case_id) = (event.tenant_id, event.case_id) :=
    congrArg (fun c : CaseScope => (c.tenant_id, c.case_id)) hscope
  rw [projectionDecision, (require_eq_ok (u := ())).mpr hcase, ok_bind, if_neg (not_le.mpr hafter),
    (require_eq_ok (u := ())).mpr rfl, ok_bind]
  split_ifs
  · rfl
  · rfl

theorem CaughtUp.buffer_event (h : CaughtUp log delivered store) {buffer : Table projectionSchema}
    (hposition : store.positions.get position.stream = some position) (hevent : event ∈ log event.toCaseScope)
    (hrow : (⟨position.consumer_id, event⟩ : ProjectionRow).stream = position.stream)
    (hafter : position.last_case_seq < event.case_seq.val)
    (hgap : event.case_seq.val ≠ position.last_case_seq + 1)
    (hinsert : store.buffer.insert ⟨position.consumer_id, event⟩ = .ok buffer) :
    CaughtUp log (also delivered position.stream event) { store with buffer := buffer } := by
  have hcurrent := position_of_get hposition
  refine ⟨⟨⟨h.ledger, h.bounded, fun r hr => ?_⟩, fun stream e he => .inl (h.applied stream e he),
    fun r => ?_⟩, fun stream e he hseq hd => ?_⟩
  · obtain hr | rfl := (Table.mem_insert hinsert).mp hr
    · exact h.buffered r hr
    · exact hevent
  · change r ∈ buffer.rows ↔ _ ∧ _ ∧ store.position r.stream < _
    rw [Table.mem_insert hinsert, h.buffer, also]
    constructor
    · rintro (⟨hmem, hd, hlt⟩ | rfl)
      · exact ⟨hmem, .inl hd, hlt⟩
      · rw [hrow, hcurrent]
        exact ⟨hevent, .inr ⟨rfl, rfl⟩, hafter⟩
    · rintro ⟨hmem, hd | ⟨hs, he⟩, hlt⟩
      · exact .inl ⟨hmem, hd, hlt⟩
      · obtain ⟨consumer_id, payload⟩ := r
        have hconsumer : consumer_id = position.consumer_id := congrArg Prod.snd hs
        exact .inr (by rw [hconsumer, show payload = event from he])
  · obtain hd | ⟨hs, rfl⟩ := hd
    · exact h.gap stream e he hseq hd
    · change _ = store.position stream + 1 at hseq
      rw [hs, hcurrent] at hseq
      exact hgap hseq

theorem ingestNew_ingested (hlog : GapFree log) (h : CaughtUp log delivered store)
    (hstream : position.stream = (event.toCaseScope, consumer_id))
    (hposition : store.positions.get position.stream = some position) (hevent : event ∈ log event.toCaseScope)
    (hnew : ∀ r, r ∈ store.applied.rows ∨ r ∈ store.buffer.rows → r.stream = position.stream →
      r.payload.event_id ≠ event.event_id ∧ r.payload.case_seq.val ≠ event.case_seq.val) :
    ∃ store' result, ingestNew store position event consumer_id = .ok (store', result) ∧
      Ingested log delivered position.stream event store store' result.applied := by
  obtain ⟨hscope, rfl⟩ := Prod.mk.inj hstream
  have hrow : (⟨position.consumer_id, event⟩ : ProjectionRow).stream = position.stream := hstream.symm
  have hafter : position.last_case_seq < event.case_seq.val := by
    by_contra hle
    have happlied : (⟨position.consumer_id, event⟩ : ProjectionRow) ∈ store.applied.rows := by
      refine (h.mem_applied hlog).mpr ⟨hevent, ?_⟩
      rw [hrow, position_of_get hposition]
      exact not_lt.mp hle
    exact (hnew _ (.inl happlied) hrow).1 rfl
  have hdecision := projectionDecision_after hscope hafter
  by_cases hnext : event.case_seq.val = position.last_case_seq + 1
  · rw [if_neg (not_not.mpr hnext)] at hdecision
    obtain ⟨recorded, advanced, hrecord, hkept, hadvance, hbuffered, hholds, hget, hothers, hledger⟩ :=
      @apply_holds _ _ _ _ _ (also delivered position.stream event) store.buffer hlog h.toHolding
        hscope.symm hevent hnext hposition (fun _ _ => Iff.rfl) fun r => ⟨fun hr => ⟨hr, fun ⟨hs, hseq⟩ =>
          (hnew r (.inr hr) hs).2 hseq⟩, And.left⟩
    obtain ⟨store', current', drained, hdrain, hdrained⟩ := drainLoop_drained hlog
      { position with last_case_seq := event.case_seq.val } hholds le_rfl hget
    obtain ⟨hcaught, hsame⟩ := Drained.caughtUp h hothers hdrained
    refine ⟨store', ⟨.apply, event :: drained, current'⟩, ?_, hcaught, hsame, ?_⟩
    · rw [← hkept] at hadvance
      rw [ingestNew, hdecision, ok_bind, if_neg (by decide), hrecord, ok_bind]
      change (advancePosition recorded position.stream _ >>= _) = _
      rw [hadvance, ok_bind, drain, hdrain]
      rfl
    · have hgrown : store'.ledger position.stream = advanced.ledger position.stream ++ drained := hdrained.ledger
      rw [hgrown, hledger, List.append_assoc, List.singleton_append]
  · rw [if_pos hnext] at hdecision
    obtain ⟨buffer, hinsert⟩ := Table.insert_of_apart (S := projectionSchema) (t := store.buffer)
      (r := ⟨position.consumer_id, event⟩) rfl fun a ha => projection_apart fun hs => by
        obtain ⟨hid, hseq⟩ := hnew a (.inr ha) (hs.trans hrow)
        exact ⟨hid, fun heq => hseq (congrArg PositiveInt.val heq)⟩
    refine ⟨{ store with buffer := buffer }, ⟨.bufferGap, [], position⟩, ?_, ?_, fun _ _ => rfl,
      (List.append_nil _).symm⟩
    · simp only [ingestNew, hdecision, ok_bind, if_true, hinsert, statement]
      rfl
    · exact h.buffer_event hposition hevent hrow hafter hnext hinsert

theorem ingestAtSequence_ingested (hlog : GapFree log) (h : CaughtUp log delivered store)
    (hstream : position.stream = (event.toCaseScope, consumer_id))
    (hposition : store.positions.get position.stream = some position) (hevent : event ∈ log event.toCaseScope)
    (happlied : store.applied.get (position.stream, event.event_id) = none)
    (hbuffer : store.buffer.get (position.stream, event.event_id) = none) :
    ∃ store' result, ingestAtSequence store position event consumer_id = .ok (store', result) ∧
      Ingested log delivered position.stream event store store' result.applied := by
  rw [ingestAtSequence, ← hstream]
  have hcase : position.stream.1 = event.toCaseScope := congrArg Prod.fst hstream
  match hfirst : eventAtSequence store.applied position.stream event.case_seq.val with
  | some stored =>
    obtain ⟨hscope, hseq, hmem⟩ := eventAtSequence_eq_some hfirst
    have hsame : stored = event := h.stored_eq hlog hevent (.inl hmem) (hscope.trans hcase) (.inr hseq)
    have hd := h.delivered_of_stored hlog (.inl hmem)
    rw [ProjectionRow.stream, hscope] at hd
    subst hsame
    refine ⟨store, ⟨.replay, [], position⟩, ?_, h.ingested_again hd⟩
    dsimp only
    rw [(require_eq_ok (u := ())).mpr ⟨rfl, rfl⟩]
    rfl
  | none =>
    dsimp only
    match hsecond : eventAtSequence store.buffer position.stream event.case_seq.val with
    | some stored =>
      obtain ⟨hscope, hseq, hmem⟩ := eventAtSequence_eq_some hsecond
      have hsame : stored = event := h.stored_eq hlog hevent (.inr hmem) (hscope.trans hcase) (.inr hseq)
      have hd := h.delivered_of_stored hlog (.inr hmem)
      rw [ProjectionRow.stream, hscope] at hd
      subst hsame
      obtain ⟨store', position', drained, hdrain, hingested⟩ := drain_again hlog h hposition hd
      refine ⟨store', ⟨.bufferGap, drained, position'⟩, ?_, hingested⟩
      dsimp only
      rw [(require_eq_ok (u := ())).mpr ⟨rfl, rfl⟩, ok_bind, hdrain]
      rfl
    | none =>
      refine ingestNew_ingested hlog h hstream hposition hevent fun r hr hs => ?_
      obtain hr | hr := hr
      · exact ⟨fun hid => Table.get_eq_none.mp happlied r hr (Prod.ext hs hid),
          eventAtSequence_eq_none.mp hfirst r hr hs⟩
      · exact ⟨fun hid => Table.get_eq_none.mp hbuffer r hr (Prod.ext hs hid),
          eventAtSequence_eq_none.mp hsecond r hr hs⟩

theorem row_of_get {table : Table projectionSchema} {event_id : Identifier} {row : ProjectionRow}
    (h : table.get (stream, event_id) = some row) :
    row ∈ table.rows ∧ row.stream = stream ∧ row.payload.event_id = event_id :=
  ⟨Table.mem_of_get h, Prod.mk.inj (Table.key_of_get h)⟩

/-- **One ingestion** of an event of the history catches up with it. -/
theorem ingest_ingested (hlog : GapFree log) (h : CaughtUp log delivered store)
    (consumer_id : Identifier) (hevent : event ∈ log event.toCaseScope) :
    ∃ store' result, ingest store event consumer_id.val = .ok (store', result) ∧
      Ingested log delivered (event.toCaseScope, consumer_id) event store store' result.applied := by
  obtain ⟨opened, position, hensure, hstream, hposition, happlied, hbuffer, hsame⟩ :=
    ensurePosition_total store (event.toCaseScope, consumer_id)
  have hopened := h.congr happlied hbuffer hsame
  have hledger : ∀ stream, opened.ledger stream = store.ledger stream := fun stream => by
    rw [ProjectionStore.ledger, happlied]
    rfl
  -- it is enough to go on from the store with the position
  suffices hrest : ∃ store' result, ingest store event consumer_id.val = .ok (store', result) ∧
      Ingested log delivered position.stream event opened store' result.applied by
    obtain ⟨store', result, hingest, hcaught, hothers, hgrown⟩ := hrest
    rw [hstream] at hcaught hothers hgrown
    exact ⟨store', result, hingest, hcaught, fun other hne => (hothers other hne).trans (hledger other),
      hgrown.trans (by rw [hledger])⟩
  rw [ingest, (require_eq_ok (u := ())).mpr consumer_id.ne_empty, ok_bind, identifier_eq_ok.mpr rfl, ok_bind]
  dsimp only
  rw [hensure, ok_bind, ← hstream]
  rw [← hstream] at hposition
  dsimp only
  have hcase : position.stream.1 = event.toCaseScope := congrArg Prod.fst hstream
  cases hfirst : opened.applied.get (position.stream, event.event_id) with
  | some row =>
    obtain ⟨hmem, hrow, hid⟩ := row_of_get hfirst
    have hsame : row.payload = event :=
      hopened.stored_eq hlog hevent (.inl hmem) ((congrArg Prod.fst hrow).trans hcase) (.inl hid)
    have hle := ((hopened.mem_applied hlog).mp hmem).2
    rw [hrow, hsame, position_of_get hposition] at hle
    have hd := hopened.delivered_of_stored hlog (.inl hmem)
    rw [hrow, hsame] at hd
    refine ⟨opened, ⟨.replay, [], position⟩, ?_, hopened.ingested_again hd⟩
    dsimp only
    rw [(require_eq_ok (u := ())).mpr ⟨congrArg _ hsame, hsame⟩, ok_bind, (require_eq_ok (u := ())).mpr hle]
    rfl
  | none =>
    dsimp only
    cases hsecond : opened.buffer.get (position.stream, event.event_id) with
    | some row =>
      obtain ⟨hmem, hrow, hid⟩ := row_of_get hsecond
      have hsame : row.payload = event :=
        hopened.stored_eq hlog hevent (.inr hmem) ((congrArg Prod.fst hrow).trans hcase) (.inl hid)
      have hd := hopened.delivered_of_stored hlog (.inr hmem)
      rw [hrow, hsame] at hd
      obtain ⟨store', position', drained, hdrain, hingested⟩ := drain_again hlog hopened hposition hd
      refine ⟨store', ⟨if drained.any (·.event_id == event.event_id) then .replay else .bufferGap,
        drained, position'⟩, ?_, hingested⟩
      dsimp only
      rw [(require_eq_ok (u := ())).mpr ⟨congrArg _ hsame, hsame⟩, ok_bind, hdrain]
      rfl
    | none => exact ingestAtSequence_ingested hlog hopened hstream hposition hevent hfirst hsecond

/-! ## Events that contradict a stored one -/

/-- Every stream that an event was delivered to has a position. -/
def Positioned (delivered : StreamKey → DomainEvent → Prop) (store : ProjectionStore) : Prop :=
  ∀ stream e, delivered stream e → (store.positions.get stream).isSome

theorem ingestStep_isSome (hstep : store.IngestStep event store') (h : (store.positions.get stream).isSome) :
    (store'.positions.get stream).isSome := by
  cases hstep with
  | start opened hinsert =>
    rw [Table.get_insert hinsert]
    split_ifs
    · rfl
    · exact h
  | buffer _ _ => exact h
  | apply next consumer_id _ _ _ _ hpositions _ =>
    rw [Table.get_update hpositions]
    split_ifs with hsame
    · rw [Option.isSome_map, ← hsame]
      exact h
    · exact h

theorem ingests_isSome (hsteps : ProjectionStore.Ingests event store store')
    (h : (store.positions.get stream).isSome) : (store'.positions.get stream).isSome := by
  induction hsteps with
  | refl => exact h
  | tail _ hstep ih => exact ingestStep_isSome hstep ih

theorem Positioned.ingest {result : ProjectionIngestResult} (h : Positioned delivered store)
    (hingest : ingest store event consumer_id.val = .ok (store', result)) :
    Positioned (also delivered (event.toCaseScope, consumer_id) event) store' := by
  obtain ⟨consumer, opened, position, hconsumer, hensure, hrest⟩ := ingest_opened hingest
  obtain ⟨hfirst, -, hget⟩ := ensurePosition_ingests event hensure
  rintro stream e (hd | ⟨rfl, -⟩)
  · exact ingests_isSome (hfirst.trans hrest) (h stream e hd)
  · refine ingests_isSome hrest ?_
    rw [← Identifier.ext hconsumer, hget]
    rfl

theorem ensurePosition_found (h : (store.positions.get stream).isSome) :
    ∃ position, ensurePosition store stream = .ok (store, position) := by
  obtain ⟨position, hget⟩ := Option.isSome_iff_exists.mp h
  have hignored := (Table.insertOrIgnore_ignored (t := store.positions) (r := ⟨stream.1, stream.2, 0⟩)).mpr
    ⟨by simp, position, Table.mem_of_get hget, fun hapart => hapart.1 (Table.key_of_get hget)⟩
  refine ⟨position, ?_⟩
  simp only [ensurePosition, hignored, statement, ok_bind, hget, fetch]
  rfl

def Conflict : Failure → Prop
  | .contract .conflict _ => True
  | _ => False

theorem ingestAtSequence_conflict (hr : r ∈ store.applied.rows ∨ r ∈ store.buffer.rows)
    (hstream : r.stream = (event.toCaseScope, consumer_id)) (hseq : r.payload.case_seq.val = event.case_seq.val)
    (hnew : ∀ r, r ∈ store.applied.rows ∨ r ∈ store.buffer.rows → r.payload ≠ event) :
    Raises Conflict (ingestAtSequence store position event consumer_id) := by
  rw [ingestAtSequence]
  dsimp only
  match hfirst : eventAtSequence store.applied (event.toCaseScope, consumer_id) event.case_seq.val with
  | some stored =>
    obtain ⟨-, -, hmem⟩ := eventAtSequence_eq_some hfirst
    exact raises_bind.mpr (.inl (raises_require.mpr ⟨fun h => hnew _ (.inl hmem) h.2, trivial⟩))
  | none =>
    dsimp only
    match hsecond :
        eventAtSequence store.buffer (event.toCaseScope, consumer_id) event.case_seq.val with
    | some stored =>
      obtain ⟨-, -, hmem⟩ := eventAtSequence_eq_some hsecond
      exact raises_bind.mpr (.inl (raises_require.mpr ⟨fun h => hnew _ (.inr hmem) h.2, trivial⟩))
    | none =>
      obtain hr | hr := hr
      · exact absurd hseq (eventAtSequence_eq_none.mp hfirst r hr hstream)
      · exact absurd hseq (eventAtSequence_eq_none.mp hsecond r hr hstream)

/-- **An event that contradicts a stored one is refused.** -/
theorem ingest_conflict (hlog : GapFree log) (h : CaughtUp log delivered store)
    (hopened : Positioned delivered store) (hr : r ∈ store.applied.rows ∨ r ∈ store.buffer.rows)
    (hstream : r.stream = (event.toCaseScope, consumer_id))
    (hsame : r.payload.event_id = event.event_id ∨ r.payload.case_seq.val = event.case_seq.val)
    (hother : r.payload ≠ event) :
    (∃ position, ensurePosition store (event.toCaseScope, consumer_id) = .ok (store, position)) ∧
      Raises Conflict (ingest store event consumer_id.val) := by
  obtain ⟨position, hensure⟩ := ensurePosition_found (hopened _ _ (h.delivered_of_stored hlog hr))
  rw [hstream] at hensure
  -- the stored events of the Case come from one history, so the event itself is not among them
  have hnew : ∀ r, r ∈ store.applied.rows ∨ r ∈ store.buffer.rows → r.payload ≠ event := by
    intro r' hr' heq
    have hevent : event ∈ log event.toCaseScope := by
      obtain hr' | hr' := hr'
      · exact heq ▸ ((h.mem_applied hlog).mp hr').1
      · exact heq ▸ ((h.buffer r').mp hr').1
    exact hother (h.stored_eq hlog hevent hr (congrArg Prod.fst hstream) hsame)
  refine ⟨⟨position, hensure⟩, ?_⟩
  rw [ingest, (require_eq_ok (u := ())).mpr consumer_id.ne_empty, ok_bind, identifier_eq_ok.mpr rfl, ok_bind]
  dsimp only
  rw [hensure, ok_bind]
  dsimp only
  cases hfirst : store.applied.get ((event.toCaseScope, consumer_id), event.event_id) with
  | some row =>
    have hmem := (row_of_get hfirst).1
    exact raises_bind.mpr (.inl (raises_require.mpr ⟨fun h => hnew _ (.inl hmem) h.2, trivial⟩))
  | none =>
    dsimp only
    cases hsecond : store.buffer.get ((event.toCaseScope, consumer_id), event.event_id) with
    | some row =>
      have hmem := (row_of_get hsecond).1
      exact raises_bind.mpr (.inl (raises_require.mpr ⟨fun h => hnew _ (.inr hmem) h.2, trivial⟩))
    | none =>
      have hid : r.payload.event_id ≠ event.event_id := fun hid => by
        obtain hr | hr := hr
        · exact Table.get_eq_none.mp hfirst r hr (Prod.ext hstream hid)
        · exact Table.get_eq_none.mp hsecond r hr (Prod.ext hstream hid)
      exact ingestAtSequence_conflict hr hstream (hsame.resolve_left hid) hnew

/-! ## A list of ingestions -/

/-- The ingestions of a list of events, in turn. -/
def ingestAll : ProjectionStore → List (DomainEvent × Identifier) →
    Result (ProjectionStore × List ProjectionIngestResult)
  | store, [] => pure (store, [])
  | store, (event, consumer_id) :: calls => do
    let (store, result) ← ingest store event consumer_id.val
    let (store, results) ← ingestAll store calls
    pure (store, result :: results)

/-- The event was delivered to the stream by one of the calls. -/
def DeliveredBy (calls : List (DomainEvent × Identifier)) (stream : StreamKey) (e : DomainEvent) : Prop :=
  ∃ call ∈ calls, (call.1.toCaseScope, call.2) = stream ∧ call.1 = e

instance (calls : List (DomainEvent × Identifier)) (stream : StreamKey) (e : DomainEvent) :
    Decidable (DeliveredBy calls stream e) :=
  inferInstanceAs (Decidable (∃ call ∈ calls, (call.1.toCaseScope, call.2) = stream ∧ call.1 = e))

/-- What the calls for a stream returned, in order. -/
def returnedTo (stream : StreamKey) (calls : List (DomainEvent × Identifier))
    (results : List ProjectionIngestResult) : List DomainEvent :=
  ((calls.zip results).filter fun c => (c.1.1.toCaseScope, c.1.2) = stream).flatMap (·.2.applied)

theorem returnedTo_cons (stream : StreamKey) (call : DomainEvent × Identifier)
    (calls : List (DomainEvent × Identifier)) (result : ProjectionIngestResult)
    (results : List ProjectionIngestResult) : returnedTo stream (call :: calls) (result :: results) =
      (if (call.1.toCaseScope, call.2) = stream then result.applied else []) ++
        returnedTo stream calls results := by
  unfold returnedTo
  rw [List.zip_cons_cons, List.filter_cons]
  split_ifs with h₁ h₂ h₂
  · rfl
  · exact absurd (of_decide_eq_true h₁) h₂
  · exact absurd (decide_eq_true h₂) h₁
  · rfl

/-- **A run** of ingestions of events of the history succeeds, the tables are caught up with all of them, and
what was returned is what the ledgers have grown by. -/
theorem ingestAll_caughtUp (hlog : GapFree log) {calls : List (DomainEvent × Identifier)}
    (hcalls : ∀ call ∈ calls, call.1 ∈ log call.1.toCaseScope) (h : CaughtUp log delivered store)
    (hopened : Positioned delivered store) : ∃ store' results, ingestAll store calls = .ok (store', results) ∧
      CaughtUp log (fun s e => delivered s e ∨ DeliveredBy calls s e) store' ∧
      Positioned (fun s e => delivered s e ∨ DeliveredBy calls s e) store' ∧
      ∀ stream, store'.ledger stream = store.ledger stream ++ returnedTo stream calls results := by
  induction calls generalizing delivered store with
  | nil =>
    have hnone : (fun s e => delivered s e ∨ DeliveredBy [] s e) = delivered := by
      funext s e
      simp [DeliveredBy]
    rw [hnone]
    exact ⟨store, [], rfl, h, hopened, fun stream => (List.append_nil _).symm⟩
  | cons call calls ih =>
    obtain ⟨event, consumer_id⟩ := call
    obtain ⟨middle, result, hingest, hingested⟩ := ingest_ingested hlog h consumer_id (hcalls _ List.mem_cons_self)
    obtain ⟨store', results, hrest, hcaught, hsome, hledger⟩ :=
      ih (fun call hcall => hcalls call (List.mem_cons_of_mem _ hcall)) hingested.caughtUp (hopened.ingest hingest)
    have hall : (fun s e => also delivered (event.toCaseScope, consumer_id) event s e ∨ DeliveredBy calls s e) =
        fun s e => delivered s e ∨ DeliveredBy ((event, consumer_id) :: calls) s e := by
      funext s e
      simp only [also, DeliveredBy, List.exists_mem_cons_iff, or_assoc, eq_comm (a := s), eq_comm (a := e)]
    rw [hall] at hcaught hsome
    refine ⟨store', result :: results, ?_, hcaught, hsome, fun stream => ?_⟩
    · simp only [ingestAll, hingest, ok_bind, hrest]
      rfl
    · rw [hledger, returnedTo_cons]
      split_ifs with hsame
      · rw [← hsame, hingested.ledger, List.append_assoc]
      · rw [hingested.others stream (Ne.symm hsame), List.nil_append]

theorem caughtUp_empty (log : CaseScope → List DomainEvent) :
    CaughtUp log (fun _ _ => False) ProjectionStore.empty where
  toFollows := ProjectionStore.follows_empty log
  applied stream e he := by
    change e ∈ List.take 0 _ at he
    rw [List.take_zero] at he
    cases he
  buffer r := by
    constructor
    · intro hr
      cases hr
    · rintro ⟨-, hd, -⟩
      exact hd.elim
  gap _ _ _ _ := id

/-- The position is the largest number of events all delivered. -/
theorem CaughtUp.isGreatest (hlog : GapFree log) (h : CaughtUp log delivered store) (stream : StreamKey) :
    IsGreatest {k | k ≤ (log stream.1).length ∧ ∀ e ∈ (log stream.1).take k, delivered stream e}
      (store.position stream) := by
  refine ⟨⟨h.bounded stream, h.applied stream⟩, fun k ⟨hle, hall⟩ => ?_⟩
  by_contra hlt
  -- the event after the position would be among the first `k`
  have hindex : store.position stream < (log stream.1).length := by omega
  have hget := List.getElem?_eq_getElem hindex
  have hpos := (hlog.numbered stream.1).pos_eq hget
  have hmem := List.getElem_mem hindex
  refine h.gap stream _ hmem hpos (hall _ (hlog.mem_take.mpr ⟨hmem, ?_⟩))
  change DomainEvent.position _ ≤ k
  omega

theorem CaughtUp.mem_buffer (hlog : GapFree log) (h : CaughtUp log delivered store)
    (hdelivered : ∀ stream e, delivered stream e → e ∈ log stream.1) (stream : StreamKey) (e : DomainEvent) :
    (⟨stream.2, e⟩ : ProjectionRow) ∈ store.buffer.rows ∧ e.toCaseScope = stream.1 ↔
      delivered stream e ∧ e ∉ (log stream.1).take (store.position stream) := by
  rw [h.buffer, hlog.mem_take]
  constructor
  · rintro ⟨⟨-, hd, hlt⟩, hcase⟩
    rw [ProjectionRow.stream, hcase] at hd hlt
    exact ⟨hd, fun hle => absurd hlt (not_lt.mpr hle.2)⟩
  · rintro ⟨hd, hnot⟩
    have hmem := hdelivered stream e hd
    have hcase := hlog.scope _ e hmem
    rw [ProjectionRow.stream, hcase]
    exact ⟨⟨hmem, hd, not_le.mp fun hle => hnot ⟨hmem, hle⟩⟩, rfl⟩

end

/-- **Projection confluence.** Any list of ingestions of events of gap-free histories succeeds. Afterwards each stream has
applied the longest part of its history that was delivered whole, and buffers the rest. An event that contradicts a
stored one is refused, and the draining loop ends. -/
theorem projection_confluence {log : CaseScope → List DomainEvent} (hlog : GapFree log)
    (calls : List (DomainEvent × Identifier)) (hcalls : ∀ call ∈ calls, call.1 ∈ log call.1.toCaseScope) :
    (∃ store results, ingestAll ProjectionStore.empty calls = .ok (store, results) ∧ (∀ stream, ∃ k,
        IsGreatest {k | k ≤ (log stream.1).length ∧
          ∀ e ∈ (log stream.1).take k, DeliveredBy calls stream e} k ∧
        store.ledger stream = (log stream.1).take k ∧
        (∀ e, (⟨stream.2, e⟩ : ProjectionRow) ∈ store.buffer.rows ∧ e.toCaseScope = stream.1 ↔
          DeliveredBy calls stream e ∧ e ∉ (log stream.1).take k) ∧
        returnedTo stream calls results = (log stream.1).take k ∧
        (returnedTo stream calls results).map (·.case_seq.val) = List.range' 1 k) ∧
      ∀ (r : ProjectionRow) (event : DomainEvent) (consumer_id : Identifier),
        r ∈ store.applied.rows ∨ r ∈ store.buffer.rows →
        r.stream = (event.toCaseScope, consumer_id) →
        r.payload.event_id = event.event_id ∨ r.payload.case_seq.val = event.case_seq.val →
        r.payload ≠ event →
        (∃ position, ensurePosition store (event.toCaseScope, consumer_id) = .ok (store, position)) ∧
          Raises Conflict (ingest store event consumer_id.val)) ∧
    ∀ (store : ProjectionStore) (position : ProjectionPosition), ∀ fuel ≥ store.buffer.rows.length,
      drainLoop fuel store position = drain store position := by
  refine ⟨?_, fun store position fuel hfuel => drainLoop_eq_drain position hfuel⟩
  obtain ⟨store, results, hall, hcaught, hpositioned, hledger⟩ :=
    ingestAll_caughtUp hlog hcalls (caughtUp_empty log) fun _ _ => False.elim
  simp only [false_or] at hcaught hpositioned
  have hdelivered : ∀ stream e, DeliveredBy calls stream e → e ∈ log stream.1 := by
    rintro _ _ ⟨call, hcall, rfl, rfl⟩
    exact hcalls call hcall
  refine ⟨store, results, hall, fun stream => ?_, fun r event consumer_id hr hstream hsame hother =>
    ingest_conflict hlog hcaught hpositioned hr hstream hsame hother⟩
  have hreturned : returnedTo stream calls results = (log stream.1).take (store.position stream) := by
    rw [← hcaught.ledger, hledger]
    rfl
  refine ⟨store.position stream, hcaught.isGreatest hlog stream, hcaught.ledger stream,
    hcaught.mem_buffer hlog hdelivered stream, hreturned, ?_⟩
  rw [hreturned, List.map_take]
  change ((log stream.1).map DomainEvent.position).take _ = _
  rw [hlog.numbered]
  exact List.take_range'_of_length_ge (hcaught.bounded stream)

def twoEvents (scope : CaseScope) : List DomainEvent :=
  if scope = sampleScope.toCaseScope then [firstEvent, secondEvent] else []

theorem twoEvents_gapFree : GapFree twoEvents where
  scope scope e he := by
    unfold twoEvents at he
    split_ifs at he with hscope
    · rw [hscope]
      obtain rfl | rfl : e = firstEvent ∨ e = secondEvent := by simpa using he
      · rfl
      · rfl
    · cases he
  numbered scope := by
    unfold twoEvents
    split_ifs
    · rfl
    · exact numbered_nil _
  ids scope := by
    unfold twoEvents
    split_ifs
    · decide
    · exact List.nodup_nil

/-- Two events in the wrong order, the second one twice. -/
def reorderedCalls : List (DomainEvent × Identifier) :=
  [(secondEvent, ⟨"consumer-1", Eq.refl true⟩), (secondEvent, ⟨"consumer-1", Eq.refl true⟩),
    (firstEvent, ⟨"consumer-1", Eq.refl true⟩)]

/-- Both events were delivered, so both are returned, in order. -/
theorem projection_confluence_reordered :
    ∃ store results, ingestAll ProjectionStore.empty reorderedCalls = .ok (store, results) ∧
      returnedTo (sampleScope.toCaseScope, ⟨"consumer-1", Eq.refl true⟩) reorderedCalls results =
        [firstEvent, secondEvent] := by
  obtain ⟨⟨store, results, hall, hstreams, -⟩, -⟩ :=
    projection_confluence twoEvents_gapFree reorderedCalls (by decide)
  refine ⟨store, results, hall, ?_⟩
  obtain ⟨k, hgreatest, -, -, hreturned, -⟩ :=
    hstreams (sampleScope.toCaseScope, ⟨"consumer-1", Eq.refl true⟩)
  -- all of the history was delivered
  have hk : 2 ≤ k := hgreatest.2 ⟨by decide, by decide⟩
  rw [hreturned, List.take_of_length_le]
  · rfl
  · exact hk

end Aftercare
