import Aftercare.Api.Routes
import Aftercare.System.Numbering
import Mathlib.Data.List.Infix

/-!
# The tail of the events of a Case

`PostgresEventTail.stream_async` polls the events of a Case page by page, each time in a transaction of its own, while
writers append and commit. The browser opens one stream after the other, from the largest number it has seen. What the
polls see is a growing, numbered log (`observed_spec`), and a reader always goes on where it stopped.
-/

namespace Aftercare

open Relational

/-- What is committed when a poll reads, and the clock after it. -/
structure TailPoll where
  store : EventStore
  monotonic : Time

/-- The loop of `stream_async`; the polls end where the reader leaves. -/
def tailLoop (db : Database) (scope : CaseScope) (limit : ℤ) (deadline : Time) :
    ℤ → List TailPoll → Result (List DomainEvent)
  | _, [] => pure []
  | cursor, poll :: later => do
    let events ← listCaseEvents { db with events := poll.store } scope cursor limit
    -- After an empty page the tail pauses first; it goes on before the deadline only, as after any other.
    if deadline ≤ poll.monotonic then pure events
    else do
      let rest ← tailLoop db scope limit deadline (events.foldl (fun _ event => event.case_seq.val) cursor) later
      pure (events ++ rest)

def streamAsync (db : Database) (scope : CaseScope) (after_case_seq limit : ℤ) (wait_seconds : Option Rat)
    (deadline : Time) (polls : List TailPoll) : Result (List DomainEvent) := do
  Routes.validateTail after_case_seq limit wait_seconds
  tailLoop db scope limit deadline after_case_seq polls

/-- A stream of the browser, and how many of its events arrive. -/
structure TailConnection where
  deadline : Time
  polls : List TailPoll
  received : ℕ

/-- The events that `subscribeCaseEvents` receives. -/
def subscribeCaseEvents (db : Database) (scope : CaseScope) (limit : ℤ) (wait_seconds : Option Rat) :
    ℤ → List TailConnection → Result (List DomainEvent)
  | _, [] => pure []
  | cursor, connection :: later => do
    let events ← streamAsync db scope cursor limit wait_seconds connection.deadline connection.polls
    let batch := events.take connection.received
    let rest ← subscribeCaseEvents db scope limit wait_seconds
      (batch.foldl (fun cursor event => max cursor event.case_seq.val) cursor) later
    pure (batch ++ rest)

/-- What is committed after each part of a schedule of writers. -/
def AppendSessions.observed [Hashing] {τ : Type} [DecidableEq τ] (s : AppendSessions τ) :
    List (List (τ × Op AppendCall)) → List EventStore
  | [] => []
  | part :: later =>
    let s := part.foldl AppendSessions.step s
    s.committed restoreCase :: AppendSessions.observed s later

/-- It starts after the event was committed, and brings an event. -/
def TailConnection.reaches (scope : CaseScope) (event : DomainEvent) (connection : TailConnection) : Bool :=
  0 < connection.received && connection.polls.head?.any fun poll => event ∈ poll.store.caseEvents scope

/-! ## The log that the polls see -/

section

variable [Hashing] {τ : Type} [DecidableEq τ] {s : AppendSessions τ}

/-- The log of a Case grows. -/
def LogGrows (before after : EventStore) : Prop := ∀ scope, before.caseEvents scope <+: after.caseEvents scope

instance : Std.Refl LogGrows := ⟨fun _ _ => List.prefix_rfl⟩

instance : IsTrans EventStore LogGrows := ⟨fun _ _ _ h h' scope => (h scope).trans (h' scope)⟩

omit [Hashing] in
theorem logGrows_restoreCase {scope : CaseScope} {before store : EventStore} (h : CaseWithin scope before store) :
    LogGrows (restoreCase store scope before) store := by
  intro other
  rw [EventStore.caseEvents_eq, EventStore.caseEvents_eq]
  by_cases hsame : other = scope
  · rw [hsame, caseRows_restoreCase h]
    exact h.outbox.map _
  · rw [caseRows_restoreCase_of_ne hsame]

/-- **What the polls see** is numbered, and a part of what is committed. -/
theorem observed_spec (hs : Sound CaseWithin EventStore.Counted s) (parts : List (List (τ × Op AppendCall))) :
    ∀ store ∈ AppendSessions.observed s parts, store.Counted ∧
      LogGrows store ((parts.flatten.foldl AppendSessions.step s).committed restoreCase) := by
  induction parts generalizing s with
  | nil => exact fun store hstore => absurd hstore List.not_mem_nil
  | cons part later ih =>
    have hpart : Sound CaseWithin EventStore.Counted (part.foldl AppendSessions.step s) :=
      run_sound restoreCase_restores (fun _ _ _ hs h => run_writes hs h) hs part
    rw [List.flatten_cons, List.foldl_append]
    intro store hstore
    rcases List.mem_cons.mp hstore with rfl | hstore
    · refine ⟨hpart.committed restoreCase_restores, ?_⟩
      exact committed_run restoreCase_restores (fun _ _ _ hs h => run_writes hs h) hpart logGrows_restoreCase _
    · exact ih hpart store hstore

end

/-! ## One stream -/

section

variable {db : Database} {scope : CaseScope} {limit : ℤ} {log : List DomainEvent} {n : ℕ}

theorem listCaseEvents_eq (h : Numbered DomainEvent.position (db.events.caseEvents scope)) (n : ℕ)
    (hlimit : 1 ≤ limit ∧ limit ≤ 500) : listCaseEvents db scope n limit =
      .ok (((db.events.caseEvents scope).drop n).take limit.toNat) := by
  have hsorted : ((db.events.caseEvents scope).drop n).Pairwise fun a b => a.case_seq.val ≤ b.case_seq.val := by
    have hmap : (((db.events.caseEvents scope).drop n).map DomainEvent.position).Pairwise (· ≤ ·) := by
      rw [h.map_drop]
      exact List.pairwise_le_range'
    exact List.pairwise_map.mp hmap
  have hafter : ((db.events.caseRows scope).map (·.payload)).filter (fun e => decide ((n : ℤ) < e.case_seq.val)) =
      (db.events.caseEvents scope).drop n := by
    rw [← h.filter_lt, ← EventStore.caseEvents_eq]
    refine List.filter_congr fun e _ => ?_
    rw [decide_eq_decide]
    exact Int.ofNat_lt
  unfold listCaseEvents
  rw [(require_eq_ok (u := ())).mpr (Int.natCast_nonneg n), ok_bind, (require_eq_ok (u := ())).mpr hlimit, ok_bind,
    hafter, hsorted.insertionSort_eq]
  rfl

/-- A cursor that takes the numbers of the events moves by as many. -/
theorem foldl_cursor {f : ℤ → ℤ → ℤ} (hf : ∀ c x, c < x → f c x = x) {events : List DomainEvent}
    (h : events.map (·.case_seq.val) = List.range' (n + 1) events.length) :
    events.foldl (fun c event => f c event.case_seq.val) n = (n + events.length : ℕ) := by
  induction events generalizing n with
  | nil => rfl
  | cons event rest ih =>
    rw [List.map_cons, List.length_cons, List.range'_succ, List.cons.injEq] at h
    rw [List.foldl_cons, h.1, hf n _ (by omega), ih h.2, List.length_cons]
    omega

theorem map_seq_of_begin (hlog : Numbered DomainEvent.position log) {events : List DomainEvent}
    (h : events <+: log.drop n) : events.map (·.case_seq.val) = List.range' (n + 1) events.length := by
  obtain ⟨behind, hbehind⟩ := h
  have hmap := hlog.map_drop n
  rw [← hbehind, List.map_append, List.length_append, ← List.range'_append_1] at hmap
  exact (List.append_inj hmap (by simp)).1

/-- What the polls of a reader of this log see. -/
def Sees (scope : CaseScope) (log : List DomainEvent) (poll : TailPoll) : Prop :=
  Numbered DomainEvent.position (poll.store.caseEvents scope) ∧ poll.store.caseEvents scope <+: log

/-- **One stream** yields what follows its cursor, some of it if its first poll sees any. -/
theorem tailLoop_spec (db : Database) (hlog : Numbered DomainEvent.position log)
    (hlimit : 1 ≤ limit ∧ limit ≤ 500) (deadline : Time) {polls : List TailPoll} (hpolls : ∀ poll ∈ polls, Sees scope log poll) (n : ℕ) :
    ∃ events, tailLoop db scope limit deadline n polls = .ok events ∧ events <+: log.drop n ∧
      ∀ poll ∈ polls.head?, n < (poll.store.caseEvents scope).length → events ≠ [] := by
  induction polls generalizing n with
  | nil => exact ⟨[], rfl, List.nil_prefix, by simp⟩
  | cons poll later ih =>
    obtain ⟨⟨hnumbered, hgrows⟩, hlater⟩ := List.forall_mem_cons.mp hpolls
    let page := ((poll.store.caseEvents scope).drop n).take limit.toNat
    have hpage : listCaseEvents { db with events := poll.store } scope n limit = .ok page :=
      listCaseEvents_eq hnumbered n hlimit
    have hprefix : page <+: log.drop n := (List.take_prefix _ _).trans (List.IsPrefix.drop hgrows n)
    have hsome : n < (poll.store.caseEvents scope).length → page ≠ [] := by
      intro hn hnil
      have hlength := congrArg List.length hnil
      rw [List.length_take, List.length_drop, List.length_nil] at hlength
      omega
    unfold tailLoop
    rw [hpage, ok_bind]
    split_ifs
    · exact ⟨page, rfl, hprefix, by simpa using hsome⟩
    · rw [foldl_cursor (fun _ _ _ => rfl) (map_seq_of_begin hlog hprefix)]
      obtain ⟨rest, hrest, hbehind, -⟩ := ih hlater (n + page.length)
      rw [hrest, ok_bind]
      refine ⟨page ++ rest, rfl, prefix_drop_append hprefix hbehind, ?_⟩
      simpa using fun hn hnil => absurd hnil (hsome hn)

/-! ## A reader that reconnects -/

variable {wait_seconds : Rat}

theorem streamAsync_eq (hlimit : 1 ≤ limit ∧ limit ≤ 500) (hwait : 0 ≤ wait_seconds ∧ wait_seconds ≤ 60)
    (deadline : Time) (polls : List TailPoll) (n : ℕ) :
    streamAsync db scope n limit (some wait_seconds) deadline polls = tailLoop db scope limit deadline n polls := by
  unfold streamAsync Routes.validateTail
  rw [(require_eq_ok (u := ())).mpr (Int.natCast_nonneg n), ok_bind, (require_eq_ok (u := ())).mpr hlimit, ok_bind,
    (require_eq_ok (u := ())).mpr (by simpa using hwait), ok_bind]

/-- **All streams** together yield what follows the first cursor, and an event for each connection that reaches an
event which is still to come. -/
theorem subscribe_spec (db : Database) (hlog : Numbered DomainEvent.position log) (hlimit : 1 ≤ limit ∧ limit ≤ 500)
    (hwait : 0 ≤ wait_seconds ∧ wait_seconds ≤ 60) {connections : List TailConnection}
    (hpolls : ∀ poll ∈ connections.flatMap (·.polls), Sees scope log poll) (n : ℕ) :
    ∃ events, subscribeCaseEvents db scope limit (some wait_seconds) n connections = .ok events ∧
      events <+: log.drop n ∧ ∀ event, n < event.case_seq.val →
        event.case_seq.val ≤ n + connections.countP (·.reaches scope event) →
        event.case_seq.val ≤ n + events.length := by
  induction connections generalizing n with
  | nil => exact ⟨[], rfl, List.nil_prefix, by simp⟩
  | cons connection later ih =>
    rw [List.flatMap_cons] at hpolls
    obtain ⟨hthese, hlater⟩ := List.forall_mem_append.mp hpolls
    obtain ⟨events, hevents, hprefix, hsome⟩ := tailLoop_spec db hlog hlimit connection.deadline hthese n
    have hbatch : events.take connection.received <+: log.drop n := (List.take_prefix _ _).trans hprefix
    unfold subscribeCaseEvents
    rw [streamAsync_eq hlimit hwait, hevents, ok_bind]
    have hlength : (events.take connection.received).length = min connection.received events.length := List.length_take
    generalize events.take connection.received = batch at hbatch hlength
    dsimp only
    rw [foldl_cursor (fun c x h => max_eq_right h.le) (map_seq_of_begin hlog hbatch)]
    obtain ⟨rest, hrest, hbehind, hcount⟩ := ih hlater (n + batch.length)
    rw [hrest, ok_bind]
    refine ⟨batch ++ rest, rfl, prefix_drop_append hbatch hbehind, fun event hn hseq => ?_⟩
    have hcount := hcount event
    rw [List.countP_cons] at hseq
    rw [List.length_append]
    split_ifs at hseq with hreaches
    · -- the first poll sees the event, so that this connection receives one
      rw [TailConnection.reaches, Bool.and_eq_true, decide_eq_true_eq, Option.any_eq_true] at hreaches
      obtain ⟨hreceived, poll, hpoll, hmem⟩ := hreaches
      have hle := (hthese poll (List.mem_of_mem_head? hpoll)).1.pos_le (of_decide_eq_true hmem)
      have hne := hsome poll hpoll (hn.trans_le hle)
      have hpos := List.length_pos_iff.mpr hne
      omega
    · omega

end

/-- **The tail is complete.** Writers append to any Cases in any schedule of transactions. A stream yields the events
that follow its cursor, one after the other; and what a client receives that reconnects with the largest number it has
seen are the events that follow its first cursor, each once, with every one that enough connections reach. -/
theorem event_tail_complete [Hashing] {τ : Type} [DecidableEq τ] (db : Database) (scope : CaseScope)
    {store : EventStore} (hstore : store.Counted) (schedule : List (List (τ × Op AppendCall))) (cursor : ℕ) {limit : ℤ}
    (hlimit : 1 ≤ limit ∧ limit ≤ 500) {wait_seconds : Rat} (hwait : 0 ≤ wait_seconds ∧ wait_seconds ≤ 60) :
    let start : AppendSessions τ := Sessions.start store
    let log := ((schedule.flatten.foldl AppendSessions.step start).committed restoreCase).caseEvents scope
    (∀ deadline polls, polls.map TailPoll.store = AppendSessions.observed start schedule →
      ∃ events, streamAsync db scope cursor limit (some wait_seconds) deadline polls = .ok events ∧
        events <+: log.drop cursor ∧ events.map (·.case_seq.val) = List.range' (cursor + 1) events.length) ∧
    ∀ connections : List TailConnection,
      (connections.flatMap (·.polls)).map TailPoll.store = AppendSessions.observed start schedule →
      ∃ events, subscribeCaseEvents db scope limit (some wait_seconds) cursor connections = .ok events ∧
        events <+: log.drop cursor ∧ events.map (·.case_seq.val) = List.range' (cursor + 1) events.length ∧
        ∀ event ∈ log, cursor < event.case_seq.val →
          event.case_seq.val ≤ cursor + connections.countP (·.reaches scope event) → event ∈ events := by
  intro start log
  have hstart : Sound CaseWithin EventStore.Counted start := sound_start hstore
  have hend : Sound CaseWithin EventStore.Counted (schedule.flatten.foldl AppendSessions.step start) :=
    run_sound restoreCase_restores (fun _ _ _ hs h => run_writes hs h) hstart schedule.flatten
  have hlog : Numbered DomainEvent.position log := (hend.committed restoreCase_restores).numbered scope
  have hsees : ∀ polls : List TailPoll, polls.map TailPoll.store = AppendSessions.observed start schedule →
      ∀ poll ∈ polls, Sees scope log poll := by
    intro polls hpolls poll hpoll
    obtain ⟨hcounted, hgrows⟩ := observed_spec hstart schedule poll.store (hpolls ▸ List.mem_map_of_mem hpoll)
    exact ⟨hcounted.numbered scope, hgrows scope⟩
  refine ⟨fun deadline polls hpolls => ?_, fun connections hpolls => ?_⟩
  · obtain ⟨events, hevents, hprefix, -⟩ := tailLoop_spec db hlog hlimit deadline (hsees polls hpolls) cursor
    exact ⟨events, (streamAsync_eq hlimit hwait _ _ _).trans hevents, hprefix, map_seq_of_begin hlog hprefix⟩
  · obtain ⟨events, hevents, hprefix, hreached⟩ := subscribe_spec db hlog hlimit hwait (hsees _ hpolls) cursor
    refine ⟨events, hevents, hprefix, map_seq_of_begin hlog hprefix, fun event hmem hlt hcount => ?_⟩
    exact hlog.mem_of_prefix hprefix hmem hlt (hreached event hlt hcount)

/-- One event is committed, and a reader gets it once. -/
theorem rolled_back_schedule_tailed :
    let committed := rolledBackSessions.committed restoreCase
    let connection : TailConnection := ⟨0, [⟨committed, 1⟩], 5⟩
    let again : TailConnection := ⟨0, [], 5⟩
    ∃ events, subscribeCaseEvents .empty sampleScope.toCaseScope 100 (some 15) 0 [connection, again] = .ok events ∧
      firstEvent ∈ events ∧ events.map (·.case_seq.val) = List.range' 1 events.length := by
  intro committed connection again
  obtain ⟨-, hclient⟩ := @event_tail_complete sampleHashing ℕ _ .empty sampleScope.toCaseScope _ noEvents_counted
    [rolledBackSchedule] 0 100 (by decide) 15 (by decide)
  obtain ⟨events, hevents, -, hnumbers, hreached⟩ := hclient [connection, again] rfl
  have hmem : firstEvent ∈ committed.caseEvents sampleScope.toCaseScope := by decide
  exact ⟨events, hevents, hreached firstEvent hmem (by decide) (by decide), hnumbers⟩

end Aftercare
