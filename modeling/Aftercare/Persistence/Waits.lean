import Aftercare.Persistence.Writes

/-!
# The wait repository

All ways to end a wait go through `settleIfReady`, which looks for the earliest matching signal of the inbox and
otherwise for the deadline. `Settles` is what a settlement does, and `Resolves` what any method that may settle a
wait does in its whole transaction.
-/

namespace Aftercare

open Relational

variable {db db' : Database} {t stop : Time} {clk : Clock Time} {wait result current : WaitRecord}
  {event : Option DomainEvent} {r : RunRow} {inserted : Bool} {signal : InboxSignal}

/-! ## Locks -/

/-- `_lock_case` of the repositories. -/
def lockCase (db : Database) (scope : CaseScope) : Result Unit := do
  require ((db.cases.get scope).isSome = true) (.contract .forbidden "case not found")

/-- `WaitRepository._lock`. -/
def lockWait (db : Database) (wait : WaitRecord) : Result (WaitRecord × RunRow) := do
  lockCase db wait.toCaseScope
  let run ← fetch (db.run wait.toRunScope) (.contract .forbidden "run not found")
  let current ← fetch (db.waits.get wait.key) (.contract .forbidden "wait not found")
  pure (current, run)

/-- `_claim_valid` of the wait and action repositories. -/
def claimValid (db : Database) (claim : ExecutionClaim) (t : Time) : Result Unit := do
  lockCase db claim.toCaseScope
  requireLease db claim t

/-- The Run waits, and it waits for this wait and generation. -/
def RunRow.waitsFor (r : RunRow) (wait_id : Identifier) (generation : ℕ) : Bool :=
  r.state.waiting && r.wait_id == some wait_id && r.wait_generation == some generation

/-! ## Settlement -/

/-- The signals of the inbox that may settle a wait at a time. -/
def settlingSignals (db : Database) (wait : WaitRecord) (now : Time) : List InboxSignal :=
  db.inbox.select fun s =>
    matchesWait wait s && decide (wait.created_at ≤ s.received_at ∧ s.received_at ≤ now)

def signalBefore (a b : InboxSignal) : Prop :=
  a.received_at < b.received_at ∨ (a.received_at = b.received_at ∧ a.event_id.val ≤ b.event_id.val)

instance (a b : InboxSignal) : Decidable (signalBefore a b) :=
  inferInstanceAs (Decidable (_ ∨ _))

/-- The signal that settles a wait at a time, if there is one. -/
def winner (db : Database) (wait : WaitRecord) (now : Time) : Option InboxSignal :=
  ((settlingSignals db wait now).insertionSort signalBefore).find? (matchesWait wait)

/-- The wait that a signal, or the absence of one, settles. -/
def WaitRecord.settledBy (signal : Option InboxSignal) (wait : WaitRecord) : WaitRecord :=
  { wait with
    state := if signal.isSome then .satisfied else .timedOut
    resolved_by_event_id := signal.map (·.event_id) }

def WaitRecord.wakeup (wait : WaitRecord) (signal : Option InboxSignal) : WakeupRow where
  key := wait.key
  winner_event_id := signal.map (·.event_id)
  outcome := if signal.isSome then .reply else .timeout

def RunRow.woken (r : RunRow) : RunRow :=
  { r with
    state := .ready, lease_owner := none, lease_until := none, wait_id := none
    wait_generation := none, available_at := none }

/-- `UPDATE` of a settlement: the Run is woken if it waits for this wait. -/
def wakeRun (db : Database) (clk : Clock Time) (wait : WaitRecord) : Result RunStore :=
  if (db.run wait.toRunScope).any (·.waitsFor wait.wait_id wait.generation.val) then
    db.runs.update wait.toRunScope.key RunRow.woken clk
  else pure db.runs

/-- The part of a settlement that appends its event. -/
def appendResolved (events : EventStore) (clk : Clock Time) (wait : WaitRecord)
    (event : Option DomainEvent) : Result EventStore :=
  match event with
  | none => pure events
  | some e => do
    require (e.event_type = .waitResolved ∧ e.run_id = some wait.run_id ∧ e.toCaseScope = wait.toCaseScope)
      (.contract .invalidInput "wait settlement needs wait.resolved event")
    let (events, _) ← appendOutbox events clk e
    pure events

/-- The part of `_settle_if_ready` that writes. -/
def settle (db : Database) (clk : Clock Time) (wait : WaitRecord) (signal : Option InboxSignal)
    (event : Option DomainEvent) : Result (Database × WaitRecord) := do
  let waits ← statement "aftercare_waits" (db.waits.update wait.key (·.settledBy signal))
  let (wakeups, _) ← statement "aftercare_wait_wakeups" <|
    db.wakeups.insertOrIgnore (wait.wakeup signal)
  let runs ← wakeRun db clk wait
  let events ← appendResolved db.events (clk.drop 2) wait event
  pure ({ db with waits := waits, wakeups := wakeups, runs := runs, events := events },
    wait.settledBy signal)

def settleIfReady (db : Database) (clk : Clock Time) (wait : WaitRecord)
    (event : Option DomainEvent) : Result (Database × WaitRecord) :=
  if wait.state ≠ .active then pure (db, wait)
  else if winner db wait (clk.read 0) = none ∧ clk.read 0 < wait.deadline then pure (db, wait)
  else settle db (clk.drop 1) wait (winner db wait (clk.read 0)) event

/-! ## Methods -/

def register (db : Database) (clk : Clock Time) (wait : WaitRecord) (claim : ExecutionClaim) :
    Result (Database × Bool) := do
  require (wait.toRunScope = claim.toRunScope)
    (.contract .forbidden "wait scope does not match claim")
  require (wait.state = .pending) (.contract .invalidInput "new waits must start PENDING")
  claimValid db claim (clk.read 0)
  let run ← fetch (db.run claim.toRunScope)
    (.contract .conflict "run already has another wait bound")
  require (run.wait_id = none ∨ (run.wait_id, run.wait_generation) =
      (some wait.wait_id, some wait.generation.val))
    (.contract .conflict "run already has another wait bound")
  let (waits, inserted) ← statement "aftercare_waits" (db.waits.insertOrIgnore wait)
  -- Of a replay the stored wait has to be equal, and so still pending.
  require (inserted = true ∨ db.waits.get wait.key = some wait)
    (.contract .conflict "wait registration replay changed")
  pure ({ db with waits := waits }, inserted)

/-- The part of `activate` that makes a pending wait active. -/
def activatePending (db : Database) (current : WaitRecord) : Result (Database × WaitRecord) :=
  if current.state = .pending then do
    let waits ← statement "aftercare_waits" <|
      db.waits.update current.key fun w => { w with state := .active }
    pure ({ db with waits := waits }, { current with state := .active })
  else pure (db, current)

def activate (db : Database) (clk : Clock Time) (wait : WaitRecord) (event : Option DomainEvent) :
    Result (Database × WaitRecord) := do
  let (current, run) ← lockWait db wait
  if current.state.settled then pure (db, current)
  else do
    require (run.state.waiting = true) (.contract .conflict "run is not waiting")
    require ((run.wait_id, run.wait_generation) = (some wait.wait_id, some wait.generation.val))
      (.contract .conflict "run wait binding changed")
    let (db, current) ← activatePending db current
    settleIfReady db clk current event

def receiveAndResolve (db : Database) (clk : Clock Time) (signal : InboxSignal)
    (event : Option DomainEvent) : Result (Database × Option WaitRecord) := do
  lockCase db signal.toCaseScope
  let run ← fetch (db.run signal.toRunScope) (.contract .forbidden "run not found")
  let row := db.waits.get signal.waitKey
  let (db, _) ← receiveInbox db signal
  match row with
  | none => pure (db, none)
  | some current =>
    if run.waitsFor signal.wait_id signal.generation.val then do
      let (db, wait) ← settleIfReady db clk current event
      pure (db, some wait)
    else pure (db, some current)

def resolveLocked (db : Database) (clk : Clock Time) (wait : WaitRecord) (signal : InboxSignal) :
    Result (Database × WaitRecord) := do
  require (matchesWait wait signal = true)
    (.contract .conflict "signal does not match locked wait")
  let (db, _) ← receiveInbox db signal
  settleIfReady db clk wait none

def resolveTimeout (db : Database) (clk : Clock Time) (wait : WaitRecord)
    (event : Option DomainEvent) : Result (Database × WaitRecord) := do
  let (current, run) ← lockWait db wait
  if run.waitsFor wait.wait_id wait.generation.val then settleIfReady db clk current event
  else pure (db, current)

/-! ## What the methods do -/

variable {gate : Gate}

theorem claimValid_eq_ok {claim : ExecutionClaim} :
    claimValid db claim t = .ok () ↔ (db.cases.get claim.toCaseScope).isSome = true ∧
      ∃ r, db.run claim.toRunScope = some r ∧ claim.validOn r t = true := by
  simp only [claimValid, lockCase, ok_iff, requireLease_eq_ok]

/-- The wait was active, and its Run waited for it. -/
inductive Settles (start stop : Time) (wait : WaitRecord) (t : Time) (db : Database) :
    Database → Prop
  | mk {waits : Table waitSchema} {wakeups : Table wakeupSchema} {inserted : Bool}
      {runs : RunStore} {r : RunRow} {clk : Clock Time} (hclk : Within start stop clk)
      (ht : start ≤ t ∧ t ≤ stop) (hget : db.waits.get wait.key = some wait)
      (hactive : wait.state = .active) (hr : db.run wait.toRunScope = some r)
      (hwaits : r.waitsFor wait.wait_id wait.generation.val = true)
      (hready : winner db wait t = none → wait.deadline ≤ t)
      (hwait : db.waits.update wait.key (·.settledBy (winner db wait t)) = .ok waits)
      (hwakeup : db.wakeups.insertOrIgnore (wait.wakeup (winner db wait t)) = .ok (wakeups, inserted))
      (hrun : db.runs.update wait.toRunScope.key RunRow.woken clk = .ok runs) :
      Settles start stop wait t db { db with waits := waits, wakeups := wakeups, runs := runs }

def AppendsEvents (db db' : Database) : Prop :=
  ∃ events, Relation.ReflTransGen EventStore.Appends db.events events ∧
    db' = { db with events := events }

theorem AppendsEvents.refl (db : Database) : AppendsEvents db db := ⟨db.events, .refl, rfl⟩

theorem AppendsEvents.tail {events : EventStore} (h : AppendsEvents db db')
    (happend : db'.events.Appends events) : AppendsEvents db { db' with events := events } := by
  obtain ⟨events', h, rfl⟩ := h
  exact ⟨events, h.tail happend, rfl⟩

/-- The transaction of a method that may settle a wait. -/
inductive Resolves (gate : Gate) (start stop : Time) (db : Database) : Database → Prop
  /-- No wait was settled. -/
  | writes {db' : Database} (h : Writes gate start stop db db') : Resolves gate start stop db db'
  /-- An open wait was settled, after writes that left the Runs alone. -/
  | settle {mid settled db' : Database} {wait current : WaitRecord} {t : Time}
      (hprepare : Writes gate start stop db mid) (hruns : mid.runs = db.runs)
      (hget : db.waits.get wait.key = some current) (hopen : current.state.settled = false)
      (hwait : wait = { current with state := .active })
      (hsettle : Settles start stop wait t mid settled) (hevents : AppendsEvents settled db') :
      Resolves gate start stop db db'

/-- `_settle_if_ready` settles the wait, or no signal answers it. -/
theorem settleIfReady_eq_ok (hget : db.waits.get wait.key = some wait) (hr : db.run wait.toRunScope = some r)
    (hwaits : r.waitsFor wait.wait_id wait.generation.val = true)
    (h : settleIfReady db clk wait event = .ok (db', result)) :
    (db' = db ∧ (wait.state = .active → winner db wait (clk.read 0) = none)) ∨ wait.state = .active ∧ ∃ settled,
        Settles (clk.read 0) clk.stop wait (clk.read 0) db settled ∧ AppendsEvents settled db' := by
  unfold settleIfReady at h
  split_ifs at h with hstate hready
  · exact .inl ⟨(Prod.mk.inj (pure_eq_ok.mp h)).1.symm, fun hactive => absurd hactive hstate⟩
  · exact .inl ⟨(Prod.mk.inj (pure_eq_ok.mp h)).1.symm, fun _ => hready.1⟩
  · have hactive : wait.state = .active := not_not.mp hstate
    have hdue : winner db wait (clk.read 0) = none → wait.deadline ≤ clk.read 0 :=
      fun hnone => le_of_not_gt fun hlt => hready ⟨hnone, hlt⟩
    simp only [settle, ok_iff, statement_eq_ok] at h
    obtain ⟨waits, hwait, ⟨wakeups, inserted⟩, hwakeup, runs, hrun, events, hevents, rfl, -⟩ := h
    rw [wakeRun, hr, Option.any_some, if_pos hwaits] at hrun
    refine .inr ⟨hactive, { db with waits := waits, wakeups := wakeups, runs := runs },
      .mk ((Within.refl clk).drop 1) ⟨le_rfl, clk.le_stop 0⟩ hget hactive hr hwaits hdue hwait hwakeup hrun, ?_⟩
    cases event with
    | none => exact ⟨events, by rw [pure_eq_ok.mp hevents], rfl⟩
    | some e =>
      simp only [appendResolved, ok_iff] at hevents
      obtain ⟨-, ⟨events', appended⟩, happend, rfl⟩ := hevents
      exact (AppendsEvents.refl _).tail (appendOutbox_appends happend)

theorem Settles.earlier {start start' : Time} (hle : start' ≤ start) (h : Settles start stop wait t db db') :
    Settles start' stop wait t db db' := by
  cases h with
  | mk hclk ht hget hactive hr hwaits hready hwait hwakeup hrun =>
    exact .mk (hclk.earlier hle) ⟨hle.trans ht.1, ht.2⟩ hget hactive hr hwaits hready hwait hwakeup hrun

/-- Writes that left the Runs alone, then `_settle_if_ready`. -/
theorem Resolves.of_settleIfReady {start : Time} {mid : Database}
    (h : settleIfReady mid clk wait event = .ok (db', result)) (hclk : Within start stop clk)
    (hprepare : Writes gate start stop db mid) (hruns : mid.runs = db.runs)
    (hget : db.waits.get wait.key = some current)
    (hopen : wait.state = .active → current.state.settled = false ∧ wait = { current with state := .active })
    (hmid : mid.waits.get wait.key = some wait) (hr : db.run wait.toRunScope = some r)
    (hwaits : r.waitsFor wait.wait_id wait.generation.val = true) : Resolves gate start stop db db' := by
  have hr' : mid.run wait.toRunScope = some r := by
    unfold Database.run at hr ⊢
    rw [hruns]
    exact hr
  rcases settleIfReady_eq_ok hmid hr' hwaits h with ⟨rfl, -⟩ | ⟨hactive, settled, hsettle, hevents⟩
  · exact .writes hprepare
  · obtain ⟨hsettled, hwait⟩ := hopen hactive
    rw [hclk.stop_eq] at hsettle
    exact .settle hprepare hruns hget hsettled hwait (hsettle.earlier hclk.start_le) hevents

theorem Resolves.append {start stop : Time} {db db' : Database} {events : EventStore}
    (h : Resolves gate start stop db db') (happend : db'.events.Appends events) :
    Resolves gate start stop db { db' with events := events } := by
  cases h with
  | writes h => exact .writes (h.tail (.append happend))
  | settle hprepare hruns hget hopen hwait hsettle hevents =>
    exact .settle hprepare hruns hget hopen hwait hsettle (hevents.tail happend)

theorem WaitRecord.eq_of_key {a b : WaitRecord} (h : a.key = b.key) :
    a.toRunScope = b.toRunScope ∧ a.wait_id = b.wait_id ∧ a.generation.val = b.generation.val := by
  simp only [WaitRecord.key, Prod.mk.injEq] at h
  obtain ⟨htenant, hcase, hrun, hwait, hgeneration⟩ := h
  exact ⟨by rw [RunScope.mk.injEq, CaseScope.mk.injEq]; exact ⟨⟨htenant, hcase⟩, hrun⟩, hwait, hgeneration⟩

theorem lockWait_eq_ok {run : RunRow} (h : lockWait db wait = .ok (current, run)) :
    db.run current.toRunScope = some run ∧ db.waits.get current.key = some current ∧
      current.wait_id = wait.wait_id ∧ current.generation.val = wait.generation.val := by
  simp only [lockWait, lockCase, ok_iff] at h
  obtain ⟨-, run', hrun, current', hcurrent, rfl, rfl⟩ := h
  have hkey := Table.key_of_get hcurrent
  obtain ⟨hscope, hwait_id, hgeneration⟩ := WaitRecord.eq_of_key hkey
  exact ⟨hscope ▸ hrun, Table.get_of_mem (Table.mem_of_get hcurrent), hwait_id, hgeneration⟩

theorem register_writes {claim : ExecutionClaim} (h : register db clk wait claim = .ok (db', inserted)) :
    Writes gate (clk.read 0) clk.stop db db' := by
  simp only [register, ok_iff, statement_eq_ok] at h
  obtain ⟨-, hstate, -, run, -, -, ⟨waits, new⟩, hinsert, -, rfl, -⟩ := h
  rcases Table.insertOrIgnore_eq_ok hinsert with ⟨-, hinsert⟩ | ⟨-, rfl⟩
  · exact .single (.registerWait wait hstate hinsert)
  · exact .refl

theorem activate_resolves (h : activate db clk wait event = .ok (db', result)) :
    Resolves gate (clk.read 0) clk.stop db db' := by
  simp only [activate, bind_eq_ok] at h
  obtain ⟨⟨current, run⟩, hlock, h⟩ := h
  obtain ⟨hrun, hcurrent, hwait_id, hgeneration⟩ := lockWait_eq_ok hlock
  dsimp only at h
  split_ifs at h with hsettled
  · rw [← (Prod.mk.inj (pure_eq_ok.mp h)).1]
    exact .writes .refl
  simp only [ok_iff] at h
  obtain ⟨hwaiting, ⟨hid, hgen⟩, ⟨mid, active⟩, hactivate, h⟩ := h
  rw [← hwait_id] at hid
  rw [← hgeneration] at hgen
  have hwaits : run.waitsFor current.wait_id current.generation.val = true := by
    simp [RunRow.waitsFor, hwaiting, hid, hgen]
  have hopen : current.state.settled = false := by simpa using hsettled
  unfold activatePending at hactivate
  split_ifs at hactivate with hpending
  · simp only [statement_eq_ok, ok_iff] at hactivate
    obtain ⟨waits, hupdate, rfl, rfl⟩ := hactivate
    have hmid : waits.get current.key = some { current with state := .active } := by
      rw [Table.get_update hupdate, if_pos rfl, hcurrent]
      rfl
    exact .of_settleIfReady h (.refl clk)
      (.single (.activateWait current hcurrent hpending hrun hwaiting ⟨hid, hgen⟩ hupdate)) rfl
      hcurrent (fun _ => ⟨hopen, rfl⟩) hmid hrun hwaits
  · obtain ⟨rfl, rfl⟩ := Prod.mk.inj (pure_eq_ok.mp hactivate)
    exact .of_settleIfReady h (.refl clk) .refl rfl hcurrent
      (fun hactive => ⟨hopen, by rw [← hactive]⟩) hcurrent hrun hwaits

theorem receiveInbox_writes {start : Time} (h : receiveInbox db signal = .ok (db', inserted)) :
    Writes gate start stop db db' ∧ db'.runs = db.runs ∧ db'.waits = db.waits := by
  obtain ⟨inbox, rfl, hinsert | ⟨rfl, -⟩⟩ := receiveInbox_eq_ok h
  · exact ⟨.single (.receive signal hinsert), rfl, rfl⟩
  · exact ⟨.refl, rfl, rfl⟩

theorem WaitRecord.open_of_active (h : wait.state = .active) :
    wait.state.settled = false ∧ wait = { wait with state := .active } :=
  ⟨by rw [h]; rfl, by rw [← h]⟩

theorem receiveAndResolve_resolves {result : Option WaitRecord}
    (h : receiveAndResolve db clk signal event = .ok (db', result)) :
    Resolves gate (clk.read 0) clk.stop db db' := by
  simp only [receiveAndResolve, lockCase, ok_iff] at h
  obtain ⟨-, run, hrun, ⟨mid, inserted⟩, hreceive, h⟩ := h
  obtain ⟨hwrites, hruns, hwaits⟩ := receiveInbox_writes hreceive
  dsimp only at h
  cases hget : db.waits.get signal.waitKey with
  | none =>
    rw [hget] at h
    cases h
    exact .writes hwrites
  | some current =>
    rw [hget] at h
    dsimp only at h
    have hkey : current.key = signal.waitKey := Table.key_of_get hget
    simp only [WaitRecord.key, InboxSignal.waitKey, Prod.mk.injEq] at hkey
    obtain ⟨htenant, hcase, hrun_id, hwait_id, hgeneration⟩ := hkey
    have hscope : current.toRunScope = signal.toRunScope := by
      rw [RunScope.mk.injEq, CaseScope.mk.injEq]
      exact ⟨⟨htenant, hcase⟩, hrun_id⟩
    have hcurrent : db.waits.get current.key = some current := Table.get_of_mem (Table.mem_of_get hget)
    rw [← hscope] at hrun
    rw [← hwait_id, ← hgeneration] at h
    split_ifs at h with hwaiting
    · simp only [ok_iff] at h
      obtain ⟨⟨db'', wait⟩, hsettle, rfl, -⟩ := h
      exact .of_settleIfReady hsettle (.refl clk) hwrites hruns hcurrent WaitRecord.open_of_active
        (by rw [hwaits]; exact hcurrent) hrun hwaiting
    · cases h
      exact .writes hwrites

theorem resolveTimeout_resolves (h : resolveTimeout db clk wait event = .ok (db', result)) :
    Resolves gate (clk.read 0) clk.stop db db' := by
  simp only [resolveTimeout, bind_eq_ok] at h
  obtain ⟨⟨current, run⟩, hlock, h⟩ := h
  obtain ⟨hrun, hcurrent, hwait_id, hgeneration⟩ := lockWait_eq_ok hlock
  dsimp only at h
  rw [← hwait_id, ← hgeneration] at h
  split_ifs at h with hwaiting
  · exact .of_settleIfReady h (.refl clk) .refl rfl hcurrent WaitRecord.open_of_active hcurrent hrun hwaiting
  · cases h
    exact .writes .refl

end Aftercare
