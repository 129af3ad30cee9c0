import Aftercare.System.Parking

/-!
# Settlement refines the pure rule

`_settle_if_ready` does not call `resolution_candidate`: it filters the inbox in SQL, checks every row again, and has
no guard for a time before the wait was created. The two agree all the same, since before the creation the window of
the filter is empty and the deadline has not come.
-/

namespace Aftercare

open Relational

/-- A signal that answers the wait before all others, or nothing. -/
def EarliestReply (inbox : List InboxSignal) (wait : WaitRecord) (now : Time) : Option InboxSignal → Prop
  | some reply => reply ∈ inbox ∧ Answers wait now reply ∧
      ∀ other ∈ inbox, Answers wait now other → reply.received_at ≤ other.received_at
  | none => ∀ other ∈ inbox, ¬Answers wait now other

theorem signalBefore.received_le {a b : InboxSignal} (h : signalBefore a b) : a.received_at ≤ b.received_at := by
  unfold signalBefore at h
  exact h.elim le_of_lt fun hsame => hsame.1.le

theorem winner_earliest (db : Database) (wait : WaitRecord) (now : Time) :
    EarliestReply db.inbox.rows wait now (winner db wait now) := by
  cases hwinner : winner db wait now with
  | none => exact winner_eq_none hwinner
  | some s =>
    obtain ⟨hs, hanswers, hfirst⟩ := winner_eq_some hwinner
    exact ⟨hs, hanswers, fun other hother hmay => (hfirst other hother hmay).received_le⟩

variable {wait : WaitRecord} {now : Time} {reply : Option InboxSignal}

theorem EarliestReply.isSome_eq {inbox : List InboxSignal}
    {reply' : Option InboxSignal} (h : EarliestReply inbox wait now reply)
    (h' : EarliestReply inbox wait now reply') : reply.isSome = reply'.isSome := by
  match reply, reply', h, h' with
  | some _, some _, _, _ => rfl
  | none, none, _, _ => rfl
  | some reply, none, h, h' => exact absurd h.2.1 (h' reply h.1)
  | none, some reply', h, h' => exact absurd h'.2.1 (h reply' h'.1)

theorem resolutionCandidate_of_active {inbox : List InboxSignal} (hwait : wait.coherent = true)
    (hactive : wait.state = .active) (h : EarliestReply inbox wait now reply) :
    resolutionCandidate wait wait.generation.val now reply =
      if reply.isSome then .satisfied else if wait.deadline ≤ now then .timedOut else .none := by
  unfold resolutionCandidate
  have hlater : wait.created_at < wait.deadline := by
    simp only [WaitRecord.coherent, Bool.and_eq_true, decide_eq_true_eq] at hwait
    exact hwait.1
  by_cases hearly : now < wait.created_at
  · -- Nothing was received between the creation and the time, and the deadline is still to come.
    have hnone : reply = none := by
      cases reply with
      | none => rfl
      | some reply =>
        have hwindow := h.2.1.2
        exact absurd (hwindow.1.trans hwindow.2) (not_le.mpr hearly)
    have hnotdue : ¬wait.deadline ≤ now := not_le.mpr (hearly.trans hlater)
    rw [if_pos (.inr (.inr hearly)), hnone, if_neg (by decide), if_neg hnotdue]
  · rw [if_neg (by rw [hactive]; simp [hearly])]
    cases reply with
    | none => rfl
    | some reply =>
      have hmay : (matchesWait wait reply &&
          decide (wait.created_at ≤ reply.received_at ∧ reply.received_at ≤ now)) = true := by
        rw [h.2.1.1, Bool.true_and, decide_eq_true h.2.1.2]
      rw [Option.any_some, if_pos hmay]
      rfl

theorem resolutionCandidate_of_not_active {generation : ℤ} (h : wait.state ≠ .active) :
    resolutionCandidate wait generation now reply = .none := by
  unfold resolutionCandidate
  rw [if_pos (.inr (.inl h))]

/-! ## What a settlement leaves -/

/-- A transaction did to a wait what an answer of the rule says. -/
def Follows (db : Database) (wait : WaitRecord) (now : Time) (db' : Database) (result : WaitRecord) :
    ResolutionCandidate → Prop
  | .satisfied => ∃ reply, EarliestReply db.inbox.rows wait now (some reply) ∧
      result = { wait with state := .satisfied, resolved_by_event_id := some reply.event_id }
  | .timedOut => result = { wait with state := .timedOut, resolved_by_event_id := none }
  | .none => db' = db ∧ result = wait

theorem RunRow.check_woken {r : RunRow} (h : r.check = true) : r.woken.check = true :=
  RunRow.check_moved h (.inl rfl) none none none

theorem WaitRecord.coherent_settledBy {signal : Option InboxSignal}
    (h : wait.coherent = true) : (wait.settledBy signal).coherent = true := by
  simp only [WaitRecord.coherent, Bool.and_eq_true] at h ⊢
  refine ⟨h.1, ?_⟩
  cases signal <;> rfl

section Settle

variable {db : Database} {wait : WaitRecord}

theorem settle_total (hget : db.waits.get wait.key = some wait) (clk : Clock Time) (signal : Option InboxSignal) :
    ∃ db' result, settle db clk wait signal none = .ok (db', result) := by
  obtain ⟨waits, hwaits⟩ : ∃ waits, db.waits.update wait.key (·.settledBy signal) = .ok waits :=
    Table.update_total hget (WaitRecord.coherent_settledBy (Table.check_of_get hget)) rfl fun _ => ⟨rfl, rfl⟩
  obtain ⟨wakeups, inserted, hwakeup, -⟩ := Table.insertOrIgnore_total (t := db.wakeups)
    (r := wait.wakeup signal) (by cases signal <;> rfl) fun _ => ⟨rfl, rfl⟩
  obtain ⟨runs, hruns⟩ : ∃ runs, wakeRun db clk wait = .ok runs := by
    unfold wakeRun
    split_ifs with hany
    · obtain ⟨r, hr, -⟩ := (Option.any_eq_true _ _).mp hany
      have hrow := (Database.run_eq_some.mp hr).1
      exact RunStore.update_total db.runs clk hrow
        (RunRow.check_woken (Table.check_of_get hrow)) (Table.key_of_get hrow)
    · exact ⟨db.runs, rfl⟩
  refine ⟨{ db with waits := waits, wakeups := wakeups, runs := runs }, wait.settledBy signal, ?_⟩
  simp only [settle, bind_eq_ok, statement_eq_ok, pure_eq_ok]
  exact ⟨waits, hwaits, (wakeups, inserted), hwakeup, runs, hruns, db.events, rfl, rfl⟩

theorem settle_result {db' : Database} {result : WaitRecord} {clk : Clock Time} {signal : Option InboxSignal}
    {event : Option DomainEvent} (hget : db.waits.get wait.key = some wait)
    (h : settle db clk wait signal event = .ok (db', result)) :
    result = wait.settledBy signal ∧ db'.waits.get wait.key = some result := by
  simp only [settle, ok_iff, statement_eq_ok] at h
  obtain ⟨waits, hwaits, -, -, -, -, -, -, rfl, rfl⟩ := h
  refine ⟨rfl, ?_⟩
  change waits.get wait.key = _
  rw [Table.get_update hwaits, if_pos rfl, hget]
  rfl

/-- `_settle_if_ready` refines `resolution_candidate`: it leaves a stored wait as the rule answers for that time and an
earliest reply of the inbox. -/
theorem settlement_refines_rule (clk : Clock Time) {reply : Option InboxSignal}
    (hget : db.waits.get wait.key = some wait) (hreply : EarliestReply db.inbox.rows wait (clk.read 0) reply) :
    (∃ db' result, settleIfReady db clk wait none = .ok (db', result)) ∧
      ∀ event db' result, settleIfReady db clk wait event = .ok (db', result) →
        db'.waits.get wait.key = some result ∧
        Follows db wait (clk.read 0) db' result
          (resolutionCandidate wait wait.generation.val (clk.read 0) reply) := by
  have hsome := (winner_earliest db wait (clk.read 0)).isSome_eq hreply
  have hrule := fun hactive => resolutionCandidate_of_active (Table.check_of_get hget) hactive hreply
  constructor
  · unfold settleIfReady
    split_ifs
    · exact ⟨db, wait, rfl⟩
    · exact ⟨db, wait, rfl⟩
    · exact settle_total hget _ _
  · intro event db' result h
    unfold settleIfReady at h
    split_ifs at h with hstate hready
    · obtain ⟨rfl, rfl⟩ := Prod.mk.inj (pure_eq_ok.mp h)
      rw [resolutionCandidate_of_not_active hstate]
      exact ⟨hget, rfl, rfl⟩
    · obtain ⟨rfl, rfl⟩ := Prod.mk.inj (pure_eq_ok.mp h)
      rw [hrule (not_not.mp hstate), ← hsome, hready.1, if_neg (by decide),
        if_neg (not_le.mpr hready.2)]
      exact ⟨hget, rfl, rfl⟩
    · obtain ⟨rfl, hstored⟩ := settle_result hget h
      refine ⟨hstored, ?_⟩
      rw [hrule (not_not.mp hstate), ← hsome]
      have hwinner := winner_earliest db wait (clk.read 0)
      cases hcase : winner db wait (clk.read 0) with
      | some s =>
        rw [hcase] at hwinner
        exact ⟨s, hwinner, rfl⟩
      | none =>
        have hdue : wait.deadline ≤ clk.read 0 := not_lt.mp fun hlt => hready ⟨hcase, hlt⟩
        rw [if_neg (by decide), if_pos hdue]
        rfl

/-- The wait of the small history, once its Run is parked. -/
def waitingWait : WaitRecord := { sampleWait with state := .active }

/-- Without a reply the wait times out at its deadline. -/
theorem settlement_refines_rule_timeout :
    (∃ db' result, settleIfReady (replay (@exec sampleHashing) Database.empty waitingCalls)
        (.still 100) waitingWait none = .ok (db', result) ∧ result.state = .timedOut) ∧
      ∀ db' result, settleIfReady (replay (@exec sampleHashing) Database.empty waitingCalls)
        (.still 2) waitingWait none = .ok (db', result) → result = waitingWait := by
  have hget : (replay (@exec sampleHashing) Database.empty waitingCalls).waits.get waitingWait.key =
      some waitingWait := by decide
  have hreply : ∀ now, EarliestReply
      (replay (@exec sampleHashing) Database.empty waitingCalls).inbox.rows waitingWait now none := by
    intro now
    have hempty : (replay (@exec sampleHashing) Database.empty waitingCalls).inbox.rows = [] := by
      decide
    rw [hempty]
    exact fun other hother => absurd hother List.not_mem_nil
  constructor
  · obtain ⟨⟨db', result, h⟩, hfollows⟩ :=
      settlement_refines_rule (.still 100) hget (hreply 100)
    have htimeout : result = { waitingWait with state := .timedOut, resolved_by_event_id := none } :=
      (hfollows none db' result h).2
    exact ⟨db', result, h, by rw [htimeout]⟩
  · intro db' result h
    exact ((settlement_refines_rule (.still 2) hget (hreply 2)).2 none db' result h).2.2

end Settle

end Aftercare
