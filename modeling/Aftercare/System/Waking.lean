import Aftercare.System.Ledger
import Aftercare.System.Settlement

/-!
# A decision wakes its Run

`decide` signals the wait of an approval, and the wait is settled only by a signal that was not received before the
wait was created. The two times come from different clocks, so a wait created in the future of the database misses
the decision (`decision_missed`). `decision_wakes` says exactly when one settles its wait.
-/

namespace Aftercare

open Relational

variable {a p result : ApprovalRecord} {binding : WaitBinding} {w wait : WaitRecord}
  {reason : Option String} {t now stop : Time} {signal : InboxSignal} {db db' mid : Database}
  {approver tenant_id approval_id : Identifier} {clk : Clock Time} {c : Call}

variable {gate : Gate}

/-! ## The signal of a decision -/

/-- The key of the wait that an approval of a case is bound to. -/
def WaitBinding.key (scope : CaseScope) (b : WaitBinding) : WaitKey :=
  (scope.tenant_id, scope.case_id, b.run_id, b.wait_id, b.wait_generation.val)

/-- The wait is the one that the approval is bound to. -/
def ApprovalRecord.BoundTo (a : ApprovalRecord) (w : WaitRecord) : Prop :=
  a.binding.map (WaitBinding.key a.toCaseScope) = some w.key

instance (a : ApprovalRecord) (w : WaitRecord) : Decidable (a.BoundTo w) :=
  inferInstanceAs (Decidable (_ = _))

/-- The id of the signal that tells a wait about a decision. -/
def decisionEvent (approval_id key : Identifier) : String :=
  "approval:" ++ (approval_id.val ++ ":" ++ key.val)

/-- The signal of a decision was received, and its wait settled if ready. -/
structure Tells (db mid db' : Database) (clk : Clock Time) (w : WaitRecord) (name : String)
    (signal : InboxSignal) : Prop where
  found : db.waits.get w.key = some w
  unsettled : w.state.settled = false
  waits_eq : mid.waits = db.waits
  waiting : ∃ r, mid.run w.toRunScope = some r ∧ r.waitsFor w.wait_id w.generation.val = true
  named : signal.event_id.val = name
  received : signal.received_at = clk.read 0
  fits : matchesWait w signal = true
  stored : ∀ s, s ∈ mid.inbox.rows ↔ s ∈ db.inbox.rows ∨ s = signal
  settled : ∃ result, settleIfReady mid (clk.drop 1) w none = .ok (db', result)

variable {key : Identifier} {start : Time} {name : String}

theorem decisionSignal_eq_ok [Hashing] (h : decisionSignal result binding wait key reason t = .ok signal) :
    signal.event_id.val = decisionEvent result.approval_id key ∧ signal.received_at = t := by
  simp only [decisionSignal, ok_iff, identifier_eq_ok] at h
  obtain ⟨event_id, hevent, source_id, -, source_event_id, -, reference_id, -, rfl⟩ := h
  exact ⟨hevent, rfl⟩

theorem lockRunWait_key {scope : CaseScope} {digest : Sha256} {run : RunRow}
    (h : lockRunWait db scope binding approval_id digest = .ok (wait, run)) : wait.key = binding.key scope := by
  simp only [lockRunWait, ok_iff] at h
  obtain ⟨run', -, -, wait', hwait, -, -, rfl, -⟩ := h
  exact Table.key_of_get hwait

theorem settleIfReady_approvals {result : WaitRecord} {event : Option DomainEvent}
    (h : settleIfReady db clk wait event = .ok (db', result)) : db'.approvals = db.approvals := by
  unfold settleIfReady at h
  split_ifs at h
  · rw [(Prod.mk.inj (pure_eq_ok.mp h)).1]
  · rw [(Prod.mk.inj (pure_eq_ok.mp h)).1]
  · simp only [settle, ok_iff] at h
    obtain ⟨waits, -, ⟨wakeups, inserted⟩, -, runs, -, events, -, rfl, -⟩ := h
    rfl

theorem resolveDecision_tells [Hashing] {locked : Option (WaitRecord × RunRow)}
    (hpending : a.decision = .pending) (hlocked : lockPendingBinding db a = .ok locked)
    (hruns : mid.runs = db.runs) (hwaits : mid.waits = db.waits) (hinbox : mid.inbox = db.inbox)
    (h : resolveDecision mid clk result locked key reason = .ok db') :
    db'.approvals = mid.approvals ∧ ∀ b, a.binding = some b → ∃ w received signal, w.key = b.key a.toCaseScope ∧
      Tells db received db' clk w (decisionEvent result.approval_id key) signal := by
  rcases locked with _ | ⟨wait, run⟩
  · cases h
    refine ⟨rfl, fun b hb => ?_⟩
    simp only [lockPendingBinding, hb, hpending, if_true, ok_iff] at hlocked
    obtain ⟨_, -, hsome⟩ := hlocked
    cases hsome
  · obtain ⟨hget, hrun, hwaiting, hopen⟩ := lockPendingBinding_eq_ok hlocked
    simp only [resolveDecision, resolveLocked, ok_iff] at h
    obtain ⟨binding, -, signal, hsignal, ⟨db'', settled⟩, ⟨hmatches, ⟨received, inserted⟩, hreceive, hsettle⟩, rfl⟩ := h
    obtain ⟨hname, htime⟩ := decisionSignal_eq_ok hsignal
    obtain ⟨inbox, rfl, hinsert⟩ := receiveInbox_eq_ok hreceive
    have happrovals := settleIfReady_approvals hsettle
    refine ⟨happrovals, fun b hb => ⟨wait, { mid with inbox := inbox }, signal, ?_, ?_⟩⟩
    · simp only [lockPendingBinding, hb, hpending, if_true, ok_iff] at hlocked
      obtain ⟨locked, hlocked, hsome⟩ := hlocked
      rw [Option.some.inj hsome] at hlocked
      exact lockRunWait_key hlocked
    · refine ⟨hget, hopen, hwaits, ⟨run, ?_, hwaiting⟩, hname, htime, hmatches, fun s => ?_, _, hsettle⟩
      · unfold Database.run at hrun ⊢
        rw [hruns]
        exact hrun
      · rw [← hinbox]
        rcases hinsert with hinsert | ⟨rfl, hmem⟩
        · exact Table.mem_insert hinsert
        · exact ⟨.inl, fun hs => hs.elim id fun heq => heq ▸ hmem⟩

theorem decideApproval_found [Hashing] {verdict : ApprovalVerdict}
    (h : decideApproval db clk now tenant_id approval_id approver verdict key reason = .ok (db', result)) :
    ∃ a, db.approvals.get (tenant_id, approval_id) = some a ∧ (a.decision = .pending ∨ db' = db) := by
  simp only [decideApproval, lockCase, ok_iff] at h
  obtain ⟨initial, -, -, locked, -, action, -, current, hcurrent, -, h⟩ := h
  refine ⟨current, findApproval_eq_ok hcurrent, ?_⟩
  split_ifs at h with hdone
  · simp only [ok_iff] at h
    exact .inr h.2.1.symm
  · exact .inl (not_not.mp hdone)

/-- `decide` records the decision and tells its wait. -/
theorem decideApproval_records [Hashing] {verdict : ApprovalVerdict}
    (hget : db.approvals.get (tenant_id, approval_id) = some a) (hpending : a.decision = .pending)
    (h : decideApproval db clk now tenant_id approval_id approver verdict key reason = .ok (db', result)) :
    (∀ p, p ∈ db'.approvals.rows → p ∈ db.approvals.rows ∨ p = a.decided approver verdict key reason (clk.drop 1)) ∧
    ∀ b, a.binding = some b → ∃ w mid told signal, w.key = b.key a.toCaseScope ∧
      Tells db mid told (clk.drop 3) w (decisionEvent a.approval_id key) signal ∧
      AppendsEvents told db' := by
  simp only [decideApproval, lockCase, ok_iff] at h
  obtain ⟨initial, hinitial, -, locked, hlocked, action, -, current, hcurrent, -, h⟩ := h
  obtain rfl : a = initial := Option.some.inj (hget.symm.trans (findApproval_eq_ok hinitial))
  obtain rfl : a = current := Option.some.inj (hget.symm.trans (findApproval_eq_ok hcurrent))
  rw [if_neg (not_not.mpr hpending)] at h
  simp only [recordDecision, ok_iff, statement_eq_ok, ApprovalRecord.record_eq_ok] at h
  obtain ⟨-, -, approvals, hupdate, _, ⟨-, rfl⟩, resolved, hresolve, events, hevents, rfl, -⟩ := h
  obtain ⟨happrovals, htells⟩ := resolveDecision_tells hpending hlocked (by rfl) (by rfl) (by rfl) hresolve
  simp only [appendApprovalDecided, ok_iff] at hevents
  obtain ⟨key', -, hevents⟩ := hevents
  constructor
  · intro p hp
    have hkey : (a.tenant_id, a.approval_id) = _ := Table.key_of_get hget
    rw [← hkey] at hget
    rw [happrovals] at hp
    rcases (Table.mem_update hget hupdate).mp hp with ⟨hp, -⟩ | rfl
    · exact .inl hp
    · exact .inr rfl
  · intro b hb
    obtain ⟨w, received, signal, hkey, htell⟩ := htells b hb
    exact ⟨w, received, resolved, signal, hkey, htell, (AppendsEvents.refl _).tail (recordEvent_appends hevents)⟩

/-! ## One decision -/

/-- After the creation of the wait, and before all other answers. -/
structure FirstAnswer (db : Database) (w : WaitRecord) (name : String) (t : Time) : Prop where
  created : w.created_at ≤ t
  first : ∀ s ∈ db.inbox.rows, matchesWait w s = true → w.created_at ≤ s.received_at →
    t < s.received_at ∨ (t = s.received_at ∧ name ≤ s.event_id.val)

/-- The wait is satisfied by this signal, and its Run is ready. -/
def WokenBy (db : Database) (w : WaitRecord) (name : String) : Prop :=
  (∃ event_id : Identifier, event_id.val = name ∧
    { w with state := .satisfied, resolved_by_event_id := some event_id } ∈ db.waits.rows) ∧
  ∃ r, db.run w.toRunScope = some r ∧ r.state = .ready

theorem Tells.eq_signal {s : InboxSignal} (h : Tells db mid db' clk w name signal) (hs : s ∈ mid.inbox.rows)
    (hmatches : matchesWait w s = true) (hname : s.event_id.val = name) :
    s = signal := by
  by_contra hne
  obtain ⟨-, hclash, -⟩ := mid.inbox.apart.forall hs ((h.stored signal).mpr (.inr rfl)) hne
  have hid : s.event_id = signal.event_id := Identifier.ext (hname.trans h.named.symm)
  have hfits := h.fits
  simp only [matchesWait, Bool.and_eq_true, beq_iff_eq] at hmatches hfits
  obtain ⟨⟨⟨⟨⟨⟨⟨htenant, hcase⟩, -⟩, -⟩, -⟩, -⟩, -⟩, -⟩ := hmatches
  obtain ⟨⟨⟨⟨⟨⟨⟨htenant', hcase'⟩, -⟩, -⟩, -⟩, -⟩, -⟩, -⟩ := hfits
  have hscope : s.toCaseScope = signal.toCaseScope := by
    rw [CaseScope.mk.injEq]
    exact ⟨htenant.symm.trans htenant', hcase.symm.trans hcase'⟩
  simp [inboxSchema_clash, hscope, hid] at hclash

/-- A decision settles an active wait when it answers first. -/
theorem Tells.winner_iff (h : Tells db mid db' clk w name signal) :
    (∃ s, winner mid w (clk.read 1) = some s ∧ s.event_id.val = name) ↔ FirstAnswer db w name (clk.read 0) := by
  have hread : clk.read 0 ≤ clk.read 1 := clk.mono (Nat.zero_le 1)
  have hsignal : signal ∈ mid.inbox.rows := (h.stored signal).mpr (.inr rfl)
  constructor
  · rintro ⟨s, hwinner, hname⟩
    obtain ⟨hs, ⟨hmatches, hcreated, -⟩, hfirst⟩ := winner_eq_some hwinner
    obtain rfl := h.eq_signal hs hmatches hname
    rw [h.received] at hcreated
    refine ⟨hcreated, fun s' hs' hmatches' hcreated' => ?_⟩
    rcases le_or_gt s'.received_at (clk.read 1) with hle | hlt
    · have hbefore := hfirst s' ((h.stored s').mpr (.inl hs')) ⟨hmatches', hcreated', hle⟩
      unfold signalBefore at hbefore
      rw [h.received, h.named] at hbefore
      exact hbefore
    · exact .inl (hread.trans_lt hlt)
  · intro hfirst
    have hanswers : Answers w (clk.read 1) signal := ⟨h.fits, h.received ▸ hfirst.created, h.received ▸ hread⟩
    cases hwinner : winner mid w (clk.read 1) with
    | none => exact absurd hanswers (winner_eq_none hwinner signal hsignal)
    | some s =>
      obtain ⟨hs, ⟨hmatches, hcreated, -⟩, hleast⟩ := winner_eq_some hwinner
      refine ⟨s, rfl, ?_⟩
      rcases (h.stored s).mp hs with hs | rfl
      · -- Each of the two comes before the other, so that they have the same name.
        have hbefore := hleast signal hsignal hanswers
        have hafter := hfirst.first s hs hmatches hcreated
        unfold signalBefore at hbefore
        rw [h.received, h.named] at hbefore
        rcases hbefore with hlt | ⟨heq, hle⟩
        · rcases hafter with hlt' | ⟨heq', -⟩
          · exact absurd hlt hlt'.not_gt
          · exact absurd heq' hlt.ne'
        · rcases hafter with hlt' | ⟨-, hle'⟩
          · exact absurd heq hlt'.ne'
          · exact le_antisymm hle hle'
      · exact h.named

/-- **When a decision settles its wait**: when it answers first. -/
theorem Tells.woken_iff (h : Tells db mid db' clk w name signal) (hactive : w.state = .active) :
    WokenBy db' w name ↔ FirstAnswer db w name (clk.read 0) := by
  obtain ⟨r, hr, hwaiting⟩ := h.waiting
  obtain ⟨result, hsettle⟩ := h.settled
  have hget : mid.waits.get w.key = some w := by
    rw [h.waits_eq]
    exact h.found
  rw [← h.winner_iff]
  rcases settleIfReady_eq_ok hget hr hwaiting hsettle with ⟨rfl, hnone⟩ | ⟨-, done, hdone, hevents⟩
  · -- Nothing was settled, so that the row of the wait is still the active one.
    constructor
    · rintro ⟨⟨event_id, -, hmem⟩, -⟩
      have hsame := Table.eq_of_key_eq hmem (Table.mem_of_get hget) rfl
      rw [← hsame] at hactive
      cases hactive
    · rintro ⟨s, hwinner, -⟩
      have hnone' : winner _ w (clk.read 1) = none := hnone hactive
      rw [hnone'] at hwinner
      cases hwinner
  · obtain ⟨hopen, hself⟩ := WaitRecord.open_of_active hactive
    have hone := @SettlesOne.of_settles .closed _ _ _ _ _ _ _ _ _ .refl rfl hget hopen hself hdone hevents
    have hhere : w.settledBy (winner mid w (clk.read 1)) ∈ db'.waits.rows := hone.here
    obtain ⟨r', -, -, hwoken⟩ := hone.woken
    constructor
    · rintro ⟨⟨event_id, hname, hmem⟩, -⟩
      have hsame := Table.eq_of_key_eq hmem hhere rfl
      have hresolved := congrArg WaitRecord.resolved_by_event_id hsame
      simp only [WaitRecord.settledBy] at hresolved
      obtain ⟨s, hwinner, hid⟩ := Option.map_eq_some_iff.mp hresolved.symm
      exact ⟨s, hwinner, hid ▸ hname⟩
    · rintro ⟨s, hwinner, hname⟩
      rw [hwinner] at hhere
      exact ⟨⟨s.event_id, hname, hhere⟩, r'.woken, hwoken, rfl⟩

/-- A decision in time is in the inbox, and the wait has not timed out. -/
theorem Tells.answered (h : Tells db mid db' clk w name signal) (hcreated : w.created_at ≤ clk.read 0) :
    ∃ w' ∈ db'.waits.rows, w'.key = w.key ∧ w'.state ≠ .timedOut ∧ ∃ s ∈ db'.inbox.rows, Answers w' clk.stop s := by
  obtain ⟨r, hr, hwaiting⟩ := h.waiting
  obtain ⟨result, hsettle⟩ := h.settled
  have hget : mid.waits.get w.key = some w := by
    rw [h.waits_eq]
    exact h.found
  have hsignal : signal ∈ mid.inbox.rows := (h.stored signal).mpr (.inr rfl)
  have hanswers : ∀ t, clk.read 0 ≤ t → Answers w t signal :=
    fun t ht => ⟨h.fits, h.received ▸ hcreated, h.received ▸ ht⟩
  rcases settleIfReady_eq_ok hget hr hwaiting hsettle with ⟨rfl, -⟩ | ⟨hactive, done, hdone, hevents⟩
  · refine ⟨w, Table.mem_of_get hget, rfl, fun htimed => ?_, signal, hsignal, hanswers _ (clk.le_stop 0)⟩
    have hopen := h.unsettled
    rw [htimed] at hopen
    cases hopen
  · obtain ⟨hopen, hself⟩ := WaitRecord.open_of_active hactive
    have hone := @SettlesOne.of_settles .closed _ _ _ _ _ _ _ _ _ .refl rfl hget hopen hself hdone hevents
    have hinbox : db'.inbox = mid.inbox := by
      obtain ⟨events, -, rfl⟩ := hevents
      cases hdone
      rfl
    rw [← hinbox] at hsignal
    refine ⟨_, hone.here, hone.key_eq, fun htimed => ?_, signal, hsignal, hanswers _ (clk.le_stop 0)⟩
    -- The signal answers the wait, so that it did not end by its deadline.
    rcases hone.ended with ⟨hsatisfied, -⟩ | ⟨-, -, hnone, -⟩
    · rw [htimed] at hsatisfied
      cases hsatisfied
    · exact hnone signal hsignal (hanswers _ (clk.mono (Nat.zero_le 1)))

/-! ## Whole histories -/

/-- Signals stay, and waits stay what they wait for. -/
structure KeepsWaits (db db' : Database) : Prop where
  inbox : ∀ s ∈ db.inbox.rows, s ∈ db'.inbox.rows
  waits : ∀ w ∈ db.waits.rows, ∃ w' ∈ db'.waits.rows, w' = { w with
    state := w'.state, resolved_by_event_id := w'.resolved_by_event_id }

theorem KeepsWaits.of_eq (hinbox : db'.inbox = db.inbox) (hwaits : db'.waits = db.waits) : KeepsWaits db db' :=
  ⟨fun _ hs => hinbox ▸ hs, fun w hw => ⟨w, hwaits ▸ hw, rfl⟩⟩

theorem KeepsWaits.trans (h : KeepsWaits db mid) (h' : KeepsWaits mid db') : KeepsWaits db db' := by
  refine ⟨fun _ hs => h'.inbox _ (h.inbox _ hs), fun w hw => ?_⟩
  obtain ⟨w', hw', hsame⟩ := h.waits w hw
  obtain ⟨w'', hw'', hsame'⟩ := h'.waits w' hw'
  refine ⟨w'', hw'', hsame'.trans ?_⟩
  rw [hsame]

theorem KeepsWaits.of_update {waits : Table waitSchema} {f : WaitRecord → WaitRecord}
    (hget : db.waits.get wait.key = some wait) (h : db.waits.update wait.key f = .ok waits)
    (hf : f wait = { wait with state := (f wait).state, resolved_by_event_id := (f wait).resolved_by_event_id }) :
    KeepsWaits db { db with waits := waits } := by
  refine ⟨fun s hs => hs, fun w hw => ?_⟩
  by_cases heq : w = wait
  · exact ⟨f wait, (Table.mem_update hget h).mpr (.inr rfl), heq ▸ hf⟩
  · exact ⟨w, Table.mem_update_of_ne hget h hw heq, rfl⟩

theorem Write.keepsWaits (h : Write gate start stop db db') : KeepsWaits db db' := by
  cases h <;> try exact .of_eq rfl rfl
  case registerWait wait hstate h =>
    exact ⟨fun s hs => hs, fun w hw => ⟨w, (Table.mem_insert h).mpr (.inl hw), rfl⟩⟩
  case activateWait r wait hget hstate hr hwaiting hbound h =>
    exact .of_update hget h rfl
  case receive signal h =>
    exact ⟨fun s hs => (Table.mem_insert h).mpr (.inl hs), fun w hw => ⟨w, hw, rfl⟩⟩

theorem Writes.keepsWaits (h : Writes gate start stop db db') : KeepsWaits db db' := by
  induction h with
  | refl => exact .of_eq rfl rfl
  | tail _ hlast ih => exact ih.trans hlast.keepsWaits

theorem Effect.keepsWaits (h : Effect start stop db c db') : KeepsWaits db db' := by
  cases h with
  | resolves c h =>
    cases h with
    | writes h => exact h.keepsWaits
    | settle hprepare hruns hget hopen hwait hsettle hevents =>
      obtain ⟨events, -, rfl⟩ := hevents
      cases hsettle with
      | mk hclk ht hmid hactive hr hwaits hready hupdate hwakeup hrun =>
        exact hprepare.keepsWaits.trans ((KeepsWaits.of_update hmid hupdate rfl).trans (.of_eq rfl rfl))
  | acts c h =>
    rcases h with rfl | ⟨t, actions, -, -, rfl⟩
    · exact .of_eq rfl rfl
    · exact .of_eq rfl rfl
  | transitions claim target args h =>
    cases h
    exact .of_eq rfl rfl
  | saves checkpoint claim h =>
    obtain ⟨checkpoints, -, rfl⟩ := h
    exact .of_eq rfl rfl

theorem Write.verdict (h : Write gate start stop db db') (hp : p ∈ db'.approvals.rows)
    (hverdict : p.decision = .approved ∨ p.decision = .rejected) :
    p ∈ db.approvals.rows ∨ gate = .decideApproval := by
  cases h <;> try exact .inl hp
  case requestApproval hgate a hpending hcase haction h =>
    rcases (Table.mem_insert h).mp hp with hp | rfl
    · exact .inl hp
    · rw [hpending] at hverdict
      rcases hverdict with hverdict | hverdict <;> cases hverdict
  case decideApproval k f a hgate hget hpending hrequest happroved h =>
    rcases (Table.mem_update hget h).mp hp with ⟨hp, -⟩ | rfl
    · exact .inl hp
    · rcases hgate with hgate | ⟨-, hexpired⟩
      · exact .inr hgate
      · rw [hexpired] at hverdict
        rcases hverdict with hverdict | hverdict <;> cases hverdict

theorem Writes.verdict (h : Writes gate start stop db db') (hp : p ∈ db'.approvals.rows)
    (hverdict : p.decision = .approved ∨ p.decision = .rejected) :
    p ∈ db.approvals.rows ∨ gate = .decideApproval := by
  induction h with
  | refl => exact .inl hp
  | tail _ hlast ih => exact (hlast.verdict hp hverdict).elim ih .inr

theorem Effect.verdict (h : Effect start stop db c db') (hp : p ∈ db'.approvals.rows)
    (hverdict : p.decision = .approved ∨ p.decision = .rejected) :
    p ∈ db.approvals.rows ∨ c.gate = .decideApproval := by
  revert hp
  exact h.rule (fun hwrites hp => hwrites.verdict hp hverdict) (fun hmid => hmid) (fun _ _ => .inl) (fun _ _ => .inl)

/-- Its wait has an answer in the inbox and has not timed out. -/
def AnsweredAt (db : Database) (t : Time) (a : ApprovalRecord) : Prop :=
  ∃ w ∈ db.waits.rows, a.BoundTo w ∧ w.state ≠ .timedOut ∧ ∃ s ∈ db.inbox.rows, Answers w t s

theorem AnsweredAt.later {t' : Time} (hle : t ≤ t') (h : AnsweredAt db t a) : AnsweredAt db t' a := by
  obtain ⟨w, hw, hbound, hstate, s, hs, hmatches, hcreated, hreceived⟩ := h
  exact ⟨w, hw, hbound, hstate, s, hs, hmatches, hcreated, hreceived.trans hle⟩

theorem Effect.keeps_answered (h : Effect start stop db c db') (ha : AnsweredAt db start a) :
    AnsweredAt db' start a := by
  obtain ⟨w, hw, hbound, hstate, s, hs, hanswers⟩ := ha
  obtain ⟨w', hw', hsame⟩ := h.keepsWaits.waits w hw
  have hkey : w'.key = w.key := by rw [hsame]; rfl
  have hs' := h.keepsWaits.inbox s hs
  have hanswers' : ∀ t ≥ start, Answers w' t s := by
    intro t ht
    rw [hsame]
    exact ⟨hanswers.1, hanswers.2.1, hanswers.2.2.trans ht⟩
  refine ⟨w', hw', ?_, fun htimed => ?_, s, hs', hanswers' start le_rfl⟩
  · unfold ApprovalRecord.BoundTo
    rw [hkey]
    exact hbound
  · -- A wait that has timed out had timed out before, or it is settled here while it is answered.
    have hsettled : w'.state.settled = true := by rw [htimed]; rfl
    have hold : w' ∉ db.waits.rows := by
      intro hmem
      rw [Table.eq_of_key_eq hmem hw hkey] at htimed
      exact hstate htimed
    rcases h.settlement with hopen | ⟨current, settled, now, hone⟩
    · exact hold ((hopen.settled w' hsettled).mp hw')
    · by_cases hcurrent : w'.key = current.key
      · have heq : w' = settled := Table.eq_of_key_eq hw' hone.here (hcurrent.trans hone.key_eq.symm)
        rcases hone.ended with ⟨hsatisfied, -⟩ | ⟨-, -, hnone, -⟩
        · rw [← heq, htimed] at hsatisfied
          cases hsatisfied
        · exact hnone s hs' (heq ▸ hanswers' now hone.during.1)
      · exact hold ((hone.others w' hcurrent hsettled).mp hw')

/-- The decision comes after the creation of its wait. -/
def Call.InWindow (db : Database) (clk : Clock Time) : Call → Prop
  | .decideApproval _ tenant_id approval_id _ _ _ _ =>
    ∀ a ∈ db.approvals.rows, a.tenant_id = tenant_id → a.approval_id = approval_id →
      a.decision = .pending → ∀ w ∈ db.waits.rows, a.BoundTo w → w.created_at ≤ clk.read 3
  | _ => True

instance (db : Database) (clk : Clock Time) (c : Call) : Decidable (c.InWindow db clk) := by
  unfold Call.InWindow
  split <;> infer_instance

/-- Every approval that was approved or rejected has told its wait. -/
def Heard (db : Database) (t : Time) : Prop :=
  ∀ a ∈ db.approvals.rows, a.decision = .approved ∨ a.decision = .rejected →
    a.binding.isSome = true → AnsweredAt db t a

theorem Call.gate_eq_decideApproval (h : c.gate = .decideApproval) :
    ∃ now tenant_id approval_id approver verdict key reason,
      c = .decideApproval now tenant_id approval_id approver verdict key reason := by
  cases c <;> first | exact ⟨_, _, _, _, _, _, _, rfl⟩ | cases h

theorem decideApproval_answered [Hashing] {verdict : ApprovalVerdict}
    (hget : db.approvals.get (tenant_id, approval_id) = some a) (hpending : a.decision = .pending)
    (hwindow : ∀ w ∈ db.waits.rows, a.BoundTo w → w.created_at ≤ clk.read 3)
    (h : decideApproval db clk now tenant_id approval_id approver verdict key reason = .ok (db', result))
    (hbinding : a.binding.isSome = true) : AnsweredAt db' clk.stop a := by
  obtain ⟨b, hb⟩ := Option.isSome_iff_exists.mp hbinding
  obtain ⟨w, mid, told, signal, hkey, htells, hevents⟩ := (decideApproval_records hget hpending h).2 b hb
  have hbound : ∀ w' : WaitRecord, w'.key = w.key → a.BoundTo w' := by
    intro w' hsame
    unfold ApprovalRecord.BoundTo
    rw [hb, hsame, hkey]
    rfl
  have hcreated := hwindow w (Table.mem_of_get htells.found) (hbound w rfl)
  obtain ⟨w', hw', hsame, hstate, hanswer⟩ := htells.answered hcreated
  obtain ⟨events, -, rfl⟩ := hevents
  exact ⟨w', hw', hbound w' hsame, hstate, hanswer⟩

theorem Heard.step [Hashing] {db db' : Database} {clk : Clock Time} {c : Call} {o : Output}
    (hdb : Heard db (clk.read 0)) (hc : c.InWindow db clk) (h : exec db clk c = .ok (db', o)) :
    Heard db' clk.stop := by
  have heffect := exec_effect h
  intro a ha hverdict hbinding
  have hkept : a ∈ db.approvals.rows → AnsweredAt db' clk.stop a := fun hold =>
    (heffect.keeps_answered (hdb a hold hverdict hbinding)).later (clk.le_stop 0)
  rcases heffect.verdict ha hverdict with hold | hgate
  · exact hkept hold
  -- Only a decision is left, and only on the approval that it finds pending.
  obtain ⟨now, tenant_id, approval_id, approver, verdict, key, reason, rfl⟩ := Call.gate_eq_decideApproval hgate
  simp only [exec, ok_iff, Prod.exists] at h
  obtain ⟨_, result, hdecide, rfl, -⟩ := h
  obtain ⟨p, hget, hpending | rfl⟩ := decideApproval_found hdecide
  · rcases (decideApproval_records hget hpending hdecide).1 a ha with hold | rfl
    · exact hkept hold
    · obtain ⟨htenant, hid⟩ := Prod.mk.inj (Table.key_of_get hget)
      have hanswered : AnsweredAt _ clk.stop p := decideApproval_answered hget hpending
        (hc p (Table.mem_of_get hget) htenant hid hpending) hdecide hbinding
      exact hanswered
  · exact hkept ha

/-- **A decision wakes its Run** exactly when the wait was not created after the time of the decision and no stored signal
answers it before; and where every decision comes after the creation of its wait no decided wait times out. -/
theorem decision_wakes [Hashing] {h : List (Transaction Database Time Call Output Failure)}
    {t₀ t : Time} {db : Database} (hr : History h t₀ db t) :
    (∀ τ ∈ h, ∀ now tenant_id approval_id approver verdict key reason db' o,
      τ.call = .decideApproval now tenant_id approval_id approver verdict key reason →
      τ.outcome = .ok (db', o) →
      ∀ a, τ.before.approvals.get (tenant_id, approval_id) = some a → a.decision = .pending →
      ∀ w ∈ τ.before.waits.rows, a.BoundTo w → w.state = .active →
        (WokenBy db' w (decisionEvent approval_id key) ↔
          FirstAnswer τ.before w (decisionEvent approval_id key) (τ.clock.read 3))) ∧
    ((∀ τ ∈ h, τ.call.InWindow τ.before τ.clock) →
      ∀ a ∈ db.approvals.rows, a.decision = .approved ∨ a.decision = .rejected →
        ∀ w ∈ db.waits.rows, a.BoundTo w → w.state ≠ .timedOut) := by
  constructor
  · intro τ hτ now tenant_id approval_id approver verdict key reason db' o hcall hok a hget hpending
      w hw hbound hactive
    obtain ⟨-, -, -, -, houtcome⟩ := hr.before hτ
    rw [houtcome, hcall] at hok
    simp only [exec, ok_iff, Prod.exists] at hok
    obtain ⟨_, result, hdecide, rfl, -⟩ := hok
    obtain ⟨b, hb, hkey⟩ := Option.map_eq_some_iff.mp hbound
    obtain ⟨w', mid, told, signal, hkey', htells, hevents⟩ :=
      (decideApproval_records hget hpending hdecide).2 b hb
    have hsame : w' = w :=
      Table.eq_of_key_eq (Table.mem_of_get htells.found) hw (hkey'.trans hkey)
    subst hsame
    have hid : a.approval_id = approval_id := (Prod.mk.inj (Table.key_of_get hget)).2
    rw [hid] at htells
    obtain ⟨events, -, rfl⟩ := hevents
    exact htells.woken_iff hactive
  · intro hwindow a ha hverdict w hw hbound
    have hheard : Heard db t := by
      refine hr.invariant_of (fun db clk c => c.InWindow db clk) Heard
        (fun hle hdb a ha hverdict hbinding => (hdb a ha hverdict hbinding).later hle)
        (fun hdb hc hexec => hdb.step hc hexec) hwindow ?_
      intro a ha
      cases ha
    have hbinding : a.binding.isSome = true := by
      obtain ⟨b, hb, -⟩ := Option.map_eq_some_iff.mp hbound
      rw [hb]
      rfl
    obtain ⟨w', hw', hbound', hstate, -⟩ := hheard a ha hverdict hbinding
    have hkey : w.key = w'.key := Option.some.inj (hbound.symm.trans hbound')
    rw [Table.eq_of_key_eq hw hw' hkey]
    exact hstate

/-- A wait for the approval of the refund. -/
def approvalWait (created_at : Time) : WaitRecord :=
  { sampleWait with
    kind := .approval, correlation_key := sampleApproval.approval_id
    condition_version := ⟨sampleDigest.val, by decide⟩, created_at := created_at }

def boundApproval : ApprovalRequest :=
  { sampleApproval with
    binding := some ⟨sampleScope.run_id, sampleWait.wait_id, sampleWait.generation⟩ }

/-- The Run is parked on an approval, which is then decided. -/
def approvalCalls (created_at : Time) : List (Time × Call) :=
  sampleCalls ++
    [(3, .reserve sampleIntent (some sampleClaim)), (3, .register (approvalWait created_at) sampleClaim),
      (4, .transition sampleClaim .waitingApproval ⟨none, none, some sampleWait.wait_id, some 1, none⟩),
      (5, .activate (approvalWait created_at) none), (6, .requestApproval 6 boundApproval),
      (7, .decideApproval 7 sampleScope.tenant_id sampleApproval.approval_id
        ⟨"manager-1", Eq.refl true⟩ .approved ⟨"key-2", Eq.refl true⟩ none)]

/-- The decision is in time, and its wait never times out. -/
theorem decision_wakes_refund : (∀ τ ∈ trace (@exec sampleHashing) Database.empty (approvalCalls 3),
      τ.call.InWindow τ.before τ.clock) ∧
    ∃ a ∈ (replay (@exec sampleHashing) Database.empty (approvalCalls 3)).approvals.rows,
      a.decision = .approved ∧
      ∃ w ∈ (replay (@exec sampleHashing) Database.empty (approvalCalls 3)).waits.rows,
        a.BoundTo w ∧ w.state ≠ .timedOut := by
  have hr : @History sampleHashing _ 0 _ _ :=
    replay_runs (@exec sampleHashing) (approvalCalls 3) Database.empty 0 (by decide)
  have hwindow : ∀ τ ∈ trace (@exec sampleHashing) Database.empty (approvalCalls 3),
      τ.call.InWindow τ.before τ.clock := by decide
  obtain ⟨a, ha, happroved, w, hw, hbound⟩ :
      ∃ a ∈ (replay (@exec sampleHashing) Database.empty (approvalCalls 3)).approvals.rows,
        a.decision = .approved ∧
        ∃ w ∈ (replay (@exec sampleHashing) Database.empty (approvalCalls 3)).waits.rows,
          a.BoundTo w := by decide
  exact ⟨hwindow, a, ha, happroved, w, hw, hbound,
    (@decision_wakes sampleHashing _ _ _ _ hr).2 hwindow a ha (.inl happroved) w hw hbound⟩

/-- A wait as of 50 misses the decision at 7 and times out. -/
theorem decision_missed :
    (∃ t, @History sampleHashing (trace (@exec sampleHashing) Database.empty (approvalCalls 50)) 0
      (replay (@exec sampleHashing) Database.empty (approvalCalls 50)) t) ∧
    (∃ a ∈ (replay (@exec sampleHashing) Database.empty (approvalCalls 50)).approvals.rows,
      a.decision = .approved ∧ a.BoundTo (approvalWait 50)) ∧
    { approvalWait 50 with state := .active } ∈
      (replay (@exec sampleHashing) Database.empty (approvalCalls 50)).waits.rows ∧
    (∀ r ∈ (replay (@exec sampleHashing) Database.empty (approvalCalls 50)).runs.runs.rows,
      r.state = .waitingApproval) ∧
    { approvalWait 50 with state := .timedOut } ∈ (replay (@exec sampleHashing) Database.empty
      (approvalCalls 50 ++ [(100, .resolveTimeout (approvalWait 50) none)])).waits.rows :=
  ⟨⟨_, replay_runs (@exec sampleHashing) (approvalCalls 50) Database.empty 0 (by decide)⟩,
    by decide, by decide, by decide, by decide⟩

end Aftercare
