import Aftercare.System.Fencing

/-!
# A wait is settled exactly once

Five methods may settle a wait, all by `Settles`, and every other statement leaves it open. So a settled wait was
settled by one transaction (`Effect.settlement`), which also wrote the wakeup and made the Run ready (`Wakeups`).
-/

namespace Aftercare

open Relational

variable {db db' : Database} {w wait current : WaitRecord} {t t₀ now stop : Time} {s : InboxSignal}
  {c : Call} {h : List CallTransaction}

variable {gate : Gate}

/-! ## The winner -/

def Answers (wait : WaitRecord) (now : Time) (signal : InboxSignal) : Prop :=
  matchesWait wait signal = true ∧ wait.created_at ≤ signal.received_at ∧ signal.received_at ≤ now

theorem mem_settlingSignals : s ∈ settlingSignals db wait now ↔ s ∈ db.inbox.rows ∧ Answers wait now s := by
  unfold settlingSignals Table.select Answers
  rw [List.mem_filter, Bool.and_eq_true, decide_eq_true_eq]

instance : Std.Total signalBefore := ⟨by
  intro a b
  unfold signalBefore
  rcases lt_trichotomy a.received_at b.received_at with hlt | heq | hgt
  · exact .inl (.inl hlt)
  · rcases le_total a.event_id.val b.event_id.val with hle | hle
    · exact .inl (.inr ⟨heq, hle⟩)
    · exact .inr (.inr ⟨heq.symm, hle⟩)
  · exact .inr (.inl hgt)⟩

instance : IsTrans InboxSignal signalBefore := ⟨by
  rintro a b c (hab | ⟨hab, hab'⟩) (hbc | ⟨hbc, hbc'⟩)
  · exact .inl (hab.trans hbc)
  · exact .inl (hbc ▸ hab)
  · exact .inl (hab ▸ hbc)
  · exact .inr ⟨hab.trans hbc, hab'.trans hbc'⟩⟩

theorem winner_eq_some (h : winner db wait now = some s) : s ∈ db.inbox.rows ∧ Answers wait now s ∧
      ∀ s' ∈ db.inbox.rows, Answers wait now s' → signalBefore s s' := by
  unfold winner at h
  obtain ⟨before, after, hlist, hbefore⟩ := (List.find?_eq_some_iff_append.mp h).2
  have hmem : s ∈ settlingSignals db wait now := (List.mem_insertionSort _).mp (List.mem_of_find?_eq_some h)
  obtain ⟨hrow, hanswers⟩ := mem_settlingSignals.mp hmem
  refine ⟨hrow, hanswers, fun s' hs' hanswers' => ?_⟩
  have hsorted := List.pairwise_insertionSort signalBefore (settlingSignals db wait now)
  have hmem' : s' ∈ (settlingSignals db wait now).insertionSort signalBefore :=
    (List.mem_insertionSort _).mpr (mem_settlingSignals.mpr ⟨hs', hanswers'⟩)
  rw [hlist] at hsorted hmem'
  -- Nothing stands before the winner, because every signal of the list matches the wait.
  rcases List.mem_append.mp hmem' with hfront | hback
  · have hnot := hbefore s' hfront
    rw [hanswers'.1] at hnot
    cases hnot
  · rcases List.mem_cons.mp hback with rfl | hback
    · exact .inr ⟨rfl, le_rfl⟩
    · exact (List.pairwise_cons.mp (List.pairwise_append.mp hsorted).2.1).1 s' hback

theorem winner_eq_none (h : winner db wait now = none) : ∀ s ∈ db.inbox.rows, ¬Answers wait now s := by
  intro s hs hanswers
  have hmem : s ∈ (settlingSignals db wait now).insertionSort signalBefore :=
    (List.mem_insertionSort _).mpr (mem_settlingSignals.mpr ⟨hs, hanswers⟩)
  have hnot := List.find?_eq_none.mp h s hmem
  exact hnot hanswers.1

/-- By the first answer, or because its deadline has come. -/
def EndedAt (inbox : List InboxSignal) (wait : WaitRecord) (now : Time) : Prop :=
  (wait.state = .satisfied ∧ ∃ s ∈ inbox, Answers wait now s ∧ wait.resolved_by_event_id = some s.event_id ∧
      ∀ s' ∈ inbox, Answers wait now s' → signalBefore s s') ∨
    (wait.state = .timedOut ∧ wait.resolved_by_event_id = none ∧
      (∀ s ∈ inbox, ¬Answers wait now s) ∧ wait.deadline ≤ now)

theorem endedAt_settledBy (hready : winner db wait now = none → wait.deadline ≤ now) :
    EndedAt db.inbox.rows (wait.settledBy (winner db wait now)) now := by
  cases hwinner : winner db wait now with
  | none => exact .inr ⟨rfl, rfl, winner_eq_none hwinner, hready hwinner⟩
  | some s =>
    obtain ⟨hs, hanswers, hfirst⟩ := winner_eq_some hwinner
    exact .inl ⟨rfl, s, hs, hanswers, rfl, hfirst⟩

/-! ## Statements that leave the waits open -/

/-- Active waits and wakeups are still there. -/
structure LeavesOpen (db db' : Database) : Prop where
  settled : ∀ w, w.state.settled = true → (w ∈ db'.waits.rows ↔ w ∈ db.waits.rows)
  active : ∀ w ∈ db.waits.rows, w.state = .active → w ∈ db'.waits.rows
  wakeups : db'.wakeups = db.wakeups

theorem LeavesOpen.of_eq (hwaits : db'.waits = db.waits) (hwakeups : db'.wakeups = db.wakeups) : LeavesOpen db db' :=
  ⟨fun w _ => by rw [hwaits], fun w hw _ => by rw [hwaits]; exact hw, hwakeups⟩

theorem LeavesOpen.trans {mid : Database} (h : LeavesOpen db mid) (h' : LeavesOpen mid db') : LeavesOpen db db' :=
  ⟨fun w hw => (h'.settled w hw).trans (h.settled w hw),
    fun w hw hactive => h'.active w (h.active w hw hactive) hactive, h'.wakeups.trans h.wakeups⟩

variable {start : Time}

theorem Write.leavesOpen (h : Write gate start stop db db') : LeavesOpen db db' := by
  cases h <;> try exact .of_eq rfl rfl
  case registerWait wait hstate h =>
    refine ⟨fun w hw => ?_, fun w hw _ => (Table.mem_insert h).mpr (.inl hw), rfl⟩
    refine (Table.mem_insert h).trans ⟨fun hmem => hmem.resolve_right ?_, .inl⟩
    rintro rfl
    rw [hstate] at hw
    cases hw
  case activateWait r wait hget hstate hr hwaiting hbound h =>
    have hne : ∀ w : WaitRecord, w.state.settled = true ∨ w.state = .active → w ≠ wait := by
      rintro w hw rfl
      rw [hstate] at hw
      rcases hw with hw | hw <;> cases hw
    refine ⟨fun w hw => ⟨fun hmem => ?_, fun hmem => ?_⟩, fun w hw hactive => ?_, rfl⟩
    · rcases (Table.mem_update hget h).mp hmem with ⟨hmem, -⟩ | rfl
      · exact hmem
      · cases hw
    · exact Table.mem_update_of_ne hget h hmem (hne w (.inl hw))
    · exact Table.mem_update_of_ne hget h hw (hne w (.inr hactive))

theorem Writes.leavesOpen (h : Writes gate start stop db db') : LeavesOpen db db' := by
  induction h with
  | refl => exact .of_eq rfl rfl
  | tail _ hlast ih => exact ih.trans hlast.leavesOpen

/-! ## The one statement that settles a wait -/

/-- The wakeup that records how a settled wait ended. -/
def WaitRecord.ending (w : WaitRecord) : WakeupRow where
  key := w.key
  winner_event_id := w.resolved_by_event_id
  outcome := if w.state = .satisfied then .reply else .timeout

/-- One wait was settled: `current` became `settled`. -/
structure SettlesOne (start stop : Time) (db db' : Database) (current settled : WaitRecord)
    (now : Time) : Prop where
  found : current ∈ db.waits.rows
  unsettled : current.state.settled = false
  during : start ≤ now ∧ now ≤ stop
  /-- Only the state and the winner are new. -/
  same : settled = { current with
    state := settled.state, resolved_by_event_id := settled.resolved_by_event_id }
  here : settled ∈ db'.waits.rows
  others : ∀ w : WaitRecord, w.key ≠ current.key → w.state.settled = true →
    (w ∈ db'.waits.rows ↔ w ∈ db.waits.rows)
  active : ∀ w ∈ db.waits.rows, w.key ≠ current.key → w.state = .active → w ∈ db'.waits.rows
  ended : EndedAt db'.inbox.rows settled now
  wakeup : ∃ inserted, db.wakeups.insertOrIgnore settled.ending = .ok (db'.wakeups, inserted)
  /-- The Run waited for this wait, and it is ready now. -/
  woken : ∃ r, db.run current.toRunScope = some r ∧
    r.waitsFor current.wait_id current.generation.val = true ∧
    db'.run current.toRunScope = some r.woken

theorem WaitRecord.wakeup_eq_ending (wait : WaitRecord) (signal : Option InboxSignal) :
    wait.wakeup signal = (wait.settledBy signal).ending := by
  cases signal <;> rfl

theorem SettlesOne.of_settles {start stop now : Time} {db mid done db' : Database}
    {wait current : WaitRecord} (hprepare : Writes gate start stop db mid) (hruns : mid.runs = db.runs)
    (hget : db.waits.get wait.key = some current) (hopen : current.state.settled = false)
    (hwait : wait = { current with state := .active })
    (hsettle : Settles start stop wait now mid done) (hevents : AppendsEvents done db') :
    SettlesOne start stop db db' current (wait.settledBy (winner mid wait now)) now := by
  obtain ⟨events, -, rfl⟩ := hevents
  have hbefore := hprepare.leavesOpen
  cases hsettle with
  | mk hclk ht hmid hactive hr hwaits hready hupdate hwakeup hrun =>
    have hkey : wait.key = current.key := by rw [hwait]; rfl
    have hmem := fun w : WaitRecord => Table.mem_update (a := w) hmid hupdate
    refine ⟨Table.mem_of_get hget, hopen, ht, ?_, (hmem _).mpr (.inr rfl), ?_, ?_, endedAt_settledBy hready, ?_, ?_⟩
    · rw [hwait]
      rfl
    · intro w hw hsettled
      refine Iff.trans ⟨fun hw' => ?_, fun hw' => ?_⟩ (hbefore.settled w hsettled)
      · rcases (hmem w).mp hw' with ⟨hw', -⟩ | rfl
        · exact hw'
        · exact absurd hkey hw
      · exact (hmem w).mpr (.inl ⟨hw', fun hk => hw (hk.trans hkey)⟩)
    · intro w hw hne hwactive
      exact (hmem w).mpr (.inl ⟨hbefore.active w hw hwactive, fun hk => hne (hk.trans hkey)⟩)
    · rw [← WaitRecord.wakeup_eq_ending, ← hbefore.wakeups]
      exact ⟨_, hwakeup⟩
    · have hscope : wait.toRunScope = current.toRunScope := by rw [hwait]
      have hrow := (Database.run_eq_some.mp hr).1
      have hrun' := Database.run_update hrow rfl hrun current.toRunScope
      rw [if_pos (hscope.symm.trans (Database.run_eq_some.mp hr).2.symm)] at hrun'
      refine ⟨_, ?_, ?_, hrun'⟩
      · unfold Database.run at hr ⊢
        rw [← hruns, ← hscope]
        exact hr
      · rw [hwait] at hwaits
        exact hwaits

/-- **What a call does to the waits**: it settles at most one. -/
theorem Effect.settlement (h : Effect start stop db c db') : LeavesOpen db db' ∨
      ∃ current settled now, SettlesOne start stop db db' current settled now := by
  cases h with
  | resolves c h =>
    cases h with
    | writes h => exact .inl h.leavesOpen
    | settle hprepare hruns hget hopen hwait hsettle hevents =>
      exact .inr ⟨_, _, _, .of_settles hprepare hruns hget hopen hwait hsettle hevents⟩
  | acts c h =>
    rcases h with rfl | ⟨t, actions, -, -, rfl⟩
    · exact .inl (.of_eq rfl rfl)
    · exact .inl (.of_eq rfl rfl)
  | transitions claim target args h =>
    cases h
    exact .inl (.of_eq rfl rfl)
  | saves checkpoint claim h =>
    obtain ⟨checkpoints, -, rfl⟩ := h
    exact .inl (.of_eq rfl rfl)

/-! ## Wakeups -/

/-- The wakeups are those of the settled waits. -/
structure Wakeups (db : Database) : Prop where
  of_wakeup : ∀ u ∈ db.wakeups.rows, ∃ w ∈ db.waits.rows, w.state.settled = true ∧ u = w.ending
  of_wait : ∀ w ∈ db.waits.rows, w.state.settled = true →
    w.ending ∈ db.wakeups.rows ∧ (w.state = .satisfied ∨ w.state = .timedOut)

theorem LeavesOpen.keeps_wakeups (hdb : Wakeups db) (h : LeavesOpen db db') : Wakeups db' := by
  refine ⟨fun u hu => ?_, fun w hw hsettled => ?_⟩
  · rw [h.wakeups] at hu
    obtain ⟨w, hw, hsettled, rfl⟩ := hdb.of_wakeup u hu
    exact ⟨w, (h.settled w hsettled).mpr hw, hsettled, rfl⟩
  · rw [h.wakeups]
    exact hdb.of_wait w ((h.settled w hsettled).mp hw) hsettled

theorem EndedAt.settled {inbox : List InboxSignal} (h : EndedAt inbox wait now) : wait.state.settled = true ∧
      (wait.state = .satisfied ∨ wait.state = .timedOut) ∧
      wakeupSchema.check wait.ending = true := by
  rcases h with ⟨hstate, s, -, -, hwinner, -⟩ | ⟨hstate, hnone, -, -⟩
  · refine ⟨by rw [hstate]; rfl, .inl hstate, ?_⟩
    simp [WaitRecord.ending, hstate, hwinner]
  · refine ⟨by rw [hstate]; rfl, .inr hstate, ?_⟩
    simp [WaitRecord.ending, hstate, hnone]

theorem SettlesOne.key_eq {settled : WaitRecord} (h : SettlesOne start stop db db' current settled now) :
    settled.key = current.key := by
  rw [h.same]
  rfl

theorem SettlesOne.insert_wakeup {settled : WaitRecord} (hdb : Wakeups db)
    (h : SettlesOne start stop db db' current settled now) :
    db.wakeups.insert settled.ending = .ok db'.wakeups := by
  obtain ⟨inserted, hinsert⟩ := h.wakeup
  have hfree : db.wakeups.get settled.ending.key = none := by
    cases hget : db.wakeups.get settled.ending.key with
    | none => rfl
    | some u =>
      -- A wakeup under this key would be that of a settled wait, but the wait is still open.
      obtain ⟨w, hw, hsettled, rfl⟩ := hdb.of_wakeup u (Table.mem_of_get hget)
      have hkey : w.key = settled.key := Table.key_of_get hget
      have heq : w = current := Table.eq_of_key_eq hw h.found (hkey.trans h.key_eq)
      rw [heq, h.unsettled] at hsettled
      cases hsettled
  obtain ⟨wakeups, hnew⟩ := Table.insert_total h.ended.settled.2.2 hfree fun _ => ⟨rfl, rfl⟩
  rw [Table.insertOrIgnore_of_insert hnew] at hinsert
  cases hinsert
  exact hnew

theorem SettlesOne.keeps_wakeups {settled : WaitRecord} (hdb : Wakeups db)
    (h : SettlesOne start stop db db' current settled now) : Wakeups db' := by
  have hinsert := h.insert_wakeup hdb
  obtain ⟨hsettled, houtcome, -⟩ := h.ended.settled
  refine ⟨fun u hu => ?_, fun w hw hw' => ?_⟩
  · rcases (Table.mem_insert hinsert).mp hu with hu | rfl
    · obtain ⟨w, hw, hw', rfl⟩ := hdb.of_wakeup u hu
      refine ⟨w, (h.others w (fun hkey => ?_) hw').mpr hw, hw', rfl⟩
      rw [Table.eq_of_key_eq hw h.found hkey, h.unsettled] at hw'
      cases hw'
    · exact ⟨settled, h.here, hsettled, rfl⟩
  · by_cases hkey : w.key = current.key
    · have heq : w = settled := Table.eq_of_key_eq hw h.here (hkey.trans h.key_eq.symm)
      rw [heq]
      exact ⟨(Table.mem_insert hinsert).mpr (.inr rfl), houtcome⟩
    · obtain ⟨hmem, hstate⟩ := hdb.of_wait w ((h.others w hkey hw').mp hw) hw'
      exact ⟨(Table.mem_insert hinsert).mpr (.inl hmem), hstate⟩

theorem History.wakeups [Hashing] (hr : History h t₀ db t) : Wakeups db := by
  refine hr.invariant (fun db _ => Wakeups db) (fun _ hdb => hdb) ?_ ?_
  · intro db clk c db' o hdb hexec
    rcases (exec_effect hexec).settlement with hopen | ⟨current, settled, now, hsettle⟩
    · exact hopen.keeps_wakeups hdb
    · exact hsettle.keeps_wakeups hdb
  · exact ⟨fun u hu => (by cases hu), fun w hw => (by cases hw)⟩

/-! ## Histories -/

theorem Effect.keeps_settled (h : Effect start stop db c db') (hw : w ∈ db.waits.rows)
    (hsettled : w.state.settled = true) : w ∈ db'.waits.rows := by
  rcases h.settlement with hopen | ⟨current, settled, now, hsettle⟩
  · exact (hopen.settled w hsettled).mpr hw
  · refine (hsettle.others w (fun hkey => ?_) hsettled).mpr hw
    rw [Table.eq_of_key_eq hw hsettle.found hkey, hsettle.unsettled] at hsettled
    cases hsettled

theorem Runs.keeps_settled [Hashing] {t' : Time} (hr : Runs exec db t h db' t')
    (hw : w ∈ db.waits.rows) (hsettled : w.state.settled = true) : w ∈ db'.waits.rows := by
  refine hr.invariant (fun db _ => w ∈ db.waits.rows) (fun _ hw => hw) ?_ hw
  intro db clk c db' o hw hexec
  exact (exec_effect hexec).keeps_settled hw hsettled

theorem History.settlement [Hashing] {τ : CallTransaction}
    (hr : History h t₀ db t) (hτ : τ ∈ h) : LeavesOpen τ.before τ.after ∨ ∃ current settled now,
        SettlesOne (τ.clock.read 0) τ.clock.stop τ.before τ.after current settled now := by
  obtain ⟨-, -, -, -, houtcome⟩ := hr.before hτ
  unfold Transaction.after
  rw [houtcome]
  cases hexec : exec τ.before τ.clock τ.call with
  | error e => exact .inl (.of_eq rfl rfl)
  | ok result => exact (exec_effect hexec).settlement

/-- **A wait is settled exactly once.** In every history a transaction that changes an active wait settles it for good, there
is one wakeup for a settled wait, and it names the same winner: the first signal in the window of the wait, or the
deadline if there is none. -/
theorem wait_settled_once [Hashing] {h : List (Transaction Database Time Call Output Failure)}
    {t₀ t : Time} {db : Database} (hr : History h t₀ db t) :
    (∀ τ ∈ h, ∀ w ∈ τ.before.waits.rows, w.state = .active → w ∈ τ.after.waits.rows ∨
      ∃ w' ∈ τ.after.waits.rows, w'.key = w.key ∧ w'.state.settled = true) ∧
    (∀ w ∈ db.waits.rows, w.state.settled = true → ∀ h' db' t', Runs exec db t h' db' t' → w ∈ db'.waits.rows) ∧
    (∀ u ∈ db.wakeups.rows, ∀ u' ∈ db.wakeups.rows, u.key = u'.key → u = u') ∧
    (∀ u ∈ db.wakeups.rows, ∃ w ∈ db.waits.rows, w.key = u.key ∧ u.winner_event_id = w.resolved_by_event_id ∧
      (u.outcome = .reply ∧ w.state = .satisfied ∨ u.outcome = .timeout ∧ w.state = .timedOut)) ∧
    (∀ w ∈ db.waits.rows, w.state.settled = true → ∃ u ∈ db.wakeups.rows, u.key = w.key) ∧
    ∀ τ ∈ h, ∀ w ∈ τ.after.waits.rows, w.state.settled = true → w ∉ τ.before.waits.rows →
      ∃ current ∈ τ.before.waits.rows, current.state.settled = false ∧
        w = { current with state := w.state, resolved_by_event_id := w.resolved_by_event_id } ∧
        (∃ now, τ.clock.read 0 ≤ now ∧ now ≤ τ.clock.stop ∧ EndedAt τ.after.inbox.rows w now) ∧
        ∃ r r', τ.before.run w.toRunScope = some r ∧
          r.waitsFor w.wait_id w.generation.val = true ∧
          τ.after.run w.toRunScope = some r' ∧ r'.state = .ready := by
  have hwakeups := hr.wakeups
  refine ⟨fun τ hτ w hw hactive => ?_, fun w hw hsettled h' db' t' hr' =>
    Runs.keeps_settled hr' hw hsettled, fun u hu u' hu' hkey => Table.eq_of_key_eq hu hu' hkey,
    fun u hu => ?_, fun w hw hsettled => ⟨w.ending, (hwakeups.of_wait w hw hsettled).1, rfl⟩,
    fun τ hτ w hw hsettled hnew => ?_⟩
  · rcases hr.settlement hτ with hopen | ⟨current, settled, now, hsettle⟩
    · exact .inl (hopen.active w hw hactive)
    · by_cases hkey : w.key = current.key
      · exact .inr ⟨settled, hsettle.here, hsettle.key_eq.trans hkey.symm, hsettle.ended.settled.1⟩
      · exact .inl (hsettle.active w hw hkey hactive)
  · obtain ⟨w, hw, hsettled, rfl⟩ := hwakeups.of_wakeup u hu
    refine ⟨w, hw, rfl, rfl, ?_⟩
    rcases (hwakeups.of_wait w hw hsettled).2 with hstate | hstate
    · exact .inl ⟨by simp [WaitRecord.ending, hstate], hstate⟩
    · exact .inr ⟨by simp [WaitRecord.ending, hstate], hstate⟩
  · rcases hr.settlement hτ with hopen | ⟨current, settled, now, hsettle⟩
    · exact absurd ((hopen.settled w hsettled).mp hw) hnew
    · by_cases hkey : w.key = current.key
      · have heq : w = settled :=
          Table.eq_of_key_eq hw hsettle.here (hkey.trans hsettle.key_eq.symm)
        subst heq
        obtain ⟨r, hrun, hwaits, hwoken⟩ := hsettle.woken
        have hsame := hsettle.same
        refine ⟨current, hsettle.found, hsettle.unsettled, hsame,
          ⟨now, hsettle.during.1, hsettle.during.2, hsettle.ended⟩, r, r.woken, ?_⟩
        rw [hsame]
        exact ⟨hrun, hwaits, hwoken, rfl⟩
      · exact absurd ((hsettle.others w hkey hsettled).mp hw) hnew

/-- A wait of the Run of the small history for an input. -/
def sampleWait : WaitRecord where
  toRunScope := sampleScope
  wait_id := ⟨"wait-1", Eq.refl true⟩
  generation := .one
  kind := .input
  correlation_key := ⟨"question-1", Eq.refl true⟩
  condition_version := ⟨"v1", Eq.refl true⟩
  created_at := 3
  deadline := 100
  state := .pending
  resolved_by_event_id := none

def sampleSignal : InboxSignal where
  toRunScope := sampleScope
  event_id := ⟨"event-1", Eq.refl true⟩
  source_id := ⟨"buyer", Eq.refl true⟩
  source_event_id := ⟨"message-1", Eq.refl true⟩
  wait_id := sampleWait.wait_id
  generation := sampleWait.generation
  kind := .input
  correlation_key := sampleWait.correlation_key
  condition_version := sampleWait.condition_version
  received_at := 6
  payload := ⟨sampleScope.toCaseScope, ⟨"artifact-1", Eq.refl true⟩, sampleDigest⟩
  payload_scope := rfl

/-- The worker parks the Run on a wait, which becomes active. -/
def waitingCalls : List (Time × Call) :=
  sampleCalls ++
    [(3, .register sampleWait sampleClaim), (4, .transition sampleClaim .waitingInput
        ⟨none, none, some sampleWait.wait_id, some 1, none⟩),
      (5, .activate sampleWait none)]

/-- The wait of the small history is settled by the input, once. -/
theorem wait_settled_once_reply :
    sampleWait.settledBy (some sampleSignal) ∈ (replay (@exec sampleHashing) Database.empty
      (waitingCalls ++ [(6, .receiveAndResolve sampleSignal none)])).waits.rows ∧
    ∀ h' db' t', Runs (@exec sampleHashing) (replay (@exec sampleHashing) Database.empty
      (waitingCalls ++ [(6, .receiveAndResolve sampleSignal none)])) 6 h' db' t' →
      sampleWait.settledBy (some sampleSignal) ∈ db'.waits.rows := by
  have hr : @History sampleHashing _ 0 _ 6 := replay_runs (@exec sampleHashing)
    (waitingCalls ++ [(6, .receiveAndResolve sampleSignal none)]) Database.empty 0 (by decide)
  have hw : sampleWait.settledBy (some sampleSignal) ∈ (replay (@exec sampleHashing) Database.empty
      (waitingCalls ++ [(6, .receiveAndResolve sampleSignal none)])).waits.rows := by decide
  exact ⟨hw, (@wait_settled_once sampleHashing _ _ _ _ hr).2.1 _ hw rfl⟩

end Aftercare
