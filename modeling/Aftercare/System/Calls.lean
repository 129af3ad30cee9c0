import Aftercare.Persistence.Actions
import Aftercare.Persistence.Admission
import Aftercare.Persistence.Reviews

/-!
# Calls of the repositories

A `Call` is one call of a repository method, `exec` executes it as one transaction, and a history of the program is
a `Runs` of `exec` from `Database.empty`. `exec_effect` says what a successful call does; every invariant is a case
analysis over it.
-/

namespace Aftercare

open Relational

inductive Call
  | createCase (case : CaseRecord)
  | updateVersion (scope : CaseScope) (expected_version : ℕ) (status : Option CaseStatus)
  | openCase (key : AdmissionKey) (body : OpenCaseInput) (case : CaseRecord)
      (session : SessionRecord) (run : RunRecord)
  | createRun (run : RunRecord)
  | claim (tenant run_id owner : Identifier) (lease : ℤ)
  | claimNext (readings : RunKey → ℕ → Time) (locked : RunKey → Bool) (tenant : Option Identifier)
      (owner : Identifier) (lease : ℤ)
  | renew (claim : ExecutionClaim) (lease : ℤ)
  | transition (claim : ExecutionClaim) (target : RunState) (args : TransitionArgs)
  | createStep (step : StepRecord)
  | createAttempt (attempt : AttemptRecord)
  | setStatus (attempt : AttemptRecord) (status : AttemptStatus) (claim : ExecutionClaim)
  | saveCheckpoint (checkpoint : Checkpoint) (claim : ExecutionClaim)
  | register (wait : WaitRecord) (claim : ExecutionClaim)
  | activate (wait : WaitRecord) (event : Option DomainEvent)
  | receiveAndResolve (signal : InboxSignal) (event : Option DomainEvent)
  | resolveTimeout (wait : WaitRecord) (event : Option DomainEvent)
  | reserve (intent : ActionIntent) (claim : Option ExecutionClaim)
  | markRequested (action_id : Identifier) (claim : ExecutionClaim)
      (approval_id policy_version : Option Identifier)
  | markResult (action_id : Identifier) (claim : ExecutionClaim) (state : ActionState)
      (outcome : ActionOutcome)
  | markReceipt (receipt : ProviderReceipt) (claim : ExecutionClaim)
  | requestApproval (now : Time) (request : ApprovalRequest)
  | decideApproval (now : Time) (tenant_id approval_id approver : Identifier)
      (verdict : ApprovalVerdict) (key : Identifier) (reason : Option String)
  | expireApproval (now : Time) (tenant_id approval_id : Identifier)
  | requestReview (now : Time) (request : ReviewRequest)
  | decideReview (now : Time) (tenant_id review_id reviewer : Identifier)
      (decision : ReviewDecision) (key : Identifier) (reason : Option String)
      (override : Option ReviewOverrideRequest)
  | migrate (now : Time) (request : StrategyMigrationRequest) (migrated_by : Identifier)
  | receiveInbox (signal : InboxSignal)
  | appendEvent (draft : DomainEventDraft) (snapshot : Option Snapshot)
  | appendOutbox (event : DomainEvent)
  | configureLimit (scope : LimitScope) (max_active_slots : ℤ)
  | acquireSlot (claim : ExecutionClaim) (lease : ℤ)
  | renewSlot (claim : ExecutionClaim) (lease : ℤ)
  | releaseSlot (claim : ExecutionClaim)

inductive Output
  | done
  | version (version : ℕ)
  | admitted (result : AdmissionResult)
  | claimed (claim : Option ExecutionClaim)
  | run (run : RunRecord)
  | attempt (attempt : AttemptRecord)
  | wait (wait : Option WaitRecord)
  | action (action : ActionRecord) (replayed : Bool)
  | approval (approval : ApprovalRecord) (replayed : Bool)
  | review (review : ReviewRecord) (replayed : Bool)
  | migration (migration : StrategyMigrationRecord) (replayed : Bool)
  | event (event : DomainEvent) (replayed : Bool)
  | flag (flag : Bool)
  | slot (slot : Option SlotRow)
  | lease (until_ : Time)

def exec [Hashing] : Engine Database Time Call Output Failure := fun db clk c =>
  match c with
  | .createCase case => return (← createCase db case, .done)
  | .updateVersion scope expected_version status => do
    let (db, version) ← updateVersion db scope expected_version status
    return (db, .version version)
  | .openCase key body case session run => do
    let (db, result) ← openCase db clk key body case session run
    return (db, .admitted result)
  | .createRun run => return (← createRun db clk run, .done)
  | .claim tenant run_id owner lease => do
    let (db, claim) ← claim db clk tenant run_id owner lease
    return (db, .claimed (some claim))
  | .claimNext readings locked tenant owner lease => do
    let (db, claim) ← claimNext db clk readings locked tenant owner lease
    return (db, .claimed claim)
  | .renew claim lease => return (← renew db clk claim lease, .done)
  | .transition claim target args => do
    let (db, run) ← transition db clk claim target args
    return (db, .run run)
  | .createStep step => return (← createStep db step, .done)
  | .createAttempt attempt => return (← createAttempt db attempt, .done)
  | .setStatus attempt status claim => do
    let (db, attempt) ← setStatus db clk attempt status claim
    return (db, .attempt attempt)
  | .saveCheckpoint checkpoint claim => return (← saveCheckpoint db clk checkpoint claim, .done)
  | .register wait claim => do
    let (db, inserted) ← register db clk wait claim
    return (db, .flag inserted)
  | .activate wait event => do
    let (db, wait) ← activate db clk wait event
    return (db, .wait (some wait))
  | .receiveAndResolve signal event => do
    let (db, wait) ← receiveAndResolve db clk signal event
    return (db, .wait wait)
  | .resolveTimeout wait event => do
    let (db, wait) ← resolveTimeout db clk wait event
    return (db, .wait (some wait))
  | .reserve intent claim => do
    let (db, action, replayed) ← reserve db clk intent claim
    return (db, .action action replayed)
  | .markRequested action_id claim approval_id policy_version => do
    let (db, action) ← markRequested db clk action_id claim approval_id policy_version
    return (db, .action action false)
  | .markResult action_id claim state outcome => do
    let (db, action) ← markResult db clk action_id claim state outcome
    return (db, .action action false)
  | .markReceipt receipt claim => do
    let (db, action) ← markReceipt db clk receipt claim
    return (db, .action action false)
  | .requestApproval now request => do
    let (db, approval, replayed) ← requestApproval db clk now request
    return (db, .approval approval replayed)
  | .decideApproval now tenant_id approval_id approver verdict key reason => do
    let (db, approval) ←
      decideApproval db clk now tenant_id approval_id approver verdict key reason
    return (db, .approval approval false)
  | .expireApproval now tenant_id approval_id => do
    let (db, approval) ← expireApproval db clk now tenant_id approval_id
    return (db, .approval approval false)
  | .requestReview now request => do
    let (db, review, replayed) ← requestReview db clk now request
    return (db, .review review replayed)
  | .decideReview now tenant_id review_id reviewer decision key reason override => do
    let (db, review) ←
      decideReview db clk now tenant_id review_id reviewer decision key reason override
    return (db, .review review false)
  | .migrate now request migrated_by => do
    let (db, migration, replayed) ← migrate db clk now request migrated_by
    return (db, .migration migration replayed)
  | .receiveInbox signal => do
    let (db, inserted) ← receiveInbox db signal
    return (db, .flag inserted)
  | .appendEvent draft snapshot => do
    let (events, event, replayed) ← appendEvent db.events clk draft snapshot
    return ({ db with events := events }, .event event replayed)
  | .appendOutbox event => do
    let (events, appended) ← appendOutbox db.events clk event
    return ({ db with events := events }, .flag appended)
  | .configureLimit scope max_active_slots =>
    return (← configureLimit db scope max_active_slots, .done)
  | .acquireSlot claim lease => do
    let (db, slot) ← acquireSlot db clk claim lease
    return (db, .slot slot)
  | .renewSlot claim lease => do
    let (db, until_) ← renewSlot db clk claim lease
    return (db, .lease until_)
  | .releaseSlot claim => return (releaseSlot db claim, .done)

abbrev CallTransaction := Transaction Database Time Call Output Failure

/-- The histories of the program: they start with the tables empty. -/
abbrev History [Hashing] (h : List (Transaction Database Time Call Output Failure)) (t₀ : Time)
    (db : Database) (t : Time) : Prop := Runs exec Database.empty t₀ h db t

/-! ## A small history

The fixed histories of this development are of one case with one Run. No property depends on what
the digests are, so they use one digest for everything. -/

def sampleDigest : Sha256 :=
  ⟨"0000000000000000000000000000000000000000000000000000000000000000", Eq.refl true⟩

@[reducible]
def sampleHashing : Hashing where
  snapshotSha256 _ := sampleDigest
  decisionPayloadSha256 _ _ _ _ := sampleDigest
  admissionDigest _ _ := sampleDigest
  sha256 _ := sampleDigest

def sampleScope : RunScope where
  tenant_id := ⟨"tenant-1", Eq.refl true⟩
  case_id := ⟨"case-1", Eq.refl true⟩
  run_id := ⟨"run-1", Eq.refl true⟩

def sampleOwner : Identifier := ⟨"worker-1", Eq.refl true⟩

def sampleCase : CaseRecord :=
  { sampleScope.toCaseScope with order_id := ⟨"order-1", Eq.refl true⟩, version := 1, status := .open }

/-- The Run of the fixed histories, as it is created. -/
def sampleRun : RunRecord where
  toRunScope := sampleScope
  session_id := none
  predecessor_run_id := none
  definition_version := ⟨"v1", Eq.refl true⟩
  input_version := .one
  state := .ready
  fencing_token := 0
  lease_owner := none
  lease_until := none
  wait_id := none
  wait_generation := none
  available_at := none
  coherent := by decide

/-- The Run is created, and claimed for an hour. -/
def sampleCalls : List (Time × Call) :=
  [(0, .createCase sampleCase), (1, .createRun sampleRun),
    (2, .claim sampleScope.tenant_id sampleScope.run_id sampleOwner 3600000000)]

def sampleDatabase : Database := replay (@exec sampleHashing) Database.empty sampleCalls

def sampleHistory : List CallTransaction :=
  trace (@exec sampleHashing) Database.empty sampleCalls

theorem sample_history : @History sampleHashing sampleHistory 0 sampleDatabase 2 :=
  replay_runs (@exec sampleHashing) sampleCalls Database.empty 0 (by decide)

def sampleClaim : ExecutionClaim := ⟨sampleScope, sampleOwner, .one⟩

/-! ## What a call does -/

def Call.gate : Call → Gate
  | .requestApproval .. => .requestApproval
  | .decideApproval .. => .decideApproval
  | .expireApproval .. => .expireApproval
  | .requestReview .. | .decideReview .. | .migrate .. => .review
  | _ => .closed

inductive Effect (start stop : Time) (db : Database) : Call → Database → Prop
  /-- The call wrote, and it may have settled a wait. -/
  | resolves {db' : Database} (c : Call) (h : Resolves c.gate start stop db db') :
      Effect start stop db c db'
  /-- The call was one of the ledger's. -/
  | acts {db' : Database} (c : Call) (h : Acts start stop db db') : Effect start stop db c db'
  /-- The call was a transition. -/
  | transitions {db' : Database} (claim : ExecutionClaim) (target : RunState)
      (args : TransitionArgs) (h : Transitions start stop claim target args db db') :
      Effect start stop db (.transition claim target args) db'
  /-- The call saved a checkpoint. -/
  | saves {db' : Database} (checkpoint : Checkpoint) (claim : ExecutionClaim)
      (h : Saves checkpoint db db') : Effect start stop db (.saveCheckpoint checkpoint claim) db'

theorem Effect.writes {start stop : Time} {db db' : Database} (c : Call)
    (h : Writes c.gate start stop db db') : Effect start stop db c db' := .resolves c (.writes h)

/-- The rule for a property of the state after a call: the writes give it, and neither the Runs, the waits,
the wakeups and the events nor a step of the ledger and a saved checkpoint take it away. -/
@[elab_as_elim]
theorem Effect.rule {start stop : Time} {db db' : Database} {c : Call} {P : Database → Prop}
    (h : Effect start stop db c db') (hwrites : ∀ {mid}, Writes c.gate start stop db mid → P mid)
    (hrest : ∀ {mid : Database} {runs waits wakeups events}, P mid →
      P { mid with runs := runs, waits := waits, wakeups := wakeups, events := events })
    (hacts : ∀ {t actions}, start ≤ t ∧ t ≤ stop → ActionStep t db actions → P { db with actions := actions })
    (hsaves : ∀ {saved claim checkpoints}, c = .saveCheckpoint saved claim →
      db.checkpoints.insert saved = .ok checkpoints → P { db with checkpoints := checkpoints }) :
    P db' := by
  cases h with
  | resolves c h =>
    cases h with
    | writes h => exact hwrites h
    | @settle mid _ _ _ _ _ hprepare hruns hget hopen hwait hsettle hevents =>
      obtain ⟨events, -, rfl⟩ := hevents
      cases hsettle
      exact @hrest mid _ _ _ _ (hwrites hprepare)
  | acts c h =>
    rcases h with rfl | ⟨t, actions, ht, hstep, rfl⟩
    · exact hwrites .refl
    · exact hacts ht hstep
  | transitions claim target args h =>
    cases h
    exact @hrest db _ _ _ _ (hwrites .refl)
  | saves saved claim h =>
    obtain ⟨checkpoints, hinsert, rfl⟩ := h
    exact hsaves rfl hinsert

/-- **What a successful call does.** -/
theorem exec_effect [Hashing] {db db' : Database} {clk : Clock Time} {c : Call} {o : Output}
    (h : exec db clk c = .ok (db', o)) : Effect (clk.read 0) clk.stop db c db' := by
  cases c <;> simp only [exec, ok_iff, Prod.exists] at h
  case createCase =>
    obtain ⟨_, h, rfl, -⟩ := h
    exact .writes _ (createCase_writes h)
  case updateVersion =>
    obtain ⟨_, _, h, rfl, -⟩ := h
    exact .writes _ (updateVersion_writes h)
  case openCase =>
    obtain ⟨_, _, h, rfl, -⟩ := h
    exact .writes _ (openCase_writes h)
  case createRun =>
    obtain ⟨_, h, rfl, -⟩ := h
    exact .writes _ (createRun_writes (.refl clk) h)
  case claim =>
    obtain ⟨_, _, h, rfl, -⟩ := h
    exact .writes _ (claim_writes h).1
  case claimNext =>
    obtain ⟨_, _, h, rfl, -⟩ := h
    exact .writes _ (claimNext_writes h).1
  case renew =>
    obtain ⟨_, h, rfl, -⟩ := h
    exact .writes _ (renew_writes h)
  case transition =>
    obtain ⟨_, _, h, rfl, -⟩ := h
    exact .transitions _ _ _ (transition_transitions h)
  case createStep =>
    obtain ⟨_, h, rfl, -⟩ := h
    exact .writes _ (createStep_writes h)
  case createAttempt =>
    obtain ⟨_, h, rfl, -⟩ := h
    exact .writes _ (createAttempt_writes h)
  case setStatus =>
    obtain ⟨_, _, h, rfl, -⟩ := h
    exact .writes _ (setStatus_writes h)
  case saveCheckpoint =>
    obtain ⟨_, h, rfl, -⟩ := h
    exact .saves _ _ (saveCheckpoint_saves h)
  case register =>
    obtain ⟨_, _, h, rfl, -⟩ := h
    exact .writes _ (register_writes h)
  case activate =>
    obtain ⟨_, _, h, rfl, -⟩ := h
    exact .resolves _ (activate_resolves h)
  case receiveAndResolve =>
    obtain ⟨_, _, h, rfl, -⟩ := h
    exact .resolves _ (receiveAndResolve_resolves h)
  case resolveTimeout =>
    obtain ⟨_, _, h, rfl, -⟩ := h
    exact .resolves _ (resolveTimeout_resolves h)
  case reserve =>
    obtain ⟨_, _, _, h, rfl, -⟩ := h
    exact .acts _ (reserve_acts h)
  case markRequested =>
    obtain ⟨_, _, h, rfl, -⟩ := h
    exact .acts _ (markRequested_acts h)
  case markResult =>
    obtain ⟨_, _, h, rfl, -⟩ := h
    exact .acts _ (markResult_acts (.refl clk) h)
  case markReceipt =>
    obtain ⟨_, _, h, rfl, -⟩ := h
    exact .acts _ (markReceipt_acts h)
  case requestApproval =>
    obtain ⟨_, _, _, h, rfl, -⟩ := h
    exact .writes _ (requestApproval_writes h)
  case decideApproval =>
    obtain ⟨_, _, h, rfl, -⟩ := h
    exact .resolves _ (decideApproval_resolves h)
  case expireApproval =>
    obtain ⟨_, _, h, rfl, -⟩ := h
    exact .writes _ (expireApproval_writes h)
  case requestReview =>
    obtain ⟨_, _, _, h, rfl, -⟩ := h
    exact .writes _ (requestReview_writes h)
  case decideReview =>
    obtain ⟨_, _, h, rfl, -⟩ := h
    exact .writes _ (decideReview_writes h)
  case migrate =>
    obtain ⟨_, _, _, h, rfl, -⟩ := h
    exact .writes _ (migrate_writes h)
  case receiveInbox =>
    obtain ⟨_, _, h, rfl, -⟩ := h
    exact .writes _ (receiveInbox_writes h).1
  case appendEvent =>
    obtain ⟨_, _, _, h, rfl, -⟩ := h
    exact .writes _ (.single (.append (appendEvent_appends h)))
  case appendOutbox =>
    obtain ⟨_, _, h, rfl, -⟩ := h
    exact .writes _ (.single (.append (appendOutbox_appends h)))
  case configureLimit =>
    obtain ⟨_, h, rfl, -⟩ := h
    exact .writes _ (configureLimit_writes h)
  case acquireSlot =>
    obtain ⟨_, _, h, rfl, -⟩ := h
    exact .writes _ (acquireSlot_writes h)
  case renewSlot =>
    obtain ⟨_, _, h, rfl, -⟩ := h
    exact .writes _ (renewSlot_writes h)
  case releaseSlot =>
    obtain ⟨rfl, -⟩ := h
    exact .writes _ (releaseSlot_writes db _)

end Aftercare
