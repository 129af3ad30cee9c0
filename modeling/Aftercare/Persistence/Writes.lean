import Mathlib.Logic.Relation
import Aftercare.Persistence.Events

/-!
# What the repositories write

`Write gate start stop db db'` lists what one statement can do in a transaction from `start` to `stop`, up to four
kinds of which a transaction makes exactly one. Only the methods of a `Gate` write the tables of its decisions. A
property that each write keeps is kept by every call.
-/

namespace Aftercare

open Relational

variable {t stop start' : Time} {clk : Clock Time} {db db' : Database} {r row : RunRow}
  {owner : Identifier} {tenant : Option Identifier} {lease : ℤ} {readings : RunKey → ℕ → Time}
  {locked : RunKey → Bool}

/-- The clock of a part of a transaction. -/
structure Within (start stop : Time) (clk : Clock Time) : Prop where
  start_le : start ≤ clk.read 0
  stop_eq : clk.stop = stop

theorem Within.refl (clk : Clock Time) : Within (clk.read 0) clk.stop clk := ⟨le_rfl, rfl⟩

variable {start : Time}

theorem Within.drop (h : Within start stop clk) (n : ℕ) :
    Within start stop (clk.drop n) := ⟨h.start_le.trans (clk.start_le _), h.stop_eq⟩

theorem Within.earlier (h : Within start stop clk) (hle : start' ≤ start) :
    Within start' stop clk := ⟨hle.trans h.start_le, h.stop_eq⟩

/-- What a statement on one Run changes, apart from transitions and settlements. -/
inductive RunMove (t : Time) (r : RunRow) : RunRow → Prop
  /-- A claim takes the Run under the next token. -/
  | claim (owner : Identifier) (leaseUntil : Time) (h : r.claimable t = true) :
      RunMove t r (r.claimed owner leaseUntil (r.fencing_token + 1))
  /-- The scan makes a Run ready whose time to retry has come. -/
  | wake (hstate : r.state = .retryAt) (hdue : r.available_at.any (· ≤ t) = true) :
      RunMove t r { r with state := .ready, available_at := none }
  /-- A review decision continues or cancels the Run. -/
  | review (target : RunState) (hstate : r.state = .review)
      (htarget : target = .ready ∨ target = .cancelled) :
      RunMove t r (r.moved target none none none)

/-- The gate whose decisions a transaction may write. -/
inductive Gate
  | closed
  | requestApproval
  | decideApproval
  | expireApproval
  | review
deriving DecidableEq, Repr

inductive Write (gate : Gate) (start stop : Time) (db : Database) : Database → Prop
  /-- Cases are created and updated, never removed. -/
  | cases (cases : Table caseSchema)
      (kept : ∀ k, (db.cases.get k).isSome → (cases.get k).isSome) :
      Write gate start stop db { db with cases := cases }
  /-- A Run of an existing case is created. -/
  | createRun {runs : RunStore} {clk : Clock Time} (run : RunRecord) (hclk : Within start stop clk)
      (hcase : (db.cases.get run.toCaseScope).isSome)
      (h : db.runs.insert run.initialRow clk = .ok runs) :
      Write gate start stop db { db with runs := runs }
  /-- A Run moves. -/
  | moveRun {runs : RunStore} {clk : Clock Time} {t : Time} {k : RunKey} {f : RunRow → RunRow}
      {r : RunRow} (hclk : Within start stop clk) (ht : start ≤ t ∧ t ≤ stop)
      (hr : db.runs.runs.get k = some r) (hmove : RunMove t r (f r))
      (h : db.runs.update k f clk = .ok runs) : Write gate start stop db { db with runs := runs }
  /-- The holder of a lease extends it. -/
  | renew {runs : RunStore} {t leaseUntil : Time} {r : RunRow} (claim : ExecutionClaim)
      (ht : start ≤ t ∧ t ≤ stop) (hr : db.run claim.toRunScope = some r)
      (hvalid : claim.validOn r t = true) (h : db.runs.extend claim.key leaseUntil = .ok runs) :
      Write gate start stop db { db with runs := runs }
  /-- A pending wait is registered. -/
  | registerWait {waits : Table waitSchema} (wait : WaitRecord) (hstate : wait.state = .pending)
      (h : db.waits.insert wait = .ok waits) : Write gate start stop db { db with waits := waits }
  /-- A pending wait becomes active while its Run waits for it. -/
  | activateWait {waits : Table waitSchema} {r : RunRow} (wait : WaitRecord)
      (hget : db.waits.get wait.key = some wait) (hstate : wait.state = .pending)
      (hr : db.run wait.toRunScope = some r) (hwaiting : r.state.waiting = true)
      (hbound : r.wait_id = some wait.wait_id ∧ r.wait_generation = some wait.generation.val)
      (h : db.waits.update wait.key (fun w => { w with state := .active }) = .ok waits) :
      Write gate start stop db { db with waits := waits }
  /-- A signal is received. -/
  | receive {inbox : Table inboxSchema} (signal : InboxSignal)
      (h : db.inbox.insert signal = .ok inbox) : Write gate start stop db { db with inbox := inbox }
  /-- An approval of an existing action is requested. -/
  | requestApproval {approvals : Table approvalSchema} (hgate : gate = .requestApproval)
      (a : ApprovalRecord) (hpending : a.decision = .pending)
      (hcase : (db.cases.get a.toCaseScope).isSome)
      (haction : (db.actions.get (a.tenant_id, a.action_id)).isSome)
      (h : db.approvals.insert a = .ok approvals) :
      Write gate start stop db { db with approvals := approvals }
  /-- A pending approval is decided or expires; its requester does not approve it. -/
  | decideApproval {approvals : Table approvalSchema} {k : Identifier × Identifier}
      {f : ApprovalRecord → ApprovalRecord} {a : ApprovalRecord}
      (hgate : gate = .decideApproval ∨ gate = .expireApproval ∧ (f a).decision = .expired)
      (hget : db.approvals.get k = some a) (hpending : a.decision = .pending)
      (hrequest : (f a).toApprovalRequest = a.toApprovalRequest)
      (happroved : (f a).decision = .approved →
        ∃ approver, (f a).approver = some approver ∧ approver ≠ a.requested_by)
      (h : db.approvals.update k f = .ok approvals) :
      Write gate start stop db { db with approvals := approvals }
  /-- Events are appended. -/
  | append {events : EventStore} (h : db.events.Appends events) :
      Write gate start stop db { db with events := events }
  /-- A review or a migration writes a checkpoint that reads back. -/
  | checkpoint {checkpoints : Table checkpointSchema} (hgate : gate = .review)
      (checkpoint : Checkpoint) (hvalid : checkpoint.valid = true)
      (h : db.checkpoints.insert checkpoint = .ok checkpoints) :
      Write gate start stop db { db with checkpoints := checkpoints }
  /-- A review is requested or decided, or a migration is recorded. -/
  | review {reviews : Table reviewSchema} {overrides : Table overrideSchema}
      {migrations : Table migrationSchema} (hgate : gate = .review) :
      Write gate start stop db
        { db with reviews := reviews, overrides := overrides, migrations := migrations }
  /-- The tables that no property here reads are written. -/
  | other (sessions : Table sessionSchema) (admissions : Table admissionSchema)
      (steps : Table stepSchema) (attempts : Table attemptSchema) (limits : Table limitSchema)
      (slots : Table slotSchema) (fairness : Table fairnessSchema) (dispatch_seq : ℕ) :
      Write gate start stop db { db with
        sessions := sessions, admissions := admissions, steps := steps, attempts := attempts
        limits := limits, slots := slots, fairness := fairness, dispatch_seq := dispatch_seq }

variable {gate : Gate}

abbrev Writes (gate : Gate) (start stop : Time) : Database → Database → Prop :=
  Relation.ReflTransGen (Write gate start stop)

theorem Writes.invariant {stop : Time} {P : Database → Prop}
    (step : ∀ {db db'}, P db → Write gate start stop db db' → P db') {db db' : Database}
    (hw : Writes gate start stop db db') (hP : P db) : P db' := by
  induction hw with
  | refl => exact hP
  | tail _ hlast ih => exact step ih hlast

/-! ## The Run repository -/

/-- The Run's token went up by one, and the claim carries it. -/
def Issues (db db' : Database) (claim : ExecutionClaim) : Prop :=
  ∃ r r', db.run claim.toRunScope = some r ∧ db'.run claim.toRunScope = some r' ∧
    r'.fencing_token = r.fencing_token + 1 ∧ claim.fencing_token.val = r'.fencing_token

theorem Database.run_of_get {k : RunKey} (h : db.runs.runs.get k = some r) : db.run r.toRunScope = some r := by
  have hkey : r.key = k := Table.key_of_get h
  exact Database.run_eq_some.mpr ⟨by rw [hkey]; exact h, rfl⟩

theorem createCase_writes {case : CaseRecord} (h : createCase db case = .ok db') : Writes gate start stop db db' := by
  simp only [createCase, statement_eq_ok, ok_iff] at h
  obtain ⟨cases, hinsert, rfl⟩ := h
  refine .single (.cases cases fun k hk => ?_)
  rw [Table.get_insert hinsert]
  split_ifs
  · rfl
  · exact hk

theorem updateVersion_writes {scope : CaseScope} {expected_version version : ℕ} {status : Option CaseStatus}
    (h : updateVersion db scope expected_version status = .ok (db', version)) :
    Writes gate start stop db db' := by
  simp only [updateVersion, ok_iff, statement_eq_ok] at h
  obtain ⟨current, -, cases, hupdate, rfl, -⟩ := h
  refine .single (.cases cases fun k hk => ?_)
  rw [Table.get_update hupdate]
  split_ifs with heq
  · rw [heq] at hk
    simpa using hk
  · exact hk

theorem createRun_writes {run : RunRecord} (hclk : Within start stop clk) (h : createRun db clk run = .ok db') :
    Writes gate start stop db db' := by
  simp only [createRun, foreignKey, ok_iff] at h
  obtain ⟨hcase, runs, hinsert, rfl⟩ := h
  exact .single (.createRun run hclk hcase hinsert)

theorem executionClaim_eq_ok {claim : ExecutionClaim} :
    r.executionClaim owner = .ok claim ↔ claim.toRunScope = r.toRunScope ∧ claim.owner = owner ∧
      claim.fencing_token.val = r.fencing_token := by
  simp only [RunRow.executionClaim, ok_iff, positiveInt_eq_ok]
  constructor
  · rintro ⟨token, htoken, rfl⟩
    exact ⟨rfl, rfl, htoken⟩
  · rintro ⟨hscope, howner, htoken⟩
    exact ⟨claim.fencing_token, htoken, by rw [← hscope, ← howner]⟩

theorem claim_writes {tenant run_id : Identifier} {issued : ExecutionClaim}
    (h : claim db clk tenant run_id owner lease = .ok (db', issued)) :
    Writes .closed (clk.read 0) clk.stop db db' ∧ Issues db db' issued := by
  simp only [claim, ok_iff, Option.filter_eq_some_iff] at h
  obtain ⟨row, ⟨hrow, hclaimable⟩, runs, hupdate, updated, hupdated, c, hc, rfl, rfl⟩ := h
  obtain ⟨hscope, -, htoken⟩ := executionClaim_eq_ok.mp hc
  obtain ⟨-, -, hget, -, -⟩ := RunStore.update_spec hrow hupdate
  rw [hget, if_pos rfl, Option.some.injEq] at hupdated
  subst hupdated
  refine ⟨.single (.moveRun ((Within.refl clk).drop 2) ⟨le_rfl, clk.start_le_stop⟩ hrow
    (.claim owner _ hclaimable) hupdate), row, _, ?_, ?_, rfl, htoken⟩
  · rw [hscope]
    exact Database.run_of_get hrow
  · rw [hscope]
    exact Database.run_of_get ((hget (tenant, run_id)).trans (if_pos rfl))

theorem renew_writes {claim : ExecutionClaim} (h : renew db clk claim lease = .ok db') :
    Writes gate (clk.read 0) clk.stop db db' := by
  simp only [renew, ok_iff, requireLease_eq_ok] at h
  obtain ⟨⟨r, hr, hvalid⟩, runs, hextend, rfl⟩ := h
  exact .single (.renew claim ⟨le_rfl, clk.start_le_stop⟩ hr hvalid hextend)

theorem between_mem {lo hi : Time} (t : Time) (h : lo ≤ hi) : lo ≤ between lo hi t ∧ between lo hi t ≤ hi :=
  ⟨le_max_left .., max_le h (min_le_left ..)⟩

theorem nextCandidate_eq_some (h : nextCandidate db tenant readings locked = some row) :
    db.run row.toRunScope = some row ∧ ∃ q, selectable db tenant (readings q.key) q row = true := by
  simp only [nextCandidate, Option.map_eq_some_iff, Prod.exists, exists_eq_right] at h
  obtain ⟨q, hhead⟩ := h
  have hmem : (q, row) ∈ candidates db tenant readings locked := (List.mem_insertionSort _).mp (List.mem_of_head? hhead)
  simp only [candidates, List.mem_filterMap] at hmem
  obtain ⟨q', -, hq⟩ := hmem
  split at hq
  · rename_i r hr
    split_ifs at hq with hselect
    cases hq
    rw [Bool.and_eq_true] at hselect
    exact ⟨by rw [(Database.run_eq_some.mp hr).2]; exact hr, q, hselect.1⟩
  · cases hq

theorem due_of_selectable {t : ℕ → Time} {q : QueueRow} (h : selectable db tenant t q r = true)
    (hr : r.state = .retryAt) : r.available_at.any (· ≤ t 2) = true := by
  simp only [selectable, runnable, hr, Bool.and_eq_true, Bool.or_eq_true] at h
  simpa using h.1.1.2

theorem recordDispatch_writes {tenant : Identifier} (h : recordDispatch db tenant = .ok db') :
    Writes gate start stop db db' ∧ db'.runs = db.runs := by
  unfold recordDispatch at h
  split at h <;>
  · simp only [statement_eq_ok, ok_iff] at h
    obtain ⟨fairness, -, rfl⟩ := h
    exact ⟨.single (.other ..), rfl⟩

theorem wakeRetry_writes {woken : RunStore} (hclk : Within start stop clk) (ht : start ≤ t ∧ t ≤ stop)
    (hrow : db.runs.runs.get row.key = some row)
    (hdue : row.state = .retryAt → row.available_at.any (· ≤ t) = true) (h : wakeRetry db clk row = .ok woken) :
    Writes gate start stop db { db with runs := woken } ∧ ∃ ready, woken.runs.get row.key = some ready ∧
      ready.toRunScope = row.toRunScope ∧ ready.fencing_token = row.fencing_token := by
  unfold wakeRetry at h
  split_ifs at h with hstate
  · obtain ⟨-, -, hget, -, -⟩ := RunStore.update_spec hrow h
    exact ⟨.single (.moveRun hclk ht hrow (.wake hstate (hdue hstate)) h), _,
      (hget row.key).trans (if_pos rfl), rfl, rfl⟩
  · cases h
    exact ⟨.refl, row, hrow, rfl, rfl⟩

theorem claimNext_writes {issued : Option ExecutionClaim}
    (h : claimNext db clk readings locked tenant owner lease = .ok (db', issued)) :
    Writes .closed (clk.read 0) clk.stop db db' ∧ ∀ c ∈ issued, Issues db db' c := by
  unfold claimNext at h
  split at h
  · cases h
    exact ⟨.refl, by simp⟩
  rename_i row hnext
  obtain ⟨hrow, q, hselect⟩ := nextCandidate_eq_some hnext
  have hget := (Database.run_eq_some.mp hrow).1
  have htime := between_mem (readings q.key 2) (clk.start_le 1)
  simp only [ok_iff, Option.filter_eq_some_iff] at h
  obtain ⟨woken, hwake, ready, ⟨hready, hclaimable⟩, runs, hupdate, db'', hdispatch, updated,
    hupdated, c, hc, rfl, rfl⟩ := h
  obtain ⟨hwoken, ready', hready', hscope, htoken⟩ := wakeRetry_writes ((Within.refl clk).drop 2)
    ⟨htime.1, htime.2.trans (clk.le_stop 1)⟩ hget (due_of_selectable hselect) hwake
  cases Option.some.inj (hready.symm.trans hready')
  rw [← htoken] at hupdate
  have hclaimed : Write .closed (clk.read 0) clk.stop { db with runs := woken } { db with runs := runs } :=
    .moveRun ((Within.refl clk).drop 6) ⟨clk.start_le 4, clk.le_stop 4⟩ hready (.claim owner _ hclaimable) hupdate
  obtain ⟨hdispatched, hruns⟩ := recordDispatch_writes hdispatch
  refine ⟨(hwoken.tail hclaimed).trans hdispatched, ?_⟩
  intro c' hc'
  cases hc'
  -- The claim is read from the updated row, which has the scope of the row that was selected.
  obtain ⟨hcscope, -, hctoken⟩ := executionClaim_eq_ok.mp hc
  obtain ⟨-, -, hnew, -, -⟩ := RunStore.update_spec hready hupdate
  rw [hnew, if_pos rfl, Option.some.injEq] at hupdated
  subst hupdated
  have hscope' : c.toRunScope = row.toRunScope := hcscope.trans hscope
  have hafter : db''.run c.toRunScope = some (ready.claimed owner (clk.read 5 + lease) (ready.fencing_token + 1)) := by
    refine Database.run_eq_some.mpr ⟨?_, hcscope.symm⟩
    rw [hruns, hscope']
    exact (hnew row.key).trans (if_pos rfl)
  exact ⟨row, _, by rw [hscope']; exact hrow, hafter, by rw [← htoken]; rfl, hctoken⟩

/-! ## Transitions -/

/-- Only a Run that is running needs the lease of the claim. -/
inductive Transitions (start stop : Time) (claim : ExecutionClaim) (target : RunState)
    (args : TransitionArgs) (db : Database) : Database → Prop
  | mk {runs : RunStore} {r : RunRow} {clk : Clock Time} {t : Time} (hclk : Within start stop clk)
      (ht : start ≤ t ∧ t ≤ stop) (hr : db.run claim.toRunScope = some r)
      (hcoherent : r.coherentState = true) (htarget : target ∈ r.state.transitions)
      (hrunning : target ≠ .running) (hlease : r.state = .running → claim.validOn r t = true)
      (hbinding : requireBinding target args.wait_id args.wait_generation = .ok ())
      (hupdate : db.runs.update claim.key
        (RunRow.moved target args.wait_id args.wait_generation args.available_at) clk = .ok runs) :
      Transitions start stop claim target args db { db with runs := runs }

theorem requireLeaseIfRunning_eq_ok {claim : ExecutionClaim} (hr : db.run claim.toRunScope = some r) :
    requireLeaseIfRunning db r claim t = .ok () ↔ (r.state = .running → claim.validOn r t = true) := by
  unfold requireLeaseIfRunning
  split_ifs with hstate
  · rw [requireLease_eq_ok, hr]
    simp [hstate]
  · simp [hstate, pure, Except.pure]

theorem transition_transitions {claim : ExecutionClaim} {target : RunState} {args : TransitionArgs}
    {result : RunRecord} (h : transition db clk claim target args = .ok (db', result)) :
    Transitions (clk.read 0) clk.stop claim target args db db' := by
  simp only [transition, validateTransition, ok_iff, RunRow.record_eq_ok] at h
  obtain ⟨-, hrunning, case, -, -, row, hrow, previous, rfl, htarget, hlease, hbinding, -, runs,
    hupdate, updated, -, record, -, rfl, -⟩ := h
  exact .mk ((Within.refl clk).drop 1) ⟨le_rfl, clk.start_le_stop⟩ hrow previous.coherent htarget
    hrunning ((requireLeaseIfRunning_eq_ok hrow).mp hlease) hbinding hupdate

/-! ## Steps, attempts and checkpoints -/

theorem createStep_writes {step : StepRecord} (h : createStep db step = .ok db') : Writes gate start stop db db' := by
  simp only [createStep, foreignKey, ok_iff, statement_eq_ok] at h
  obtain ⟨-, steps, -, rfl⟩ := h
  exact .single (.other ..)

theorem createAttempt_writes {attempt : AttemptRecord} (h : createAttempt db attempt = .ok db') :
    Writes gate start stop db db' := by
  simp only [createAttempt, foreignKey, ok_iff, statement_eq_ok] at h
  obtain ⟨-, attempts, -, rfl⟩ := h
  exact .single (.other ..)

theorem setStatus_writes {attempt result : AttemptRecord} {status : AttemptStatus} {claim : ExecutionClaim}
    (h : setStatus db clk attempt status claim = .ok (db', result)) :
    Writes gate start stop db db' := by
  simp only [setStatus, ok_iff, statement_eq_ok] at h
  obtain ⟨-, -, -, current, -, -, attempts, -, rfl, -⟩ := h
  exact .single (.other ..)

def Saves (checkpoint : Checkpoint) (db db' : Database) : Prop :=
  ∃ checkpoints, db.checkpoints.insert checkpoint = .ok checkpoints ∧
    db' = { db with checkpoints := checkpoints }

theorem saveCheckpoint_saves {checkpoint : Checkpoint} {claim : ExecutionClaim}
    (h : saveCheckpoint db clk checkpoint claim = .ok db') : Saves checkpoint db db' := by
  simp only [saveCheckpoint, ok_iff, statement_eq_ok] at h
  obtain ⟨-, -, -, checkpoints, hinsert, rfl⟩ := h
  exact ⟨checkpoints, hinsert, rfl⟩

end Aftercare
