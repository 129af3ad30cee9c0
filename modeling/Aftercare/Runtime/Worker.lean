import Aftercare.Persistence.Admission
import Aftercare.Persistence.Waits
import Aftercare.Runtime.Harness

/-!
# Worker slices

`run_once` and `run_next` of `runtime/worker.py`: two transactions with the harness between them. The first claims a
Run and reads its latest checkpoint, the second, which is fenced, saves the new one and moves the Run. The
heartbeat is only whether one of its calls failed; the gate that assesses a proposal is outside.
-/

namespace Aftercare

open Relational Text Investigation

structure Slice where
  claim : ExecutionClaim
  slot : Option SlotRow
  previous : Option Checkpoint

/-- The arguments of a slice, and what happens around it. -/
structure SliceInput where
  harness : ModelHarness
  execution_time : Time
  max_steps : ℤ
  resume_next_step : Option StepKind
  heartbeat_failed : Bool
  assessment_evaluator :
    Option (Checkpoint → InvestigationProposal → Time → Result InvestigationAssessment)
  put_assessment : RunScope → InvestigationAssessment → Result Unit

/-! ## The first transaction -/

/-- `_validate_duration` of the lease. -/
def validateLease (lease : ℤ) : Result Unit :=
  require (0 < lease) (.contract .invalidInput "lease must be positive")

/-- The end of the first transaction, with its claim. -/
def openSlice (db : Database) (clk : Clock Time) (claim : ExecutionClaim) (lease : ℤ) :
    Result (Database × Slice) := do
  let (db, slot) ← acquireSlot db clk claim lease
  let previous ← getLatest db claim.tenant_id claim.run_id
  pure (db, ⟨claim, slot, previous⟩)

/-- The first transaction of `run_once`. -/
def runOnce (db : Database) (clk : Clock Time) (tenant run_id owner : Identifier) (lease : ℤ) :
    Result (Database × Slice) := do
  validateLease lease
  let (db, claim) ← claim db clk tenant run_id owner lease
  openSlice db (clk.drop 4) claim lease

/-- The first transaction of `run_next`. -/
def runNext (db : Database) (clk : Clock Time) (readings : RunKey → ℕ → Time) (locked : RunKey → Bool)
    (tenant : Option Identifier) (owner : Identifier) (lease : ℤ) : Result (Database × Option Slice) := do
  validateLease lease
  let (db, claim) ← claimNext db clk readings locked tenant owner lease
  match claim with
  | none => pure (db, none)
  | some claim => do
    let (db, slice) ← openSlice db (clk.drop 8) claim lease
    pure (db, some slice)

/-! ## Between the transactions -/

def StepKind.phase : StepKind → NextStep
  | .model => .model
  | .tool => .tool
  | .evaluate => .evaluate

def Checkpoint.resumed (c : Checkpoint) (kind : StepKind) : Checkpoint :=
  { c with
    checkpoint_version := c.checkpoint_version + 1, next_step := kind.phase
    resume_next_step := none, wait_id := none, wait_generation := none }

/-- `_execute_claim` takes a checkpoint out of its wait. -/
def resumeWait (c : Checkpoint) (resume_next_step : Option StepKind) : Result Checkpoint :=
  if c.next_step = .wait then do
    require (¬(c.resume_next_step.isSome = true ∧ resume_next_step.isSome = true ∧
        c.resume_next_step ≠ resume_next_step))
      (.contract .conflict "resume phase disagrees with the wait checkpoint")
    let kind ← fetch (resume_next_step.or c.resume_next_step)
      (.contract .conflict "wait checkpoint needs an explicit resume step")
    pure (c.resumed kind)
  else pure c

/-- The checkpoint that a slice hands to the harness. -/
def Slice.resume (slice : Slice) (resume_next_step : Option StepKind) : Result (Option Checkpoint) :=
  match slice.previous with
  | none => pure none
  | some c => do
    let c ← resumeWait c resume_next_step
    pure (some c)

/-! ## The second transaction -/

/-- The checkpoint, with its proposal assessed or not. -/
def Checkpoint.assessed (c : Checkpoint) (next_step : NextStep) (reason : Option RouteReason) : Checkpoint :=
  { c with
    checkpoint_version := c.checkpoint_version + 1, next_step := next_step
    route_reason := reason, pending_proposal_json := none }

/-- Only a gate that returns completes the Run. -/
def SliceInput.judge (input : SliceInput) (c : Checkpoint) (proposal : InvestigationProposal) :
    Result Checkpoint :=
  let rejected := c.assessed .review (some .assessmentRejected)
  match input.assessment_evaluator with
  | none => pure rejected
  | some evaluator => do
    match ← attempt (evaluator c proposal input.execution_time) with
    | .error _ => pure rejected
    | .ok assessment => do
      input.put_assessment c.toRunScope assessment
      pure (c.assessed .complete none)

/-- The second transaction assesses the proposal, if any. -/
def SliceInput.assess [JsonDecoding] (input : SliceInput) (c : Checkpoint)
    (proposal : Option InvestigationProposal) : Result Checkpoint :=
  match proposal with
  | none => pure c
  | some proposal => do
    require (c.next_step = .evaluate)
      (.contract .conflict "proposal result is not in the evaluate phase")
    let payload ← fetch c.pending_proposal_json
      (.contract .conflict "proposal result changed from its checkpoint")
    let stored ← parseInvestigationProposal payload
    require (stored = proposal)
      (.contract .conflict "proposal result changed from its checkpoint")
    input.judge c proposal

def runStateFor (c : Checkpoint) : Result RunState :=
  match c.next_step with
  | .complete => pure .completed
  | .review => pure .review
  | .retry => do
    require (c.available_at.isSome = true)
      (.contract .invalidInput "retry route lost its available_at")
    pure .retryAt
  | _ => pure .ready

/-- The harness, and the second transaction. -/
def executeClaim [JsonDecoding] (db : Database) (clk : Clock Time) (slice : Slice)
    (input : SliceInput) : Result (Database × Checkpoint) := do
  let claim := slice.claim
  let previous ← slice.resume input.resume_next_step
  let result ← runModelHarness input.harness claim.toRunScope previous input.execution_time
    input.max_steps
  require (input.heartbeat_failed = false) (.contract .leaseLost "lease heartbeat failed")
  lockCase db claim.toCaseScope
  let checkpoint ← input.assess
    { result.checkpoint with saved_fencing_token := claim.fencing_token } result.proposal
  let target ← runStateFor checkpoint
  let db ← saveCheckpoint db clk checkpoint claim
  let available_at := if target = .retryAt then checkpoint.available_at else none
  let (db, _) ← transition db (clk.drop 1) claim target ⟨none, none, none, none, available_at⟩
  pure (if slice.slot.isSome then releaseSlot db claim else db, checkpoint)

/-! ## What a slice starts from -/

variable {db db' : Database} {c c' : Checkpoint} {slice : Slice} {clk : Clock Time} {input : SliceInput}

theorem getLatest_valid {tenant run_id : Identifier}
    (h : getLatest db tenant run_id = .ok (some c)) : c.valid = true := by
  unfold getLatest at h
  split at h
  · cases h
  · simp only [Checkpoint.decode, ok_iff, Option.some.injEq] at h
    obtain ⟨_, ⟨hvalid, rfl⟩, rfl⟩ := h
    exact hvalid

/-- A claim on a Run is issued, and the slice is opened for it. -/
def Slice.Begins (slice : Slice) (clk : Clock Time) (db db' : Database) : Prop :=
  ∃ claimed claim clk' lease, Writes .closed (clk.read 0) clk.stop db claimed ∧
    Issues db claimed claim ∧ openSlice claimed clk' claim lease = .ok (db', slice)

theorem Slice.Begins.writes (h : slice.Begins clk db db') :
    Writes .closed (clk.read 0) clk.stop db db' ∧ ∀ c ∈ slice.previous, c.valid = true := by
  obtain ⟨claimed, claim, clk', lease, hclaim, -, h⟩ := h
  simp only [openSlice, ok_iff, Prod.exists] at h
  obtain ⟨_, slot, hslot, previous, hlatest, rfl, rfl⟩ := h
  refine ⟨hclaim.trans (acquireSlot_writes hslot), fun c hc => ?_⟩
  have hprevious : previous = some c := hc
  rw [hprevious] at hlatest
  exact getLatest_valid hlatest

theorem runOnce_begins {tenant run_id owner : Identifier} {lease : ℤ}
    (h : runOnce db clk tenant run_id owner lease = .ok (db', slice)) : slice.Begins clk db db' := by
  simp only [runOnce, ok_iff, Prod.exists] at h
  obtain ⟨-, claimed, claim, hclaim, h⟩ := h
  exact ⟨claimed, claim, _, _, (claim_writes hclaim).1, (claim_writes hclaim).2, h⟩

theorem runNext_begins {readings : RunKey → ℕ → Time} {locked : RunKey → Bool} {tenant : Option Identifier}
    {owner : Identifier} {lease : ℤ} {found : Option Slice}
    (h : runNext db clk readings locked tenant owner lease = .ok (db', found)) :
    Writes .closed (clk.read 0) clk.stop db db' ∧ ∀ slice ∈ found, slice.Begins clk db db' := by
  simp only [runNext, ok_iff, Prod.exists] at h
  obtain ⟨-, claimed, claim, hclaim, h⟩ := h
  obtain ⟨hwrites, hissues⟩ := claimNext_writes hclaim
  cases claim with
  | none =>
    cases h
    exact ⟨hwrites, by simp⟩
  | some claim =>
    simp only [ok_iff, Prod.exists] at h
    obtain ⟨_, slice, hopen, rfl, rfl⟩ := h
    have hbegins : slice.Begins clk db _ := ⟨claimed, claim, _, _, hwrites, hissues claim rfl, hopen⟩
    exact ⟨hbegins.writes.1, fun s hs => Option.some.inj hs ▸ hbegins⟩

/-- A sound checkpoint that leaves its wait is open. -/
theorem resumeWait_open {resume_next_step : Option StepKind} (hc : c.Sound)
    (h : resumeWait c resume_next_step = .ok c') : c'.Open ∧ c'.tool_results = c.tool_results := by
  unfold resumeWait at h
  split_ifs at h with hwait
  · simp only [ok_iff] at h
    obtain ⟨hagree, kind, hkind, rfl⟩ := h
    -- The phase that the checkpoint names, if it names one, is the one that is resumed.
    have hnamed : ∀ named, c.resume_next_step = some named → kind = named := by
      intro named hnamed
      cases hexplicit : resume_next_step with
      | none =>
        rw [hexplicit, hnamed] at hkind
        exact (Option.some.inj hkind).symm
      | some explicit =>
        have heq : some named = some explicit := by
          by_contra hne
          exact hagree ⟨by rw [hnamed]; rfl, by rw [hexplicit]; rfl, by rw [hnamed, hexplicit]; exact hne⟩
        rw [hexplicit] at hkind
        rw [Option.some.inj heq]
        exact (Option.some.inj hkind).symm
    have hretry : c.available_at = none := by simpa [hwait] using hc.retry
    have hroute : c.route_reason = none := by simpa [hwait] using hc.route
    have htool := hc.tool
    have hproposal := hc.proposal
    simp only [hwait, reduceCtorEq, false_or] at htool hproposal
    have hphase : kind.phase ≠ .wait ∧ kind.phase ≠ .retry ∧ kind.phase ≠ .review := by
      cases kind <;> decide
    refine ⟨?_, rfl⟩
    exact
      { hc.toKept with
        phase := hphase.1
        wait := ⟨rfl, rfl, rfl⟩
        retry := by simp [Checkpoint.resumed, hphase, hretry]
        route := by simp [Checkpoint.resumed, hphase, hroute]
        tool := fun hsome => by
          show kind.phase = .tool
          rw [hnamed .tool (htool.mpr hsome)]
          rfl
        fresh := hc.fresh
        proposal := fun p hp => by
          refine ⟨(hproposal p hp).1, ?_⟩
          show kind.phase = .evaluate
          rw [hnamed .evaluate (hproposal p hp).2]
          rfl }
  · cases h
    exact ⟨hc.open hwait, rfl⟩

/-! ## What a slice saves -/

theorem Checkpoint.Sound.assessed (hc : c.Sound) (hphase : c.next_step = .evaluate) {next_step : NextStep}
    {reason : Option RouteReason}
    (hnext : (next_step = .review ∧ reason.isSome = true) ∨ (next_step = .complete ∧ reason = none)) :
    (c.assessed next_step reason).Sound := by
  have hopen := hc.open (by rw [hphase]; decide)
  have hretry : c.available_at = none := by simpa [hphase] using hc.retry
  have hnone := hopen.no_tool (by rw [hphase]; decide)
  have hlast : (c.assessed next_step reason).Open := by
    rcases hnext with ⟨rfl, hreason⟩ | ⟨rfl, rfl⟩
    all_goals exact
      { hc.toKept with
        phase := by simp [Checkpoint.assessed]
        wait := hopen.wait
        retry := by simp [Checkpoint.assessed, hretry]
        route := by simp_all [Checkpoint.assessed]
        tool := by simp [Checkpoint.assessed, hnone]
        fresh := hc.fresh
        proposal := by simp [Checkpoint.assessed] }
  refine hlast.sound fun htool => ?_
  rcases hnext with ⟨rfl, -⟩ | ⟨rfl, -⟩ <;> cases htool

theorem SliceInput.judge_sound {proposal : InvestigationProposal} (hc : c.Sound) (hphase : c.next_step = .evaluate)
    (h : input.judge c proposal = .ok c') : c'.Sound := by
  have hrejected : (c.assessed .review (some .assessmentRejected)).Sound := hc.assessed hphase (.inl ⟨rfl, rfl⟩)
  unfold SliceInput.judge at h
  simp only at h
  split at h
  · cases h
    exact hrejected
  · rw [bind_eq_ok] at h
    obtain ⟨outcome, -, h⟩ := h
    cases outcome with
    | error code =>
      cases h
      exact hrejected
    | ok assessment =>
      simp only [ok_iff] at h
      obtain ⟨-, rfl⟩ := h
      exact hc.assessed hphase (.inr ⟨rfl, rfl⟩)

theorem SliceInput.assess_sound [JsonDecoding] {proposal : Option InvestigationProposal} (hc : c.Sound)
    (h : input.assess c proposal = .ok c') : c'.Sound := by
  unfold SliceInput.assess at h
  split at h
  · cases h
    exact hc
  · simp only [ok_iff] at h
    obtain ⟨hphase, payload, -, stored, -, -, h⟩ := h
    exact input.judge_sound hc hphase h

/-- The input keeps the rules that nothing checks. -/
structure SliceInput.Keeps (input : SliceInput) (slice : Slice) : Prop where
  fresh : ∀ c ∈ slice.previous, input.harness.FreshCalls c
  own : input.harness.OwnArtifacts

/-- **What a slice saves**: one checkpoint, and it is sound. -/
theorem executeClaim_saves [JsonDecoding] (h : executeClaim db clk slice input = .ok (db', c)) :
    (∃ saved, Saves c db saved ∧ db'.checkpoints = saved.checkpoints) ∧
      ((∀ c ∈ slice.previous, c.valid = true) → input.Keeps slice → c.Sound) := by
  simp only [executeClaim, ok_iff, Prod.exists] at h
  obtain ⟨previous, hprevious, result, hresult, -, -, checkpoint, hassess, target, -, saved, hsave,
    moved, record, hmove, rfl, rfl⟩ := h
  constructor
  · refine ⟨saved, saveCheckpoint_saves hsave, ?_⟩
    have hkept : moved.checkpoints = saved.checkpoints := by
      cases transition_transitions hmove
      rfl
    split_ifs <;> exact hkept
  · intro hvalid hkeeps
    refine input.assess_sound ?_ hassess
    have hopen : ∀ c ∈ previous, c.Open ∧ input.harness.FreshCalls c := by
      intro c hc
      unfold Slice.resume at hprevious
      split at hprevious
      · cases hprevious
        cases hc
      · rename_i stored hstored
        simp only [ok_iff] at hprevious
        obtain ⟨resumed, hresumed, rfl⟩ := hprevious
        cases hc
        have hsound := (Checkpoint.valid_iff.mp (hvalid stored hstored)).2
        obtain ⟨hopen, hresults⟩ := resumeWait_open hsound hresumed
        refine ⟨hopen, ?_⟩
        have hfresh := hkeeps.fresh stored hstored
        unfold ModelHarness.FreshCalls at hfresh ⊢
        rwa [hresults]
    have hsound := runModelHarness_sound (fun c hc => (hopen c hc).1) (fun c hc => (hopen c hc).2) hkeeps.own hresult
    -- The fencing token is no part of the rules.
    exact { hsound with }

end Aftercare
