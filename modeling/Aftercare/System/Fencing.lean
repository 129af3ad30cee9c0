import Aftercare.System.Queue

/-!
# Fencing

The token of a Run only goes up, and a lease is extended only by the claim that holds it while it has not ended
(`Evolves`). So a claim that does not hold the lease never holds it again, and changes nothing through any method
that takes a claim as its authority.
-/

namespace Aftercare

open Relational

variable {db db' mid : Database} {runs : RunStore} {clk : Clock Time} {k : RunKey}
  {f : RunRow → RunRow} {r r' : RunRow} {t t' stop : Time} {c : Call}
  {h : List CallTransaction}

variable {gate : Gate}

/-! ## Lookups of Runs after a statement -/

theorem Database.run_update (hr : db.runs.runs.get k = some r) (hscope : (f r).toRunScope = r.toRunScope)
    (h : db.runs.update k f clk = .ok runs) (scope : RunScope) : { db with runs := runs }.run scope =
      if scope = r.toRunScope then some (f r) else db.run scope := by
  obtain ⟨-, -, hget, -, -⟩ := RunStore.update_spec hr h
  have hkey : r.toRunScope.key = k := Table.key_of_get hr
  unfold Database.run
  rw [hget]
  split_ifs with hk hs hs
  · subst hs
    simp [hscope]
  · -- The key is the Run's, so it is the case that differs.
    have hcase : r.case_id ≠ scope.case_id := by
      intro hcase
      have heq := RunScope.eq_of_key (hk.trans hkey.symm)
      rw [hcase] at heq
      exact hs heq
    rw [hk, hr]
    simp [Option.filter, hcase, congrArg (·.case_id) hscope]
  · exact absurd ((congrArg RunScope.key hs).trans hkey) hk
  · rfl

theorem Database.run_insert {row : RunRow} {scope : RunScope} (h : db.runs.insert row clk = .ok runs)
    (hr : db.run scope = some r) : { db with runs := runs }.run scope = some r := by
  obtain ⟨-, hnone, hget, -, -⟩ := RunStore.insert_spec h
  obtain ⟨hrow, hscope⟩ := Database.run_eq_some.mp hr
  refine Database.run_eq_some.mpr ⟨?_, hscope⟩
  rw [hget, if_neg]
  · exact hrow
  · intro hk
    rw [hk, hnone] at hrow
    cases hrow

variable {claim : ExecutionClaim} {start : Time}

theorem Database.run_extend {leaseUntil : Time} (hr : db.run claim.toRunScope = some r)
    (h : db.runs.extend claim.key leaseUntil = .ok runs) (scope : RunScope) :
    { db with runs := runs }.run scope =
      if scope = r.toRunScope then some { r with lease_until := some leaseUntil }
      else db.run scope := by
  obtain ⟨hget, -⟩ := RunStore.extend_spec h
  obtain ⟨hrow, hscope⟩ := Database.run_eq_some.mp hr
  have hrow' : db.runs.runs.get claim.key = some r := hrow
  unfold Database.run
  rw [hget, hrow']
  split_ifs with hk hs hs
  · subst hs
    simp
  · have hcase : r.case_id ≠ scope.case_id := by
      intro hcase
      have heq := RunScope.eq_of_key (hk.trans (congrArg RunScope.key hscope.symm))
      rw [hcase] at heq
      exact hs heq
    rw [hk, hrow']
    simp [Option.filter, hcase]
  · exact absurd ((congrArg RunScope.key hs).trans (congrArg RunScope.key hscope)) hk
  · rfl

/-! ## What a statement does to the row of a Run -/

/-- What one statement does to the row of a Run. -/
inductive RunStep (start : Time) (r : RunRow) : RunRow → Prop
  | move {t : Time} {r' : RunRow} (h : RunMove t r r') : RunStep start r r'
  /-- A lease is extended only if it had not ended at `start`. -/
  | renew (leaseUntil : Time) (hlease : r.lease_until.any (start < ·) = true) :
      RunStep start r { r with lease_until := some leaseUntil }
  | wake (hwaiting : r.state.waiting = true) : RunStep start r r.woken
  | transition {target : RunState} (args : TransitionArgs) (htarget : target ∈ r.state.transitions)
      (hrunning : target ≠ .running) :
      RunStep start r (r.moved target args.wait_id args.wait_generation args.available_at)

/-- A Run stays, and its row changes by such steps only. -/
def StepRuns (start : Time) (db db' : Database) : Prop :=
  ∀ scope r, db.run scope = some r →
    ∃ r', db'.run scope = some r' ∧ Relation.ReflTransGen (RunStep start) r r'

theorem StepRuns.of_runs_eq (h : db'.runs = db.runs) : StepRuns start db db' := by
  intro scope r hr
  refine ⟨r, ?_, .refl⟩
  unfold Database.run at hr ⊢
  rw [h]
  exact hr

theorem StepRuns.trans (h : StepRuns start db mid) (h' : StepRuns start mid db') : StepRuns start db db' := by
  intro scope r hr
  obtain ⟨r', hr', hsteps⟩ := h scope r hr
  obtain ⟨r'', hr'', hsteps'⟩ := h' scope r' hr'
  exact ⟨r'', hr'', hsteps.trans hsteps'⟩

theorem RunStep.scope (h : RunStep start r r') : r'.toRunScope = r.toRunScope := by
  cases h with
  | move h => cases h <;> rfl
  | renew leaseUntil hlease => rfl
  | wake hwaiting => rfl
  | transition args htarget hrunning => rfl

theorem StepRuns.of_update (hr : db.runs.runs.get k = some r) (hstep : RunStep start r (f r))
    (h : db.runs.update k f clk = .ok runs) : StepRuns start db { db with runs := runs } := by
  intro scope r₀ hr₀
  rw [Database.run_update hr hstep.scope h]
  split_ifs with hs
  · rw [hs, Database.run_of_get hr] at hr₀
    cases hr₀
    exact ⟨f r, rfl, .single hstep⟩
  · exact ⟨r₀, hr₀, .refl⟩

theorem Write.stepRuns (h : Write gate start stop db db') : StepRuns start db db' := by
  cases h <;> try exact .of_runs_eq rfl
  case createRun h => exact fun scope r hr => ⟨r, Database.run_insert h hr, .refl⟩
  case moveRun hr hmove h => exact .of_update hr (.move hmove) h
  case renew runs t leaseUntil r claim ht hr hvalid h =>
    intro scope r₀ hr₀
    rw [Database.run_extend hr h]
    split_ifs with hs
    · have hscope := (Database.run_eq_some.mp hr).2
      rw [hs, hscope, hr] at hr₀
      cases hr₀
      refine ⟨_, rfl, .single (.renew leaseUntil ?_)⟩
      -- The claim that renews holds the lease now, so the lease had not ended at the start.
      simp only [ExecutionClaim.validOn, Bool.and_eq_true] at hvalid
      obtain ⟨u, hu, hlt⟩ := (Option.any_eq_true ..).mp hvalid.2
      rw [hu]
      simp only [decide_eq_true_eq] at hlt
      simpa using lt_of_le_of_lt ht.1 hlt
    · exact ⟨r₀, hr₀, .refl⟩

theorem Writes.stepRuns (h : Writes gate start stop db db') : StepRuns start db db' := by
  induction h with
  | refl => exact .of_runs_eq rfl
  | tail _ hlast ih => exact ih.trans hlast.stepRuns

theorem Transitions.stepRuns {target : RunState} {args : TransitionArgs}
    (h : Transitions start stop claim target args db db') : StepRuns start db db' := by
  obtain ⟨-, -, hr, -, htarget, hrunning, -, -, hupdate⟩ := h
  exact .of_update (Database.run_eq_some.mp hr).1 (.transition args htarget hrunning) hupdate

/-- **What a call does to the rows of the Runs.** -/
theorem Effect.stepRuns (h : Effect start stop db c db') : StepRuns start db db' := by
  cases h with
  | resolves c h =>
    cases h with
    | writes h => exact h.stepRuns
    | settle hprepare hruns hget hopen hwait hsettle hevents =>
      refine (hprepare.stepRuns.trans ?_).trans (.of_runs_eq hevents.runs_eq)
      obtain ⟨-, -, -, -, hr, hwaits, -, -, -, hrun⟩ := hsettle
      simp only [RunRow.waitsFor, Bool.and_eq_true] at hwaits
      exact (StepRuns.of_update (Database.run_eq_some.mp hr).1 (.wake hwaits.1.1) hrun).trans (.of_runs_eq rfl)
  | acts c h => exact .of_runs_eq h.runs_eq
  | transitions claim target args h => exact h.stepRuns
  | saves checkpoint claim h =>
    obtain ⟨checkpoints, -, rfl⟩ := h
    exact .of_runs_eq rfl

/-! ## How the row of a Run evolves -/

/-- How the row of one Run changes from `start` on. -/
structure Evolves (start : Time) (r r' : RunRow) : Prop where
  scope : r'.toRunScope = r.toRunScope
  /-- The token never goes down. -/
  token : r.fencing_token ≤ r'.fencing_token
  /-- The lease stays unless it had not ended at `start`. -/
  lease : r'.state = .running → r'.fencing_token = r.fencing_token → r.state = .running ∧
    r'.lease_owner = r.lease_owner ∧
    (r'.lease_until = r.lease_until ∨ r.lease_until.any (start < ·) = true)

theorem Evolves.refl (start : Time) (r : RunRow) : Evolves start r r :=
  ⟨rfl, le_rfl, fun hstate _ => ⟨hstate, rfl, .inl rfl⟩⟩

theorem Evolves.trans {r'' : RunRow} (h : Evolves start r r') (h' : Evolves start r' r'') : Evolves start r r'' := by
  refine ⟨h'.scope.trans h.scope, h.token.trans h'.token, fun hstate htoken => ?_⟩
  have htoken' : r''.fencing_token = r'.fencing_token := by
    have := h.token
    have := h'.token
    omega
  obtain ⟨hstate', howner', hlease'⟩ := h'.lease hstate htoken'
  obtain ⟨hrunning, howner, hlease⟩ := h.lease hstate' (htoken'.symm.trans htoken)
  refine ⟨hrunning, howner'.trans howner, ?_⟩
  rcases hlease with hlease | hlease
  · rw [hlease] at hlease'
    exact hlease'
  · exact .inr hlease

theorem Evolves.of_not_running (hscope : r'.toRunScope = r.toRunScope) (htoken : r.fencing_token ≤ r'.fencing_token)
    (hstate : r'.fencing_token = r.fencing_token → r'.state ≠ .running) : Evolves start r r' :=
  ⟨hscope, htoken, fun hrunning heq => absurd hrunning (hstate heq)⟩

theorem RunMove.evolves (h : RunMove t r r') : Evolves start r r' := by
  cases h with
  | claim owner leaseUntil h =>
    refine .of_not_running rfl (Nat.le_succ _) fun heq => ?_
    have heq' : r.fencing_token + 1 = r.fencing_token := heq
    omega
  | wake hstate hdue => exact .of_not_running rfl le_rfl fun _ => by simp
  | review target hstate htarget =>
    refine .of_not_running rfl le_rfl fun _ => ?_
    rcases htarget with rfl | rfl <;> simp [RunRow.moved]

theorem RunStep.evolves (h : RunStep start r r') : Evolves start r r' := by
  cases h with
  | move h => exact h.evolves
  | renew leaseUntil hlease => exact ⟨rfl, le_rfl, fun hstate _ => ⟨hstate, rfl, .inr hlease⟩⟩
  | wake hwaiting => exact .of_not_running rfl le_rfl fun _ => by simp [RunRow.woken]
  | transition args htarget hrunning => exact .of_not_running rfl le_rfl fun _ => hrunning

/-- A Run stays, and its row evolves. -/
def EvolveRuns (start : Time) (db db' : Database) : Prop :=
  ∀ scope r, db.run scope = some r → ∃ r', db'.run scope = some r' ∧ Evolves start r r'

theorem EvolveRuns.refl (start : Time) (db : Database) : EvolveRuns start db db := fun _ r hr => ⟨r, hr, .refl start r⟩

theorem EvolveRuns.trans (h : EvolveRuns start db mid) (h' : EvolveRuns start mid db') : EvolveRuns start db db' := by
  intro scope r hr
  obtain ⟨r', hr', he⟩ := h scope r hr
  obtain ⟨r'', hr'', he'⟩ := h' scope r' hr'
  exact ⟨r'', hr'', he.trans he'⟩

theorem StepRuns.evolves (h : StepRuns start db db') : EvolveRuns start db db' := by
  intro scope r hr
  obtain ⟨r', hr', hsteps⟩ := h scope r hr
  refine ⟨r', hr', ?_⟩
  clear hr'
  induction hsteps with
  | refl => exact .refl start r
  | tail _ hstep ih => exact ih.trans hstep.evolves

/-! ## Claims that hold a lease -/

def Holds (db : Database) (claim : ExecutionClaim) (t : Time) : Prop :=
  ∃ r, db.run claim.toRunScope = some r ∧ claim.validOn r t = true

theorem validOn_iff : claim.validOn r t = true ↔ r.toRunScope = claim.toRunScope ∧ r.state = .running ∧
      r.lease_owner = some claim.owner ∧ r.fencing_token = claim.fencing_token.val ∧
      r.lease_until.any (t < ·) = true := by
  simp only [ExecutionClaim.validOn, Bool.and_eq_true, beq_iff_eq, and_assoc]

theorem any_lt_trans {o : Option Time} (hle : t ≤ t') (h : o.any (t' < ·) = true) : o.any (t < ·) = true := by
  obtain ⟨u, hu, hlt⟩ := (Option.any_eq_true ..).mp h
  rw [hu]
  simp only [decide_eq_true_eq] at hlt
  simpa using lt_of_le_of_lt hle hlt

theorem Holds.earlier (hle : t ≤ t') (h : Holds db claim t') : Holds db claim t := by
  obtain ⟨r, hr, hvalid⟩ := h
  rw [validOn_iff] at hvalid
  obtain ⟨hscope, hstate, howner, htoken, hlease⟩ := hvalid
  exact ⟨r, hr, validOn_iff.mpr ⟨hscope, hstate, howner, htoken, any_lt_trans hle hlease⟩⟩

theorem Holds.unique {c c' : ExecutionClaim} (h : Holds db c t) (h' : Holds db c' t')
    (hscope : c.toRunScope = c'.toRunScope) :
    c.owner = c'.owner ∧ c.fencing_token.val = c'.fencing_token.val := by
  obtain ⟨r, hr, hvalid⟩ := h
  obtain ⟨r', hr', hvalid'⟩ := h'
  rw [hscope, hr'] at hr
  cases hr
  obtain ⟨-, -, howner, htoken, -⟩ := validOn_iff.mp hvalid
  obtain ⟨-, -, howner', htoken', -⟩ := validOn_iff.mp hvalid'
  exact ⟨Option.some.inj (howner.symm.trans howner'), htoken.symm.trans htoken'⟩

/-- The Run's own token has reached that of the claim. -/
def Reached (db : Database) (claim : ExecutionClaim) : Prop :=
  ∃ r, db.run claim.toRunScope = some r ∧ claim.fencing_token.val ≤ r.fencing_token

theorem Reached.evolves (h : Reached db claim) (he : EvolveRuns start db db') : Reached db' claim := by
  obtain ⟨r, hr, htoken⟩ := h
  obtain ⟨r', hr', hrow⟩ := he _ r hr
  exact ⟨r', hr', htoken.trans hrow.token⟩

/-- A claim that holds the lease later, and is older, held it before. -/
theorem Holds.of_evolves (hreached : Reached db claim) (he : EvolveRuns start db db') (h : Holds db' claim start) :
    Holds db claim start := by
  obtain ⟨r, hr, hle⟩ := hreached
  obtain ⟨r', hr', hrow⟩ := he _ r hr
  obtain ⟨r'', hr'', hvalid⟩ := h
  cases Option.some.inj (hr'.symm.trans hr'')
  obtain ⟨-, hstate, howner, htoken, hlease⟩ := validOn_iff.mp hvalid
  have hsame : r'.fencing_token = r.fencing_token := by
    have := hrow.token
    omega
  obtain ⟨hstate₀, howner₀, hlease₀⟩ := hrow.lease hstate hsame
  refine ⟨r, hr, validOn_iff.mpr ⟨(Database.run_eq_some.mp hr).2, hstate₀,
    howner₀.symm.trans howner, hsame.symm.trans htoken, ?_⟩⟩
  rcases hlease₀ with hlease₀ | hlease₀
  · rwa [← hlease₀]
  · exact hlease₀

/-! ## Histories -/

/-- The claim that a transaction issued, if it issued one. -/
def issuedClaim (τ : CallTransaction) : Option ExecutionClaim :=
  match τ.outcome with
  | .ok (_, .claimed claim) => claim
  | _ => none

/-- The claims that a history issued, the newest first. -/
def issuedClaims (h : List CallTransaction) : List ExecutionClaim := h.filterMap issuedClaim

theorem exec_issues [Hashing] (h : exec db clk c = .ok (db', .claimed (some claim))) : Issues db db' claim := by
  cases c <;> simp only [exec, ok_iff, Prod.exists, reduceCtorEq, and_false, exists_false,
    Output.claimed.injEq, Option.some.injEq] at h
  case claim =>
    obtain ⟨_, _, h, rfl, rfl⟩ := h
    exact (claim_writes h).2
  case claimNext =>
    obtain ⟨_, _, h, rfl, rfl⟩ := h
    exact (claimNext_writes h).2 claim rfl

/-- A newer claim of the same Run has a greater token. -/
def Supersedes (newer older : ExecutionClaim) : Prop :=
  newer.toRunScope = older.toRunScope → older.fencing_token.val < newer.fencing_token.val

theorem exec_evolves [Hashing] (db : Database) (clk : Clock Time) (c : Call) :
    EvolveRuns (clk.read 0) db (committed db (exec db clk c)) := by
  cases hexec : exec db clk c with
  | error e => exact .refl _ db
  | ok result => exact (exec_effect hexec).stepRuns.evolves

theorem Runs.evolves [Hashing] (hr : Runs exec db t h db' t') : EvolveRuns t db db' := by
  induction hr with
  | refl => exact .refl t db
  | @call h s u clk c hr hle ih =>
    refine ih.trans ?_
    intro scope r hrun
    obtain ⟨r', hr', he⟩ := exec_evolves s clk c scope r hrun
    refine ⟨r', hr', he.scope, he.token, fun hstate htoken => ?_⟩
    -- A lease that had not ended when the call began had not ended at the start of the history.
    obtain ⟨hrunning, howner, hlease⟩ := he.lease hstate htoken
    exact ⟨hrunning, howner, hlease.imp_right (any_lt_trans (hr.le.trans hle))⟩

theorem issuedClaims_pairwise [Hashing] {t₀ : Time} (hr : History h t₀ db t) :
    (∀ c ∈ issuedClaims h, Reached db c) ∧ (issuedClaims h).Pairwise Supersedes := by
  induction hr with
  | refl => exact ⟨by simp [issuedClaims], List.Pairwise.nil⟩
  | @call h s u clk c hr hle ih =>
    obtain ⟨hreached, hpairwise⟩ := ih
    have hcons : issuedClaims (⟨s, clk, c, exec s clk c⟩ :: h) =
        (issuedClaim ⟨s, clk, c, exec s clk c⟩).toList ++ issuedClaims h := by
      unfold issuedClaims
      rw [List.filterMap_cons]
      cases issuedClaim ⟨s, clk, c, exec s clk c⟩ <;> rfl
    have hstep := exec_evolves s clk c
    rw [hcons]
    cases hissued : issuedClaim ⟨s, clk, c, exec s clk c⟩ with
    | none => exact ⟨fun c' hc' => (hreached c' hc').evolves hstep, hpairwise⟩
    | some claim =>
      have hissues : Issues s (committed s (exec s clk c)) claim := by
        unfold issuedClaim at hissued
        split at hissued
        · rename_i db' claim' hexec
          subst hissued
          have hexec' : exec s clk c = .ok (db', .claimed (some claim)) := hexec
          rw [hexec']
          exact exec_issues hexec'
        · cases hissued
      obtain ⟨r, r', hr₀, hr₁, hnext, htoken⟩ := hissues
      refine ⟨fun c' hc' => ?_, ?_⟩
      · rcases List.mem_cons.mp hc' with rfl | hc'
        · exact ⟨r', hr₁, htoken.le⟩
        · exact (hreached c' hc').evolves hstep
      · refine List.pairwise_cons.mpr ⟨fun c' hc' hscope => ?_, hpairwise⟩
        obtain ⟨r₂, hr₂, hle₂⟩ := hreached c' hc'
        rw [← hscope, hr₀] at hr₂
        cases hr₂
        omega

/-! ## What a claim is the authority for -/

/-- The calls that a claim is the authority for. -/
def Call.fencedBy (db : Database) (claim : ExecutionClaim) : Call → Prop
  | .renew c _ | .saveCheckpoint _ c | .setStatus _ _ c | .register _ c => c = claim
  | .markRequested _ c _ _ | .markResult _ c _ _ | .markReceipt _ c => c = claim
  | .reserve _ c => c = some claim
  | .transition c _ _ => c = claim ∧ ∃ r, db.run claim.toRunScope = some r ∧ r.state = .running
  | _ => False

theorem holds_of_fenced [Hashing] {o : Output} (h : exec db clk c = .ok (db', o)) (hc : c.fencedBy db claim) :
    Holds db claim (clk.read 0) := by
  cases c <;> simp only [Call.fencedBy] at hc <;>
    simp only [exec, ok_iff, Prod.exists] at h
  case renew =>
    obtain ⟨_, h, -⟩ := h
    subst hc
    simp only [renew, ok_iff, requireLease_eq_ok] at h
    exact h.1
  case transition target args =>
    obtain ⟨_, _, h, -⟩ := h
    obtain ⟨rfl, r, hr, hstate⟩ := hc
    simp only [transition, ok_iff, RunRow.record_eq_ok] at h
    obtain ⟨-, -, case, -, -, row, hrow, previous, rfl, -, hlease, -⟩ := h
    cases Option.some.inj (hr.symm.trans hrow)
    exact ⟨_, hr, (requireLeaseIfRunning_eq_ok hr).mp hlease hstate⟩
  case setStatus =>
    obtain ⟨_, _, h, -⟩ := h
    subst hc
    simp only [setStatus, ok_iff, requireLease_eq_ok] at h
    exact h.2.2.1
  case saveCheckpoint =>
    obtain ⟨_, h, -⟩ := h
    subst hc
    simp only [saveCheckpoint, ok_iff, requireLease_eq_ok] at h
    exact h.1
  case register =>
    obtain ⟨_, _, h, -⟩ := h
    subst hc
    simp only [register, ok_iff, claimValid_eq_ok] at h
    exact h.2.2.1.2
  case reserve =>
    obtain ⟨_, _, _, h, -⟩ := h
    subst hc
    simp only [reserve, requireClaim, ok_iff, claimValid_eq_ok] at h
    exact h.1.2.2
  case markRequested =>
    obtain ⟨_, _, h, -⟩ := h
    subst hc
    simp only [markRequested, ok_iff, claimValid_eq_ok] at h
    exact h.1.2
  case markResult =>
    obtain ⟨_, _, h, -⟩ := h
    subst hc
    simp only [markResult, ok_iff, claimValid_eq_ok] at h
    exact h.2.1.2
  case markReceipt =>
    obtain ⟨_, _, h, -⟩ := h
    subst hc
    simp only [markReceipt, ok_iff, claimValid_eq_ok] at h
    exact h.1.2

/-- **Fencing.** In every history the claims of a Run have increasing tokens, at most one holds its lease, and a claim that
lost the lease never holds it again and changes nothing. -/
theorem fencing [Hashing] {h : List (Transaction Database Time Call Output Failure)} {t₀ t : Time}
    {db : Database} (hr : History h t₀ db t) :
    ((issuedClaims h).Pairwise fun newer older => newer.toRunScope = older.toRunScope →
      older.fencing_token.val < newer.fencing_token.val) ∧
    (∀ now c c', Holds db c now → Holds db c' now → c.toRunScope = c'.toRunScope →
      c.owner = c'.owner ∧ c.fencing_token.val = c'.fencing_token.val) ∧
    (∀ clk claim call, ¬Holds db claim (clk.read 0) → call.fencedBy db claim →
      (∃ e, exec db clk call = .error e) ∧ committed db (exec db clk call) = db) ∧
    (∀ c ∈ issuedClaims h, ∀ c' ∈ issuedClaims h, c.toRunScope = c'.toRunScope →
      c.fencing_token.val < c'.fencing_token.val → ∀ now, ¬Holds db c now) ∧
    ∀ c ∈ issuedClaims h, ¬Holds db c t → ∀ h' db' t', Runs exec db t h' db' t' →
      ∀ now ≥ t', ¬Holds db' c now := by
  obtain ⟨hreached, hpairwise⟩ := issuedClaims_pairwise hr
  refine ⟨hpairwise, fun now c c' hc hc' hscope => hc.unique hc' hscope, ?_, ?_, ?_⟩
  · intro clk claim call hdead hfenced
    cases hexec : exec db clk call with
    | ok result => exact absurd (holds_of_fenced hexec hfenced) hdead
    | error e => exact ⟨⟨e, rfl⟩, rfl⟩
  · intro c hc c' hc' hscope hlt now hholds
    obtain ⟨r, hr, hvalid⟩ := hholds
    obtain ⟨r', hr', hle⟩ := hreached c' hc'
    rw [← hscope, hr] at hr'
    cases hr'
    obtain ⟨-, -, -, htoken, -⟩ := validOn_iff.mp hvalid
    omega
  · intro c hc hdead h' db' t' hr' now hnow hholds
    exact hdead (Holds.of_evolves (hreached c hc) (Runs.evolves hr') (hholds.earlier (hr'.le.trans hnow)))

/-- Once the lease has ended, the claim can do nothing. -/
theorem fencing_expired : sampleClaim ∈ issuedClaims sampleHistory ∧ Holds sampleDatabase sampleClaim 2 ∧
      ∃ e, @exec sampleHashing sampleDatabase (.still 3600000002)
        (.renew sampleClaim 3600000000) = .error e := by
  refine ⟨by decide, ⟨RunRow.claimed sampleOwner 3600000002 1 sampleRun.toRunRow, by decide,
    by decide⟩, ?_⟩
  refine ((@fencing sampleHashing _ _ _ _ sample_history).2.2.1 (.still 3600000002) sampleClaim
    (.renew sampleClaim 3600000000) ?_ rfl).1
  rintro ⟨r, hrow, hvalid⟩
  have hrow' : sampleDatabase.run sampleClaim.toRunScope =
    some (RunRow.claimed sampleOwner 3600000002 1 sampleRun.toRunRow) := by decide
  cases Option.some.inj (hrow.symm.trans hrow')
  revert hvalid
  decide

/-! ## Attempts -/

/-- The attempt that `set_status` finishes was started, and it is the only row that changes. The token that is stored
in it is the one of the claim exactly when it is the one of the record that was handed in. -/
theorem attempt_finished_by_claim_iff {clk : Clock Time} {attempt result : AttemptRecord} {status : AttemptStatus}
    {claim : ExecutionClaim} {db db' : Database} (h : setStatus db clk attempt status claim = .ok (db', result)) :
    ∃ stored ∈ db.attempts.rows, stored.toRunScope = claim.toRunScope ∧ stored.attempt_id = attempt.attempt_id ∧
      stored.status = .started ∧ Holds db claim (clk.read 0) ∧
      (∀ a, a ∈ db'.attempts.rows ↔ a ∈ db.attempts.rows ∧ a ≠ stored ∨ a = { stored with status := status }) ∧
      (stored.fencing_token = claim.fencing_token ↔ stored.fencing_token = attempt.fencing_token) := by
  simp only [setStatus, ok_iff, statement_eq_ok, requireLease_eq_ok] at h
  obtain ⟨⟨hscope, htoken⟩, -, hholds, stored, hfound, hstarted, attempts, hupdate, rfl, -⟩ := h
  obtain ⟨hget, hmatches⟩ := Option.filter_eq_some_iff.mp hfound
  obtain ⟨hmem, hkey⟩ := Table.get_eq_some.mp hget
  simp only [attemptSchema_key, Prod.mk.injEq] at hkey
  simp only [Bool.and_eq_true, beq_iff_eq] at hmatches
  have hsame : stored.toRunScope = attempt.toRunScope := by
    rw [RunScope.mk.injEq, CaseScope.mk.injEq]
    exact ⟨⟨hkey.1, hmatches.1⟩, hkey.2.1⟩
  refine ⟨stored, hmem, hsame.trans hscope, hkey.2.2, hstarted, hholds, fun a => ?_, by rw [htoken]⟩
  rw [Table.mem_update hget hupdate]
  refine or_congr_left (and_congr_right fun ha => not_congr ⟨fun h => ?_, fun h => ?_⟩)
  · exact Table.eq_of_key_eq ha hmem (h.trans (Table.key_of_get hget).symm)
  · rw [h, Table.key_of_get hget]

/-- An attempt of the first claim. -/
def sampleAttempt : AttemptRecord :=
  ⟨sampleScope, ⟨"step-1", Eq.refl true⟩, ⟨"attempt-1", Eq.refl true⟩, .one, .one, .started⟩

/-- The Run is claimed, and then an attempt starts. -/
def attemptCalls : List (Time × Call) :=
  sampleCalls ++ [(3, .createStep ⟨sampleScope, ⟨"step-1", Eq.refl true⟩, .model, .one⟩), (4, .createAttempt sampleAttempt)]

def attemptDatabase : Database := replay (@exec sampleHashing) Database.empty attemptCalls

/-- The claim that started the attempt finishes it. -/
theorem attempt_finished_by_claim_iff_own : ∃ db' result,
    setStatus attemptDatabase (.still 5) sampleAttempt .succeeded sampleClaim = .ok (db', result) ∧
      sampleAttempt ∉ db'.attempts.rows ∧ sampleAttempt.fencing_token = sampleClaim.fencing_token := by
  have hrows : attemptDatabase.attempts.rows = [sampleAttempt] := by decide
  obtain ⟨⟨db', result⟩, h⟩ : ∃ r, setStatus attemptDatabase (.still 5) sampleAttempt .succeeded sampleClaim = .ok r :=
    ⟨_, rfl⟩
  obtain ⟨stored, hmem, -, -, -, -, hchanged, htoken⟩ := attempt_finished_by_claim_iff h
  rw [hrows, List.mem_singleton] at hmem
  subst hmem
  refine ⟨db', result, h, fun hkept => ?_, htoken.mpr rfl⟩
  rcases (hchanged _).mp hkept with ⟨-, hne⟩ | hsame
  · exact hne rfl
  · cases hsame

/-- The claim that has taken the Run over. -/
def laterClaim : ExecutionClaim := ⟨sampleScope, ⟨"worker-2", Eq.refl true⟩, .two⟩

/-- The Run is taken over after the attempt has started. -/
def takenOverCalls : List (Time × Call) :=
  attemptCalls ++ [(3600000003, .claim sampleScope.tenant_id sampleScope.run_id laterClaim.owner 3600000000)]

/-- The second claim hands in the attempt of the first one under its own token, and finishes it. -/
theorem attempt_finished_by_stranger :
    let db := replay (@exec sampleHashing) Database.empty takenOverCalls
    let db' := committed db (@exec sampleHashing db (.still 3600000004)
      (.setStatus { sampleAttempt with fencing_token := .two } .succeeded laterClaim))
    @History sampleHashing (trace (@exec sampleHashing) Database.empty takenOverCalls) 0 db 3600000003 ∧
      sampleAttempt ∈ db.attempts.rows ∧ sampleAttempt ∉ db'.attempts.rows ∧
      sampleAttempt.fencing_token ≠ laterClaim.fencing_token := by
  refine ⟨replay_runs (@exec sampleHashing) takenOverCalls Database.empty 0 (by decide), ?_, ?_, ?_⟩
  · decide
  · decide
  · decide

end Aftercare
