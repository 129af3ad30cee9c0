import Aftercare.Runtime.Dispatch
import Aftercare.System.Parking
import Aftercare.System.Waking

/-!
# What becomes of a provider's receipt

If a receipt confirms nothing, the error that reports it rolls back its recording and the move of the Run.
`receipt_kept` says when the outcome is kept, and what keeps an action from being sent twice: the intent of an
action that was sent (`Sent`), and a Run that runs or is completed (`Taken`), are left alone.
-/

namespace Aftercare

open Relational

variable {c : DispatchCall} {k : RunKey} {clk : Clock Time} {r : RunRow} {case : SyntheticCase}
  {approval : ApprovalSlice} {receipt : ProviderReceipt} {a result : ActionRecord}
  {P : Database → Prop}

variable {gate : Gate} {start stop : Time} {db db' : Database} {claim : ExecutionClaim}
  {action : ActionRecord}

/-! ## Calls keep what was sent -/

/-- The case exists, and the action is stored with its intent. -/
def Sent (claim : ExecutionClaim) (action : ActionRecord) (db : Database) : Prop :=
  (db.cases.get claim.toCaseScope).isSome = true ∧
    ∃ a, db.actions.get (action.tenant_id, action.action_id) = some a ∧
      a.toActionIntent = action.toActionIntent

theorem Write.sent (hs : Sent claim action db) (h : Write gate start stop db db') : Sent claim action db' := by
  cases h <;> try exact hs
  case cases cases kept => exact ⟨kept _ hs.1, hs.2⟩

theorem ActionStep.sent {t : Time} {actions : Table actionSchema} (hs : Sent claim action db)
    (h : ActionStep t db actions) : Sent claim action { db with actions := actions } := by
  obtain ⟨hcase, a, ha, hintent⟩ := hs
  refine ⟨hcase, ?_⟩
  cases h with
  | reserve new hstate h =>
    refine ⟨a, ?_, hintent⟩
    have hne : (action.tenant_id, action.action_id) ≠ actionSchema.key new := by
      intro heq
      rw [heq, Table.get_none_of_insert h] at ha
      cases ha
    exact (Table.get_insert h _).trans ((if_neg hne).trans ha)
  | @move b _ _ _ _ hget htransition hgate h =>
    have hafter := Table.get_update h (action.tenant_id, action.action_id)
    split_ifs at hafter with hk
    · rw [hget] at hafter
      rw [hk, hget] at ha
      cases ha
      exact ⟨_, hafter, hintent⟩
    · exact ⟨a, hafter.trans ha, hintent⟩

theorem Effect.sent {c : Call} (hs : Sent claim action db) (h : Effect start stop db c db') :
    Sent claim action db' := by
  exact h.rule (fun hwrites => hwrites.invariant Write.sent hs) (fun hmid => hmid)
    (fun _ hstep => hstep.sent hs) (fun _ _ => hs)

/-! ## Calls keep a Run that is taken -/

/-- The states of a Run that was claimed and has not been sent back. -/
def RunState.taken : RunState → Bool
  | .running | .completed | .cancelled => true
  | _ => false

/-- A Run was claimed, and it was not sent back since. -/
def Taken (k : RunKey) (db : Database) : Prop :=
  ∃ r, db.runs.runs.get k = some r ∧ r.state.taken = true

theorem Taken.update {k' : RunKey} {runs : RunStore} {f : RunRow → RunRow} (ht : Taken k db)
    (hr : db.runs.runs.get k' = some r) (hf : k' = k → r.state.taken = true → (f r).state.taken = true)
    (h : db.runs.update k' f clk = .ok runs) : Taken k { db with runs := runs } := by
  obtain ⟨x, hx, hstate⟩ := ht
  obtain ⟨-, -, hget, -, -⟩ := RunStore.update_spec hr h
  have hafter := hget k
  split_ifs at hafter with hk
  · subst hk
    cases Option.some.inj (hx.symm.trans hr)
    exact ⟨_, hafter, hf rfl hstate⟩
  · exact ⟨x, hafter.trans hx, hstate⟩

theorem RunMove.taken {t : Time} {r' : RunRow} (h : RunMove t r r') (ht : r.state.taken = true) :
    r'.state.taken = true := by
  cases h with
  | claim owner leaseUntil h => rfl
  | wake hstate hdue =>
    rw [hstate] at ht
    cases ht
  | review target hstate htarget =>
    rw [hstate] at ht
    cases ht

theorem Write.taken (ht : Taken k db) (h : Write gate start stop db db') : Taken k db' := by
  cases h <;> try exact ht
  case createRun runs clk run hclk hcase h =>
    obtain ⟨r, hr, hstate⟩ := ht
    obtain ⟨-, hnone, hget, -, -⟩ := RunStore.insert_spec h
    refine ⟨r, (hget k).trans ((if_neg ?_).trans hr), hstate⟩
    intro hk
    rw [hk, hnone] at hr
    cases hr
  case moveRun hclk ht' hr hmove h => exact ht.update hr (fun _ => hmove.taken) h
  case renew runs t leaseUntil r claim ht' hr hvalid h =>
    obtain ⟨x, hx, hstate⟩ := ht
    have hafter := (RunStore.extend_spec h).1 k
    split_ifs at hafter with hk
    · rw [← hk, hx] at hafter
      exact ⟨_, hafter, hstate⟩
    · exact ⟨x, hafter.trans hx, hstate⟩

/-- A transition of the Run that does not end it. -/
def Call.Releases (k : RunKey) : Call → Prop
  | .transition claim target _ => claim.key = k ∧ target ≠ .completed ∧ target ≠ .cancelled
  | _ => False

theorem Effect.taken {c : Call} (ht : Taken k db) (hc : ¬c.Releases k)
    (h : Effect start stop db c db') : Taken k db' := by
  cases h with
  | resolves c h =>
    cases h with
    | writes h => exact h.invariant Write.taken ht
    | settle hprepare hruns hget hopen hwait hsettle hevents =>
      have hmid := hprepare.invariant Write.taken ht
      obtain ⟨events, -, rfl⟩ := hevents
      obtain ⟨-, -, -, -, hr, hwaits, -, -, -, hrun⟩ := hsettle
      rename_i r _
      refine hmid.update (Database.run_eq_some.mp hr).1 (fun _ hstate => ?_) hrun
      -- The Run of the wait waits, so it is not taken.
      simp only [RunRow.waitsFor, Bool.and_eq_true] at hwaits
      have hwaiting := hwaits.1.1
      cases hr : r.state <;> rw [hr] at hstate hwaiting <;> cases hstate <;> cases hwaiting
  | acts c h =>
    obtain ⟨r, hr, hstate⟩ := ht
    refine ⟨r, ?_, hstate⟩
    rw [h.runs_eq]
    exact hr
  | transitions claim target args h =>
    obtain ⟨-, -, hr, -, -, -, -, -, hupdate⟩ := h
    refine ht.update (Database.run_eq_some.mp hr).1 (fun hk _ => ?_) hupdate
    have htarget : target = .completed ∨ target = .cancelled := by
      by_contra hnot
      exact hc ⟨hk, not_or.mp hnot⟩
    rcases htarget with rfl | rfl
    · rfl
    · rfl
  | saves checkpoint claim h =>
    obtain ⟨checkpoints, -, rfl⟩ := h
    exact ht

/-! ## The transactions of a dispatcher -/

/-- The effects of one transaction, which sends no Run back. -/
def Effects (c : DispatchCall) : Database → Database → Prop :=
  Relation.ReflTransGen fun db db' => ∃ start stop call,
    ((∀ k, ¬call.Releases k) ∨ c = .other call) ∧ Effect start stop db call db'

theorem requestRefund_eq_ok (h : requestRefund db clk case approval = .ok (db', claim, action)) : ∃ mid,
      Aftercare.claim db clk case.tenant_id approval.run_id syntheticProviderWorker 30000000 = .ok (mid, claim) ∧
      (∃ a, markRequested mid (clk.drop 4) approval.action_id claim (some approval.approval_id)
        (some refundPolicy) = .ok (db', a)) ∧
      db'.actions.get (case.tenant_id, approval.action_id) = some action := by
  simp only [requestRefund, ok_iff, Prod.exists] at h
  obtain ⟨mid, c, hclaim, db₁, a, hrequested, x, hget, rfl, rfl, rfl⟩ := h
  exact ⟨mid, hclaim, ⟨a, hrequested⟩, hget⟩

theorem recordRefund_eq_ok : recordRefund db clk claim receipt = .ok (db', result) ↔
      ∃ mid, markReceipt db clk receipt claim = .ok (mid, result) ∧ result.state = .confirmed ∧
        ∃ run, transition mid (clk.drop 3) claim .completed .none = .ok (db', run) := by
  simp only [recordRefund, bind_eq_ok, Prod.exists]
  constructor
  · rintro ⟨mid, a, hreceipt, h⟩
    split_ifs at h with hstate
    · simp only [bind_eq_ok, reduceCtorEq, and_false, exists_false] at h
    · simp only [ok_iff, Prod.exists] at h
      obtain ⟨_, run, htransition, rfl, rfl⟩ := h
      exact ⟨mid, hreceipt, not_not.mp hstate, run, htransition⟩
  · rintro ⟨mid, hreceipt, hstate, run, htransition⟩
    refine ⟨mid, result, hreceipt, ?_⟩
    rw [if_neg (not_not.mpr hstate)]
    simp only [ok_iff, Prod.exists]
    exact ⟨db', run, htransition, rfl, trivial⟩

theorem Effects.call {c : DispatchCall} {call : Call} (h : Effect start stop db call db')
    (hkept : (∀ k, ¬call.Releases k) ∨ c = .other call) : Effects c db db' :=
  .single ⟨start, stop, call, hkept, h⟩

theorem approveRefund_eq_ok [Hashing] {now : Time} {key : Identifier} {reference : Option Identifier}
    (h : approveRefund db clk now case approval key = .ok (db', reference)) : ∃ decided,
      decideApproval db clk now case.tenant_id approval.approval_id syntheticOps .approved key
        (some "synthetic policy matched") = .ok (db', decided) := by
  simp only [approveRefund, ok_iff, Prod.exists] at h
  obtain ⟨-, mid, decided, hdecide, -, h⟩ := h
  split at h
  · simp only [ok_iff] at h
    obtain ⟨_, -, rfl, -⟩ := h
    exact ⟨decided, hdecide⟩
  · cases h
    exact ⟨decided, hdecide⟩

theorem dispatch_effects [Hashing] {o : DispatchOutput} (h : dispatch db clk c = .ok (db', o)) : Effects c db db' := by
  cases c with
  | approve now case approval key =>
    simp only [dispatch, ok_iff, Prod.exists] at h
    obtain ⟨_, _, happrove, rfl, -⟩ := h
    obtain ⟨decided, hdecide⟩ := approveRefund_eq_ok happrove
    exact .call (.resolves (.decideApproval now case.tenant_id approval.approval_id syntheticOps
      .approved key (some "synthetic policy matched")) (decideApproval_resolves hdecide)) (.inl fun _ => id)
  | request case approval =>
    simp only [dispatch, ok_iff, Prod.exists] at h
    obtain ⟨_, claim, action, hrequest, rfl, -⟩ := h
    obtain ⟨mid, hclaim, ⟨a, hrequested⟩, -⟩ := requestRefund_eq_ok hrequest
    have hfirst : Effects (.request case approval) db mid :=
      .call (.resolves (.claim case.tenant_id approval.run_id syntheticProviderWorker 30000000)
        (.writes (claim_writes hclaim).1)) (.inl fun _ => id)
    have hsecond : Effects (.request case approval) mid _ :=
      .call (.acts (.markRequested approval.action_id claim (some approval.approval_id)
        (some refundPolicy)) (markRequested_acts hrequested)) (.inl fun _ => id)
    exact hfirst.trans hsecond
  | record claim receipt =>
    simp only [dispatch, ok_iff, Prod.exists] at h
    obtain ⟨_, result, hrecord, rfl, -⟩ := h
    obtain ⟨mid, hreceipt, -, run, htransition⟩ := recordRefund_eq_ok.mp hrecord
    have hfirst : Effects (.record claim receipt) db mid :=
      .call (.acts (.markReceipt receipt claim) (markReceipt_acts hreceipt)) (.inl fun _ => id)
    have hsecond : Effects (.record claim receipt) mid _ :=
      .call (.transitions claim .completed .none (transition_transitions htransition))
        (.inl fun _ hreleases => hreleases.2.1 rfl)
    exact hfirst.trans hsecond
  | other call =>
    simp only [dispatch, ok_iff, Prod.exists] at h
    obtain ⟨_, output, hexec, rfl, -⟩ := h
    exact .call (exec_effect hexec) (.inr rfl)

theorem Effects.invariant (step : ∀ {db db' start stop call}, P db → Effect start stop db call db' → P db')
    (h : Effects c db db') (hP : P db) : P db' := by
  induction h with
  | refl => exact hP
  | tail _ hlast ih =>
    obtain ⟨_, _, _, -, heffect⟩ := hlast
    exact step ih heffect

theorem Effects.taken (hc : ∀ call, c = .other call → ¬call.Releases k) (h : Effects c db db')
    (ht : Taken k db) : Taken k db' := by
  induction h with
  | refl => exact ht
  | tail _ hlast ih =>
    obtain ⟨_, _, call, hkept, heffect⟩ := hlast
    exact heffect.taken ih (hkept.elim (fun hkept => hkept k) (hc call))

/-! ## Recording a receipt -/

def ProviderReceipt.outcome (receipt : ProviderReceipt) : ActionOutcome :=
  ⟨receipt.provider_reference, receipt.result_sha256, receipt.failure_code⟩

/-- A receipt moves the action on, or is already there. -/
def ActionRecord.Takes (a : ActionRecord) (receipt : ProviderReceipt) : Prop :=
  receipt.state ∈ a.state.transitions ∨ a.state = receipt.state ∧ a.outcome = receipt.outcome

theorem markReceipt_eq_ok (h : markReceipt db clk receipt claim = .ok (db', result)) : result.state = receipt.state ∧
      (∃ a, db.actions.get (claim.tenant_id, receipt.action_id) = some a ∧ a.Takes receipt) ∧
      db'.actions.get (claim.tenant_id, receipt.action_id) = some result := by
  simp only [markReceipt, markResult, lockedAction, ok_iff] at h
  obtain ⟨-, -, -, -, -, -, _, ⟨a, ha, -, rfl⟩, h⟩ := h
  split_ifs at h with hsame
  · simp only [ok_iff] at h
    obtain ⟨houtcome, rfl, rfl⟩ := h
    exact ⟨hsame, ⟨a, ha, .inr ⟨hsame, houtcome⟩⟩, ha⟩
  · simp only [updateState, ok_iff, statement_eq_ok] at h
    obtain ⟨htransition, actions, hupdate, rfl, rfl⟩ := h
    have hkey : (a.tenant_id, a.action_id) = (claim.tenant_id, receipt.action_id) := Table.key_of_get ha
    rw [hkey] at hupdate
    refine ⟨rfl, ⟨a, ha, .inl htransition⟩, ?_⟩
    exact (Table.get_update hupdate _).trans ((if_pos rfl).trans (congrArg _ ha))

theorem update_confirms {k : Identifier × Identifier} (ha : db.actions.get k = some a)
    (hstate : receipt.state = .confirmed) (token : PositiveInt) (t : Time) : ∃ actions, db.actions.update k
      (ActionRecord.moved receipt.state token receipt.outcome t) = .ok actions := by
  have houtcome := receipt.validate_outcome.1
  rw [if_pos hstate] at houtcome
  simp only [Bool.and_eq_true] at houtcome
  have hkey : actionSchema.key a = k := Table.key_of_get ha
  refine (Table.update_ok_iff ha).mpr ⟨?_, hkey, fun b hb hne => ?_⟩
  · simp [ActionRecord.check, ActionRecord.moved, ProviderReceipt.outcome, hstate, houtcome]
  · -- The keys of the row stay, and it clashed with no other.
    have hba : b ≠ a := fun heq => hne (heq ▸ hkey)
    exact (db.actions.apart.forall hb (Table.mem_of_get ha) hba).2

theorem markReceipt_confirms (hcase : (db.cases.get claim.toCaseScope).isSome = true)
    (hholds : Holds db claim clk.stop) (ha : db.actions.get (claim.tenant_id, receipt.action_id) = some a)
    (hscope : a.case_id = claim.case_id) (hkey : receipt.provider_idempotency_key = a.provider_idempotency_key)
    (hstate : receipt.state = .confirmed) (htakes : a.Takes receipt) : ∃ actions result,
      markReceipt db clk receipt claim = .ok ({ db with actions := actions }, result) := by
  have hid : (a.tenant_id, a.action_id) = (claim.tenant_id, receipt.action_id) := Table.key_of_get ha
  have hlease (i : ℕ) : claimValid db claim (clk.read i) = .ok () :=
    claimValid_eq_ok.mpr ⟨hcase, hholds.earlier (clk.le_stop i)⟩
  have houtcome : requireOutcome receipt.state receipt.outcome = .ok () := by
    have hvalid := receipt.validate_outcome.1
    rw [if_pos hstate] at hvalid
    simp only [Bool.and_eq_true] at hvalid
    simp only [requireOutcome, bind_eq_ok, exists_unit, require_eq_ok, hstate]
    exact ⟨rfl, fun _ => hvalid.1, (fun h => by cases h), fun hne => absurd rfl hne⟩
  have hlocked : lockedAction db claim receipt.action_id = .ok a := by
    simp only [lockedAction, bind_eq_ok, exists_unit, fetch_eq_ok, require_eq_ok, pure_eq_ok]
    exact ⟨a, ha, hscope, rfl⟩
  have hvalidate : validateProviderReceipt a receipt = .ok () := by
    simp only [validateProviderReceipt, bind_eq_ok, exists_unit, require_eq_ok]
    exact ⟨(congrArg Prod.snd hid).symm, hkey⟩
  have hmark : ∃ actions result, markResult db (clk.drop 1) receipt.action_id claim receipt.state
      receipt.outcome = .ok ({ db with actions := actions }, result) := by
    simp only [markResult, bind_eq_ok, exists_unit]
    by_cases hsame : a.state = receipt.state
    · refine ⟨db.actions, a, houtcome, hlease 1, a, hlocked, ?_⟩
      have hnot : receipt.state ∉ a.state.transitions := by
        rw [hsame, hstate]
        decide
      rw [if_pos hsame]
      simp only [bind_eq_ok, exists_unit, require_eq_ok, pure_eq_ok]
      exact ⟨(htakes.resolve_left hnot).2, trivial⟩
    · have hmove : receipt.state ∈ a.state.transitions := htakes.resolve_right fun h => hsame h.1
      obtain ⟨actions, hupdate⟩ := update_confirms ha hstate claim.fencing_token (clk.read 2)
      rw [← hid] at hupdate
      refine ⟨actions, a.moved receipt.state claim.fencing_token receipt.outcome (clk.read 2), houtcome,
        hlease 1, a, hlocked, ?_⟩
      rw [if_neg hsame]
      simp only [updateState, bind_eq_ok, exists_unit, require_eq_ok, statement_eq_ok, pure_eq_ok]
      exact ⟨hmove, actions, hupdate, rfl⟩
  obtain ⟨actions, result, hmark⟩ := hmark
  refine ⟨actions, result, ?_⟩
  simp only [markReceipt, bind_eq_ok, exists_unit]
  exact ⟨hlease 0, a, hlocked, hvalidate, hmark⟩

theorem transition_completes (hdb : db.Tidy)
    (hcase : (db.cases.get claim.toCaseScope).isSome = true) (hholds : Holds db claim (clk.read 0)) :
    ∃ runs run r, transition db clk claim .completed .none = .ok ({ db with runs := runs }, run) ∧
      Database.run { db with runs := runs } claim.toRunScope = some r ∧ r.state = .completed := by
  obtain ⟨case, hcase⟩ := Option.isSome_iff_exists.mp hcase
  obtain ⟨r, hrun, hvalid⟩ := hholds
  have hrunning : r.state = .running := (validOn_iff.mp hvalid).2.1
  obtain ⟨hget, hscope⟩ := Database.run_eq_some.mp hrun
  have htidy := hdb r (Table.mem_of_get hget)
  have hcheck : r.check = true := Table.check_of_get hget
  -- A Run that is completed has no lease, and one that runs had no wait.
  have hmoved : (r.moved .completed none none none).check = true := by
    simp only [RunRow.check, Bool.and_eq_true] at hcheck
    simpa [RunRow.check, RunRow.moved, RunState.waiting] using hcheck.1.2
  have hkey : (r.moved .completed none none none).key = claim.key := Table.key_of_get hget
  obtain ⟨runs, hupdate⟩ := db.runs.update_total (clk.drop 1) hget hmoved hkey
  obtain ⟨-, -, hafter, -, -⟩ := RunStore.update_spec hget hupdate
  have hbinding : requireBinding .completed none none = .ok () := rfl
  have hreads := (RunRow.coherent_iff hmoved).mpr (@RunRow.Tidy.moved r .completed .none htidy hbinding)
  refine ⟨runs, ⟨_, hreads⟩, r.moved .completed none none none, ?_, ?_, rfl⟩
  · simp only [transition, validateTransition, bind_eq_ok, exists_unit, require_eq_ok, fetch_eq_ok,
      RunRow.record_eq_ok, pure_eq_ok]
    exact ⟨rfl, by decide, case, hcase, rfl, r, hrun, ⟨r, (RunRow.coherent_iff hcheck).mpr htidy⟩, rfl,
      by simp [hrunning, RunState.transitions],
      (requireLeaseIfRunning_eq_ok hrun).mpr fun _ => hvalid, hbinding, rfl, runs, hupdate, _,
      (hafter claim.key).trans (if_pos rfl), ⟨_, hreads⟩, rfl, rfl⟩
  · exact Database.run_eq_some.mpr ⟨(hafter claim.key).trans (if_pos rfl), hscope⟩

theorem recordRefund_leaves (h : recordRefund db clk claim receipt = .ok (db', result)) : receipt.state = .confirmed ∧
      (∃ a, db.actions.get (claim.tenant_id, receipt.action_id) = some a ∧ a.Takes receipt) ∧
      db'.actions.get (claim.tenant_id, receipt.action_id) = some result ∧
      result.state = receipt.state ∧
      ∃ r, db'.run claim.toRunScope = some r ∧ r.state = .completed := by
  obtain ⟨mid, hreceipt, hconfirmed, run, htransition⟩ := recordRefund_eq_ok.mp h
  obtain ⟨hstate, htakes, hresult⟩ := markReceipt_eq_ok hreceipt
  obtain ⟨-, -, hr, -, -, -, -, -, hupdate⟩ := transition_transitions htransition
  rename_i r _ _
  obtain ⟨hget, hscope⟩ := Database.run_eq_some.mp hr
  obtain ⟨-, -, hafter, -, -⟩ := RunStore.update_spec hget hupdate
  refine ⟨hstate.symm.trans hconfirmed, htakes, hresult, hstate, r.moved .completed none none none, ?_, rfl⟩
  exact Database.run_eq_some.mpr ⟨(hafter claim.key).trans (if_pos rfl), hscope⟩

theorem recordRefund_confirms (hdb : db.Tidy) (hcase : (db.cases.get claim.toCaseScope).isSome = true)
    (hholds : Holds db claim clk.stop) (ha : db.actions.get (claim.tenant_id, receipt.action_id) = some a)
    (hscope : a.case_id = claim.case_id) (hkey : receipt.provider_idempotency_key = a.provider_idempotency_key)
    (hstate : receipt.state = .confirmed) (htakes : a.Takes receipt) :
    ∃ db' result, recordRefund db clk claim receipt = .ok (db', result) := by
  obtain ⟨actions, result, hreceipt⟩ := markReceipt_confirms hcase hholds ha hscope hkey hstate htakes
  have hdb' : Database.Tidy { db with actions := actions } := hdb
  have hholds' : Holds { db with actions := actions } claim ((clk.drop 3).read 0) := hholds.earlier (clk.le_stop 3)
  obtain ⟨runs, run, r, htransition, -⟩ := transition_completes hdb' hcase hholds'
  have hconfirmed := (markReceipt_eq_ok hreceipt).1.trans hstate
  exact ⟨_, result, recordRefund_eq_ok.mpr ⟨_, hreceipt, hconfirmed, run, htransition⟩⟩

/-! ## Sending an action -/

theorem claim_taken {tenant run_id owner : Identifier} {lease : ℤ}
    (h : Aftercare.claim db clk tenant run_id owner lease = .ok (db', claim)) :
    claim.key = (tenant, run_id) ∧ Taken (tenant, run_id) db' ∧
      ∃ r, db.runs.runs.get (tenant, run_id) = some r ∧ (r.state = .ready ∨ r.state = .running) := by
  simp only [Aftercare.claim, ok_iff, Option.filter_eq_some_iff] at h
  obtain ⟨row, ⟨hrow, hclaimable⟩, runs, hupdate, updated, hupdated, c, hc, rfl, rfl⟩ := h
  obtain ⟨-, -, hget, -, -⟩ := RunStore.update_spec hrow hupdate
  have hkey : updated.key = (tenant, run_id) := Table.key_of_get hupdated
  have hclaimed := hupdated
  rw [hget, if_pos rfl] at hclaimed
  cases hclaimed
  obtain ⟨hscope, -, -⟩ := executionClaim_eq_ok.mp hc
  refine ⟨?_, ⟨_, hupdated, rfl⟩, row, hrow, ?_⟩
  · rw [← hkey]
    exact congrArg RunScope.key hscope
  · simp only [RunRow.claimable, Bool.or_eq_true, Bool.and_eq_true, beq_iff_eq] at hclaimable
    exact hclaimable.imp_right And.left

/-- An action of the claim's case is sent, and the Run was taken. -/
structure Dispatched (db db' : Database) (case : SyntheticCase) (approval : ApprovalSlice)
    (claim : ExecutionClaim) (action : ActionRecord) : Prop where
  claim_key : claim.key = (case.tenant_id, approval.run_id)
  tenant_id : action.tenant_id = case.tenant_id
  case_id : action.case_id = claim.case_id
  action_id : action.action_id = approval.action_id
  sent : Sent claim action db'
  claimable : ∃ r, db.runs.runs.get (case.tenant_id, approval.run_id) = some r ∧
    (r.state = .ready ∨ r.state = .running)
  taken : Taken (case.tenant_id, approval.run_id) db'

theorem requestRefund_dispatched (h : requestRefund db clk case approval = .ok (db', claim, action)) :
    Dispatched db db' case approval claim action := by
  obtain ⟨mid, hclaim, ⟨a, hrequested⟩, haction⟩ := requestRefund_eq_ok h
  obtain ⟨hkey, htaken, hclaimable⟩ := claim_taken hclaim
  have hacts := markRequested_acts hrequested
  simp only [markRequested, lockedAction, claimValid_eq_ok, ok_iff] at hrequested
  obtain ⟨⟨hcase, -⟩, _, ⟨current, hcurrent, hscope, rfl⟩, -⟩ := hrequested
  have htenant : claim.tenant_id = case.tenant_id := congrArg Prod.fst hkey
  have hid : (current.tenant_id, current.action_id) = (claim.tenant_id, approval.action_id) := Table.key_of_get hcurrent
  have hid' : (action.tenant_id, action.action_id) = (case.tenant_id, approval.action_id) := Table.key_of_get haction
  -- The request keeps the intent of the action that it found.
  have hbefore : Sent claim current mid := ⟨hcase, current, by rw [hid]; exact hcurrent, rfl⟩
  obtain ⟨hcase', x, hx, hintent⟩ :=
    (Effect.acts (.markRequested approval.action_id claim none none) hacts).sent hbefore
  rw [hid, htenant, haction, Option.some.injEq] at hx
  subst hx
  refine ⟨hkey, congrArg Prod.fst hid', ?_, congrArg Prod.snd hid', ⟨hcase', action, ?_, rfl⟩, hclaimable, ?_⟩
  · rw [← hscope]
    exact congrArg (fun intent => intent.case_id) hintent
  · rw [hid']
    exact haction
  · obtain ⟨r, hr, hstate⟩ := htaken
    refine ⟨r, ?_, hstate⟩
    rw [hacts.runs_eq]
    exact hr

/-! ## All histories of dispatchers -/

section Histories

variable [Hashing] {h : List (Transaction Database Time DispatchCall DispatchOutput Failure)}
  {t₀ t : Time} {τ : Transaction Database Time DispatchCall DispatchOutput Failure}

theorem dispatch_keeps (step : ∀ {db db' start stop call}, P db → Effect start stop db call db' → P db')
    (db : Database) (clk : Clock Time) (c : DispatchCall) (hP : P db) :
    P (committed db (dispatch db clk c)) := by
  cases hc : dispatch db clk c with
  | error e => exact hP
  | ok result => exact (dispatch_effects hc).invariant step hP

theorem DispatchHistory.tidy (hr : DispatchHistory h t₀ db t) : db.Tidy := by
  induction hr with
  | refl => exact fun r hx => by cases hx
  | call clk c _ _ ih => exact dispatch_keeps (fun hdb heffect => heffect.tidy hdb) _ clk c ih

theorem DispatchHistory.dispatched (hr : DispatchHistory h t₀ db t) (hτ : τ ∈ h)
    (hsends : Sends τ claim action) : ∃ case approval, τ.call = .request case approval ∧
      Dispatched τ.before τ.after case approval claim action := by
  obtain ⟨case, approval, db', hcall, hok⟩ := hsends
  obtain ⟨_, _, -, -, houtcome⟩ := hr.before hτ
  rw [hcall, hok] at houtcome
  have hrequest := houtcome.symm
  simp only [dispatch, ok_iff, Prod.exists, DispatchOutput.requested.injEq] at hrequest
  obtain ⟨_, _, _, hrequest, rfl, rfl, rfl⟩ := hrequest
  refine ⟨case, approval, hcall, ?_⟩
  rw [Transaction.after, hok]
  exact requestRefund_dispatched hrequest

/-- No dispatch takes over a Run that still runs, those of one action go through one Run, and no other call sends such a
Run back. -/
structure Orderly (h : List (Transaction Database Time DispatchCall DispatchOutput Failure)) :
    Prop where
  takes_over_none : ∀ τ ∈ h, ∀ case approval, τ.call = .request case approval →
    ∀ r, τ.before.runs.runs.get (case.tenant_id, approval.run_id) = some r → r.state ≠ .running
  one_run : ∀ τ ∈ h, ∀ τ' ∈ h, ∀ case approval case' approval', τ.call = .request case approval →
    τ'.call = .request case' approval' → case.tenant_id = case'.tenant_id →
    approval.action_id = approval'.action_id → approval.run_id = approval'.run_id
  sends_back_none : h.Pairwise fun later earlier => ∀ claim action, Sends earlier claim action →
    ∀ call, later.call = .other call → ¬call.Releases claim.key

theorem DispatchHistory.taken (hr : DispatchHistory h t₀ db t)
    (hkept : h.Pairwise fun later earlier => ∀ claim action, Sends earlier claim action →
      ∀ call, later.call = .other call → ¬call.Releases claim.key)
    (hτ : τ ∈ h) (hsends : Sends τ claim action) : Taken claim.key db := by
  induction hr with
  | refl => cases hτ
  | @call h db t clk c hr hle ih =>
    rcases List.mem_cons.mp hτ with rfl | hτ
    · obtain ⟨case, approval, -, hdispatched⟩ :=
        DispatchHistory.dispatched (hr.call clk c hle) List.mem_cons_self hsends
      rw [hdispatched.claim_key]
      exact hdispatched.taken
    · obtain ⟨hlast, hbefore⟩ := List.pairwise_cons.mp hkept
      cases hc : dispatch db clk c with
      | error e => exact ih hbefore hτ
      | ok result =>
        exact (dispatch_effects hc).taken (hlast τ hτ claim action hsends) (ih hbefore hτ)

theorem Orderly.sends_once (hr : DispatchHistory h t₀ db t) (horderly : Orderly h) :
    h.Pairwise fun later earlier => ∀ claim action claim' action', Sends later claim action →
      Sends earlier claim' action' → action.tenant_id = action'.tenant_id →
      action.action_id ≠ action'.action_id := by
  induction hr with
  | refl => exact .nil
  | @call h db t clk c hr hle ih =>
    have hmem {τ} (hτ : τ ∈ h) := List.mem_cons_of_mem ⟨db, clk, c, dispatch db clk c⟩ hτ
    have hkept := (List.pairwise_cons.mp horderly.sends_back_none).2
    refine .cons (fun τ hτ claim action claim' action' hlater hearlier htenant haction => ?_) <| ih
      ⟨fun τ hτ => horderly.takes_over_none τ (hmem hτ),
        fun τ hτ τ' hτ' => horderly.one_run τ (hmem hτ) τ' (hmem hτ'), hkept⟩
    have hwhole := hr.call clk c hle
    obtain ⟨case, approval, hcall, hdispatched⟩ := DispatchHistory.dispatched hwhole List.mem_cons_self hlater
    obtain ⟨case', approval', hcall', hdispatched'⟩ := DispatchHistory.dispatched hr hτ hearlier
    -- Both go through one Run, which is taken since the earlier of them.
    have htenant' : case.tenant_id = case'.tenant_id := by
      rw [← hdispatched.tenant_id, ← hdispatched'.tenant_id, htenant]
    have hrun : approval.run_id = approval'.run_id := by
      refine horderly.one_run _ List.mem_cons_self τ (hmem hτ) case approval case' approval' hcall hcall' htenant' ?_
      rw [← hdispatched.action_id, ← hdispatched'.action_id, haction]
    have htaken : Taken (case.tenant_id, approval.run_id) db := by
      rw [htenant', hrun, ← hdispatched'.claim_key]
      exact DispatchHistory.taken hr hkept hτ hearlier
    obtain ⟨r, hr, hclaimable⟩ := hdispatched.claimable
    have hready : r.state = .ready := hclaimable.resolve_right
      (horderly.takes_over_none _ List.mem_cons_self case approval hcall r hr)
    obtain ⟨r', hr', hstate⟩ := htaken
    cases Option.some.inj (hr'.symm.trans hr)
    rw [hready] at hstate
    cases hstate

/-- **What becomes of a receipt.** A dispatcher whose lease holds leaves the action in the state of the receipt if and only
if the receipt is a confirmation that the stored action takes. In an orderly history no action is sent twice. -/
theorem receipt_kept (hr : DispatchHistory h t₀ db t) : (∀ τ ∈ h, ∀ claim action, Sends τ claim action →
      ∀ (receipt : ProviderReceipt) (clk : Clock Time), receipt.action_id = action.action_id →
      receipt.provider_idempotency_key = action.provider_idempotency_key →
      Holds db claim clk.stop →
      ((∃ a r, (committed db (dispatch db clk (.record claim receipt))).actions.get
          (action.tenant_id, action.action_id) = some a ∧ a.state = receipt.state ∧
        (committed db (dispatch db clk (.record claim receipt))).run claim.toRunScope = some r ∧
        r.state = if receipt.state = .confirmed then .completed else .review) ↔
      receipt.state = .confirmed ∧ ∃ a,
        db.actions.get (action.tenant_id, action.action_id) = some a ∧ a.Takes receipt)) ∧
    (Orderly h → h.Pairwise fun later earlier => ∀ claim action claim' action',
      Sends later claim action → Sends earlier claim' action' →
      action.tenant_id = action'.tenant_id → action.action_id ≠ action'.action_id) := by
  refine ⟨fun τ hτ claim action hsends receipt clk hid hkey hholds => ?_, Orderly.sends_once hr⟩
  obtain ⟨case, approval, -, hdispatched⟩ := DispatchHistory.dispatched hr hτ hsends
  obtain ⟨hcase, current, hcurrent, hintent⟩ := hr.stable
    (dispatch_keeps fun hs heffect => heffect.sent hs) hτ hdispatched.sent
  have hname : (action.tenant_id, action.action_id) = (claim.tenant_id, receipt.action_id) := by
    have htenant : claim.tenant_id = case.tenant_id := congrArg Prod.fst hdispatched.claim_key
    rw [hdispatched.tenant_id, htenant, hid]
  rw [hname] at hcurrent ⊢
  constructor
  · rintro ⟨a, r, -, -, hrun, hstate⟩
    cases hrecord : recordRefund db clk claim receipt with
    | error e =>
      -- Nothing was committed, so the Run is still running.
      have hafter : committed db (dispatch db clk (.record claim receipt)) = db := by
        simp only [dispatch, hrecord]
        rfl
      obtain ⟨r', hr', hvalid⟩ := hholds
      rw [hafter, hr', Option.some.injEq] at hrun
      subst hrun
      rw [(validOn_iff.mp hvalid).2.1] at hstate
      split_ifs at hstate
    | ok result =>
      obtain ⟨hconfirmed, htakes, -⟩ := recordRefund_leaves hrecord
      exact ⟨hconfirmed, htakes⟩
  · rintro ⟨hstate, a, ha, htakes⟩
    cases Option.some.inj (hcurrent.symm.trans ha)
    have hscope : current.case_id = claim.case_id :=
      (congrArg (fun intent => intent.case_id) hintent).trans hdispatched.case_id
    have hprovider : receipt.provider_idempotency_key = current.provider_idempotency_key :=
      hkey.trans (congrArg ActionIntent.provider_idempotency_key hintent).symm
    obtain ⟨db', result, hrecord⟩ := recordRefund_confirms (DispatchHistory.tidy hr) hcase hholds ha
      hscope hprovider hstate htakes
    obtain ⟨-, -, hresult, hresultState, r, hrun, hcompleted⟩ := recordRefund_leaves hrecord
    have hafter : committed db (dispatch db clk (.record claim receipt)) = db' := by
      simp only [dispatch, hrecord, ok_bind]
      rfl
    rw [hafter, if_pos hstate]
    exact ⟨result, r, hresult, hresultState, hrun, hcompleted⟩

end Histories

/-! ## A refund -/

/-- The refund of the fixed histories. -/
def flowCase : SyntheticCase where
  tenant_id := sampleScope.tenant_id
  approval_run_id := sampleScope.run_id
  approval_wait_id := sampleWait.wait_id
  approval_id := sampleApproval.approval_id
  action_id := sampleIntent.action_id

def flowSlice : ApprovalSlice where
  run_id := flowCase.approval_run_id
  action_id := flowCase.action_id
  approval_id := flowCase.approval_id
  wait_id := flowCase.approval_wait_id

/-- The Run is parked on an approval, which is then given. -/
def flowCalls : List (Time × DispatchCall) :=
  [(0, .other (.createCase sampleCase)), (1, .other (.createRun sampleRun)),
    (2, .other (.claim sampleScope.tenant_id sampleScope.run_id sampleOwner 3600000000)),
    (3, .other (.reserve sampleIntent (some sampleClaim))),
    (3, .other (.register (approvalWait 3) sampleClaim)),
    (4, .other (.transition sampleClaim .waitingApproval ⟨none, none, some sampleWait.wait_id, some 1, none⟩)),
    (5, .other (.activate (approvalWait 3) none)),
    (6, .other (.requestApproval 6 { boundApproval with policy_version := refundPolicy })),
    (7, .approve 7 flowCase flowSlice ⟨"decision-1", Eq.refl true⟩)]

def approvedDatabase : Database := replay (@dispatch sampleHashing) Database.empty flowCalls

def flowDatabase : Database :=
  committed approvedDatabase
    (@dispatch sampleHashing approvedDatabase (.still 8) (.request flowCase flowSlice))

def flowClaim : ExecutionClaim := ⟨sampleScope, syntheticProviderWorker, .two⟩

def flowAction : ActionRecord :=
  (sampleIntent.row (.still 3)).moved .requested flowClaim.fencing_token ⟨none, none, none⟩ 8

def confirmedReceipt : ProviderReceipt where
  action_id := sampleIntent.action_id
  provider_idempotency_key := none
  state := .confirmed
  provider_reference := some ⟨"provider-1", Eq.refl true⟩
  result_sha256 := some sampleDigest
  failure_code := none
  is_result := rfl
  validate_outcome := by decide

/-- The provider does not know what became of the refund. -/
def unknownReceipt : ProviderReceipt where
  action_id := sampleIntent.action_id
  provider_idempotency_key := none
  state := .unknown
  provider_reference := none
  result_sha256 := none
  failure_code := none
  is_result := rfl
  validate_outcome := by decide

def flowHistory : List (Transaction Database Time DispatchCall DispatchOutput Failure) :=
  ⟨approvedDatabase, .still 8, .request flowCase flowSlice, @dispatch sampleHashing approvedDatabase
    (.still 8) (.request flowCase flowSlice)⟩ ::
    trace (@dispatch sampleHashing) Database.empty flowCalls

theorem flow_history : @DispatchHistory sampleHashing flowHistory 0 flowDatabase 8 := by
  have hr := (replay_runs (@dispatch sampleHashing) flowCalls Database.empty 0 (by decide)).call
    (.still 8) (.request flowCase flowSlice) (by decide)
  exact hr

theorem flow_sends : ∃ τ ∈ flowHistory, Sends τ flowClaim flowAction :=
  ⟨_, List.mem_cons_self, flowCase, flowSlice, _, rfl, rfl⟩

theorem flow_not_request {τ : Transaction Database Time DispatchCall DispatchOutput Failure}
    (hτ : τ ∈ trace (@dispatch sampleHashing) Database.empty flowCalls) (case : SyntheticCase)
    (approval : ApprovalSlice) : τ.call ≠ .request case approval := by
  intro hcall
  have hmem := call_mem_of_mem_trace hτ
  rw [hcall] at hmem
  simp [flowCalls] at hmem

theorem flow_orderly : Orderly flowHistory where
  takes_over_none := by
    refine List.forall_mem_cons.mpr ⟨fun case approval hcall r hr => ?_, fun τ hτ case approval hcall =>
      absurd hcall (flow_not_request hτ case approval)⟩
    cases hcall
    have hready : (approvedDatabase.runs.runs.get (flowCase.tenant_id, flowSlice.run_id)).map
        RunRow.state = some .ready := by decide
    rw [hr, Option.map_some, Option.some.injEq] at hready
    rw [hready]
    decide
  one_run := by
    have hslice : ∀ τ ∈ flowHistory, ∀ case approval, τ.call = .request case approval → approval = flowSlice := by
      refine List.forall_mem_cons.mpr ⟨fun case approval hcall => ?_, fun τ hτ case approval hcall =>
        absurd hcall (flow_not_request hτ case approval)⟩
      cases hcall
      rfl
    intro τ hτ τ' hτ' case approval case' approval' hcall hcall' _ _
    rw [hslice τ hτ case approval hcall, hslice τ' hτ' case' approval' hcall']
  sends_back_none := by
    refine .cons (fun τ hτ claim action hsends => ?_) (List.pairwise_of_forall_mem_list
      fun later _ τ hτ claim action hsends => ?_)
    all_goals
      obtain ⟨case, approval, _, hcall, -⟩ := hsends
      exact absurd hcall (flow_not_request hτ case approval)

theorem receipt_kept_refund : (∃ a r, (committed flowDatabase (@dispatch sampleHashing flowDatabase (.still 9)
        (.record flowClaim confirmedReceipt))).actions.get
        (flowAction.tenant_id, flowAction.action_id) = some a ∧ a.state = .confirmed ∧
      (committed flowDatabase (@dispatch sampleHashing flowDatabase (.still 9)
        (.record flowClaim confirmedReceipt))).run flowClaim.toRunScope = some r ∧
      r.state = .completed) ∧
    flowHistory.Pairwise fun later earlier => ∀ claim action claim' action',
      Sends later claim action → Sends earlier claim' action' →
      action.tenant_id = action'.tenant_id → action.action_id ≠ action'.action_id := by
  obtain ⟨hkept, honce⟩ := @receipt_kept _ sampleHashing _ _ _ flow_history
  obtain ⟨τ, hτ, hsends⟩ := flow_sends
  refine ⟨?_, honce flow_orderly⟩
  exact (hkept τ hτ flowClaim flowAction hsends confirmedReceipt (.still 9) rfl rfl
    ⟨_, rfl, by decide⟩).mpr ⟨rfl, flowAction, by decide, .inl (by decide)⟩

/-- The outcome is not known, and the refund is sent again. -/
theorem receipt_lost : @DispatchHistory sampleHashing flowHistory 0 flowDatabase 8 ∧
    (∃ τ ∈ flowHistory, Sends τ flowClaim flowAction) ∧ Holds flowDatabase flowClaim 9 ∧
    @dispatch sampleHashing flowDatabase (.still 9) (.record flowClaim unknownReceipt) =
      .error (.contract .retryable "provider outcome is unknown and needs reconciliation") ∧
    flowDatabase.actions.rows.map (·.state) = [.requested] ∧
    flowDatabase.runs.runs.rows.map (·.state) = [.running] ∧
    ∃ db₁ db₂ claim, @dispatch sampleHashing flowDatabase (.still 30000008) (.approve 30000008 flowCase
        flowSlice ⟨"decision-1", Eq.refl true⟩) = .ok (db₁, .approved none) ∧
      @dispatch sampleHashing db₁ (.still 30000009) (.request flowCase flowSlice) =
        .ok (db₂, .requested claim flowAction) := by
  refine ⟨flow_history, flow_sends, ⟨_, rfl, by decide⟩, rfl, by decide, by decide, ?_⟩
  exact ⟨_, _, _, rfl, rfl⟩

end Aftercare
