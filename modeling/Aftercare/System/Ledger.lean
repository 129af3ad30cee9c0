import Aftercare.System.Queue

/-!
# The approval gate of the action ledger

An action that needs an approval is requested only under an approval of that very action, which somebody else than
its requester gave and which has not expired (`Vouched`). `Settled` rows are never written again. An intent may
collide with up to three actions by its keys: `reservation_idempotent`.
-/

namespace Aftercare

open Relational

variable {db db' : Database} {t t₀ stop : Time} {c : Call}
  {h : List CallTransaction} {a b : ActionRecord} {s : ActionState}

variable {gate : Gate}

/-! ## What is decided stays decided -/

def ActionState.final : ActionState → Bool
  | .confirmed | .failed => true
  | _ => false

/-- The final actions and the decided approvals stay. -/
structure KeepsDecided (db db' : Database) : Prop where
  actions : ∀ a ∈ db.actions.rows, a.state.final = true → a ∈ db'.actions.rows
  approvals : ∀ p ∈ db.approvals.rows, p.decision ≠ .pending → p ∈ db'.approvals.rows

theorem KeepsDecided.of_eq (hactions : db'.actions = db.actions)
    (happrovals : db'.approvals = db.approvals) : KeepsDecided db db' :=
  ⟨fun _ ha _ => hactions ▸ ha, fun _ hp _ => happrovals ▸ hp⟩

theorem KeepsDecided.trans {mid : Database} (h : KeepsDecided db mid) (h' : KeepsDecided mid db') :
    KeepsDecided db db' :=
  ⟨fun a ha hfinal => h'.actions a (h.actions a ha hfinal) hfinal,
    fun p hp hdecided => h'.approvals p (h.approvals p hp hdecided) hdecided⟩

variable {start : Time}

theorem Write.actions_eq (h : Write gate start stop db db') : db'.actions = db.actions := by
  cases h <;> rfl

theorem Write.keepsDecided (h : Write gate start stop db db') : KeepsDecided db db' := by
  cases h <;> try exact .of_eq rfl rfl
  case requestApproval hgate a hpending hcase haction h =>
    exact ⟨fun a ha _ => ha, fun p hp _ => (Table.mem_insert h).mpr (.inl hp)⟩
  case decideApproval k f a hgate hget hpending hrequest happroved h =>
    refine ⟨fun a ha _ => ha, fun p hp hdecided => Table.mem_update_of_ne hget h hp ?_⟩
    -- The approval that is decided here was pending.
    rintro rfl
    exact hdecided hpending

theorem ActionStep.keepsDecided {actions : Table actionSchema} (h : ActionStep t db actions) :
    KeepsDecided db { db with actions := actions } := by
  refine ⟨fun a ha hfinal => ?_, fun p hp _ => hp⟩
  cases h with
  | reserve action hstate h => exact (Table.mem_insert h).mpr (.inl ha)
  | move hget htransition hgate h =>
    refine Table.mem_update_of_ne hget h ha ?_
    -- A final action has no transition.
    rintro rfl
    revert htransition
    cases hstate : a.state <;> simp_all [ActionState.final, ActionState.transitions]

theorem Writes.keepsDecided (h : Writes gate start stop db db') : KeepsDecided db db' ∧ db'.actions = db.actions := by
  induction h with
  | refl => exact ⟨.of_eq rfl rfl, rfl⟩
  | tail _ hlast ih => exact ⟨ih.1.trans hlast.keepsDecided, hlast.actions_eq.trans ih.2⟩

theorem Effect.keepsDecided (h : Effect start stop db c db') : KeepsDecided db db' :=
  h.rule (fun hwrites => hwrites.keepsDecided.1) (fun hmid => ⟨hmid.1, hmid.2⟩)
    (fun _ hstep => hstep.keepsDecided) (fun _ _ => .of_eq rfl rfl)

theorem exec_keepsDecided [Hashing] (db : Database) (clk : Clock Time) (c : Call) :
    KeepsDecided db (committed db (exec db clk c)) := by
  cases hexec : exec db clk c with
  | error e => exact .of_eq rfl rfl
  | ok result => exact (exec_effect hexec).keepsDecided

theorem Runs.keepsDecided [Hashing] {t' : Time} (hr : Runs exec db t h db' t') : KeepsDecided db db' := by
  induction hr with
  | refl => exact .of_eq rfl rfl
  | call clk c _ _ ih => exact ih.trans (exec_keepsDecided _ clk c)

/-! ## Approvals are given by others -/

/-- An approval was given by somebody else than its requester. -/
def GivenByOthers (db : Database) : Prop :=
  ∀ p ∈ db.approvals.rows, p.decision = .approved →
    ∃ approver, p.approver = some approver ∧ approver ≠ p.requested_by

theorem Write.givenByOthers (hdb : GivenByOthers db) (h : Write gate start stop db db') : GivenByOthers db' := by
  cases h <;> try exact hdb
  case requestApproval hgate a hpending hcase haction h =>
    intro p hp happroved
    rcases (Table.mem_insert h).mp hp with hp | rfl
    · exact hdb p hp happroved
    · cases hpending.symm.trans happroved
  case decideApproval k f a hgate hget hpending hrequest hother h =>
    intro p hp happroved
    rcases (Table.mem_update hget h).mp hp with ⟨hp, -⟩ | rfl
    · exact hdb p hp happroved
    · have hrequester : (f a).requested_by = a.requested_by := by rw [hrequest]
      rw [hrequester]
      exact hother happroved

theorem Effect.givenByOthers (hdb : GivenByOthers db) (h : Effect start stop db c db') : GivenByOthers db' :=
  h.rule (fun hwrites => hwrites.invariant (fun hdb h => h.givenByOthers hdb) hdb) (fun hmid => hmid)
    (fun _ _ => hdb) (fun _ _ => hdb)

theorem History.givenByOthers [Hashing] (hr : History h t₀ db t) : GivenByOthers db := by
  refine hr.invariant (fun db _ => GivenByOthers db) (fun _ hdb => hdb) ?_ ?_
  · intro db clk c db' o hdb hexec
    exact (exec_effect hexec).givenByOthers hdb
  · intro p hp
    cases hp

/-! ## The gate -/

/-- A transaction took an action from `RESERVED` to `REQUESTED`. -/
def Requests (τ : CallTransaction) (a : ActionRecord) : Prop :=
  (∃ before ∈ τ.before.actions.rows, before.toActionIntent = a.toActionIntent ∧ before.state = .reserved) ∧
    ∃ after ∈ τ.after.actions.rows, after.toActionIntent = a.toActionIntent ∧
      after.state = .requested

/-- The approval of a requested action, and the transaction. -/
def Vouched (h : List CallTransaction) (db : Database) (a : ActionRecord) : Prop :=
  ∃ p ∈ db.approvals.rows, ∃ τ ∈ h, Requests τ a ∧
    ∃ now, τ.clock.read 0 ≤ now ∧ now ≤ τ.clock.stop ∧ Permits p a now

/-- The states of an action that was requested and has not failed. -/
def ActionState.dispatched : ActionState → Bool
  | .requested | .unknown | .confirmed => true
  | .reserved | .failed => false

theorem Vouched.later (τ : CallTransaction) (hv : Vouched h db a)
    (hkeep : KeepsDecided db db') : Vouched (τ :: h) db' a := by
  obtain ⟨p, hp, τ', hτ', hrequests, now, hstart, hstop, hpermits⟩ := hv
  have hdecided : p.decision ≠ .pending := by
    rw [hpermits.approved]
    decide
  exact ⟨p, hkeep.approvals p hp hdecided, τ', List.mem_cons_of_mem _ hτ', hrequests, now, hstart, hstop, hpermits⟩

theorem Vouched.congr (hab : a.toActionIntent = b.toActionIntent) (hv : Vouched h db a) : Vouched h db b := by
  obtain ⟨p, hp, τ, hτ, ⟨hbefore, hafter⟩, now, hstart, hstop, hpermits⟩ := hv
  refine ⟨p, hp, τ, hτ, ⟨?_, ?_⟩, now, hstart, hstop, ?_⟩
  · simpa only [← hab] using hbefore
  · simpa only [← hab] using hafter
  · exact ⟨hpermits.scope.trans (congrArg (·.toCaseScope) hab), hpermits.same_action.trans (congrArg (·.action_id) hab),
      hpermits.parameters.trans (congrArg (·.parameters_sha256) hab), hpermits.approved,
      hpermits.current⟩

theorem ActionState.reserved_of_requested (h : .requested ∈ s.transitions) : s = .reserved := by
  cases s <;> simp [ActionState.transitions] at h ⊢

theorem ActionState.dispatched_of_transition {s' : ActionState} (h : s' ∈ s.transitions)
    (hs' : s'.dispatched = true) (hne : s' ≠ .requested) : s.dispatched = true := by
  cases s <;> cases s' <;>
    simp_all [ActionState.transitions, ActionState.dispatched]

/-- An action was there, reserved, or moved through the gate. -/
theorem Effect.action_origin (h : Effect start stop db c db') (ha : a ∈ db'.actions.rows) :
    a ∈ db.actions.rows ∨ a.state = .reserved ∨ ∃ b ∈ db.actions.rows, b.toActionIntent = a.toActionIntent ∧
        a.state ∈ b.state.transitions ∧
        (a.state = .requested → b.approval_required = true →
          ∃ p ∈ db.approvals.rows, ∃ now, start ≤ now ∧ now ≤ stop ∧ Permits p b now) := by
  revert ha
  refine h.rule (fun hwrites ha => .inl (hwrites.keepsDecided.2 ▸ ha)) (fun hmid => hmid) ?_ (fun _ _ => .inl)
  intro t actions ht hstep ha
  cases hstep with
  | reserve action hstate h =>
    rcases (Table.mem_insert h).mp ha with ha | rfl
    · exact .inl ha
    · exact .inr (.inl hstate)
  | @move b _ _ _ _ hget htransition hgate h =>
    rcases (Table.mem_update hget h).mp ha with ⟨ha, -⟩ | rfl
    · exact .inl ha
    · refine .inr (.inr ⟨b, Table.mem_of_get hget, rfl, htransition, fun hrequested hrequired => ?_⟩)
      obtain ⟨p, hp, hpermits⟩ := hgate hrequested hrequired
      exact ⟨p, hp, t, ht.1, ht.2, hpermits⟩

theorem Vouched.of_gate {τ : CallTransaction} {p : ApprovalRecord} {now : Time} (ha : a ∈ τ.after.actions.rows)
    (hb : b ∈ τ.before.actions.rows) (hintent : b.toActionIntent = a.toActionIntent)
    (hbefore : b.state = .reserved) (hafter : a.state = .requested) (hp : p ∈ τ.before.approvals.rows)
    (hstart : τ.clock.read 0 ≤ now) (hstop : now ≤ τ.clock.stop) (hpermits : Permits p b now)
    (hkeep : KeepsDecided τ.before τ.after) : Vouched (τ :: h) τ.after a := by
  have hdecided : p.decision ≠ .pending := by
    rw [hpermits.approved]
    decide
  have hb' : Vouched (τ :: h) τ.after b := ⟨p, hkeep.approvals p hp hdecided, τ, List.mem_cons_self,
      ⟨⟨b, hb, rfl, hbefore⟩, a, ha, hintent.symm, hafter⟩, now, hstart, hstop, hpermits⟩
  exact hb'.congr hintent

/-- **Every action that was requested is vouched for.** -/
theorem History.vouched [Hashing] (hr : History h t₀ db t) :
    ∀ a ∈ db.actions.rows, a.approval_required = true → a.state.dispatched = true →
      Vouched h db a := by
  induction hr with
  | refl =>
    intro a ha
    cases ha
  | @call h s u clk c hr hle ih =>
    intro a ha hrequired hstate
    have hkeep := exec_keepsDecided s clk c
    cases hexec : exec s clk c with
    | error e =>
      rw [hexec] at ha
      exact (ih a ha hrequired hstate).later _ (.of_eq rfl rfl)
    | ok result =>
      rw [hexec] at ha hkeep
      rcases (exec_effect hexec).action_origin ha with
        hold | hreserved | ⟨b, hb, hintent, htransition, hgate⟩
      · exact (ih a hold hrequired hstate).later _ hkeep
      · rw [hreserved] at hstate
        cases hstate
      · have hrequired' : b.approval_required = true := by rw [hintent]; exact hrequired
        by_cases hrequested : a.state = .requested
        · obtain ⟨p, hp, now, hstart, hstop, hpermits⟩ := hgate hrequested hrequired'
          rw [hrequested] at htransition
          exact Vouched.of_gate ha hb hintent (ActionState.reserved_of_requested htransition)
            hrequested hp hstart hstop hpermits hkeep
        · have hb' := ActionState.dispatched_of_transition htransition hstate hrequested
          exact ((ih b hb hrequired' hb').later _ hkeep).congr hintent

/-- **The approval gate.** In every history, an action that needs an approval and was requested has an approved approval of
the same action, by somebody else than its requester, that had not expired when it was requested. What is decided stays
exactly as it is. -/
theorem approval_gate [Hashing] {h : List (Transaction Database Time Call Output Failure)} {t₀ t : Time}
    {db : Database} (hr : History h t₀ db t) : (∀ a ∈ db.actions.rows, a.approval_required = true →
      a.state = .requested ∨ a.state = .unknown ∨ a.state = .confirmed →
      ∃ p ∈ db.approvals.rows, p.decision = .approved ∧ p.toCaseScope = a.toCaseScope ∧
        p.action_id = a.action_id ∧ p.action_parameters_sha256 = a.parameters_sha256 ∧
        (∃ approver, p.approver = some approver ∧ approver ≠ p.requested_by) ∧
        ∃ τ ∈ h, Requests τ a ∧
          ∃ now, τ.clock.read 0 ≤ now ∧ now ≤ τ.clock.stop ∧ now < p.expires_at) ∧
    ∀ h' db' t', Runs exec db t h' db' t' →
      (∀ a ∈ db.actions.rows, a.state = .confirmed ∨ a.state = .failed → a ∈ db'.actions.rows) ∧
      ∀ p ∈ db.approvals.rows, p.decision ≠ .pending → p ∈ db'.approvals.rows := by
  constructor
  · intro a ha hrequired hstate
    have hdispatched : a.state.dispatched = true := by
      rcases hstate with hstate | hstate | hstate <;> rw [hstate] <;> rfl
    obtain ⟨p, hp, τ, hτ, hrequests, now, hstart, hstop, hpermits⟩ :=
      hr.vouched a ha hrequired hdispatched
    exact ⟨p, hp, hpermits.approved, hpermits.scope, hpermits.same_action, hpermits.parameters,
      hr.givenByOthers p hp hpermits.approved, τ, hτ, hrequests, now, hstart, hstop,
      hpermits.current⟩
  · intro h' db' t' hr'
    have hkeep := Runs.keepsDecided hr'
    refine ⟨fun a ha hstate => hkeep.actions a ha ?_, hkeep.approvals⟩
    rcases hstate with hstate | hstate <;> rw [hstate] <;> rfl

def sampleIntent : ActionIntent where
  toCaseScope := sampleScope.toCaseScope
  order_id := sampleCase.order_id
  action_id := ⟨"refund-1", Eq.refl true⟩
  action_type := ⟨"refund", Eq.refl true⟩
  business_key := ⟨"order-1:refund", Eq.refl true⟩
  idempotency_key := ⟨"key-1", Eq.refl true⟩
  parameters_sha256 := sampleDigest
  amount_minor := ⟨1250, by decide, by decide⟩
  currency := ⟨"EUR", Eq.refl true⟩
  provider_idempotency_key := none
  approval_required := true

def sampleApproval : ApprovalRequest where
  toCaseScope := sampleScope.toCaseScope
  approval_id := ⟨"approval-1", Eq.refl true⟩
  action_id := sampleIntent.action_id
  action_parameters_sha256 := sampleDigest
  policy_version := ⟨"v1", Eq.refl true⟩
  requested_by := ⟨"agent-1", Eq.refl true⟩
  expires_at := 1000
  binding := none

/-- The refund is reserved, approved by a manager and requested. -/
def refundCalls : List (Time × Call) :=
  sampleCalls ++
    [(3, .reserve sampleIntent (some sampleClaim)), (4, .requestApproval 4 sampleApproval),
      (5, .decideApproval 5 sampleScope.tenant_id sampleApproval.approval_id
        ⟨"manager-1", Eq.refl true⟩ .approved ⟨"key-2", Eq.refl true⟩ none),
      (6, .markRequested sampleIntent.action_id sampleClaim (some sampleApproval.approval_id)
        (some sampleApproval.policy_version))]

/-- The gate at the history of the refund. -/
theorem approval_gate_refund : ∃ a ∈ (replay (@exec sampleHashing) Database.empty refundCalls).actions.rows,
      a.approval_required = true ∧ a.state = .requested ∧
      ∃ p ∈ (replay (@exec sampleHashing) Database.empty refundCalls).approvals.rows,
        p.decision = .approved ∧ p.action_id = a.action_id ∧
        ∃ τ ∈ trace (@exec sampleHashing) Database.empty refundCalls, Requests τ a := by
  have hr : @History sampleHashing _ 0 _ _ :=
    replay_runs (@exec sampleHashing) refundCalls Database.empty 0 (by decide)
  have ha : ActionRecord.moved .requested sampleClaim.fencing_token ⟨none, none, none⟩ 6
      (sampleIntent.row (.still 3)) ∈
        (replay (@exec sampleHashing) Database.empty refundCalls).actions.rows := by decide
  obtain ⟨p, hp, happroved, -, haction, -, -, τ, hτ, hrequests, -⟩ :=
    (@approval_gate sampleHashing _ _ _ _ hr).1 _ ha rfl (.inl rfl)
  exact ⟨_, ha, rfl, rfl, p, hp, happroved, haction, τ, hτ, hrequests⟩

/-! ## Reservations -/

theorem Database.action_unique (ha : a ∈ db.actions.rows) (hb : b ∈ db.actions.rows)
    (htenant : a.tenant_id = b.tenant_id)
    (hshared : a.action_id = b.action_id ∨ a.business_key = b.business_key ∨
      a.idempotency_key = b.idempotency_key) : a = b := by
  by_contra hne
  obtain ⟨hkey, hclash, -⟩ := db.actions.apart.forall ha hb hne
  rcases hshared with haction | hbusiness | hidempotency
  · exact hkey (by rw [actionSchema_key, actionSchema_key, htenant, haction])
  · simp [htenant, hbusiness] at hclash
  · simp [htenant, hidempotency] at hclash

theorem requireClaim_again {clk clk' : Clock Time} {intent : ActionIntent} {claim : Option ExecutionClaim}
    {replayed : Bool} (h : reserve db clk intent claim = .ok (db', a, replayed))
    (hread : clk'.read 0 = clk.read 0) : requireClaim db' clk' intent claim = .ok () := by
  have hclaim : requireClaim db clk intent claim = .ok () := by
    simp only [reserve, ok_iff] at h
    exact h.1
  have hdb : ∃ actions, db' = { db with actions := actions } := by
    rcases reserve_acts h with rfl | ⟨-, actions, -, -, hactions⟩
    · exact ⟨db'.actions, rfl⟩
    · exact ⟨actions, hactions⟩
  obtain ⟨actions, rfl⟩ := hdb
  unfold requireClaim at hclaim ⊢
  rw [hread]
  exact hclaim

/-- **Reservation is idempotent and never aliases money.** A reservation that succeeds returns a stored action of the same
order, type, parameters and amount as its intent, and the same one when it is made again. -/
theorem reservation_idempotent [Hashing] {h : List (Transaction Database Time Call Output Failure)} {t₀ t : Time}
    {db : Database} (hr : History h t₀ db t) :
    (∀ a ∈ db.actions.rows, ∀ b ∈ db.actions.rows, a.tenant_id = b.tenant_id →
      a.action_id = b.action_id ∨ a.business_key = b.business_key ∨
        a.idempotency_key = b.idempotency_key → a = b) ∧
    ∀ τ ∈ h, ∀ intent claim, τ.call = .reserve intent claim →
      (∀ e, τ.outcome = .error e → τ.after.actions = τ.before.actions) ∧
      ∀ db' o, τ.outcome = .ok (db', o) → ∃ a replayed, o = .action a replayed ∧
        a ∈ db'.actions.rows ∧ a.StandsFor intent ∧
        ∀ clk' : Clock Time, clk'.read 0 = τ.clock.read 0 ∨ requireClaim db' clk' intent claim = .ok () →
          exec db' clk' (.reserve intent claim) = .ok (db', .action a true) := by
  refine ⟨fun a ha b hb => Database.action_unique ha hb, ?_⟩
  intro τ hτ intent claim hcall
  obtain ⟨-, -, -, -, houtcome⟩ := hr.before hτ
  refine ⟨fun e herror => ?_, fun db' o hok => ?_⟩
  · unfold Transaction.after
    rw [herror, committed_error]
  · rw [houtcome, hcall] at hok
    simp only [exec, ok_iff, Prod.exists] at hok
    obtain ⟨_, a, replayed, hreserve, rfl, rfl⟩ := hok
    obtain ⟨hmem, hstands⟩ := reserve_standsFor hreserve
    refine ⟨a, replayed, rfl, hmem, hstands, fun clk' hagain => ?_⟩
    have hclaim : requireClaim _ clk' intent claim = .ok () :=
      hagain.elim (requireClaim_again hreserve) id
    simp only [exec, ok_iff, Prod.exists]
    exact ⟨_, a, true, reserve_again hreserve hclaim, rfl, rfl⟩

/-- A second request for the same refund, under other ids. -/
def aliasIntent : ActionIntent :=
  { sampleIntent with action_id := ⟨"refund-2", Eq.refl true⟩, idempotency_key := ⟨"key-9", Eq.refl true⟩ }

/-- The refund is reserved, and then asked for again under other ids. -/
def aliasCalls : List (Time × Call) :=
  sampleCalls ++ [(3, .reserve sampleIntent (some sampleClaim)), (4, .reserve aliasIntent none)]

/-- The second request returns the refund that is there. -/
theorem reservation_idempotent_alias :
    ∃ db' a, a.action_id = sampleIntent.action_id ∧ a ∈ db'.actions.rows ∧ a.StandsFor aliasIntent ∧
      @exec sampleHashing db' (.still 5) (.reserve aliasIntent none) = .ok (db', .action a true) := by
  have hr : @History sampleHashing _ 0 _ _ :=
    replay_runs (@exec sampleHashing) aliasCalls Database.empty 0 (by decide)
  have hlast : ⟨_, .still 4, .reserve aliasIntent none, _⟩ ∈
      trace (@exec sampleHashing) Database.empty aliasCalls := List.mem_cons_self
  obtain ⟨a, replayed, ho, ha, hstands, hagain⟩ :=
    ((@reservation_idempotent sampleHashing _ _ _ _ hr).2 _ hlast aliasIntent none rfl).2 _ _ rfl
  refine ⟨_, a, ?_, ha, hstands, hagain (.still 5) (.inr rfl)⟩
  cases ho
  rfl

end Aftercare
