import Aftercare.System.Ledger

/-!
# What an idempotency key stands for

A reservation that is answered through the business key of an older action leaves no row, so its idempotency key
stays free. `request_key_owned` says that this is the only way for a key to be answered with two requests, and for a
reservation that has succeeded to be refused when it is repeated.
-/

namespace Aftercare

open Relational

variable {a : ActionRecord} {intent : ActionIntent} {db db' : Database} {clk : Clock Time}

/-- The intents agree on all but the case and the idempotency key. -/
structure ActionIntent.SameRequest (a b : ActionIntent) : Prop where
  action_id : a.action_id = b.action_id
  order_id : a.order_id = b.order_id
  action_type : a.action_type = b.action_type
  business_key : a.business_key = b.business_key
  parameters_sha256 : a.parameters_sha256 = b.parameters_sha256
  amount_minor : a.amount_minor = b.amount_minor
  currency : a.currency = b.currency
  provider_idempotency_key : a.provider_idempotency_key = b.provider_idempotency_key
  approval_required : a.approval_required = b.approval_required

/-- An action is the one that an intent reserves, under its own ids. -/
structure ActionRecord.Reserves (a : ActionRecord) (intent : ActionIntent) : Prop where
  stands : a.StandsFor intent
  action_id : a.action_id = intent.action_id
  idempotency_key : a.idempotency_key = intent.idempotency_key

theorem ActionRecord.Reserves.same {intent' : ActionIntent} (h : a.Reserves intent)
    (h' : a.Reserves intent') : intent.SameRequest intent' where
  action_id := h.action_id.symm.trans h'.action_id
  order_id := h.stands.order_id.symm.trans h'.stands.order_id
  action_type := h.stands.action_type.symm.trans h'.stands.action_type
  business_key := h.stands.business_key.symm.trans h'.stands.business_key
  parameters_sha256 := h.stands.parameters_sha256.symm.trans h'.stands.parameters_sha256
  amount_minor := h.stands.amount_minor.symm.trans h'.stands.amount_minor
  currency := h.stands.currency.symm.trans h'.stands.currency
  provider_idempotency_key := h.stands.provider_idempotency_key.symm.trans h'.stands.provider_idempotency_key
  approval_required := h.stands.approval_required.symm.trans h'.stands.approval_required

/-- The business key was reserved under the intent's own key. -/
def OwnBusinessKey (db : Database) (intent : ActionIntent) : Prop :=
  ∀ a ∈ db.actions.rows, a.tenant_id = intent.tenant_id → a.business_key = intent.business_key →
    a.idempotency_key = intent.idempotency_key

theorem reserveConflict_reserves (h : reserveConflict db intent = .ok a) (hown : OwnBusinessKey db intent) :
    a.Reserves intent := by
  obtain ⟨hmem, hstands⟩ := reserveConflict_eq_ok h
  have hkey : a.idempotency_key = intent.idempotency_key := hown a hmem hstands.tenant_id hstands.business_key
  refine ⟨hstands, ?_, hkey⟩
  simp only [reserveConflict, ok_iff] at h
  obtain ⟨-, h⟩ := h
  split at h
  · simp only [ok_iff] at h
    obtain ⟨⟨hid, -⟩, rfl⟩ := h
    exact hid
  · -- The action would have been found by its idempotency key.
    rename_i hnone
    simp only [ok_iff] at h
    obtain ⟨-, current, hfind, -, rfl⟩ := h
    have habsent := List.find?_eq_none.mp hnone current (List.mem_of_find?_eq_some hfind)
    simp [hkey] at habsent

variable {claim : Option ExecutionClaim} {replayed : Bool}

theorem reserve_reserves (h : reserve db clk intent claim = .ok (db', a, replayed)) (hown : OwnBusinessKey db intent) :
    a ∈ db'.actions.rows ∧ a.Reserves intent := by
  obtain ⟨hmem, hstands⟩ := reserve_standsFor h
  refine ⟨hmem, ?_⟩
  cases reserve_cases h with
  | inserted => exact ⟨hstands, rfl, rfl⟩
  | found hignored hconflict => exact reserveConflict_reserves hconflict hown

theorem reserve_checked {clk' : Clock Time} (h : reserve db clk intent claim = .ok (db', a, replayed)) :
    actionSchema.check (intent.row clk') = true := by
  cases reserve_cases h with
  | inserted hnew => exact (Table.insert_eq_ok hnew).1
  | found hignored => exact (Table.insertOrIgnore_ignored.mp hignored).1

theorem reserve_of_reserves (ha : a ∈ db.actions.rows) (hreserves : a.Reserves intent)
    (hcheck : ∀ clk', actionSchema.check (intent.row clk') = true)
    (hclaim : requireClaim db clk intent claim = .ok ()) : reserve db clk intent claim = .ok (db, a, true) := by
  refine reserve_of_found hclaim (Table.insertOrIgnore_ignored.mpr ⟨hcheck _, a, ha, fun hapart => hapart.1 ?_⟩)
    (reserveConflict_of_ids ha hreserves.stands hreserves.action_id hreserves.idempotency_key)
  exact congrArg₂ Prod.mk hreserves.stands.tenant_id hreserves.action_id

theorem reserve_keeps {result : ActionRecord} (h : reserve db clk intent claim = .ok (db', result, replayed))
    (ha : a ∈ db.actions.rows) :
    a ∈ db'.actions.rows := by
  cases reserve_cases h with
  | inserted hnew => exact (Table.mem_insert hnew).mpr (.inl ha)
  | found => exact ha

/-! ## Histories of reservations -/

/-- A transaction is a reservation over its own business key. -/
def ReservesOwn (τ : CallTransaction) : Prop :=
  ∃ intent claim, τ.call = .reserve intent claim ∧ OwnBusinessKey τ.before intent

theorem Runs.reserved [Hashing] {h : List CallTransaction} {db₀ : Database} {t₀ t : Time}
    (hr : Runs exec db₀ t₀ h db t) (hown : ∀ τ ∈ h, ReservesOwn τ) {τ : CallTransaction} (hτ : τ ∈ h)
    (hcall : τ.call = .reserve intent claim) (hok : τ.outcome = .ok (db', .action a replayed)) :
    a ∈ db.actions.rows ∧ a.Reserves intent ∧ ∀ clk, actionSchema.check (intent.row clk) = true := by
  induction hr with
  | refl => cases hτ
  | @call h db t clk c _ _ ih =>
    obtain ⟨intent', claim', hcall', hown'⟩ := hown _ List.mem_cons_self
    dsimp only at hcall' hown'
    subst hcall'
    have hrest := fun τ hτ => hown τ (List.mem_cons_of_mem _ hτ)
    rcases List.mem_cons.mp hτ with rfl | hτ
    · cases hcall
      dsimp only at hok
      rw [hok, committed_ok]
      simp only [exec, ok_iff, Output.action.injEq, Prod.exists] at hok
      obtain ⟨_, _, _, hreserve, rfl, rfl, rfl⟩ := hok
      obtain ⟨hmem, hreserves⟩ := reserve_reserves hreserve hown'
      exact ⟨hmem, hreserves, fun _ => reserve_checked hreserve⟩
    · obtain ⟨hmem, hreserves, hcheck⟩ := ih hrest hτ
      refine ⟨?_, hreserves, hcheck⟩
      cases hexec : exec db clk (.reserve intent' claim') with
      | error e => exact hmem
      | ok r =>
        simp only [exec, ok_iff, Prod.exists] at hexec
        obtain ⟨_, _, _, hreserve, rfl⟩ := hexec
        exact reserve_keeps hreserve hmem

/-- **An idempotency key stands for one request** in every history in which an action that already has the business key of
an intent was reserved under the intent's idempotency key. -/
theorem request_key_owned [Hashing] {h : List (Transaction Database Time Call Output Failure)}
    {db₀ db : Database} {t₀ t : Time} (hr : Runs exec db₀ t₀ h db t)
    (hown : ∀ τ ∈ h, ∃ intent claim, τ.call = .reserve intent claim ∧
      ∀ a ∈ τ.before.actions.rows, a.tenant_id = intent.tenant_id →
        a.business_key = intent.business_key → a.idempotency_key = intent.idempotency_key) :
    (∀ τ ∈ h, ∀ τ' ∈ h, ∀ intent claim intent' claim' db₁ db₁' a a' replayed replayed',
      τ.call = .reserve intent claim → τ.outcome = .ok (db₁, .action a replayed) →
      τ'.call = .reserve intent' claim' → τ'.outcome = .ok (db₁', .action a' replayed') →
      intent.tenant_id = intent'.tenant_id → intent.idempotency_key = intent'.idempotency_key →
      intent.SameRequest intent' ∧ a = a') ∧
    ∀ τ ∈ h, ∀ intent claim db₁ a replayed, τ.call = .reserve intent claim →
      τ.outcome = .ok (db₁, .action a replayed) →
      ∀ clk, requireClaim db clk intent claim = .ok () →
        exec db clk (.reserve intent claim) = .ok (db, .action a true) := by
  constructor
  · intro τ hτ τ' hτ' intent claim intent' claim' db₁ db₁' a a' replayed replayed' hcall hok hcall' hok'
      htenant hkey
    obtain ⟨hmem, hreserves, -⟩ := Runs.reserved hr hown hτ hcall hok
    obtain ⟨hmem', hreserves', -⟩ := Runs.reserved hr hown hτ' hcall' hok'
    -- Both actions are stored, and a tenant has one action with an idempotency key.
    have heq : a = a' := by
      refine Database.action_unique hmem hmem' ?_ (.inr (.inr ?_))
      · rw [hreserves.stands.tenant_id, htenant, hreserves'.stands.tenant_id]
      · rw [hreserves.idempotency_key, hkey, hreserves'.idempotency_key]
    subst heq
    exact ⟨hreserves.same hreserves', rfl⟩
  · intro τ hτ intent claim db₁ a replayed hcall hok clk hclaim
    obtain ⟨hmem, hreserves, hcheck⟩ := Runs.reserved hr hown hτ hcall hok
    simp only [exec, ok_iff, Prod.exists]
    exact ⟨_, a, true, reserve_of_reserves hmem hreserves hcheck hclaim, rfl, rfl⟩

def repeatedCalls : List (Time × Call) :=
  [(3, .reserve sampleIntent none), (4, .reserve sampleIntent (some sampleClaim))]

theorem request_key_owned_repeated : ∃ db a,
    @exec sampleHashing db (.still 5) (.reserve sampleIntent none) = .ok (db, .action a true) := by
  have hr := replay_runs (@exec sampleHashing) repeatedCalls sampleDatabase 2 (by decide)
  have hown : ∀ τ ∈ trace (@exec sampleHashing) sampleDatabase repeatedCalls,
      ∃ intent claim, τ.call = .reserve intent claim ∧
        ∀ a ∈ τ.before.actions.rows, a.tenant_id = intent.tenant_id →
          a.business_key = intent.business_key → a.idempotency_key = intent.idempotency_key := by
    rw [repeatedCalls, forall_mem_trace_cons, forall_mem_trace_cons]
    exact ⟨⟨_, _, rfl, by decide⟩, ⟨_, _, rfl, by decide⟩, by simp [trace]⟩
  have hfirst : ⟨sampleDatabase, .still 3, .reserve sampleIntent none, _⟩ ∈
      trace (@exec sampleHashing) sampleDatabase repeatedCalls :=
    List.mem_append_right _ List.mem_cons_self
  exact ⟨_, _, (@request_key_owned sampleHashing _ _ _ _ _ hr hown).2 _ hfirst sampleIntent none _ _ _
    rfl rfl (.still 5) rfl⟩

/-- Another refund, under the idempotency key of the alias. -/
def otherIntent : ActionIntent :=
  { sampleIntent with
    action_id := ⟨"refund-3", Eq.refl true⟩
    business_key := ⟨"order-1:shipping", Eq.refl true⟩
    idempotency_key := aliasIntent.idempotency_key }

/-- The key of an alias is taken, and the alias is refused when repeated. -/
theorem request_key_reused : ∃ db₁ a db₂ db₃ b message,
    @exec sampleHashing sampleDatabase (.still 3) (.reserve sampleIntent none) =
        .ok (db₁, .action a false) ∧
      @exec sampleHashing db₁ (.still 4) (.reserve aliasIntent none) = .ok (db₂, .action a true) ∧
      @exec sampleHashing db₂ (.still 5) (.reserve otherIntent none) = .ok (db₃, .action b false) ∧
      aliasIntent.tenant_id = otherIntent.tenant_id ∧
      aliasIntent.idempotency_key = otherIntent.idempotency_key ∧
      ¬aliasIntent.SameRequest otherIntent ∧ a.action_id ≠ b.action_id ∧
      @exec sampleHashing db₃ (.still 6) (.reserve aliasIntent none) =
        .error (.contract .conflict message) := by
  refine ⟨_, _, _, _, _, _, rfl, rfl, rfl, rfl, rfl, fun h => ?_, by decide, rfl⟩
  exact absurd h.action_id (by decide)

end Aftercare
