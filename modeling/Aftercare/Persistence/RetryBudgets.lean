import Mathlib.Algebra.BigOperators.Group.List.Basic
import Mathlib.Algebra.Ring.Int.Defs
import Aftercare.Persistence.Database
import Aftercare.Relational.History

/-!
# Retry budgets

`configure_retry_budget` and `reserve_retry` of the admission repository, on the rows of one Run: every statement names
the Run, so that calls for different Runs do not meet. The maximum of a budget is checked by the code and by the table,
and it may be configured again at any time; what the budget has used is always the sum of its reservations.
-/

namespace Aftercare

open Relational

/-- A row of `aftercare_retry_budgets`. -/
structure RetryBudget where
  (max_retries retries_used : ℤ)
deriving DecidableEq, Repr

/-- The constraints of migration 007 on a retry budget. -/
def RetryBudget.check (b : RetryBudget) : Bool :=
  decide (0 ≤ b.max_retries ∧ b.max_retries ≤ maxInt ∧ 0 ≤ b.retries_used ∧ b.retries_used ≤ b.max_retries)

/-- A row of `aftercare_retry_reservations`. -/
structure RetryRow where
  retry_key : String
  units : ℤ
deriving DecidableEq, Repr

@[simps]
def retrySchema : Schema RetryRow String where
  key := RetryRow.retry_key
  clash _ _ := false
  check r := decide (0 < r.units ∧ r.units ≤ maxInt)

/-- The rows of one Run. -/
structure RetryStore where
  budget : Option RetryBudget
  reservations : Table retrySchema

def RetryStore.used (s : RetryStore) : ℤ := (s.budget.map (·.retries_used)).getD 0

def RetryStore.reserved (s : RetryStore) : ℤ := (s.reservations.rows.map (·.units)).sum

structure RetryReservation extends RetryRow where
  remaining : ℤ
  replayed : Bool
deriving DecidableEq, Repr

/-- `configure_retry_budget`: a new budget has used nothing, and an old one keeps what it has used. -/
def configureRetryBudget (s : RetryStore) (max_retries : ℤ) : Result RetryStore := do
  require (0 ≤ max_retries) (.contract .invalidInput "max_retries must be non-negative")
  let budget : RetryBudget := ⟨max_retries, s.used⟩
  require (budget.check = true) (.database "aftercare_retry_budgets")
  pure { s with budget := some budget }

def reserveRetry (s : RetryStore) (retry_key : String) (units : ℤ) : Result (RetryStore × RetryReservation) := do
  require (retry_key ≠ "" ∧ 1 ≤ units) (.contract .invalidInput "invalid retry reservation")
  let budget ← fetch s.budget (.contract .retryable "retry budget is not configured")
  let remaining := budget.max_retries - budget.retries_used
  match s.reservations.get retry_key with
  | some row => do
    require (row.units = units) (.contract .conflict "retry key reused with different units")
    pure (s, ⟨⟨retry_key, units⟩, remaining, true⟩)
  | none => do
    require (units ≤ remaining) (.contract .budgetExhausted "retry budget exhausted")
    let reservations ← statement "aftercare_retry_reservations" (s.reservations.insert ⟨retry_key, units⟩)
    let charged : RetryBudget := { budget with retries_used := budget.retries_used + units }
    require (charged.check = true) (.database "aftercare_retry_budgets")
    pure (⟨some charged, reservations⟩, ⟨⟨retry_key, units⟩, remaining - units, false⟩)

inductive RetryCall
  | configure (max_retries : ℤ)
  | reserve (retry_key : String) (units : ℤ)
deriving DecidableEq, Repr

def retryExec : Engine RetryStore Time RetryCall (Option RetryReservation) Failure := fun s _ c =>
  match c with
  | .configure max_retries => return (← configureRetryBudget s max_retries, none)
  | .reserve retry_key units => do
    let (s, reservation) ← reserveRetry s retry_key units
    return (s, some reservation)

abbrev RetryTransaction := Transaction RetryStore Time RetryCall (Option RetryReservation) Failure

variable {s s' : RetryStore} {retry_key : String} {units : ℤ} {reservation : RetryReservation} {clk : Clock Time}
  {c : RetryCall} {o : Option RetryReservation} {row : RetryRow} {t₀ t : Time} {h : List RetryTransaction}

/-! ## One call -/

/-- A new key is charged. -/
structure Charges (s s' : RetryStore) (row : RetryRow) : Prop where
  absent : s.reservations.get row.retry_key = none
  stored : s'.reservations.rows = s.reservations.rows ++ [row]
  used : s'.used = s.used + row.units
  bounded : ∀ b ∈ s'.budget, b.retries_used ≤ b.max_retries

theorem RetryBudget.bounded_of_check {b : RetryBudget} (h : b.check = true) : b.retries_used ≤ b.max_retries := by
  rw [RetryBudget.check, decide_eq_true_eq] at h
  exact h.2.2.2

theorem reserveRetry_cases (h : reserveRetry s retry_key units = .ok (s', reservation)) :
    (retry_key ≠ "" ∧ 1 ≤ units) ∧ s'.budget.isSome ∧
      if reservation.replayed then s' = s else Charges s s' ⟨retry_key, units⟩ := by
  simp only [reserveRetry, ok_iff] at h
  obtain ⟨hvalid, budget, hbudget, h⟩ := h
  refine ⟨hvalid, ?_⟩
  split at h
  · simp only [ok_iff] at h
    obtain ⟨-, rfl, rfl⟩ := h
    exact ⟨by rw [hbudget]; rfl, rfl⟩
  · rename_i habsent
    simp only [ok_iff, statement_eq_ok] at h
    obtain ⟨-, reservations, hinsert, hcheck, rfl, rfl⟩ := h
    refine ⟨rfl, habsent, (Table.insert_eq_ok hinsert).2.2, ?_, fun b hb => ?_⟩
    · rw [RetryStore.used, RetryStore.used, hbudget]
      rfl
    · cases hb
      exact RetryBudget.bounded_of_check hcheck

/-- The budget has used the sum of the reservations and not more than its maximum. -/
structure RetryStore.Balanced (s : RetryStore) : Prop where
  sum : s.used = s.reserved
  bounded : ∀ b ∈ s.budget, b.retries_used ≤ b.max_retries

theorem Charges.balanced (h : Charges s s' row) (hs : s.used = s.reserved) : s'.used = s'.reserved := by
  rw [h.used, hs, RetryStore.reserved, RetryStore.reserved, h.stored, List.map_append, List.sum_append]
  simp

/-- **A call keeps the balance**, and no reservation and no budget is lost. -/
theorem retryExec_keeps (hexec : retryExec s clk c = .ok (s', o)) : (s.Balanced → s'.Balanced) ∧
    (s.budget.isSome → s'.budget.isSome) ∧ ∀ row ∈ s.reservations.rows, row ∈ s'.reservations.rows := by
  cases c <;> simp only [retryExec, ok_iff, Prod.exists] at hexec
  case configure =>
    obtain ⟨_, h, rfl, -⟩ := hexec
    simp only [configureRetryBudget, ok_iff] at h
    obtain ⟨-, hcheck, rfl⟩ := h
    refine ⟨fun hs => ⟨hs.sum, fun b hb => ?_⟩, fun _ => rfl, fun _ => id⟩
    cases hb
    exact RetryBudget.bounded_of_check hcheck
  case reserve =>
    obtain ⟨_, reservation, h, rfl, -⟩ := hexec
    obtain ⟨-, hbudget, hcases⟩ := reserveRetry_cases h
    split_ifs at hcases with hreplayed
    · rw [hcases]
      exact ⟨id, id, fun _ => id⟩
    · refine ⟨fun hs => ⟨hcases.balanced hs.sum, hcases.bounded⟩, fun _ => hbudget, fun row hrow => ?_⟩
      rw [hcases.stored]
      exact List.mem_append_left _ hrow

/-- What a reservation is answered with whose key has a row. -/
theorem reserveRetry_again (hrow : row ∈ s.reservations.rows) (hbudget : s.budget.isSome)
    (hvalid : row.retry_key ≠ "" ∧ 1 ≤ row.units) :
    if row.units = units then
      ∃ remaining, reserveRetry s row.retry_key units = .ok (s, ⟨⟨row.retry_key, units⟩, remaining, true⟩)
    else ∃ e, reserveRetry s row.retry_key units = .error e := by
  obtain ⟨budget, hbudget⟩ := Option.isSome_iff_exists.mp hbudget
  have hget : s.reservations.get row.retry_key = some row := Table.get_of_mem hrow
  unfold reserveRetry
  split_ifs with hsame
  · subst hsame
    rw [(require_eq_ok (u := ())).mpr hvalid, hbudget, hget]
    refine ⟨budget.max_retries - budget.retries_used, ?_⟩
    simp only [fetch, ok_bind]
    rfl
  · by_cases hone : row.retry_key ≠ "" ∧ 1 ≤ units
    · refine ⟨.contract .conflict "retry key reused with different units", ?_⟩
      rw [(require_eq_ok (u := ())).mpr hone, hbudget, hget]
      simp only [fetch, ok_bind, require, if_neg hsame]
      rfl
    · refine ⟨.contract .invalidInput "invalid retry reservation", ?_⟩
      rw [require, if_neg hone]
      rfl

/-! ## Whole histories -/

/-- **Retry budgets.** In every history the budget has used the sum of the reservations and no more than its maximum. A
call that is refused or replayed changes nothing; a key that was charged is replayed with its units ever after, and
refused with others. -/
theorem retry_budgets_kept (hr : Runs retryExec ⟨none, .empty⟩ t₀ h s t) :
    (s.used = s.reserved ∧ ∀ b ∈ s.budget, b.retries_used ≤ b.max_retries) ∧
    (∀ τ ∈ h, ∀ e, τ.outcome = .error e → τ.after = τ.before) ∧
    ∀ later τ earlier, h = later ++ τ :: earlier → ∀ retry_key units reservation, τ.call = .reserve retry_key units →
      τ.outcome = .ok (τ.after, some reservation) →
      if reservation.replayed then τ.after = τ.before
      else Charges τ.before τ.after ⟨retry_key, units⟩ ∧ ∀ τ' ∈ later, ∀ units', τ'.call = .reserve retry_key units' →
        if units = units' then
          ∃ remaining, τ'.outcome = .ok (τ'.before, some ⟨⟨retry_key, units'⟩, remaining, true⟩)
        else ∃ e, τ'.outcome = .error e := by
  have hbalanced := hr.invariant (fun s _ => s.Balanced) (fun _ hs => hs) (fun hs h => (retryExec_keeps h).1 hs)
    ⟨rfl, fun b hb => by cases hb⟩
  refine ⟨⟨hbalanced.sum, hbalanced.bounded⟩, fun τ hτ e he => by rw [Transaction.after, he]; rfl, ?_⟩
  rintro later τ earlier rfl retry_key units reservation hcall houtcome
  obtain ⟨-, -, -, hexec⟩ := hr.split
  rw [hcall, houtcome] at hexec
  have hcalled := hexec.symm
  simp only [retryExec, ok_iff, Prod.exists, Option.some.injEq] at hcalled
  obtain ⟨_, _, hreserve, rfl, rfl⟩ := hcalled
  obtain ⟨hvalid, hbudget, hcases⟩ := reserveRetry_cases hreserve
  split_ifs at hcases ⊢
  · exact hcases
  refine ⟨hcases, fun τ' hτ' units' hcall' => ?_⟩
  -- The row and its budget stay, and the row has passed the checks of the call that stored it.
  have hkept := hr.stable_later (P := fun s => s.budget.isSome ∧ (⟨retry_key, units⟩ : RetryRow) ∈ s.reservations.rows)
    (fun s clk c hs => by
      cases hexec : retryExec s clk c with
      | error e => exact hs
      | ok r => exact ⟨(retryExec_keeps hexec).2.1 hs.1, (retryExec_keeps hexec).2.2 _ hs.2⟩)
    ⟨hbudget, hcases.stored ▸ List.mem_append_right _ List.mem_cons_self⟩ hτ'
  obtain ⟨-, -, -, -, houtcome'⟩ := hr.before (List.mem_append_left _ hτ')
  have hagain := @reserveRetry_again _ units' _ hkept.2 hkept.1 hvalid
  rw [houtcome', hcall', retryExec]
  split_ifs at hagain ⊢ with hunits
  · obtain ⟨remaining, hagain⟩ := hagain
    exact ⟨remaining, by rw [hagain]; rfl⟩
  · obtain ⟨e, hagain⟩ := hagain
    exact ⟨e, by rw [hagain]; rfl⟩

/-- A budget is lowered to what was used of it, and its key is replayed. -/
def retryCalls : List (Time × RetryCall) :=
  [(1, .configure 3), (2, .reserve "key-1" 2), (3, .configure 2), (4, .reserve "key-1" 2)]

theorem retry_budgets_kept_lowered : (replay retryExec ⟨none, .empty⟩ retryCalls).used = 2 ∧
    (replay retryExec ⟨none, .empty⟩ retryCalls).reserved = 2 := by
  have hr := replay_runs retryExec retryCalls ⟨none, .empty⟩ 0 (by decide)
  rw [← (retry_budgets_kept hr).1.1]
  exact ⟨by decide, by decide⟩

end Aftercare
