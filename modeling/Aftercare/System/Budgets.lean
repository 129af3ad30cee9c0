import Mathlib.Algebra.Ring.Nat
import Aftercare.System.Succession

/-!
# Budgets

What a Run may still spend is written in its latest checkpoint. `Booked` says once what a transaction does to the
books of a Run, and `account_balances` is the balance along any history. For the model calls this bounds the calls
of the provider (`model_calls_bounded`); a turn that costs more than what is left is not booked
(`cost_overrun_is_free`).
-/

namespace Aftercare

open Relational Text

variable {db db' : Database} {c : Checkpoint} {requested : Option ReviewOverrideRequest}
  {e : SliceEnd} {b : RemainingBudget} {harness : ModelHarness}

/-! ## The slices of a Run -/

/-- The request of a slice, whether or not it committed. -/
def SliceEnd.request (e : SliceEnd) : Option ResponsesRequest := e.slice.request e.previous

/-- How the slice ended that a transaction executes. -/
def executed [JsonDecoding] (scope : RunScope) (τ : PoolTransaction) : Option SliceEnd :=
  match τ.call with
  | .execute w input =>
    ((τ.before.workers w).filter fun slice => slice.claim.toRunScope = scope).map fun slice =>
      { slice := ⟨slice.claim, input⟩, previous := slice.previous
        saved := (executeClaim τ.before.db τ.clock slice input).toOption.map Prod.snd }
  | _ => none

/-- A worker crashes in the middle of a slice of the Run. -/
def crashed (scope : RunScope) (τ : PoolTransaction) : Bool :=
  match τ.call with
  | .crash w => (τ.before.workers w).any fun slice => slice.claim.toRunScope = scope
  | _ => false

/-- A worker that crashes may have made its call before. -/
def adapterCalls [JsonDecoding] (scope : RunScope) (h : List PoolTransaction) : ℕ :=
  h.countP fun τ => crashed scope τ || (executed scope τ).any fun e => e.request.isSome

/-- The slices of a Run that ended without a checkpoint. -/
def uncommitted [JsonDecoding] (scope : RunScope) (h : List PoolTransaction) : ℕ :=
  h.countP fun τ => crashed scope τ || (executed scope τ).any fun e => e.saved.isNone

/-- The budget that the first committed slice opens a Run with. -/
def initialBudget [JsonDecoding] (scope : RunScope) : List PoolTransaction → Option RemainingBudget
  | [] => none
  | τ :: earlier => (initialBudget scope earlier).or ((executed scope τ).bind fun e =>
      if e.saved.isSome then (e.slice.start none).map (·.remaining_budget) else none)

/-! ## What a transaction books -/

inductive Booked [JsonDecoding] (scope : RunScope) (τ : PoolTransaction) : Prop
  /-- Nothing is written for the Run. -/
  | quiet (hrows : ∀ c : Checkpoint, c.toRunScope = scope →
        (c ∈ τ.after.db.checkpoints.rows ↔ c ∈ τ.before.db.checkpoints.rows))
      (hoverrides : (τ.after.db.overrides.select fun o => o.toRunScope == scope) =
        τ.before.db.overrides.select fun o => o.toRunScope == scope)
      (hexecuted : ∀ e ∈ executed scope τ, e.saved = none)
  /-- A slice commits what it advances to from the latest checkpoint. -/
  | committed {e : SliceEnd} {c : Checkpoint} (hexecuted : executed scope τ = some e)
      (hsaved : e.saved = some c) (hadvance : e.slice.advance e.previous = .ok c)
      (hprevious : ∀ p, e.previous = some p ↔ IsLatest τ.before.db scope p)
      (hnext : IsLatest τ.after.db scope c)
      (hinsert : τ.before.db.checkpoints.insert c = .ok τ.after.db.checkpoints)
      (hoverrides : τ.after.db.overrides = τ.before.db.overrides)
  /-- The next checkpoint has what an override adds, or the same budget. -/
  | raised {p c : Checkpoint} {requested : Option ReviewOverrideRequest}
      (hlatest : IsLatest τ.before.db scope p)
      (hbudget : c.remaining_budget = requested.elim p.remaining_budget p.remaining_budget.extended)
      (hnext : IsLatest τ.after.db scope c)
      (hinsert : τ.before.db.checkpoints.insert c = .ok τ.after.db.checkpoints)
      (hoverrides : RecordsOverride τ.before.db τ.after.db c requested)
      (hexecuted : executed scope τ = none)

theorem isLatest_of_insert {scope : RunScope} (hinsert : db.checkpoints.insert c = .ok db'.checkpoints)
    (hscope : c.toRunScope = scope)
    (hlt : ∀ c' ∈ db.checkpoints.rows, c'.toRunScope = scope → c'.checkpoint_version < c.checkpoint_version) :
    IsLatest db' scope c := by
  refine ⟨(Table.mem_insert hinsert).mpr (.inr rfl), hscope, fun c' hc' hscope' => ?_⟩
  rcases (Table.mem_insert hinsert).mp hc' with hold | rfl
  · exact (hlt c' hold hscope').le
  · exact le_rfl

theorem RecordsOverride.select (h : RecordsOverride db db' c requested) {scope : RunScope}
    (hother : c.toRunScope ≠ scope) : (db'.overrides.select fun o => o.toRunScope == scope) =
      db.overrides.select fun o => o.toRunScope == scope := by
  cases requested with
  | none =>
    have heq : db'.overrides = db.overrides := h
    rw [heq]
  | some requested =>
    obtain ⟨o, hinsert, hscope, -⟩ := h
    obtain ⟨-, -, hrows⟩ := Table.insert_eq_ok hinsert
    have hne : (o.toRunScope == scope) = false := by
      rw [hscope]
      simpa using hother
    rw [Table.select, hrows, List.filter_append, List.filter_singleton, hne]
    simp [Table.select]

section Transactions

variable [Hashing] [JsonDecoding] {scope : RunScope} {τ : PoolTransaction}

theorem executed_of_writing (hcurrent : τ.before.Current scope)
    (houtcome : τ.outcome = WorkerPool.step τ.before τ.clock τ.call)
    (he : executed scope τ = some e) (hsaved : e.saved = some c) :
    Writing τ.before τ.clock τ.call c ∧ c.toRunScope = scope ∧ e.slice.advance e.previous = .ok c ∧
      (∀ p, e.previous = some p ↔ IsLatest τ.before.db scope p) ∧
      τ.before.db.checkpoints.insert c = .ok τ.after.db.checkpoints ∧
      τ.after.db.overrides = τ.before.db.overrides := by
  unfold executed at he
  split at he
  swap
  · cases he
  rename_i w input hcall
  obtain ⟨slice, hslice, rfl⟩ := Option.map_eq_some_iff.mp he
  rw [Option.filter_eq_some_iff, decide_eq_true_iff] at hslice
  obtain ⟨hslice, hclaim⟩ := hslice
  obtain ⟨⟨db, c'⟩, hexecute, rfl⟩ := Option.map_eq_some_iff.mp hsaved
  have hexecute : executeClaim τ.before.db τ.clock slice input = .ok (db, c') := by
    cases hresult : executeClaim τ.before.db τ.clock slice input with
    | error e =>
      rw [hresult] at hexecute
      cases hexecute
    | ok result =>
      rw [hresult] at hexecute
      cases hexecute
      rfl
  obtain ⟨hwriting, hinsert, hoverrides, -, -⟩ := executeClaim_succeeds hslice hexecute
  have hafter : τ.after.db = db := by
    unfold Transaction.after
    rw [houtcome, hcall]
    simp only [WorkerPool.step, hslice, WorkerPool.finish, hexecute]
    rfl
  have hscope : c'.toRunScope = scope := by
    cases hwriting with
    | slice hslice' hadvance hholds hscope =>
      cases Option.some.inj (hslice.symm.trans hslice')
      exact hscope.trans hclaim
  refine ⟨hcall ▸ hwriting, hscope, executeClaim_advance hexecute, fun p => ?_, ?_, ?_⟩
  · -- The slice commits, so its claim holds the lease and it has read the latest checkpoint.
    cases hwriting with
    | slice hslice' hadvance hholds hscope' =>
      cases Option.some.inj (hslice.symm.trans hslice')
      obtain ⟨r, hr, hvalid⟩ := hholds
      obtain ⟨-, hrunning, -, htoken, -⟩ := validOn_iff.mp hvalid
      rw [hclaim] at hr
      exact hcurrent.current w slice r hslice hclaim hr hrunning htoken p
  · rw [hafter]
    exact hinsert
  · rw [hafter]
    exact hoverrides

/-- **What a transaction books.** -/
theorem booked (hcurrent : τ.before.Current scope) (hparks : τ.call.Parks τ.before scope)
    (houtcome : τ.outcome = WorkerPool.step τ.before τ.clock τ.call) : Booked scope τ := by
  by_cases hcommit : ∃ e c, executed scope τ = some e ∧ e.saved = some c
  · obtain ⟨e, c, he, hsaved⟩ := hcommit
    obtain ⟨hwriting, hscope, hadvance, hprevious, hinsert, hoverrides⟩ :=
      executed_of_writing hcurrent houtcome he hsaved
    exact .committed he hsaved hadvance hprevious (isLatest_of_insert hinsert hscope
      fun c' hc' hscope' => hcurrent.version_lt hparks hwriting hscope hc' hscope') hinsert hoverrides
  have hexecuted : ∀ e ∈ executed scope τ, e.saved = none := by
    intro e he
    cases hsaved : e.saved with
    | none => rfl
    | some c => exact absurd ⟨e, c, he, hsaved⟩ hcommit
  have hquiet : τ.after.db.checkpoints = τ.before.db.checkpoints →
      τ.after.db.overrides = τ.before.db.overrides → Booked scope τ := by
    intro hcheckpoints hoverrides
    refine .quiet (fun c _ => by rw [hcheckpoints]) (by rw [hoverrides]) hexecuted
  cases hstep : WorkerPool.step τ.before τ.clock τ.call with
  | error failure =>
    have hafter : τ.after = τ.before := by
      unfold Transaction.after
      rw [houtcome, hstep]
      rfl
    exact hquiet (by rw [hafter]) (by rw [hafter])
  | ok result =>
    have hafter : τ.after = result.1 := by
      unfold Transaction.after
      rw [houtcome, hstep]
      rfl
    have hsucceeds := WorkerPool.step_succeeds hstep
    rw [← hafter] at hsucceeds
    cases hsucceeds with
    | kept hcheckpoints hoverrides => exact hquiet hcheckpoints hoverrides
    | @written c hwriting hinsert hoverrides hparked =>
      by_cases hscope : c.toRunScope = scope
      swap
      · refine .quiet (fun x hx => ?_) (hoverrides.select hscope) hexecuted
        rw [Table.mem_insert hinsert, or_iff_left]
        exact fun heq => hscope (heq ▸ hx)
      have hnext : IsLatest τ.after.db scope c := isLatest_of_insert hinsert hscope
        fun c' hc' hscope' => hcurrent.version_lt hparks hwriting hscope hc' hscope'
      generalize hcall : τ.call = call at hwriting hoverrides hparks
      have hnone : (∀ w input, call ≠ .execute w input) → executed scope τ = none := by
        intro hne
        unfold executed
        rw [hcall]
        split
        · exact absurd rfl (hne _ _)
        · rfl
      cases hwriting with
      | @slice w input slice c hslice hadvance hholds hclaim =>
        -- The slice that saved a checkpoint of the Run has committed.
        exfalso
        rw [hcall] at hstep
        simp only [WorkerPool.step, hslice] at hstep
        cases hexecute : executeClaim τ.before.db τ.clock slice input with
        | error failure =>
          rw [hexecute] at hstep
          have hresult : result.1 = τ.before.setWorker w none := by
            cases hstep
            rfl
          rw [hafter, hresult] at hinsert
          have hlength := congrArg List.length (Table.insert_eq_ok hinsert).2.2
          simp [WorkerPool.setWorker] at hlength
        | ok saved =>
          refine hcommit ⟨⟨⟨slice.claim, input⟩, slice.previous, some saved.2⟩, saved.2, ?_, rfl⟩
          unfold executed
          rw [hcall]
          simp only [hslice, Option.filter_some, hclaim.symm.trans hscope, decide_true, if_true,
            Option.map_some, hexecute]
          rfl
      | @override _ _ _ _ _ _ _ requested review run p hreview hrun hstate hlatest =>
        have hsame : review.toRunScope = scope := hlatest.scope_eq.symm.trans hscope
        rw [hsame] at hlatest
        exact .raised hlatest rfl hnext hinsert hoverrides (hnone fun w input heq => by cases heq)
      | @migration _ request _ run p hrun hstate hlatest =>
        have hsame : request.toRunScope = scope := hlatest.scope_eq.symm.trans hscope
        rw [hsame] at hlatest
        exact .raised hlatest rfl hnext hinsert hoverrides (hnone fun w input heq => by cases heq)
      | host hholds hclaim =>
        obtain ⟨p, hp, -, hbudget⟩ := (hparks hscope).next
        exact .raised (hscope ▸ hp) hbudget hnext hinsert hoverrides (hnone fun w input heq => by cases heq)

end Transactions

/-! ## The balance of a line -/

/-- What is left, what an override adds, and what a slice takes. -/
structure BudgetLine where
  left : RemainingBudget → ℤ
  requested : ReviewOverrideRequest → ℕ
  added : ReviewOverrideRecord → ℕ
  spent : ModelHarness → Option ResponsesRequest → RemainingBudget → ℕ
  left_extended : ∀ b override, left (b.extended override) = left b + requested override
  added_eq : ∀ (o : ReviewOverrideRecord) (override : ReviewOverrideRequest),
    o.model_calls_add = override.model_calls_add → o.cost_microusd_add = override.cost_microusd_add →
      added o = requested override
  left_books : ∀ {harness request b b'}, Books harness request b b' →
    left b' = left b - spent harness request b

/-- The model calls: a slice that calls the provider takes one. -/
def modelLine : BudgetLine where
  left := RemainingBudget.model_calls
  requested := ReviewOverrideRequest.model_calls_add
  added := ReviewOverrideRecord.model_calls_add
  spent _ request _ := if request.isSome = true then 1 else 0
  left_extended _ _ := rfl
  added_eq _ _ hmodel _ := hmodel
  left_books h := by
    rw [h.model_calls]
    split_ifs <;> rfl

/-- A slice takes the price of its turn, if it is covered. -/
def costLine : BudgetLine where
  left := RemainingBudget.cost_microusd
  requested := ReviewOverrideRequest.cost_microusd_add
  added := ReviewOverrideRecord.cost_microusd_add
  spent harness request budget := request.elim 0 fun r => harness.charge r budget
  left_extended _ _ := rfl
  added_eq _ _ _ hcost := hcost
  left_books h := h.cost_microusd

/-- A slice that does not commit takes nothing. -/
def SliceEnd.spent (e : SliceEnd) (line : BudgetLine) : ℕ :=
  if e.saved.isSome then (e.slice.start e.previous).elim 0 fun start =>
    line.spent e.slice.input.harness e.request start.remaining_budget
  else 0

/-- What the committed slices of a Run have taken from a line. -/
def BudgetLine.used [JsonDecoding] (line : BudgetLine) (scope : RunScope) (h : List PoolTransaction) :
    ℕ := (h.map fun τ => (executed scope τ).elim 0 (·.spent line)).sum

/-- What the overrides of a Run have added to a line. -/
def BudgetLine.additions (line : BudgetLine) (scope : RunScope) (db : Database) : ℕ :=
  ((db.overrides.select fun o => o.toRunScope == scope).map line.added).sum

theorem BudgetLine.additions_records (line : BudgetLine) (h : RecordsOverride db db' c requested) :
    line.additions c.toRunScope db' = line.additions c.toRunScope db + requested.elim 0 line.requested := by
  unfold BudgetLine.additions
  cases requested with
  | none =>
    have heq : db'.overrides = db.overrides := h
    rw [heq]
    rfl
  | some requested =>
    obtain ⟨o, hinsert, hscope, hmodel, -, hcost⟩ := h
    obtain ⟨-, -, hrows⟩ := Table.insert_eq_ok hinsert
    have hsame : (o.toRunScope == c.toRunScope) = true := by rw [hscope, beq_self_eq_true]
    rw [Table.select, hrows, List.filter_append, List.filter_singleton, hsame, Table.select]
    simp [line.added_eq o requested hmodel hcost]

section Balance

variable [JsonDecoding] {scope : RunScope} {h : List PoolTransaction} {s : WorkerPool}

/-- What was granted and added is what is left and was used. -/
structure Balanced (line : BudgetLine) (scope : RunScope) (h : List PoolTransaction) (s : WorkerPool) :
    Prop where
  unopened : (¬∃ p, IsLatest s.db scope p) →
    initialBudget scope h = none ∧ line.additions scope s.db = 0 ∧ line.used scope h = 0
  opened : ∀ p, IsLatest s.db scope p → ∃ b, initialBudget scope h = some b ∧
    line.left b + line.additions scope s.db = line.left p.remaining_budget + line.used scope h

theorem SliceEnd.books (line : BudgetLine) (hsaved : e.saved = some c)
    (hadvance : e.slice.advance e.previous = .ok c) : ∃ start, e.slice.start e.previous = some start ∧
      Books e.slice.input.harness e.request start.remaining_budget c.remaining_budget ∧
      line.left c.remaining_budget = line.left start.remaining_budget - e.spent line := by
  obtain ⟨start, hstart, -, hbooks⟩ := RunSlice.advance_books hadvance
  refine ⟨start, hstart, hbooks, ?_⟩
  have hspent : e.spent line = line.spent e.slice.input.harness e.request start.remaining_budget := by
    rw [SliceEnd.spent, hsaved, hstart]
    rfl
  rw [hspent]
  exact line.left_books hbooks

theorem Balanced.step {line : BudgetLine} {τ : PoolTransaction} (hs : Balanced line scope h τ.before)
    (hbooked : Booked scope τ) : Balanced line scope (τ :: h) τ.after := by
  have hused : line.used scope (τ :: h) = (executed scope τ).elim 0 (·.spent line) + line.used scope h := by
    rw [BudgetLine.used, List.map_cons, List.sum_cons]
    rfl
  cases hbooked with
  | quiet hrows hoverrides hexecuted =>
    have hlatest := isLatest_congr hrows
    have hzero : (executed scope τ).elim 0 (·.spent line) = 0 := by
      cases he : executed scope τ with
      | none => rfl
      | some e =>
        rw [Option.elim_some, SliceEnd.spent, hexecuted e he]
        rfl
    have hinitial : initialBudget scope (τ :: h) = initialBudget scope h := by
      rw [initialBudget]
      cases he : executed scope τ with
      | none => exact Option.or_none
      | some e =>
        rw [Option.bind_some, hexecuted e he]
        exact Option.or_none
    have hadditions : line.additions scope τ.after.db = line.additions scope τ.before.db := by
      rw [BudgetLine.additions, hoverrides, BudgetLine.additions]
    rw [hzero, zero_add] at hused
    refine ⟨fun hnone => ?_, fun p hp => ?_⟩
    · rw [hinitial, hadditions, hused]
      exact hs.unopened fun ⟨p, hp⟩ => hnone ⟨p, (hlatest p).mpr hp⟩
    · rw [hinitial, hadditions, hused]
      exact hs.opened p ((hlatest p).mp hp)
  | @committed e c hexecuted hsaved hadvance hprevious hnext hinsert hoverrides =>
    obtain ⟨start, hstart, -, hleft⟩ := SliceEnd.books line hsaved hadvance
    rw [hexecuted, Option.elim_some] at hused
    have hadditions : line.additions scope τ.after.db = line.additions scope τ.before.db := by
      rw [BudgetLine.additions, hoverrides, BudgetLine.additions]
    have hinitial : initialBudget scope (τ :: h) =
        (initialBudget scope h).or ((e.slice.start none).map (·.remaining_budget)) := by
      rw [initialBudget, hexecuted, Option.bind_some, hsaved]
      rfl
    refine ⟨fun hnone => absurd ⟨c, hnext⟩ hnone, fun p hp => ?_⟩
    obtain rfl := hp.unique hnext
    rw [hinitial, hadditions, hused, hleft]
    cases hopen : e.previous with
    | none =>
      -- The first slice that commits opens the Run with its limits.
      obtain ⟨hbudget, hadded, hspent⟩ := hs.unopened fun ⟨p, hp⟩ => by
        have hsome := (hprevious p).mpr hp
        rw [hopen] at hsome
        cases hsome
      rw [hopen] at hstart
      refine ⟨start.remaining_budget, ?_, ?_⟩
      · rw [hbudget, hstart]
        rfl
      · rw [hadded, hspent]
        push_cast
        omega
    | some previous =>
      obtain ⟨b, hbudget, hbalance⟩ := hs.opened previous ((hprevious previous).mp hopen)
      rw [hopen] at hstart
      cases hstart
      refine ⟨b, by rw [hbudget]; rfl, ?_⟩
      push_cast
      omega
  | @raised p c requested hlatest hbudget hnext hinsert hoverrides hexecuted =>
    rw [hexecuted, Option.elim_none, zero_add] at hused
    have hinitial : initialBudget scope (τ :: h) = initialBudget scope h := by
      rw [initialBudget, hexecuted]
      exact Option.or_none
    have hadditions := line.additions_records hoverrides
    rw [hnext.scope_eq] at hadditions
    refine ⟨fun hnone => absurd ⟨c, hnext⟩ hnone, fun x hx => ?_⟩
    obtain rfl := hx.unique hnext
    obtain ⟨b, hinitial', hbalance⟩ := hs.opened p hlatest
    refine ⟨b, hinitial.trans hinitial', ?_⟩
    have hleft : line.left x.remaining_budget =
        line.left p.remaining_budget + (requested.elim 0 line.requested : ℕ) := by
      rw [hbudget]
      cases requested with
      | none => simp
      | some requested => exact line.left_extended _ _
    rw [hadditions, hused, hleft]
    push_cast
    omega

end Balance

section Histories

variable [Hashing] [JsonDecoding] {scope : RunScope} {h : List PoolTransaction} {s : WorkerPool}
  {t₀ t : Time}

/-- **The balance of a line**, if hosts only park the Run. -/
theorem account_balances (line : BudgetLine) (hr : PoolHistory h t₀ s t)
    (hparks : ∀ τ ∈ h, τ.call.Parks τ.before scope) : Balanced line scope h s := by
  induction hr with
  | refl =>
    refine ⟨fun _ => ⟨rfl, rfl, rfl⟩, fun p hp => ?_⟩
    cases hp.stored
  | @call h s t clk call hbefore hle ih =>
    have hearlier : ∀ τ ∈ h, τ.call.Parks τ.before scope := fun τ hτ => hparks τ (List.mem_cons_of_mem _ hτ)
    have hbooked : Booked scope ⟨s, clk, call, WorkerPool.step s clk call⟩ :=
      booked (PoolHistory.current hbefore hearlier) (hparks _ List.mem_cons_self) rfl
    exact (ih hearlier).step hbooked

end Histories

/-! ## Nothing is overdrawn -/

def RemainingBudget.NonNegative (b : RemainingBudget) : Prop :=
  0 ≤ b.model_calls ∧ 0 ≤ b.tool_calls ∧ 0 ≤ b.cost_microusd

theorem ModelHarness.charge_le (harness : ModelHarness) (request : ResponsesRequest) (hb : 0 ≤ b.cost_microusd) :
    (harness.charge request b : ℤ) ≤ b.cost_microusd := by
  unfold ModelHarness.charge
  cases (harness.complete request).toOption with
  | none => exact hb
  | some response =>
    rw [Option.elim_some, ModelHarness.priceOf]
    cases hcost : (cost response harness.pricing).filter fun paid : ℕ =>
        decide ((paid : ℤ) ≤ b.cost_microusd) with
    | none => exact hb
    | some paid =>
      rw [Option.filter_eq_some_iff, decide_eq_true_iff] at hcost
      exact hcost.2

theorem Books.nonNegative {request : Option ResponsesRequest} {b' : RemainingBudget}
    (h : Books harness request b b') (hb : b.NonNegative) : b'.NonNegative := by
  obtain ⟨hmodel, htool, hcost⟩ := hb
  refine ⟨?_, ?_, ?_⟩
  · rw [h.model_calls]
    split_ifs with hsome
    · have := h.callable hsome
      omega
    · omega
  · rcases h.tool_calls with heq | ⟨hne, heq⟩ <;> omega
  · rw [h.cost_microusd]
    cases request with
    | none => simpa using hcost
    | some request =>
      have := harness.charge_le request hcost
      rw [Option.elim_some]
      omega

theorem initialCheckpoint_nonNegative {scope : RunScope} {now : Time}
    (h : initialCheckpoint harness scope now = .ok c) : c.remaining_budget.NonNegative := by
  simp only [initialCheckpoint, remainingBudget, ok_iff] at h
  obtain ⟨_, -, _, ⟨hbudget, rfl⟩, _, -, _, -, _, -, _, -, rfl⟩ := h
  simp only [nonNegativeInt, decide_eq_true_eq] at hbudget
  exact ⟨hbudget.1.1, hbudget.2.1.1, hbudget.2.2.1⟩

theorem RemainingBudget.NonNegative.extended (hb : b.NonNegative) (override : ReviewOverrideRequest) :
    (b.extended override).NonNegative := by
  obtain ⟨hmodel, htool, hcost⟩ := hb
  exact ⟨Int.add_nonneg hmodel (Int.natCast_nonneg _), Int.add_nonneg htool (Int.natCast_nonneg _),
    Int.add_nonneg hcost (Int.natCast_nonneg _)⟩

section Bounds

variable [JsonDecoding] {scope : RunScope} {τ : PoolTransaction}

theorem Booked.nonNegative (h : Booked scope τ)
    (hbefore : ∀ c ∈ τ.before.db.checkpoints.rows, c.toRunScope = scope → c.remaining_budget.NonNegative) :
    ∀ c ∈ τ.after.db.checkpoints.rows, c.toRunScope = scope → c.remaining_budget.NonNegative := by
  intro c hc hscope
  cases h with
  | quiet hrows hoverrides hexecuted => exact hbefore c ((hrows c hscope).mp hc) hscope
  | @committed e saved hexecuted hsaved hadvance hprevious hnext hinsert hoverrides =>
    rcases (Table.mem_insert hinsert).mp hc with hold | rfl
    · exact hbefore c hold hscope
    obtain ⟨start, hstart, -, hbooks⟩ := RunSlice.advance_books hadvance
    refine hbooks.nonNegative ?_
    cases hopen : e.previous with
    | none =>
      rw [hopen, RunSlice.start, Option.none_or] at hstart
      cases hinitial : initialCheckpoint e.slice.input.harness e.slice.claim.toRunScope
          e.slice.input.execution_time with
      | error failure =>
        rw [hinitial] at hstart
        cases hstart
      | ok first =>
        rw [hinitial] at hstart
        cases hstart
        exact initialCheckpoint_nonNegative hinitial
    | some previous =>
      rw [hopen] at hstart
      cases hstart
      have hlatest := (hprevious start).mp hopen
      exact hbefore start hlatest.stored hlatest.scope_eq
  | @raised p raised requested hlatest hbudget hnext hinsert hoverrides hexecuted =>
    rcases (Table.mem_insert hinsert).mp hc with hold | rfl
    · exact hbefore c hold hscope
    have hp := hbefore p hlatest.stored hlatest.scope_eq
    rw [hbudget]
    cases requested with
    | none => exact hp
    | some requested => exact hp.extended requested

theorem PoolHistory.nonNegative [Hashing] {h : List PoolTransaction} {s : WorkerPool} {t₀ t : Time}
    (hr : PoolHistory h t₀ s t) (hparks : ∀ τ ∈ h, τ.call.Parks τ.before scope) :
    ∀ c ∈ s.db.checkpoints.rows, c.toRunScope = scope → c.remaining_budget.NonNegative := by
  induction hr with
  | refl =>
    intro c hc
    cases hc
  | @call h s t clk call hbefore hle ih =>
    have hearlier : ∀ τ ∈ h, τ.call.Parks τ.before scope := fun τ hτ => hparks τ (List.mem_cons_of_mem _ hτ)
    have hbooked : Booked scope ⟨s, clk, call, WorkerPool.step s clk call⟩ :=
      Aftercare.booked (PoolHistory.current hbefore hearlier) (hparks _ List.mem_cons_self) rfl
    exact hbooked.nonNegative (ih hearlier)

theorem PoolHistory.commits [Hashing] {h : List PoolTransaction} {s : WorkerPool} {t₀ t : Time}
    (hr : PoolHistory h t₀ s t) (hparks : ∀ τ ∈ h, τ.call.Parks τ.before scope) (hτ : τ ∈ h)
    (he : executed scope τ = some e) (hsaved : e.saved = some c) :
    (∀ p, e.previous = some p ↔ IsLatest τ.before.db scope p) ∧ e.slice.advance e.previous = .ok c := by
  obtain ⟨hcurrent, houtcome⟩ := PoolHistory.current_before hr hparks hτ
  obtain ⟨-, -, hadvance, hprevious, -⟩ := executed_of_writing hcurrent houtcome he hsaved
  exact ⟨hprevious, hadvance⟩

theorem PoolHistory.started [Hashing] {h : List PoolTransaction} {s : WorkerPool} {t₀ t : Time}
    (hr : PoolHistory h t₀ s t) (hparks : ∀ τ ∈ h, τ.call.Parks τ.before scope) :
    ∀ τ ∈ h, ∀ e ∈ executed scope τ, e.saved.isSome = true → (e.slice.start e.previous).isSome = true := by
  intro τ hτ e he hsome
  obtain ⟨c, hsaved⟩ := Option.isSome_iff_exists.mp hsome
  obtain ⟨-, hadvance⟩ := PoolHistory.commits hr hparks hτ he hsaved
  obtain ⟨start, hstart, -⟩ := RunSlice.advance_books hadvance
  rw [hstart]
  rfl

/-- Slices that commit take a call; the others left no checkpoint. -/
theorem adapterCalls_le (h : List PoolTransaction)
    (hstart : ∀ τ ∈ h, ∀ e ∈ executed scope τ, e.saved.isSome = true → (e.slice.start e.previous).isSome = true) :
    adapterCalls scope h ≤ modelLine.used scope h + uncommitted scope h := by
  induction h with
  | nil => exact le_rfl
  | cons τ rest ih =>
    have hrest := ih fun τ' hτ' => hstart τ' (List.mem_cons_of_mem _ hτ')
    have hused : modelLine.used scope (τ :: rest) =
        (executed scope τ).elim 0 (·.spent modelLine) + modelLine.used scope rest := by
      rw [BudgetLine.used, List.map_cons, List.sum_cons]
      rfl
    have hone : (if (crashed scope τ || (executed scope τ).any fun e => e.request.isSome) = true
          then 1 else 0) ≤ (executed scope τ).elim 0 (·.spent modelLine) +
        if (crashed scope τ || (executed scope τ).any fun e => e.saved.isNone) = true then 1 else 0 := by
      cases hcrashed : crashed scope τ with
      | true => simp
      | false =>
        cases he : executed scope τ with
        | none => simp
        | some e =>
          cases hsaved : e.saved with
          | none =>
            simp only [Bool.false_or, Option.any_some, hsaved, Option.isNone_none, if_true]
            split_ifs <;> omega
          | some c =>
            have hsome := hstart τ List.mem_cons_self e he (by rw [hsaved]; rfl)
            obtain ⟨start, hstart⟩ := Option.isSome_iff_exists.mp hsome
            have hspent : e.spent modelLine = if e.request.isSome = true then 1 else 0 := by
              rw [SliceEnd.spent, hsaved, hstart]
              rfl
            simp [hsaved, hspent]
    rw [hused]
    unfold adapterCalls uncommitted at hrest ⊢
    rw [List.countP_cons, List.countP_cons]
    omega

/-- **Calls of the provider are bounded by what was granted.** In every history in which hosts do no more than park the
Run, no checkpoint is overdrawn, a committed slice takes one model call exactly when it called the provider, and the
calls are at most what the Run was opened with, what was added, and one for each slice without a checkpoint. -/
theorem model_calls_bounded [Hashing] {h : List PoolTransaction} {s : WorkerPool} {t₀ t : Time}
    (hr : PoolHistory h t₀ s t) (scope : RunScope) (hparks : ∀ τ ∈ h, τ.call.Parks τ.before scope) :
    (∀ c ∈ s.db.checkpoints.rows, c.toRunScope = scope → 0 ≤ c.remaining_budget.model_calls ∧
      0 ≤ c.remaining_budget.tool_calls ∧ 0 ≤ c.remaining_budget.cost_microusd) ∧
    (∀ τ ∈ h, ∀ e c, executed scope τ = some e → e.saved = some c →
      (∀ p, e.previous = some p ↔ IsLatest τ.before.db scope p) ∧
      ∃ start, e.slice.start e.previous = some start ∧ c.remaining_budget.model_calls =
        start.remaining_budget.model_calls - if e.request.isSome then 1 else 0) ∧
    (adapterCalls scope h : ℤ) ≤ (initialBudget scope h).elim 0 RemainingBudget.model_calls +
      modelLine.additions scope s.db + uncommitted scope h := by
  refine ⟨PoolHistory.nonNegative hr hparks, fun τ hτ e c he hsaved => ?_, ?_⟩
  · obtain ⟨hprevious, hadvance⟩ := PoolHistory.commits hr hparks hτ he hsaved
    obtain ⟨start, hstart, -, hbooks⟩ := RunSlice.advance_books hadvance
    exact ⟨hprevious, start, hstart, hbooks.model_calls⟩
  · have hcalls := adapterCalls_le h (PoolHistory.started hr hparks)
    have hbalance := account_balances modelLine hr hparks
    by_cases hopened : ∃ p, IsLatest s.db scope p
    · obtain ⟨p, hp⟩ := hopened
      obtain ⟨b, hinitial, hbalance⟩ := hbalance.opened p hp
      have hleft := (PoolHistory.nonNegative hr hparks p hp.stored hp.scope_eq).1
      change b.model_calls + _ = p.remaining_budget.model_calls + _ at hbalance
      rw [hinitial, Option.elim_some]
      omega
    · obtain ⟨hinitial, -, hused⟩ := hbalance.unopened hopened
      rw [hinitial, Option.elim_none]
      omega

end Bounds

/-- A Run uses up its budget of one call. -/
theorem model_calls_bounded_override : @adapterCalls sampleDecoding sampleScope
        (trace (@WorkerPool.step sampleHashing sampleDecoding) WorkerPool.empty reviewCalls) = 1 ∧
      (1 : ℤ) ≤ (@initialBudget sampleDecoding sampleScope (trace
        (@WorkerPool.step sampleHashing sampleDecoding) WorkerPool.empty reviewCalls)).elim 0
          RemainingBudget.model_calls + modelLine.additions sampleScope (samplePool reviewCalls).db +
        @uncommitted sampleDecoding sampleScope (trace
          (@WorkerPool.step sampleHashing sampleDecoding) WorkerPool.empty reviewCalls) := by
  have hcalls : @adapterCalls sampleDecoding sampleScope
      (trace (@WorkerPool.step sampleHashing sampleDecoding) WorkerPool.empty reviewCalls) = 1 := by
    decide
  have hbound := (@model_calls_bounded sampleDecoding sampleHashing _ _ _ _ review_history
    sampleScope reviewCalls_park).2.2
  rw [hcalls] at hbound
  exact ⟨hcalls, hbound⟩

/-! ## The cost of the turns -/

/-- The reported cost of a slice that commits. -/
def SliceEnd.reported (e : SliceEnd) : ℕ :=
  if e.saved.isSome then
    e.request.elim 0 fun request => (e.slice.input.harness.reported request).getD 0
  else 0

/-- The reported costs of the committed slices of a Run. -/
def reportedCost [JsonDecoding] (scope : RunScope) (h : List PoolTransaction) : ℕ :=
  (h.map fun τ => (executed scope τ).elim 0 SliceEnd.reported).sum

/-- What a Run was opened with, and what its overrides added. -/
def grantedCost [JsonDecoding] (scope : RunScope) (h : List PoolTransaction) (s : WorkerPool) : ℤ :=
  (initialBudget scope h).elim 0 RemainingBudget.cost_microusd + costLine.additions scope s.db

/-- Granted is left and reported, until more is reported than granted. -/
def CostConserved [JsonDecoding] (scope : RunScope) (h : List PoolTransaction) (s : WorkerPool)
    (p : Checkpoint) : Prop :=
  (reportedCost scope h ≤ grantedCost scope h s →
    grantedCost scope h s = p.remaining_budget.cost_microusd + reportedCost scope h) ∧
  (grantedCost scope h s < reportedCost scope h → p.remaining_budget.cost_microusd = 0)

/-- What is left covers what is reported for the turn. -/
def SliceEnd.Covered (e : SliceEnd) : Prop :=
  ∀ start ∈ e.slice.start e.previous, ∀ request ∈ e.request,
    ∀ paid ∈ e.slice.input.harness.reported request, (paid : ℤ) ≤ start.remaining_budget.cost_microusd

instance (e : SliceEnd) : Decidable e.Covered :=
  inferInstanceAs (Decidable (∀ _ ∈ e.slice.start e.previous, ∀ _ ∈ e.request, ∀ _ ∈ _, _))

theorem ModelHarness.charge_eq_reported {request : ResponsesRequest}
    (h : ∀ paid ∈ harness.reported request, (paid : ℤ) ≤ b.cost_microusd) :
    harness.charge request b = (harness.reported request).getD 0 := by
  unfold ModelHarness.charge
  unfold ModelHarness.reported at h ⊢
  cases hresponse : (harness.complete request).toOption with
  | none => rfl
  | some response =>
    rw [Option.elim_some, Option.bind_some, ModelHarness.priceOf]
    rw [hresponse, Option.bind_some] at h
    cases hcost : cost response harness.pricing with
    | none => rfl
    | some paid =>
      rw [Option.filter_some, if_pos (decide_eq_true (h paid hcost))]

section Costs

variable [JsonDecoding] {scope : RunScope}

theorem used_eq_reportedCost {h : List PoolTransaction}
    (hstart : ∀ τ ∈ h, ∀ e ∈ executed scope τ, e.saved.isSome = true → (e.slice.start e.previous).isSome = true)
    (hcovered : ∀ τ ∈ h, ∀ e ∈ executed scope τ, e.Covered) : costLine.used scope h = reportedCost scope h := by
  unfold BudgetLine.used reportedCost
  refine congrArg List.sum (List.map_congr_left fun τ hτ => ?_)
  cases he : executed scope τ with
  | none => rfl
  | some e =>
    rw [Option.elim_some, Option.elim_some, SliceEnd.spent, SliceEnd.reported]
    split_ifs with hsaved
    · obtain ⟨start, hstart⟩ := Option.isSome_iff_exists.mp (hstart τ hτ e he hsaved)
      rw [hstart, Option.elim_some]
      cases hrequest : e.request with
      | none => rfl
      | some request =>
        exact ModelHarness.charge_eq_reported (hcovered τ hτ e he start hstart request hrequest)
    · rfl

/-- **The cost is conserved when every turn is covered.** -/
theorem cost_conserved_if_covered [Hashing] {h : List PoolTransaction} {s : WorkerPool} {t₀ t : Time}
    (hr : PoolHistory h t₀ s t) (scope : RunScope) (hparks : ∀ τ ∈ h, τ.call.Parks τ.before scope)
    (hcovered : ∀ τ ∈ h, ∀ e ∈ executed scope τ, e.Covered) :
    ∀ p, IsLatest s.db scope p → CostConserved scope h s p := by
  intro p hp
  obtain ⟨b, hinitial, hbalance⟩ := (account_balances costLine hr hparks).opened p hp
  have hleft := (PoolHistory.nonNegative hr hparks p hp.stored hp.scope_eq).2.2
  have hused : costLine.used scope h = reportedCost scope h :=
    used_eq_reportedCost (PoolHistory.started hr hparks) hcovered
  have hgranted : grantedCost scope h s =
      p.remaining_budget.cost_microusd + reportedCost scope h := by
    rw [grantedCost, hinitial, Option.elim_some, ← hused]
    exact hbalance
  refine ⟨fun _ => hgranted, fun hover => ?_⟩
  omega

end Costs

/-- The cost is conserved over an override. -/
theorem cost_conserved_if_covered_override : ∃ p, IsLatest (samplePool reviewCalls).db sampleScope p ∧
      @CostConserved sampleDecoding sampleScope (trace
        (@WorkerPool.step sampleHashing sampleDecoding) WorkerPool.empty reviewCalls)
        (samplePool reviewCalls) p := by
  obtain ⟨c, hc, hscope⟩ :
      ∃ c ∈ (samplePool reviewCalls).db.checkpoints.rows, c.toRunScope = sampleScope := by
    decide
  obtain ⟨p, hp⟩ := exists_isLatest hc hscope
  exact ⟨p, hp, @cost_conserved_if_covered sampleDecoding sampleHashing _ _ _ _ review_history
    sampleScope reviewCalls_park (by decide) p hp⟩

/-- A Run may spend ten, and its turn costs fifteen. -/
def poorSlice (t : Time) : List (Time × PoolCall) :=
  [(t, .runOnce 0 sampleScope.tenant_id sampleScope.run_id sampleOwner 3600000000), (t + 1, .execute 0
      { sampleInput firstCall (·.toCaseScope) with
        harness := { (sampleInput firstCall (·.toCaseScope)).harness with
          limits := ⟨8, 4, 10, 300000000, 30000000⟩ } })]

/-- Of ten that were granted, fifteen are reported, and ten are left. -/
theorem cost_overrun_is_free : @PoolHistory sampleHashing sampleDecoding
        (trace (@WorkerPool.step sampleHashing sampleDecoding) WorkerPool.empty
          (poolSetup ++ poorSlice 2)) 0 (samplePool (poolSetup ++ poorSlice 2)) 3 ∧
      ∃ p, IsLatest (samplePool (poolSetup ++ poorSlice 2)).db sampleScope p ∧
        ¬@CostConserved sampleDecoding sampleScope (trace
          (@WorkerPool.step sampleHashing sampleDecoding) WorkerPool.empty (poolSetup ++ poorSlice 2))
          (samplePool (poolSetup ++ poorSlice 2)) p := by
  refine ⟨replay_runs (@WorkerPool.step sampleHashing sampleDecoding) _ WorkerPool.empty 0 (by decide),
    ?_⟩
  obtain ⟨p, hp, hscope, hlatest, hleft⟩ :
      ∃ p ∈ (samplePool (poolSetup ++ poorSlice 2)).db.checkpoints.rows, p.toRunScope = sampleScope ∧
        (∀ c ∈ (samplePool (poolSetup ++ poorSlice 2)).db.checkpoints.rows,
          c.toRunScope = sampleScope → c.checkpoint_version ≤ p.checkpoint_version) ∧
        p.remaining_budget.cost_microusd = 10 := by
    decide
  have hover : @grantedCost sampleDecoding sampleScope (trace
        (@WorkerPool.step sampleHashing sampleDecoding) WorkerPool.empty (poolSetup ++ poorSlice 2))
        (samplePool (poolSetup ++ poorSlice 2)) <
      @reportedCost sampleDecoding sampleScope (trace
        (@WorkerPool.step sampleHashing sampleDecoding) WorkerPool.empty (poolSetup ++ poorSlice 2)) := by
    decide
  refine ⟨p, ⟨hp, hscope, hlatest⟩, fun hconserved => ?_⟩
  have hzero := hconserved.2 hover
  rw [hleft] at hzero
  cases hzero

end Aftercare
