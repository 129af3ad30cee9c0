import Aftercare.Runtime.Accounts
import Aftercare.System.Checkpoints

/-!
# Bounded retries

What stops a Run from being retried for ever is the number of model calls that its checkpoint has left; `Spends` is
what one slice does to it. A retry after a failure of the hook or of the renderer costs nothing, so the bound
(`retries_bounded`) needs slices in which these raise no transient failure (`ModelHarness.Steady`,
`retries_unbounded`).
-/

namespace Aftercare

open Relational Text Investigation

/-! ## What a slice spends -/

/-- What a slice at this time does to the budget of its checkpoint. -/
structure Spends (now : Time) (c c' : Checkpoint) : Prop where
  deadline : c'.remaining_budget.deadline = c.remaining_budget.deadline
  calls : c'.remaining_budget.model_calls ≤ c.remaining_budget.model_calls
  /-- A retry costs a model call, and comes before the deadline. -/
  retry : c'.next_step = .retry → now < c.remaining_budget.deadline ∧
    0 ≤ c'.remaining_budget.model_calls ∧
    c'.remaining_budget.model_calls < c.remaining_budget.model_calls

variable {now : Time} {c c' : Checkpoint}

theorem Spends.kept (hbudget : c'.remaining_budget = c.remaining_budget)
    (hnext : c'.next_step ≠ .retry) : Spends now c c' where
  deadline := by rw [hbudget]
  calls := by rw [hbudget]
  retry h := absurd h hnext

/-- The hook and the renderer raise nothing that is retried. -/
structure ModelHarness.Steady (harness : ModelHarness) (scope : RunScope) : Prop where
  hook : ∀ code message, harness.beforeRun scope = .error (.contract code message) →
    code.transient = false
  renderer : ∀ c code message, harness.render_input c = .error (.contract code message) →
    code.transient = false

theorem ModelHarness.Steady.not_failsTransiently {harness : ModelHarness} {scope : RunScope}
    (h : harness.Steady scope) (hscope : c.toRunScope = scope) : ¬harness.FailsTransiently c := by
  rintro ⟨code, message, hraised | hraised, htransient⟩
  · rw [hscope] at hraised
    rw [h.hook code message hraised] at htransient
    cases htransient
  · rw [h.renderer c code message hraised] at htransient
    cases htransient

/-- **What a phase spends** when the hook and the renderer raise no transient failure: it retries for the
provider only, and only in front of the deadline. -/
theorem Outcome.spends {harness : ModelHarness} {request : Option ResponsesRequest} {handed : Bool}
    (hsteady : ¬harness.FailsTransiently c) (h : Outcome harness now c request handed c') : Spends now c c' := by
  cases h with
  | done hphase => exact .kept rfl (by rw [hphase]; decide)
  | handed hphase => exact .kept rfl (by rw [hphase]; decide)
  | routed next_step reason available_at hnext =>
    refine .kept rfl ?_
    rcases hnext with rfl | ⟨-, hfails⟩
    · simp [Checkpoint.route]
    · exact absurd hfails hsteady
  | paid hphase hrequest hdeadline hcalls hpaid =>
    have hturn := hpaid.calls
    refine ⟨hpaid.deadline, ?_, fun _ => ⟨hdeadline, ?_, ?_⟩⟩ <;> omega
  | answered result hphase htools => exact ⟨rfl, le_refl _, by simp [Checkpoint.answered]⟩

theorem Spends.of_budget {c₀ : Checkpoint} (h : Spends now c₀ c')
    (hbudget : c₀.remaining_budget = c.remaining_budget) : Spends now c c' := by
  obtain ⟨hdeadline, hcalls, hretry⟩ := h
  rw [hbudget] at hdeadline hcalls hretry
  exact ⟨hdeadline, hcalls, hretry⟩

/-- The hook and the renderer of a slice raise no transient failure. -/
def RunSlice.Steady (s : RunSlice) : Prop := s.input.harness.Steady s.claim.toRunScope

variable {s : RunSlice} {previous : Option Checkpoint}

/-- **What a slice of a Run spends.** -/
theorem RunSlice.advance_spends [JsonDecoding] (hs : s.Steady) (h : s.advance previous = .ok c') :
    ∃ c, s.start previous = some c ∧ Spends s.input.execution_time c c' := by
  obtain ⟨opened, mid, handed, hopens, hscope, houtcome, hsaved⟩ := RunSlice.advance_outcome h
  obtain ⟨c, hstart, hbudget, -⟩ := hopens.start
  have hspends := (houtcome.spends (hs.not_failsTransiently hscope)).of_budget hbudget
  refine ⟨c, hstart, ?_⟩
  rcases hsaved with ⟨-, rfl⟩ | ⟨-, next_step, reason, hnext, rfl⟩
  · exact ⟨hspends.deadline, hspends.calls, hspends.retry⟩
  · refine ⟨hspends.deadline, hspends.calls, fun hretry => ?_⟩
    -- An assessment does not end in a retry.
    have hnext' : next_step = .retry := hretry
    rcases hnext with rfl | rfl <;> cases hnext'

theorem RunSlice.start_first (h : s.start none = some c) :
    c.remaining_budget.model_calls = s.input.harness.limits.model_calls := by
  unfold RunSlice.start at h
  cases hinitial : initialCheckpoint s.input.harness s.claim.toRunScope s.input.execution_time with
  | error e =>
    rw [hinitial] at h
    cases h
  | ok c =>
    rw [hinitial] at h
    cases h
    exact (initialCheckpoint_eq_ok hinitial).2.2.2.1

/-! ## Sequences of slices -/

def SliceEnd.retried (e : SliceEnd) : Bool := e.saved.any fun c => c.next_step == .retry

def retries [JsonDecoding] (previous : Option Checkpoint) (slices : List RunSlice) : ℕ :=
  (sliceEnds previous slices).countP SliceEnd.retried

/-- The model calls of the checkpoint, or of the first limits. -/
def modelCallsLeft [JsonDecoding] : Option Checkpoint → List RunSlice → ℕ
  | some c, _ => c.remaining_budget.model_calls.toNat
  | none, [] => 0
  | none, s :: rest =>
    match s.advance none with
    | .ok _ => s.input.harness.limits.model_calls.toNat
    | .error _ => modelCallsLeft none rest

theorem Spends.retry_le (h : Spends now c c') {n : ℕ} (hn : n ≤ c'.remaining_budget.model_calls.toNat) :
    (if c'.next_step = .retry then 1 else 0) + n ≤ c.remaining_budget.model_calls.toNat := by
  have hcalls := h.calls
  split_ifs with hretry
  · obtain ⟨-, hnonneg, hless⟩ := h.retry hretry
    omega
  · omega

theorem retries_cons [JsonDecoding] {rest : List RunSlice} {c : Checkpoint} (h : s.advance previous = .ok c) :
    retries previous (s :: rest) = (if c.next_step = .retry then 1 else 0) + retries (some c) rest := by
  unfold retries
  rw [sliceEnds, h]
  simp only [List.countP_cons, SliceEnd.retried, Option.any_some, beq_iff_eq]
  omega

theorem retries_raised [JsonDecoding] {rest : List RunSlice} {e : Failure} (h : s.advance previous = .error e) :
    retries previous (s :: rest) = retries previous rest := by
  unfold retries
  rw [sliceEnds, h]
  simp [SliceEnd.retried]

theorem retries_le [JsonDecoding] {slices : List RunSlice} (hsteady : ∀ s ∈ slices, s.Steady)
    (previous : Option Checkpoint) : retries previous slices ≤ modelCallsLeft previous slices := by
  induction slices generalizing previous with
  | nil => exact Nat.zero_le _
  | cons s rest ih =>
    have hs := hsteady s List.mem_cons_self
    have hrest := ih fun t ht => hsteady t (List.mem_cons_of_mem s ht)
    cases hadvance : s.advance previous with
    | error e =>
      rw [retries_raised hadvance]
      refine (hrest previous).trans (le_of_eq ?_)
      cases previous with
      | none => rw [modelCallsLeft, hadvance]
      | some c => simp only [modelCallsLeft]
    | ok c' =>
      rw [retries_cons hadvance]
      have hleft : retries (some c') rest ≤ c'.remaining_budget.model_calls.toNat := by
        simpa only [modelCallsLeft] using hrest (some c')
      obtain ⟨c, hstart, hspends⟩ := RunSlice.advance_spends hs hadvance
      refine (hspends.retry_le hleft).trans (le_of_eq ?_)
      cases previous with
      | none => rw [modelCallsLeft, hadvance, RunSlice.start_first hstart]
      | some c₀ =>
        cases hstart
        rw [modelCallsLeft]

/-- **Retries are bounded.** Where hooks and renderers raise no transient failure, at most as many slices end in a retry as
the Run has model calls left, and none at or after the deadline. -/
theorem retries_bounded [JsonDecoding] (previous : Option Checkpoint) (slices : List RunSlice)
    (hsteady : ∀ s ∈ slices, s.Steady) : retries previous slices ≤ modelCallsLeft previous slices ∧
    ∀ e ∈ sliceEnds previous slices, ∀ c ∈ e.saved,
      (∀ c₀ ∈ e.previous, c.remaining_budget.deadline = c₀.remaining_budget.deadline) ∧
      (c.remaining_budget.deadline ≤ e.slice.input.execution_time → c.next_step ≠ .retry) := by
  refine ⟨retries_le hsteady previous, ?_⟩
  refine sliceEnds_forall ?_ (fun s _ previous c hc => by cases hc) previous
  rintro s hs before c hadvance c' ⟨⟩
  obtain ⟨c₀, hstart, hspends⟩ := RunSlice.advance_spends (hsteady s hs) hadvance
  refine ⟨fun c₁ hc₁ => ?_, fun hlate hretry => ?_⟩
  · have hbefore : before = some c₁ := hc₁
    subst hbefore
    cases hstart
    exact hspends.deadline
  · rw [hspends.deadline] at hlate
    exact absurd (hspends.retry hretry).1 (not_lt.mpr hlate)

/-! ## Outages -/

/-- A slice whose provider is down, with two model calls. -/
def outage (t : Time) : RunSlice where
  claim := sampleClaim
  input :=
    let input := sampleInput firstCall (·.toCaseScope)
    { input with
      execution_time := t
      harness :=
        { input.harness with
          limits := { input.harness.limits with model_calls := 2 }
          complete := fun _ => .error (.provider (some 503)) } }

theorem outage_steady (t : Time) : (outage t).Steady where
  hook _ _ h := by cases h
  renderer _ _ _ h := by cases h

/-- Four slices without a provider, the last after the deadline. -/
def outages : List RunSlice := [outage 0, outage 30000000, outage 60000000, outage 400000000]

/-- Two slices are retried, and the next two are not. -/
theorem retries_bounded_outage : (∀ s ∈ outages, s.Steady) ∧
    @retries sampleDecoding none outages ≤ @modelCallsLeft sampleDecoding none outages ∧
    @retries sampleDecoding none outages = 2 ∧ @modelCallsLeft sampleDecoding none outages = 2 := by
  have hsteady : ∀ s ∈ outages, s.Steady := by
    simp only [outages, List.forall_mem_cons, outage_steady, List.not_mem_nil, false_implies,
      implies_true, and_true]
  exact ⟨hsteady, (@retries_bounded sampleDecoding none outages hsteady).1, by decide,
    by decide⟩

def RunSlice.hookDown (s : RunSlice) : RunSlice :=
  let hook := fun _ => .error (.contract .retryable "history is unavailable")
  { s with input := { s.input with harness := { s.input.harness with before_run := some hook } } }

def RunSlice.rendererDown (s : RunSlice) : RunSlice :=
  let renderer := fun _ => .error (.contract .rateLimited "store is busy")
  { s with input := { s.input with harness := { s.input.harness with render_input := renderer } } }

/-- A broken hook or renderer is retried without a bound. -/
theorem retries_unbounded : (@modelCallsLeft sampleDecoding none (outages.map .hookDown) = 2 ∧
      @retries sampleDecoding none (outages.map .hookDown) = 4) ∧
    (@sliceEnds sampleDecoding none (outages.map .hookDown)).any (fun e =>
      e.saved.any fun c => c.next_step == .retry &&
        decide (c.remaining_budget.deadline ≤ e.slice.input.execution_time)) = true ∧
    @modelCallsLeft sampleDecoding none (outages.map .rendererDown) = 2 ∧
      @retries sampleDecoding none (outages.map .rendererDown) = 3 := by
  decide

end Aftercare
