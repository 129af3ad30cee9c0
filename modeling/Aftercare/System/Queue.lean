import Aftercare.System.Calls

/-!
# The durable queue loses no Run

Seven methods write the Runs, and each of their statements leaves the queue in sync (`RunStore.Synced`),
so it is in sync in every state of every history (`History.synced`). `queue_exact` reads the invariant as
what the queue holds for each Run, and concludes that a Run that is ready, due or abandoned is among
the rows that `claim_next` selects from.
-/

namespace Aftercare

open Relational

variable {t now stop : Time} {db db' : Database} {r : RunRow}

variable {gate : Gate}

/-! ## Every call keeps the queue in sync -/

variable {start : Time}

theorem Write.synced (hs : db.runs.Synced stop) (h : Write gate start stop db db') : db'.runs.Synced stop := by
  cases h <;> try exact hs
  case createRun clk run hclk hcase h =>
    rw [← hclk.stop_eq] at hs ⊢
    exact hs.insert h
  case moveRun clk t k f r hclk ht hr hmove h =>
    rw [← hclk.stop_eq] at hs ⊢
    exact hs.update h
  case renew h => exact hs.extend h

theorem Settles.synced {wait : WaitRecord} (hs : db.runs.Synced stop) (h : Settles start stop wait t db db') :
    db'.runs.Synced stop := by
  obtain ⟨hclk, -, -, -, -, -, -, -, -, hrun⟩ := h
  rw [← hclk.stop_eq] at hs ⊢
  exact hs.update hrun

theorem AppendsEvents.runs_eq (h : AppendsEvents db db') : db'.runs = db.runs := by
  obtain ⟨events, -, rfl⟩ := h
  rfl

theorem Resolves.synced (hs : db.runs.Synced stop) (h : Resolves gate start stop db db') : db'.runs.Synced stop := by
  cases h with
  | writes h => exact h.invariant (fun hs h => h.synced hs) hs
  | settle hprepare hruns hget hopen hwait hsettle hevents =>
    rw [hevents.runs_eq]
    refine hsettle.synced ?_
    rw [hruns]
    exact hs

theorem Transitions.synced {claim : ExecutionClaim} {target : RunState} {args : TransitionArgs}
    (hs : db.runs.Synced stop) (h : Transitions start stop claim target args db db') : db'.runs.Synced stop := by
  obtain ⟨hclk, -, -, -, -, -, -, -, hupdate⟩ := h
  rw [← hclk.stop_eq] at hs ⊢
  exact hs.update hupdate

theorem Acts.runs_eq (h : Acts start stop db db') : db'.runs = db.runs := by
  rcases h with rfl | ⟨t, actions, -, -, rfl⟩
  · rfl
  · rfl

theorem Effect.synced {c : Call} (hs : db.runs.Synced stop) (h : Effect start stop db c db') :
    db'.runs.Synced stop := by
  cases h with
  | resolves c h => exact h.synced hs
  | acts c h =>
    rw [h.runs_eq]
    exact hs
  | transitions claim target args h => exact h.synced hs
  | saves checkpoint claim h =>
    obtain ⟨checkpoints, -, rfl⟩ := h
    exact hs

/-- **The queue is in sync** in every state that a history reaches. -/
theorem History.synced [Hashing] {h : List CallTransaction}
    {t₀ : Time} (hr : History h t₀ db t) : db.runs.Synced t := by
  refine hr.invariant (fun db t => db.runs.Synced t) (fun hle hs => hs.later hle) ?_ (RunStore.synced_empty 1 t₀)
  intro db clk c db' o hs hexec
  exact (exec_effect hexec).synced (hs.later clk.start_le_stop)

/-! ## What the queue holds -/

def RunState.queued : RunState → Bool
  | .ready | .retryAt | .running => true
  | _ => false

theorem InSync.exists_iff {q : Option QueueRow} (h : InSync now r q) : q.isSome = r.state.queued := by
  unfold InSync at h
  cases hstate : r.state <;> simp only [hstate] at h
  case ready | retryAt | running =>
    obtain ⟨row, rfl, -⟩ := h
    rfl
  all_goals
    rw [h]
    rfl

theorem InSync.state_iff {row : QueueRow} (h : InSync now r (some row)) : row.toRunScope = r.toRunScope ∧
      (row.state = .ready ↔ r.state = .ready ∨ r.state = .retryAt) ∧
      (row.state = .inFlight ∧ row.claim_token = some r.fencing_token ↔ r.state = .running) := by
  unfold InSync at h
  cases hstate : r.state <;> simp only [hstate] at h
  case running =>
    obtain ⟨row', hrow, hscope, hq, htoken⟩ := h
    cases hrow
    simp [hscope, hq, htoken]
  case ready | retryAt =>
    obtain ⟨row', hrow, hscope, hq, -⟩ := h
    cases hrow
    simp [hscope, hq]
  all_goals cases h

/-- It is ready, or the time of its retry or lease has come. -/
def RunRow.claimableBy (r : RunRow) (now : Time) : Bool :=
  match r.state with
  | .ready => true
  | .retryAt => r.available_at.any (· ≤ now)
  | .running => r.lease_until.any (· ≤ now)
  | _ => false

theorem any_le_trans {o : Option Time} (h : o.any (· ≤ now) = true) (hle : now ≤ t) : o.any (· ≤ t) = true := by
  cases o with
  | none => cases h
  | some u =>
    simp only [Option.any_some, decide_eq_true_eq] at h ⊢
    exact h.trans hle

/-- Its queue row passes the test, whatever the readings. -/
theorem InSync.runnable {q : QueueRow} {t : ℕ → Time} (h : InSync now r (some q)) (hr : r.claimableBy now = true)
    (ht : ∀ i, now ≤ t i) : runnable q r t = true := by
  unfold InSync at h
  unfold RunRow.claimableBy at hr
  unfold Aftercare.runnable
  cases hstate : r.state <;> simp only [hstate] at h hr ⊢
  case ready =>
    obtain ⟨row, hrow, -, hq, hdue⟩ := h
    cases hrow
    have hdue' : q.available_at ≤ t 0 := hdue.trans (ht 0)
    simp [hq, hdue']
  case retryAt =>
    obtain ⟨row, hrow, -, hq, havailable⟩ := h
    cases hrow
    have hdue : q.available_at ≤ now := by simpa [havailable] using hr
    have hdue0 : q.available_at ≤ t 0 := hdue.trans (ht 0)
    have hdue2 : q.available_at ≤ t 2 := hdue.trans (ht 2)
    simp [hq, havailable, hdue0, hdue2]
  case running =>
    obtain ⟨row, hrow, -, hq, -⟩ := h
    cases hrow
    have hend1 := any_le_trans hr (ht 1)
    have hend3 := any_le_trans hr (ht 3)
    simp [hq, hend1, hend3]
  all_goals cases hr

theorem saturated_of_no_limits (h : db.limits.rows = []) (q : QueueRow) (t : Time) : saturated db q t = false := by
  unfold saturated
  rw [h]
  rfl

theorem RunStore.Synced.of_mem {store : RunStore} (hs : store.Synced now) (hr : r ∈ store.runs.rows) :
    InSync now r (store.queue.get r.key) := by
  have hget : store.runs.get r.key = some r := Table.get_of_mem hr
  have hsync := hs r.key
  rwa [hget] at hsync

theorem mem_candidates {tenant : Option Identifier} {readings : RunKey → ℕ → Time} (hs : db.runs.Synced now)
    (hr : r ∈ db.runs.runs.rows) (hlimits : db.limits.rows = []) (hclaimable : r.claimableBy now = true)
    (hreadings : ∀ k i, now ≤ readings k i) (htenant : ∀ id ∈ tenant, id = r.tenant_id) :
    ∃ q, (q, r) ∈ candidates db tenant readings fun _ => false := by
  have hsync := hs.of_mem hr
  have hqueued : (db.runs.queue.get r.key).isSome = true := by
    rw [hsync.exists_iff]
    unfold RunRow.claimableBy at hclaimable
    cases hstate : r.state <;> simp_all [RunState.queued]
  obtain ⟨q, hq⟩ := Option.isSome_iff_exists.mp hqueued
  rw [hq] at hsync
  have hscope := hsync.state_iff.1
  have hrun : db.run q.toRunScope = some r := by
    rw [hscope]
    exact Database.run_of_get (Table.get_of_mem hr)
  have htenant' : tenant.all (· == q.tenant_id) = true := by
    cases tenant with
    | none => rfl
    | some id => simp [htenant id rfl, hscope]
  have hselect : selectable db tenant (readings q.key) q r = true := by
    simp [selectable, hsync.runnable hclaimable (hreadings q.key), saturated_of_no_limits hlimits, htenant']
  refine ⟨q, ?_⟩
  rw [candidates, List.mem_filterMap]
  exact ⟨q, Table.mem_of_get hq, by simp [hrun, hselect]⟩

/-- **No lost wakeup.** In every state of every history, a queue row exists for exactly the Runs that are ready, to retry or
running, so `claim_next` can take every Run that is due. -/
theorem queue_exact [Hashing] {h : List (Transaction Database Time Call Output Failure)} {t₀ t : Time}
    {db : Database} (hr : History h t₀ db t) : (∀ k, db.runs.runs.get k = none → db.runs.queue.get k = none) ∧
    (∀ r ∈ db.runs.runs.rows, ((db.runs.queue.get r.key).isSome ↔
        r.state = .ready ∨ r.state = .retryAt ∨ r.state = .running) ∧
      ∀ q ∈ db.runs.queue.get r.key, q.toRunScope = r.toRunScope ∧
        (q.state = .ready ↔ r.state = .ready ∨ r.state = .retryAt) ∧
        (q.state = .inFlight ∧ q.claim_token = some r.fencing_token ↔ r.state = .running)) ∧
    ∀ now ≥ t, ∀ readings : RunKey → ℕ → Time, (∀ k i, now ≤ readings k i) →
      db.limits.rows = [] → ∀ r ∈ db.runs.runs.rows, ∀ tenant : Option Identifier,
      (∀ id ∈ tenant, id = r.tenant_id) →
      r.state = .ready ∨ (r.state = .retryAt ∧ ∃ u ∈ r.available_at, u ≤ now) ∨
        (r.state = .running ∧ ∃ u ∈ r.lease_until, u ≤ now) →
      ∃ q, (q, r) ∈ candidates db tenant readings fun _ => false := by
  have hs := hr.synced
  refine ⟨fun k hk => ?_, fun r hmem => ?_, ?_⟩
  · have hsync := hs k
    rwa [hk] at hsync
  · have hsync := hs.of_mem hmem
    refine ⟨?_, fun q hq => ?_⟩
    · rw [hsync.exists_iff]
      cases r.state <;> simp [RunState.queued]
    · rw [Option.mem_def.mp hq] at hsync
      exact hsync.state_iff
  · intro now hnow readings hreadings hlimits r hmem tenant htenant hstate
    refine mem_candidates (hs.later hnow) hmem hlimits ?_ hreadings htenant
    rcases hstate with hstate | ⟨hstate, u, hu, hle⟩ | ⟨hstate, u, hu, hle⟩
    · simp [RunRow.claimableBy, hstate]
    · simp [RunRow.claimableBy, hstate, Option.mem_def.mp hu, hle]
    · simp [RunRow.claimableBy, hstate, Option.mem_def.mp hu, hle]

/-- Once the lease of a lost worker has ended, the Run is a candidate. -/
theorem queue_exact_abandoned : ∃ r ∈ sampleDatabase.runs.runs.rows, r.state = .running ∧
      ∃ q, (q, r) ∈ candidates sampleDatabase none (fun _ _ => 3600000002) fun _ => false := by
  have hmem : RunRow.claimed sampleOwner 3600000002 1 sampleRun.toRunRow ∈
      sampleDatabase.runs.runs.rows := by decide
  refine ⟨_, hmem, rfl, ?_⟩
  exact (@queue_exact sampleHashing _ _ _ _ sample_history).2.2 3600000002 (by decide) _
    (fun _ _ => le_rfl) rfl _ hmem none (by simp) (.inr (.inr ⟨rfl, 3600000002, rfl, le_rfl⟩))

end Aftercare
