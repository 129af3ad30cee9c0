import Aftercare.Persistence.Database

/-!
# The trigger keeps the queue aligned

`InSync now r q` says what the queue holds for a Run whose row is `r`. Every statement on the Runs keeps
`RunStore.Synced`: the trigger rewrites the queue row of the Run that changed, and the one statement that does not
fire it changes nothing that `InSync` reads.
-/

namespace Aftercare

open Relational

variable {now now' leaseUntil : Time} {r new row : RunRow} {store store' : RunStore}
  {clk : Clock Time} {k : RunKey} {f : RunRow → RunRow}

def InSync (now : Time) (r : RunRow) (q : Option QueueRow) : Prop :=
  match r.state with
  | .running => ∃ row, q = some row ∧ row.toRunScope = r.toRunScope ∧ row.state = .inFlight ∧
      row.claim_token = some r.fencing_token
  | .ready => ∃ row, q = some row ∧ row.toRunScope = r.toRunScope ∧ row.state = .ready ∧
      row.available_at ≤ now
  | .retryAt => ∃ row, q = some row ∧ row.toRunScope = r.toRunScope ∧ row.state = .ready ∧
      r.available_at = some row.available_at
  | .waitingInput | .waitingApproval | .review | .completed | .cancelled => q = none

def RunStore.Synced (store : RunStore) (now : Time) : Prop :=
  ∀ k, match store.runs.get k with
    | some r => InSync now r (store.queue.get k)
    | none => store.queue.get k = none

theorem InSync.later {q : Option QueueRow} (hle : now ≤ now') (h : InSync now r q) : InSync now' r q := by
  unfold InSync at h ⊢
  cases hr : r.state <;> rw [hr] at h <;> try exact h
  obtain ⟨row, hq, hscope, hstate, hdue⟩ := h
  exact ⟨row, hq, hscope, hstate, hdue.trans hle⟩

theorem RunStore.Synced.later (hle : now ≤ now') (h : store.Synced now) : store.Synced now' := by
  intro k
  have hk := h k
  cases hget : store.runs.get k with
  | none => simpa [hget] using hk
  | some r =>
    rw [hget] at hk
    exact InSync.later hle hk

/-! ## The queue statement -/

/-- The Run has a row with what the insertion and the update give. -/
theorem RunStore.upsertQueue_spec {row : QueueRow} {onConflict : QueueRow → QueueRow} (P : QueueRow → Prop)
    (hrow : P row) (hconflict : ∀ q : QueueRow, q.key = row.key → P (onConflict q))
    (h : store.upsertQueue row onConflict = .ok store') :
    store'.runs = store.runs ∧ (∃ q, store'.queue.get row.key = some q ∧ P q) ∧
      ∀ k ≠ row.key, store'.queue.get k = store.queue.get k := by
  simp only [upsertQueue, statement_eq_ok, ok_iff] at h
  obtain ⟨queue, hqueue, rfl⟩ := h
  cases hget : store.queue.get row.key with
  | none =>
    rw [hget] at hqueue
    have hrows := Table.get_insert hqueue
    exact ⟨rfl, ⟨row, (hrows row.key).trans (if_pos rfl), hrow⟩, fun k hk => (hrows k).trans (if_neg hk)⟩
  | some q =>
    rw [hget] at hqueue
    have hrows := Table.get_update hqueue
    refine ⟨rfl, ⟨onConflict q, ?_, hconflict q (Table.key_of_get hget)⟩, fun k hk => (hrows k).trans (if_neg hk)⟩
    rw [hrows, if_pos rfl, hget]
    rfl

theorem RunStore.upsertQueue_total (store : RunStore) (row : QueueRow) (onConflict : QueueRow → QueueRow)
    (hrow : row.check = true) (hconflict : ∀ q, (onConflict q).check = true ∧ (onConflict q).key = q.key) :
    ∃ store', store.upsertQueue row onConflict = .ok store' := by
  simp only [upsertQueue, statement_eq_ok, ok_iff]
  cases hget : store.queue.get row.key with
  | none =>
    obtain ⟨queue, hqueue⟩ := Table.insert_total hrow hget fun _ => ⟨rfl, rfl⟩
    exact ⟨_, queue, hqueue, rfl⟩
  | some q =>
    have hkey := (hconflict q).2.trans (Table.key_of_get hget)
    obtain ⟨queue, hqueue⟩ := Table.update_total hget (hconflict q).1 hkey fun _ => ⟨rfl, rfl⟩
    exact ⟨_, queue, hqueue, rfl⟩

/-! ## The trigger -/

theorem RunRow.available_of_check (h : r.check = true) : r.available_at.isSome = (r.state == .retryAt) := by
  simp only [RunRow.check, Bool.and_eq_true, beq_iff_eq] at h
  exact h.1.1.2.symm

theorem RunRow.lease_of_check (h : r.check = true) (hr : r.state = .running) :
    r.lease_owner.isSome = true ∧ r.lease_until.isSome = true ∧ 0 < r.fencing_token := by
  simp only [RunRow.check, Bool.and_eq_true, beq_iff_eq, hr] at h
  have hlease := h.1.1.1.1
  simpa [and_assoc] using hlease

theorem RunScope.eq_of_key {a b : RunScope} (hkey : a.key = b.key) : { a with case_id := b.case_id } = b := by
  obtain ⟨⟨tenant, case⟩, run⟩ := a
  obtain ⟨⟨tenant', case'⟩, run'⟩ := b
  simp only [RunScope.key, Prod.mk.injEq] at hkey
  simp [hkey]

/-- The trigger matches the queue row of the Run, and nothing else. -/
theorem RunStore.sync_spec (hcheck : new.check = true) (h : store.sync new clk = .ok store') :
    store'.runs = store.runs ∧ InSync clk.stop new (store'.queue.get new.key) ∧
      ∀ k ≠ new.key, store'.queue.get k = store.queue.get k := by
  have havailable := RunRow.available_of_check hcheck
  unfold sync at h
  unfold InSync
  cases hstate : new.state <;> simp only [hstate] at h havailable ⊢
  case running =>
    exact upsertQueue_spec (fun q => q.toRunScope = new.toRunScope ∧ q.state = .inFlight ∧
      q.claim_token = some new.fencing_token) ⟨rfl, rfl, rfl⟩
      (fun q hq => ⟨RunScope.eq_of_key hq, rfl, rfl⟩) h
  case ready =>
    have hnone : new.available_at = none := Option.isSome_eq_false_iff.mp (havailable.trans rfl) |>
      Option.isNone_iff_eq_none.mp
    rw [hnone] at h
    exact upsertQueue_spec (fun q => q.toRunScope = new.toRunScope ∧ q.state = .ready ∧
      q.available_at ≤ clk.stop) ⟨rfl, rfl, clk.le_stop 0⟩
      (fun q hq => ⟨RunScope.eq_of_key hq, rfl, clk.le_stop 0⟩) h
  case retryAt =>
    obtain ⟨t, ht⟩ := Option.isSome_iff_exists.mp (havailable.trans rfl)
    rw [ht] at h ⊢
    exact upsertQueue_spec (fun q => q.toRunScope = new.toRunScope ∧ q.state = .ready ∧
      some t = some q.available_at) ⟨rfl, rfl, rfl⟩
      (fun q hq => ⟨RunScope.eq_of_key hq, rfl, rfl⟩) h
  all_goals
    cases h
    have hdelete := store.queue.get_deleteWhere_key new.key
    exact ⟨rfl, (hdelete new.key).trans (if_pos rfl), fun k hk => (hdelete k).trans (if_neg hk)⟩

theorem RunStore.sync_total (store : RunStore) (clk : Clock Time) (hcheck : new.check = true) :
    ∃ store', store.sync new clk = .ok store' := by
  unfold sync
  cases hstate : new.state
  case running =>
    obtain ⟨howner, -, -⟩ := RunRow.lease_of_check hcheck hstate
    exact store.upsertQueue_total _ _ (by simp [QueueRow.check, howner])
      fun q => ⟨by simp [QueueRow.check, howner], rfl⟩
  case ready | retryAt =>
    exact store.upsertQueue_total _ _ (by simp [QueueRow.check]) fun q => ⟨by simp [QueueRow.check], rfl⟩
  all_goals exact ⟨_, rfl⟩

/-! ## Statements on the Runs -/

theorem RunStore.insert_spec (h : store.insert row clk = .ok store') :
    row.check = true ∧ store.runs.get row.key = none ∧
      (∀ k, store'.runs.get k = if k = row.key then some row else store.runs.get k) ∧
      InSync clk.stop row (store'.queue.get row.key) ∧
      ∀ k ≠ row.key, store'.queue.get k = store.queue.get k := by
  simp only [insert, statement_eq_ok, ok_iff] at h
  obtain ⟨runs, hruns, hsync⟩ := h
  obtain ⟨hcheck, -, -⟩ := Table.insert_eq_ok hruns
  obtain ⟨hsame, hq, hother⟩ := sync_spec hcheck hsync
  refine ⟨hcheck, Table.get_none_of_insert hruns, fun k => ?_, hq, hother⟩
  rw [hsame]
  exact Table.get_insert hruns k

theorem RunStore.update_spec (hr : store.runs.get k = some r) (h : store.update k f clk = .ok store') :
    (f r).check = true ∧ (f r).key = k ∧ (∀ k', store'.runs.get k' = if k' = k then some (f r) else store.runs.get k') ∧
      InSync clk.stop (f r) (store'.queue.get k) ∧
      ∀ k' ≠ k, store'.queue.get k' = store.queue.get k' := by
  simp only [update, statement_eq_ok, ok_iff] at h
  obtain ⟨runs, hruns, hsync⟩ := h
  obtain ⟨hcheck, hkey, -⟩ := Table.update_eq_ok hr hruns
  have hget := Table.get_update hruns
  have hnew : runs.get k = some (f r) := by rw [hget, if_pos rfl, hr]; rfl
  rw [hnew] at hsync
  obtain ⟨hsame, hq, hother⟩ := sync_spec hcheck hsync
  have hkey' : (f r).key = k := hkey
  rw [hkey'] at hq hother
  refine ⟨hcheck, hkey, fun k' => ?_, hq, hother⟩
  rw [hsame, hget, hr]
  rfl

theorem RunStore.update_of_none (hr : store.runs.get k = none) (h : store.update k f clk = .ok store') :
    store' = store := by
  simp only [update, statement_eq_ok, ok_iff] at h
  obtain ⟨runs, hruns, hsync⟩ := h
  rw [Table.update_of_none hr hruns] at hsync
  rw [hr] at hsync
  exact (pure_eq_ok.mp hsync).symm

theorem RunStore.update_total (store : RunStore) (clk : Clock Time) (hr : store.runs.get k = some r)
    (hcheck : (f r).check = true) (hkey : (f r).key = k) : ∃ store', store.update k f clk = .ok store' := by
  obtain ⟨runs, hruns⟩ := Table.update_total hr hcheck hkey fun _ => ⟨rfl, rfl⟩
  have hnew : runs.get k = some (f r) := by rw [Table.get_update hruns, if_pos rfl, hr]; rfl
  obtain ⟨store', hsync⟩ := RunStore.sync_total { store with runs := runs } clk hcheck
  refine ⟨store', ?_⟩
  simp only [update, statement_eq_ok, ok_iff]
  exact ⟨runs, hruns, by rw [hnew]; exact hsync⟩

theorem RunStore.extend_spec (h : store.extend k leaseUntil = .ok store') : (∀ k', store'.runs.get k' = if k' = k then
      (store.runs.get k).map fun r => { r with lease_until := some leaseUntil }
      else store.runs.get k') ∧ store'.queue = store.queue := by
  simp only [extend, statement_eq_ok, ok_iff] at h
  obtain ⟨runs, hruns, rfl⟩ := h
  exact ⟨Table.get_update hruns, rfl⟩

/-! ## The invariant -/

theorem RunStore.synced_empty (seq : ℕ) (now : Time) : RunStore.Synced ⟨.empty, .empty, seq⟩ now := fun _ => rfl

theorem RunStore.Synced.insert (hs : store.Synced clk.stop) (h : store.insert row clk = .ok store') :
    store'.Synced clk.stop := by
  obtain ⟨-, -, hruns, hq, hother⟩ := RunStore.insert_spec h
  intro k
  rw [hruns]
  by_cases hk : k = row.key
  · rw [if_pos hk, hk]
    exact hq
  · rw [if_neg hk, hother k hk]
    exact hs k

theorem RunStore.Synced.update (hs : store.Synced clk.stop) (h : store.update k f clk = .ok store') :
    store'.Synced clk.stop := by
  cases hr : store.runs.get k with
  | none => rwa [RunStore.update_of_none hr h]
  | some r =>
    obtain ⟨-, -, hruns, hq, hother⟩ := RunStore.update_spec hr h
    intro k'
    rw [hruns]
    by_cases hk : k' = k
    · rw [if_pos hk, hk]
      exact hq
    · rw [if_neg hk, hother k' hk]
      exact hs k'

theorem RunStore.Synced.extend (hs : store.Synced now) (h : store.extend k leaseUntil = .ok store') :
    store'.Synced now := by
  obtain ⟨hruns, hqueue⟩ := RunStore.extend_spec h
  intro k'
  have hk := hs k'
  rw [hruns, hqueue]
  by_cases hkk : k' = k
  · subst hkk
    rw [if_pos rfl]
    cases hr : store.runs.get k' with
    | none => simpa [hr] using hk
    | some r =>
      rw [hr] at hk
      -- The trigger reads neither end of a lease, and neither does `InSync`.
      exact hk
  · rw [if_neg hkk]
    exact hk

end Aftercare
