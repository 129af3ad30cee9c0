import Mathlib.Data.Finset.Union
import Mathlib.Data.Finset.Card
import Aftercare.System.SlotTransactions
import Aftercare.System.Calls

/-!
# Execution slots and their limits

Any number of connections acquire, renew and release slots, statement by statement. `renew_slot` may have renewed a
slot and not be committed when the lease that the others see runs out; a count in that moment leaves the slot out
(`slots_over_limit`). Otherwise the limits are kept: the proof follows the keys of all slots in use in some
version (`SlotSessions.promised`).
-/

namespace Aftercare

open Relational

variable {τ : Type} {limits : Table limitSchema} {scope : LimitScope} {t t' : Time}

/-! ## Slots in use -/

variable {slot : SlotRow} {txn : SlotTxn}

theorem SlotRow.countsFor_iff : slot.countsFor scope t = true ↔
    t < slot.lease_until ∧ (scope = .global ∨ scope = .tenant slot.tenant_id) := by
  simp only [SlotRow.countsFor, Bool.and_eq_true, Bool.or_eq_true, decide_eq_true_eq, beq_iff_eq]

theorem SlotRow.countsFor_later (hle : t ≤ t') (h : slot.countsFor scope t' = true) :
    slot.countsFor scope t = true := by
  rw [SlotRow.countsFor_iff] at h ⊢
  exact ⟨hle.trans_lt h.1, h.2⟩

theorem SlotRow.countsFor_of_key {slot' : SlotRow} (hkey : slot.key = slot'.key)
    (h : slot.countsFor scope t = true) (hlive : t' < slot'.lease_until) : slot'.countsFor scope t' = true := by
  have htenant : slot.tenant_id = slot'.tenant_id := congrArg Prod.fst hkey
  rw [SlotRow.countsFor_iff] at h ⊢
  rw [← htenant]
  exact ⟨hlive, h.2⟩

theorem mem_limitsFor {limit : LimitRow} {claim : ExecutionClaim} (hlimit : limits.get scope = some limit)
    (hkey : slot.key = claim.key) (h : slot.countsFor scope t = true) : scope ∈ limitsFor limits claim := by
  have htenant : slot.tenant_id = claim.tenant_id := congrArg Prod.fst hkey
  refine List.mem_filter.mpr ⟨?_, by rw [hlimit]; rfl⟩
  rcases (SlotRow.countsFor_iff.mp h).2 with rfl | rfl
  · exact List.mem_cons_self
  · rw [htenant]
    exact List.mem_cons_of_mem _ List.mem_cons_self

theorem countsFor_of_mem_limitsFor {claim : ExecutionClaim} (h : scope ∈ limitsFor limits claim)
    (hkey : slot.key = claim.key) (hlive : t < slot.lease_until) : slot.countsFor scope t = true := by
  have htenant : slot.tenant_id = claim.tenant_id := congrArg Prod.fst hkey
  have hmem := List.mem_of_mem_filter h
  rw [List.mem_cons, List.mem_singleton, ← htenant] at hmem
  exact SlotRow.countsFor_iff.mpr ⟨hlive, hmem⟩

/-- A committed or open version of a slot. -/
def SlotSessions.Version (s : SlotSessions τ) (slot : SlotRow) : Prop :=
  slot ∈ s.rows ∨ ∃ i, slot ∈ (s.drafts i).added

theorem version_draft [DecidableEq τ] {s : SlotSessions τ} {i : τ}
    {draft : Draft SlotRow RunKey} (h : SlotSessions.Version
    ⟨s.draft i draft, Function.update s.txns i (some txn)⟩ slot) : s.Version slot ∨ slot ∈ draft.added := by
  rcases h with hmem | ⟨j, hmem⟩
  · exact .inl (.inl hmem)
  · by_cases hji : j = i
    · subst hji
      rw [Snapshots.draft_self] at hmem
      exact .inr hmem
    · rw [Snapshots.draft_of_ne _ hji] at hmem
      exact .inl (.inr ⟨j, hmem⟩)

/-- The limits that an acquisition has passed. -/
def SlotTxn.clearedFor (txn : SlotTxn) (scope : LimitScope) : Bool :=
  decide (scope ∈ txn.limits) &&
    match txn.stage with
    | .extending _ | .inserting => true
    | .counting (.tenant _) => scope == .global
    | _ => false

theorem SlotTxn.mem_limits_of_cleared (h : txn.clearedFor scope = true) : scope ∈ txn.limits := by
  rw [SlotTxn.clearedFor, Bool.and_eq_true, decide_eq_true_eq] at h
  exact h.1

theorem clearedFor_of_stage {rows : List SlotRow} {draft : Draft SlotRow RunKey}
    (hjustified : txn.Justified limits rows t draft)
    (hstage : (∃ slot, txn.stage = .extending slot) ∨ txn.stage = .inserting) {limit : LimitRow}
    (hlimit : limits.get scope = some limit) {new : SlotRow} (hkey : new.key = txn.call.claim.key)
    (hcounts : new.countsFor scope t' = true) : txn.clearedFor scope = true := by
  have hheld : txn.stage.holding = true := by
    rcases hstage with ⟨slot, hstage⟩ | hstage <;> rw [hstage] <;> rfl
  have hmem : scope ∈ txn.limits := by
    rw [hjustified.limited (.inl hheld) (hjustified.acquires hheld)]
    exact mem_limitsFor hlimit hkey hcounts
  rw [SlotTxn.clearedFor, Bool.and_eq_true, decide_eq_true_eq]
  refine ⟨hmem, ?_⟩
  rcases hstage with ⟨slot, hstage⟩ | hstage <;> rw [hstage]

variable [Fintype τ]

/-- The Runs with a slot that is in use at a time, in some version. -/
def SlotSessions.promised (s : SlotSessions τ) (scope : LimitScope) (t : Time) : Finset RunKey :=
  ((s.rows.toFinset ∪ Finset.univ.biUnion fun i => (s.drafts i).added.toFinset).filter
    (·.countsFor scope t)).image slotSchema.key

theorem SlotSessions.mem_promised {s : SlotSessions τ} {k : RunKey} :
    k ∈ s.promised scope t ↔ ∃ slot, s.Version slot ∧ slot.countsFor scope t = true ∧ slot.key = k := by
  simp only [promised, Finset.mem_image, Finset.mem_filter, Finset.mem_union, List.mem_toFinset,
    Finset.mem_biUnion, Finset.mem_univ, true_and, Version, and_assoc, slotSchema_key]

theorem SlotSessions.promised_mono {s s' : SlotSessions τ} (hle : t ≤ t')
    (h : ∀ slot, s'.Version slot → s.Version slot) : s'.promised scope t' ⊆ s.promised scope t := by
  intro k hk
  obtain ⟨slot, hslot, hcounts, rfl⟩ := mem_promised.mp hk
  exact mem_promised.mpr ⟨slot, h slot hslot, SlotRow.countsFor_later hle hcounts, rfl⟩

theorem SlotSessions.length_le_promised {s : SlotSessions τ} (hs : s.Sound slotSchema.key) :
    (s.rows.filter (·.countsFor scope t)).length ≤ (s.promised scope t).card := by
  have hnodup : ((s.rows.filter (·.countsFor scope t)).map slotSchema.key).Nodup :=
    hs.rows.sublist (List.filter_sublist.map _)
  rw [← List.length_map (f := slotSchema.key), ← List.toFinset_card_of_nodup hnodup]
  refine Finset.card_le_card fun k hk => ?_
  obtain ⟨slot, hslot, rfl⟩ := List.mem_map.mp (List.mem_toFinset.mp hk)
  obtain ⟨hmem, hcounts⟩ := List.mem_filter.mp hslot
  exact mem_promised.mpr ⟨slot, .inl hmem, hcounts, rfl⟩

/-! ## Counts -/

def SlotCall.renews : SlotCall → Bool
  | .renew _ _ => true
  | _ => false

/-- The limit that the next statement counts against. -/
def SlotTxn.counts (txn : SlotTxn) : Option LimitScope :=
  match txn.stage with
  | .counting scope => some scope
  | _ => none

/-- A counted slot was renewed, not committed, and the old lease has run out. -/
def SlotSessions.Overtaken (s : SlotSessions τ) (t : Time) (i : τ) (scope : LimitScope) : Prop :=
  ∃ j, j ≠ i ∧ (s.txns j).any (·.call.renews) = true ∧
    ∃ new ∈ (s.drafts j).added, (scope = .global ∨ scope = .tenant new.tenant_id) ∧
      ∃ old ∈ s.rows, old.key = new.key ∧ old.lease_until ≤ t

def CountsSettled (limits : Table limitSchema) (s : SlotSessions τ) (clk : Clock Time)
    (step : τ × SlotOp) : Prop :=
  step.2 = .proceed → ∀ txn ∈ s.txns step.1, ∀ scope ∈ txn.counts, (limits.get scope).isSome = true →
    ¬s.Overtaken (clk.read 0) step.1 scope

instance [DecidableEq τ] (s : SlotSessions τ) (t : Time) (i : τ) (scope : LimitScope) :
    Decidable (s.Overtaken t i scope) :=
  inferInstanceAs (Decidable (∃ _, _))

instance [DecidableEq τ] (limits : Table limitSchema) (s : SlotSessions τ) (clk : Clock Time)
    (step : τ × SlotOp) : Decidable (CountsSettled limits s clk step) :=
  inferInstanceAs (Decidable (_ → _))

/-- The promised slots, with that of a passing acquisition, fit the limits. -/
structure SlotSessions.Bounded (limits : Table limitSchema) (s : SlotSessions τ) (t : Time) : Prop where
  promised : ∀ scope limit, limits.get scope = some limit →
    (s.promised scope t).card ≤ limit.max_active_slots
  cleared : ∀ i txn scope limit, s.txns i = some txn → limits.get scope = some limit →
    txn.clearedFor scope = true →
    (insert txn.call.claim.key (s.promised scope t)).card ≤ limit.max_active_slots

section Counting

variable {s : SlotSessions τ} {i : τ} {txn : SlotTxn}

theorem promised_subset_view (hs : s.Orderly limits t) (htxn : s.txns i = some txn)
    (hstage : txn.stage = .counting scope) {limit : LimitRow} (hlimit : limits.get scope = some limit)
    (hsettled : ¬s.Overtaken t i scope) :
    s.promised scope t ⊆ (((s.view i).filter (·.countsFor scope t)).map slotSchema.key).toFinset := by
  have hjustified := hs.justified i txn htxn
  have hne : txn.stage ≠ .returned := by rw [hstage]; exact fun h => by cases h
  have hheld : txn.stage.holding = true := by rw [hstage]; rfl
  have hlimits := hjustified.limited (.inl hheld) (hjustified.acquires hheld)
  have hown : scope ∈ txn.limits := by
    have hfits := hjustified.fits
    rw [hlimits]
    rw [hstage] at hfits
    refine List.mem_filter.mpr ⟨?_, by rw [hlimit]; rfl⟩
    match scope, hfits with
    | .global, _ => exact List.mem_cons_self
    | .tenant id, hid =>
      cases hid
      exact List.mem_cons_of_mem _ List.mem_cons_self
  -- A committed slot in use was not swept, so it is in view.
  have hcommitted : ∀ slot ∈ s.rows, slot.countsFor scope t = true →
      slot.key ∈ (((s.view i).filter (·.countsFor scope t)).map slotSchema.key).toFinset := by
    intro slot hslot hcounts
    have hkept : slot.key ∉ (s.drafts i).removed := fun hremoved => absurd (SlotRow.countsFor_iff.mp hcounts).1
        (not_lt.mpr (hjustified.expired hne slot hslot hremoved))
    rw [List.mem_toFinset]
    exact List.mem_map_of_mem (List.mem_filter.mpr ⟨Draft.mem_view.mpr (.inl ⟨hslot, hkept⟩), hcounts⟩)
  intro k hk
  obtain ⟨slot, hversion, hcounts, rfl⟩ := SlotSessions.mem_promised.mp hk
  rcases hversion with hslot | ⟨j, hslot⟩
  · exact hcommitted slot hslot hcounts
  · have hji : j ≠ i := by
      rintro rfl
      rw [hjustified.added_nil hne] at hslot
      cases hslot
    cases htxn' : s.txns j with
    | none =>
      rw [hs.idle j htxn'] at hslot
      cases hslot
    | some txn' =>
      have hjustified' := hs.justified j txn' htxn'
      have howned := (hjustified'.added slot hslot).2
      cases hcall : txn'.call with
      | acquire claim lease =>
        -- Another acquisition that has written holds the lock of the limit.
        have hlimits' := hjustified'.limited (.inr (List.ne_nil_of_mem hslot)) ⟨claim, lease, hcall⟩
        have hother : scope ∈ txn'.limits := by
          rw [hlimits']
          exact mem_limitsFor hlimit howned.key hcounts
        refine absurd ?_ (hs.limits_free htxn scope hown j hji)
        rw [SlotSessions.limitsOf, htxn']
        exact hother
      | renew claim lease =>
        obtain ⟨old, hold, hkey⟩ := hjustified'.renewed ⟨claim, lease, hcall⟩ slot hslot
        have hlive : t < old.lease_until := not_le.mp fun hover =>
          hsettled ⟨j, hji, by rw [htxn', Option.any_some, hcall]; rfl, slot, hslot,
            (SlotRow.countsFor_iff.mp hcounts).2, old, hold, hkey, hover⟩
        rw [← hkey]
        exact hcommitted old hold (SlotRow.countsFor_of_key hkey.symm hcounts hlive)
      | release claim =>
        rw [hjustified'.released claim hcall] at hslot
        cases hslot

theorem room_of_count (hs : s.Orderly limits t) (htxn : s.txns i = some txn)
    (hstage : txn.stage = .counting scope) {limit : LimitRow} (hlimit : limits.get scope = some limit)
    (hsettled : ¬s.Overtaken t i scope)
    (hcount : ((s.view i).filter (·.countsFor scope t)).length < limit.max_active_slots) (k : RunKey) :
    (insert k (s.promised scope t)).card ≤ limit.max_active_slots := by
  have hsubset := Finset.card_le_card (promised_subset_view hs htxn hstage hlimit hsettled)
  have hview := List.toFinset_card_le (((s.view i).filter (·.countsFor scope t)).map slotSchema.key)
  rw [List.length_map] at hview
  have hinsert := Finset.card_insert_le k (s.promised scope t)
  omega

end Counting

/-! ## One step -/

section Step

variable {s s' : SlotSessions τ} {clk : Clock Time} {i : τ} {txn txn' : SlotTxn}
  {draft : Draft SlotRow RunKey}

/-- The promised slots are the same or fewer, or one that fits is added. -/
theorem SlotSessions.Bounded.step (hb : s.Bounded limits t) (hs : s.Orderly limits t)
    (hothers : ∀ j, j ≠ i → s'.txns j = s.txns j)
    (hpromised : ∀ scope, s'.promised scope t' ⊆ s.promised scope t ∨ ∀ limit,
      limits.get scope = some limit → ∃ txn, s.txns i = some txn ∧ txn.clearedFor scope = true ∧
        s'.promised scope t' ⊆ insert txn.call.claim.key (s.promised scope t))
    (hown : ∀ txn scope limit, s'.txns i = some txn → limits.get scope = some limit →
      txn.clearedFor scope = true → s'.promised scope t' ⊆ s.promised scope t ∧
        (insert txn.call.claim.key (s.promised scope t)).card ≤ limit.max_active_slots) :
    s'.Bounded limits t' where
  promised scope limit hlimit := by
    rcases hpromised scope with hsubset | hadds
    · exact (Finset.card_le_card hsubset).trans (hb.promised scope limit hlimit)
    · obtain ⟨txn, htxn, hcleared, hsubset⟩ := hadds limit hlimit
      exact (Finset.card_le_card hsubset).trans (hb.cleared i txn scope limit htxn hlimit hcleared)
  cleared j txn scope limit htxn hlimit hcleared := by
    by_cases hji : j = i
    · subst hji
      obtain ⟨hsubset, hroom⟩ := hown txn scope limit htxn hlimit hcleared
      exact (Finset.card_le_card (Finset.insert_subset_insert _ hsubset)).trans hroom
    · rw [hothers j hji] at htxn
      rcases hpromised scope with hsubset | hadds
      · exact (Finset.card_le_card (Finset.insert_subset_insert _ hsubset)).trans
          (hb.cleared j txn scope limit htxn hlimit hcleared)
      · -- Two acquisitions cannot both have passed a limit: the first still holds its lock.
        obtain ⟨txn', htxn', hcleared', -⟩ := hadds limit hlimit
        refine absurd ?_ (hs.limits_free htxn' scope (SlotTxn.mem_limits_of_cleared hcleared') j hji)
        rw [SlotSessions.limitsOf, htxn]
        exact SlotTxn.mem_limits_of_cleared hcleared

variable [DecidableEq τ]

theorem promised_of_added_nil (s : SlotSessions τ) (i : τ) (txn' : SlotTxn) (hle : t ≤ t')
    (h : draft.added = []) (scope : LimitScope) :
    SlotSessions.promised ⟨s.draft i draft, Function.update s.txns i (some txn')⟩ scope t' ⊆ s.promised scope t := by
  refine SlotSessions.promised_mono hle fun slot hslot => ?_
  rcases version_draft hslot with hslot | hadded
  · exact hslot
  · rw [h] at hadded
    cases hadded

theorem promised_of_write (s : SlotSessions τ) (i : τ) (txn' : SlotTxn) (hle : t ≤ t') {new : SlotRow}
    (h : draft.added = [new]) (scope : LimitScope) :
    SlotSessions.promised ⟨s.draft i draft, Function.update s.txns i (some txn')⟩ scope t' ⊆
        s.promised scope t ∨ new.countsFor scope t' = true ∧
      SlotSessions.promised ⟨s.draft i draft, Function.update s.txns i (some txn')⟩ scope t' ⊆
        insert new.key (s.promised scope t) := by
  by_cases hcounts : new.countsFor scope t' = true
  · refine .inr ⟨hcounts, fun k hk => ?_⟩
    obtain ⟨slot, hslot, hcounts', rfl⟩ := SlotSessions.mem_promised.mp hk
    rcases version_draft hslot with hslot | hadded
    · exact Finset.mem_insert_of_mem (SlotSessions.mem_promised.mpr
        ⟨slot, hslot, SlotRow.countsFor_later hle hcounts', rfl⟩)
    · rw [h, List.mem_singleton] at hadded
      rw [hadded]
      exact Finset.mem_insert_self _ _
  · refine .inl fun k hk => ?_
    obtain ⟨slot, hslot, hcounts', rfl⟩ := SlotSessions.mem_promised.mp hk
    rcases version_draft hslot with hslot | hadded
    · exact SlotSessions.mem_promised.mpr ⟨slot, hslot, SlotRow.countsFor_later hle hcounts', rfl⟩
    · rw [h, List.mem_singleton] at hadded
      rw [hadded] at hcounts'
      exact absurd hcounts' hcounts

theorem SlotSessions.Bounded.quiet (hb : s.Bounded limits (clk.read 0)) (hs : s.Orderly limits (clk.read 0))
    (hadded : draft.added = [])
    (hroom : ∀ scope limit, limits.get scope = some limit → txn'.clearedFor scope = true →
      (insert txn'.call.claim.key (s.promised scope (clk.read 0))).card ≤ limit.max_active_slots) :
    SlotSessions.Bounded limits ⟨s.draft i draft, Function.update s.txns i (some txn')⟩ clk.stop := by
  have hsubset := promised_of_added_nil s i txn' clk.start_le_stop hadded
  refine hb.step hs (fun j hj => Function.update_of_ne hj _ _) (fun scope => .inl (hsubset scope)) ?_
  intro txn'' scope limit htxn hlimit hcleared
  obtain rfl : txn' = txn'' := by simpa using htxn
  exact ⟨hsubset scope, hroom scope limit hlimit hcleared⟩

theorem SlotSessions.Bounded.writes (hb : s.Bounded limits (clk.read 0)) (hs : s.Orderly limits (clk.read 0))
    (hreturned : txn'.stage = .returned) {new : SlotRow} (hadded : draft.added = [new])
    (hnew : ∀ scope limit, limits.get scope = some limit → new.countsFor scope clk.stop = true →
      new.key ∈ s.promised scope (clk.read 0) ∨
        ∃ txn, s.txns i = some txn ∧ txn.clearedFor scope = true ∧ new.key = txn.call.claim.key) :
    SlotSessions.Bounded limits ⟨s.draft i draft, Function.update s.txns i (some txn')⟩ clk.stop := by
  refine hb.step hs (fun j hj => Function.update_of_ne hj _ _) (fun scope => ?_) ?_
  · rcases promised_of_write s i txn' clk.start_le_stop hadded scope with
      hsubset | ⟨hcounts, hsubset⟩
    · exact .inl hsubset
    · by_cases hmem : new.key ∈ s.promised scope (clk.read 0)
      · rw [Finset.insert_eq_of_mem hmem] at hsubset
        exact .inl hsubset
      · refine .inr fun limit hlimit => ?_
        obtain ⟨txn, htxn, hcleared, hkey⟩ := (hnew scope limit hlimit hcounts).resolve_left hmem
        rw [hkey] at hsubset
        exact ⟨txn, htxn, hcleared, hsubset⟩
  · intro txn'' scope limit htxn hlimit hcleared
    obtain rfl : txn' = txn'' := by simpa using htxn
    rw [SlotTxn.clearedFor, hreturned, Bool.and_false] at hcleared
    cases hcleared

/-- **One statement** keeps the promised slots within the limits. -/
theorem Executes.bounded (h : Executes limits s clk i txn txn' draft) (htxn : s.txns i = some txn)
    (hs : s.Orderly limits (clk.read 0)) (hb : s.Bounded limits (clk.read 0))
    (hsettled : CountsSettled limits s clk (i, .proceed)) :
    SlotSessions.Bounded limits ⟨s.draft i draft, Function.update s.txns i (some txn')⟩ clk.stop := by
  have hjustified := hs.justified i txn htxn
  have hne := h.not_returned
  have hnil := hjustified.added_nil hne
  have hfits := hjustified.fits
  have hheld : txn.stage.holding = true → txn.limits = limitsFor limits txn.call.claim := fun hheld =>
    hjustified.limited (.inl hheld) (hjustified.acquires hheld)
  cases h
  case raises | unlimited | limits | absent | selects | ranOut | unowned =>
    exact hb.quiet hs hnil fun scope limit hlimit hcleared => by
      simp [SlotTxn.clearedFor] at hcleared
  case drops | sweeps | releases =>
    refine hb.quiet hs (Draft.added_delete hnil _)
      fun scope limit hlimit hcleared => by simp [SlotTxn.clearedFor] at hcleared
  case inUse existing hstage hlive howner htoken =>
    refine hb.quiet hs hnil fun scope limit hlimit hcleared => ?_
    -- The slot that is to be renewed is in use, so it is promised already.
    have hmem := SlotTxn.mem_limits_of_cleared hcleared
    change scope ∈ txn.limits at hmem
    rw [hheld (by rw [hstage]; rfl)] at hmem
    rw [hstage] at hfits
    have hpromised : txn.call.claim.key ∈ s.promised scope (clk.read 0) := SlotSessions.mem_promised.mpr
      ⟨existing, .inl hfits.1, countsFor_of_mem_limitsFor hmem hfits.2.1 hlive, hfits.2.1⟩
    have hroom := hb.promised scope limit hlimit
    rw [← Finset.insert_eq_of_mem hpromised] at hroom
    exact hroom
  case counts counted hstage hcount =>
    have hcounted : ∀ limit, limits.get counted = some limit →
        (insert txn.call.claim.key (s.promised counted (clk.read 0))).card ≤ limit.max_active_slots :=
      fun limit hlimit => room_of_count hs htxn hstage hlimit
        (hsettled rfl txn htxn counted (by rw [SlotTxn.counts, hstage]; rfl) (by rw [hlimit]; rfl))
        (hcount limit hlimit) _
    refine hb.quiet hs hnil fun scope limit hlimit hcleared => ?_
    have hmem := SlotTxn.mem_limits_of_cleared hcleared
    change scope ∈ txn.limits at hmem
    cases counted with
    | global =>
      -- Only the global limit has been passed so far.
      obtain rfl : scope = .global := by
        simp only [SlotTxn.clearedFor, if_pos, Bool.and_eq_true, beq_iff_eq] at hcleared
        exact hcleared.2
      exact hcounted limit hlimit
    | tenant id =>
      rw [hheld (by rw [hstage]; rfl)] at hmem
      rw [hstage] at hfits
      have hcase := List.mem_of_mem_filter hmem
      rw [List.mem_cons, List.mem_singleton] at hcase
      rcases hcase with rfl | rfl
      · refine hb.cleared i txn .global limit htxn hlimit ?_
        rw [SlotTxn.clearedFor, hstage, hheld (by rw [hstage]; rfl), decide_eq_true hmem]
        rfl
      · cases hfits
        exact hcounted limit hlimit
  case prolongs existing lease_until hstage =>
    rw [hstage] at hfits
    have hkey : ({ existing with lease_until := lease_until } : SlotRow).key = txn.call.claim.key := hfits.2.1.key
    refine hb.writes hs rfl (Draft.added_write hnil _) fun scope limit hlimit hcounts => .inr ⟨txn, htxn, ?_, hkey⟩
    exact clearedFor_of_stage hjustified (.inl ⟨existing, hstage⟩) hlimit hkey hcounts
  case inserts lease_until hstage hfree habsent =>
    refine hb.writes hs rfl (Draft.added_write hnil _) fun scope limit hlimit hcounts => .inr ⟨txn, htxn, ?_, rfl⟩
    exact clearedFor_of_stage hjustified (.inr hstage) hlimit rfl hcounts
  case renews claim lease slot lease_until hcall hstage hmem howned hlive hfree =>
    have hkey : ({ slot with lease_until := lease_until } : SlotRow).key = slot.key := rfl
    refine hb.writes hs rfl (Draft.added_write hnil _)
      fun scope limit hlimit hcounts => .inl (SlotSessions.mem_promised.mpr ⟨slot, ?_, ?_, rfl⟩)
    · exact .inl (mem_rows_of_view hjustified hne hmem)
    · exact SlotRow.countsFor_of_key hkey hcounts hlive

/-- **One step** keeps the promised slots within the limits. -/
theorem SlotEvent.bounded {op : SlotOp} (h : SlotEvent limits s clk i op s')
    (hs : s.Orderly limits (clk.read 0)) (hb : s.Bounded limits (clk.read 0))
    (hsettled : CountsSettled limits s clk (i, op)) : s'.Bounded limits clk.stop := by
  have hle := clk.start_le_stop
  cases h
  case begin call hidle =>
    refine hb.step hs (fun j hj => Function.update_of_ne hj _ _)
      (fun scope => .inl (SlotSessions.promised_mono hle fun _ hslot => hslot)) ?_
    intro txn scope limit htxn hlimit hcleared
    obtain rfl : (⟨call, .start, []⟩ : SlotTxn) = txn := by simpa using htxn
    exact absurd (SlotTxn.mem_limits_of_cleared hcleared) List.not_mem_nil
  case proceed txn txn' draft htxn hexec => exact hexec.bounded htxn hs hb hsettled
  case commit txn htxn hstage =>
    refine hb.step hs (fun j hj => Function.update_of_ne hj _ _)
      (fun scope => .inl (SlotSessions.promised_mono hle fun slot hslot => ?_)) ?_
    · rcases hslot with hmem | ⟨j, hmem⟩
      · rcases Draft.mem_view.mp hmem with ⟨hmem, -⟩ | hadded
        · exact .inl hmem
        · exact .inr ⟨i, hadded⟩
      · by_cases hji : j = i
        · subst hji
          simp [Snapshots.commit, Draft.empty] at hmem
        · refine .inr ⟨j, ?_⟩
          simpa [Snapshots.commit, Function.update_of_ne hji] using hmem
    · intro txn scope limit htxn
      simp at htxn
  case rollback txn htxn =>
    refine hb.step hs (fun j hj => Function.update_of_ne hj _ _)
      (fun scope => .inl (SlotSessions.promised_mono hle fun slot hslot => ?_)) ?_
    · rcases hslot with hmem | ⟨j, hmem⟩
      · exact .inl hmem
      · by_cases hji : j = i
        · subst hji
          rw [Snapshots.draft_self] at hmem
          cases hmem
        · rw [Snapshots.draft_of_ne _ hji] at hmem
          exact .inr ⟨j, hmem⟩
    · intro txn scope limit htxn
      simp at htxn

end Step

/-! ## Whole runs -/

section Runs

variable {h : List (Transaction (SlotSessions τ) Time (τ × SlotOp) Unit SlotRefusal)} {s : SlotSessions τ}
  {t₀ : Time}

theorem SlotSessions.Bounded.later (hb : s.Bounded limits t) (hle : t ≤ t') : s.Bounded limits t' := by
  have hsubset : ∀ scope, s.promised scope t' ⊆ s.promised scope t := fun _ => promised_mono hle fun _ hslot => hslot
  refine ⟨fun scope limit hlimit => ?_, fun i txn scope limit htxn hlimit hcleared => ?_⟩
  · exact (Finset.card_le_card (hsubset scope)).trans (hb.promised scope limit hlimit)
  · exact (Finset.card_le_card (Finset.insert_subset_insert _ (hsubset scope))).trans
      (hb.cleared i txn scope limit htxn hlimit hcleared)

theorem SlotSessions.bounded_idle (limits : Table limitSchema) (t : Time) :
    (SlotSessions.idle τ []).Bounded limits t where
  promised scope limit _ := by
    have hnone : (SlotSessions.idle τ []).promised scope t = ∅ := by
      refine Finset.eq_empty_of_forall_notMem fun k hk => ?_
      obtain ⟨slot, hmem | ⟨i, hmem⟩, -⟩ := mem_promised.mp hk <;> cases hmem
    rw [hnone]
    exact Nat.zero_le _
  cleared i txn scope limit htxn := by cases htxn

variable [DecidableEq τ]

/-- **A whole run** keeps the transactions orderly. -/
theorem Runs.orderly (hr : Runs (slotEngine limits) (SlotSessions.idle τ []) t₀ h s t) : s.Orderly limits t :=
  hr.invariant (fun s t => s.Orderly limits t) (fun hle hs => hs.later hle)
    (fun hs hexec => (slotEngine_event hexec).orderly hs) (SlotSessions.orderly_idle limits t₀)

/-- **A whole run** without an overtaken count keeps the limits. -/
theorem Runs.bounded (hr : Runs (slotEngine limits) (SlotSessions.idle τ []) t₀ h s t)
    (hsettled : ∀ x ∈ h, CountsSettled limits x.before x.clock x.call) : s.Bounded limits t := by
  refine (hr.invariant_of (CountsSettled limits) (fun s t => s.Orderly limits t ∧ s.Bounded limits t)
    (fun hle hs => ⟨hs.1.later hle, hs.2.later hle⟩) (fun hs hsettled hexec => ?_) hsettled
    ⟨SlotSessions.orderly_idle limits t₀, SlotSessions.bounded_idle limits t₀⟩).2
  have hevent := slotEngine_event hexec
  exact ⟨hevent.orderly hs.1, hevent.bounded hs.1 hs.2 hsettled⟩

/-- A step changed the committed slots only by committing a transaction, which took away slots of its own claim or that
had run out, and added slots of its own claim. -/
def SlotsClaimed (x : Transaction (SlotSessions τ) Time (τ × SlotOp) Unit SlotRefusal) : Prop :=
  x.after.rows = x.before.rows ∨ ∃ i txn, x.call = (i, .commit) ∧ x.before.txns i = some txn ∧
    (∀ old ∈ x.before.rows, old ∈ x.after.rows ∨ old.OwnedBy txn.call.claim ∨
      (∃ claim lease, txn.call = .acquire claim lease) ∧ old.lease_until ≤ x.clock.read 0) ∧
    ∀ new ∈ x.after.rows, new ∈ x.before.rows ∨ new.OwnedBy txn.call.claim

theorem Runs.slotsClaimed (hr : Runs (slotEngine limits) (SlotSessions.idle τ []) t₀ h s t)
    {x : Transaction (SlotSessions τ) Time (τ × SlotOp) Unit SlotRefusal} (hx : x ∈ h) : SlotsClaimed x := by
  obtain ⟨before, clk, ⟨i, op⟩, outcome⟩ := x
  obtain ⟨h', t', hr', hle, houtcome⟩ := hr.before hx
  have hs := (Runs.orderly hr').later hle
  cases outcome with
  | error e => exact .inl rfl
  | ok result =>
    obtain ⟨s', o⟩ := result
    have hevent : SlotEvent limits before clk i op s' := slotEngine_event houtcome.symm
    cases hevent
    case begin | proceed | rollback => exact .inl rfl
    case commit txn htxn hstage =>
      have hjustified := hs.justified i txn htxn
      refine .inr ⟨i, txn, rfl, htxn, fun old hold => ?_, fun new hnew => ?_⟩
      · by_cases hremoved : old.key ∈ (before.drafts i).removed
        · exact .inr (hjustified.removed old hold hremoved)
        · exact .inl (Draft.mem_view.mpr (.inl ⟨hold, hremoved⟩))
      · rcases Draft.mem_view.mp hnew with ⟨hmem, -⟩ | hadded
        · exact .inl hmem
        · exact .inr (hjustified.added new hadded).2

/-- **Slots are within their limits** in every run in which no count is overtaken by a renewal; a Run owns at most one
slot, and only the claim that a slot stores renews or releases it. -/
theorem slots_within_limits (hr : Runs (slotEngine limits) (SlotSessions.idle τ []) t₀ h s t) :
    ((∀ x ∈ h, CountsSettled limits x.before x.clock x.call) → ∀ scope limit,
      limits.get scope = some limit → ∀ now, t ≤ now →
        (s.rows.filter (·.countsFor scope now)).length ≤ limit.max_active_slots) ∧
      (∀ a ∈ s.rows, ∀ b ∈ s.rows, a.key = b.key → a = b) ∧ ∀ x ∈ h, SlotsClaimed x := by
  have hs := Runs.orderly hr
  refine ⟨fun hsettled scope limit hlimit now hnow => ?_, fun a ha b hb => eq_of_slot_key hs.sound ha hb,
    fun x hx => Runs.slotsClaimed hr hx⟩
  have hb := (Runs.bounded hr hsettled).later hnow
  exact (SlotSessions.length_le_promised hs.sound).trans (hb.promised scope limit hlimit)

/-! ## Two connections and one slot -/

def oneSlot : Table limitSchema where
  rows := [⟨.global, 1⟩]
  apart := List.pairwise_singleton _ _
  checked := by decide

def otherClaim : ExecutionClaim :=
  { sampleClaim with run_id := ⟨"run-2", Eq.refl true⟩, owner := ⟨"worker-2", Eq.refl true⟩ }

/-- A connection acquires the slot until time 10, and commits. -/
def acquiringSteps : List (Time × Bool × SlotOp) :=
  (1, false, .begin (.acquire sampleClaim 9)) ::
    List.replicate 7 (1, false, .proceed) ++ [(1, false, .commit)]

/-- Another connection asks for the slot, and is refused. -/
def refusedSteps : List (Time × Bool × SlotOp) :=
  acquiringSteps ++ (5, true, .begin (.acquire otherClaim 60)) ::
    List.replicate 5 (5, true, .proceed) ++ [(5, true, .rollback)]

/-- The second connection has its turn, and one slot is in use. -/
theorem slots_within_limits_refused :
    (replay (slotEngine oneSlot) (SlotSessions.idle Bool []) refusedSteps).rows.length = 1 ∧
      ∀ now, 5 ≤ now → ((replay (slotEngine oneSlot) (SlotSessions.idle Bool []) refusedSteps).rows.filter
        (·.countsFor .global now)).length ≤ 1 := by
  refine ⟨by decide, ?_⟩
  have hr := replay_runs (slotEngine oneSlot) refusedSteps (SlotSessions.idle Bool []) 0 (by decide)
  exact (slots_within_limits hr).1 (by decide) .global ⟨.global, 1⟩ rfl

/-- A renewal at 9 is not committed when the second connection counts at 11. -/
def overtakenSteps : List (Time × Bool × SlotOp) :=
  acquiringSteps ++ (8, true, .begin (.acquire otherClaim 60)) ::
    List.replicate 4 (8, true, .proceed) ++
    [(9, false, .begin (.renew sampleClaim 60)), (9, false, .proceed)] ++
    List.replicate 3 (11, true, .proceed) ++ [(11, true, .commit), (12, false, .commit)]

/-- Two slots are in use where the limit is one. -/
theorem slots_over_limit : ∃ h s, Runs (slotEngine oneSlot) (SlotSessions.idle Bool []) 0 h s 12 ∧
    oneSlot.get .global = some ⟨.global, 1⟩ ∧ (s.rows.filter (·.countsFor .global 12)).length = 2 :=
  ⟨_, _, replay_runs (slotEngine oneSlot) overtakenSteps (SlotSessions.idle Bool []) 0 (by decide), rfl,
    by decide⟩

end Runs

end Aftercare
