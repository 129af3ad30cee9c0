import Aftercare.Persistence.SlotSessions

/-!
# What the transactions on the slots may change

`Executes` says what one statement does, and `SlotEvent` what one step of a connection does. From them follows what
holds of every open transaction (`SlotTxn.Justified`). The rows that it has locked stay committed as it knows them.
-/

namespace Aftercare

open Relational

variable {τ : Type}

/-! ## What one statement does -/

section Statements

variable [Fintype τ] [DecidableEq τ]

inductive Executes (limits : Table limitSchema) (s : SlotSessions τ) (clk : Clock Time) (i : τ)
    (txn : SlotTxn) : SlotTxn → Draft SlotRow RunKey → Prop
  /-- The call raises. -/
  | raises {failure : Failure} (hstage : txn.stage ≠ .returned) :
      Executes limits s clk i txn { txn with stage := .raised failure } (s.drafts i)
  /-- There is no limit, so that there is nothing to acquire. -/
  | unlimited (hstage : txn.stage = .start) :
      Executes limits s clk i txn { txn with stage := .returned } (s.drafts i)
  | limits {claim : ExecutionClaim} {lease : ℤ} (hcall : txn.call = .acquire claim lease)
      (hstage : txn.stage = .start)
      (hfree : ∀ scope ∈ limitsFor limits claim, s.LimitFree i scope) :
      Executes limits s clk i txn { txn with stage := .limited, limits := limitsFor limits claim }
        (s.drafts i)
  | absent (hstage : txn.stage = .limited) :
      Executes limits s clk i txn { txn with stage := .found none } (s.drafts i)
  | selects {existing : SlotRow} (hstage : txn.stage = .limited) (hmem : existing ∈ s.view i)
      (hkey : existing.key = txn.call.claim.key) (hfree : s.Free i txn.call.claim.key) :
      Executes limits s clk i txn { txn with stage := .found (some existing) }
        ((s.drafts i).lock txn.call.claim.key)
  | inUse {existing : SlotRow} (hstage : txn.stage = .found (some existing))
      (hlive : clk.read 0 < existing.lease_until) (howner : existing.owner = txn.call.claim.owner)
      (htoken : existing.fencing_token = txn.call.claim.fencing_token) :
      Executes limits s clk i txn { txn with stage := .extending existing } (s.drafts i)
  | ranOut {existing : SlotRow} (hstage : txn.stage = .found (some existing))
      (hover : existing.lease_until ≤ clk.read 0) :
      Executes limits s clk i txn { txn with stage := .dropping } (s.drafts i)
  | unowned (hstage : txn.stage = .found none) :
      Executes limits s clk i txn { txn with stage := .sweeping } (s.drafts i)
  | prolongs {existing : SlotRow} {lease_until : Time} (hstage : txn.stage = .extending existing) :
      Executes limits s clk i txn { txn with stage := .returned }
        ((s.drafts i).write slotSchema.key { existing with lease_until := lease_until })
  | drops (hstage : txn.stage = .dropping) :
      Executes limits s clk i txn { txn with stage := .sweeping }
        ((s.drafts i).delete slotSchema.key [txn.call.claim.key])
  | sweeps {expired : List RunKey} (hstage : txn.stage = .sweeping)
      (hfree : ∀ k ∈ expired, s.Free i k)
      (hover : ∀ k ∈ expired, ∃ slot ∈ s.view i, slot.key = k ∧ slot.lease_until ≤ clk.read 0) :
      Executes limits s clk i txn { txn with stage := .counting .global }
        ((s.drafts i).delete slotSchema.key expired)
  | counts {scope : LimitScope} (hstage : txn.stage = .counting scope)
      (hcount : ∀ limit, limits.get scope = some limit →
        ((s.view i).filter (·.countsFor scope (clk.read 0))).length < limit.max_active_slots) :
      Executes limits s clk i txn { txn with
        stage := if scope = .global then .counting (.tenant txn.call.claim.tenant_id) else .inserting }
        (s.drafts i)
  | inserts {lease_until : Time} (hstage : txn.stage = .inserting) (hfree : s.Free i txn.call.claim.key)
      (habsent : ∀ slot ∈ s.view i, slot.key ≠ txn.call.claim.key) :
      Executes limits s clk i txn { txn with stage := .returned }
        ((s.drafts i).write slotSchema.key ⟨txn.call.claim.toRunScope, txn.call.claim.owner,
          txn.call.claim.fencing_token, lease_until⟩)
  | renews {claim : ExecutionClaim} {lease : ℤ} {slot : SlotRow} {lease_until : Time}
      (hcall : txn.call = .renew claim lease) (hstage : txn.stage = .start) (hmem : slot ∈ s.view i)
      (hheld : slot.heldBy claim = true) (hlive : clk.read 0 < slot.lease_until)
      (hfree : s.Free i slot.key) :
      Executes limits s clk i txn { txn with stage := .returned }
        ((s.drafts i).write slotSchema.key { slot with lease_until := lease_until })
  | releases {claim : ExecutionClaim} {held : List RunKey} (hcall : txn.call = .release claim)
      (hstage : txn.stage = .start) (hfree : ∀ k ∈ held, s.Free i k)
      (hheld : ∀ k ∈ held, ∃ slot ∈ s.view i, slot.key = k ∧ slot.heldBy claim = true) :
      Executes limits s clk i txn { txn with stage := .returned }
        ((s.drafts i).delete slotSchema.key held)

variable {limits : Table limitSchema} {s : SlotSessions τ} {clk : Clock Time} {i : τ}
  {txn txn' : SlotTxn} {draft : Draft SlotRow RunKey}

variable {claim : ExecutionClaim}

theorem acquireNext_executes {lease : ℤ} (hcall : txn.call = .acquire claim lease)
    (h : acquireNext limits s clk i claim lease txn = some (txn', draft)) :
    Executes limits s clk i txn txn' draft := by
  have hclaim : txn.call.claim = claim := by rw [hcall]; rfl
  unfold acquireNext at h
  dsimp only at h
  split at h
  case h_1 hstage =>
    split_ifs at h with hlease hlimits hfree
    · cases h
      exact .raises (by rw [hstage]; decide)
    · cases h
      exact .unlimited hstage
    · cases h
      exact .limits hcall hstage hfree
  case h_2 hstage =>
    split at h
    · cases h
      exact .absent hstage
    · rename_i existing hfind
      split_ifs at h with hfree
      cases h
      have hkey := List.find?_some hfind
      rw [decide_eq_true_eq] at hkey
      rw [← hclaim] at hkey hfree ⊢
      exact .selects hstage (List.mem_of_find?_eq_some hfind) hkey hfree
  case h_3 existing hstage =>
    split at h
    · rename_i slot hfilter
      obtain ⟨rfl, hlive⟩ := Option.filter_eq_some_iff.mp hfilter
      split_ifs at h with howner
      · cases h
        rw [← hclaim] at howner
        exact .inUse hstage (of_decide_eq_true hlive) howner.1 howner.2
      · cases h
        exact .raises (by rw [hstage]; exact fun h => by cases h)
    · rename_i hfilter
      cases h
      cases existing with
      | none => exact .unowned hstage
      | some existing =>
        refine .ranOut hstage ?_
        simpa using hfilter
  case h_4 existing hstage =>
    cases h
    exact .prolongs hstage
  case h_5 hstage =>
    cases h
    rw [← hclaim]
    exact .drops hstage
  case h_6 hstage =>
    split_ifs at h with hfree
    cases h
    refine .sweeps hstage hfree fun k hk => ?_
    obtain ⟨slot, hslot, rfl⟩ := List.mem_map.mp hk
    obtain ⟨hmem, hover⟩ := List.mem_filter.mp hslot
    exact ⟨slot, hmem, rfl, of_decide_eq_true hover⟩
  case h_7 scope hstage =>
    rw [← hclaim] at h
    split at h
    · rename_i hnone
      cases h
      exact .counts hstage fun limit hlimit => absurd (hnone.symm.trans hlimit) (by simp)
    · rename_i limit hsome
      split at h
      · rename_i hcount
        cases h
        refine .counts hstage fun limit' hlimit => ?_
        cases hsome.symm.trans hlimit
        exact hcount
      · cases h
        exact .raises (by rw [hstage]; exact fun h => by cases h)
  case h_8 hstage =>
    rw [← hclaim] at h
    split_ifs at h with hfree hany
    · cases h
      exact .raises (by rw [hstage]; decide)
    · cases h
      refine .inserts hstage hfree fun slot hslot hkey => hany ?_
      exact List.any_eq_true.mpr ⟨slot, hslot, decide_eq_true hkey⟩
  case h_9 => cases h
  case h_10 => cases h

theorem renewNext_executes {lease : ℤ} (hcall : txn.call = .renew claim lease)
    (h : renewNext s clk i claim lease txn = some (txn', draft)) : Executes limits s clk i txn txn' draft := by
  unfold renewNext at h
  dsimp only at h
  split at h
  case h_1 hstage =>
    split_ifs at h with hlease
    · cases h
      exact .raises (by rw [hstage]; decide)
    · split at h
      · cases h
        exact .raises (by rw [hstage]; decide)
      · rename_i slot hfind
        split_ifs at h with hfree
        cases h
        have hslot := List.find?_some hfind
        rw [Bool.and_eq_true, decide_eq_true_eq] at hslot
        exact .renews hcall hstage (List.mem_of_find?_eq_some hfind) hslot.1 hslot.2 hfree
  case h_2 => cases h

theorem releaseNext_executes (hcall : txn.call = .release claim)
    (h : releaseNext s i claim txn = some (txn', draft)) : Executes limits s clk i txn txn' draft := by
  unfold releaseNext at h
  dsimp only at h
  split at h
  case h_1 hstage =>
    split_ifs at h with hfree
    cases h
    refine .releases hcall hstage hfree fun k hk => ?_
    obtain ⟨slot, hslot, rfl⟩ := List.mem_map.mp hk
    obtain ⟨hmem, hheld⟩ := List.mem_filter.mp hslot
    exact ⟨slot, hmem, rfl, hheld⟩
  case h_2 => cases h

theorem SlotTxn.next_executes (h : txn.next limits s clk i = some (txn', draft)) :
    Executes limits s clk i txn txn' draft := by
  unfold SlotTxn.next at h
  split at h
  case h_1 hcall => exact acquireNext_executes hcall h
  case h_2 hcall => exact renewNext_executes hcall h
  case h_3 hcall => exact releaseNext_executes hcall h

inductive SlotEvent (limits : Table limitSchema) (s : SlotSessions τ) (clk : Clock Time) (i : τ) :
    SlotOp → SlotSessions τ → Prop
  | begin {call : SlotCall} (hidle : s.txns i = none) : SlotEvent limits s clk i (.begin call)
      { s with txns := Function.update s.txns i (some ⟨call, .start, []⟩) }
  | proceed {txn txn' : SlotTxn} {draft : Draft SlotRow RunKey} (htxn : s.txns i = some txn)
      (h : Executes limits s clk i txn txn' draft) : SlotEvent limits s clk i .proceed
      ⟨s.draft i draft, Function.update s.txns i (some txn')⟩
  | commit {txn : SlotTxn} (htxn : s.txns i = some txn) (hstage : txn.stage = .returned) :
      SlotEvent limits s clk i .commit
        ⟨s.toSnapshots.commit slotSchema.key i, Function.update s.txns i none⟩
  | rollback {txn : SlotTxn} (htxn : s.txns i = some txn) : SlotEvent limits s clk i .rollback
      ⟨s.draft i .empty, Function.update s.txns i none⟩

theorem slotEngine_event {s' : SlotSessions τ} {op : SlotOp} {o : Unit}
    (h : slotEngine limits s clk (i, op) = .ok (s', o)) : SlotEvent limits s clk i op s' := by
  unfold slotEngine at h
  dsimp only at h
  split at h
  case h_1 hidle =>
    cases h
    exact .begin hidle
  case h_2 txn htxn =>
    split at h
    · rename_i txn' draft hnext
      cases h
      exact .proceed htxn (SlotTxn.next_executes hnext)
    · cases h
  case h_3 txn htxn =>
    split_ifs at h with hstage
    cases h
    exact .commit htxn hstage
  case h_4 txn htxn =>
    cases h
    exact .rollback htxn
  case h_5 => cases h

end Statements

/-! ## What a transaction may change -/

/-- The slot is of the claim's Run, owner and token. -/
structure SlotRow.OwnedBy (slot : SlotRow) (claim : ExecutionClaim) : Prop where
  key : slot.key = claim.key
  owner : slot.owner = claim.owner
  token : slot.fencing_token = claim.fencing_token

theorem SlotRow.OwnedBy.of_heldBy {slot : SlotRow} {claim : ExecutionClaim}
    (h : slot.heldBy claim = true) : slot.OwnedBy claim := by
  simp only [SlotRow.heldBy, Bool.and_eq_true, beq_iff_eq] at h
  exact ⟨congrArg RunScope.key h.1.1, h.1.2, h.2⟩

/-- An acquisition that holds the locks of its limits. -/
def SlotStage.holding : SlotStage → Bool
  | .start | .returned | .raised _ => false
  | _ => true

/-- What a call knows of the rows it has selected for an update. -/
def SlotStage.Fits (rows : List SlotRow) (t : Time) (claim : ExecutionClaim) (locked : List RunKey) :
    SlotStage → Prop
  | .found (some slot) => slot ∈ rows ∧ slot.key = claim.key ∧ claim.key ∈ locked
  | .extending slot => slot ∈ rows ∧ slot.OwnedBy claim ∧ claim.key ∈ locked
  | .dropping => claim.key ∈ locked ∧ ∀ old ∈ rows, old.key = claim.key → old.lease_until ≤ t
  | .counting (.tenant id) => id = claim.tenant_id
  | _ => True

theorem SlotStage.Fits.mono {rows rows' : List SlotRow} {t t' : Time} {claim : ExecutionClaim}
    {locked : List RunKey} {stage : SlotStage} (h : stage.Fits rows t claim locked) (hle : t ≤ t')
    (hrows : ∀ slot : SlotRow, slot.key ∈ locked → (slot ∈ rows' ↔ slot ∈ rows)) :
    stage.Fits rows' t' claim locked := by
  match stage, h with
  | .found (some slot), ⟨hmem, hkey, hlocked⟩ =>
    exact ⟨(hrows slot (by rw [hkey]; exact hlocked)).mpr hmem, hkey, hlocked⟩
  | .extending slot, ⟨hmem, howned, hlocked⟩ =>
    exact ⟨(hrows slot (by rw [howned.key]; exact hlocked)).mpr hmem, howned, hlocked⟩
  | .dropping, ⟨hlocked, hover⟩ =>
    refine ⟨hlocked, fun old hold hkey => ?_⟩
    exact (hover old ((hrows old (by rw [hkey]; exact hlocked)).mp hold) hkey).trans hle
  | .counting (.tenant id), hid => exact hid
  | .counting .global, _ | .found none, _ | .start, _ | .limited, _ | .sweeping, _ | .inserting, _
  | .returned, _ | .raised _, _ => trivial

/-- Only what may be changed was changed in `rows`. -/
structure SlotTxn.Justified (limits : Table limitSchema) (rows : List SlotRow) (t : Time) (txn : SlotTxn)
    (draft : Draft SlotRow RunKey) : Prop where
  /-- A version is written last, and for the claim of the call. -/
  added : ∀ slot ∈ draft.added, txn.stage = .returned ∧ slot.OwnedBy txn.call.claim
  /-- It is the claim's own, or it was found to have run out. -/
  removed : ∀ old ∈ rows, old.key ∈ draft.removed → old.OwnedBy txn.call.claim ∨
    (∃ claim lease, txn.call = .acquire claim lease) ∧ old.lease_until ≤ t
  /-- Until it writes, a call has removed only what ran out. -/
  expired : txn.stage ≠ .returned → ∀ old ∈ rows, old.key ∈ draft.removed → old.lease_until ≤ t
  /-- Only an acquisition has more than one statement. -/
  acquires : txn.stage.holding = true → ∃ claim lease, txn.call = .acquire claim lease
  /-- An acquisition that counts holds the locks of its limits. -/
  limited : txn.stage.holding = true ∨ draft.added ≠ [] →
    (∃ claim lease, txn.call = .acquire claim lease) → txn.limits = limitsFor limits txn.call.claim
  /-- A renewal replaces a slot. -/
  renewed : (∃ claim lease, txn.call = .renew claim lease) → ∀ slot ∈ draft.added, ∃ old ∈ rows,
    old.key = slot.key
  /-- A release writes nothing. -/
  released : ∀ claim, txn.call = .release claim → draft.added = []
  fits : txn.stage.Fits rows t txn.call.claim draft.locked

namespace SlotTxn.Justified

variable {limits : Table limitSchema} {rows rows' : List SlotRow} {t t' : Time} {txn : SlotTxn}
  {draft : Draft SlotRow RunKey}

theorem added_nil (h : txn.Justified limits rows t draft) (hstage : txn.stage ≠ .returned) : draft.added = [] :=
  List.eq_nil_iff_forall_not_mem.mpr fun slot hslot => hstage (h.added slot hslot).1

theorem start (call : SlotCall) :
    SlotTxn.Justified limits rows t ⟨call, .start, []⟩ (Draft.empty : Draft SlotRow RunKey) where
  added slot hslot := absurd hslot List.not_mem_nil
  removed old _ hold := absurd hold List.not_mem_nil
  expired _ old _ hold := absurd hold List.not_mem_nil
  acquires h := by cases h
  limited h := by
    rcases h with h | h
    · cases h
    · exact absurd rfl h
  renewed _ slot hslot := absurd hslot List.not_mem_nil
  released _ _ := rfl
  fits := trivial

theorem mono (h : txn.Justified limits rows t draft) (hsound : draft.Sound slotSchema.key) (hle : t ≤ t')
    (hrows : ∀ slot : SlotRow, slot.key ∈ draft.locked → (slot ∈ rows' ↔ slot ∈ rows)) :
    txn.Justified limits rows' t' draft where
  added := h.added
  removed old hold hremoved := by
    have hmem := (hrows old (hsound.removed _ hremoved)).mp hold
    exact (h.removed old hmem hremoved).imp_right fun hover => ⟨hover.1, hover.2.trans hle⟩
  expired hstage old hold hremoved :=
    (h.expired hstage old ((hrows old (hsound.removed _ hremoved)).mp hold) hremoved).trans hle
  acquires := h.acquires
  limited := h.limited
  renewed hcall slot hslot := by
    obtain ⟨old, hold, hkey⟩ := h.renewed hcall slot hslot
    have hlocked : old.key ∈ draft.locked := by
      rw [hkey]
      exact hsound.removed _ (hsound.added slot hslot)
    exact ⟨old, (hrows old hlocked).mpr hold, hkey⟩
  released := h.released
  fits := h.fits.mono hle hrows

theorem advance (h : txn.Justified limits rows t draft) (hstage : txn.stage ≠ .returned) {stage : SlotStage}
    {held : List LimitScope} {draft' : Draft SlotRow RunKey} (hadded : draft'.added = [])
    (hexpired : ∀ old ∈ rows, old.key ∈ draft'.removed → old.key ∈ draft.removed ∨
      (∃ claim lease, txn.call = .acquire claim lease) ∧ old.lease_until ≤ t)
    (hholding : stage.holding = true → (∃ claim lease, txn.call = .acquire claim lease) ∧
      held = limitsFor limits txn.call.claim)
    (hfits : stage.Fits rows t txn.call.claim draft'.locked) :
    SlotTxn.Justified limits rows t { txn with stage := stage, limits := held } draft' where
  added slot hslot := by rw [hadded] at hslot; cases hslot
  removed old hold hremoved := (hexpired old hold hremoved).elim (h.removed old hold) .inr
  expired _ old hold hremoved := (hexpired old hold hremoved).elim (h.expired hstage old hold) And.right
  acquires hheld := (hholding hheld).1
  limited hcase _ := hcase.elim (fun hheld => (hholding hheld).2) fun hne => absurd hadded hne
  renewed _ slot hslot := by rw [hadded] at hslot; cases hslot
  released _ _ := hadded
  fits := hfits

theorem writes (h : txn.Justified limits rows t draft) (hstage : txn.stage ≠ .returned) {slot : SlotRow}
    (howned : slot.OwnedBy txn.call.claim)
    (hremoved : ∀ old ∈ rows, old.key = slot.key → old.OwnedBy txn.call.claim ∨
      (∃ claim lease, txn.call = .acquire claim lease) ∧ old.lease_until ≤ t)
    (hlimits : (∃ claim lease, txn.call = .acquire claim lease) → txn.limits = limitsFor limits txn.call.claim)
    (hrenewed : (∃ claim lease, txn.call = .renew claim lease) → ∃ old ∈ rows, old.key = slot.key)
    (hreleased : ∀ claim, txn.call ≠ .release claim) :
    SlotTxn.Justified limits rows t { txn with stage := .returned } (draft.write slotSchema.key slot) := by
  have hadded : (draft.write slotSchema.key slot).added = [slot] := Draft.added_write (h.added_nil hstage) slot
  refine ⟨fun new hnew => ?_, fun old hold hmem => ?_, fun hne => absurd rfl hne,
    fun hheld => absurd hheld Bool.false_ne_true, fun _ => hlimits, fun hcall new hnew => ?_,
    fun claim hcall => absurd hcall (hreleased claim), trivial⟩
  · rw [hadded, List.mem_singleton] at hnew
    exact ⟨rfl, hnew ▸ howned⟩
  · rcases List.mem_cons.mp hmem with hkey | hmem
    · exact hremoved old hold hkey
    · exact h.removed old hold hmem
  · rw [hadded, List.mem_singleton] at hnew
    rw [hnew]
    exact hrenewed hcall

end SlotTxn.Justified

/-! ## One statement -/

section Statement

variable {limits : Table limitSchema} {s : SlotSessions τ} {clk : Clock Time} {i : τ} {txn txn' : SlotTxn}
  {draft : Draft SlotRow RunKey}

theorem mem_rows_of_view (h : txn.Justified limits s.rows (clk.read 0) (s.drafts i))
    (hstage : txn.stage ≠ .returned) {slot : SlotRow} (hslot : slot ∈ s.view i) : slot ∈ s.rows := by
  rcases Draft.mem_view.mp hslot with ⟨hmem, -⟩ | hadded
  · exact hmem
  · rw [h.added_nil hstage] at hadded
    cases hadded

theorem Executes.not_returned (h : Executes limits s clk i txn txn' draft) : txn.stage ≠ .returned := by
  cases h
  case raises hstage => exact hstage
  all_goals simp_all

theorem SlotCall.ne_release {call : SlotCall} (h : ∃ claim lease, call = .acquire claim lease)
    (claim : ExecutionClaim) : call ≠ .release claim := by
  obtain ⟨claim', lease, rfl⟩ := h
  exact fun hrelease => by cases hrelease

theorem Executes.sound (h : Executes limits s clk i txn txn' draft)
    (htxn : txn.Justified limits s.rows (clk.read 0) (s.drafts i)) (hs : s.Sound slotSchema.key) :
    draft.Sound slotSchema.key ∧ ∀ k ∈ draft.locked, s.Free i k := by
  have hsound := hs.drafts i
  have hold := hs.separate i
  cases h
  case raises | unlimited | limits | absent | inUse | ranOut | unowned | counts => exact ⟨hsound, hold⟩
  case selects hkey hfree => exact ⟨hsound.lock _, List.forall_mem_cons.mpr ⟨hfree, hold⟩⟩
  case prolongs existing lease_until hstage =>
    have hfits := htxn.fits
    rw [hstage] at hfits
    refine ⟨hsound.write _, List.forall_mem_cons.mpr ⟨hold _ ?_, hold⟩⟩
    change existing.key ∈ _
    rw [hfits.2.1.key]
    exact hfits.2.2
  case drops hstage =>
    have hfits := htxn.fits
    rw [hstage] at hfits
    exact ⟨hsound.delete _, List.forall_mem_cons.mpr ⟨hold _ hfits.1, hold⟩⟩
  case sweeps hfree hover => exact ⟨hsound.delete _, List.forall_mem_append.mpr ⟨hfree, hold⟩⟩
  case inserts hfree habsent | renews hfree => exact ⟨hsound.write _, List.forall_mem_cons.mpr ⟨hfree, hold⟩⟩
  case releases hfree hheld => exact ⟨hsound.delete _, List.forall_mem_append.mpr ⟨hfree, hold⟩⟩

theorem Executes.limits_free (h : Executes limits s clk i txn txn' draft)
    (hfree : ∀ scope ∈ txn.limits, s.LimitFree i scope) : ∀ scope ∈ txn'.limits, s.LimitFree i scope := by
  cases h
  case limits hlimits => exact hlimits
  all_goals exact hfree

theorem eq_of_slot_key (hs : s.Sound slotSchema.key) {a b : SlotRow} (ha : a ∈ s.rows) (hb : b ∈ s.rows)
    (hkey : a.key = b.key) : a = b :=
  List.inj_on_of_nodup_map hs.rows ha hb hkey

/-- **One statement** leaves its transaction justified. -/
theorem Executes.justified (h : Executes limits s clk i txn txn' draft)
    (htxn : txn.Justified limits s.rows (clk.read 0) (s.drafts i)) (hs : s.Sound slotSchema.key) :
    txn'.Justified limits s.rows (clk.read 0) draft := by
  have hfits := htxn.fits
  have hne := h.not_returned
  have hnil := htxn.added_nil hne
  have hacquires : txn.stage.holding = true → (∃ claim lease, txn.call = .acquire claim lease) ∧
      txn.limits = limitsFor limits txn.call.claim := fun hheld =>
    ⟨htxn.acquires hheld, htxn.limited (.inl hheld) (htxn.acquires hheld)⟩
  have hsame : ∀ old ∈ s.rows, old.key ∈ (s.drafts i).removed → old.key ∈ (s.drafts i).removed ∨
      (∃ claim lease, txn.call = .acquire claim lease) ∧ old.lease_until ≤ clk.read 0 :=
    fun _ _ hremoved => .inl hremoved
  have hends : ∀ {stage : SlotStage}, stage.holding = false →
      stage.Fits s.rows (clk.read 0) txn.call.claim (s.drafts i).locked →
      SlotTxn.Justified limits s.rows (clk.read 0) { txn with stage := stage } (s.drafts i) :=
    fun hidle => htxn.advance hne hnil hsame fun hheld => absurd (hheld.symm.trans hidle) (by decide)
  cases h
  case raises | unlimited => exact hends rfl trivial
  case limits claim lease hcall hstage hfree =>
    exact htxn.advance hne hnil hsame (fun _ => ⟨⟨claim, lease, hcall⟩, by rw [hcall]; rfl⟩) trivial
  case absent hstage =>
    rw [hstage] at hacquires
    exact htxn.advance hne hnil hsame (fun _ => hacquires rfl) trivial
  case selects existing hstage hmem hkey hfree =>
    rw [hstage] at hacquires
    exact htxn.advance hne hnil hsame (fun _ => hacquires rfl)
      ⟨mem_rows_of_view htxn hne hmem, hkey, List.mem_cons_self⟩
  case inUse existing hstage hlive howner htoken =>
    rw [hstage] at hfits hacquires
    exact htxn.advance hne hnil hsame (fun _ => hacquires rfl) ⟨hfits.1, ⟨hfits.2.1, howner, htoken⟩, hfits.2.2⟩
  case ranOut existing hstage hover =>
    rw [hstage] at hfits hacquires
    refine htxn.advance hne hnil hsame (fun _ => hacquires rfl) ⟨hfits.2.2, fun old hold hkey => ?_⟩
    rw [eq_of_slot_key hs hold hfits.1 (hkey.trans hfits.2.1.symm)]
    exact hover
  case unowned hstage =>
    rw [hstage] at hacquires
    exact htxn.advance hne hnil hsame (fun _ => hacquires rfl) trivial
  case prolongs existing lease_until hstage =>
    rw [hstage] at hfits hacquires
    obtain ⟨hmem, howned, -⟩ := hfits
    refine htxn.writes hne ⟨howned.key, howned.owner, howned.token⟩ (fun old hold hkey => .inl ?_)
      (fun _ => (hacquires rfl).2) (fun _ => ⟨existing, hmem, rfl⟩) (SlotCall.ne_release (hacquires rfl).1)
    rw [eq_of_slot_key hs hold hmem hkey]
    exact howned
  case drops hstage =>
    rw [hstage] at hfits hacquires
    refine htxn.advance hne (Draft.added_delete hnil _) (fun old hold hremoved => ?_) (fun _ => hacquires rfl) trivial
    rcases List.mem_cons.mp hremoved with hkey | hremoved
    · exact .inr ⟨(hacquires rfl).1, hfits.2 old hold hkey⟩
    · exact .inl hremoved
  case sweeps expired hstage hfree hover =>
    rw [hstage] at hacquires
    refine htxn.advance hne (Draft.added_delete hnil _) (fun old hold hremoved => ?_) (fun _ => hacquires rfl) trivial
    rcases List.mem_append.mp hremoved with hexpired | hremoved
    · obtain ⟨slot, hslot, hkey, hlate⟩ := hover old.key hexpired
      rw [eq_of_slot_key hs (mem_rows_of_view htxn hne hslot) hold hkey] at hlate
      exact .inr ⟨(hacquires rfl).1, hlate⟩
    · exact .inl hremoved
  case counts scope hstage hcount =>
    rw [hstage] at hacquires
    refine htxn.advance hne hnil hsame (fun _ => hacquires rfl) ?_
    split_ifs
    · rfl
    · trivial
  case inserts lease_until hstage hfree habsent =>
    rw [hstage] at hacquires
    refine htxn.writes hne ⟨rfl, rfl, rfl⟩ (fun old hold hkey => ?_) (fun _ => (hacquires rfl).2)
      (fun hrenew => ?_) (SlotCall.ne_release (hacquires rfl).1)
    · -- The claim's Run has no slot in view, so one that it has was swept.
      by_cases hremoved : old.key ∈ (s.drafts i).removed
      · exact .inr ⟨(hacquires rfl).1, htxn.expired hne old hold hremoved⟩
      · exact absurd hkey (habsent old (Draft.mem_view.mpr (.inl ⟨hold, hremoved⟩)))
    · obtain ⟨claim, lease, hrenew⟩ := hrenew
      obtain ⟨⟨claim', lease', hacquire⟩, -⟩ := hacquires rfl
      cases hacquire.symm.trans hrenew
  case renews claim lease slot lease_until hcall hstage hmem hheld hlive hfree =>
    have hslot := mem_rows_of_view htxn hne hmem
    have howned : slot.OwnedBy txn.call.claim := by
      rw [hcall]
      exact .of_heldBy hheld
    refine htxn.writes hne ⟨howned.key, howned.owner, howned.token⟩ (fun old hold hkey => .inl ?_)
      (fun hacquire => ?_) (fun _ => ⟨slot, hslot, rfl⟩) fun claim' hrelease => ?_
    · rw [eq_of_slot_key hs hold hslot hkey]
      exact howned
    · obtain ⟨claim', lease', hacquire⟩ := hacquire
      cases hcall.symm.trans hacquire
    · cases hcall.symm.trans hrelease
  case releases claim held hcall hstage hfree hheld =>
    have hadded : ((s.drafts i).delete slotSchema.key held).added = [] := Draft.added_delete hnil held
    refine ⟨fun slot hslot => ?_, fun old hold hremoved => ?_, fun hreturned => absurd rfl hreturned,
      fun hholding => absurd hholding Bool.false_ne_true, fun _ hacquire => ?_, fun _ slot hslot => ?_,
      fun _ _ => hadded, trivial⟩
    · rw [hadded] at hslot
      cases hslot
    · rcases List.mem_append.mp hremoved with hmem | hremoved
      · obtain ⟨slot, hslot, hkey, howned⟩ := hheld old.key hmem
        rw [eq_of_slot_key hs (mem_rows_of_view htxn hne hslot) hold hkey] at howned
        rw [hcall]
        exact .inl (.of_heldBy howned)
      · exact htxn.removed old hold hremoved
    · obtain ⟨claim', lease, hacquire⟩ := hacquire
      cases hcall.symm.trans hacquire
    · rw [hadded] at hslot
      cases hslot

end Statement

/-! ## All transactions -/

/-- Rows and limits are locked once, by justified transactions. -/
structure SlotSessions.Orderly (limits : Table limitSchema) (s : SlotSessions τ) (t : Time) : Prop where
  sound : s.Sound slotSchema.key
  idle : ∀ i, s.txns i = none → s.drafts i = .empty
  justified : ∀ i txn, s.txns i = some txn → txn.Justified limits s.rows t (s.drafts i)
  limits : ∀ i, ∀ scope ∈ s.limitsOf i, s.LimitFree i scope

theorem SlotSessions.orderly_idle (limits : Table limitSchema) (t : Time) :
    (SlotSessions.idle τ []).Orderly limits t where
  sound := ⟨fun _ _ hk => absurd hk List.not_mem_nil, fun _ => Draft.sound_empty, List.nodup_nil⟩
  idle _ _ := rfl
  justified _ _ htxn := by cases htxn
  limits _ _ hscope := absurd hscope List.not_mem_nil

section Transactions

variable {limits : Table limitSchema} {s : SlotSessions τ} {t t' : Time} {i : τ}

theorem SlotSessions.Orderly.later (h : s.Orderly limits t) (hle : t ≤ t') : s.Orderly limits t' :=
  ⟨h.sound, h.idle, fun i txn htxn => (h.justified i txn htxn).mono (h.sound.drafts i) hle fun _ _ => Iff.rfl, h.limits⟩

theorem SlotSessions.Orderly.limits_free (h : s.Orderly limits t) {txn : SlotTxn}
    (htxn : s.txns i = some txn) : ∀ scope ∈ txn.limits, s.LimitFree i scope := by
  intro scope hscope
  refine h.limits i scope ?_
  rw [SlotSessions.limitsOf, htxn]
  exact hscope

variable [DecidableEq τ]

theorem SlotSessions.limitsOf_update_self (s₁ : Snapshots SlotRow RunKey τ) (o : Option SlotTxn) :
    SlotSessions.limitsOf ⟨s₁, Function.update s.txns i o⟩ i = (o.map (·.limits)).getD [] := by
  simp only [SlotSessions.limitsOf, Function.update_self]

theorem SlotSessions.limitsOf_update_of_ne (s₁ : Snapshots SlotRow RunKey τ) (o : Option SlotTxn) {j : τ}
    (hne : j ≠ i) : SlotSessions.limitsOf ⟨s₁, Function.update s.txns i o⟩ j = s.limitsOf j := by
  simp only [SlotSessions.limitsOf, Function.update_of_ne hne]

/-- A connection keeps to a justified transaction and to its rows. -/
theorem SlotSessions.Orderly.update (h : s.Orderly limits t) (hle : t ≤ t') {s₁ : Snapshots SlotRow RunKey τ}
    {o : Option SlotTxn} (hsound : s₁.Sound slotSchema.key) (hdrafts : ∀ j, j ≠ i → s₁.drafts j = s.drafts j)
    (hrows : ∀ j, j ≠ i → ∀ slot : SlotRow, slot.key ∈ (s.drafts j).locked → (slot ∈ s₁.rows ↔ slot ∈ s.rows))
    (hidle : o = none → s₁.drafts i = .empty)
    (hjustified : ∀ txn, o = some txn → txn.Justified limits s₁.rows t' (s₁.drafts i))
    (hlimits : ∀ scope ∈ (o.map (·.limits)).getD [], s.LimitFree i scope) :
    SlotSessions.Orderly limits ⟨s₁, Function.update s.txns i o⟩ t' where
  sound := hsound
  idle j hj := by
    by_cases hji : j = i
    · subst hji
      simp only [Function.update_self] at hj
      exact hidle hj
    · simp only [Function.update_of_ne hji] at hj
      exact (hdrafts j hji).trans (h.idle j hj)
  justified j txn hj := by
    by_cases hji : j = i
    · subst hji
      simp only [Function.update_self] at hj
      exact hjustified txn hj
    · simp only [Function.update_of_ne hji] at hj
      change txn.Justified limits s₁.rows t' (s₁.drafts j)
      rw [hdrafts j hji]
      exact (h.justified j txn hj).mono (h.sound.drafts j) hle (hrows j hji)
  limits j scope hscope k hk := by
    by_cases hji : j = i
    · subst hji
      rw [limitsOf_update_self] at hscope
      rw [limitsOf_update_of_ne _ _ hk]
      exact hlimits scope hscope k hk
    · rw [limitsOf_update_of_ne _ _ hji] at hscope
      by_cases hki : k = i
      · subst hki
        rw [limitsOf_update_self]
        exact fun hheld => hlimits scope hheld j hji hscope
      · rw [limitsOf_update_of_ne _ _ hki]
        exact h.limits j scope hscope k hk

/-- **One step** of any connection keeps the transactions orderly. -/
theorem SlotEvent.orderly [Fintype τ] {clk : Clock Time} {op : SlotOp} {s' : SlotSessions τ}
    (h : SlotEvent limits s clk i op s') (hs : s.Orderly limits (clk.read 0)) : s'.Orderly limits clk.stop := by
  have hle := clk.start_le_stop
  cases h
  case begin call hidle =>
    refine hs.update hle hs.sound (fun _ _ => rfl) (fun _ _ _ _ => Iff.rfl) (fun hnone => by cases hnone)
      (fun txn htxn => ?_) fun scope hscope => absurd hscope List.not_mem_nil
    cases htxn
    rw [hs.idle i hidle]
    exact .start call
  case proceed txn txn' draft htxn hexec =>
    have hjustified := hs.justified i txn htxn
    obtain ⟨hsound, hfree⟩ := hexec.sound hjustified hs.sound
    refine hs.update hle (hs.sound.draft hsound hfree) (fun j hj => Snapshots.draft_of_ne _ hj _)
      (fun _ _ _ _ => Iff.rfl) (fun hnone => by cases hnone) (fun txn'' htxn'' => ?_)
      (hexec.limits_free (hs.limits_free htxn))
    cases htxn''
    rw [Snapshots.draft_self]
    exact (hexec.justified hjustified hs.sound).mono hsound hle fun _ _ => Iff.rfl
  case commit txn htxn hstage =>
    refine hs.update hle (hs.sound.commit i) (fun j hj => Function.update_of_ne hj _ _)
      (fun j hj slot hslot => Snapshots.mem_commit_of_locked hs.sound hj hslot)
      (fun _ => Function.update_self _ _ _) (fun txn htxn => by cases htxn)
      fun scope hscope => absurd hscope List.not_mem_nil
  case rollback txn htxn =>
    refine hs.update hle (hs.sound.rollback i) (fun j hj => Snapshots.draft_of_ne _ hj _)
      (fun _ _ _ _ => Iff.rfl) (fun _ => Snapshots.draft_self _ _ _) (fun txn htxn => by cases htxn)
      fun scope hscope => absurd hscope List.not_mem_nil

end Transactions

end Aftercare
