import Aftercare.Relational.Snapshots
import Aftercare.Persistence.Admission

/-!
# The slots, statement by statement

`acquire_slot`, `renew_slot` and `release_slot` as the database executes them for many connections: each statement
is a step, sees what is committed when it starts, and waits for locked rows. A transaction makes one of the calls
and may be rolled back at any time. The foreign key of a slot is left out.
-/

namespace Aftercare

open Relational

inductive SlotCall
  | acquire (claim : ExecutionClaim) (lease : ℤ)
  | renew (claim : ExecutionClaim) (lease : ℤ)
  | release (claim : ExecutionClaim)
deriving DecidableEq, Repr

def SlotCall.claim : SlotCall → ExecutionClaim
  | .acquire claim _ => claim
  | .renew claim _ => claim
  | .release claim => claim

/-- The statement that comes next, or how the call ended. -/
inductive SlotStage
  | start
  /-- The rows of the limits are locked. -/
  | limited
  /-- The slot of the Run was selected for an update. -/
  | found (existing : Option SlotRow)
  /-- The Run has a slot in use, and it is the claim's. -/
  | extending (existing : SlotRow)
  /-- The slot of the Run has run out. -/
  | dropping
  | sweeping
  | counting (scope : LimitScope)
  | inserting
  | returned
  | raised (failure : Failure)
deriving DecidableEq, Repr

/-- A call, where it stands, and the limits that it has locked. -/
structure SlotTxn where
  call : SlotCall
  stage : SlotStage
  limits : List LimitScope
deriving DecidableEq, Repr

/-- The committed slots, and the open transaction of each connection. -/
structure SlotSessions (τ : Type) extends Snapshots SlotRow RunKey τ where
  txns : τ → Option SlotTxn

def SlotSessions.idle (τ : Type) (rows : List SlotRow) : SlotSessions τ := ⟨⟨rows, fun _ => .empty⟩, fun _ => none⟩

/-- A slot that is counted against a limit at a time. -/
def SlotRow.countsFor (scope : LimitScope) (t : Time) (s : SlotRow) : Bool :=
  decide (t < s.lease_until) && (scope == .global || scope == .tenant s.tenant_id)

variable {τ : Type}

/-- The slots that the transaction of a connection sees. -/
def SlotSessions.view (s : SlotSessions τ) (i : τ) : List SlotRow := (s.drafts i).view slotSchema.key s.rows

/-- The limits whose rows the transaction of a connection has locked. -/
def SlotSessions.limitsOf (s : SlotSessions τ) (i : τ) : List LimitScope :=
  ((s.txns i).map (·.limits)).getD []

/-- No other transaction has locked the row of the limit. -/
def SlotSessions.LimitFree (s : SlotSessions τ) (i : τ) (scope : LimitScope) : Prop :=
  ∀ j, j ≠ i → scope ∉ s.limitsOf j

/-- The limits of a claim, in the order of their locks. -/
def limitsFor (limits : Table limitSchema) (claim : ExecutionClaim) : List LimitScope :=
  [.global, .tenant claim.tenant_id].filter fun scope => (limits.get scope).isSome

variable [Fintype τ] [DecidableEq τ]

instance (s : SlotSessions τ) (i : τ) (scope : LimitScope) : Decidable (s.LimitFree i scope) :=
  inferInstanceAs (Decidable (∀ _, _))

/-- What a statement leaves of its transaction, unless it waits. -/
abbrev SlotStep := Option (SlotTxn × Draft SlotRow RunKey)

/-- The next statement of `acquire_slot`. -/
def acquireNext (limits : Table limitSchema) (s : SlotSessions τ) (clk : Clock Time) (i : τ)
    (claim : ExecutionClaim) (lease : ℤ) (txn : SlotTxn) : SlotStep :=
  let draft := s.drafts i
  match txn.stage with
  | .start =>
    if lease ≤ 0 then
      some ({ txn with stage := .raised (.contract .invalidInput "lease must be positive") }, draft)
    else if limitsFor limits claim = [] then some ({ txn with stage := .returned }, draft)
    else if ∀ scope ∈ limitsFor limits claim, s.LimitFree i scope then
      some ({ txn with stage := .limited, limits := limitsFor limits claim }, draft)
    else none
  | .limited =>
    match (s.view i).find? fun slot => slot.key = claim.key with
    | none => some ({ txn with stage := .found none }, draft)
    | some existing =>
      if s.Free i claim.key then
        some ({ txn with stage := .found (some existing) }, draft.lock claim.key)
      else none
  | .found existing =>
    -- `SELECT clock_timestamp()` decides whether the slot that was found is in use.
    match existing.filter fun slot => decide (clk.read 0 < slot.lease_until) with
    | some slot =>
      if slot.owner = claim.owner ∧ slot.fencing_token = claim.fencing_token then
        some ({ txn with stage := .extending slot }, draft)
      else some ({ txn with
        stage := .raised (.contract .rateLimited "run already owns an active slot") }, draft)
    | none => some ({ txn with stage := if existing.isSome then .dropping else .sweeping }, draft)
  | .extending existing =>
    some ({ txn with stage := .returned },
      draft.write slotSchema.key { existing with lease_until := clk.read 0 + lease })
  | .dropping => some ({ txn with stage := .sweeping }, draft.delete slotSchema.key [claim.key])
  | .sweeping =>
    let expired := ((s.view i).filter fun slot => decide (slot.lease_until ≤ clk.read 0)).map (·.key)
    if ∀ k ∈ expired, s.Free i k then
      some ({ txn with stage := .counting .global }, draft.delete slotSchema.key expired)
    else none
  | .counting scope =>
    let next := if scope = .global then .counting (.tenant claim.tenant_id) else .inserting
    match limits.get scope with
    | none => some ({ txn with stage := next }, draft)
    | some limit =>
      if ((s.view i).filter (·.countsFor scope (clk.read 0))).length < limit.max_active_slots then
        some ({ txn with stage := next }, draft)
      else some ({ txn with stage := .raised (.contract .rateLimited
        ((if scope = .global then "global" else "tenant") ++ " execution limit reached")) }, draft)
  | .inserting =>
    if s.Free i claim.key then
      if (s.view i).any fun slot => slot.key = claim.key then
        some ({ txn with stage := .raised (.database "aftercare_execution_slots") }, draft)
      else some ({ txn with stage := .returned }, draft.write slotSchema.key
        ⟨claim.toRunScope, claim.owner, claim.fencing_token, clk.read 0 + lease⟩)
    else none
  | .returned | .raised _ => none

/-- The statement of `renew_slot`. -/
def renewNext (s : SlotSessions τ) (clk : Clock Time) (i : τ) (claim : ExecutionClaim) (lease : ℤ)
    (txn : SlotTxn) : SlotStep :=
  let draft := s.drafts i
  match txn.stage with
  | .start =>
    if lease ≤ 0 then
      some ({ txn with stage := .raised (.contract .invalidInput "lease must be positive") }, draft)
    else
      match (s.view i).find? fun slot => slot.heldBy claim && decide (clk.read 0 < slot.lease_until) with
      | none =>
        some ({ txn with stage := .raised (.contract .leaseLost "execution slot lease lost") }, draft)
      | some slot =>
        if s.Free i slot.key then
          some ({ txn with stage := .returned },
            draft.write slotSchema.key { slot with lease_until := clk.read 1 + lease })
        else none
  | _ => none

/-- The statement of `release_slot`. -/
def releaseNext (s : SlotSessions τ) (i : τ) (claim : ExecutionClaim) (txn : SlotTxn) : SlotStep :=
  match txn.stage with
  | .start =>
    let held := ((s.view i).filter (·.heldBy claim)).map (·.key)
    if ∀ k ∈ held, s.Free i k then
      some ({ txn with stage := .returned }, (s.drafts i).delete slotSchema.key held)
    else none
  | _ => none

def SlotTxn.next (limits : Table limitSchema) (s : SlotSessions τ) (clk : Clock Time) (i : τ)
    (txn : SlotTxn) : SlotStep :=
  match txn.call with
  | .acquire claim lease => acquireNext limits s clk i claim lease txn
  | .renew claim lease => renewNext s clk i claim lease txn
  | .release claim => releaseNext s i claim txn

inductive SlotOp
  /-- It opens a transaction with a call. -/
  | begin (call : SlotCall)
  /-- It executes the next statement. -/
  | proceed
  | commit
  | rollback
deriving DecidableEq, Repr

/-- A statement waits for a lock, or there is none to execute. -/
inductive SlotRefusal
  | waits
  | misplaced
deriving DecidableEq, Repr

/-- One connection does one thing, and commits a call that has returned. -/
def slotEngine (limits : Table limitSchema) :
    Engine (SlotSessions τ) Time (τ × SlotOp) Unit SlotRefusal := fun s clk (i, op) =>
  match op, s.txns i with
  | .begin call, none =>
    .ok ({ s with txns := Function.update s.txns i (some ⟨call, .start, []⟩) }, ())
  | .proceed, some txn =>
    match txn.next limits s clk i with
    | some (txn', draft) =>
      .ok (⟨s.draft i draft, Function.update s.txns i (some txn')⟩, ())
    | none => .error .waits
  | .commit, some txn =>
    if txn.stage = .returned then
      .ok (⟨s.toSnapshots.commit slotSchema.key i, Function.update s.txns i none⟩, ())
    else .error .misplaced
  | .rollback, some _ => .ok (⟨s.draft i .empty, Function.update s.txns i none⟩, ())
  | _, _ => .error .misplaced

end Aftercare
