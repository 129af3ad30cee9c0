import Aftercare.Domain.Protocol

/-!
# Waits and inbox signals

The records of `domain/waits.py`. The validator of `WaitRecord` and the constraints of
`aftercare_waits` say the same, so a stored wait is a `WaitRecord`; `WaitRecord.coherent` is both. An
`InboxSignal` carries the proof that its payload is of its own case.
-/

namespace Aftercare

open Relational

/-- `WaitRecord.kind`. -/
inductive WaitKind
  | input
  | approval
deriving DecidableEq, Repr

/-- `WaitRecord.state`. -/
inductive WaitState
  | pending
  | active
  | satisfied
  | timedOut
  | cancelled
deriving DecidableEq, Repr

def WaitState.settled : WaitState → Bool
  | .satisfied | .timedOut | .cancelled => true
  | .pending | .active => false

/-- The primary key of a wait: tenant, case, run, wait and generation. -/
abbrev WaitKey := Identifier × Identifier × Identifier × Identifier × ℕ

/-- `WaitRecord`, and a row of `aftercare_waits`. -/
structure WaitRecord extends RunScope where
  wait_id : Identifier
  generation : PositiveInt
  kind : WaitKind
  (correlation_key condition_version : Identifier)
  (created_at deadline : Time)
  state : WaitState
  resolved_by_event_id : Option Identifier
deriving DecidableEq, Repr

/-- `coherent_resolution`, and the constraints of migration 003. -/
def WaitRecord.coherent (w : WaitRecord) : Bool :=
  decide (w.created_at < w.deadline) && (w.state == .satisfied) == w.resolved_by_event_id.isSome

/-- `wakeup_key`, which is also the primary key of the wait. -/
def WaitRecord.key (w : WaitRecord) : WaitKey :=
  (w.tenant_id, w.case_id, w.run_id, w.wait_id, w.generation.val)

/-- `InboxSignal` with `payload_scope`, a row of `aftercare_inbox`. -/
structure InboxSignal extends RunScope where
  (event_id source_id source_event_id wait_id : Identifier)
  generation : PositiveInt
  kind : WaitKind
  (correlation_key condition_version : Identifier)
  received_at : Time
  payload : ArtifactReference
  payload_scope : payload.toCaseScope = toCaseScope
deriving DecidableEq, Repr

/-- The primary key of the wait that a signal is for. -/
def InboxSignal.waitKey (s : InboxSignal) : WaitKey :=
  (s.tenant_id, s.case_id, s.run_id, s.wait_id, s.generation.val)

def matchesWait (wait : WaitRecord) (signal : InboxSignal) : Bool :=
  wait.tenant_id == signal.tenant_id && wait.case_id == signal.case_id &&
    wait.run_id == signal.run_id && wait.wait_id == signal.wait_id &&
    wait.generation == signal.generation && wait.kind == signal.kind &&
    wait.correlation_key == signal.correlation_key &&
    wait.condition_version == signal.condition_version

/-- The answer of `resolution_candidate`. -/
inductive ResolutionCandidate
  | satisfied
  | timedOut
  | none
deriving DecidableEq, Repr

def resolutionCandidate (wait : WaitRecord) (current_generation : ℤ) (db_now : Time)
    (committed_reply : Option InboxSignal) : ResolutionCandidate :=
  if (wait.generation.val : ℤ) ≠ current_generation ∨ wait.state ≠ .active ∨
      db_now < wait.created_at then .none
  else if committed_reply.any fun reply => matchesWait wait reply &&
      decide (wait.created_at ≤ reply.received_at ∧ reply.received_at ≤ db_now) then
    -- The deadline enables the timeout, and does not cut off a reply.
    .satisfied
  else if wait.deadline ≤ db_now then .timedOut
  else .none

def checkInboxReplay (stored incoming : InboxSignal) : Result Unit :=
  require (stored = incoming)
    (.contract .conflict "input replay changed identity, content or time")

end Aftercare
