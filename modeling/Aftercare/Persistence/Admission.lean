import Aftercare.Persistence.Writes

/-!
# The admission repository

The methods of `AdmissionRepository`: opening a case with its session and first Run under an
idempotency key, and the execution slots that limit how many Runs are executed at a time. An empty
table of limits means that slots are not used.
-/

namespace Aftercare

open Relational

variable {gate : Gate}

/-! ## Opening a case -/

structure AdmissionResult where
  case : CaseRecord
  session : SessionRecord
  run : RunRecord
  replayed : Bool

def checkAdmissionReplay (stored requested : Sha256) : Result Unit :=
  require (stored = requested) (.contract .conflict "idempotency key reused with different input")

/-- The part of `open` that answers a replay with what is stored. -/
def replayAdmission (db : Database) (key : AdmissionKey) (digest : Sha256) : Result AdmissionResult := do
  let row ← fetch (db.admissions.get key) (.contract .retryable "admission outcome is unknown")
  checkAdmissionReplay row.payload_digest digest
  let case ← fetch (db.cases.get ⟨key.tenant_id, row.case_id⟩)
    (.contract .retryable "admission objects are incomplete")
  let session ← fetch ((db.sessions.get (key.tenant_id, row.session_id)).filter
      fun s => s.case_id == row.case_id)
    (.contract .retryable "admission objects are incomplete")
  let run ← fetch (db.run ⟨⟨key.tenant_id, row.case_id⟩, row.run_id⟩)
    (.contract .retryable "admission objects are incomplete")
  let run ← run.record
  pure ⟨case, session, run, true⟩

/-- `AdmissionRepository.open`. -/
def openCase [Hashing] (db : Database) (clk : Clock Time) (key : AdmissionKey) (body : OpenCaseInput)
    (case : CaseRecord) (session : SessionRecord) (run : RunRecord) : Result (Database × AdmissionResult) := do
  require ((case.tenant_id, case.case_id) = (key.tenant_id, session.case_id))
    (.contract .forbidden "admission scope mismatch")
  require (run.toCaseScope = case.toCaseScope) (.contract .forbidden "run scope mismatch")
  let digest := Hashing.admissionDigest key body
  let (admissions, inserted) ← statement "aftercare_admissions" <|
    db.admissions.insertOrIgnore ⟨key, digest, case.case_id, session.session_id, run.run_id⟩
  if inserted then do
    let db ← createCase { db with admissions := admissions } case
    foreignKey "aftercare_sessions case" (db.cases.get session.toCaseScope)
    let sessions ← statement "aftercare_sessions" (db.sessions.insert session)
    let db ← createRun { db with sessions := sessions } clk run
    pure (db, ⟨case, session, run, false⟩)
  else do
    let result ← replayAdmission db key digest
    pure (db, result)

/-! ## Execution slots -/

def configureLimit (db : Database) (scope : LimitScope) (max_active_slots : ℤ) : Result Database := do
  require (1 ≤ max_active_slots) (.contract .invalidInput "max_active_slots must be positive")
  let limits ← statement "aftercare_admission_limits" <|
    match db.limits.get scope with
    | none => db.limits.insert ⟨scope, max_active_slots.toNat⟩
    | some _ => db.limits.update scope fun l => { l with max_active_slots := max_active_slots.toNat }
  pure { db with limits := limits }

/-- `acquire_slot` counts the slots in use against one limit. -/
def requireCapacity (db : Database) (slots : Table slotSchema) (scope : LimitScope) (t : Time) : Result Unit :=
  match db.limits.get scope with
  | none => pure ()
  | some limit =>
    let used := slots.select fun s => decide (t < s.lease_until) &&
      (scope == .global || scope == .tenant s.tenant_id)
    require (used.length < limit.max_active_slots) (.contract .rateLimited
      ((if scope = .global then "global" else "tenant") ++ " execution limit reached"))

/-- The part of `acquire_slot` that takes a new slot. -/
def takeSlot (db : Database) (clk : Clock Time) (claim : ExecutionClaim) (lease : ℤ) :
    Result (Database × Option SlotRow) := do
  let slots := (db.slots.deleteWhere fun s => decide (s.key = claim.key)).deleteWhere
    fun s => decide (s.lease_until ≤ clk.read 0)
  requireCapacity db slots .global (clk.read 1)
  requireCapacity db slots (.tenant claim.tenant_id) (clk.read 2)
  let slot : SlotRow := ⟨claim.toRunScope, claim.owner, claim.fencing_token, clk.read 3 + lease⟩
  foreignKey "aftercare_execution_slots run" (db.run claim.toRunScope)
  let slots ← statement "aftercare_execution_slots" (slots.insert slot)
  pure ({ db with slots := slots }, some slot)

def acquireSlot (db : Database) (clk : Clock Time) (claim : ExecutionClaim) (lease : ℤ) :
    Result (Database × Option SlotRow) := do
  require (0 < lease) (.contract .invalidInput "lease must be positive")
  if db.limits.get .global = none ∧ db.limits.get (.tenant claim.tenant_id) = none then
    pure (db, none)
  else
    match (db.slots.get claim.key).filter fun s => decide (clk.read 0 < s.lease_until) with
    | some existing => do
      require (existing.owner = claim.owner ∧ existing.fencing_token = claim.fencing_token)
        (.contract .rateLimited "run already owns an active slot")
      let slots ← statement "aftercare_execution_slots" <|
        db.slots.update claim.key fun s => { s with lease_until := clk.read 1 + lease }
      pure ({ db with slots := slots }, some { existing with lease_until := clk.read 1 + lease })
    | none => takeSlot db (clk.drop 1) claim lease

def SlotRow.heldBy (s : SlotRow) (claim : ExecutionClaim) : Bool :=
  s.toRunScope == claim.toRunScope && s.owner == claim.owner &&
    s.fencing_token == claim.fencing_token

def renewSlot (db : Database) (clk : Clock Time) (claim : ExecutionClaim) (lease : ℤ) :
    Result (Database × Time) := do
  require (0 < lease) (.contract .invalidInput "lease must be positive")
  let _ ← fetch ((db.slots.get claim.key).filter fun s =>
      s.heldBy claim && decide (clk.read 0 < s.lease_until))
    (.contract .leaseLost "execution slot lease lost")
  let slots ← statement "aftercare_execution_slots" <|
    db.slots.update claim.key fun s => { s with lease_until := clk.read 1 + lease }
  pure ({ db with slots := slots }, clk.read 1 + lease)

def releaseSlot (db : Database) (claim : ExecutionClaim) : Database :=
  { db with slots := db.slots.deleteWhere fun s => s.heldBy claim }

/-! ## What the methods do -/

variable {db db' : Database} {clk : Clock Time} {stop : Time}

theorem openCase_writes [Hashing] {key : AdmissionKey}
    {body : OpenCaseInput} {case : CaseRecord} {session : SessionRecord} {run : RunRecord}
    {result : AdmissionResult} (h : openCase db clk key body case session run = .ok (db', result)) :
    Writes gate (clk.read 0) clk.stop db db' := by
  simp only [openCase, ok_iff, statement_eq_ok] at h
  obtain ⟨-, -, ⟨admissions, inserted⟩, -, h⟩ := h
  cases inserted with
  | true =>
    simp only [if_true, ok_iff, statement_eq_ok] at h
    obtain ⟨opened, hcase, -, sessions, -, created, hrun, rfl, -⟩ := h
    have hadmission : Write gate (clk.read 0) clk.stop db { db with admissions := admissions } := .other ..
    have hsession : Write gate (clk.read 0) clk.stop opened { opened with sessions := sessions } := .other ..
    have hbefore : Writes gate (clk.read 0) clk.stop db { opened with sessions := sessions } :=
      (Relation.ReflTransGen.single hadmission).trans (createCase_writes hcase) |>.tail hsession
    exact hbefore.trans (createRun_writes (Within.refl clk) hrun)
  | false =>
    simp only [Bool.false_eq_true, if_false, ok_iff] at h
    obtain ⟨replay, -, rfl, -⟩ := h
    exact .refl

variable {start : Time}

theorem configureLimit_writes {scope : LimitScope} {max_active_slots : ℤ}
    (h : configureLimit db scope max_active_slots = .ok db') : Writes gate start stop db db' := by
  simp only [configureLimit, ok_iff, statement_eq_ok] at h
  obtain ⟨-, limits, -, rfl⟩ := h
  exact .single (.other ..)

theorem acquireSlot_writes {claim : ExecutionClaim} {lease : ℤ} {slot : Option SlotRow}
    (h : acquireSlot db clk claim lease = .ok (db', slot)) : Writes gate start stop db db' := by
  simp only [acquireSlot, ok_iff] at h
  obtain ⟨-, h⟩ := h
  split_ifs at h
  · cases h
    exact .refl
  · split at h
    · simp only [ok_iff, statement_eq_ok] at h
      obtain ⟨-, slots, -, rfl, -⟩ := h
      exact .single (.other ..)
    · simp only [takeSlot, ok_iff, statement_eq_ok] at h
      obtain ⟨-, -, -, slots, -, rfl, -⟩ := h
      exact .single (.other ..)

theorem renewSlot_writes {claim : ExecutionClaim} {lease : ℤ} {until_ : Time}
    (h : renewSlot db clk claim lease = .ok (db', until_)) : Writes gate start stop db db' := by
  simp only [renewSlot, ok_iff, statement_eq_ok] at h
  obtain ⟨-, existing, -, slots, -, rfl, -⟩ := h
  exact .single (.other ..)

theorem releaseSlot_writes (db : Database) (claim : ExecutionClaim) :
    Writes gate start stop db (releaseSlot db claim) := .single (.other ..)

end Aftercare
