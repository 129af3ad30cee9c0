import Aftercare.Persistence.Events

/-!
# The case grant repository

The methods of `CaseGrantRepository`. Every change of a grant appends an event that preserves the row as the change
left it; `grantCase_eq_ok` and `revokeCase_eq_ok` say what the two methods do to the table.
-/

namespace Aftercare

open Relational

/-! ## The table -/

/-- The constraints of migration 015 on a grant. -/
def CaseGrantRecord.check (g : CaseGrantRecord) : Bool :=
  g.permissions ≠ [] && decide (0 < g.revision ∧ g.revision ≤ maxInt) &&
    g.expires_at.all (fun t => decide (g.granted_at < t)) &&
    g.revoked_at.all (fun t => decide (g.granted_at ≤ t)) &&
    g.revoked_at.isNone == g.revoked_by.isNone

/-- `aftercare_case_grants`, by case and subject. -/
@[simps]
def grantSchema : Schema CaseGrantRecord (CaseScope × Identifier) where
  key g := (g.toCaseScope, g.subject_id)
  clash _ _ := false
  check := CaseGrantRecord.check

structure ApiStore extends Database where
  grants : Table grantSchema

def ApiStore.empty : ApiStore := ⟨Database.empty, .empty⟩

/-! ## Methods -/

/-- `_identifier`: validate text that a request names. -/
def requestIdentifier (field text : String) : Result Identifier :=
  if h : identifierValid text = true then .ok ⟨text, h⟩
  else .error (.contract .invalidInput ("invalid " ++ field))

theorem requestIdentifier_eq_ok {field text : String} {i : Identifier} :
    requestIdentifier field text = .ok i ↔ i.val = text := by
  unfold requestIdentifier
  split_ifs with h
  · rw [Except.ok.injEq, Identifier.ext_iff, eq_comm]
  · constructor
    · intro hi
      cases hi
    · rintro rfl
      exact absurd i.valid h

theorem requestIdentifier_val (field : String) (i : Identifier) :
    requestIdentifier field i.val = .ok i := requestIdentifier_eq_ok.mpr rfl

/-- `_permissions`. -/
def normalizedPermissions (values : List Identifier) : Result (List Identifier) := do
  require (values ≠ []) (.contract .invalidInput "grant permissions cannot be empty")
  pure (sortedSet values)

/-- An `expires_at` has to have a time zone. -/
def awareExpiry : Option Datetime → Result (Option Time)
  | none => pure none
  | some (.aware instant) => pure (some instant)
  | some (.naive _) => .error (.contract .invalidInput "expires_at must be timezone-aware")

def appendCaseGrantEvent [Hashing] (events : EventStore) (clk : Clock Time) (now : Time)
    (record : CaseGrantRecord) (kind : EventType) : Result EventStore :=
  let suffix := if kind = .caseGrantGranted then "granted" else "revoked"
  recordEvent events clk now record.toCaseScope none (.grant record) kind
    ("case_grant:" ++ record.case_id.val ++ ":" ++ record.subject_id.val ++ ":" ++ suffix ++ ":" ++
      toString record.revision) record.subject_id

/-- `CaseGrantRepository.resolve`: the active grant of a subject. -/
def resolveGrant (store : ApiStore) (clk : Clock Time) (scope : CaseScope) (subject_id : Identifier) :
    Option CaseGrantRecord :=
  (store.grants.get (scope, subject_id)).filter fun g => g.isActive (clk.read 0)

def CaseGrantRecord.created (scope : CaseScope) (subject_id : Identifier) (permissions : List Identifier)
    (granted_by : Identifier) (expires_at : Option Time) (clk : Clock Time) : CaseGrantRecord where
  toCaseScope := scope
  subject_id := subject_id
  permissions := permissions
  revision := 1
  granted_by := granted_by
  granted_at := clk.read 0
  expires_at := expires_at
  revoked_at := none
  revoked_by := none
  updated_at := clk.read 1

def CaseGrantRecord.replaced (permissions : List Identifier) (granted_by : Identifier)
    (expires_at : Option Time) (clk : Clock Time) (g : CaseGrantRecord) : CaseGrantRecord :=
  { g with
    permissions := permissions, revision := g.revision + 1, granted_by := granted_by
    expires_at := expires_at, revoked_at := none, revoked_by := none, updated_at := clk.read 0 }

/-- `CaseGrantRepository.grant`. -/
def grantCase [Hashing] (store : ApiStore) (clk : Clock Time) (now : Time) (scope : CaseScope)
    (subject_id : Identifier) (permissions : List Identifier) (granted_by : Identifier)
    (expires_at : Option Datetime) (expected_revision : Option ℕ) : Result (ApiStore × CaseGrantRecord) := do
  let normalized ← normalizedPermissions permissions
  let expires_at ← awareExpiry expires_at
  match store.grants.get (scope, subject_id) with
  | none => do
    require (expected_revision = none) (.contract .conflict "Case grant revision mismatch")
    let created := CaseGrantRecord.created scope subject_id normalized granted_by expires_at clk
    foreignKey "aftercare_case_grants case" (store.cases.get scope)
    let grants ← statement "aftercare_case_grants" (store.grants.insert created)
    let events ← appendCaseGrantEvent store.events (clk.drop 2) now created .caseGrantGranted
    pure ({ store with events := events, grants := grants }, created)
  | some current => do
    require (expected_revision = some current.revision)
      (.contract .conflict "Case grant revision mismatch")
    let update := CaseGrantRecord.replaced normalized granted_by expires_at clk
    let grants ← statement "aftercare_case_grants" (store.grants.update (scope, subject_id) update)
    let events ← appendCaseGrantEvent store.events (clk.drop 1) now (update current)
      .caseGrantGranted
    pure ({ store with events := events, grants := grants }, update current)

def CaseGrantRecord.revoked (revoked_by : Identifier) (clk : Clock Time) (g : CaseGrantRecord) :
    CaseGrantRecord :=
  { g with
    revision := g.revision + 1, revoked_at := some (clk.read 0), revoked_by := some revoked_by
    updated_at := clk.read 1 }

/-- `CaseGrantRepository.revoke`. -/
def revokeCase [Hashing] (store : ApiStore) (clk : Clock Time) (now : Time) (scope : CaseScope)
    (subject_id revoked_by : Identifier) (expected_revision : ℕ) : Result (ApiStore × CaseGrantRecord) := do
  require (1 ≤ expected_revision) (.contract .invalidInput "expected_revision must be positive")
  let current ← fetch (store.grants.get (scope, subject_id))
    (.contract .conflict "Case grant revision mismatch")
  require (current.revision = expected_revision)
    (.contract .conflict "Case grant revision mismatch")
  let update := CaseGrantRecord.revoked revoked_by clk
  let grants ← statement "aftercare_case_grants" (store.grants.update (scope, subject_id) update)
  let events ← appendCaseGrantEvent store.events (clk.drop 2) now (update current) .caseGrantRevoked
  pure ({ store with events := events, grants := grants }, update current)

/-- `CaseGrantRepository.list_for_case`. -/
def listGrants (store : ApiStore) (scope : CaseScope) (limit : ℕ) : List CaseGrantRecord :=
  ((store.grants.select fun g => g.toCaseScope == scope).insertionSort
    fun a b => a.subject_id.val ≤ b.subject_id.val).take limit

/-! ## What the methods do -/

variable {store : ApiStore} {clk : Clock Time} {subject_id : Identifier}

variable {scope : CaseScope}

theorem resolveGrant_eq_some {g : CaseGrantRecord} : resolveGrant store clk scope subject_id = some g ↔
      store.grants.get (scope, subject_id) = some g ∧ g.isActive (clk.read 0) = true := by
  rw [resolveGrant, Option.filter_eq_some_iff]

/-- What a row says about authority. -/
@[ext]
structure Delegation extends CaseScope where
  subject_id : Identifier
  permissions : List Identifier
  granted_by : Identifier

def CaseGrantRecord.delegation (g : CaseGrantRecord) : Delegation := { g with }

theorem grantCase_eq_ok [Hashing] {store' : ApiStore} {now : Time} {granted_by : Identifier}
    {permissions : List Identifier} {expires_at : Option Datetime} {expected_revision : Option ℕ}
    {record : CaseGrantRecord}
    (h : grantCase store clk now scope subject_id permissions granted_by expires_at expected_revision =
      .ok (store', record)) :
    record.delegation = ⟨scope, subject_id, sortedSet permissions, granted_by⟩ ∧ store'.cases = store.cases ∧
      ∀ g ∈ store'.grants.rows, g ∈ store.grants.rows ∨ g = record := by
  simp only [grantCase, normalizedPermissions, ok_iff] at h
  obtain ⟨normalized, ⟨-, rfl⟩, expires, -, h⟩ := h
  cases hget : store.grants.get (scope, subject_id) with
  | none =>
    simp only [hget, ok_iff, statement_eq_ok] at h
    obtain ⟨-, -, grants, hinsert, events, -, rfl, rfl⟩ := h
    exact ⟨rfl, rfl, fun g hg => (Table.mem_insert hinsert).mp hg⟩
  | some current =>
    simp only [hget, ok_iff, statement_eq_ok] at h
    obtain ⟨-, grants, hupdate, events, -, rfl, rfl⟩ := h
    have hkey : (current.toCaseScope, current.subject_id) = (scope, subject_id) := Table.key_of_get hget
    obtain ⟨rfl, rfl⟩ := Prod.mk.inj hkey
    refine ⟨rfl, rfl, fun g hg => ?_⟩
    rcases (Table.mem_update hget hupdate).mp hg with ⟨hold, -⟩ | hnew
    · exact .inl hold
    · exact .inr hnew

theorem revokeCase_eq_ok [Hashing] {store' : ApiStore} {now : Time} {revoked_by : Identifier}
    {expected_revision : ℕ} {record : CaseGrantRecord}
    (h : revokeCase store clk now scope subject_id revoked_by expected_revision = .ok (store', record)) :
    ∀ g ∈ store'.grants.rows, g ∈ store.grants.rows ∨
      g.revoked_at.isSome = true ∧ ∃ old ∈ store.grants.rows, old.delegation = g.delegation := by
  simp only [revokeCase, ok_iff, statement_eq_ok] at h
  obtain ⟨-, current, hget, -, grants, hupdate, events, -, rfl, -⟩ := h
  intro g hg
  rcases (Table.mem_update hget hupdate).mp hg with ⟨hold, -⟩ | rfl
  · exact .inl hold
  · exact .inr ⟨rfl, current, Table.mem_of_get hget, rfl⟩

end Aftercare
