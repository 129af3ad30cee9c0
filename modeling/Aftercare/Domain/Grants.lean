import Mathlib.Data.List.Dedup
import Mathlib.Data.List.Sort
import Aftercare.Domain.Runtime

/-!
# Identities and case grants

The values of `auth/grants.py` and `auth/context.py`. An `AuthContext` is what a verified token says; a right on
a case is a `CaseGrantRecord`, and `bind_case_grant` narrows the identity to what both allow. A `frozenset` is a
list here, of which only the members matter.
-/

namespace Aftercare

open Relational

/-! ## Permissions -/

namespace Permission

def caseCreate : Identifier := ⟨"case:create", Eq.refl true⟩
def caseRead : Identifier := ⟨"case:read", Eq.refl true⟩
def reviewRead : Identifier := ⟨"review:read", Eq.refl true⟩
def reviewDecide : Identifier := ⟨"review:decide", Eq.refl true⟩
def reviewOverride : Identifier := ⟨"review:override", Eq.refl true⟩
def strategyMigrate : Identifier := ⟨"strategy:migrate", Eq.refl true⟩
def approvalRead : Identifier := ⟨"approval:read", Eq.refl true⟩
def approvalDecide : Identifier := ⟨"approval:decide", Eq.refl true⟩

/-- `GRANT_READ_PERMISSION`. -/
def grantRead : Identifier := ⟨"grant:read", Eq.refl true⟩

/-- `GRANT_ADMIN_PERMISSION`. -/
def grantAdmin : Identifier := ⟨"grant:admin", Eq.refl true⟩

end Permission

def grantableCasePermissions : List Identifier :=
  [Permission.caseRead, Permission.reviewRead, Permission.reviewDecide, Permission.reviewOverride,
    Permission.strategyMigrate, Permission.approvalRead, Permission.approvalDecide]

/-- `sorted(frozenset(values))`. -/
def sortedSet (values : List Identifier) : List Identifier :=
  values.dedup.insertionSort fun a b => a.val ≤ b.val

@[simp]
theorem mem_sortedSet {values : List Identifier} {p : Identifier} : p ∈ sortedSet values ↔ p ∈ values := by
  rw [sortedSet, (List.perm_insertionSort _ _).mem_iff, List.mem_dedup]

/-- `','.join(sorted(values))`. -/
def joinSorted (values : List Identifier) : String :=
  ",".intercalate ((sortedSet values).map (·.val))

def authorizeCaseGrant (actor_permissions requested : List Identifier) : Result (List Identifier) := do
  require (requested ≠ []) (.contract .invalidInput "grant permissions cannot be empty")
  let unknown := requested.filter (· ∉ grantableCasePermissions)
  require (unknown = [])
    (.contract .invalidInput ("unsupported grant permission: " ++ joinSorted unknown))
  let escalation := requested.filter (· ∉ actor_permissions)
  require (escalation = []) (.contract .forbidden
    ("cannot grant a permission the actor lacks: " ++ joinSorted escalation))
  pure requested

theorem authorizeCaseGrant_eq_ok {actor_permissions requested granted : List Identifier} :
    authorizeCaseGrant actor_permissions requested = .ok granted ↔
      granted = requested ∧ requested ≠ [] ∧ requested ⊆ grantableCasePermissions ∧ requested ⊆ actor_permissions := by
  simp only [authorizeCaseGrant, ok_iff, List.filter_eq_nil_iff, decide_eq_true_eq, not_not]
  constructor
  · rintro ⟨hne, hgrantable, hheld, rfl⟩
    exact ⟨rfl, hne, hgrantable, hheld⟩
  · rintro ⟨rfl, hne, hgrantable, hheld⟩
    exact ⟨hne, hgrantable, hheld, rfl⟩

/-! ## Grants -/

/-- A row of `aftercare_case_grants`. -/
structure CaseGrantRecord extends CaseScope where
  subject_id : Identifier
  permissions : List Identifier
  revision : ℕ
  granted_by : Identifier
  granted_at : Time
  (expires_at revoked_at : Option Time)
  revoked_by : Option Identifier
  updated_at : Time
deriving DecidableEq, Repr

def CaseGrantRecord.isActive (grant : CaseGrantRecord) (now : Time) : Bool :=
  grant.revoked_at.isNone && grant.expires_at.all fun expires_at => decide (now < expires_at)

/-- A `datetime` of a request, with or without a time zone. -/
inductive Datetime
  | aware (instant : Time)
  | naive (wall : Time)
deriving DecidableEq, Repr

/-! ## Identities -/

structure AuthContext where
  (subject_id tenant_id : Identifier)
  permissions : List Identifier
  synthetic : Bool
  case_ids : Option (List Identifier)
  case_scope_resolved : Bool
  case_grant_revision : Option ℕ
deriving DecidableEq, Repr

def AuthContext.require (identity : AuthContext) (permission : Identifier) : Result Unit :=
  Relational.require (permission ∈ identity.permissions) (.contract .forbidden "permission denied")

variable {identity : AuthContext}

theorem AuthContext.require_eq_ok {permission : Identifier} {u : Unit} :
    identity.require permission = .ok u ↔ permission ∈ identity.permissions := Relational.require_eq_ok

/-- The token has no bound, or its bound names the case. -/
def AuthContext.admits (identity : AuthContext) (case_id : Identifier) : Bool :=
  identity.case_ids.all fun case_ids => decide (case_id ∈ case_ids)

def AuthContext.requireCase (identity : AuthContext) (case_id permission : Identifier) : Result Unit := do
  Relational.require (identity.synthetic = true ∨ identity.case_scope_resolved = true)
    (.contract .forbidden "case grant is unresolved")
  Relational.require (identity.admits case_id = true) (.contract .forbidden "case access denied")
  identity.require permission

def AuthContext.bindCaseGrant (identity : AuthContext) (grant : CaseGrantRecord) : Result AuthContext := do
  Relational.require (identity.synthetic = false)
    (.contract .forbidden "synthetic identity cannot bind grants")
  Relational.require (grant.tenant_id = identity.tenant_id ∧ grant.subject_id = identity.subject_id)
    (.contract .forbidden "case grant identity mismatch")
  Relational.require (identity.admits grant.case_id = true)
    (.contract .forbidden "case access denied")
  let permissions := identity.permissions.filter (· ∈ grant.permissions)
  Relational.require (permissions ≠ []) (.contract .forbidden "case grant permission denied")
  pure { identity with
    permissions := permissions, case_ids := some [grant.case_id], case_scope_resolved := true
    case_grant_revision := some grant.revision }

theorem AuthContext.bindCaseGrant_permissions {bound : AuthContext} {grant : CaseGrantRecord}
    (h : identity.bindCaseGrant grant = .ok bound) {p : Identifier} :
    p ∈ bound.permissions ↔ p ∈ identity.permissions ∧ p ∈ grant.permissions := by
  simp only [bindCaseGrant, ok_iff] at h
  obtain ⟨-, -, -, -, rfl⟩ := h
  rw [List.mem_filter, decide_eq_true_eq]

theorem AuthContext.bindCaseGrant_outside {grant : CaseGrantRecord} (hreal : identity.synthetic = false)
    (hgrant : grant.tenant_id = identity.tenant_id ∧ grant.subject_id = identity.subject_id)
    (houtside : identity.admits grant.case_id = false) :
    identity.bindCaseGrant grant = .error (.contract .forbidden "case access denied") := by
  unfold bindCaseGrant Relational.require
  rw [if_pos hreal, if_pos hgrant, if_neg (Bool.eq_false_iff.mp houtside)]
  rfl

end Aftercare
