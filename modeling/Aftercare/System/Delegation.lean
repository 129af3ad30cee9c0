import Aftercare.System.Confinement

/-!
# Where authority comes from

No request gives a subject more on a case than its token and a grant allow (`handle_authorized`), and no grant gives
more than its author had: `serve_writes` says which rows one transaction can write, and `authority_confined` follows
for all histories.
-/

namespace Aftercare

open Relational Routes

variable {clk : Clock Time} {identity : AuthContext} {case_id : String} {now : Time}
  {body : OpenCaseInput} {r : ApiStore × Response} {op : CaseOperation} {p : Identifier}
  {store' : ApiStore} {response : Response} {g : CaseGrantRecord}

/-! ## Authorization -/

def CaseOperation.needs : CaseOperation → List Identifier
  | .getRun _ | .getCase | .caseEvents _ | .streamEvent _ => [Permission.caseRead]
  | .listReviews _ | .getReview _ => [Permission.reviewRead]
  | .listApprovals _ | .getApproval _ => [Permission.approvalRead]
  | .decideReview _ body _ =>
    Permission.reviewDecide :: if body.override.isSome then [Permission.reviewOverride] else []
  | .migrateStrategy .. => [Permission.strategyMigrate]
  | .decideApproval .. => [Permission.approvalDecide]
  | .listCaseGrants _ => [Permission.grantRead]
  | .putCaseGrant _ | .revokeCaseGrant .. => [Permission.grantAdmin]

/-- The token and the active grant contain the permission. -/
def Entitled (store : ApiStore) (now : Time) (identity : AuthContext) (case_id : Identifier)
    (p : Identifier) : Prop :=
  p ∈ identity.permissions ∧
    ∃ g, store.grants.get (⟨identity.tenant_id, case_id⟩, identity.subject_id) = some g ∧
      g.isActive now = true ∧ p ∈ g.permissions

variable {store : ApiStore}

theorem authorizedCase_eq_ok {bound : AuthContext} {permission c : Identifier} (hreal : identity.synthetic = false)
    (h : authorizedCase store clk identity case_id permission = .ok (c, bound)) :
    c.val = case_id ∧ permission ∈ bound.permissions ∧
      ∀ p ∈ bound.permissions, Entitled store (clk.read 0) identity c p := by
  simp only [authorizedCase, ok_iff, hreal, Bool.false_eq_true, if_false] at h
  obtain ⟨c', hparse, g, hresolve, bound', hbind, hrequire, rfl, rfl⟩ := h
  obtain ⟨hget, hactive⟩ := resolveGrant_eq_some.mp hresolve
  have hpermissions := fun p => AuthContext.bindCaseGrant_permissions hbind (p := p)
  simp only [AuthContext.requireCase, ok_iff, AuthContext.require_eq_ok] at hrequire
  refine ⟨requestIdentifier_eq_ok.mp hparse, hrequire.2.2, fun p hp => ?_⟩
  obtain ⟨htoken, hgrant⟩ := (hpermissions p).mp hp
  exact ⟨htoken, g, hget, hactive, hgrant⟩

theorem decideReview_override [Hashing] {review_id : String} {body : ReviewDecisionInput} {key : Option String}
    (hreal : identity.synthetic = false)
    (h : Routes.decideReview store clk now identity case_id review_id body key = .ok r)
    (hoverride : body.override.isSome = true) : ∃ c : Identifier, c.val = case_id ∧
      Entitled store (clk.read 0) identity c Permission.reviewOverride := by
  simp only [Routes.decideReview, bind_eq_ok, Prod.exists] at h
  obtain ⟨_, -, _, -, c, bound, hauthorized, _, -, _, -, _, hrequest, -⟩ := h
  obtain ⟨hval, -, hentitled⟩ := authorizedCase_eq_ok hreal hauthorized
  obtain ⟨input, hinput⟩ := Option.isSome_iff_exists.mp hoverride
  simp only [hinput, operatorOverride, ok_iff, AuthContext.require_eq_ok] at hrequest
  exact ⟨c, hval, hentitled _ hrequest.1⟩

theorem CaseOperation.mem_needs (hp : p ∈ op.needs) : p = op.permission ∨ p = Permission.reviewOverride ∧
      ∃ review_id body key, op = .decideReview review_id body key ∧ body.override.isSome = true := by
  cases op with
  | decideReview review_id body key =>
    rcases List.mem_cons.mp hp with hp | hp
    · exact .inl hp
    · split_ifs at hp with hoverride
      · exact .inr ⟨List.mem_singleton.mp hp, review_id, body, key, rfl, hoverride⟩
      · cases hp
  | _ => exact .inl (List.mem_singleton.mp hp)

/-- **What a request is checked for.** Other than by administration, an operation succeeds only when the identity is
entitled on the case to what it needs. -/
theorem handle_authorized [Hashing] (hreal : identity.synthetic = false) (hop : op.administration = false)
    (h : op.handle store clk now identity case_id = .ok r) : ∃ c : Identifier, c.val = case_id ∧
      ∀ p ∈ op.needs, Entitled store (clk.read 0) identity c p := by
  obtain ⟨c, bound, hauthorized⟩ := (handle_guarded hreal hop).authorizes h
  obtain ⟨hval, hneeded, hentitled⟩ := authorizedCase_eq_ok hreal hauthorized
  refine ⟨c, hval, fun p hp => ?_⟩
  rcases CaseOperation.mem_needs hp with rfl | ⟨rfl, review_id, body, key, rfl, hoverride⟩
  · exact hentitled _ hneeded
  · obtain ⟨c', hval', hentitled'⟩ := decideReview_override hreal h hoverride
    -- Both are the case that the path names.
    rw [Identifier.ext (hval.trans hval'.symm)]
    exact hentitled'

/-! ## Writing grants -/

abbrev ApiTransaction := Transaction ApiStore Time ApiCall ApiOutput Failure

/-- A grant by the author of the row, who had the permission. -/
def Granted (call : ApiCall) (g : CaseGrantRecord) (p : Identifier) : Prop :=
  ∃ now identity body, call = .onCase now identity g.case_id.val (.putCaseGrant body) ∧
    identity.tenant_id = g.tenant_id ∧ identity.subject_id = g.granted_by ∧
    body.subject_id = g.subject_id ∧ p ∈ body.permissions ∧
    p ∈ grantableCasePermissions ∧ p ∈ identity.permissions

/-- The case was opened for the subject, who may read it. -/
def Opened (call : ApiCall) (before after : ApiStore) (g : CaseGrantRecord) (p : Identifier) : Prop :=
  ∃ now identity ids body key, call = .openCase now identity ids body key ∧
    identity.tenant_id = g.tenant_id ∧ ids.case_id = g.case_id ∧
    identity.subject_id = g.subject_id ∧ g.granted_by = g.subject_id ∧ p = Permission.caseRead ∧
    before.cases.get g.toCaseScope = none ∧ (after.cases.get g.toCaseScope).isSome = true

theorem openCase_created [Hashing] {db db' : Database} {key : AdmissionKey} {case : CaseRecord}
    {session : SessionRecord} {run : RunRecord} {result : AdmissionResult}
    (h : Aftercare.openCase db clk key body case session run = .ok (db', result))
    (hnew : result.replayed = false) : result.case = case ∧ db.cases.get case.toCaseScope = none ∧
      (db'.cases.get case.toCaseScope).isSome = true := by
  simp only [Aftercare.openCase, ok_iff, statement_eq_ok, Prod.exists] at h
  obtain ⟨-, -, admissions, inserted, -, h⟩ := h
  cases inserted with
  | true =>
    simp only [if_true, createCase, createRun, ok_iff, statement_eq_ok] at h
    obtain ⟨_, ⟨cases, hinsert, rfl⟩, -, sessions, -, _, ⟨-, runs, -, rfl⟩, rfl, rfl⟩ := h
    refine ⟨rfl, Table.get_none_of_insert hinsert, ?_⟩
    rw [Table.get_insert hinsert, caseSchema_key, if_pos rfl]
    rfl
  | false =>
    -- A replay says so in its result.
    simp only [Bool.false_eq_true, if_false, replayAdmission, ok_iff] at h
    obtain ⟨_, ⟨_, -, -, _, -, _, -, _, -, _, -, rfl⟩, -, rfl⟩ := h
    cases hnew

theorem openCase_writes_grant [Hashing] {ids : FreshIds} {key : Option String}
    (h : Routes.openCase store clk now identity ids body key = .ok (store', response))
    (hg : g ∈ store'.grants.rows) (hnew : g ∉ store.grants.rows) (hp : p ∈ g.permissions) :
    Opened (.openCase now identity ids body key) store store' g p := by
  simp only [Routes.openCase, ok_iff, Prod.exists] at h
  obtain ⟨-, _, -, _, -, db, result, hopen, h⟩ := h
  cases hreplayed : result.replayed with
  | true =>
    simp only [hreplayed, if_true, ok_iff] at h
    obtain ⟨_, -, rfl, -⟩ := h
    exact absurd hg hnew
  | false =>
    simp only [hreplayed, Bool.false_eq_true, if_false, ok_iff, Prod.exists] at h
    obtain ⟨_, record, hgrant, rfl, -⟩ := h
    obtain ⟨hcase, hnone, hsome⟩ := openCase_created hopen hreplayed
    obtain ⟨hrecord, hcases, hrows⟩ := grantCase_eq_ok hgrant
    obtain rfl : g = record := (hrows g hg).resolve_left hnew
    have hscope : g.toCaseScope = ⟨identity.tenant_id, ids.case_id⟩ := by
      rw [hcase] at hrecord
      exact congrArg Delegation.toCaseScope hrecord
    have hsubject : g.subject_id = identity.subject_id := congrArg Delegation.subject_id hrecord
    have hauthor : g.granted_by = identity.subject_id := congrArg Delegation.granted_by hrecord
    have hpermissions : g.permissions = sortedSet [Permission.caseRead] := congrArg Delegation.permissions hrecord
    rw [hpermissions, mem_sortedSet, List.mem_singleton] at hp
    refine ⟨now, identity, ids, body, key, rfl, ?_, ?_, hsubject.symm, ?_, hp, ?_, ?_⟩
    · exact (congrArg CaseScope.tenant_id hscope).symm
    · exact (congrArg CaseScope.case_id hscope).symm
    · rw [hauthor, hsubject]
    · rw [hscope]
      exact hnone
    · rw [hscope, hcases]
      exact hsome

theorem putCaseGrant_writes_grant [Hashing] {body : CaseGrantInput}
    (h : putCaseGrant store clk now identity case_id body = .ok (store', response))
    (hg : g ∈ store'.grants.rows) (hnew : g ∉ store.grants.rows) (hp : p ∈ g.permissions) :
    Granted (.onCase now identity case_id (.putCaseGrant body)) g p := by
  simp only [putCaseGrant, administeredCase, ok_iff, Prod.exists, requestIdentifier_eq_ok,
    authorizeCaseGrant_eq_ok] at h
  obtain ⟨_, ⟨c, rfl, -, -, rfl⟩, -, _, ⟨rfl, -, hgrantable, hheld⟩, _, record, hgrant, rfl, -⟩ := h
  obtain ⟨hrecord, -, hrows⟩ := grantCase_eq_ok hgrant
  obtain rfl : g = record := (hrows g hg).resolve_left hnew
  have hscope : g.toCaseScope = ⟨identity.tenant_id, c⟩ := congrArg Delegation.toCaseScope hrecord
  have hcase : g.case_id = c := congrArg CaseScope.case_id hscope
  have hpermissions : g.permissions = sortedSet (sortedSet body.permissions) := congrArg Delegation.permissions hrecord
  rw [hpermissions, mem_sortedSet, mem_sortedSet] at hp
  refine ⟨now, identity, body, ?_, (congrArg CaseScope.tenant_id hscope).symm,
    (congrArg Delegation.granted_by hrecord).symm, (congrArg Delegation.subject_id hrecord).symm, hp,
    hgrantable hp, hheld hp⟩
  rw [hcase]

/-- A revocation takes the permissions and their author over. -/
def Inherited (before : ApiStore) (g : CaseGrantRecord) : Prop :=
  g.revoked_at.isSome = true ∧ ∃ old ∈ before.grants.rows, old.delegation = g.delegation

theorem handle_writes [Hashing] (h : op.handle store clk now identity case_id = .ok (store', response))
    (hg : g ∈ store'.grants.rows) (hnew : g ∉ store.grants.rows) :
    Inherited store g ∨ ∀ p ∈ g.permissions, Granted (.onCase now identity case_id op) g p := by
  -- A read returns the store that it was given, and a decision one with the same grants.
  have hkept : store'.grants ≠ store.grants := fun heq => hnew (heq ▸ hg)
  cases op with
  | putCaseGrant body => exact .inr fun p hp => putCaseGrant_writes_grant h hg hnew hp
  | revokeCaseGrant subject_id body =>
    simp only [CaseOperation.handle, revokeCaseGrant, bind_eq_ok, Prod.exists, pure_eq_ok, Prod.mk.injEq] at h
    obtain ⟨_, -, c, -, _, record, hrevoke, rfl, -⟩ := h
    exact .inl ((revokeCase_eq_ok hrevoke g hg).resolve_left hnew)
  | decideReview review_id body key =>
    simp only [CaseOperation.handle, Routes.decideReview, bind_eq_ok, Prod.exists, pure_eq_ok, Prod.mk.injEq] at h
    obtain ⟨_, -, _, -, _, _, -, _, -, _, -, _, -, _, _, -, rfl, -⟩ := h
    exact absurd rfl hkept
  | migrateStrategy run_id body key =>
    simp only [CaseOperation.handle, Routes.migrateStrategy, bind_eq_ok, Prod.exists, pure_eq_ok, Prod.mk.injEq] at h
    obtain ⟨_, -, _, -, _, _, -, _, -, _, -, _, _, _, -, rfl, -⟩ := h
    exact absurd rfl hkept
  | decideApproval approval_id body key =>
    simp only [CaseOperation.handle, Routes.decideApproval, bind_eq_ok, Prod.exists, pure_eq_ok, Prod.mk.injEq] at h
    obtain ⟨_, -, _, -, _, _, -, _, -, _, -, _, _, -, rfl, -⟩ := h
    exact absurd rfl hkept
  | _ =>
    simp only [CaseOperation.handle, bind_eq_ok, pure_eq_ok, Prod.mk.injEq] at h
    obtain ⟨_, -, rfl, -⟩ := h
    exact absurd rfl hkept

/-- **What one transaction can write**: what its author had, or the opener's right. -/
theorem serve_writes [Hashing] {call : ApiCall} {o : ApiOutput} (h : serve store clk call = .ok (store', o))
    (hg : g ∈ store'.grants.rows) (hnew : g ∉ store.grants.rows) : Inherited store g ∨
      ∀ p ∈ g.permissions, Granted call g p ∨ Opened call store store' g p := by
  cases call with
  | openCase now identity ids body key =>
    simp only [serve, ok_iff, Prod.exists] at h
    obtain ⟨_, response, hopen, rfl, -⟩ := h
    exact .inr fun p hp => .inr (openCase_writes_grant hopen hg hnew hp)
  | onCase now identity case_id op =>
    simp only [serve, ok_iff, Prod.exists] at h
    obtain ⟨_, response, hhandle, rfl, -⟩ := h
    rcases handle_writes hhandle hg hnew with hinherited | hgranted
    · exact .inl hinherited
    · exact .inr fun p hp => .inl (hgranted p hp)
  | repository call =>
    simp only [serve, ok_iff, Prod.exists] at h
    obtain ⟨db, _, -, rfl, -⟩ := h
    exact absurd hg hnew

/-! ## Histories -/

section

variable [Hashing] {h : List ApiTransaction} {t₀ t : Time} {store : ApiStore}

theorem ApiHistory.writes (hr : ApiHistory h t₀ store t) {τ : ApiTransaction} (hτ : τ ∈ h)
    (hg : g ∈ τ.after.grants.rows) (hnew : g ∉ τ.before.grants.rows) : Inherited τ.before g ∨
      ∀ p ∈ g.permissions, Granted τ.call g p ∨ Opened τ.call τ.before τ.after g p := by
  obtain ⟨_, _, -, -, houtcome⟩ := hr.before hτ
  unfold Transaction.after at hg ⊢
  cases hserve : τ.outcome with
  | error failure =>
    rw [hserve, committed_error] at hg
    exact absurd hg hnew
  | ok r =>
    obtain ⟨store', o⟩ := r
    rw [hserve, committed_ok] at hg
    rw [hserve] at houtcome
    exact serve_writes houtcome.symm hg hnew

/-- A row with what `g` says about authority. -/
def Delegates (g : CaseGrantRecord) (store : ApiStore) : Prop :=
  ∃ row ∈ store.grants.rows, row.delegation = g.delegation

theorem ApiHistory.origin (hr : ApiHistory h t₀ store t) (hg : g ∈ store.grants.rows) :
    ∃ τ ∈ h, ∃ row ∈ τ.after.grants.rows, row.delegation = g.delegation ∧
      ∀ p ∈ row.permissions, Granted τ.call row p ∨ Opened τ.call τ.before τ.after row p := by
  have hempty : ¬Delegates g ApiStore.empty := fun ⟨_, hrow, _⟩ => by cases hrow
  obtain ⟨τ, hτ, hbefore, row, hrow, hsame⟩ := hr.becomes hempty ⟨g, hg, rfl⟩
  have hnew : row ∉ τ.before.grants.rows := fun hold => hbefore ⟨row, hold, hsame⟩
  refine ⟨τ, hτ, row, hrow, hsame, ?_⟩
  rcases ApiHistory.writes hr hτ hrow hnew with ⟨-, old, hold, heq⟩ | hwritten
  · -- A revocation would have found these permissions in the row that it revokes.
    exact absurd ⟨old, hold, heq.trans hsame⟩ hbefore
  · exact hwritten

end

/-- **Authority is confined by tokens and grants.** An operation succeeds only when the token and the active grant contain
what it needs, and every row of the grants is a revocation, has only what its author had, or is the right of the
subject that opened the case to read it. -/
theorem authority_confined [Hashing] {h : List ApiTransaction} {t₀ t : Time} {store : ApiStore}
    (hr : ApiHistory h t₀ store t) : (∀ τ ∈ h, ∀ now identity case_id op,
      τ.call = .onCase now identity case_id op → identity.synthetic = false →
      op.administration = false → (∃ r, τ.outcome = .ok r) →
      ∃ c : Identifier, c.val = case_id ∧
        ∀ p ∈ op.needs, Entitled τ.before (τ.clock.read 0) identity c p) ∧
    (∀ τ ∈ h, ∀ g ∈ τ.after.grants.rows, g ∉ τ.before.grants.rows → Inherited τ.before g ∨
        ∀ p ∈ g.permissions, Granted τ.call g p ∨ Opened τ.call τ.before τ.after g p) ∧
    ∀ g ∈ store.grants.rows, ∃ τ ∈ h, ∃ row ∈ τ.after.grants.rows, row.delegation = g.delegation ∧
      ∀ p ∈ row.permissions, Granted τ.call row p ∨ Opened τ.call τ.before τ.after row p := by
  refine ⟨?_, fun τ hτ g hg hnew => ApiHistory.writes hr hτ hg hnew,
    fun g hg => ApiHistory.origin hr hg⟩
  intro τ hτ now identity case_id op hcall hreal hop ⟨r, hr'⟩
  obtain ⟨_, _, -, -, houtcome⟩ := hr.before hτ
  rw [hr', hcall] at houtcome
  have hserve := houtcome.symm
  simp only [serve, bind_eq_ok] at hserve
  obtain ⟨r', hhandle, -⟩ := hserve
  exact handle_authorized hreal hop hhandle

/-- The subject that opened the first case reads it. -/
def sampleReading : ApiTransaction :=
  let call := .onCase 2 (sampleIdentity firstSubject [Permission.caseRead] none) firstCase.val .getCase
  ⟨sampleStore, .still 2, call, @serve sampleHashing sampleStore (.still 2) call⟩

theorem authority_confined_reading :
    @ApiHistory sampleHashing (sampleReading :: sampleApiHistory) 0 sampleReading.after 2 ∧
      (∃ r, sampleReading.outcome = .ok r) ∧ ∃ c : Identifier, c.val = firstCase.val ∧
        Entitled sampleStore 2 (sampleIdentity firstSubject [Permission.caseRead] none) c
          Permission.caseRead := by
  have hr : @ApiHistory sampleHashing (sampleReading :: sampleApiHistory) 0 sampleReading.after 2 :=
    sample_apiHistory.call (.still 2) _ (by decide)
  have hread : ∃ r, sampleReading.outcome = .ok r := ⟨_, rfl⟩
  obtain ⟨c, hval, hholds⟩ := (@authority_confined sampleHashing _ _ _ _ hr).1 sampleReading
    List.mem_cons_self 2 _ _ _ rfl rfl rfl hread
  exact ⟨hr, hread, c, hval, hholds _ List.mem_cons_self⟩

end Aftercare
