import Aftercare.System.Requests

/-!
# The bound of a token

An identity that is bound to some cases is to get nowhere with another one, and to learn nothing about it
(`Refused`). The routes that resolve a grant keep to this (`handle_guarded`); those that administer grants never
look at the bound. `case_bound_iff` is the exact line.
-/

namespace Aftercare

open Relational Routes

variable {model case_id : String} {store : ApiStore} {clk : Clock Time} {now : Time}
  {subject_id : Identifier} {expires_at : Option Datetime} {op : CaseOperation}
  {handler : ApiStore → Clock Time → Time → Result (ApiStore × Response)}

/-! ## Refusals -/

/-- A response, or the `HttpError` of the failure. -/
def CaseOperation.answer [Hashing] (store : ApiStore) (clk : Clock Time) (now : Time)
    (identity : AuthContext) (case_id : String) (op : CaseOperation) : Except HttpError Response :=
  match op.handle store clk now identity case_id with
  | .ok (_, response) => .ok response
  | .error failure => .error failure.http

/-- Refused without a word about the case. -/
def Refused [Hashing] (store : ApiStore) (clk : Clock Time) (now : Time) (identity : AuthContext)
    (case_id : Identifier) (op : CaseOperation) : Prop :=
  committed store (op.handle store clk now identity case_id.val) = store ∧
  ∃ error, op.answer store clk now identity case_id.val = .error error ∧
    ∀ (other : ApiStore) (clk' : Clock Time) (now' : Time),
      other.cases.get ⟨identity.tenant_id, case_id⟩ = none →
        op.answer other clk' now' identity case_id.val = .error error

def Failure.Forbids : Failure → Prop
  | .contract .forbidden _ => True
  | _ => False

theorem Failure.forbids_iff {e : Failure} : e.Forbids ↔ e.http = ⟨403, some .forbidden⟩ := by
  cases e with
  | contract code message => cases code <;> simp [Forbids, http]
  | _ => simp [Forbids, http]

/-! ## Failures of the repositories -/

theorem statement_not_forbidden {α : Type} {table : String} {x : Except Violation α} :
    ¬Raises Failure.Forbids (statement table x) := by
  rcases x with (_ | _) | a
  · simp [statement, Failure.Forbids]
  · simp [statement, Failure.Forbids]
  · simp [statement]

theorem identifier_not_forbidden {text : String} : ¬Raises Failure.Forbids (identifier model text) := by
  unfold identifier
  split_ifs
  · simp
  · simp [Failure.Forbids]

theorem positiveInt_not_forbidden {n : ℕ} : ¬Raises Failure.Forbids (positiveInt model n) := by
  unfold positiveInt
  split_ifs
  · simp
  · simp [Failure.Forbids]

theorem appendEvent_not_forbidden [Hashing] {store : EventStore} {draft : DomainEventDraft}
    {snapshot : Option Snapshot} : ¬Raises Failure.Forbids (appendEvent store clk draft snapshot) := by
  have hlock : ¬Raises Failure.Forbids (lockCaseSequence store draft.toCaseScope) := by
    simp only [lockCaseSequence, raises_bind, raises_fetch, statement_not_forbidden, raises_pure,
      Failure.Forbids, and_false, exists_false, or_self, not_false_iff]
  have hsnapshot : ∀ locked, ¬Raises Failure.Forbids (recordSnapshot locked draft snapshot) := by
    intro locked
    cases snapshot with
    | none => exact raises_pure
    | some payload =>
      simp only [recordSnapshot, raises_bind, raises_require, statement_not_forbidden, raises_pure,
        Failure.Forbids, and_false, exists_false, or_self, not_false_iff]
  unfold appendEvent
  rw [raises_bind]
  rintro (h | ⟨⟨locked, current⟩, -, h⟩)
  · exact hlock h
  dsimp only at h
  cases hget : locked.outbox.get (draft.tenant_id, draft.event_id) with
  | some row =>
    simp only [hget, raises_bind, raises_require, raises_pure, Failure.Forbids, and_false, exists_false, or_self] at h
  | none =>
    simp only [hget, raises_bind, raises_require, hsnapshot, positiveInt_not_forbidden,
      statement_not_forbidden, raises_pure, Failure.Forbids, and_false, exists_false, or_self] at h

theorem appendCaseGrantEvent_not_forbidden [Hashing] {events : EventStore} {record : CaseGrantRecord}
    {kind : EventType} : ¬Raises Failure.Forbids (appendCaseGrantEvent events clk now record kind) := by
  unfold appendCaseGrantEvent recordEvent
  rw [raises_bind]
  rintro (h | ⟨reference_id, -, h⟩)
  · exact identifier_not_forbidden h
  rw [raises_bind] at h
  rcases h with h | ⟨event_id, -, h⟩
  · exact identifier_not_forbidden h
  split_ifs at h
  · rw [raises_bind] at h
    rcases h with h | ⟨⟨store, _⟩, -, h⟩
    · exact appendEvent_not_forbidden h
    · exact raises_pure h
  · simp [Failure.Forbids] at h

theorem grantCase_not_forbidden [Hashing] {scope : CaseScope} {granted_by : Identifier}
    {permissions : List Identifier} {expected_revision : Option ℕ} :
    ¬Raises Failure.Forbids (grantCase store clk now scope subject_id permissions granted_by expires_at
      expected_revision) := by
  have hexpiry : ¬Raises Failure.Forbids (awareExpiry expires_at) := by
    unfold awareExpiry
    split
    · exact raises_pure
    · exact raises_pure
    · simp [Failure.Forbids]
  unfold grantCase
  cases store.grants.get (scope, subject_id) with
  | none =>
    simp only [normalizedPermissions, foreignKey, raises_bind, raises_require, hexpiry,
      statement_not_forbidden, appendCaseGrantEvent_not_forbidden, raises_pure, Failure.Forbids,
      and_false, exists_false, or_self, not_false_iff]
  | some current =>
    simp only [normalizedPermissions, raises_bind, raises_require, hexpiry, statement_not_forbidden,
      appendCaseGrantEvent_not_forbidden, raises_pure, Failure.Forbids, and_false, exists_false,
      or_self, not_false_iff]

theorem revokeCase_not_forbidden [Hashing] {scope : CaseScope} {revoked_by : Identifier} {expected_revision : ℕ} :
    ¬Raises Failure.Forbids (revokeCase store clk now scope subject_id revoked_by expected_revision) := by
  simp only [revokeCase, raises_bind, raises_require, raises_fetch, statement_not_forbidden,
    appendCaseGrantEvent_not_forbidden, raises_pure, Failure.Forbids, and_false, exists_false,
    or_self, not_false_iff]

/-! ## Authorization outside the bound -/

section

variable {identity : AuthContext} {case_ids : List Identifier} {c : Identifier}

theorem AuthContext.admits_outside (hbound : identity.case_ids = some case_ids)
    (houtside : c ∉ case_ids) : identity.admits c = false := by
  rw [admits, hbound, Option.all_some]
  exact decide_eq_false houtside

theorem authorizedCase_outside (hreal : identity.synthetic = false) (hadmits : identity.admits c = false)
    (store : ApiStore) (clk : Clock Time) (permission : Identifier) :
    authorizedCase store clk identity c.val permission = .error (.contract .forbidden "case access denied") := by
  unfold authorizedCase
  rw [requestIdentifier_val, ok_bind, hreal, if_neg Bool.false_ne_true]
  cases hgrant : resolveGrant store clk ⟨identity.tenant_id, c⟩ identity.subject_id with
  | none => rfl
  | some grant =>
    have hkey : (grant.toCaseScope, grant.subject_id) = (⟨identity.tenant_id, c⟩, identity.subject_id) :=
      Table.key_of_get (resolveGrant_eq_some.mp hgrant).1
    obtain ⟨hscope, hsubject⟩ := Prod.mk.inj hkey
    have hcase : grant.case_id = c := congrArg CaseScope.case_id hscope
    have htenant : grant.tenant_id = identity.tenant_id := congrArg CaseScope.tenant_id hscope
    rw [← hcase] at hadmits
    rw [fetch, ok_bind, AuthContext.bindCaseGrant_outside hreal ⟨htenant, hsubject⟩ hadmits]
    rfl

theorem administeredCase_of_some {permission : Identifier}
    (hcase : (store.cases.get ⟨identity.tenant_id, c⟩).isSome = true) :
    administeredCase store identity c.val permission = identity.require permission >>= fun _ => pure c := by
  unfold administeredCase
  rw [requestIdentifier_val, ok_bind]
  refine bind_congr_ok fun _ _ => ?_
  rw [require, Aftercare.getCase, if_pos hcase]
  rfl

/-! ## The two ways of authorization -/

def CaseOperation.administration : CaseOperation → Bool
  | .listCaseGrants _ | .putCaseGrant _ | .revokeCaseGrant .. => true
  | _ => false

def CaseOperation.permission : CaseOperation → Identifier
  | .getRun _ | .getCase | .caseEvents _ | .streamEvent _ => Permission.caseRead
  | .listReviews _ | .getReview _ => Permission.reviewRead
  | .listApprovals _ | .getApproval _ => Permission.approvalRead
  | .decideReview .. => Permission.reviewDecide
  | .migrateStrategy .. => Permission.strategyMigrate
  | .decideApproval .. => Permission.approvalDecide
  | .listCaseGrants _ => Permission.grantRead
  | .putCaseGrant _ | .revokeCaseGrant .. => Permission.grantAdmin

/-- Some checks of the request alone, and then `_authorized_case`. -/
inductive Guarded (identity : AuthContext) (case_id : String) (permission : Identifier) :
    (ApiStore → Clock Time → Time → Result (ApiStore × Response)) → Prop
  | authorize (body : ApiStore → Clock Time → Time → Identifier × AuthContext → Result (ApiStore × Response)) :
      Guarded identity case_id permission fun store clk now =>
        authorizedCase store clk identity case_id permission >>= body store clk now
  | check {α : Type} (head : Result α)
      (tail : α → ApiStore → Clock Time → Time → Result (ApiStore × Response))
      (h : ∀ a, head = .ok a → Guarded identity case_id permission (tail a)) :
      Guarded identity case_id permission fun store clk now =>
        head >>= fun a => tail a store clk now

theorem handle_guarded [Hashing] (hreal : identity.synthetic = false) (hop : op.administration = false) :
    Guarded identity case_id op.permission fun store clk now => op.handle store clk now identity case_id := by
  cases op with
  | getRun run_id =>
    simp only [CaseOperation.handle, Routes.getRun, bind_assoc]
    exact .authorize _
  | getCase =>
    simp only [CaseOperation.handle, Routes.getCase, authorizedCaseRow, bind_assoc]
    exact .authorize _
  | listReviews limit =>
    simp only [CaseOperation.handle, Routes.listReviews, authorizedCaseRow, bind_assoc]
    exact .authorize _
  | listApprovals limit =>
    simp only [CaseOperation.handle, Routes.listApprovals, authorizedCaseRow, bind_assoc]
    exact .authorize _
  | getReview review_id =>
    simp only [CaseOperation.handle, Routes.getReview, bind_assoc]
    exact .check _ _ fun _ _ => .authorize _
  | getApproval approval_id =>
    simp only [CaseOperation.handle, Routes.getApproval, bind_assoc]
    exact .check _ _ fun _ _ => .authorize _
  | decideReview review_id body key => exact .check _ _ fun _ _ => .check _ _ fun _ _ => .authorize _
  | migrateStrategy run_id body key | decideApproval approval_id body key =>
    exact .check _ _ fun _ _ => .check _ _ fun _ _ => .authorize _
  | listCaseGrants | putCaseGrant | revokeCaseGrant => cases hop
  | caseEvents input =>
    simp only [CaseOperation.handle, Routes.caseEvents, bind_assoc]
    refine .check _ _ fun c hc => .check _ _ fun cursor _ => ?_
    -- The text that is authorized is the one that was validated.
    obtain rfl := requestIdentifier_eq_ok.mp hc
    cases input.follow with
    | false =>
      simp only [Bool.false_eq_true, if_false, bind_assoc]
      exact .authorize _
    | true =>
      simp only [if_true, bind_assoc]
      exact .check _ _ fun _ _ => .authorize _
  | streamEvent event =>
    simp only [CaseOperation.handle, Routes.streamEvent, hreal, Bool.false_eq_true, if_false, bind_assoc]
    exact .authorize _

theorem Guarded.fails_outside {permission : Identifier} (h : Guarded identity c.val permission handler)
    (hreal : identity.synthetic = false) (hadmits : identity.admits c = false) :
    ∃ failure, ∀ store clk now, handler store clk now = .error failure := by
  induction h with
  | authorize body =>
    refine ⟨.contract .forbidden "case access denied", fun store clk now => ?_⟩
    beta_reduce
    rw [authorizedCase_outside hreal hadmits]
    rfl
  | check head tail _ ih =>
    cases head with
    | error failure => exact ⟨failure, fun _ _ _ => rfl⟩
    | ok a => exact ih a rfl

theorem Guarded.authorizes {permission : Identifier} (h : Guarded identity case_id permission handler)
    {r : ApiStore × Response} (hr : handler store clk now = .ok r) :
    ∃ c bound, authorizedCase store clk identity case_id permission = .ok (c, bound) := by
  induction h with
  | authorize body =>
    obtain ⟨⟨c, bound⟩, hauthorized, -⟩ := bind_eq_ok.mp hr
    exact ⟨c, bound, hauthorized⟩
  | check head tail _ ih =>
    obtain ⟨a, ha, htail⟩ := bind_eq_ok.mp hr
    exact ih a ha htail

/-! ## Administration -/

theorem answer_eq_error [Hashing] {error : HttpError} : op.answer store clk now identity case_id = .error error ↔
      Raises (fun failure => failure.http = error) (op.handle store clk now identity case_id) := by
  unfold CaseOperation.answer
  cases op.handle store clk now identity case_id with
  | error failure => simp
  | ok result => simp

theorem forbids_iff_answer [Hashing] : Raises Failure.Forbids (op.handle store clk now identity case_id) ↔
      op.answer store clk now identity case_id = .error ⟨403, some .forbidden⟩ := by
  simp only [answer_eq_error, Raises, Failure.forbids_iff]

theorem refused_iff_forbids [Hashing]
    (hmissing : ∀ (other : ApiStore) clk' now', other.cases.get ⟨identity.tenant_id, c⟩ = none →
      Raises Failure.Forbids (op.handle other clk' now' identity c.val)) :
    Refused store clk now identity c op ↔ Raises Failure.Forbids (op.handle store clk now identity c.val) := by
  constructor
  · rintro ⟨-, error, hanswer, hothers⟩
    -- The answer is the one of the empty store, where the operation is forbidden.
    have hempty := forbids_iff_answer.mp (hmissing .empty clk now rfl)
    rw [hothers .empty clk now rfl, Except.error.injEq] at hempty
    rw [hempty] at hanswer
    exact forbids_iff_answer.mpr hanswer
  · intro h
    refine ⟨?_, _, forbids_iff_answer.mp h, fun other clk' now' hnone =>
      forbids_iff_answer.mp (hmissing other clk' now' hnone)⟩
    obtain ⟨failure, hfailure, -⟩ := h
    rw [hfailure, committed_error]

theorem raises_forbids_require {permission : Identifier} :
    Raises Failure.Forbids (identity.require permission) ↔ permission ∉ identity.permissions := by
  simp only [AuthContext.require, raises_require, Failure.Forbids, and_true]

theorem administeredCase_forbids {permission : Identifier} (hcase : store.cases.get ⟨identity.tenant_id, c⟩ = none) :
    Raises Failure.Forbids (administeredCase store identity c.val permission) := by
  have hmissing : ¬(Aftercare.getCase store.toDatabase identity.tenant_id c).isSome = true := by
    rw [Aftercare.getCase, hcase]
    exact Bool.false_ne_true
  unfold administeredCase
  rw [requestIdentifier_val, ok_bind, raises_bind, raises_forbids_require]
  by_cases hscope : permission ∈ identity.permissions
  · refine .inr ⟨(), AuthContext.require_eq_ok.mpr hscope, ?_⟩
    rw [raises_bind, raises_require]
    exact .inl ⟨hmissing, trivial⟩
  · exact .inl hscope

/-- The actor does not have all grantable permissions it asks for. -/
theorem authorizeCaseGrant_forbids {actor_permissions requested : List Identifier} (hne : requested ≠ []) :
    Raises Failure.Forbids (authorizeCaseGrant actor_permissions requested) ↔
      requested ⊆ grantableCasePermissions ∧ ¬requested ⊆ actor_permissions := by
  simp only [authorizeCaseGrant, raises_bind, raises_require, exists_unit, require_eq_ok, raises_pure,
    Failure.Forbids, and_false, and_true, or_false, false_or, List.filter_eq_nil_iff,
    decide_eq_true_eq, not_not]
  exact ⟨fun h => h.2, fun h => ⟨hne, h⟩⟩

/-- The expiry of a grant is in the future, and has a time zone. -/
def Ahead (clk : Clock Time) (expires_at : Option Datetime) : Prop :=
  ∀ expiry ∈ expires_at, ∃ instant, expiry = .aware instant ∧ clk.read 0 < instant

theorem futureExpiry_eq_ok {u : Unit} : futureExpiry clk expires_at = .ok u ↔ Ahead clk expires_at := by
  unfold futureExpiry Ahead
  split
  · simp [pure_eq_ok]
  · simp
  · simp [require_eq_ok]

theorem futureExpiry_not_forbidden : ¬Raises Failure.Forbids (futureExpiry clk expires_at) := by
  unfold futureExpiry
  split
  · exact raises_pure
  · simp [Failure.Forbids]
  · simp only [raises_require, Failure.Forbids, and_false, not_false_iff]

/-- The identity has the scope, and the request gets to the grants. -/
def CaseOperation.Administers (identity : AuthContext) (clk : Clock Time) : CaseOperation → Prop
  | .listCaseGrants _ => Permission.grantRead ∈ identity.permissions
  | .putCaseGrant body => Permission.grantAdmin ∈ identity.permissions ∧
      ¬(Ahead clk body.expires_at ∧ body.permissions ⊆ grantableCasePermissions ∧
        ¬body.permissions ⊆ identity.permissions)
  | .revokeCaseGrant subject_id _ => Permission.grantAdmin ∈ identity.permissions ∧
      identifierValid subject_id = true
  | _ => False

theorem listCaseGrants_refused_iff [Hashing] (hcase : (store.cases.get ⟨identity.tenant_id, c⟩).isSome = true)
    (limit : PageSize) : Refused store clk now identity c (.listCaseGrants limit) ↔
      Permission.grantRead ∉ identity.permissions := by
  rw [refused_iff_forbids]
  · simp only [CaseOperation.handle, listCaseGrants, administeredCase_of_some hcase, raises_bind,
      raises_forbids_require, raises_pure, and_false, exists_false, or_false]
  · intro other clk' now' hnone
    simp only [CaseOperation.handle, listCaseGrants, raises_bind]
    exact .inl (.inl (administeredCase_forbids hnone))

theorem putCaseGrant_refused_iff [Hashing] (hcase : (store.cases.get ⟨identity.tenant_id, c⟩).isSome = true)
    (body : CaseGrantInput) : Refused store clk now identity c (.putCaseGrant body) ↔
      Permission.grantAdmin ∉ identity.permissions ∨
        Ahead clk body.expires_at ∧ body.permissions ⊆ grantableCasePermissions ∧
          ¬body.permissions ⊆ identity.permissions := by
  have hne : body.permissions ≠ [] := by
    intro hnil
    have hcount := body.count.1
    rw [hnil, List.length_nil] at hcount
    omega
  rw [refused_iff_forbids]
  · simp only [CaseOperation.handle, putCaseGrant, administeredCase_of_some hcase, raises_bind, ok_iff,
      raises_forbids_require, raises_pure, futureExpiry_eq_ok, futureExpiry_not_forbidden,
      authorizeCaseGrant_forbids hne, grantCase_not_forbidden, and_false, exists_false, or_false,
      false_or, AuthContext.require_eq_ok]
    constructor
    · rintro (hscope | ⟨_, -, hasked⟩)
      · exact .inl hscope
      · exact .inr hasked
    · rintro (hscope | hasked)
      · exact .inl hscope
      · by_cases hscope : Permission.grantAdmin ∈ identity.permissions
        · exact .inr ⟨c, ⟨hscope, rfl⟩, hasked⟩
        · exact .inl hscope
  · intro other clk' now' hnone
    simp only [CaseOperation.handle, putCaseGrant, raises_bind]
    exact .inl (administeredCase_forbids hnone)

theorem revokeCaseGrant_refused_iff [Hashing] (hcase : (store.cases.get ⟨identity.tenant_id, c⟩).isSome = true)
    (subject_id : String) (body : CaseGrantRevokeInput) :
    Refused store clk now identity c (.revokeCaseGrant subject_id body) ↔
      ¬(Permission.grantAdmin ∈ identity.permissions ∧ identifierValid subject_id = true) := by
  by_cases hsubject : identifierValid subject_id = true
  · have hparse : requestIdentifier "subject_id" subject_id = .ok ⟨subject_id, hsubject⟩ := dif_pos hsubject
    rw [refused_iff_forbids]
    · simp only [CaseOperation.handle, revokeCaseGrant, hparse, ok_bind,
        administeredCase_of_some hcase, raises_bind, raises_forbids_require, raises_pure,
        revokeCase_not_forbidden, and_false, exists_false, or_false, hsubject, and_true]
    · intro other clk' now' hnone
      simp only [CaseOperation.handle, revokeCaseGrant, hparse, ok_bind, raises_bind]
      exact .inl (administeredCase_forbids hnone)
  · -- The subject is refused before the store is read.
    have hparse : ∀ (other : ApiStore) clk' now',
        (CaseOperation.revokeCaseGrant subject_id body).handle other clk' now' identity c.val =
          .error (.contract .invalidInput "invalid subject_id") := by
      intro other clk' now'
      rw [CaseOperation.handle, revokeCaseGrant, requestIdentifier, dif_neg hsubject]
      rfl
    refine ⟨fun _ h => hsubject h.2, fun _ => ⟨?_, _, answer_eq_error.mpr ⟨_, hparse .., rfl⟩,
      fun other clk' now' _ => answer_eq_error.mpr ⟨_, hparse .., rfl⟩⟩⟩
    rw [hparse, committed_error]

end

/-- **How far the bound of a token reaches.** An operation on a case outside the bound is refused exactly when it does
not administer the grants of the case. -/
theorem case_bound_iff [Hashing] {identity : AuthContext} {case_ids : List Identifier} {c : Identifier}
    (hreal : identity.synthetic = false) (hbound : identity.case_ids = some case_ids) (houtside : c ∉ case_ids)
    {store : ApiStore} (hcase : (store.cases.get ⟨identity.tenant_id, c⟩).isSome = true) (clk : Clock Time)
    (now : Time) (op : CaseOperation) : Refused store clk now identity c op ↔ ¬op.Administers identity clk := by
  by_cases hop : op.administration = true
  · cases op with
    | listCaseGrants limit => exact listCaseGrants_refused_iff hcase limit
    | putCaseGrant body =>
      rw [putCaseGrant_refused_iff hcase, CaseOperation.Administers, not_and_or, not_not]
    | revokeCaseGrant subject_id body => exact revokeCaseGrant_refused_iff hcase subject_id body
    | _ => cases hop
  · rw [Bool.not_eq_true] at hop
    have hnot : ¬op.Administers identity clk := by
      cases op with
      | listCaseGrants | putCaseGrant | revokeCaseGrant => cases hop
      | _ => exact id
    obtain ⟨failure, hfails⟩ := (handle_guarded hreal hop).fails_outside hreal
      (AuthContext.admits_outside hbound houtside)
    refine ⟨fun _ => hnot, fun _ => ⟨?_, failure.http, answer_eq_error.mpr ⟨_, hfails .., rfl⟩,
      fun other clk' now' _ => answer_eq_error.mpr ⟨_, hfails .., rfl⟩⟩⟩
    rw [hfails, committed_error]

/-! ## An administrator outside its bound -/

/-- An administrator, bound to the first of the two cases. -/
def boundAdministrator : AuthContext :=
  sampleIdentity ⟨"administrator-1", Eq.refl true⟩
    [Permission.caseRead, Permission.grantRead, Permission.grantAdmin] (some [firstCase])

/-- The request of the administrator for access to a case. -/
def ownGrant : CaseGrantInput where
  subject_id := boundAdministrator.subject_id
  permissions := [Permission.caseRead]
  expires_at := none
  expected_revision := none
  count := by decide
  revision_pos := by simp

theorem case_bound_iff_read :
    boundAdministrator.synthetic = false ∧ boundAdministrator.case_ids = some [firstCase] ∧
      secondCase ∉ [firstCase] ∧
      (sampleStore.cases.get ⟨boundAdministrator.tenant_id, secondCase⟩).isSome = true ∧
      @Refused sampleHashing sampleStore (.still 2) 2 boundAdministrator secondCase .getCase := by
  have hcase : (sampleStore.cases.get ⟨boundAdministrator.tenant_id, secondCase⟩).isSome = true := by
    decide
  exact ⟨rfl, rfl, by decide, hcase,
    (@case_bound_iff sampleHashing _ _ _ rfl rfl (by decide) _ hcase _ _ _).mpr id⟩

/-- **Administration ignores the bound of the token.** -/
theorem case_bound_ignored :
    boundAdministrator.synthetic = false ∧ boundAdministrator.case_ids = some [firstCase] ∧
      secondCase ∉ [firstCase] ∧
      (∃ response, @CaseOperation.answer sampleHashing sampleStore (.still 2) 2 boundAdministrator
          secondCase.val (.listCaseGrants ⟨50, by decide⟩) = .ok (.grants response) ∧
        response.grants.map (fun g => (g.case_id, g.subject_id)) = [(secondCase, secondSubject)]) ∧
      ∃ store' response, @CaseOperation.handle sampleHashing sampleStore (.still 2) 2
          boundAdministrator secondCase.val (.putCaseGrant ownGrant) = .ok (store', response) ∧
        sampleStore.grants.get (⟨boundAdministrator.tenant_id, secondCase⟩,
          boundAdministrator.subject_id) = none ∧
        (store'.grants.get (⟨boundAdministrator.tenant_id, secondCase⟩,
          boundAdministrator.subject_id)).map (·.permissions) = some [Permission.caseRead] := by
  refine ⟨rfl, rfl, by decide, ⟨_, rfl, ?_⟩, ⟨_, _, rfl, ?_, ?_⟩⟩
  · decide
  · decide
  · decide

end Aftercare
