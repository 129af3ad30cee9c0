import Aftercare.System.Requests

/-!
# Revisions of Case grants

Each change of a grant that succeeds has seen the last revision, raises it by one and appends one event. `Changes`
says once what a successful call does; its event is new because the events before it name smaller revisions
(`Audited`).
-/

namespace Aftercare

open Relational

/-! ## Calls -/

/-- A call of `grant` or `revoke`. `now` is the clock of the program. -/
inductive GrantCall
  | grant (now : Time) (scope : CaseScope) (subject_id : Identifier) (permissions : List Identifier)
      (granted_by : Identifier) (expires_at : Option Datetime) (expected_revision : Option ℕ)
  | revoke (now : Time) (scope : CaseScope) (subject_id revoked_by : Identifier) (expected_revision : ℕ)

namespace GrantCall

def key : GrantCall → CaseScope × Identifier
  | grant _ scope subject_id _ _ _ _ | revoke _ scope subject_id _ _ => (scope, subject_id)

def expected : GrantCall → Option ℕ
  | grant _ _ _ _ _ _ expected_revision => expected_revision
  | revoke _ _ _ _ expected_revision => some expected_revision

def kind : GrantCall → EventType
  | grant .. => .caseGrantGranted
  | revoke .. => .caseGrantRevoked

/-- A grant whose expiry is absent or after the time. -/
def lastsAt (t : Time) : GrantCall → Bool
  | grant _ _ _ _ _ expires_at _ => expires_at.all fun
    | .aware instant => decide (t < instant)
    | .naive _ => false
  | revoke .. => false

end GrantCall

/-- The two methods, each in a transaction of its own. -/
def administer [Hashing] : Engine ApiStore Time GrantCall CaseGrantRecord Failure := fun store clk call =>
  match call with
  | .grant now scope subject_id permissions granted_by expires_at expected_revision =>
    grantCase store clk now scope subject_id permissions granted_by expires_at expected_revision
  | .revoke now scope subject_id revoked_by expected_revision =>
    revokeCase store clk now scope subject_id revoked_by expected_revision

def grantEventText (case_id subject_id : Identifier) (kind : EventType) (revision : ℕ) : String :=
  "case_grant:" ++ case_id.val ++ ":" ++ subject_id.val ++ ":" ++
    (if kind = .caseGrantGranted then "granted" else "revoked") ++ ":" ++ toString revision

theorem grantEventText_inj {case_id subject_id : Identifier} {kind : EventType} {m n : ℕ}
    (h : grantEventText case_id subject_id kind m = grantEventText case_id subject_id kind n) : m = n := by
  have hrepr : m.repr = n.repr := (String.append_right_inj _).mp h
  have hdigits : Nat.toDigits 10 m = Nat.toDigits 10 n := by
    rw [← Nat.toList_repr, hrepr, Nat.toList_repr]
  rw [← Nat.ofDigitChars_toDigits (n := m) (b := 10) (by decide) (by decide), hdigits,
    Nat.ofDigitChars_toDigits (by decide) (by decide)]

/-! ## One change -/

structure Changes [Hashing] (store : ApiStore) (c : GrantCall) (store' : ApiStore)
    (record : CaseGrantRecord) : Prop where
  expected : c.expected = (store.grants.get c.key).map (·.revision)
  revision : record.revision = ((store.grants.get c.key).map (·.revision)).getD 0 + 1
  row : (record.toCaseScope, record.subject_id) = c.key
  written : store'.grants.get c.key = some record
  others : ∀ k, k ≠ c.key → store'.grants.get k = store.grants.get k
  active : ∀ t, record.isActive t = c.lastsAt t
  event : ∃ clk now, appendCaseGrantEvent store.events clk now record c.kind = .ok store'.events

section

variable {store store' : ApiStore} {clk : Clock Time} {record : CaseGrantRecord}

theorem isActive_of_expiry {expires_at : Option Datetime} {instant : Option Time}
    (h : awareExpiry expires_at = .ok instant) (hexpires : record.expires_at = instant)
    (hrevoked : record.revoked_at = none) (t : Time) : record.isActive t = expires_at.all fun
      | .aware instant => decide (t < instant)
      | .naive _ => false := by
  unfold CaseGrantRecord.isActive
  rw [hexpires, hrevoked]
  match expires_at with
  | none =>
    rw [← pure_eq_ok.mp h]
    rfl
  | some (.aware instant) =>
    rw [← pure_eq_ok.mp h]
    rfl
  | some (.naive _) => cases h

variable [Hashing]

variable {c : GrantCall} {h : List GrantTransaction}

/-- **One change.** -/
theorem administer_changes (h : administer store clk c = .ok (store', record)) : Changes store c store' record := by
  match c with
  | .grant now scope subject_id permissions granted_by expires_at expected_revision =>
    simp only [administer, grantCase, bind_eq_ok] at h
    obtain ⟨normalized, -, instant, hexpiry, h⟩ := h
    cases hget : store.grants.get (scope, subject_id) with
    | none =>
      simp only [hget, ok_iff, statement_eq_ok] at h
      obtain ⟨hexpected, -, grants, hinsert, events, hevent, rfl, rfl⟩ := h
      have hwritten := Table.get_insert hinsert
      refine ⟨?_, ?_, rfl, (hwritten _).trans (if_pos rfl), fun k hne => (hwritten k).trans (if_neg hne),
        isActive_of_expiry hexpiry rfl rfl, _, now, hevent⟩
      · exact hexpected.trans (congrArg (Option.map _) hget).symm
      · rw [GrantCall.key, hget]
        rfl
    | some current =>
      simp only [hget, ok_iff, statement_eq_ok] at h
      obtain ⟨hexpected, grants, hupdate, events, hevent, rfl, rfl⟩ := h
      have hwritten := Table.get_update hupdate
      refine ⟨?_, ?_, Table.key_of_get hget, ?_, fun k hne => (hwritten k).trans (if_neg hne),
        isActive_of_expiry hexpiry rfl rfl, _, now, hevent⟩
      · exact hexpected.trans (congrArg (Option.map _) hget).symm
      · rw [GrantCall.key, hget]
        rfl
      · exact (hwritten _).trans ((if_pos rfl).trans (congrArg (Option.map _) hget))
  | .revoke now scope subject_id revoked_by expected_revision =>
    simp only [administer, revokeCase, ok_iff, statement_eq_ok] at h
    obtain ⟨-, current, hget, hexpected, grants, hupdate, events, hevent, rfl, rfl⟩ := h
    have hwritten := Table.get_update hupdate
    refine ⟨?_, ?_, Table.key_of_get hget, ?_, fun k hne => (hwritten k).trans (if_neg hne),
      fun t => rfl, _, now, hevent⟩
    · rw [GrantCall.key, hget, GrantCall.expected, ← hexpected]
      rfl
    · rw [GrantCall.key, hget]
      rfl
    · exact (hwritten _).trans ((if_pos rfl).trans (congrArg (Option.map _) hget))

/-! ## The event of a change -/

theorem recordEvent_rows {events events' : EventStore} {now : Time} {scope : CaseScope}
    {run_id : Option Identifier} {snapshot : Snapshot} {kind : EventType} {event_id : String}
    {correlation_id : Identifier}
    (h : recordEvent events clk now scope run_id snapshot kind event_id correlation_id = .ok events') :
    ∃ draft : DomainEventDraft, draft.toCaseScope = scope ∧ draft.event_id.val = event_id ∧
      draft.event_type = kind ∧ draft.correlation_id = correlation_id ∧
      draft.payload.sha256 = Hashing.snapshotSha256 snapshot ∧
      ((∃ row ∈ events.outbox.rows, row.payload.toDomainEventDraft = draft) ∨
        ∃ case_seq, events'.outbox.rows = events.outbox.rows ++ [.new ⟨draft, case_seq⟩ clk]) := by
  simp only [recordEvent, bind_eq_ok] at h
  obtain ⟨reference_id, -, id, hid, h⟩ := h
  split_ifs at h with hrun
  simp only [ok_iff] at h
  obtain ⟨⟨_, event, replayed⟩, happend, rfl⟩ := h
  let draft : DomainEventDraft :=
    { scope with
      event_id := id, event_type := kind
      payload := ⟨scope, reference_id, Hashing.snapshotSha256 snapshot⟩
      run_id := run_id, correlation_id := correlation_id, causation_id := none
      recorded_at := now, coherent_draft := ⟨rfl, hrun⟩ }
  refine ⟨draft, rfl, identifier_eq_ok.mp hid, rfl, rfl, rfl, ?_⟩
  simp only [appendEvent, bind_eq_ok] at happend
  obtain ⟨⟨locked, current⟩, hlock, happend⟩ := happend
  obtain ⟨sequences, row, -, -, -, rfl⟩ := lockCaseSequence_eq_ok hlock
  dsimp only at happend
  cases hget : events.outbox.get (scope.tenant_id, id) with
  | some stored =>
    simp only [hget, ok_iff] at happend
    exact .inl ⟨stored, Table.mem_of_get hget, happend.1⟩
  | none =>
    simp only [hget, ok_iff, statement_eq_ok] at happend
    obtain ⟨recorded, hrecord, case_seq, -, ⟨outbox, inserted⟩, hinsert, hinserted, _, -, rfl, -⟩ := happend
    obtain ⟨payloads, rfl⟩ := recordSnapshot_eq_ok hrecord
    obtain ⟨-, hnew⟩ | ⟨hfalse, -⟩ := Table.insertOrIgnore_eq_ok hinsert
    · obtain ⟨-, -, hrows⟩ := Table.insert_eq_ok hnew
      exact .inr ⟨case_seq, hrows⟩
    · cases hinserted.symm.trans hfalse

def EventType.ofGrant : EventType → Bool
  | .caseGrantGranted | .caseGrantRevoked => true
  | _ => false

/-- The events of a row name revisions that it has had. -/
def Audited (store : ApiStore) : Prop :=
  ∀ row ∈ store.events.outbox.rows, row.payload.event_type.ofGrant = true →
    ∃ g, store.grants.get (row.payload.toCaseScope, row.payload.correlation_id) = some g ∧
      ∃ n ≤ g.revision, row.payload.event_id.val =
        grantEventText row.payload.case_id row.payload.correlation_id row.payload.event_type n

/-- The event of the change: its revision, and the digest of the row. -/
structure OutboxRow.Announces (row : OutboxRow) (kind : EventType) (record : CaseGrantRecord) : Prop where
  scope : row.payload.toCaseScope = record.toCaseScope
  subject : row.payload.correlation_id = record.subject_id
  same_kind : row.payload.event_type = kind
  revision : row.payload.event_id.val =
    grantEventText record.case_id record.subject_id kind record.revision
  digest : row.payload.payload.sha256 = Hashing.snapshotSha256 (.grant record)

/-- **A change appends one event**, with a new revision. -/
theorem Changes.appends (h : Changes store c store' record) (haudited : Audited store) :
    ∃ row : OutboxRow, store'.events.outbox.rows = store.events.outbox.rows ++ [row] ∧ row.Announces c.kind record := by
  obtain ⟨clk, now, hevent⟩ := h.event
  have hkind : c.kind.ofGrant = true := by
    cases c
    · rfl
    · rfl
  obtain ⟨draft, hscope, hid, htype, hcorrelation, hdigest, hold | ⟨case_seq, hrows⟩⟩ := recordEvent_rows hevent
  · obtain ⟨row, hrow, rfl⟩ := hold
    obtain ⟨g, hget, n, hle, htext⟩ := haudited row hrow (htype ▸ hkind)
    have hcase : row.payload.case_id = record.case_id := congrArg CaseScope.case_id hscope
    rw [hid, hcase, hcorrelation, htype] at htext
    -- the event would name the revision after the one of the row
    have hsame : record.revision = n := grantEventText_inj htext
    have hnext := h.revision
    rw [hscope, hcorrelation, h.row] at hget
    rw [hget, Option.map_some, Option.getD_some] at hnext
    omega
  · exact ⟨_, hrows, hscope, hcorrelation, htype, hid, hdigest⟩

theorem Changes.audited (h : Changes store c store' record) (haudited : Audited store) : Audited store' := by
  obtain ⟨new, hrows, hnew⟩ := h.appends haudited
  intro row hrow hkind
  rw [hrows] at hrow
  obtain hold | hlast := List.mem_append.mp hrow
  · obtain ⟨g, hget, n, hle, htext⟩ := haudited row hold hkind
    by_cases hsame : (row.payload.toCaseScope, row.payload.correlation_id) = c.key
    · rw [hsame] at hget ⊢
      have hnext := h.revision
      rw [hget, Option.map_some, Option.getD_some] at hnext
      exact ⟨record, h.written, n, by omega, htext⟩
    · exact ⟨g, (h.others _ hsame).trans hget, n, hle, htext⟩
  · obtain rfl := List.mem_singleton.mp hlast
    refine ⟨record, ?_, record.revision, le_rfl, ?_⟩
    · rw [hnew.scope, hnew.subject, h.row]
      exact h.written
    · rw [hnew.revision, hnew.subject, hnew.same_kind, show row.payload.case_id = record.case_id from
        congrArg CaseScope.case_id hnew.scope]

/-! ## Histories -/

abbrev GrantTransaction := Transaction ApiStore Time GrantCall CaseGrantRecord Failure

def Transaction.succeeds (τ : GrantTransaction) : Bool := τ.outcome.isOk

def latestChange (k : CaseScope × Identifier) (h : List GrantTransaction) : Option GrantCall :=
  (h.find? fun τ => decide (τ.call.key = k) && Transaction.succeeds τ).map (·.call)

/-- Of two changes that present one revision, not both succeeded. -/
def AtMostOne (τ τ' : GrantTransaction) : Prop :=
  τ.call.key = τ'.call.key → τ.call.expected = τ'.call.expected →
    ¬(Transaction.succeeds τ = true ∧ Transaction.succeeds τ' = true)

/-- What holds of a history and of the store that it reaches. -/
structure GrantsRecorded (h : List GrantTransaction) (store : ApiStore) : Prop where
  audited : Audited store
  /-- A revision that a successful change has seen is behind the row. -/
  spent : ∀ τ ∈ h, Transaction.succeeds τ = true → ∃ g, store.grants.get τ.call.key = some g ∧
    ∀ n, τ.call.expected = some n → n < g.revision
  once : h.Pairwise AtMostOne
  /-- The row is as its last change left it. -/
  latest : ∀ k, match latestChange k h with
    | some c => ∃ g, store.grants.get k = some g ∧ ∀ t, g.isActive t = c.lastsAt t
    | none => store.grants.get k = none

omit [Hashing] in
theorem GrantsRecorded.refused (hs : GrantsRecorded h store) {τ : GrantTransaction}
    (hτ : Transaction.succeeds τ = false) : GrantsRecorded (τ :: h) store := by
  refine ⟨hs.audited, fun τ' hτ' hok => ?_, hs.once.cons fun τ' _ _ _ hboth => ?_, fun k => ?_⟩
  · obtain rfl | hτ' := List.mem_cons.mp hτ'
    · rw [hτ] at hok
      cases hok
    · exact hs.spent τ' hτ' hok
  · rw [hτ] at hboth
    cases hboth.1
  · have hsame : latestChange k (τ :: h) = latestChange k h := by
      rw [latestChange, List.find?_cons_of_neg (by simp [hτ])]
      rfl
    rw [hsame]
    exact hs.latest k

/-- **One successful change.** -/
theorem GrantsRecorded.changed (hs : GrantsRecorded h store) {τ : GrantTransaction}
    (hτ : Transaction.succeeds τ = true) (hchange : Changes store τ.call store' record) :
    GrantsRecorded (τ :: h) store' := by
  have hexpected : ∀ n, τ.call.expected = some n → n < record.revision := by
    intro n hn
    have hrevision := hchange.revision
    rw [← hchange.expected, hn, Option.getD_some] at hrevision
    omega
  refine ⟨hchange.audited hs.audited, fun τ' hτ' hok => ?_, hs.once.cons fun τ' hτ' hkey hsame hboth => ?_, fun k => ?_⟩
  · obtain rfl | hτ' := List.mem_cons.mp hτ'
    · exact ⟨record, hchange.written, hexpected⟩
    · obtain ⟨g, hget, hspent⟩ := hs.spent τ' hτ' hok
      by_cases hkey : τ'.call.key = τ.call.key
      · rw [hkey] at hget ⊢
        refine ⟨record, hchange.written, fun n hn => (hspent n hn).trans ?_⟩
        have hrevision := hchange.revision
        rw [hget, Option.map_some, Option.getD_some] at hrevision
        omega
      · exact ⟨g, (hchange.others _ hkey).trans hget, hspent⟩
  · -- the earlier change has left a row, whose revision this one has seen
    obtain ⟨g, hget, hspent⟩ := hs.spent τ' hτ' hboth.2
    have hseen := hchange.expected
    rw [hkey, hget, Option.map_some, hsame] at hseen
    exact lt_irrefl _ (hspent _ hseen)
  · by_cases hkey : τ.call.key = k
    · have hlast : latestChange k (τ :: h) = some τ.call := by
        rw [latestChange, List.find?_cons_of_pos (by simp [hτ, hkey])]
        rfl
      rw [hlast, ← hkey]
      exact ⟨record, hchange.written, hchange.active⟩
    · have hsame : latestChange k (τ :: h) = latestChange k h := by
        rw [latestChange, List.find?_cons_of_neg (by simp [hkey])]
        rfl
      rw [hsame, hchange.others k (Ne.symm hkey)]
      exact hs.latest k

/-- **A whole history** from a store without grants and their events. -/
theorem grants_recorded {start : ApiStore} {t₀ t : Time} (hgrants : start.grants.rows = [])
    (hevents : ∀ row ∈ start.events.outbox.rows, row.payload.event_type.ofGrant = false)
    (hr : Runs administer start t₀ h store t) : GrantsRecorded h store := by
  induction hr with
  | refl =>
    refine ⟨fun row hrow hkind => ?_, fun τ hτ => ?_, List.Pairwise.nil, fun k => ?_⟩
    · rw [hevents row hrow] at hkind
      cases hkind
    · cases hτ
    · refine Table.get_eq_none.mpr fun g hg => ?_
      rw [hgrants] at hg
      cases hg
  | @call h store t clk c _ _ ih =>
    cases hcall : administer store clk c with
    | error e => exact ih.refused rfl
    | ok result => exact ih.changed rfl (administer_changes hcall)

end

/-- **Grant revisions.** Each change that succeeds has seen the last revision of its row, raises it by one and appends
one event; of two changes that present one revision at most one succeeds. A grant resolves exactly when the last
successful change was a grant that has not expired. -/
theorem grant_revisions [Hashing] {start store : ApiStore} {h : List GrantTransaction} {t₀ t : Time}
    (hgrants : start.grants.rows = [])
    (hevents : ∀ row ∈ start.events.outbox.rows, row.payload.event_type.ofGrant = false)
    (hr : Runs administer start t₀ h store t) : (∀ τ ∈ h, ∀ store' record, τ.outcome = .ok (store', record) →
      τ.call.expected = (τ.before.grants.get τ.call.key).map (·.revision) ∧
      record.revision = ((τ.before.grants.get τ.call.key).map (·.revision)).getD 0 + 1 ∧
      (store'.grants.get τ.call.key = some record ∧
        ∀ k, k ≠ τ.call.key → store'.grants.get k = τ.before.grants.get k) ∧
      ∃ row : OutboxRow, store'.events.outbox.rows = τ.before.events.outbox.rows ++ [row] ∧
        row.Announces τ.call.kind record) ∧
    h.Pairwise AtMostOne ∧
    (∀ τ ∈ h, ∀ e, τ.outcome = .error e → τ.after = τ.before) ∧
    ∀ (k : CaseScope × Identifier) (clk : Clock Time), resolveGrant store clk k.1 k.2 =
      if (latestChange k h).any (·.lastsAt (clk.read 0)) then store.grants.get k else none := by
  have hs := grants_recorded hgrants hevents hr
  refine ⟨fun τ hτ store' record hok => ?_, hs.once, fun τ hτ e he => ?_, fun k clk => ?_⟩
  · obtain ⟨h', t', hr', -, houtcome⟩ := hr.before hτ
    have hbefore := grants_recorded hgrants hevents hr'
    have hchange := administer_changes (houtcome.symm.trans hok)
    exact ⟨hchange.expected, hchange.revision, ⟨hchange.written, hchange.others⟩,
      hchange.appends hbefore.audited⟩
  · rw [Transaction.after, he]
    rfl
  · have hlatest := hs.latest k
    rw [resolveGrant]
    cases hlast : latestChange k h with
    | none =>
      rw [hlast] at hlatest
      rw [hlatest]
      rfl
    | some c =>
      rw [hlast] at hlatest
      obtain ⟨g, hget, hactive⟩ := hlatest
      rw [hget, Option.filter_some, hactive, Option.any_some]

def ungrantedStore : ApiStore :=
  ⟨replay (@exec sampleHashing) Database.empty [(0, .createCase sampleCase)], .empty⟩

/-- Two administrators grant access at once, and one revokes it. -/
def racingCalls : List (Time × GrantCall) :=
  [(1, .grant 1 sampleScope.toCaseScope firstSubject [Permission.caseRead] secondSubject none none),
    (2, .grant 2 sampleScope.toCaseScope firstSubject [Permission.caseRead] firstSubject none none),
    (3, .revoke 3 sampleScope.toCaseScope firstSubject secondSubject 1)]

/-- The second grant was refused, and nothing resolves at the end. -/
theorem grant_revisions_racing :
    (trace (@administer sampleHashing) ungrantedStore racingCalls).map Transaction.succeeds =
      [true, false, true] ∧
    resolveGrant (replay (@administer sampleHashing) ungrantedStore racingCalls) (.still 4)
      sampleScope.toCaseScope firstSubject = none := by
  have hr := replay_runs (@administer sampleHashing) racingCalls ungrantedStore 0 (by decide)
  have hresolves := (@grant_revisions sampleHashing _ _ _ _ _ rfl (by decide) hr).2.2.2
    (sampleScope.toCaseScope, firstSubject) (.still 4)
  refine ⟨by decide, hresolves.trans (if_neg ?_)⟩
  decide

end Aftercare
