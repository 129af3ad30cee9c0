import Aftercare.System.Calls

/-!
# Admission is idempotent

`openCase` creates a case, a session and a Run under an idempotency key, or answers with those that the key has
(`Owned`). `openCase_new` and `openCase_owned` are the two calls, and `admission_idempotent` is what follows for
all histories.
-/

namespace Aftercare

open Relational

variable {db db' : Database} {key : AdmissionKey} {body : OpenCaseInput} {case : CaseRecord}
  {session : SessionRecord} {run : RunRecord} {digest : Sha256}

/-- The objects of a call are new ones of its tenant. -/
structure NewObjects (db : Database) (key : AdmissionKey) (case : CaseRecord)
    (session : SessionRecord) (run : RunRecord) : Prop where
  case_tenant : case.tenant_id = key.tenant_id
  case_version : 0 < case.version ∧ case.version ≤ maxInt
  session_scope : session.toCaseScope = case.toCaseScope
  run_scope : run.toCaseScope = case.toCaseScope
  /-- A new Run has no lease, no wait and no time at which it is due. -/
  run_new : run.initialRow = run.toRunRow
  case_fresh : db.cases.get case.toCaseScope = none
  session_fresh : db.sessions.get (session.tenant_id, session.session_id) = none
  run_fresh : db.runs.runs.get run.key = none

/-- The admission of a key, with its digest and its objects. -/
structure Owned (db : Database) (key : AdmissionKey) (digest : Sha256) (case : CaseRecord)
    (session : SessionRecord) (run : RunRecord) : Prop where
  admission : db.admissions.get key =
    some ⟨key, digest, case.case_id, session.session_id, run.run_id⟩
  case_stored : db.cases.get ⟨key.tenant_id, case.case_id⟩ = some case
  session_stored : db.sessions.get (key.tenant_id, session.session_id) = some session
  session_case : session.case_id = case.case_id
  run_stored : db.run ⟨⟨key.tenant_id, case.case_id⟩, run.run_id⟩ = some run.toRunRow

/-- An admission was created with its objects, and nothing else. -/
structure Creates (db db' : Database) (key : AdmissionKey) (digest : Sha256) (case : CaseRecord)
    (session : SessionRecord) (run : RunRecord) : Prop where
  admissions : ∀ k, db'.admissions.get k =
    if k = key then some ⟨key, digest, case.case_id, session.session_id, run.run_id⟩
    else db.admissions.get k
  cases : ∀ k, db'.cases.get k = if k = case.toCaseScope then some case else db.cases.get k
  sessions : ∀ k, db'.sessions.get k =
    if k = (session.tenant_id, session.session_id) then some session else db.sessions.get k
  runs : ∀ k, db'.runs.runs.get k = if k = run.key then some run.toRunRow else db.runs.runs.get k

/-- A call of `open` with a key and a body. -/
def Presents (τ : CallTransaction) (key : AdmissionKey) (body : OpenCaseInput) : Prop :=
  ∃ case session run, τ.call = .openCase key body case session run

/-- The answer to a call whose key stands for a body. -/
structure Answered (τ : Transaction Database Time Call Output Failure) (body' body : OpenCaseInput)
    (case : CaseRecord) (session : SessionRecord) (run : RunRecord) : Prop where
  same : body' = body →
    ∃ db' replayed, τ.outcome = .ok (db', .admitted ⟨case, session, run, replayed⟩)
  different : body' ≠ body →
    τ.outcome = .error (.contract .conflict "idempotency key reused with different input")

/-- Every object has its admission, and every admission its objects. -/
structure Complete (db : Database) : Prop where
  case_admitted : ∀ c ∈ db.cases.rows, ∃ a ∈ db.admissions.rows,
    a.tenant_id = c.tenant_id ∧ a.case_id = c.case_id
  session_admitted : ∀ s ∈ db.sessions.rows, ∃ a ∈ db.admissions.rows,
    a.tenant_id = s.tenant_id ∧ a.case_id = s.case_id ∧ a.session_id = s.session_id
  run_admitted : ∀ r ∈ db.runs.runs.rows, ∃ a ∈ db.admissions.rows,
    a.tenant_id = r.tenant_id ∧ a.case_id = r.case_id ∧ a.run_id = r.run_id
  admission_owned : ∀ a ∈ db.admissions.rows, ∃ case session run,
    Owned db a.toAdmissionKey a.payload_digest case session run
  admission_unique : ∀ a ∈ db.admissions.rows, ∀ b ∈ db.admissions.rows,
    a.toAdmissionKey = b.toAdmissionKey → a = b

/-! ## One call -/

theorem RunRow.check_of_coherent {r : RunRow} (h : r.coherentState = true) : r.check = true := by
  unfold RunRow.coherentState at h
  unfold RunRow.check
  cases hstate : r.state <;> simp_all [RunState.waiting, Nat.succ_le_iff, Option.all_eq_true]

/-- **A key without an admission** gets the objects of the call. -/
theorem openCase_new [Hashing] (clk : Clock Time) (body : OpenCaseInput)
    (h : NewObjects db key case session run) (hkey : db.admissions.get key = none) : ∃ db',
      openCase db clk key body case session run = .ok (db', ⟨case, session, run, false⟩) ∧
        Creates db db' key (Hashing.admissionDigest key body) case session run := by
  obtain ⟨admissions, hadmissions⟩ : ∃ t, db.admissions.insert
      ⟨key, Hashing.admissionDigest key body, case.case_id, session.session_id, run.run_id⟩ = .ok t :=
    Table.insert_total rfl hkey fun a => ⟨rfl, rfl⟩
  obtain ⟨cases, hcases⟩ : ∃ t, db.cases.insert case = .ok t :=
    Table.insert_total (by simp [caseSchema, h.case_version]) h.case_fresh fun a => ⟨rfl, rfl⟩
  obtain ⟨sessions, hsessions⟩ : ∃ t, db.sessions.insert session = .ok t :=
    Table.insert_total rfl h.session_fresh fun a => ⟨rfl, rfl⟩
  have hcheck : run.initialRow.check = true := by
    rw [h.run_new]
    exact RunRow.check_of_coherent run.coherent
  obtain ⟨rows, hrows⟩ : ∃ t, db.runs.runs.insert run.initialRow = .ok t :=
    Table.insert_total hcheck h.run_fresh fun a => ⟨rfl, rfl⟩
  obtain ⟨runs, hruns⟩ := RunStore.sync_total { db.runs with runs := rows } clk hcheck
  have hinsert : db.runs.insert run.initialRow clk = .ok runs := by
    simp only [RunStore.insert, hrows, statement, ok_bind]
    exact hruns
  have hcase : cases.get case.toCaseScope = some case := by
    rw [Table.get_insert hcases, caseSchema_key, if_pos rfl]
  refine ⟨{ db with admissions := admissions, cases := cases, sessions := sessions, runs := runs }, ?_, ?_, ?_, ?_, ?_⟩
  · have hscope : (case.tenant_id, case.case_id) = (key.tenant_id, session.case_id) := by
      rw [h.case_tenant, ← congrArg CaseScope.case_id h.session_scope]
    simp only [openCase, createCase, createRun, foreignKey, bind_eq_ok, exists_unit, require_eq_ok, statement_eq_ok]
    refine ⟨hscope, h.run_scope, (admissions, true), Table.insertOrIgnore_of_insert hadmissions, ?_⟩
    simp only [if_true, bind_eq_ok, exists_unit, require_eq_ok, statement_eq_ok, pure_eq_ok]
    refine ⟨_, ⟨cases, hcases, rfl⟩, ?_, sessions, hsessions, _, ⟨?_, runs, hinsert, rfl⟩, rfl⟩
    · rw [h.session_scope, hcase]
      rfl
    · rw [h.run_scope, hcase]
      rfl
  · exact fun k => Table.get_insert hadmissions k
  · exact fun k => Table.get_insert hcases k
  · exact fun k => Table.get_insert hsessions k
  · obtain ⟨-, -, hget, -⟩ := RunStore.insert_spec hinsert
    rw [h.run_new] at hget
    exact hget

variable {c : CaseRecord} {s : SessionRecord} {r : RunRecord} {k : AdmissionKey}

/-- **A key with an admission.** The call answers with the objects of the admission if its body has the
same digest, and is refused if not. -/
theorem openCase_owned [Hashing] (clk : Clock Time) (body : OpenCaseInput)
    (h : NewObjects db key case session run) (howned : Owned db key digest c s r) :
    openCase db clk key body case session run =
      if digest = Hashing.admissionDigest key body then .ok (db, ⟨c, s, r, true⟩)
      else .error (.contract .conflict "idempotency key reused with different input") := by
  have hscope : (case.tenant_id, case.case_id) = (key.tenant_id, session.case_id) := by
    rw [h.case_tenant, ← congrArg CaseScope.case_id h.session_scope]
  have hignored : db.admissions.insertOrIgnore
      ⟨key, Hashing.admissionDigest key body, case.case_id, session.session_id, run.run_id⟩ =
        .ok (db.admissions, false) :=
    Table.insertOrIgnore_ignored.mpr ⟨rfl, _, Table.mem_of_get howned.admission, fun hapart => hapart.1 rfl⟩
  have hsession : (db.sessions.get (key.tenant_id, s.session_id)).filter
      (fun x => x.case_id == c.case_id) = some s := by
    rw [howned.session_stored, Option.filter_some, howned.session_case, if_pos (beq_self_eq_true _)]
  have hrecord : r.toRunRow.record = .ok r := RunRow.record_eq_ok.mpr rfl
  simp only [openCase, require, if_pos hscope, if_pos h.run_scope, ok_bind, hignored, statement,
    replayAdmission, fetch, howned.admission, howned.case_stored, hsession, howned.run_stored,
    hrecord, checkAdmissionReplay, Bool.false_eq_true, if_false]
  split_ifs <;> rfl

/-! ## What a call leaves alone -/

theorem Creates.owned (h : NewObjects db key case session run) (hc : Creates db db' key digest case session run) :
    Owned db' key digest case session run where
  admission := by rw [hc.admissions, if_pos rfl]
  case_stored := by
    have hscope : (⟨key.tenant_id, case.case_id⟩ : CaseScope) = case.toCaseScope := by
      rw [← h.case_tenant]
    rw [hscope, hc.cases, if_pos rfl]
  session_stored := by
    have htenant : session.tenant_id = key.tenant_id :=
      (congrArg CaseScope.tenant_id h.session_scope).trans h.case_tenant
    rw [← htenant, hc.sessions, if_pos rfl]
  session_case := congrArg CaseScope.case_id h.session_scope
  run_stored := by
    have hscope : run.toRunScope = ⟨⟨key.tenant_id, case.case_id⟩, run.run_id⟩ := by
      rw [← h.case_tenant, ← h.run_scope]
    refine Database.run_eq_some.mpr ⟨?_, hscope⟩
    rw [← hscope, hc.runs]
    exact if_pos rfl

theorem ne_of_fresh {α κ : Type} {get : κ → Option α} {k fresh : κ} {a : α} (h : get k = some a)
    (hfresh : get fresh = none) : k ≠ fresh := by
  rintro rfl
  rw [h] at hfresh
  cases hfresh

theorem Owned.keep {d : Sha256} (ho : Owned db k d c s r) (h : NewObjects db key case session run)
    (hkey : db.admissions.get key = none) (hc : Creates db db' key digest case session run) :
    Owned db' k d c s r where
  admission := by
    rw [hc.admissions, if_neg (ne_of_fresh ho.admission hkey)]
    exact ho.admission
  case_stored := by
    rw [hc.cases, if_neg (ne_of_fresh ho.case_stored h.case_fresh)]
    exact ho.case_stored
  session_stored := by
    rw [hc.sessions, if_neg (ne_of_fresh ho.session_stored h.session_fresh)]
    exact ho.session_stored
  session_case := ho.session_case
  run_stored := by
    obtain ⟨hrow, hscope⟩ := Database.run_eq_some.mp ho.run_stored
    refine Database.run_eq_some.mpr ⟨?_, hscope⟩
    rw [hc.runs, if_neg (ne_of_fresh hrow h.run_fresh)]
    exact hrow

theorem Complete.empty : Complete Database.empty where
  case_admitted _ h := nomatch h
  session_admitted _ h := nomatch h
  run_admitted _ h := nomatch h
  admission_owned _ h := nomatch h
  admission_unique _ h := nomatch h

theorem get_cases {α κ : Type} [DecidableEq κ] {get get' : κ → Option α} {fresh k : κ} {new a : α}
    (h : ∀ k, get' k = if k = fresh then some new else get k) (ha : get' k = some a) :
    a = new ∨ get k = some a := by
  rw [h] at ha
  split_ifs at ha
  · exact .inl (Option.some.inj ha).symm
  · exact .inr ha

theorem Complete.creates (hcomplete : Complete db) (h : NewObjects db key case session run)
    (hkey : db.admissions.get key = none) (hc : Creates db db' key digest case session run) : Complete db' := by
  have hnew := hc.owned h
  have hadmitted := Table.mem_of_get hnew.admission
  have hkeep {a : AdmissionRow} (ha : a ∈ db.admissions.rows) : a ∈ db'.admissions.rows := by
    have hget := Table.get_of_mem ha
    refine Table.mem_of_get (k := admissionSchema.key a) ?_
    rw [hc.admissions, if_neg (ne_of_fresh hget hkey)]
    exact hget
  refine ⟨fun c hmem => ?_, fun s hmem => ?_, fun r hmem => ?_, fun a hmem => ?_, ?_⟩
  · rcases get_cases hc.cases (Table.get_of_mem hmem) with rfl | hold
    · exact ⟨_, hadmitted, h.case_tenant.symm, rfl⟩
    · obtain ⟨a, ha, hrest⟩ := hcomplete.case_admitted c (Table.mem_of_get hold)
      exact ⟨a, hkeep ha, hrest⟩
  · rcases get_cases hc.sessions (Table.get_of_mem hmem) with rfl | hold
    · have htenant : s.tenant_id = key.tenant_id := (congrArg CaseScope.tenant_id h.session_scope).trans h.case_tenant
      exact ⟨_, hadmitted, htenant.symm, hnew.session_case.symm, rfl⟩
    · obtain ⟨a, ha, hrest⟩ := hcomplete.session_admitted s (Table.mem_of_get hold)
      exact ⟨a, hkeep ha, hrest⟩
  · rcases get_cases hc.runs (Table.get_of_mem hmem) with rfl | hold
    · have htenant : run.tenant_id = key.tenant_id := (congrArg CaseScope.tenant_id h.run_scope).trans h.case_tenant
      exact ⟨_, hadmitted, htenant.symm, (congrArg CaseScope.case_id h.run_scope).symm, rfl⟩
    · obtain ⟨a, ha, hrest⟩ := hcomplete.run_admitted r (Table.mem_of_get hold)
      exact ⟨a, hkeep ha, hrest⟩
  · rcases get_cases hc.admissions (Table.get_of_mem hmem) with rfl | hold
    · exact ⟨case, session, run, hnew⟩
    · obtain ⟨c, s, r, howned⟩ := hcomplete.admission_owned a (Table.mem_of_get hold)
      exact ⟨c, s, r, howned.keep h hkey hc⟩
  · exact fun a ha b hb hkeys => Table.eq_of_key_eq ha hb hkeys

/-! ## All calls -/

variable {h : List CallTransaction} {t₀ t : Time}

/-- No call was on the key, or the first one decided every answer. -/
inductive KeyState [Hashing] (h : List (Transaction Database Time Call Output Failure))
    (db : Database) (key : AdmissionKey) : Prop
  | free (hnone : db.admissions.get key = none) (hcalls : ∀ τ ∈ h, ∀ body, ¬Presents τ key body)
  | taken (body : OpenCaseInput) (case : CaseRecord) (session : SessionRecord) (run : RunRecord)
      (hfirst : ∃ τ ∈ h, Presents τ key body)
      (howned : Owned db key (Hashing.admissionDigest key body) case session run)
      (hcalls : ∀ τ ∈ h, ∀ body', Presents τ key body' → Answered τ body' body case session run)

theorem Presents.eq {s : Database} {clk : Clock Time} {outcome : Except Failure (Database × Output)}
    {b : OpenCaseInput} (h : Presents ⟨s, clk, .openCase key body case session run, outcome⟩ k b) :
    k = key ∧ b = body := by
  obtain ⟨_, _, _, hcall⟩ := h
  cases hcall
  exact ⟨rfl, rfl⟩

theorem KeyState.other [Hashing] {τ : CallTransaction} (hstate : KeyState h db k)
    (hnone' : db.admissions.get k = none → db'.admissions.get k = none)
    (hkeep : ∀ {d c s r}, Owned db k d c s r → Owned db' k d c s r)
    (hτ : ∀ body, ¬Presents τ k body) : KeyState (τ :: h) db' k := by
  cases hstate with
  | free hnone hfree => exact .free (hnone' hnone) (List.forall_mem_cons.mpr ⟨hτ, hfree⟩)
  | taken body case session run hfirst howned hanswers =>
    obtain ⟨τ₀, hτ₀, hp₀⟩ := hfirst
    refine .taken body case session run ⟨τ₀, List.mem_cons_of_mem _ hτ₀, hp₀⟩ (hkeep howned) ?_
    exact List.forall_mem_cons.mpr ⟨fun body' hp => absurd hp (hτ body'), hanswers⟩

/-- The admission answers, if equal digests mean equal bodies. -/
theorem Owned.answered [Hashing] (clk : Clock Time) {b : OpenCaseInput} (h : NewObjects db key case session run)
    (howned : Owned db key (Hashing.admissionDigest key b) c s r)
    (hdigest : Hashing.admissionDigest key b = Hashing.admissionDigest key body → b = body) :
    committed db (exec db clk (.openCase key body case session run)) = db ∧
      Answered ⟨db, clk, .openCase key body case session run,
        exec db clk (.openCase key body case session run)⟩ body b c s r := by
  have hopen := openCase_owned clk body h howned
  by_cases heq : b = body
  · rw [if_pos (congrArg _ heq)] at hopen
    have hexec : exec db clk (.openCase key body case session run) = .ok (db, .admitted ⟨c, s, r, true⟩) := by
      simp only [exec, hopen, ok_bind]
      rfl
    rw [hexec]
    exact ⟨rfl, fun _ => ⟨_, _, rfl⟩, fun hne => absurd heq.symm hne⟩
  · rw [if_neg (mt hdigest heq)] at hopen
    have hexec : exec db clk (.openCase key body case session run) =
        .error (.contract .conflict "idempotency key reused with different input") := by
      simp only [exec, hopen]
      rfl
    rw [hexec]
    exact ⟨rfl, fun hbody => absurd hbody.symm heq, fun _ => rfl⟩

section

variable [Hashing] (hr : History h t₀ db t)
    (hcalls : ∀ τ ∈ h, ∃ key body case session run, τ.call = .openCase key body case session run ∧
      NewObjects τ.before key case session run)
    (hdigest : ∀ τ ∈ h, ∀ τ' ∈ h, ∀ key body body', Presents τ key body → Presents τ' key body' →
      Hashing.admissionDigest key body = Hashing.admissionDigest key body' → body = body')
include hr hcalls hdigest

/-- Every object has its admission, and the calls on a key agree. -/
theorem Runs.admitted : Complete db ∧ ∀ key, KeyState h db key := by
  induction hr with
  | refl =>
    refine ⟨.empty, fun key => .free rfl fun τ hτ => ?_⟩
    cases hτ
  | @call h db t clk c hr hle ih =>
    obtain ⟨hcomplete, hkeys⟩ := ih (fun τ hτ => hcalls τ (List.mem_cons_of_mem _ hτ))
      fun τ hτ τ' hτ' => hdigest τ (List.mem_cons_of_mem _ hτ) τ' (List.mem_cons_of_mem _ hτ')
    obtain ⟨key, body, case, session, run, rfl, hnew⟩ := hcalls ⟨db, clk, c, exec db clk c⟩ List.mem_cons_self
    cases hkeys key with
    | free hnone hfree =>
      obtain ⟨db', hopen, hcreates⟩ := openCase_new clk body hnew hnone
      have hexec : exec db clk (.openCase key body case session run) =
          .ok (db', .admitted ⟨case, session, run, false⟩) := by
        simp only [exec, hopen, ok_bind]
        rfl
      rw [hexec]
      refine ⟨hcomplete.creates hnew hnone hcreates, fun k => ?_⟩
      by_cases hk : k = key
      · subst hk
        refine .taken body case session run ⟨_, List.mem_cons_self, _, _, _, rfl⟩
          (hcreates.owned hnew) (List.forall_mem_cons.mpr ⟨fun body' hp => ?_, fun τ hτ body' hp => ?_⟩)
        · exact ⟨fun _ => ⟨_, _, rfl⟩, fun hne => absurd hp.eq.2 hne⟩
        · exact absurd hp (hfree τ hτ body')
      · refine (hkeys k).other (fun hnone' => ?_) (fun ho => ho.keep hnew hnone hcreates) fun _ hp => hk hp.eq.1
        show db'.admissions.get k = none
        rw [hcreates.admissions, if_neg hk, hnone']
    | taken b c s r hfirst howned hanswers =>
      obtain ⟨τ₀, hτ₀, hp₀⟩ := hfirst
      obtain ⟨hsame, hanswer⟩ := howned.answered clk hnew <|
        hdigest τ₀ (List.mem_cons_of_mem _ hτ₀) _ List.mem_cons_self key b body hp₀ ⟨_, _, _, rfl⟩
      rw [hsame]
      refine ⟨hcomplete, fun k => ?_⟩
      by_cases hk : k = key
      · subst hk
        refine .taken b c s r ⟨τ₀, List.mem_cons_of_mem _ hτ₀, hp₀⟩ howned
          (List.forall_mem_cons.mpr ⟨fun body' hp => ?_, hanswers⟩)
        rw [hp.eq.2]
        exact hanswer
      · exact (hkeys k).other id id fun _ hp => hk hp.eq.1

/-- **Admission is idempotent.** In every history of calls of `open` a key that was presented stands for one body: the
calls with that body return the same three objects, and those with another one are refused. -/
theorem admission_idempotent :
    Complete db ∧ ∀ τ₀ ∈ h, ∀ key body₀, Presents τ₀ key body₀ → ∃ body case session run,
      Owned db key (Hashing.admissionDigest key body) case session run ∧
      ∀ τ ∈ h, ∀ body', Presents τ key body' →
        (body' = body → ∃ db' replayed, τ.outcome = .ok (db', .admitted ⟨case, session, run, replayed⟩)) ∧
        (body' ≠ body →
          τ.outcome = .error (.contract .conflict "idempotency key reused with different input")) := by
  obtain ⟨hcomplete, hkeys⟩ := Runs.admitted hr hcalls hdigest
  refine ⟨hcomplete, fun τ₀ hτ₀ key body₀ hp₀ => ?_⟩
  cases hkeys key with
  | free _ hfree => exact absurd hp₀ (hfree τ₀ hτ₀ body₀)
  | taken body case session run _ howned hanswers =>
    refine ⟨body, case, session, run, howned, fun τ hτ body' hp => ?_⟩
    exact ⟨(hanswers τ hτ body' hp).same, (hanswers τ hτ body' hp).different⟩

end

@[reducible]
def messageHashing : Hashing :=
  { sampleHashing with admissionDigest := fun _ body => body.message_sha256 }

def otherDigest : Sha256 :=
  ⟨"1111111111111111111111111111111111111111111111111111111111111111", Eq.refl true⟩

/-- A call of `open` under one key, with these ids and message. -/
def openingCall (id : Identifier) (message : Sha256) : Call :=
  .openCase ⟨sampleScope.tenant_id, ⟨"key-1", Eq.refl true⟩⟩
    ⟨sampleCase.order_id, .buyer, ⟨"message-1", Eq.refl true⟩, message⟩
    { sampleCase with case_id := id }
    ⟨⟨sampleScope.tenant_id, id⟩, id, .buyer⟩
    { sampleRun with
      toRunScope := ⟨⟨sampleScope.tenant_id, id⟩, id⟩
      coherent := rfl }

/-- A case is opened, repeated, and the key reused. -/
def openingCalls : List (Time × Call) :=
  [(0, openingCall ⟨"a", Eq.refl true⟩ sampleDigest), (1, openingCall ⟨"b", Eq.refl true⟩ sampleDigest),
    (2, openingCall ⟨"c", Eq.refl true⟩ otherDigest)]

theorem admission_idempotent_opening : Complete (replay (@exec messageHashing) Database.empty openingCalls) := by
  have hr := replay_runs (@exec messageHashing) openingCalls Database.empty 0 (by decide)
  have hcalls : ∀ τ ∈ trace (@exec messageHashing) Database.empty openingCalls,
      ∃ key body case session run, τ.call = .openCase key body case session run ∧
        NewObjects τ.before key case session run := by
    rw [openingCalls, forall_mem_trace_cons, forall_mem_trace_cons, forall_mem_trace_cons]
    refine ⟨?_, ?_, ?_, by simp [trace]⟩
    all_goals exact ⟨_, _, _, _, _, rfl, rfl, by decide, rfl, rfl, rfl, rfl, rfl, rfl⟩
  have hmessages : ∀ τ ∈ trace (@exec messageHashing) Database.empty openingCalls,
      ∀ key body, Presents τ key body →
        body = ⟨sampleCase.order_id, .buyer, ⟨"message-1", Eq.refl true⟩, body.message_sha256⟩ := by
    rw [openingCalls, forall_mem_trace_cons, forall_mem_trace_cons, forall_mem_trace_cons]
    refine ⟨?_, ?_, ?_, by simp [trace]⟩
    all_goals
      rintro key body ⟨_, _, _, hcall⟩
      cases hcall
      rfl
  refine (@admission_idempotent _ _ _ _ messageHashing hr hcalls ?_).1
  intro τ hτ τ' hτ' key body body' hp hp' heq
  rw [hmessages τ hτ key body hp, hmessages τ' hτ' key body' hp']
  exact congrArg _ heq

end Aftercare
