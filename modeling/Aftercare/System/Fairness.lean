import Aftercare.System.Calls

/-!
# Fairness between tenants

`claim_next` orders by the number of the last dispatch to the tenant, and writes a new number with every dispatch
(`Ranked`, `Since`). When a tenant is dispatched again, every other tenant with a Run to dispatch was dispatched in
between (`dispatch_fair`). Between the calls the database may change in any way that leaves the dispatches alone.
-/

namespace Aftercare

open Relational

variable {db db' : Database} {a b : QueueRow} {tenant : Option Identifier}
  {readings : RunKey → ℕ → Time} {locked : RunKey → Bool} {clk : Clock Time} {owner : Identifier}
  {lease : ℤ}

/-! ## The order of the candidates -/

/-- The number of the last dispatch to a tenant. -/
def dispatchRank (db : Database) (tenant : Identifier) : ℕ :=
  ((db.fairness.get tenant).map (·.last_dispatch_seq)).getD 0

theorem dispatchRank_le_of_before (h : dispatchBefore db a b = true) :
    dispatchRank db a.tenant_id ≤ dispatchRank db b.tenant_id := by
  unfold dispatchBefore at h
  refine not_lt.mp fun hlt => ?_
  have hgt : compare (dispatchRank db a.tenant_id) (dispatchRank db b.tenant_id) = .gt := compare_gt_iff_gt.mpr hlt
  unfold dispatchRank at hgt
  dsimp only at h
  rw [hgt] at h
  cases h

theorem dispatchRank_le_of_not_before (h : ¬dispatchBefore db a b = true) :
    dispatchRank db b.tenant_id ≤ dispatchRank db a.tenant_id := by
  unfold dispatchBefore at h
  refine not_lt.mp fun hlt => h ?_
  have hlt' : compare (dispatchRank db a.tenant_id) (dispatchRank db b.tenant_id) = .lt := compare_lt_iff_lt.mpr hlt
  unfold dispatchRank at hlt'
  dsimp only
  rw [hlt']
  rfl

theorem head_insertionSort_le {α : Type} {r : α → α → Prop} [DecidableRel r] {f : α → ℕ}
    (hle : ∀ a b, r a b → f a ≤ f b) (hge : ∀ a b, ¬r a b → f b ≤ f a) {l : List α} {first : α}
    (hfirst : (l.insertionSort r).head? = some first) : ∀ a ∈ l, f first ≤ f a := by
  induction l generalizing first with
  | nil => cases hfirst
  | cons b l ih =>
    rw [List.insertionSort_cons] at hfirst
    cases hsorted : l.insertionSort r with
    | nil =>
      have hempty : l = [] := List.eq_nil_of_length_eq_zero (by rw [← List.length_insertionSort r l, hsorted]; rfl)
      rw [hsorted, List.orderedInsert_nil] at hfirst
      cases hfirst
      rw [hempty]
      intro a ha
      rw [List.mem_singleton.mp ha]
    | cons c rest =>
      have hrest : ∀ a ∈ l, f c ≤ f a := ih (by rw [hsorted]; rfl)
      rw [hsorted, List.orderedInsert_cons] at hfirst
      split_ifs at hfirst with hbc
      · cases hfirst
        exact List.forall_mem_cons.mpr ⟨le_rfl, fun a ha => (hle _ _ hbc).trans (hrest a ha)⟩
      · cases hfirst
        exact List.forall_mem_cons.mpr ⟨hge _ _ hbc, hrest⟩

theorem nextCandidate_rank {row : RunRow} (h : nextCandidate db tenant readings locked = some row)
    {q : QueueRow} {r : RunRow} (hmem : (q, r) ∈ candidates db tenant readings locked) :
    dispatchRank db row.tenant_id ≤ dispatchRank db q.tenant_id := by
  simp only [nextCandidate, Option.map_eq_some_iff, Prod.exists, exists_eq_right] at h
  obtain ⟨first, hhead⟩ := h
  have hfirst : (first, row) ∈ candidates db tenant readings locked :=
    (List.mem_insertionSort _).mp (List.mem_of_head? hhead)
  have hscope : row.tenant_id = first.tenant_id := by
    simp only [candidates, List.mem_filterMap] at hfirst
    obtain ⟨q', -, hq⟩ := hfirst
    split at hq
    · rename_i r' hr
      split_ifs at hq
      cases hq
      exact congrArg (·.tenant_id) (Database.run_eq_some.mp hr).2
    · cases hq
  rw [hscope]
  exact head_insertionSort_le (f := fun c : QueueRow × RunRow => dispatchRank db c.1.tenant_id)
    (fun _ _ => dispatchRank_le_of_before) (fun _ _ => dispatchRank_le_of_not_before) hhead (q, r) hmem

/-! ## The numbers of the dispatches -/

/-- A dispatch draws a new number. -/
structure Numbers (db db' : Database) (tenant : Identifier) : Prop where
  fresh : db.dispatch_seq ≤ dispatchRank db' tenant
  below : dispatchRank db' tenant < db'.dispatch_seq
  others : ∀ other, other ≠ tenant → dispatchRank db' other = dispatchRank db other

theorem recordDispatch_numbers {tenant : Identifier} (h : recordDispatch db tenant = .ok db') :
    Numbers db db' tenant := by
  unfold recordDispatch at h
  cases hget : db.fairness.get tenant with
  | none =>
    simp only [hget, statement_eq_ok, ok_iff] at h
    obtain ⟨fairness, hinsert, rfl⟩ := h
    have hrank : ∀ other, dispatchRank { db with fairness := fairness, dispatch_seq := db.dispatch_seq + 1 }
        other = if other = tenant then db.dispatch_seq else dispatchRank db other := by
      intro other
      simp only [dispatchRank, Table.get_insert hinsert, fairnessSchema_key]
      split_ifs <;> rfl
    refine ⟨?_, ?_, fun other hne => by rw [hrank, if_neg hne]⟩
    · rw [hrank, if_pos rfl]
    · rw [hrank, if_pos rfl]
      exact Nat.lt_succ_self _
  | some row =>
    simp only [hget, statement_eq_ok, ok_iff] at h
    obtain ⟨fairness, hupdate, rfl⟩ := h
    have hrank : ∀ other, dispatchRank { db with fairness := fairness, dispatch_seq := db.dispatch_seq + 2 }
        other = if other = tenant then db.dispatch_seq + 1 else dispatchRank db other := by
      intro other
      simp only [dispatchRank, Table.get_update hupdate, hget]
      split_ifs <;> rfl
    refine ⟨?_, ?_, fun other hne => by rw [hrank, if_neg hne]⟩
    · rw [hrank, if_pos rfl]
      exact Nat.le_succ _
    · rw [hrank, if_pos rfl]
      exact Nat.lt_succ_self _

theorem claimNext_dispatches {claim : ExecutionClaim}
    (h : claimNext db clk readings locked tenant owner lease = .ok (db', some claim)) :
    Numbers db db' claim.tenant_id ∧ ∃ row, claim.tenant_id = row.tenant_id ∧
      nextCandidate db tenant (fun k i => between (clk.read 0) (clk.read 1) (readings k i)) locked =
        some row := by
  unfold claimNext at h
  split at h
  · cases h
  rename_i row hnext
  simp only [ok_iff, Option.filter_eq_some_iff] at h
  obtain ⟨woken, -, ready, ⟨hready, -⟩, runs, hupdate, db'', hdispatch, updated, hupdated, c, hc, rfl, hclaim⟩ := h
  cases hclaim
  obtain ⟨hscope, -, -⟩ := executionClaim_eq_ok.mp hc
  have htenant : claim.tenant_id = row.tenant_id := by
    have hkey : updated.key = row.key := Table.key_of_get hupdated
    rw [hscope]
    exact congrArg Prod.fst hkey
  have hnumbers := recordDispatch_numbers hdispatch
  rw [htenant]
  exact ⟨⟨hnumbers.fresh, hnumbers.below, hnumbers.others⟩, row, rfl, hnext⟩

theorem claimNext_idle (h : claimNext db clk readings locked tenant owner lease = .ok (db', none)) : db' = db := by
  unfold claimNext at h
  split at h
  · cases h
    rfl
  · simp only [ok_iff, reduceCtorEq, and_false, exists_false] at h

/-! ## Sequences of dispatches -/

/-- A call of `claim_next`, or whatever else happens to the database. -/
inductive DispatchStep
  | claimNext (readings : RunKey → ℕ → Time) (locked : RunKey → Bool) (tenant : Option Identifier)
      (owner : Identifier) (lease : ℤ)
  | other (db' : Database)

/-- Calls of `claim_next`, and anything that leaves the dispatches alone. -/
def dispatchEngine : Engine Database Time DispatchStep (Option ExecutionClaim) Failure :=
  fun db clk step =>
    match step with
    | .claimNext readings locked tenant owner lease => claimNext db clk readings locked tenant owner lease
    | .other db' =>
      if db'.fairness.rows = db.fairness.rows ∧ db.dispatch_seq ≤ db'.dispatch_seq then .ok (db', none)
      else .error .assertion

abbrev DispatchTransaction := Transaction Database Time DispatchStep (Option ExecutionClaim) Failure

def DispatchedTo (x : DispatchTransaction) (tenant : Identifier) : Prop :=
  ∃ db' claim, x.outcome = .ok (db', some claim) ∧ claim.tenant_id = tenant

/-- The tenant has a Run that is due, not locked and has a slot left. -/
def Eligible (db : Database) (readings : RunKey → ℕ → Time) (locked : RunKey → Bool)
    (tenant : Identifier) : Prop :=
  ∃ q ∈ db.runs.queue.rows, q.tenant_id = tenant ∧
    (∃ r ∈ db.run q.toRunScope, runnable q r (readings q.key) = true) ∧
    saturated db q (readings q.key 4) = false ∧ locked q.key = false

instance (db : Database) (readings : RunKey → ℕ → Time) (locked : RunKey → Bool) (tenant : Identifier) :
    Decidable (Eligible db readings locked tenant) :=
  inferInstanceAs (Decidable (∃ _ ∈ _, _))

/-- The numbers are below the sequence and differ. -/
structure Ranked (db : Database) : Prop where
  below : ∀ tenant, dispatchRank db tenant < db.dispatch_seq
  distinct : ∀ a b, dispatchRank db a = dispatchRank db b → 0 < dispatchRank db a → a = b

theorem Ranked.empty : Ranked Database.empty := ⟨fun _ => Nat.zero_lt_one, fun _ _ _ hpos => absurd hpos (lt_irrefl 0)⟩

theorem Ranked.numbers {tenant : Identifier} (h : Ranked db) (hn : Numbers db db' tenant) : Ranked db' := by
  have hnew : ∀ other, other ≠ tenant → dispatchRank db' other < dispatchRank db' tenant := by
    intro other hne
    rw [hn.others other hne]
    exact (h.below other).trans_le hn.fresh
  refine ⟨fun other => ?_, fun a b hab hpos => ?_⟩
  · by_cases hother : other = tenant
    · rw [hother]
      exact hn.below
    · exact (hnew other hother).trans hn.below
  · by_cases ha : a = tenant
    · by_cases hb : b = tenant
      · rw [ha, hb]
      · have hlt := hnew b hb
        rw [ha] at hab
        omega
    · by_cases hb : b = tenant
      · have hlt := hnew a ha
        rw [hb] at hab
        omega
      · rw [hn.others a ha] at hab hpos
        rw [hn.others b hb] at hab
        exact h.distinct a b hab hpos

theorem dispatchEngine_eq_ok {step : DispatchStep} {o : Option ExecutionClaim}
    (h : dispatchEngine db clk step = .ok (db', o)) :
    (∀ claim, o = some claim → Numbers db db' claim.tenant_id) ∧
      (o = none → (∀ tenant, dispatchRank db' tenant = dispatchRank db tenant) ∧
        db.dispatch_seq ≤ db'.dispatch_seq) := by
  cases step with
  | claimNext readings locked tenant owner lease =>
    refine ⟨fun claim hclaim => ?_, fun hnone => ?_⟩
    · rw [hclaim] at h
      exact (claimNext_dispatches h).1
    · rw [hnone] at h
      rw [claimNext_idle h]
      exact ⟨fun _ => rfl, le_rfl⟩
  | other db'' =>
    simp only [dispatchEngine] at h
    split_ifs at h with hsame
    cases h
    have hfairness : db'.fairness = db.fairness := Table.ext_rows hsame.1
    refine ⟨fun claim hclaim => ?_, fun _ => ⟨fun tenant => ?_, hsame.2⟩⟩
    · cases hclaim
    · rw [dispatchRank, dispatchRank, hfairness]

/-- The larger number was dispatched after the smaller one. -/
structure Since (h : List DispatchTransaction) (db : Database) : Prop where
  numbered : ∀ x ∈ h, ∀ tenant, DispatchedTo x tenant → 0 < dispatchRank db tenant
  later : ∀ a b, dispatchRank db a < dispatchRank db b → ∀ newer x older, h = newer ++ x :: older →
    DispatchedTo x a → ∃ y ∈ newer, DispatchedTo y b

theorem Since.idle {h : List DispatchTransaction} {x : DispatchTransaction} (hs : Since h db)
    (hsame : ∀ tenant, dispatchRank db' tenant = dispatchRank db tenant)
    (hx : ∀ tenant, ¬DispatchedTo x tenant) : Since (x :: h) db' where
  numbered y hy tenant hdispatched := by
    rw [hsame]
    rcases List.mem_cons.mp hy with rfl | hy
    · exact absurd hdispatched (hx tenant)
    · exact hs.numbered y hy tenant hdispatched
  later a b hlt newer y older hsplit hdispatched := by
    rw [hsame, hsame] at hlt
    cases newer with
    | nil =>
      cases hsplit
      exact absurd hdispatched (hx a)
    | cons z newer =>
      cases hsplit
      obtain ⟨w, hw, hb⟩ := hs.later a b hlt newer y older rfl hdispatched
      exact ⟨w, List.mem_cons_of_mem _ hw, hb⟩

theorem Since.dispatch {h : List DispatchTransaction} {db db' : Database} {x : DispatchTransaction}
    {tenant : Identifier} (hs : Since h db) (hranked : Ranked db) (hn : Numbers db db' tenant)
    (hx : ∀ a, DispatchedTo x a ↔ a = tenant) : Since (x :: h) db' where
  numbered y hy a hdispatched := by
    by_cases ha : a = tenant
    · rw [ha]
      exact ((hranked.below tenant).trans_le hn.fresh).trans_le' (Nat.zero_le _)
    · rw [hn.others a ha]
      rcases List.mem_cons.mp hy with rfl | hy
      · exact absurd ((hx a).mp hdispatched) ha
      · exact hs.numbered y hy a hdispatched
  later a b hlt newer y older hsplit hdispatched := by
    cases newer with
    | nil =>
      -- The tenant of the newest dispatch has the largest number.
      cases hsplit
      rw [(hx a).mp hdispatched] at hlt
      have hb : b ≠ tenant := fun hb => by rw [hb] at hlt; exact lt_irrefl _ hlt
      rw [hn.others b hb] at hlt
      have hbelow := (hranked.below b).trans_le hn.fresh
      omega
    | cons z newer =>
      cases hsplit
      by_cases hb : b = tenant
      · exact ⟨x, List.mem_cons_self, (hx b).mpr hb⟩
      · have ha : a ≠ tenant := by
          rintro rfl
          rw [hn.others b hb] at hlt
          have hbelow := (hranked.below b).trans_le hn.fresh
          omega
        rw [hn.others a ha, hn.others b hb] at hlt
        obtain ⟨w, hw, hdispatched'⟩ := hs.later a b hlt newer y older rfl hdispatched
        exact ⟨w, List.mem_cons_of_mem _ hw, hdispatched'⟩

/-- **A whole sequence** keeps the order of the dispatches. -/
theorem Runs.since {h : List DispatchTransaction} {t₀ t : Time}
    (hr : Runs dispatchEngine Database.empty t₀ h db t) : Ranked db ∧ Since h db := by
  induction hr with
  | refl =>
    refine ⟨.empty, ⟨fun x hx => absurd hx List.not_mem_nil, fun a b _ newer x older hsplit => ?_⟩⟩
    cases newer <;> cases hsplit
  | @call h db t clk step hr hle ih =>
    obtain ⟨hranked, hsince⟩ := ih
    cases hexec : dispatchEngine db clk step with
    | error e =>
      refine ⟨hranked, hsince.idle (fun _ => rfl) fun tenant hdispatched => ?_⟩
      obtain ⟨_, _, hok, -⟩ := hdispatched
      cases hok
    | ok result =>
      obtain ⟨db', o⟩ := result
      cases o with
      | none =>
        have heffect := (dispatchEngine_eq_ok hexec).2 rfl
        refine ⟨⟨fun tenant => ?_, fun a b => ?_⟩, hsince.idle heffect.1 fun tenant hdispatched => ?_⟩
        · change dispatchRank db' tenant < db'.dispatch_seq
          rw [heffect.1]
          exact (hranked.below tenant).trans_le heffect.2
        · change dispatchRank db' a = dispatchRank db' b → 0 < dispatchRank db' a → a = b
          rw [heffect.1, heffect.1]
          exact hranked.distinct a b
        · obtain ⟨_, _, hok, -⟩ := hdispatched
          cases hok
      | some claim =>
        have heffect := (dispatchEngine_eq_ok hexec).1 claim rfl
        refine ⟨hranked.numbers heffect, hsince.dispatch hranked heffect fun a => ⟨?_, ?_⟩⟩
        · rintro ⟨_, _, hok, rfl⟩
          cases hok
          rfl
        · rintro rfl
          exact ⟨db', claim, rfl, rfl⟩

/-- **Fairness between tenants.** When `claim_next` dispatches a tenant again, every other tenant that has an eligible Run
then was dispatched in between. -/
theorem dispatch_fair {db : Database} {t₀ t : Time} {later middle earlier : List DispatchTransaction}
    {first second : DispatchTransaction} {a b : Identifier} {readings : RunKey → ℕ → Time}
    {locked : RunKey → Bool} {owner : Identifier} {lease : ℤ}
    (hr : Runs dispatchEngine Database.empty t₀ (later ++ second :: (middle ++ first :: earlier)) db t)
    (hfirst : DispatchedTo first a) (hsecond : DispatchedTo second a)
    (hcall : second.call = .claimNext readings locked none owner lease) (hne : b ≠ a)
    (heligible : Eligible second.before
      (fun k i => between (second.clock.read 0) (second.clock.read 1) (readings k i)) locked b) :
    ∃ x ∈ middle, DispatchedTo x b := by
  obtain ⟨t', hr', -, houtcome⟩ := hr.split
  obtain ⟨hranked, hsince⟩ := Runs.since hr'
  obtain ⟨db', claim, hok, rfl⟩ := hsecond
  rw [hok, hcall] at houtcome
  obtain ⟨-, row, htenant, hnext⟩ := claimNext_dispatches houtcome.symm
  -- The tenant's own number is not larger than that of the other tenant, and not the same.
  obtain ⟨q, hq, rfl, ⟨r, hr, hrunnable⟩, hslots, hfree⟩ := heligible
  rw [Option.mem_def] at hr
  have hmem : (q, r) ∈ candidates second.before none
      (fun k i => between (second.clock.read 0) (second.clock.read 1) (readings k i)) locked := by
    rw [candidates, List.mem_filterMap]
    refine ⟨q, hq, ?_⟩
    simp only [hr, selectable, hrunnable, hslots, hfree]
    rfl
  have hle := nextCandidate_rank hnext hmem
  rw [← htenant] at hle
  have hpos := hsince.numbered first (List.mem_append_right _ List.mem_cons_self) _ hfirst
  have hdiff : dispatchRank second.before claim.tenant_id ≠ dispatchRank second.before q.tenant_id :=
    fun hsame => hne (hranked.distinct _ _ hsame hpos).symm
  exact hsince.later _ _ (lt_of_le_of_ne hle hdiff) middle first earlier rfl hfirst

def otherTenantCase : CaseRecord := { sampleCase with tenant_id := ⟨"tenant-2", Eq.refl true⟩ }

def sharedDatabase : Database := replay (@exec sampleHashing) Database.empty
  [(0, .createCase sampleCase), (0, .createCase otherTenantCase), (0, .createRun sampleRun),
    (0, .createRun { sampleRun with run_id := ⟨"run-2", Eq.refl true⟩ }),
    (0, .createRun { sampleRun with tenant_id := otherTenantCase.tenant_id }),
    (0, .createRun { sampleRun with tenant_id := otherTenantCase.tenant_id, run_id := ⟨"run-2", Eq.refl true⟩ })]

/-- A worker takes a Run of any tenant for a minute. -/
def sharedStep : DispatchStep := .claimNext (fun _ _ => 0) (fun _ => false) none sampleOwner 60000000

def sharedSteps : List (Time × DispatchStep) :=
  [(1, .other sharedDatabase), (2, sharedStep), (3, sharedStep), (4, sharedStep)]

def sharedAfter (n : ℕ) : Database := replay dispatchEngine Database.empty (sharedSteps.take n)

/-- The second tenant is dispatched in between. -/
theorem dispatch_fair_alternates : ∃ x ∈ [(⟨sharedAfter 2, .still 3, sharedStep,
    dispatchEngine (sharedAfter 2) (.still 3) sharedStep⟩ : DispatchTransaction)],
    DispatchedTo x otherTenantCase.tenant_id := by
  have hr : Runs dispatchEngine Database.empty 0 ([] ++
      ⟨sharedAfter 3, .still 4, sharedStep, dispatchEngine (sharedAfter 3) (.still 4) sharedStep⟩ ::
      ([⟨sharedAfter 2, .still 3, sharedStep, dispatchEngine (sharedAfter 2) (.still 3) sharedStep⟩] ++
      ⟨sharedAfter 1, .still 2, sharedStep, dispatchEngine (sharedAfter 1) (.still 2) sharedStep⟩ ::
      [⟨Database.empty, .still 1, .other sharedDatabase,
        dispatchEngine Database.empty (.still 1) (.other sharedDatabase)⟩])) (sharedAfter 4) 4 :=
    replay_runs dispatchEngine sharedSteps Database.empty 0 (by decide)
  have htenant : ∀ n t, (dispatchEngine (sharedAfter n) (.still t) sharedStep).toOption.bind
      (fun result => result.2.map (·.tenant_id)) = some sampleScope.tenant_id →
      DispatchedTo ⟨sharedAfter n, .still t, sharedStep, dispatchEngine (sharedAfter n) (.still t) sharedStep⟩
        sampleScope.tenant_id := by
    intro n t h
    cases hexec : dispatchEngine (sharedAfter n) (.still t) sharedStep with
    | error e => simp [hexec, Except.toOption] at h
    | ok result =>
      obtain ⟨db', o⟩ := result
      cases o with
      | none => simp [hexec, Except.toOption] at h
      | some claim =>
        refine ⟨db', claim, rfl, ?_⟩
        simpa [hexec, Except.toOption] using h
  exact dispatch_fair hr (htenant 1 2 (by decide)) (htenant 3 4 (by decide)) rfl (by decide) (by decide)

end Aftercare
