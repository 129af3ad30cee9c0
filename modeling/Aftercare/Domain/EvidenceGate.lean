import Mathlib.Data.Rat.Cast.Order
import Mathlib.Data.Nat.Log
import Mathlib.Tactic.FieldSimp
import Mathlib.Tactic.Ring
import Aftercare.Domain.Investigation

/-!
# What the evidence gate decides

The assessment in terms of the ledger alone. The scan is a fold whose fields are maps and filters of the sorted
ledger (`scan_eq_ok`), so each answer of `assessInvestigation` is a question about membership.
-/

namespace Aftercare.Investigation

open Relational

/-! ## The specification -/

/-- An observation that counts at `now`. -/
structure Fresh (policy : FreshnessPolicy) (now : Time) (o : InvestigationEvidence) : Prop where
  received : o.received_at ≤ now
  unrevoked : o.revoked_at = none
  within_age : totalSeconds (now - o.observed_at) ≤ policy.maxAge (sourceKind o)

inductive Supports : EvidenceDetails → InvestigationClaim → Prop
  | order : Supports .orderSnapshot .orderRecorded
  | delivered : Supports (.logisticsObservation .delivered) .carrierReportedDelivered
  | inTransit : Supports (.logisticsObservation .inTransit) .carrierReportedInTransit
  | notReceived : Supports (.buyerStatement .notReceived) .buyerReportedNotReceived
  | received : Supports (.buyerStatement .received) .buyerReportedReceived

section Ledger

variable (policy : FreshnessPolicy) (now : Time) (observations : List InvestigationEvidence)

/-- There is fresh evidence with details in `p`. -/
def HasFresh (p : EvidenceDetails → Prop) : Prop :=
  ∃ o ∈ observations, Fresh policy now o ∧ p o.details

/-- Carrier and buyer, or the buyer alone, contradict. -/
def Conflicting : Prop :=
  HasFresh policy now observations (· = .buyerStatement .notReceived) ∧
    (HasFresh policy now observations (· = .logisticsObservation .delivered) ∨
      HasFresh policy now observations (· = .buyerStatement .received))

/-- The reference names a fresh observation that supports the claim. -/
def ReferenceHolds (claim : InvestigationClaim) (ref : Identifier) : Prop :=
  ∃ o ∈ observations, o.evidence_id = ref ∧ Fresh policy now o ∧ Supports o.details claim

def ReferenceFails (proposal : InvestigationProposal) : Prop :=
  ∃ selected ∈ proposal.claims, ∃ ref ∈ selected.evidence_refs,
    ¬ReferenceHolds policy now observations selected.claim ref

/-- The ledger and the proposal are ready for a recommendation. -/
structure Ready (proposal : InvestigationProposal) : Prop where
  order : HasFresh policy now observations (· = .orderSnapshot)
  carrier : HasFresh policy now observations (∃ status, · = .logisticsObservation status)
  buyer : HasFresh policy now observations (∃ assertion, · = .buyerStatement assertion)
  clear_carrier : HasFresh policy now observations fun d =>
    d = .logisticsObservation .delivered ∨ d = .logisticsObservation .inTransit
  clear_buyer : HasFresh policy now observations fun d =>
    d = .buyerStatement .notReceived ∨ d = .buyerStatement .received
  consistent : ¬Conflicting policy now observations
  references_hold : ∀ selected ∈ proposal.claims, ∀ ref ∈ selected.evidence_refs,
    ReferenceHolds policy now observations selected.claim ref

end Ledger

/-- Observations of one order with distinct evidence ids and source events. -/
structure Authorized (expected : InvestigationScope)
    (registered_sources : Identifier → Option SourceKind)
    (observations : List InvestigationEvidence) : Prop where
  in_scope : ∀ o ∈ observations, o.toInvestigationScope = expected
  registered : ∀ o ∈ observations, registered_sources o.source_id = some (sourceKind o)
  distinct_ids : (observations.map (·.evidence_id)).Nodup
  distinct_events : (observations.map (·.source_event)).Nodup

/-! ## Ages -/

theorem seconds_le_of_log2 (n : ℕ) (h : 54 ≤ Nat.log2 (n * 2 ^ 20 / 10 ^ 6)) : 2 ^ 34 * 10 ^ 6 ≤ n := by
  have hne : n * 2 ^ 20 / 10 ^ 6 ≠ 0 := by
    intro h0
    rw [h0, Nat.log2_zero] at h
    omega
  have hlog := (Nat.le_log2 hne).mp h
  omega

/-- Up to 544 years the rounding moves no duration across a whole second. -/
theorem nearestSeconds_le_iff (n limit : ℕ) (h : limit < 2 ^ 34) : nearestSeconds n ≤ limit ↔ n ≤ limit * 10 ^ 6 := by
  obtain ⟨m, hm⟩ : ∃ m, m = Nat.log2 (n * 2 ^ 20 / 10 ^ 6) := ⟨_, rfl⟩
  obtain ⟨k, hk⟩ : ∃ k, k = 72 - m := ⟨_, rfl⟩
  have hpow : (0 : ℚ) < ((2 ^ k : ℕ) : ℚ) := Nat.cast_pos.mpr (Nat.two_pow_pos k)
  have hdiv := Nat.div_add_mod (n * 2 ^ k) (10 ^ 6)
  have hmod := Nat.mod_lt (n * 2 ^ k) (show 0 < 10 ^ 6 by norm_num)
  -- The comparison is one of integers, since the limit is a multiple of the last bit.
  have hround : nearestSeconds n ≤ limit ↔
      (if 10 ^ 6 < 2 * (n * 2 ^ k % 10 ^ 6) ∨ (2 * (n * 2 ^ k % 10 ^ 6) = 10 ^ 6 ∧ n * 2 ^ k / 10 ^ 6 % 2 = 1)
        then n * 2 ^ k / 10 ^ 6 + 1 else n * 2 ^ k / 10 ^ 6) ≤ limit * 2 ^ k := by
    unfold nearestSeconds
    simp only [← hm, ← hk]
    rw [div_le_iff₀ hpow, ← Nat.cast_mul, Nat.cast_le]
  rw [hround]
  constructor
  · intro hle
    by_contra hlt
    have hgt : limit * 10 ^ 6 + 1 ≤ n := by omega
    have hscaled : (limit * 10 ^ 6 + 1) * 2 ^ k ≤ n * 2 ^ k := Nat.mul_le_mul_right _ hgt
    by_cases hk' : 19 ≤ k
    · -- The last bit is at most a microsecond, so a microsecond too many rounds up.
      have hbit : 2 ^ 19 ≤ 2 ^ k := Nat.pow_le_pow_right (by norm_num) hk'
      have hexp : (limit * 10 ^ 6 + 1) * 2 ^ k = limit * 2 ^ k * 10 ^ 6 + 2 ^ k := by ring
      rw [hexp] at hscaled
      generalize 2 ^ k = b at *
      generalize limit * b = c at *
      generalize n * b = d at *
      split_ifs at hle <;> omega
    · -- The duration is above `2^34` seconds, a whole second past the limit.
      have hlong := seconds_le_of_log2 n (by omega)
      have hlarge : (limit + 1) * 10 ^ 6 ≤ n := le_trans (Nat.mul_le_mul_right _ (Nat.succ_le_of_lt h)) hlong
      have hq : (limit + 1) * 2 ^ k ≤ n * 2 ^ k / 10 ^ 6 := by
        refine (Nat.le_div_iff_mul_le (show 0 < 10 ^ 6 by norm_num)).mpr ?_
        calc (limit + 1) * 2 ^ k * 10 ^ 6 = (limit + 1) * 10 ^ 6 * 2 ^ k := by ring
          _ ≤ n * 2 ^ k := Nat.mul_le_mul_right _ hlarge
      have hb := Nat.two_pow_pos k
      rw [Nat.add_mul] at hq
      split_ifs at hle <;> omega
  · intro hle
    have hscaled : n * 2 ^ k ≤ limit * 2 ^ k * 10 ^ 6 := by
      calc n * 2 ^ k ≤ limit * 10 ^ 6 * 2 ^ k := Nat.mul_le_mul_right _ hle
        _ = limit * 2 ^ k * 10 ^ 6 := by ring
    generalize n * 2 ^ k = d at *
    generalize limit * 2 ^ k = c at *
    split_ifs <;> omega

theorem totalSeconds_le_iff (duration : ℤ) (limit : ℕ) (h : limit < 2 ^ 34) :
    totalSeconds duration ≤ limit ↔ duration ≤ limit * 10 ^ 6 := by
  unfold totalSeconds
  split_ifs with hneg
  · have hle : -nearestSeconds duration.natAbs ≤ 0 := by
      unfold nearestSeconds
      exact neg_nonpos.mpr (div_nonneg (Nat.cast_nonneg _) (Nat.cast_nonneg _))
    have hlimit : (0 : ℚ) ≤ limit := Nat.cast_nonneg limit
    exact ⟨fun _ => by omega, fun _ => hle.trans hlimit⟩
  · rw [nearestSeconds_le_iff _ _ h]
    omega

/-! ## Gates on one observation -/

theorem evidenceIssue_eq_none (o : InvestigationEvidence) (policy : FreshnessPolicy) (now : Time) :
    evidenceIssue o policy now = none ↔ Fresh policy now o := by
  unfold evidenceIssue
  constructor
  · intro h
    split_ifs at h with hfuture hrevoked hstale
    exact ⟨by_contra fun hr => hfuture (.inl (lt_of_not_ge hr)), by simpa using hrevoked, le_of_not_gt hstale⟩
  · rintro ⟨hreceived, hunrevoked, hage⟩
    simp [hunrevoked, not_lt.mpr hreceived, not_lt.mpr hage]

theorem supportedClaim_eq_some (o : InvestigationEvidence) (c : InvestigationClaim) :
    supportedClaim o = some c ↔ Supports o.details c := by
  unfold supportedClaim
  constructor
  · intro h
    split at h <;> cases h <;> simp only [*] <;> constructor
  · intro h
    generalize o.details = details at h
    cases h <;> rfl

theorem requireOrder_eq_ok (expected actual : InvestigationScope) :
    requireOrder expected actual = .ok () ↔ actual = expected := by
  simp only [requireOrder, ok_iff]
  cases expected
  cases actual
  simp only [InvestigationScope.mk.injEq]
  grind

/-! ## The scan as a fold -/

def collect (policy : FreshnessPolicy) (now : Time) (l : List InvestigationEvidence) : Scan :=
  l.foldl (fun s o => s.add o policy now) .init

section Scan

variable (policy : FreshnessPolicy) (now : Time)

@[simp]
theorem Scan.add_evidence_by_id (s : Scan) (o : InvestigationEvidence) :
    (s.add o policy now).evidence_by_id = s.evidence_by_id ++ [(o.evidence_id, o)] := by
  unfold Scan.add
  split <;> rfl

@[simp]
theorem Scan.add_source_events (s : Scan) (o : InvestigationEvidence) :
    (s.add o policy now).source_events = s.source_events ++ [o.source_event] := by
  unfold Scan.add
  split <;> rfl

/-- The scan succeeds exactly on authorized observations with new ids. -/
theorem scan_eq_ok (expected : InvestigationScope) (registered_sources : Identifier → Option SourceKind)
    (l : List InvestigationEvidence) (s s' : Scan) (hids : (s.evidence_by_id.map Prod.fst).Nodup)
    (hevents : s.source_events.Nodup) : scan expected registered_sources policy now s l = .ok s' ↔
      (∀ o ∈ l, o.toInvestigationScope = expected) ∧
      (∀ o ∈ l, registered_sources o.source_id = some (sourceKind o)) ∧
      (s.evidence_by_id.map Prod.fst ++ l.map (·.evidence_id)).Nodup ∧
      (s.source_events ++ l.map (·.source_event)).Nodup ∧
      l.foldl (fun s o => s.add o policy now) s = s' := by
  induction l generalizing s with
  | nil => simp [scan, pure_eq_ok, hids, hevents]
  | cons o rest ih =>
    have hnew : s.evidence_by_id.lookup o.evidence_id = none ↔ o.evidence_id ∉ s.evidence_by_id.map Prod.fst := by
      rw [List.lookup_eq_none_iff, List.mem_map]
      grind
    have hstep := ih (s.add o policy now)
    simp only [Scan.add_evidence_by_id, Scan.add_source_events, List.map_append, List.map_cons,
      List.map_nil, List.append_assoc, List.singleton_append] at hstep
    simp only [scan, ok_iff, requireOrder_eq_ok, requireRegistered, hnew, List.mem_cons,
      forall_eq_or_imp, List.map_cons, List.foldl_cons]
    constructor
    · rintro ⟨hscope, hregistered, hid, hevent, hrest⟩
      have hids' : (s.evidence_by_id.map Prod.fst ++ [o.evidence_id]).Nodup :=
        List.nodup_append_comm.mp (List.nodup_cons.mpr ⟨hid, hids⟩)
      have hevents' : (s.source_events ++ [o.source_event]).Nodup :=
        List.nodup_append_comm.mp (List.nodup_cons.mpr ⟨hevent, hevents⟩)
      obtain ⟨hscopes, hregs, hrest⟩ := (hstep hids' hevents').mp hrest
      exact ⟨⟨hscope, hscopes⟩, ⟨hregistered, hregs⟩, hrest⟩
    · rintro ⟨⟨hscope, hscopes⟩, ⟨hregistered, hregs⟩, hid, hevent, hrest⟩
      have hid' := hid
      have hevent' := hevent
      rw [List.append_cons] at hid' hevent'
      have hids' := hid'.of_append_left
      have hevents' := hevent'.of_append_left
      refine ⟨hscope, hregistered, ?_, ?_, (hstep hids' hevents').mpr ⟨hscopes, hregs, hid, hevent, hrest⟩⟩
      · exact (List.nodup_cons.mp (List.nodup_append_comm.mp hids')).1
      · exact (List.nodup_cons.mp (List.nodup_append_comm.mp hevents')).1

theorem foldl_evidence_by_id (l : List InvestigationEvidence) (s : Scan) :
    (l.foldl (fun s o => s.add o policy now) s).evidence_by_id =
      s.evidence_by_id ++ l.map fun o => (o.evidence_id, o) := by
  induction l generalizing s with
  | nil => simp
  | cons o rest ih => simp [ih]

theorem foldl_unavailable (l : List InvestigationEvidence) (s : Scan) :
    (l.foldl (fun s o => s.add o policy now) s).unavailable = s.unavailable ++ l.filterMap fun o =>
        (evidenceIssue o policy now).map fun issue => (o.evidence_id, issue) := by
  induction l generalizing s with
  | nil => simp
  | cons o rest ih =>
    have hadd : (s.add o policy now).unavailable =
        s.unavailable ++ ((evidenceIssue o policy now).map (o.evidence_id, ·)).toList := by
      unfold Scan.add
      split <;> rename_i h <;> simp [h]
    rw [List.foldl_cons, ih, hadd]
    cases h : evidenceIssue o policy now with
    | none => simp [h]
    | some issue => simp [h]

theorem mem_foldl_claims (l : List InvestigationEvidence) (s : Scan) (c : InvestigationClaim) (ref : Identifier) :
    ref ∈ (l.foldl (fun s o => s.add o policy now) s).claims c ↔ ref ∈ s.claims c ∨
        ∃ o ∈ l, o.evidence_id = ref ∧ Fresh policy now o ∧ Supports o.details c := by
  induction l generalizing s with
  | nil => simp
  | cons o rest ih =>
    have hadd : ref ∈ (s.add o policy now).claims c ↔ ref ∈ s.claims c ∨
          (o.evidence_id = ref ∧ Fresh policy now o ∧ Supports o.details c) := by
      rw [← evidenceIssue_eq_none, ← supportedClaim_eq_some]
      unfold Scan.add
      split <;> rename_i h
      · simp [h]
      · simp only [addClaim, h, true_and]
        split_ifs with hc <;> simp [hc, eq_comm]
    rw [List.foldl_cons, ih, hadd, or_assoc]
    simp only [List.mem_cons, exists_eq_or_imp]

theorem mem_foldl_available_kinds (l : List InvestigationEvidence) (s : Scan) (kind : SourceKind) :
    kind ∈ (l.foldl (fun s o => s.add o policy now) s).available_kinds ↔
      kind ∈ s.available_kinds ∨ ∃ o ∈ l, Fresh policy now o ∧ sourceKind o = kind := by
  induction l generalizing s with
  | nil => simp
  | cons o rest ih =>
    have hadd : kind ∈ (s.add o policy now).available_kinds ↔
        kind ∈ s.available_kinds ∨ (Fresh policy now o ∧ sourceKind o = kind) := by
      rw [← evidenceIssue_eq_none]
      unfold Scan.add
      split <;> rename_i h
      · simp [h]
      · simp only [h, List.mem_cons, true_and]
        rw [or_comm, eq_comm]
    rw [List.foldl_cons, ih, hadd, or_assoc]
    simp only [List.mem_cons, exists_eq_or_imp]

theorem collect_claims_ne_nil (l : List InvestigationEvidence) (c : InvestigationClaim) :
    (collect policy now l).claims c ≠ [] ↔ HasFresh policy now l (Supports · c) := by
  constructor
  · intro hne
    obtain ⟨ref, href⟩ := List.exists_mem_of_ne_nil _ hne
    obtain h | ⟨o, ho, -, hfresh, hsupports⟩ := (mem_foldl_claims policy now l _ c ref).mp href
    · cases h
    · exact ⟨o, ho, hfresh, hsupports⟩
  · rintro ⟨o, ho, hfresh, hsupports⟩
    exact List.ne_nil_of_mem ((mem_foldl_claims policy now l _ c _).mpr (.inr ⟨o, ho, rfl, hfresh, hsupports⟩))

theorem mem_collect_available_kinds (l : List InvestigationEvidence) (kind : SourceKind) :
    kind ∈ (collect policy now l).available_kinds ↔ ∃ o ∈ l, Fresh policy now o ∧ sourceKind o = kind := by
  unfold collect
  rw [mem_foldl_available_kinds]
  simp [Scan.init]

end Scan

/-! ## Lookups by evidence id -/

section Lookup

variable {policy : FreshnessPolicy} {now : Time} {l : List InvestigationEvidence}

theorem lookup_of_mem {β : Type} (hids : (l.map (·.evidence_id)).Nodup)
    (f : InvestigationEvidence → Option β) (o : InvestigationEvidence) (ho : o ∈ l) :
    (l.filterMap fun o => (f o).map (o.evidence_id, ·)).lookup o.evidence_id = f o := by
  induction l with
  | nil => cases ho
  | cons a rest ih =>
    rw [List.map_cons, List.nodup_cons] at hids
    obtain ⟨hnew, hids⟩ := hids
    have hrest : ∀ b ∈ rest, b.evidence_id ≠ a.evidence_id := fun b hb heq => hnew (heq ▸ List.mem_map_of_mem hb)
    rw [List.filterMap_cons]
    rcases List.mem_cons.mp ho with rfl | ho
    · cases hf : f o with
      | none =>
        simp only [Option.map_none]
        rw [List.lookup_eq_none_iff]
        intro p hp
        obtain ⟨b, hb, hp⟩ := List.mem_filterMap.mp hp
        obtain ⟨v, -, rfl⟩ := Option.map_eq_some_iff.mp hp
        simpa using (hrest b hb).symm
      | some v => simp
    · have hne : (o.evidence_id == a.evidence_id) = false := by simpa using hrest o ho
      cases hf : f a with
      | none => simpa [hf] using ih hids ho
      | some v => simpa [hf, List.lookup_cons, hne] using ih hids ho

theorem lookup_evidence_by_id (hids : (l.map (·.evidence_id)).Nodup) (ref : Identifier) (o : InvestigationEvidence) :
    (collect policy now l).evidence_by_id.lookup ref = some o ↔ o ∈ l ∧ o.evidence_id = ref := by
  have hlist : (collect policy now l).evidence_by_id = l.filterMap fun o => (some o).map (o.evidence_id, ·) := by
    unfold collect
    rw [foldl_evidence_by_id]
    simp [Scan.init]
  rw [hlist]
  constructor
  · intro h
    obtain ⟨l₁, l₂, hsplit, -⟩ := List.lookup_eq_some_iff.mp h
    have hmem : (ref, o) ∈ l.filterMap fun o => (some o).map (o.evidence_id, ·) := by
      rw [hsplit]
      simp
    obtain ⟨a, ha, hpair⟩ := List.mem_filterMap.mp hmem
    obtain ⟨hid, rfl⟩ := Prod.mk.inj (Option.some.inj hpair)
    exact ⟨ha, hid⟩
  · rintro ⟨ho, rfl⟩
    exact lookup_of_mem hids some o ho

theorem lookup_unavailable (hids : (l.map (·.evidence_id)).Nodup) (o : InvestigationEvidence) (ho : o ∈ l) :
    (collect policy now l).unavailable.lookup o.evidence_id = evidenceIssue o policy now := by
  unfold collect
  rw [foldl_unavailable]
  exact lookup_of_mem hids (evidenceIssue · policy now) o ho

theorem referenceReason_eq_none (hids : (l.map (·.evidence_id)).Nodup) (claim : InvestigationClaim)
    (ref : Identifier) : referenceReason (collect policy now l) claim ref = none ↔
      ReferenceHolds policy now l claim ref := by
  have hfind := @lookup_evidence_by_id policy now l hids ref
  unfold referenceReason
  cases hlookup : (collect policy now l).evidence_by_id.lookup ref with
  | none =>
    constructor
    · intro h
      cases h
    · rintro ⟨o, ho, hid, -⟩
      rw [(hfind o).mpr ⟨ho, hid⟩] at hlookup
      cases hlookup
  | some observed =>
    obtain ⟨hmem, rfl⟩ := (hfind observed).mp hlookup
    -- The id names one observation only, so the reference holds when that one does.
    have hholds : ReferenceHolds policy now l claim observed.evidence_id ↔
        Fresh policy now observed ∧ Supports observed.details claim := by
      constructor
      · rintro ⟨o, ho, hid, h⟩
        rw [(hfind o).mpr ⟨ho, hid⟩] at hlookup
        cases hlookup
        exact h
      · exact fun h => ⟨observed, hmem, rfl, h⟩
    rw [hholds, ← evidenceIssue_eq_none, ← supportedClaim_eq_some]
    simp only [lookup_unavailable hids observed hmem]
    cases hissue : evidenceIssue observed policy now with
    | none => simp
    | some issue => simp

theorem decideClaim_accepted (hids : (l.map (·.evidence_id)).Nodup) (selected : ClaimProposal) :
    (decideClaim (collect policy now l) selected).accepted = true ↔
      ∀ ref ∈ selected.evidence_refs, ReferenceHolds policy now l selected.claim ref := by
  simp only [decideClaim, List.isEmpty_iff, List.filterMap_eq_nil_iff, Option.map_eq_none_iff,
    List.mem_insertionSort, referenceReason_eq_none hids]

theorem decideClaim_citations (hids : (l.map (·.evidence_id)).Nodup) (selected : ClaimProposal)
    (c : Citation) (hc : c ∈ (decideClaim (collect policy now l) selected).citations) :
    ∃ o ∈ l, c = cite o.evidence_id o ∧ Fresh policy now o ∧ Supports o.details selected.claim := by
  simp only [decideClaim, List.mem_filterMap] at hc
  obtain ⟨ref, -, hc⟩ := hc
  split at hc
  · cases hc
  · rename_i hreason
    obtain ⟨o, ho, rfl, hfresh, hsupports⟩ := (referenceReason_eq_none hids _ _).mp hreason
    rw [(lookup_evidence_by_id hids _ o).mpr ⟨ho, rfl⟩] at hc
    exact ⟨o, ho, (Option.some.inj hc).symm, hfresh, hsupports⟩

end Lookup

/-! ## What is missing and what conflicts -/

section Ledger

variable (policy : FreshnessPolicy) (now : Time) (l : List InvestigationEvidence)

theorem hasFresh_congr {p q : EvidenceDetails → Prop} (h : ∀ d, p d ↔ q d) :
    HasFresh policy now l p ↔ HasFresh policy now l q := by
  simp only [HasFresh, h]

theorem hasFresh_or (p q : EvidenceDetails → Prop) : HasFresh policy now l (fun d => p d ∨ q d) ↔
      HasFresh policy now l p ∨ HasFresh policy now l q := by
  simp only [HasFresh, and_or_left, exists_or]

theorem collect_claims_iff (c : InvestigationClaim) (d : EvidenceDetails) (h : Supports d c) :
    (collect policy now l).claims c ≠ [] ↔ HasFresh policy now l (· = d) := by
  rw [collect_claims_ne_nil]
  refine hasFresh_congr policy now l fun e => ⟨fun he => ?_, fun he => he ▸ h⟩
  cases h <;> cases he <;> rfl

/-- There is fresh evidence of the three kinds, with clear words. -/
theorem missingMaterial_eq_nil : missingMaterial (collect policy now l) = [] ↔
      HasFresh policy now l (· = .orderSnapshot) ∧
      HasFresh policy now l (∃ status, · = .logisticsObservation status) ∧
      HasFresh policy now l (∃ assertion, · = .buyerStatement assertion) ∧
      HasFresh policy now l (fun d => d = .logisticsObservation .delivered ∨ d = .logisticsObservation .inTransit) ∧
      HasFresh policy now l fun d => d = .buyerStatement .notReceived ∨ d = .buyerStatement .received := by
  have hkind : ∀ kind : SourceKind, kind ∈ (collect policy now l).available_kinds ↔
      HasFresh policy now l (·.kind = kind) := by
    intro kind
    rw [mem_collect_available_kinds]
    rfl
  have horder := hkind .orderLedger
  have hcarrier := hkind .carrier
  have hbuyer := hkind .buyerChannel
  rw [hasFresh_congr policy now l (q := (· = .orderSnapshot)) (fun d => by cases d <;> simp [EvidenceDetails.kind])]
    at horder
  rw [hasFresh_congr policy now l (q := (∃ status, · = .logisticsObservation status))
    (fun d => by cases d <;> simp [EvidenceDetails.kind])] at hcarrier
  rw [hasFresh_congr policy now l (q := (∃ assertion, · = .buyerStatement assertion))
    (fun d => by cases d <;> simp [EvidenceDetails.kind])] at hbuyer
  simp only [hasFresh_or, ← collect_claims_iff policy now l _ _ .delivered,
    ← collect_claims_iff policy now l _ _ .inTransit,
    ← collect_claims_iff policy now l _ _ .notReceived,
    ← collect_claims_iff policy now l _ _ .received, ← horder, ← hcarrier, ← hbuyer]
  unfold missingMaterial
  simp only [List.append_eq_nil_iff, List.filterMap_eq_nil_iff, List.mem_cons, forall_eq_or_imp]
  grind

theorem mem_evidenceConflicts (kind : ConflictKind) :
    (∃ conflict ∈ evidenceConflicts (collect policy now l), conflict.kind = kind) ↔
      HasFresh policy now l (· = .buyerStatement .notReceived) ∧ HasFresh policy now l (· = match kind with
          | .carrierBuyerDisagreement => .logisticsObservation .delivered
          | .buyerStatementsDisagree => .buyerStatement .received) := by
  have hdelivered := collect_claims_iff policy now l _ _ .delivered
  have hnot := collect_claims_iff policy now l _ _ .notReceived
  have hreceived := collect_claims_iff policy now l _ _ .received
  have hpairs : (∃ conflict ∈ evidenceConflicts (collect policy now l), conflict.kind = kind) ↔
      ∃ pair ∈ conflictPairs, pair.2.2 = kind ∧ (collect policy now l).claims pair.1 ≠ [] ∧
        (collect policy now l).claims pair.2.1 ≠ [] := by
    simp only [evidenceConflicts, List.mem_filterMap]
    constructor
    · rintro ⟨conflict, ⟨pair, hpair, hconflict⟩, rfl⟩
      split_ifs at hconflict with hclaims
      cases hconflict
      exact ⟨pair, hpair, rfl, hclaims⟩
    · rintro ⟨pair, hpair, rfl, hclaims⟩
      exact ⟨_, ⟨pair, hpair, if_pos hclaims⟩, rfl⟩
  rw [hpairs]
  cases kind
  · simp [conflictPairs, ← hdelivered, ← hnot, and_comm]
  · simp [conflictPairs, ← hreceived, ← hnot, and_comm]

theorem evidenceConflicts_ne_nil : evidenceConflicts (collect policy now l) ≠ [] ↔ Conflicting policy now l := by
  have hcarrier := mem_evidenceConflicts policy now l .carrierBuyerDisagreement
  have hbuyer := mem_evidenceConflicts policy now l .buyerStatementsDisagree
  unfold Conflicting
  rw [and_or_left, ← hcarrier, ← hbuyer]
  constructor
  · intro hne
    obtain ⟨conflict, hmem⟩ := List.exists_mem_of_ne_nil _ hne
    cases hkind : conflict.kind with
    | carrierBuyerDisagreement => exact .inl ⟨conflict, hmem, hkind⟩
    | buyerStatementsDisagree => exact .inr ⟨conflict, hmem, hkind⟩
  · rintro (⟨_, hmem, -⟩ | ⟨_, hmem, -⟩) <;> exact List.ne_nil_of_mem hmem

end Ledger

/-! ## The assessment -/

section Assessment

variable (expected : InvestigationScope) (registered_sources : Identifier → Option SourceKind)
  (policy : FreshnessPolicy) (now : Time) (observations : List InvestigationEvidence)

theorem sortById_perm : (sortById observations).Perm observations := List.perm_insertionSort _ _

theorem hasFresh_perm {l l' : List InvestigationEvidence} (h : l.Perm l')
    (p : EvidenceDetails → Prop) : HasFresh policy now l p ↔ HasFresh policy now l' p := by
  simp only [HasFresh, h.mem_iff]

theorem Authorized.perm {expected : InvestigationScope} {registered_sources : Identifier → Option SourceKind}
    {l l' : List InvestigationEvidence} (hperm : l.Perm l') (h : Authorized expected registered_sources l) :
    Authorized expected registered_sources l' where
  in_scope o ho := h.in_scope o (hperm.mem_iff.mpr ho)
  registered o ho := h.registered o (hperm.mem_iff.mpr ho)
  distinct_ids := (hperm.map _).nodup_iff.mp h.distinct_ids
  distinct_events := (hperm.map _).nodup_iff.mp h.distinct_events

theorem assessInvestigation_eq_ok (proposal : InvestigationProposal) (result : InvestigationAssessment) :
    assessInvestigation expected proposal observations registered_sources policy now = .ok result ↔
      Authorized expected registered_sources observations ∧
        conclude expected proposal policy now (collect policy now (sortById observations)) =
          result := by
  have hperm := sortById_perm observations
  have hscan := fun s => scan_eq_ok policy now expected registered_sources (sortById observations)
    .init s List.nodup_nil List.nodup_nil
  unfold assessInvestigation
  simp only [ok_iff, hscan]
  constructor
  · rintro ⟨s, ⟨hscope, hregistered, hids, hevents, rfl⟩, hresult⟩
    exact ⟨Authorized.perm hperm ⟨hscope, hregistered, hids, hevents⟩, hresult⟩
  · rintro ⟨hauth, hresult⟩
    have hsorted := hauth.perm hperm.symm
    exact ⟨_, ⟨hsorted.in_scope, hsorted.registered, hsorted.distinct_ids, hsorted.distinct_events, rfl⟩, hresult⟩

theorem conclude_disposition (proposal : InvestigationProposal) (s : Scan) :
    let result := conclude expected proposal policy now s
    let refused := ∃ selected ∈ proposal.claims, (decideClaim s selected).accepted = false
    (result.disposition = .humanReview ↔ evidenceConflicts s ≠ [] ∨ refused) ∧
      (result.disposition = .recommendationReady ↔ missingMaterial s = [] ∧ evidenceConflicts s = [] ∧ ¬refused) := by
  simp only [conclude, dispositionOf, List.any_map, List.any_eq_true, Function.comp_apply, Bool.not_eq_true']
  split_ifs with hreview hmissing <;> grind

theorem refused_iff (hids : (observations.map (·.evidence_id)).Nodup) (proposal : InvestigationProposal) :
    (∃ selected ∈ proposal.claims,
      (decideClaim (collect policy now (sortById observations)) selected).accepted = false) ↔
      ReferenceFails policy now observations proposal := by
  have hperm := sortById_perm observations
  have hids' := (hperm.map (·.evidence_id)).nodup_iff.mpr hids
  have hholds : ∀ claim ref, ReferenceHolds policy now (sortById observations) claim ref ↔
      ReferenceHolds policy now observations claim ref := by
    intro claim ref
    simp only [ReferenceHolds, hperm.mem_iff]
  unfold ReferenceFails
  simp only [← Bool.not_eq_true, decideClaim_accepted hids', hholds]
  simp only [not_forall, exists_prop]

theorem conflicting_iff : evidenceConflicts (collect policy now (sortById observations)) ≠ [] ↔
    Conflicting policy now observations := by
  rw [evidenceConflicts_ne_nil]
  simp only [Conflicting, hasFresh_perm policy now (sortById_perm observations)]

/-- **The evidence gate.** On an authorized ledger the assessment recommends exactly when ledger and proposal are
ready, and asks for review exactly when fresh observations conflict or a cited reference fails. -/
theorem assessInvestigation_spec (proposal : InvestigationProposal)
    (h : Authorized expected registered_sources observations) : ∃ result,
      assessInvestigation expected proposal observations registered_sources policy now =
        .ok result ∧
      (result.disposition = .recommendationReady ↔ Ready policy now observations proposal) ∧
      (result.disposition = .humanReview ↔
        Conflicting policy now observations ∨ ReferenceFails policy now observations proposal) ∧
      ∀ decision ∈ result.decisions, ∀ c ∈ decision.citations,
        ∃ o ∈ observations, c = cite o.evidence_id o ∧ Fresh policy now o := by
  have hperm := sortById_perm observations
  have hids := (hperm.map (·.evidence_id)).nodup_iff.mpr h.distinct_ids
  obtain ⟨hreview, hready⟩ := conclude_disposition expected policy now proposal
    (collect policy now (sortById observations))
  have hconflict := conflicting_iff policy now observations
  have hrefused := refused_iff policy now observations h.distinct_ids proposal
  refine ⟨_, (assessInvestigation_eq_ok _ _ _ _ _ _ _).mpr ⟨h, rfl⟩, ?_, ?_, ?_⟩
  · rw [hready, missingMaterial_eq_nil, ← not_ne_iff, hconflict, hrefused]
    simp only [hasFresh_perm policy now hperm, ReferenceFails]
    constructor
    · rintro ⟨⟨horder, hcarrier, hbuyer, hclear, hclear'⟩, hconsistent, hrefs⟩
      refine ⟨horder, hcarrier, hbuyer, hclear, hclear', hconsistent, fun selected hs ref hr => ?_⟩
      exact by_contra fun hfails => hrefs ⟨selected, hs, ref, hr, hfails⟩
    · rintro ⟨horder, hcarrier, hbuyer, hclear, hclear', hconsistent, hrefs⟩
      refine ⟨⟨horder, hcarrier, hbuyer, hclear, hclear'⟩, hconsistent, ?_⟩
      rintro ⟨selected, hs, ref, hr, hfails⟩
      exact hfails (hrefs selected hs ref hr)
  · rw [hreview, hconflict, hrefused]
  · intro decision hdecision c hc
    obtain ⟨selected, -, rfl⟩ := List.mem_map.mp hdecision
    obtain ⟨o, ho, hcite, hfresh, -⟩ := decideClaim_citations hids selected c hc
    exact ⟨o, hperm.mem_iff.mp ho, hcite, hfresh⟩

def sampleObservation (evidence_id : Identifier) (details : EvidenceDetails) : InvestigationEvidence where
  tenant_id := ⟨"tenant-1", Eq.refl true⟩
  case_id := ⟨"case-1", Eq.refl true⟩
  order_id := ⟨"order-1", Eq.refl true⟩
  evidence_id := evidence_id
  source_id := ⟨"source-1", Eq.refl true⟩
  source_event_id := evidence_id
  observed_at := 0
  received_at := 0
  original := ⟨⟨"artifact-1", Eq.refl true⟩,
    ⟨"0000000000000000000000000000000000000000000000000000000000000000", Eq.refl true⟩, "text",
    by decide⟩
  revoked_at := none
  chronological := by simp
  details := details

/-- The gate on one buyer statement from a registered buyer channel. -/
theorem assessInvestigation_spec_buyer :
    let o := sampleObservation ⟨"evidence-1", Eq.refl true⟩ (.buyerStatement .notReceived)
    let proposal : InvestigationProposal :=
      ⟨[⟨.buyerReportedNotReceived, [o.evidence_id], by decide, by decide⟩], by decide, by decide⟩
    let age : PositiveInt := ⟨60, by decide, by decide⟩
    let policy : FreshnessPolicy := ⟨⟨"policy-1", Eq.refl true⟩, age, age, age, age⟩
    ∃ result, assessInvestigation o.toInvestigationScope proposal [o]
        (fun _ => some .buyerChannel) policy 0 = .ok result ∧
      (result.disposition = .recommendationReady ↔ Ready policy 0 [o] proposal) ∧
      (result.disposition = .humanReview ↔ Conflicting policy 0 [o] ∨ ReferenceFails policy 0 [o] proposal) ∧
      ∀ decision ∈ result.decisions, ∀ c ∈ decision.citations,
        ∃ o' ∈ [o], c = cite o'.evidence_id o' ∧ Fresh policy 0 o' := by
  intro o proposal age policy
  exact assessInvestigation_spec _ _ policy 0 [o] proposal
    ⟨by simp, by simp [o, sampleObservation, sourceKind], by simp, by simp⟩

theorem hasFresh_mono {l l' : List InvestigationEvidence} (hsub : ∀ o ∈ l, o ∈ l')
    (p : EvidenceDetails → Prop) (h : HasFresh policy now l p) : HasFresh policy now l' p := by
  obtain ⟨o, ho, hfresh⟩ := h
  exact ⟨o, hsub o ho, hfresh⟩

/-- **The model cannot hide evidence.** What is missing, conflicts or is unavailable, and whether the assessment
raises, do not depend on the proposal; further observations keep every kind of conflict. -/
theorem assessInvestigation_proposal_independent : (∀ p q : InvestigationProposal,
      (assessInvestigation expected p observations registered_sources policy now).map
          (fun r => (r.missing, r.conflicts, r.unavailable)) =
        (assessInvestigation expected q observations registered_sources policy now).map
          (fun r => (r.missing, r.conflicts, r.unavailable))) ∧
    ∀ p r, assessInvestigation expected p observations registered_sources policy now = .ok r →
      ∀ extra ledger, ledger.Perm (observations ++ extra) →
        (∀ o ∈ extra, o.toInvestigationScope = expected) →
        (∀ o ∈ extra, registered_sources o.source_id = some (sourceKind o)) →
        (ledger.map (·.evidence_id)).Nodup → (ledger.map (·.source_event)).Nodup →
        ∀ q, ∃ r', assessInvestigation expected q ledger registered_sources policy now = .ok r' ∧
          (∀ conflict ∈ r.conflicts, ∃ conflict' ∈ r'.conflicts, conflict'.kind = conflict.kind) ∧
          (r.conflicts ≠ [] → r'.disposition = .humanReview) := by
  refine ⟨?_, ?_⟩
  · intro p q
    unfold assessInvestigation
    cases scan expected registered_sources policy now .init (sortById observations) <;> rfl
  · intro p r hassess extra ledger hledger hscope hregistered hids hevents q
    obtain ⟨hauth, rfl⟩ := (assessInvestigation_eq_ok _ _ _ _ _ _ _).mp hassess
    have hmem : ∀ o, o ∈ ledger ↔ o ∈ observations ∨ o ∈ extra := fun o => by
      rw [hledger.mem_iff, List.mem_append]
    have hauth' : Authorized expected registered_sources ledger :=
      ⟨fun o ho => ((hmem o).mp ho).elim (hauth.in_scope o) (hscope o),
        fun o ho => ((hmem o).mp ho).elim (hauth.registered o) (hregistered o), hids, hevents⟩
    have hsub : ∀ o ∈ sortById observations, o ∈ sortById ledger := fun o ho =>
      (sortById_perm ledger).mem_iff.mpr
        ((hmem o).mpr (.inl ((sortById_perm observations).mem_iff.mp ho)))
    have hkeep : ∀ conflict ∈ evidenceConflicts (collect policy now (sortById observations)),
        ∃ conflict' ∈ evidenceConflicts (collect policy now (sortById ledger)),
          conflict'.kind = conflict.kind := by
      intro conflict hconflict
      obtain ⟨hnot, hother⟩ :=
        (mem_evidenceConflicts policy now _ conflict.kind).mp ⟨conflict, hconflict, rfl⟩
      exact (mem_evidenceConflicts policy now _ _).mpr
        ⟨hasFresh_mono policy now hsub _ hnot, hasFresh_mono policy now hsub _ hother⟩
    refine ⟨_, (assessInvestigation_eq_ok _ _ _ _ _ _ _).mpr ⟨hauth', rfl⟩, hkeep, fun hne => ?_⟩
    obtain ⟨conflict, hconflict⟩ := List.exists_mem_of_ne_nil _ hne
    obtain ⟨conflict', hconflict', -⟩ := hkeep conflict hconflict
    exact (conclude_disposition expected policy now q _).1.mpr
      (.inl (List.ne_nil_of_mem hconflict'))

/-- A conflict between two buyer statements survives a third. -/
theorem assessInvestigation_proposal_independent_buyer :
    let o := sampleObservation ⟨"evidence-1", Eq.refl true⟩ (.buyerStatement .notReceived)
    let o' := sampleObservation ⟨"evidence-2", Eq.refl true⟩ (.buyerStatement .received)
    let o'' := sampleObservation ⟨"evidence-3", Eq.refl true⟩ (.buyerStatement .unclear)
    let proposal : InvestigationProposal :=
      ⟨[⟨.buyerReportedNotReceived, [o.evidence_id], by decide, by decide⟩], by decide, by decide⟩
    let age : PositiveInt := ⟨60, by decide, by decide⟩
    let policy : FreshnessPolicy := ⟨⟨"policy-1", Eq.refl true⟩, age, age, age, age⟩
    ∃ r, assessInvestigation o.toInvestigationScope proposal [o, o'] (fun _ => some .buyerChannel)
        policy 0 = .ok r ∧ r.conflicts ≠ [] ∧
      ∀ q, ∃ r', assessInvestigation o.toInvestigationScope q [o, o', o'']
          (fun _ => some .buyerChannel) policy 0 = .ok r' ∧
        (∀ conflict ∈ r.conflicts, ∃ conflict' ∈ r'.conflicts, conflict'.kind = conflict.kind) ∧
        (r.conflicts ≠ [] → r'.disposition = .humanReview) := by
  intro o o' o'' proposal age policy
  have hauth : Authorized o.toInvestigationScope (fun _ => some .buyerChannel) [o, o'] :=
    ⟨by decide, by decide, by decide, by decide⟩
  have hage : totalSeconds 0 ≤ ((60 : ℕ) : ℚ) :=
    (totalSeconds_le_iff 0 60 (by decide)).mpr (by decide)
  have hassess := (assessInvestigation_eq_ok _ _ policy 0 _ proposal _).mpr ⟨hauth, rfl⟩
  refine ⟨_, hassess, (conflicting_iff policy 0 _).mpr ⟨?_, .inr ?_⟩, ?_⟩
  · exact ⟨o, by simp, ⟨le_rfl, rfl, hage⟩, rfl⟩
  · exact ⟨o', by simp, ⟨le_rfl, rfl, hage⟩, rfl⟩
  · exact (assessInvestigation_proposal_independent _ _ policy 0 _).2 proposal _ hassess [o'']
      [o, o', o''] (.refl _) (by decide) (by decide) (by decide) (by decide)

/-! ## The order of what is handed in -/

/-- What is sorted by distinct ids does not depend on its order. -/
theorem insertionSort_congr {α : Type} (key : α → Identifier) {l l' : List α} (hperm : l.Perm l')
    (hkeys : (l.map key).Nodup) :
    (l.insertionSort fun a b => key a ≤ key b) = l'.insertionSort fun a b => key a ≤ key b := by
  have hsame := (List.perm_insertionSort (fun a b => key a ≤ key b) l).trans
    (hperm.trans (List.perm_insertionSort (fun a b => key a ≤ key b) l').symm)
  have hsorted : ∀ l : List α, (l.insertionSort fun a b => key a ≤ key b).Pairwise fun a b => key a ≤ key b :=
    List.pairwise_insertionSort fun a b => (key a).val ≤ (key b).val
  refine hsame.eq_of_pairwise (fun a b ha hb hab hba => ?_) (hsorted l) (hsorted l')
  rw [List.mem_insertionSort] at ha hb
  exact List.inj_on_of_nodup_map hkeys ha (hperm.mem_iff.mpr hb) (Identifier.ext (le_antisymm hab hba))

theorem assessInvestigation_perm {proposal : InvestigationProposal} {result : InvestigationAssessment}
    {observations' : List InvestigationEvidence} (hperm : observations.Perm observations')
    (h : assessInvestigation expected proposal observations registered_sources policy now = .ok result) :
    assessInvestigation expected proposal observations' registered_sources policy now = .ok result := by
  obtain ⟨hauth, hresult⟩ := (assessInvestigation_eq_ok _ _ _ _ _ _ _).mp h
  refine (assessInvestigation_eq_ok _ _ _ _ _ _ _).mpr ⟨hauth.perm hperm, ?_⟩
  have hsorted : sortById observations = sortById observations' :=
    insertionSort_congr (fun o : InvestigationEvidence => o.evidence_id) hperm hauth.distinct_ids
  rw [← hsorted]
  exact hresult

theorem decideClaim_congr (s : Scan) {selected selected' : ClaimProposal} (hclaim : selected.claim = selected'.claim)
    (hrefs : selected.evidence_refs.Perm selected'.evidence_refs) :
    decideClaim s selected = decideClaim s selected' := by
  have hsorted : selected.evidence_refs.insertionSort (· ≤ ·) = selected'.evidence_refs.insertionSort (· ≤ ·) :=
    insertionSort_congr id hrefs (by simpa using selected.unique_references)
  unfold decideClaim
  rw [hsorted, hclaim]

theorem conclude_perm (s : Scan) {proposal proposal' : InvestigationProposal}
    (hperm : proposal.claims.Perm proposal'.claims) : conclude expected proposal' policy now s =
      { conclude expected proposal policy now s with decisions := proposal'.claims.map (decideClaim s) } := by
  unfold conclude dispositionOf
  simp only [(hperm.map (decideClaim s)).any_eq]

/-- **The order does not matter** of the observations and of the references of a claim; to permute the claims permutes
the decisions along with them. -/
theorem assessment_order_independent (proposal : InvestigationProposal) :
    let assess (proposal : InvestigationProposal) (observations : List InvestigationEvidence) :=
      assessInvestigation expected proposal observations registered_sources policy now
    (∀ observations', observations.Perm observations' → ∀ result,
      assess proposal observations = .ok result ↔ assess proposal observations' = .ok result) ∧
    (∀ proposal' : InvestigationProposal, List.Forall₂ (fun selected selected' : ClaimProposal =>
        selected.claim = selected'.claim ∧ selected.evidence_refs.Perm selected'.evidence_refs)
        proposal.claims proposal'.claims →
      assess proposal' observations = assess proposal observations) ∧
    ∀ proposal' : InvestigationProposal, proposal.claims.Perm proposal'.claims →
      ((∃ result, assess proposal observations = .ok result) ↔ ∃ result, assess proposal' observations = .ok result) ∧
      ∃ decide : ClaimProposal → ClaimDecision, ∀ result, assess proposal observations = .ok result →
        result.decisions = proposal.claims.map decide ∧
        assess proposal' observations = .ok { result with decisions := proposal'.claims.map decide } := by
  refine ⟨fun observations' hperm result => ?_, fun proposal' hrefs => ?_, fun proposal' hperm => ⟨?_, ?_⟩⟩
  · exact ⟨assessInvestigation_perm expected registered_sources policy now observations hperm,
      assessInvestigation_perm expected registered_sources policy now observations' hperm.symm⟩
  · have hdecisions : ∀ s, proposal'.claims.map (decideClaim s) = proposal.claims.map (decideClaim s) := by
      intro s
      refine (List.forall₂_eq_eq_eq ▸ List.forall₂_map_left_iff.mpr (List.forall₂_map_right_iff.mpr ?_) :
        proposal.claims.map (decideClaim s) = proposal'.claims.map (decideClaim s)).symm
      exact hrefs.imp fun _ _ hsame => decideClaim_congr s hsame.1 hsame.2
    unfold assessInvestigation conclude
    simp only [hdecisions]
  · simp only [assessInvestigation_eq_ok, exists_and_left, exists_eq', and_true]
  · refine ⟨decideClaim (collect policy now (sortById observations)), fun result hok => ?_⟩
    obtain ⟨hauth, rfl⟩ := (assessInvestigation_eq_ok _ _ _ _ _ _ _).mp hok
    refine ⟨rfl, (assessInvestigation_eq_ok _ _ _ _ _ _ _).mpr ⟨hauth, ?_⟩⟩
    exact conclude_perm expected policy now _ hperm

/-- Two statements of the buyer, handed in the other way round. -/
theorem assessment_order_independent_buyer :
    let o := sampleObservation ⟨"evidence-1", Eq.refl true⟩ (.buyerStatement .notReceived)
    let o' := sampleObservation ⟨"evidence-2", Eq.refl true⟩ (.buyerStatement .received)
    let claims : List ClaimProposal := [⟨.buyerReportedNotReceived, [o.evidence_id], by decide, by decide⟩,
      ⟨.buyerReportedReceived, [o'.evidence_id], by decide, by decide⟩]
    let age : PositiveInt := ⟨60, by decide, by decide⟩
    let policy : FreshnessPolicy := ⟨⟨"policy-1", Eq.refl true⟩, age, age, age, age⟩
    let assess (proposal : InvestigationProposal) (observations : List InvestigationEvidence) :=
      assessInvestigation o.toInvestigationScope proposal observations (fun _ => some .buyerChannel) policy 0
    ∃ result, assess ⟨claims, by decide, by decide⟩ [o, o'] = .ok result ∧
      assess ⟨claims, by decide, by decide⟩ [o', o] = .ok result ∧
      ∃ result', assess ⟨claims.reverse, by decide, by decide⟩ [o, o'] = .ok result' := by
  intro o o' claims age policy assess
  have hauth : Authorized o.toInvestigationScope (fun _ => some .buyerChannel) [o, o'] :=
    ⟨by decide, by decide, by decide, by decide⟩
  have hassess := (assessInvestigation_eq_ok _ _ policy 0 _ ⟨claims, by decide, by decide⟩ _).mpr ⟨hauth, rfl⟩
  obtain ⟨hobservations, -, hclaims⟩ := assessment_order_independent o.toInvestigationScope
    (fun _ => some .buyerChannel) policy 0 [o, o'] ⟨claims, by decide, by decide⟩
  refine ⟨_, hassess, (hobservations [o', o] (.swap _ _ _) _).mp hassess, ?_⟩
  exact (hclaims ⟨claims.reverse, by decide, by decide⟩ (List.reverse_perm _).symm).1.mp ⟨_, hassess⟩

end Assessment

end Aftercare.Investigation
