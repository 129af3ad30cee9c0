import Aftercare.Ops.WalArchive

/-!
# What the scan for holes finds

`gaps` never asks how many segments a log holds, so a hole that reaches up to the end of a log is not a gap.
`gaps_exact_iff` says that the scan misses nothing else, and `covered_iff` what an archive that passes every check
holds of the WAL that a backup needs.
-/

namespace Aftercare.Ops

open Relational Ordered

/-! ## Positions -/

namespace Segment

variable {a b : Segment} {size : SegmentSize}

theorem not_before_self (a : Segment) : ¬a.Before a := by
  unfold Before
  omega

theorem before_iff_index_lt (ha : a.segno < segmentsPerLog size)
    (hb : b.segno < segmentsPerLog size) : a.Before b ↔ a.index size < b.index size := by
  unfold Before index
  rcases Nat.lt_trichotomy a.log b.log with h | h | h
  · have hlog := Nat.mul_le_mul_right (segmentsPerLog size) h
    rw [Nat.succ_mul] at hlog
    omega
  · rw [h]
    omega
  · have hlog := Nat.mul_le_mul_right (segmentsPerLog size) h
    rw [Nat.succ_mul] at hlog
    omega

/-- The position that follows is the next number, or the next log. -/
theorem index_succ_iff (ha : a.segno < segmentsPerLog size) (hb : b.segno < segmentsPerLog size) :
    b.index size = a.index size + 1 ↔ (b.log = a.log ∧ b.segno = a.segno + 1) ∨
        (b.log = a.log + 1 ∧ b.segno = 0 ∧ a.segno + 1 = segmentsPerLog size) := by
  unfold index
  rcases Nat.lt_trichotomy a.log b.log with h | h | h
  · have hnext := Nat.mul_le_mul_right (segmentsPerLog size) h
    rw [Nat.succ_mul] at hnext
    by_cases hlog : b.log = a.log + 1
    · rw [hlog, Nat.succ_mul]
      omega
    · have hfar := Nat.mul_le_mul_right (segmentsPerLog size) (show a.log + 2 ≤ b.log by omega)
      rw [Nat.succ_mul, Nat.succ_mul] at hfar
      omega
  · rw [h]
    omega
  · have hlog := Nat.mul_le_mul_right (segmentsPerLog size) h
    rw [Nat.succ_mul] at hlog
    omega

end Segment

theorem adjacent_iff {a b : Segment} : adjacent a b = true ↔
    (b.log = a.log ∧ b.segno = a.segno + 1) ∨ (b.log = a.log + 1 ∧ b.segno = 0) := by
  unfold adjacent
  split_ifs with h
  · simp [h]
  · simp [h]

theorem segmentHolding_lt (lsn : ℕ) (size : SegmentSize) : (segmentHolding lsn size).2 < segmentsPerLog size := by
  have hle : bitLength size.bytes - 1 ≤ 32 := by
    obtain ⟨-, hmax, -⟩ := size.legal
    have hlog : Nat.log2 size.bytes < 31 := by
      by_cases hzero : size.bytes = 0
      · rw [hzero]
        decide
      · refine (Nat.log2_lt hzero).mpr (lt_of_le_of_lt hmax ?_)
        decide
    unfold bitLength
    split_ifs <;> omega
  have hlow : lsn &&& lowBits < 2 ^ 32 := lt_of_le_of_lt Nat.and_le_right (by decide)
  unfold segmentHolding segmentsPerLog
  dsimp only
  rw [Nat.shiftRight_eq_div_pow, Nat.shiftLeft_eq, one_mul]
  refine Nat.div_lt_of_lt_mul ?_
  rw [← Nat.pow_add, logShift, Nat.add_sub_cancel' hle]
  exact hlow

/-! ## The segments of a timeline -/

namespace ArchiveInventory

variable {inventory : ArchiveInventory} {timeline : ℕ} {size : SegmentSize}

theorem nodup_timelines (inventory : ArchiveInventory) : inventory.timelines.Nodup :=
  (List.perm_insertionSort _ _).nodup_iff.mpr inventory.distinct

theorem segmentsOf_mem (h : timeline ∈ inventory.timelines) :
    (timeline, inventory.segmentsOf timeline) ∈ inventory.per_timeline := by
  obtain ⟨e, he, rfl⟩ := List.mem_map.mp ((List.mem_insertionSort _).mp h)
  unfold segmentsOf
  rw [lookup_of_mem_entries inventory.distinct he]
  exact he

theorem segmentsOf_sorted (h : timeline ∈ inventory.timelines) :
    (inventory.segmentsOf timeline).Pairwise Segment.Before :=
  inventory.sorted _ (segmentsOf_mem h)

theorem gaps_eq_nil_iff {segment_bytes : Option SegmentSize} :
    inventory.gaps segment_bytes = [] ↔ ∀ timeline ∈ inventory.timelines,
      ∀ p ∈ (inventory.segmentsOf timeline).consecutivePairs, adjacent p.1 p.2 = true := by
  unfold gaps
  rw [List.flatMap_eq_nil_iff]
  refine forall₂_congr fun timeline _ => ?_
  rw [List.filterMap_eq_nil_iff]
  refine forall₂_congr fun p _ => ?_
  unfold gapBetween
  split_ifs with h
  · simp [h]
  · simp [h]

theorem gaps_of_timeline {segment_bytes : Option SegmentSize} (h : timeline ∈ inventory.timelines) :
    (inventory.gaps segment_bytes).filter (fun gap => gap.timeline = timeline) =
      (inventory.segmentsOf timeline).consecutivePairs.filterMap (gapBetween segment_bytes timeline) := by
  refine filter_flatMap_key Gap.timeline (fun k gap hgap => ?_) inventory.nodup_timelines h
  obtain ⟨p, -, hp⟩ := List.mem_filterMap.mp hgap
  unfold gapBetween at hp
  split_ifs at hp
  cases hp
  rfl

/-- The segments that the gaps of a timeline say are missing. -/
def missingOn (inventory : ArchiveInventory) (size : SegmentSize) (timeline : ℕ) : ℤ :=
  (((inventory.gaps (some size)).filter fun gap => gap.timeline = timeline).map
    fun gap => gap.missing.getD 0).sum

theorem missingOn_eq (h : timeline ∈ inventory.timelines) : inventory.missingOn size timeline =
      ((inventory.segmentsOf timeline).consecutivePairs.map fun p =>
        if adjacent p.1 p.2 then 0 else (p.2.index size : ℤ) - p.1.index size - 1).sum := by
  unfold missingOn
  rw [gaps_of_timeline h]
  induction (inventory.segmentsOf timeline).consecutivePairs with
  | nil => rfl
  | cons p pairs ih =>
    rw [List.map_cons, List.sum_cons, ← ih]
    by_cases hadj : adjacent p.1 p.2 = true
    · have hgap : gapBetween (some size) timeline p = none := by simp [gapBetween, hadj]
      rw [List.filterMap_cons_none hgap, if_pos hadj, zero_add]
    · obtain ⟨gap, hgap, hmissing⟩ : ∃ gap, gapBetween (some size) timeline p = some gap ∧
          gap.missing = some ((p.2.index size : ℤ) - p.1.index size - 1) := by
        simp [gapBetween, hadj]
      rw [List.filterMap_cons_some hgap, List.map_cons, List.sum_cons, if_neg hadj, hmissing]
      rfl

/-- Where the next log begins, the last segment of the log before is there. -/
def LogsFull (inventory : ArchiveInventory) (size : SegmentSize) (timeline : ℕ) : Prop :=
  ∀ p ∈ (inventory.segmentsOf timeline).consecutivePairs,
    p.2.log = p.1.log + 1 → p.2.segno = 0 → p.1.segno + 1 = segmentsPerLog size

theorem mem_segments_of_pair (h : timeline ∈ inventory.timelines) {p : Segment × Segment}
    (hp : p ∈ (inventory.segmentsOf timeline).consecutivePairs) :
    p.1 ∈ inventory.segments ∧ p.2 ∈ inventory.segments := by
  obtain ⟨h1, h2⟩ := mem_of_mem_consecutivePairs hp
  exact ⟨List.mem_flatMap.mpr ⟨timeline, h, h1⟩, List.mem_flatMap.mpr ⟨timeline, h, h2⟩⟩

/-- Neighbours are in order, and one apart when a log that ends between them is full. -/
theorem neighbours_spec (hsize : ∀ s ∈ inventory.segments, s.segno < segmentsPerLog size)
    (h : timeline ∈ inventory.timelines) {p : Segment × Segment}
    (hp : p ∈ (inventory.segmentsOf timeline).consecutivePairs) : p.1.index size < p.2.index size ∧
      (p.2.index size = p.1.index size + 1 ↔ adjacent p.1 p.2 = true ∧
        (p.2.log = p.1.log + 1 → p.2.segno = 0 → p.1.segno + 1 = segmentsPerLog size)) := by
  obtain ⟨h1, h2⟩ := mem_segments_of_pair h hp
  have hbefore : p.1.Before p.2 := rel_of_mem_consecutivePairs (segmentsOf_sorted h) hp
  refine ⟨(Segment.before_iff_index_lt (hsize _ h1) (hsize _ h2)).mp hbefore, ?_⟩
  rw [Segment.index_succ_iff (hsize _ h1) (hsize _ h2), adjacent_iff]
  omega

theorem missingOn_eq_iff (hsize : ∀ s ∈ inventory.segments, s.segno < segmentsPerLog size)
    (h : timeline ∈ inventory.timelines) {oldest newest : Segment}
    (holdest : (inventory.segmentsOf timeline).head? = some oldest)
    (hnewest : (inventory.segmentsOf timeline).getLast? = some newest) :
    inventory.missingOn size timeline = newest.index size - oldest.index size + 1 -
        (inventory.segmentsOf timeline).length ↔
      inventory.LogsFull size timeline := by
  have hsum : ((inventory.segmentsOf timeline).consecutivePairs.map fun p =>
      (p.2.index size : ℤ) - p.1.index size - 1).sum =
      newest.index size - oldest.index size + 1 - (inventory.segmentsOf timeline).length := by
    obtain ⟨rest, hlist⟩ := List.head?_eq_some_iff.mp holdest
    rw [hlist] at hnewest ⊢
    rw [List.getLast?_eq_some_getLast (List.cons_ne_nil oldest rest), Option.some.injEq] at hnewest
    rw [← hnewest]
    exact sum_distances (fun s : Segment => (s.index size : ℤ)) oldest rest
  rw [missingOn_eq h, ← hsum, sum_unless_eq_iff]
  · refine forall₂_congr fun p hp => ?_
    obtain ⟨hlt, hsucc⟩ := neighbours_spec hsize h hp
    rw [adjacent_iff] at hsucc ⊢
    omega
  · intro p hp _
    have hlt := (neighbours_spec hsize h hp).1
    omega

/-- The positions of full logs are consecutive exactly when neighbours are adjacent. -/
theorem consecutive_iff (hsize : ∀ s ∈ inventory.segments, s.segno < segmentsPerLog size)
    (h : timeline ∈ inventory.timelines) (hfull : inventory.LogsFull size timeline) :
    Consecutive (fun s => (s.index size : ℤ)) (inventory.segmentsOf timeline) ↔
      ∀ p ∈ (inventory.segmentsOf timeline).consecutivePairs, adjacent p.1 p.2 = true := by
  have hsorted : (inventory.segmentsOf timeline).Pairwise fun a b => (a.index size : ℤ) < b.index size := by
    refine (segmentsOf_sorted h).imp_of_mem fun {a b} ha hb hbefore => ?_
    have ha' : a ∈ inventory.segments := List.mem_flatMap.mpr ⟨timeline, h, ha⟩
    have hb' : b ∈ inventory.segments := List.mem_flatMap.mpr ⟨timeline, h, hb⟩
    exact_mod_cast (Segment.before_iff_index_lt (hsize a ha') (hsize b hb')).mp hbefore
  rw [← isChain_succ_iff hsorted, ← forall_consecutivePairs_iff]
  refine forall₂_congr fun p hp => ?_
  have hcast : (p.2.index size : ℤ) = p.1.index size + 1 ↔ p.2.index size = p.1.index size + 1 := by
    omega
  rw [hcast, (neighbours_spec hsize h hp).2]
  exact and_iff_left (hfull p hp)

end ArchiveInventory

/-- **What the scan misses.** There are no gaps exactly when the positions of each timeline are consecutive, and the
missing segments are all counted, if and only if no log ends early. -/
theorem gaps_exact_iff (inventory : ArchiveInventory) (size : SegmentSize)
    (hsize : ∀ s ∈ inventory.segments, s.segno < segmentsPerLog size) :
    ((inventory.gaps (some size) = [] ↔ ∀ timeline ∈ inventory.timelines,
        Consecutive (fun s => (s.index size : ℤ)) (inventory.segmentsOf timeline)) ∧
      ∀ timeline ∈ inventory.timelines, ∀ oldest newest, (inventory.segmentsOf timeline).head? = some oldest →
        (inventory.segmentsOf timeline).getLast? = some newest →
        inventory.missingOn size timeline = newest.index size - oldest.index size + 1 -
          (inventory.segmentsOf timeline).length) ↔
      ∀ timeline ∈ inventory.timelines, ∀ p ∈ (inventory.segmentsOf timeline).consecutivePairs,
        p.2.log = p.1.log + 1 → p.2.segno = 0 → p.1.segno + 1 = segmentsPerLog size := by
  constructor
  · rintro ⟨-, hmissing⟩ timeline h
    -- A timeline that is listed has a segment, so it has an oldest and a newest one.
    have hne := inventory.nonempty _ (ArchiveInventory.segmentsOf_mem h)
    have holdest := List.head?_eq_some_head hne
    have hnewest := List.getLast?_eq_some_getLast hne
    exact (ArchiveInventory.missingOn_eq_iff hsize h holdest hnewest).mp
      (hmissing timeline h _ _ holdest hnewest)
  · intro hfull
    refine ⟨?_, fun timeline h oldest newest holdest hnewest => ?_⟩
    · rw [ArchiveInventory.gaps_eq_nil_iff]
      exact forall₂_congr fun timeline h =>
        (ArchiveInventory.consecutive_iff hsize h (hfull timeline h)).symm
    · exact (ArchiveInventory.missingOn_eq_iff hsize h holdest hnewest).mpr (hfull timeline h)

/-! ### Archives of 16MB segments -/

def segments16MB : SegmentSize := ⟨16777216, by decide⟩

/-- Two segments of a log with one missing between them. -/
def brokenArchive : ArchiveInventory :=
  inventoryOf "archive" [⟨"000000010000000000000010", true⟩, ⟨"000000010000000000000012", true⟩]
    (by decide)

/-- The sixth segment of a log, and the first one of the next. -/
def truncatedArchive : ArchiveInventory :=
  inventoryOf "archive" [⟨"000000010000000000000005", true⟩, ⟨"000000010000000100000000", true⟩]
    (by decide)

theorem gaps_exact_iff_broken : (∀ s ∈ brokenArchive.segments, s.segno < segmentsPerLog segments16MB) ∧
      brokenArchive.missingOn segments16MB 1 = 1 := by
  have hsize : ∀ s ∈ brokenArchive.segments, s.segno < segmentsPerLog segments16MB := by
    with_unfolding_all decide
  have hfull : ∀ timeline ∈ brokenArchive.timelines, ∀ p ∈ (brokenArchive.segmentsOf timeline).consecutivePairs,
        p.2.log = p.1.log + 1 → p.2.segno = 0 → p.1.segno + 1 = segmentsPerLog segments16MB := by
    with_unfolding_all decide
  have hexact := (gaps_exact_iff brokenArchive segments16MB hsize).mpr hfull
  refine ⟨hsize, ?_⟩
  rw [hexact.2 1 (by with_unfolding_all decide) ⟨1, 0, 16⟩ ⟨1, 0, 18⟩ (by with_unfolding_all decide) (by with_unfolding_all decide)]
  with_unfolding_all decide

/-- The rest of a log is missing, and the scan finds no gap. -/
theorem gaps_miss_log_end : (∀ s ∈ truncatedArchive.segments, s.segno < segmentsPerLog segments16MB) ∧
      truncatedArchive.gaps (some segments16MB) = [] ∧
      truncatedArchive.missingOn segments16MB 1 = 0 ∧
      ¬Consecutive (fun s => (s.index segments16MB : ℤ)) (truncatedArchive.segmentsOf 1) := by
  refine ⟨by with_unfolding_all decide, by with_unfolding_all decide, by with_unfolding_all decide, fun h => ?_⟩
  have hsegs : truncatedArchive.segmentsOf 1 = [⟨1, 0, 5⟩, ⟨1, 1, 0⟩] := by with_unfolding_all decide
  rw [hsegs] at h
  obtain ⟨r, hr, hindex⟩ := h ⟨1, 0, 5⟩ (by simp) ⟨1, 1, 0⟩ (by simp) 6 (by decide) (by decide)
  simp only [List.mem_cons, List.not_mem_nil, or_false] at hr
  rcases hr with rfl | rfl
  · exact absurd hindex (by decide)
  · exact absurd hindex (by decide)

/-! ## Coverage -/

theorem evaluateArchive_covered {inventory : ArchiveInventory} {archiver : Option ArchiverState}
    {manifest : Option Manifest} {budget : ArchiveBudget} {stated : Option SegmentSize} {checked_at : Time}
    {report : ArchiveReport} {c : Coverage}
    (h : evaluateArchive inventory archiver manifest budget stated checked_at = .ok report)
    (hok : report.ok = true) (hc : report.coverage = some c) : inventory.gaps report.segment_bytes = [] ∧
      ∃ m text size lsn newest, manifest = some m ∧ m.wal_lsn = some text ∧
        report.segment_bytes = some size ∧ parseLsn text = .ok lsn ∧
        inventory.newest = some newest ∧ c = coverageAt newest m.name text (segmentHolding lsn size) := by
  unfold evaluateArchive at h
  simp only [ok_iff, Prod.exists] at h
  obtain ⟨-, effective, source, -, covered, hcovered, rfl⟩ := h
  simp only at hc
  subst hc
  simp only [ArchiveReport.ok, contiguityVerdict, List.cons_append, List.all_cons, Bool.and_eq_true,
    List.isEmpty_iff] at hok
  refine ⟨hok.2.1, ?_⟩
  unfold coverage at hcovered
  split at hcovered
  · cases hcovered
  · rename_i m
    split at hcovered
    · rename_i text size htext
      rw [bind_eq_ok] at hcovered
      obtain ⟨lsn, hlsn, hnewest⟩ := hcovered
      split at hnewest
      · cases hnewest
      · rename_i newest hlast
        cases hnewest
        exact ⟨m, text, size, lsn, newest, rfl, htext, rfl, hlsn, hlast, rfl⟩
    · cases hcovered

/-- The archive holds every segment from `needed` up to `newest`. -/
def ArchiveInventory.HoldsFrom (inventory : ArchiveInventory) (size : SegmentSize) (timeline : ℕ)
    (needed newest : Segment) : Prop :=
  ∀ s : Segment, s.segno < segmentsPerLog size → ¬s.Before needed → ¬newest.Before s →
    ∃ archived ∈ inventory.segmentsOf timeline, archived.log = s.log ∧ archived.segno = s.segno

/-- `a` is not past `b` on a timeline. -/
def Segment.UpTo (a b : Segment) : Prop := (a.log = b.log ∧ a.segno = b.segno) ∨ a.Before b

theorem Segment.upTo_of {a b : Segment} (h : a = b ∨ a.Before b) : a.UpTo b := by
  rcases h with rfl | h
  · exact .inl ⟨rfl, rfl⟩
  · exact .inr h

theorem ArchiveInventory.upTo_neighbours {inventory : ArchiveInventory} {timeline : ℕ}
    (h : timeline ∈ inventory.timelines) {p : Segment × Segment} {s : Segment}
    (hp : p ∈ (inventory.segmentsOf timeline).consecutivePairs)
    (hs : s ∈ inventory.segmentsOf timeline) : s.UpTo p.1 ∨ p.2.UpTo s := by
  rcases not_between_neighbours (segmentsOf_sorted h) hp hs with heq | hlt | heq | hlt
  · exact .inl (Segment.upTo_of (.inl heq))
  · exact .inl (.inr hlt)
  · exact .inr (Segment.upTo_of (.inl heq.symm))
  · exact .inr (.inr hlt)

/-- It does not begin past the segment, and no log ends early after it. -/
theorem ArchiveInventory.holdsFrom_iff {inventory : ArchiveInventory} {size : SegmentSize}
    {timeline : ℕ} {oldest newest needed : Segment} (h : timeline ∈ inventory.timelines)
    (hadj : ∀ p ∈ (inventory.segmentsOf timeline).consecutivePairs, adjacent p.1 p.2 = true)
    (holdest : (inventory.segmentsOf timeline).head? = some oldest)
    (hnewest : (inventory.segmentsOf timeline).getLast? = some newest)
    (hneeded : needed.segno < segmentsPerLog size) (hreach : ¬newest.Before needed) :
    inventory.HoldsFrom size timeline needed newest ↔
      ¬needed.Before oldest ∧ ∀ p ∈ (inventory.segmentsOf timeline).consecutivePairs,
        needed.Before p.2 → p.2.log = p.1.log + 1 → p.2.segno = 0 → segmentsPerLog size ≤ p.1.segno + 1 := by
  have hsorted := segmentsOf_sorted h
  have hlast : newest ∈ inventory.segmentsOf timeline := List.mem_of_getLast? hnewest
  obtain ⟨rest, hlist⟩ := List.head?_eq_some_iff.mp holdest
  obtain ⟨front, hfront⟩ := List.getLast?_eq_some_iff.mp hnewest
  have hstart : ∀ s ∈ inventory.segmentsOf timeline, oldest.UpTo s := by
    intro s hs
    rw [hlist] at hsorted hs
    refine Segment.upTo_of ?_
    exact (List.mem_cons.mp hs).imp Eq.symm (List.rel_of_pairwise_cons hsorted)
  have hend : ∀ s ∈ inventory.segmentsOf timeline, s.UpTo newest := by
    intro s hs
    rw [hfront] at hsorted hs
    refine Segment.upTo_of ?_
    rcases List.mem_append.mp hs with hs | hs
    · exact .inr ((List.pairwise_append.mp hsorted).2.2 s hs newest (List.mem_singleton_self _))
    · exact .inl (List.mem_singleton.mp hs)
  constructor
  · intro hholds
    obtain ⟨held, hheld, hlog, hsegno⟩ := hholds needed hneeded needed.not_before_self hreach
    have hfirst := hstart held hheld
    refine ⟨?_, fun p hp hafter hnext hzero => ?_⟩
    · unfold Segment.UpTo Segment.Before at *
      omega
    · by_contra hfull
      -- The segment after the first of the two is needed, and nothing stands between them.
      have hneeds := upTo_neighbours h hp hheld
      have hlater := hend p.2 (mem_of_mem_consecutivePairs hp).2
      obtain ⟨missing, hmissing, hlog', hsegno'⟩ := hholds ⟨0, p.1.log, p.1.segno + 1⟩ (by simpa using hfull)
          (by unfold Segment.UpTo Segment.Before at *; dsimp only; omega)
          (by unfold Segment.UpTo Segment.Before at *; dsimp only; omega)
      have hbetween := upTo_neighbours h hp hmissing
      dsimp only at hlog' hsegno'
      unfold Segment.UpTo Segment.Before at hbetween
      omega
  · rintro ⟨hbegin, hfull⟩ s hs hfrom hto
    by_contra hnone
    -- A segment that is not there is passed between two neighbours, which are adjacent.
    have hmiss : ∀ a ∈ inventory.segmentsOf timeline, ¬(a.log = s.log ∧ a.segno = s.segno) :=
      fun a ha heq => hnone ⟨a, ha, heq⟩
    have holdest' : oldest ∈ inventory.segmentsOf timeline := by
      rw [hlist]
      exact List.mem_cons_self
    have hbefore : oldest.Before s := by
      have hne := hmiss oldest holdest'
      unfold Segment.Before at *
      omega
    rw [hlist] at hlast
    obtain ⟨p, hp, hp1, hp2⟩ := exists_crossing (P := fun a => a.Before s) hbefore hlast hto
    rw [← hlist] at hp
    have hne := hmiss p.2 (mem_of_mem_consecutivePairs hp).2
    have hnext := adjacent_iff.mp (hadj p hp)
    have hlog := hfull p hp
    unfold Segment.Before at *
    omega

/-- **What a covered backup has.** When an archive and its coverage are ok, it holds every segment from the backup on
exactly when its oldest one is not past that position and, from there on, no log ends early. -/
theorem covered_iff (inventory : ArchiveInventory) (archiver : Option ArchiverState) (manifest : Option Manifest)
    (budget : ArchiveBudget) (stated : Option SegmentSize) (checked_at : Time) (report : ArchiveReport)
    (c : Coverage) (h : evaluateArchive inventory archiver manifest budget stated checked_at = .ok report)
    (hok : report.ok = true) (hc : report.coverage = some c) (hcok : c.ok = true) :
    ∃ m text size lsn timeline oldest newest, manifest = some m ∧ m.wal_lsn = some text ∧
      parseLsn text = .ok lsn ∧ report.segment_bytes = some size ∧
      inventory.newestTimeline = some timeline ∧ inventory.newest = some newest ∧
      (inventory.segmentsOf timeline).head? = some oldest ∧
      let needed : Segment := ⟨0, (segmentHolding lsn size).1, (segmentHolding lsn size).2⟩
      (inventory.HoldsFrom size timeline needed newest ↔
        ¬needed.Before oldest ∧ ∀ p ∈ (inventory.segmentsOf timeline).consecutivePairs,
          needed.Before p.2 → p.2.log = p.1.log + 1 → p.2.segno = 0 →
            segmentsPerLog size ≤ p.1.segno + 1) := by
  obtain ⟨hgaps, m, text, size, lsn, newest, hm, htext, hsize, hlsn, hnewest, rfl⟩ :=
    evaluateArchive_covered h hok hc
  have hlast := hnewest
  unfold ArchiveInventory.newest at hlast
  rw [Option.bind_eq_bind, Option.bind_eq_some_iff] at hlast
  obtain ⟨timeline, htimeline, hlast⟩ := hlast
  have hmem : timeline ∈ inventory.timelines := List.mem_of_getLast? htimeline
  have hne := inventory.nonempty _ (ArchiveInventory.segmentsOf_mem hmem)
  have holdest := List.head?_eq_some_head hne
  have hadj := ArchiveInventory.gaps_eq_nil_iff.mp hgaps timeline hmem
  have hreach : ¬newest.Before ⟨0, (segmentHolding lsn size).1, (segmentHolding lsn size).2⟩ :=
    of_decide_eq_true hcok
  exact ⟨m, text, size, lsn, timeline, _, newest, hm, htext, hlsn, hsize, htimeline, hnewest, holdest,
    ArchiveInventory.holdsFrom_iff hmem hadj holdest hlast (segmentHolding_lt lsn size) hreach⟩

/-- Its position is in the seventeenth segment of the first log. -/
def sampleManifest : Manifest := ⟨"dump", some "0/10000000"⟩

def noBudget : ArchiveBudget := ⟨none, by simp⟩

/-- The seventeenth and the eighteenth segment of the first log. -/
def soundArchive : ArchiveInventory :=
  inventoryOf "archive" [⟨"000000010000000000000010", true⟩, ⟨"000000010000000000000011", true⟩]
    (by decide)

/-- An archive that begins long after the position of the manifest. -/
def lateArchive : ArchiveInventory :=
  inventoryOf "archive" [⟨"000000010000000000000020", true⟩] (by decide)

/-- The report of an archive without gaps that covers the manifest. -/
def coveringReport (segments : ℕ) (oldest newest : String) : ArchiveReport where
  segment_bytes := some segments16MB
  segment_bytes_source := "as stated"
  timeline_count := 1
  segment_count := segments
  oldest_segment := some oldest
  newest_segment := some newest
  gaps := []
  coverage := some ⟨"dump", "0/10000000", true, "000000000000000000000010", newest⟩
  lag_seconds := none
  verdicts :=
    [⟨"the archived segments form an unbroken chain", true, none, none⟩,
      ⟨"the archive reaches the newest backup", true, none, none⟩]
  problems := []

theorem covered_iff_sound :
    evaluateArchive soundArchive none (some sampleManifest) noBudget (some segments16MB) 0 =
        .ok (coveringReport 2 "000000010000000000000010" "000000010000000000000011") ∧
      soundArchive.HoldsFrom segments16MB 1 ⟨0, 0, 16⟩ ⟨1, 0, 17⟩ := by
  have heval : evaluateArchive soundArchive none (some sampleManifest) noBudget
      (some segments16MB) 0 =
        .ok (coveringReport 2 "000000010000000000000010" "000000010000000000000011") := by
    with_unfolding_all decide
  refine ⟨heval, ?_⟩
  obtain ⟨m, text, size, lsn, timeline, oldest, newest, hm, htext, hlsn, hsize, htimeline, hnewest,
    holdest, hiff⟩ := covered_iff soundArchive none (some sampleManifest) noBudget
      (some segments16MB) 0 _ _ heval (by decide) rfl (by decide)
  cases hm
  cases htext
  cases hsize
  cases hlsn.symm.trans (show parseLsn "0/10000000" = .ok 0x10000000 by decide)
  cases htimeline.symm.trans (show soundArchive.newestTimeline = some 1 by with_unfolding_all decide)
  cases hnewest.symm.trans (show soundArchive.newest = some ⟨1, 0, 17⟩ by with_unfolding_all decide)
  cases holdest.symm.trans
    (show (soundArchive.segmentsOf 1).head? = some ⟨1, 0, 16⟩ by with_unfolding_all decide)
  exact hiff.mpr (by with_unfolding_all decide)

/-- The report is ok, and the needed segment is not in the archive. -/
theorem covered_unreachable :
    evaluateArchive lateArchive none (some sampleManifest) noBudget (some segments16MB) 0 =
        .ok (coveringReport 1 "000000010000000000000020" "000000010000000000000020") ∧
      (coveringReport 1 "000000010000000000000020" "000000010000000000000020").ok = true ∧
      segmentHolding 0x10000000 segments16MB = (0, 16) ∧
      lateArchive.newestTimeline = some 1 ∧ lateArchive.newest = some ⟨1, 0, 32⟩ ∧
      ¬lateArchive.HoldsFrom segments16MB 1 ⟨0, 0, 16⟩ ⟨1, 0, 32⟩ := by
  refine ⟨by with_unfolding_all decide, by decide, by with_unfolding_all decide, by with_unfolding_all decide, by with_unfolding_all decide, ?_⟩
  intro h
  obtain ⟨archived, harchived, hlog, hsegno⟩ := h ⟨0, 0, 16⟩ (by with_unfolding_all decide) (by decide) (by decide)
  have hsegments : lateArchive.segmentsOf 1 = [⟨1, 0, 32⟩] := by with_unfolding_all decide
  rw [hsegments, List.mem_singleton] at harchived
  rw [harchived] at hsegno
  exact absurd hsegno (by decide)

end Aftercare.Ops
