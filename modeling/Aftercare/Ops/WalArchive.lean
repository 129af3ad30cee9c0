import Aftercare.Domain.Investigation
import Aftercare.Ordered.Groups
import Aftercare.Ordered.Neighbours
import Aftercare.Text.Strings

/-!
# The WAL archive

The checks of `ops/wal_archive.py` on a directory of archived segments. A name counts segments: a timeline, a log
and a number in its log. An `ArchiveInventory` carries what `read_inventory` establishes, that the segments of a
timeline are in strict order. What is only printed is left out.
-/

namespace Aftercare.Ops

open Relational Ordered Text

def logShift : ℕ := 32

def lowBits : ℕ := 0xFFFFFFFF

def minSegmentBytes : ℕ := 1 <<< 20

def maxSegmentBytes : ℕ := 1 <<< 30

/-- What an `OpsError` reports. -/
inductive OpsError
  /-- The directory does not exist. -/
  | missing (directory : String)
  /-- The path is not a directory. -/
  | notDirectory (directory : String)
  /-- The directory cannot be listed. -/
  | unlisted (directory : String)
  /-- No WAL position can be read from the text. -/
  | walPosition (text : String)
  /-- The stated segment size contradicts the one of the server. -/
  | contradiction (stated served : ℕ)
  /-- A lag budget needs a live server. -/
  | unmeasured
deriving DecidableEq, Repr

/-! ## Positions and segments -/

/-- A power of two between 1MB and 1GB. -/
structure SegmentSize where
  bytes : ℕ
  legal : minSegmentBytes ≤ bytes ∧ bytes ≤ maxSegmentBytes ∧ bytes &&& (bytes - 1) = 0
deriving DecidableEq, Repr

def bitLength (n : ℕ) : ℕ := if n = 0 then 0 else Nat.log2 n + 1

def parseLsn (text : String) : Except OpsError ℕ :=
  let part (cs : List Char) : Option ℕ :=
    if 1 ≤ cs.length ∧ cs.length ≤ 8 then hexNumber anyHexDigit cs else none
  let stripped := strip text
  match part (stripped.takeWhile (· ≠ '/')), stripped.dropWhile (· ≠ '/') with
  | some high, _ :: rest =>
    match part rest with
    | some low => .ok (high <<< logShift ||| low)
    | none => .error (.walPosition text)
  | _, _ => .error (.walPosition text)

example : parseLsn "0/16B3748" = .ok 0x16B3748 := by decide

/-- The log and the number of the segment that holds a position. -/
def segmentHolding (lsn : ℕ) (segment_bytes : SegmentSize) : ℕ × ℕ :=
  (lsn >>> logShift, (lsn &&& lowBits) >>> (bitLength segment_bytes.bytes - 1))

def segmentsPerLog (segment_bytes : SegmentSize) : ℕ :=
  1 <<< (logShift - (bitLength segment_bytes.bytes - 1))

structure Segment where
  (timeline log segno : ℕ)
deriving DecidableEq, Repr

namespace Segment

def name (s : Segment) : String := hex8 s.timeline ++ hex8 s.log ++ hex8 s.segno

def index (s : Segment) (segment_bytes : SegmentSize) : ℕ :=
  s.log * segmentsPerLog segment_bytes + s.segno

/-- Three numbers of eight upper-case hexadecimal digits. -/
def parse (name : String) : Option Segment :=
  let cs := name.toList
  if cs.length = 24 then do
    let timeline ← hexNumber upperHexDigit (cs.take 8)
    let log ← hexNumber upperHexDigit ((cs.drop 8).take 8)
    let segno ← hexNumber upperHexDigit (cs.drop 16)
    some ⟨timeline, log, segno⟩
  else none

/-- The order of segments on one timeline, by log and number. -/
def Before (a b : Segment) : Prop := a.log < b.log ∨ (a.log = b.log ∧ a.segno < b.segno)

instance (a b : Segment) : Decidable (a.Before b) := inferInstanceAs (Decidable (_ ∨ _))

/-- The order of `Segment`, by timeline, log and number. -/
def Le (a b : Segment) : Prop :=
  a.timeline < b.timeline ∨ (a.timeline = b.timeline ∧ ¬b.Before a)

instance (a b : Segment) : Decidable (a.Le b) := inferInstanceAs (Decidable (_ ∨ _))

instance : Std.Total Le where
  total a b := by
    unfold Le Before
    omega

instance : IsTrans Segment Le where
  trans a b c hab hbc := by
    unfold Le Before at *
    omega

end Segment

def adjacent (previous following : Segment) : Bool :=
  if following.log = previous.log then following.segno = previous.segno + 1
  else following.log = previous.log + 1 && following.segno = 0

structure Gap where
  timeline : ℕ
  (after before : Segment)
  missing : Option ℤ
deriving DecidableEq, Repr

/-! ## The inventory -/

/-- The dictionary `per_timeline` is the list of its entries. -/
structure ArchiveInventory where
  directory : String
  per_timeline : List (ℕ × List Segment)
  (history_files partial_files : List String)
  other_files : ℕ
  /-- A key stands in the dictionary once. -/
  distinct : (per_timeline.map Prod.fst).Nodup
  /-- The segments of a timeline are sorted, and none is there twice. -/
  sorted : ∀ e ∈ per_timeline, e.2.Pairwise Segment.Before
  /-- They are listed under their own timeline. -/
  labelled : ∀ e ∈ per_timeline, ∀ s ∈ e.2, s.timeline = e.1
  /-- A timeline is listed for a segment of it. -/
  nonempty : ∀ e ∈ per_timeline, e.2 ≠ []

namespace ArchiveInventory

def timelines (inventory : ArchiveInventory) : List ℕ :=
  (inventory.per_timeline.map Prod.fst).insertionSort (· ≤ ·)

/-- `per_timeline[timeline]`. -/
def segmentsOf (inventory : ArchiveInventory) (timeline : ℕ) : List Segment :=
  (inventory.per_timeline.lookup timeline).getD []

def newestTimeline (inventory : ArchiveInventory) : Option ℕ := inventory.timelines.getLast?

def segments (inventory : ArchiveInventory) : List Segment :=
  inventory.timelines.flatMap inventory.segmentsOf

def newest (inventory : ArchiveInventory) : Option Segment := do
  let timeline ← inventory.newestTimeline
  (inventory.segmentsOf timeline).getLast?

def oldest (inventory : ArchiveInventory) : Option Segment := do
  let timeline ← inventory.timelines.head?
  (inventory.segmentsOf timeline).head?

/-- The gap between two neighbours of a timeline, if there is one. -/
def gapBetween (segment_bytes : Option SegmentSize) (timeline : ℕ) (p : Segment × Segment) : Option Gap :=
  if adjacent p.1 p.2 then none
  else some
    { timeline
      after := p.1
      before := p.2
      missing := segment_bytes.map fun size => (p.2.index size : ℤ) - p.1.index size - 1 }

def gaps (inventory : ArchiveInventory) (segment_bytes : Option SegmentSize) : List Gap :=
  inventory.timelines.flatMap fun timeline =>
    (inventory.segmentsOf timeline).consecutivePairs.filterMap (gapBetween segment_bytes timeline)

end ArchiveInventory

/-! ## Reading a directory -/

structure Entry where
  name : String
  is_file : Bool
deriving DecidableEq, Repr

inductive Directory
  | missing
  | notDirectory
  | unlisted
  /-- The entries of a directory have different names. -/
  | listing (entries : List Entry) (distinct : (entries.map Entry.name).Nodup)

/-- The lists of the loop of `read_inventory`. -/
structure Scan where
  per_timeline : List (ℕ × List Segment)
  (history partials : List String)
  other : ℕ

/-- The segment that an entry of the directory is, if it is one. -/
def Entry.segment (entry : Entry) : Option Segment :=
  if entry.is_file ∧ ¬entry.name.endsWith ".history" ∧ ¬entry.name.endsWith ".partial" then
    Segment.parse entry.name
  else none

/-- One iteration of the loop of `read_inventory`. -/
def Scan.add (scan : Scan) (entry : Entry) : Scan :=
  if ¬entry.is_file then { scan with other := scan.other + 1 }
  else if entry.name.endsWith ".history" then
    { scan with history := scan.history ++ [entry.name] }
  else if entry.name.endsWith ".partial" then
    { scan with partials := scan.partials ++ [entry.name] }
  else
    match Segment.parse entry.name with
    | none => { scan with other := scan.other + 1 }
    | some segment =>
      { scan with per_timeline := appendTo segment.timeline segment scan.per_timeline }

/-- The loop of `read_inventory` over the sorted entries. -/
def scanEntries (entries : List Entry) : Scan :=
  (entries.insertionSort fun a b => a.name ≤ b.name).foldl Scan.add ⟨[], [], [], 0⟩

theorem Scan.add_per_timeline (scan : Scan) (entry : Entry) : (scan.add entry).per_timeline =
      match entry.segment with
      | none => scan.per_timeline
      | some segment => appendTo segment.timeline segment scan.per_timeline := by
  unfold Scan.add Entry.segment
  split_ifs <;> split <;> simp_all

theorem foldl_add_per_timeline (entries : List Entry) (parsed : List Segment) (scan : Scan)
    (h : scan.per_timeline = groups Segment.timeline parsed) : (entries.foldl Scan.add scan).per_timeline =
      groups Segment.timeline (parsed ++ entries.filterMap Entry.segment) := by
  induction entries generalizing parsed scan with
  | nil => simpa using h
  | cons entry rest ih =>
    rw [List.foldl_cons]
    have hadd := scan.add_per_timeline entry
    cases hseg : entry.segment with
    | none =>
      rw [hseg] at hadd
      rw [List.filterMap_cons_none hseg]
      exact ih parsed (scan.add entry) (hadd.trans h)
    | some segment =>
      rw [hseg] at hadd
      rw [List.filterMap_cons_some hseg, List.append_cons]
      refine ih (parsed ++ [segment]) (scan.add entry) ?_
      rw [groups_concat, ← h]
      exact hadd

theorem Segment.parse_inj {name name' : String} {s : Segment} (h : parse name = some s)
    (h' : parse name' = some s) : name = name' := by
  unfold parse at h h'
  dsimp only at h h'
  split_ifs at h h' with hlen hlen'
  simp only [Option.bind_eq_bind, Option.bind_eq_some_iff, Option.some.injEq] at h h'
  obtain ⟨timeline, ht, log, hl, segno, hs, rfl⟩ := h
  obtain ⟨timeline', ht', log', hl', segno', hs', heq⟩ := h'
  cases heq
  have htake : name.toList.take 8 = name'.toList.take 8 := hexNumber_inj (by simp [hlen, hlen']) ht ht'
  have hmid : (name.toList.drop 8).take 8 = (name'.toList.drop 8).take 8 := hexNumber_inj (by simp [hlen, hlen']) hl hl'
  have hend : (name.toList.drop 8).drop 8 = (name'.toList.drop 8).drop 8 := by
    rw [List.drop_drop, List.drop_drop]
    exact hexNumber_inj (by simp [hlen, hlen']) hs hs'
  have hdrop : name.toList.drop 8 = name'.toList.drop 8 := by
    rw [← List.take_append_drop 8 (name.toList.drop 8), hmid, hend, List.take_append_drop]
  refine String.toList_inj.mp ?_
  rw [← List.take_append_drop 8 name.toList, htake, hdrop, List.take_append_drop]

theorem Entry.segment_eq_some {entry : Entry} {s : Segment} (h : entry.segment = some s) :
    entry.is_file = true ∧ Segment.parse entry.name = some s := by
  unfold Entry.segment at h
  split_ifs at h with hfile
  exact ⟨hfile.1, h⟩

theorem nodup_segments {entries : List Entry} (h : (entries.map Entry.name).Nodup) :
    (entries.filterMap Entry.segment).Nodup := by
  refine List.Nodup.filterMap (fun a a' s hs hs' => ?_) (List.Nodup.of_map _ h)
  obtain ⟨hfile, hparse⟩ := Entry.segment_eq_some hs
  obtain ⟨hfile', hparse'⟩ := Entry.segment_eq_some hs'
  have hname : a.name = a'.name := Segment.parse_inj hparse hparse'
  cases a
  cases a'
  simp_all

theorem before_of_sorted {l : List Segment} {timeline : ℕ} (hl : ∀ s ∈ l, s.timeline = timeline)
    (hnodup : l.Nodup) : (l.insertionSort Segment.Le).Pairwise Segment.Before := by
  have hperm := List.perm_insertionSort Segment.Le l
  have hsorted : (l.insertionSort Segment.Le).Pairwise Segment.Le := List.pairwise_insertionSort Segment.Le l
  have hdistinct : (l.insertionSort Segment.Le).Nodup := hperm.nodup_iff.mpr hnodup
  refine (hsorted.and hdistinct).imp_of_mem ?_
  intro a b ha hb ⟨hle, hne⟩
  have ha' := hl a (hperm.mem_iff.mp ha)
  have hb' := hl b (hperm.mem_iff.mp hb)
  have hfields : ¬(a.log = b.log ∧ a.segno = b.segno) := by
    rintro ⟨hlog, hsegno⟩
    exact hne (by cases a; cases b; simp_all)
  unfold Segment.Le at hle
  unfold Segment.Before at *
  omega

/-- `read_inventory`, with the segments of each timeline sorted. -/
def sortedTimelines (entries : List Entry) : List (ℕ × List Segment) :=
  (scanEntries entries).per_timeline.map fun e => (e.1, e.2.insertionSort Segment.Le)

theorem sortedTimelines_spec {entries : List Entry} (h : (entries.map Entry.name).Nodup) :
    ((sortedTimelines entries).map Prod.fst).Nodup ∧ ∀ e ∈ sortedTimelines entries, e.2.Pairwise Segment.Before ∧
        (∀ s ∈ e.2, s.timeline = e.1) ∧ e.2 ≠ [] := by
  have hperm := List.perm_insertionSort (fun a b : Entry => a.name ≤ b.name) entries
  have hscan : (scanEntries entries).per_timeline = groups Segment.timeline
      ((entries.insertionSort fun a b => a.name ≤ b.name).filterMap Entry.segment) :=
    foldl_add_per_timeline _ [] ⟨[], [], [], 0⟩ rfl
  have hnodup := nodup_segments (((hperm.map Entry.name).nodup_iff).mpr h)
  obtain ⟨hkeys, hgroups, -⟩ := groups_spec Segment.timeline
    ((entries.insertionSort fun a b => a.name ≤ b.name).filterMap Entry.segment)
  rw [← hscan] at hkeys hgroups
  refine ⟨?_, ?_⟩
  · rw [sortedTimelines, List.map_map]
    exact hkeys
  · intro e he
    obtain ⟨g, hg, rfl⟩ := List.mem_map.mp he
    obtain ⟨hfilter, hne⟩ := hgroups g hg
    have hlabel : ∀ s ∈ g.2, s.timeline = g.1 := by
      intro s hs
      rw [hfilter] at hs
      exact of_decide_eq_true (List.mem_filter.mp hs).2
    have hdistinct : g.2.Nodup := by
      rw [hfilter]
      exact hnodup.filter _
    refine ⟨before_of_sorted hlabel hdistinct, ?_, ?_⟩
    · intro s hs
      exact hlabel s ((List.mem_insertionSort _).mp hs)
    · intro (hnil : g.2.insertionSort Segment.Le = [])
      have hlen := List.length_insertionSort Segment.Le g.2
      rw [hnil] at hlen
      exact hne (List.length_eq_zero_iff.mp hlen.symm)

/-- The inventory of a directory that could be listed. -/
def inventoryOf (path : String) (entries : List Entry) (distinct : (entries.map Entry.name).Nodup) :
    ArchiveInventory where
  directory := path
  per_timeline := sortedTimelines entries
  history_files := (scanEntries entries).history
  partial_files := (scanEntries entries).partials
  other_files := (scanEntries entries).other
  distinct := (sortedTimelines_spec distinct).1
  sorted := fun e he => ((sortedTimelines_spec distinct).2 e he).1
  labelled := fun e he => ((sortedTimelines_spec distinct).2 e he).2.1
  nonempty := fun e he => ((sortedTimelines_spec distinct).2 e he).2.2

def readInventory (path : String) : Directory → Except OpsError ArchiveInventory
  | .missing => .error (.missing path)
  | .notDirectory => .error (.notDirectory path)
  | .unlisted => .error (.unlisted path)
  | .listing entries distinct => .ok (inventoryOf path entries distinct)

/-! ## The report -/

/-- `ArchiverState`: what the server says about its archiver. -/
structure ArchiverState where
  archived_count : ℕ
  last_archived_wal : Option String
  (last_archived_time last_failed_time : Option Time)
  segment_bytes : SegmentSize
deriving DecidableEq, Repr

def ArchiverState.stuckOnFailure (archiver : ArchiverState) : Bool :=
  match archiver.last_failed_time, archiver.last_archived_time with
  | none, _ => false
  | some _, none => true
  | some failed, some archived => decide (failed > archived)

structure ArchiveBudget where
  lag_seconds : Option ℚ
  positive : ∀ limit ∈ lag_seconds, 0 < limit
deriving DecidableEq, Repr

/-- The part of a backup manifest that the check reads. -/
structure Manifest where
  name : String
  wal_lsn : Option String
deriving DecidableEq, Repr

structure Verdict where
  claim : String
  ok : Bool
  (limit_seconds observed_seconds : Option ℚ)
deriving DecidableEq, Repr

structure Coverage where
  (manifest lsn : String)
  ok : Bool
  (needed_segment newest_segment : String)
deriving DecidableEq, Repr

structure ArchiveReport where
  segment_bytes : Option SegmentSize
  segment_bytes_source : String
  (timeline_count segment_count : ℕ)
  (oldest_segment newest_segment : Option String)
  gaps : List Gap
  coverage : Option Coverage
  lag_seconds : Option ℚ
  verdicts : List Verdict
  problems : List String
deriving DecidableEq, Repr

def ArchiveReport.ok (report : ArchiveReport) : Bool :=
  report.problems.isEmpty && report.verdicts.all Verdict.ok

def segmentSize (stated : Option SegmentSize) (archiver : Option ArchiverState) :
    Except OpsError (Option SegmentSize × String) :=
  match stated, archiver.map ArchiverState.segment_bytes with
  | some stated, some served =>
    if stated ≠ served then .error (.contradiction stated.bytes served.bytes)
    else .ok (some served, "from the server")
  | none, some served => .ok (some served, "from the server")
  | some stated, none => .ok (some stated, "as stated")
  | none, none => .ok (none, "unstated")

def contiguityVerdict (gaps : List Gap) : Verdict :=
  ⟨"the archived segments form an unbroken chain", gaps.isEmpty, none, none⟩

def archiverVerdict (archiver : ArchiverState) : Verdict :=
  { claim := "the archiver is completing segments"
    ok :=
      if archiver.last_archived_wal = none ∨ archiver.archived_count = 0 then false
      else !archiver.stuckOnFailure
    limit_seconds := none
    observed_seconds := none }

def lagVerdict (observed : Option ℚ) (limit : ℚ) : Verdict :=
  { claim := "the archive lag is inside the RPO budget"
    ok := observed.any fun lag => decide (lag ≤ limit)
    limit_seconds := some limit
    observed_seconds := observed }

def coverageVerdict (coverage : Coverage) : Verdict :=
  ⟨"the archive reaches the newest backup", coverage.ok, none, none⟩

/-- The coverage of a position by an archive that ends at `newest`. -/
def coverageAt (newest : Segment) (manifest lsn : String) (needed : ℕ × ℕ) : Coverage :=
  let segment : Segment := ⟨0, needed.1, needed.2⟩
  { manifest
    lsn
    -- The comparison of the pairs `(log, segno)`.
    ok := decide ¬newest.Before segment
    needed_segment := segment.name
    newest_segment := newest.name }

def coverage (inventory : ArchiveInventory) (manifest : Option Manifest)
    (segment_bytes : Option SegmentSize) : Except OpsError (Option Coverage) :=
  match manifest with
  | none => .ok none
  | some manifest =>
    match manifest.wal_lsn, segment_bytes with
    | some text, some size => do
      let lsn ← parseLsn text
      match inventory.newest with
      | none => .ok none
      | some newest =>
        .ok (some (coverageAt newest manifest.name text (segmentHolding lsn size)))
    | _, _ => .ok none

def problems (inventory : ArchiveInventory) : List String :=
  let directory := inventory.directory
  let count := inventory.partial_files.length
  let shown := ", ".intercalate (inventory.partial_files.take 3)
  (if inventory.segments.isEmpty then
    ["no WAL segment has been archived into " ++ directory ++
      "; a dump on its own is the only protection this database has"]
  else []) ++
  (if inventory.partial_files.isEmpty then []
  else [toString count ++ " partially copied segment(s) are in the archive (" ++ shown ++
    "); an interrupted copy is not recovery capacity"])

/-- `evaluate_archive`, at the time `checked_at`. -/
def evaluateArchive (inventory : ArchiveInventory) (archiver : Option ArchiverState)
    (manifest : Option Manifest) (budget : ArchiveBudget) (segment_bytes : Option SegmentSize)
    (checked_at : Time) : Except OpsError ArchiveReport := do
  require (¬(budget.lag_seconds.isSome ∧ archiver.isNone)) .unmeasured
  let (effective, source) ← segmentSize segment_bytes archiver
  let gaps := inventory.gaps effective
  let covered ← coverage inventory manifest effective
  let lag := do
    let archiver ← archiver
    let archived ← archiver.last_archived_time
    some (Investigation.totalSeconds (checked_at - archived))
  pure
    { segment_bytes := effective
      segment_bytes_source := source
      timeline_count := inventory.timelines.length
      segment_count := inventory.segments.length
      oldest_segment := inventory.oldest.map Segment.name
      newest_segment := inventory.newest.map Segment.name
      gaps
      coverage := covered
      lag_seconds := lag
      verdicts := contiguityVerdict gaps ::
        (archiver.map archiverVerdict).toList ++ (covered.map coverageVerdict).toList ++
        (budget.lag_seconds.map (lagVerdict lag)).toList
      problems := problems inventory }

end Aftercare.Ops
