import Aftercare.System.Waiting

/-!
# Runs that are parked

A parked Run is to go on when its time has come or its review is decided. `transition` looks at the lease only of a
Run that is running, so a parked Run moves whatever claim is presented (`transition_of_parked`). The rows of the
Runs can be read back in every history (`History.tidy`).
-/

namespace Aftercare

open Relational

variable {gate : Gate}

/-! ## Rows that read back -/

/-- What `RunRecord` asks for beyond the table. -/
structure RunRow.Tidy (r : RunRow) : Prop where
  predecessor : r.predecessor_run_id ≠ some r.run_id
  lease : r.state ≠ .running → r.lease_owner = none ∧ r.lease_until = none
  wait : r.state.waiting = false → r.wait_id = none ∧ r.wait_generation = none
  generation : ∀ g ∈ r.wait_generation, 1 ≤ g

variable {r : RunRow} {t stop : Time} {db db' : Database}

theorem RunRow.coherent_iff (hcheck : r.check = true) : r.coherentState = true ↔ r.Tidy := by
  have hrunning := RunRow.lease_of_check hcheck
  simp only [RunRow.check, Bool.and_eq_true, beq_iff_eq, decide_eq_true_eq, Option.all_eq_true] at hcheck
  obtain ⟨⟨⟨⟨-, hwait⟩, havailable⟩, htoken⟩, hgeneration⟩ := hcheck
  have hwaiting : r.state.waiting = true → r.wait_id.isSome = true ∧ r.wait_generation.isSome = true := by
    intro h
    rw [h] at hwait
    exact Bool.and_eq_true_iff.mp hwait.symm
  simp only [RunRow.coherentState, Bool.and_eq_true, bne_iff_ne, ne_eq, beq_iff_eq,
    decide_eq_true_eq, Option.all_eq_true, havailable, htoken]
  constructor
  · rintro ⟨⟨⟨⟨⟨hpred, hl⟩, hw⟩, -⟩, -⟩, hg⟩
    refine ⟨hpred, fun h => ?_, fun h => ?_, fun g hgm => (hg g hgm).1⟩
    · simpa [h] using hl
    · simpa [h] using hw
  · rintro ⟨hpred, hl, hw, hg⟩
    refine ⟨⟨⟨⟨⟨hpred, ?_⟩, ?_⟩, trivial⟩, trivial⟩, fun g hgm => ⟨hg g hgm, hgeneration g hgm⟩⟩
    · split_ifs with h
      · obtain ⟨howner, huntil, hpositive⟩ := hrunning h
        have hone : 1 ≤ r.fencing_token := hpositive
        simp [howner, huntil, hone]
      · simpa using hl h
    · split_ifs with h
      · simpa using hwaiting h
      · simpa using hw (by simpa using h)

theorem RunRecord.tidy_initialRow (run : RunRecord) : run.initialRow.Tidy := by
  refine ⟨?_, fun _ => ⟨rfl, rfl⟩, fun _ => ⟨rfl, rfl⟩, fun g hg => by cases hg⟩
  have hcoherent := run.coherent
  simp only [RunRow.coherentState, Bool.and_eq_true, bne_iff_ne, ne_eq] at hcoherent
  exact hcoherent.1.1.1.1.1

theorem RunRow.Tidy.move {r' : RunRow} (hr : r.Tidy) (h : RunMove t r r') : r'.Tidy := by
  have hwait := hr.wait h.not_waiting.1
  cases h with
  | claim owner leaseUntil h =>
    exact ⟨hr.predecessor, fun hne => absurd rfl hne, fun _ => hwait, hr.generation⟩
  | wake hstate hdue =>
    exact ⟨hr.predecessor, fun _ => hr.lease (by rw [hstate]; decide), fun _ => hwait, hr.generation⟩
  | review target hstate htarget =>
    refine ⟨hr.predecessor, fun _ => ⟨rfl, rfl⟩, fun _ => ?_, fun g hg => ?_⟩
    · simp [RunRow.moved]
    · simp [RunRow.moved] at hg

theorem RunRow.Tidy.moved {target : RunState} {args : TransitionArgs} (hr : r.Tidy)
    (hbinding : requireBinding target args.wait_id args.wait_generation = .ok ()) :
    (r.moved target args.wait_id args.wait_generation args.available_at).Tidy := by
  refine ⟨hr.predecessor, fun _ => ⟨rfl, rfl⟩, fun hnot => ?_, fun g hg => ?_⟩
  · have hnot' : target.waiting = false := hnot
    simp [RunRow.moved, hnot']
  · simp only [requireBinding, RunRow.moved] at hbinding hg
    split_ifs at hbinding hg with hwaiting
    · rw [require_eq_ok] at hbinding
      rw [Option.mem_def.mp hg] at hbinding
      simpa using hbinding.2
    · cases hg

def Database.Tidy (db : Database) : Prop := ∀ r ∈ db.runs.runs.rows, r.Tidy

theorem Database.Tidy.replace {runs : RunStore} {r' : RunRow} (hdb : db.Tidy)
    (h : ReplacesRun db runs r r') (hr' : r'.Tidy) : Database.Tidy { db with runs := runs } := by
  intro x hx
  rcases h.mem hx with rfl | ⟨hx, -⟩
  · exact hr'
  · exact hdb x hx

variable {start : Time}

theorem Write.tidy (hdb : db.Tidy) (h : Write gate start stop db db') : db'.Tidy := by
  cases h <;> try exact hdb
  case createRun runs clk run hclk hcase h =>
    obtain ⟨-, -, hget, -, -⟩ := RunStore.insert_spec h
    intro x hx
    have hx' : runs.runs.get x.key = some x := Table.get_of_mem hx
    rw [hget] at hx'
    split_ifs at hx' with hk
    · cases hx'
      exact run.tidy_initialRow
    · exact hdb x (Table.mem_of_get hx')
  case moveRun hr hmove h =>
    have hevolves : Evolves start _ _ := hmove.evolves
    exact hdb.replace (.of_update hr hevolves.scope h) ((hdb _ (Table.mem_of_get hr)).move hmove)
  case renew runs t leaseUntil r claim ht hr hvalid h =>
    have hreplace : ReplacesRun db runs r { r with lease_until := some leaseUntil } := ⟨rfl, Database.run_extend hr h⟩
    have htidy := hdb r (Table.mem_of_get (Database.run_eq_some.mp hr).1)
    exact hdb.replace hreplace ⟨htidy.predecessor, fun hne => absurd (validOn_iff.mp hvalid).2.1 hne,
      htidy.wait, htidy.generation⟩

theorem Settles.tidy {wait : WaitRecord} (hdb : db.Tidy) (h : Settles start stop wait t db db') : db'.Tidy := by
  obtain ⟨-, -, -, -, hr, -, -, -, -, hrun⟩ := h
  rename_i r _
  have hget := (Database.run_eq_some.mp hr).1
  have htidy := hdb r (Table.mem_of_get hget)
  have hwoken : r.woken.Tidy := ⟨htidy.predecessor, fun _ => ⟨rfl, rfl⟩, fun _ => ⟨rfl, rfl⟩, fun g hg => by cases hg⟩
  exact hdb.replace (.of_update hget rfl hrun) hwoken

theorem Effect.tidy {c : Call} (hdb : db.Tidy) (h : Effect start stop db c db') : db'.Tidy := by
  cases h with
  | resolves c h =>
    cases h with
    | writes h => exact h.invariant Write.tidy hdb
    | settle hprepare hruns hget hopen hwait hsettle hevents =>
      have hsettled := hsettle.tidy (hprepare.invariant Write.tidy hdb)
      unfold Database.Tidy
      rwa [hevents.runs_eq]
  | acts c h =>
    unfold Database.Tidy
    rwa [h.runs_eq]
  | transitions claim target args h =>
    obtain ⟨-, -, hr, -, -, -, -, hbinding, hupdate⟩ := h
    have hget := (Database.run_eq_some.mp hr).1
    exact hdb.replace (.of_update hget rfl hupdate) ((hdb _ (Table.mem_of_get hget)).moved hbinding)
  | saves checkpoint claim h =>
    obtain ⟨checkpoints, -, rfl⟩ := h
    exact hdb

theorem History.tidy [Hashing] {h : List CallTransaction} {t₀ : Time} (hr : History h t₀ db t) : db.Tidy :=
  hr.invariant (fun db _ => db.Tidy) (fun _ hdb => hdb)
    (fun hdb hexec => (exec_effect hexec).tidy hdb) fun r hx => by cases hx

/-! ## Transitions of a parked Run -/

/-- The arguments of a transition that are in order for a parked Run. -/
def Admits (db : Database) (claim : ExecutionClaim) (target : RunState) (args : TransitionArgs) : Prop :=
  (target = .ready ∨ target = .cancelled) ∧ args.versionsAgree = true ∧
    (∃ case, db.cases.get claim.toCaseScope = some case ∧
      args.expected.all (fun version => version = (case.version : ℤ)) = true) ∧
    args.wait_id = none ∧ args.wait_generation = none ∧ args.available_at = none

theorem RunRow.check_moved {target : RunState} (hcheck : r.check = true)
    (htarget : target = .ready ∨ target = .cancelled) (wait_id : Option Identifier) (wait_generation : Option ℕ)
    (available_at : Option Time) : (r.moved target wait_id wait_generation available_at).check = true := by
  simp only [RunRow.check, Bool.and_eq_true] at hcheck
  have htoken := hcheck.1.2
  rcases htarget with rfl | rfl <;> simpa [RunRow.check, RunRow.moved, RunState.waiting] using htoken

/-- A parked Run moves by any claim whose arguments are in order. -/
theorem transition_of_parked {claim : ExecutionClaim} {target : RunState}
    {args : TransitionArgs} (clk : Clock Time) (hdb : db.Tidy)
    (hrun : db.run claim.toRunScope = some r) (hparked : r.state = .retryAt ∨ r.state = .review) :
    (∃ result, transition db clk claim target args = .ok result) ↔ Admits db claim target args := by
  have hget := (Database.run_eq_some.mp hrun).1
  have htidy := hdb r (Table.mem_of_get hget)
  have hcheck : r.check = true := Table.check_of_get hget
  have htargets : r.state.transitions = [.ready, .cancelled] := by
    rcases hparked with h | h <;> rw [h] <;> rfl
  have hrunning : r.state ≠ .running := by
    rcases hparked with h | h <;> rw [h] <;> decide
  simp only [transition, validateTransition, ok_iff, RunRow.record_eq_ok]
  constructor
  · rintro ⟨-, hagree, hnot, case, hcase, hversion, row, hrow, previous, rfl, htarget, -, hbinding, havailability, -⟩
    cases Option.some.inj (hrow.symm.trans hrun)
    rw [htargets, List.mem_pair] at htarget
    have hwaiting : target.waiting = false := by rcases htarget with rfl | rfl <;> rfl
    have hretry : target ≠ .retryAt := by rcases htarget with rfl | rfl <;> decide
    rw [requireBinding, hwaiting, if_neg Bool.false_ne_true, require_eq_ok] at hbinding
    rw [requireAvailability, if_neg hretry, require_eq_ok] at havailability
    exact ⟨htarget, hagree, ⟨case, hcase, hversion⟩, hbinding.1, hbinding.2, havailability⟩
  · rintro ⟨htarget, hagree, ⟨case, hcase, hversion⟩, hid, hgen, havailable⟩
    have hwaiting : target.waiting = false := by rcases htarget with rfl | rfl <;> rfl
    have hretry : target ≠ .retryAt := by rcases htarget with rfl | rfl <;> decide
    have hne : target ≠ .running := by rcases htarget with rfl | rfl <;> decide
    have hbinding : requireBinding target args.wait_id args.wait_generation = .ok () := by
      rw [requireBinding, hwaiting, if_neg Bool.false_ne_true, require_eq_ok]
      exact ⟨hid, hgen⟩
    have havailability : requireAvailability target args.available_at = .ok () := by
      rw [requireAvailability, if_neg hretry, require_eq_ok]
      exact havailable
    -- The update passes the constraints, and the row that it leaves reads back.
    have hmoved := RunRow.check_moved hcheck htarget args.wait_id args.wait_generation args.available_at
    have hkey : (r.moved target args.wait_id args.wait_generation args.available_at).key =
        claim.key := Table.key_of_get hget
    obtain ⟨runs, hupdate⟩ := db.runs.update_total (clk.drop 1) hget hmoved hkey
    obtain ⟨-, -, hafter, -, -⟩ := RunStore.update_spec hget hupdate
    have hreads := (RunRow.coherent_iff hmoved).mpr (htidy.moved hbinding)
    exact ⟨_, hagree, hne, case, hcase, hversion, r, hrun,
      ⟨r, (RunRow.coherent_iff hcheck).mpr htidy⟩, rfl, by simp [htargets, htarget],
      (requireLeaseIfRunning_eq_ok hrun).mpr fun h => absurd h hrunning, hbinding, havailability,
      runs, hupdate, _, (hafter claim.key).trans (if_pos rfl), ⟨_, hreads⟩, rfl, rfl⟩

/-! ## Authority -/

/-- The Run stays, or the claim is its own and its time has come. -/
def LeavesOnAuthority (claim : ExecutionClaim) (r : RunRow) (stop : Time) (db' : Database) : Prop :=
  ∀ r', db'.run r.toRunScope = some r' → r' ≠ r →
    (r.lease_owner = some claim.owner ∧ r.fencing_token = claim.fencing_token.val) ∧
    (r.state = .retryAt → r'.state = .ready → r.available_at.any (· ≤ stop) = true) ∧
    (r.state = .review → r'.state = .ready →
      ∃ review ∈ db'.reviews.rows, review.toRunScope = r.toRunScope ∧ review.decision.isSome = true)

/-- The Run is parked until a time or for a review. -/
def parkedCalls (target : RunState) (available_at : Option Time) : List (Time × Call) :=
  sampleCalls ++ [(3, .transition sampleClaim target ⟨none, none, none, none, available_at⟩)]

def parkedDatabase (target : RunState) (available_at : Option Time) : Database :=
  replay (@exec sampleHashing) Database.empty (parkedCalls target available_at)

def parkedRow (target : RunState) (available_at : Option Time) : RunRow :=
  { sampleRun.toRunRow with state := target, fencing_token := 1, available_at := available_at }

def strangerClaim : ExecutionClaim :=
  ⟨sampleScope, ⟨"worker-2", Eq.refl true⟩, ⟨7, by decide, by decide⟩⟩

end Aftercare
