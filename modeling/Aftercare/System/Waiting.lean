import Aftercare.System.Settlement

/-!
# Waiting Runs and their waits

A waiting Run should be bound to an open wait of its own, and an active wait should have a Run that waits for it
(`Wakeable`). `transition` looks at no wait, so the invariant holds where transitions heed the waits (`Call.Heeds`),
and not otherwise (`transition_strands_run`).
-/

namespace Aftercare

open Relational

variable {db db' : Database} {r x r' : RunRow} {w wait : WaitRecord} {runs : RunStore}
  {clk : Clock Time} {t stop : Time} {target : RunState} {args : TransitionArgs} {c : Call}

variable {gate : Gate}

/-! ## The invariant -/

def Bound (r : RunRow) (w : WaitRecord) : Prop :=
  w.toRunScope = r.toRunScope ∧ r.wait_id = some w.wait_id ∧
    r.wait_generation = some w.generation.val

instance (r : RunRow) (w : WaitRecord) : Decidable (Bound r w) := inferInstanceAs (Decidable (_ ∧ _))

/-- Waiting Runs and the waits that are open match. -/
structure Wakeable (db : Database) : Prop where
  waiting : ∀ r ∈ db.runs.runs.rows, r.state.waiting = true →
    ∃ w ∈ db.waits.rows, Bound r w ∧ (w.state = .pending ∨ w.state = .active)
  active : ∀ w ∈ db.waits.rows, w.state = .active →
    ∃ r ∈ db.runs.runs.rows, r.state.waiting = true ∧ Bound r w

theorem Database.mem_iff_run : r ∈ db.runs.runs.rows ↔ db.run r.toRunScope = some r := by
  constructor
  · intro hr
    exact Database.run_of_get (Table.get_of_mem hr)
  · intro hr
    exact Table.mem_of_get (Database.run_eq_some.mp hr).1

theorem waitsFor_iff (hscope : w.toRunScope = r.toRunScope) :
    r.waitsFor w.wait_id w.generation.val = true ↔ r.state.waiting = true ∧ Bound r w := by
  simp only [RunRow.waitsFor, Bound, Bool.and_eq_true, beq_iff_eq, and_assoc, hscope, true_and]

theorem Bound.unique {w' : WaitRecord} (h : Bound r w) (h' : Bound r w') (hw : w ∈ db.waits.rows)
    (hw' : w' ∈ db.waits.rows) : w = w' := by
  obtain ⟨hscope, hid, hgen⟩ := h
  obtain ⟨hscope', hid', hgen'⟩ := h'
  refine Table.eq_of_key_eq hw hw' ?_
  have hs : w.toRunScope = w'.toRunScope := hscope.trans hscope'.symm
  have hi : w.wait_id = w'.wait_id := Option.some.inj (hid.symm.trans hid')
  have hg : w.generation.val = w'.generation.val := Option.some.inj (hgen.symm.trans hgen')
  simp only [waitSchema_key, WaitRecord.key, hs, hi, hg]

/-! ## Statements on Runs that do not wait -/

def ReplacesRun (db : Database) (runs : RunStore) (r r' : RunRow) : Prop :=
  r'.toRunScope = r.toRunScope ∧
    ∀ scope, { db with runs := runs }.run scope =
      if scope = r.toRunScope then some r' else db.run scope

theorem ReplacesRun.mem (h : ReplacesRun db runs r r') (hx : x ∈ runs.runs.rows) :
    x = r' ∨ (x ∈ db.runs.runs.rows ∧ x.toRunScope ≠ r.toRunScope) := by
  have hx' : x ∈ { db with runs := runs }.runs.runs.rows := hx
  rw [Database.mem_iff_run, h.2] at hx'
  split_ifs at hx' with hs
  · exact .inl (Option.some.inj hx').symm
  · exact .inr ⟨Database.mem_iff_run.mpr hx', hs⟩

theorem ReplacesRun.mem_of_ne (h : ReplacesRun db runs r r') (hx : x ∈ db.runs.runs.rows)
    (hs : x.toRunScope ≠ r.toRunScope) : x ∈ runs.runs.rows := by
  have hx' := (h.2 x.toRunScope).trans (if_neg hs)
  rw [Database.mem_iff_run.mp hx] at hx'
  exact Database.mem_iff_run.mpr hx'

theorem ReplacesRun.of_update {k : RunKey} {f : RunRow → RunRow} (hr : db.runs.runs.get k = some r)
    (hscope : (f r).toRunScope = r.toRunScope) (h : db.runs.update k f clk = .ok runs) :
    ReplacesRun db runs r (f r) := ⟨hscope, Database.run_update hr hscope h⟩

theorem Wakeable.replaceRun (hdb : Wakeable db) (hr : r ∈ db.runs.runs.rows)
    (h : ReplacesRun db runs r r') (hbefore : r.state.waiting = false)
    (hafter : r'.state.waiting = false) : Wakeable { db with runs := runs } := by
  refine ⟨fun x hx hwaiting => ?_, fun w hw hactive => ?_⟩
  · rcases h.mem hx with rfl | ⟨hx, -⟩
    · rw [hafter] at hwaiting
      cases hwaiting
    · exact hdb.waiting x hx hwaiting
  · obtain ⟨x, hx, hwaiting, hbound⟩ := hdb.active w hw hactive
    refine ⟨x, h.mem_of_ne hx fun hs => ?_, hwaiting, hbound⟩
    have hx' := Database.mem_iff_run.mp hx
    rw [hs, Database.mem_iff_run.mp hr] at hx'
    cases hx'
    rw [hbefore] at hwaiting
    cases hwaiting

theorem RunMove.not_waiting (h : RunMove t r r') : r.state.waiting = false ∧ r'.state.waiting = false := by
  cases h with
  | claim owner leaseUntil h =>
    refine ⟨?_, rfl⟩
    simp only [RunRow.claimable, Bool.or_eq_true, Bool.and_eq_true, beq_iff_eq] at h
    rcases h with h | ⟨h, -⟩ <;> rw [h] <;> rfl
  | wake hstate hdue => exact ⟨by rw [hstate]; rfl, rfl⟩
  | review target hstate htarget =>
    refine ⟨by rw [hstate]; rfl, ?_⟩
    rcases htarget with rfl | rfl <;> rfl

theorem initialRow_not_waiting {run : RunRecord} (h : run.initialRow.check = true) :
    run.initialRow.state.waiting = false := by
  simp only [RunRow.check, Bool.and_eq_true, beq_iff_eq] at h
  exact h.1.1.1.2

theorem Wakeable.insertRun {run : RunRecord} (hdb : Wakeable db)
    (h : db.runs.insert run.initialRow clk = .ok runs) : Wakeable { db with runs := runs } := by
  obtain ⟨hcheck, hfree, hget, -, -⟩ := RunStore.insert_spec h
  refine ⟨fun x hx hwaiting => ?_, fun w hw hactive => ?_⟩
  · have hx' : runs.runs.get x.key = some x := Table.get_of_mem hx
    rw [hget] at hx'
    split_ifs at hx' with hk
    · cases hx'
      rw [initialRow_not_waiting hcheck] at hwaiting
      cases hwaiting
    · exact hdb.waiting x (Table.mem_of_get hx') hwaiting
  · obtain ⟨x, hx, hwaiting, hbound⟩ := hdb.active w hw hactive
    have hx' : db.runs.runs.get x.key = some x := Table.get_of_mem hx
    have hk : x.key ≠ run.initialRow.key := by
      intro hk
      rw [hk, hfree] at hx'
      cases hx'
    exact ⟨x, Table.mem_of_get ((hget x.key).trans ((if_neg hk).trans hx')), hwaiting, hbound⟩

/-! ## Statements on waits -/

theorem Wakeable.registerWait {waits : Table waitSchema} (hdb : Wakeable db) (hstate : wait.state = .pending)
    (h : db.waits.insert wait = .ok waits) : Wakeable { db with waits := waits } := by
  refine ⟨fun r hr hwaiting => ?_, fun w hw hactive => ?_⟩
  · obtain ⟨w, hw, hopen⟩ := hdb.waiting r hr hwaiting
    exact ⟨w, (Table.mem_insert h).mpr (.inl hw), hopen⟩
  · rcases (Table.mem_insert h).mp hw with hw | rfl
    · exact hdb.active w hw hactive
    · cases hstate.symm.trans hactive

theorem Wakeable.activateWait {waits : Table waitSchema} (hdb : Wakeable db)
    (hget : db.waits.get wait.key = some wait) (hr : db.run wait.toRunScope = some r)
    (hwaiting : r.state.waiting = true)
    (hbound : r.wait_id = some wait.wait_id ∧ r.wait_generation = some wait.generation.val)
    (h : db.waits.update wait.key (fun w => { w with state := .active }) = .ok waits) :
    Wakeable { db with waits := waits } := by
  have hscope := (Database.run_eq_some.mp hr).2
  rw [← hscope] at hr
  have hmem := fun w : WaitRecord => Table.mem_update (a := w) hget h
  refine ⟨fun x hx hxwaiting => ?_, fun w hw hactive => ?_⟩
  · obtain ⟨w, hw, hb, hopen⟩ := hdb.waiting x hx hxwaiting
    by_cases hk : w.key = wait.key
    · have heq : w = wait := Table.eq_of_key_eq hw (Table.mem_of_get hget) hk
      subst heq
      exact ⟨_, (hmem _).mpr (.inr rfl), hb, .inr rfl⟩
    · exact ⟨w, (hmem w).mpr (.inl ⟨hw, hk⟩), hb, hopen⟩
  · rcases (hmem w).mp hw with ⟨hw, -⟩ | rfl
    · exact hdb.active w hw hactive
    · exact ⟨r, Database.mem_iff_run.mpr hr, hwaiting, hscope.symm, hbound⟩

variable {start : Time}

theorem Write.wakeable (hdb : Wakeable db) (h : Write gate start stop db db') : Wakeable db' := by
  cases h <;> try exact ⟨hdb.waiting, hdb.active⟩
  case createRun h => exact hdb.insertRun h
  case moveRun hr hmove h =>
    obtain ⟨hbefore, hafter⟩ := hmove.not_waiting
    have hevolves : Evolves start _ _ := hmove.evolves
    exact hdb.replaceRun (Table.mem_of_get hr) (.of_update hr hevolves.scope h) hbefore hafter
  case renew runs t leaseUntil r claim ht hr hvalid h =>
    have hrunning := (validOn_iff.mp hvalid).2.1
    have hbefore : r.state.waiting = false := by rw [hrunning]; rfl
    have hreplace : ReplacesRun db runs r { r with lease_until := some leaseUntil } := ⟨rfl, Database.run_extend hr h⟩
    exact hdb.replaceRun (Table.mem_of_get (Database.run_eq_some.mp hr).1) hreplace hbefore hbefore
  case registerWait wait hstate h => exact hdb.registerWait hstate h
  case activateWait wait hget hstate hr hwaiting hbound h =>
    exact hdb.activateWait hget hr hwaiting hbound h

theorem Settles.wakeable (hdb : Wakeable db) (h : Settles start stop wait t db db') : Wakeable db' := by
  obtain ⟨-, -, hget, -, hr, hwaits, -, hwait, -, hrun⟩ := h
  rename_i r _
  have hscope := (Database.run_eq_some.mp hr).2
  obtain ⟨hwaiting, hbound⟩ := (waitsFor_iff hscope.symm).mp hwaits
  have hreplace := ReplacesRun.of_update (Database.run_eq_some.mp hr).1 rfl hrun
  have hmem := fun w : WaitRecord => Table.mem_update (a := w) hget hwait
  have hrow : r ∈ db.runs.runs.rows := Table.mem_of_get (Database.run_eq_some.mp hr).1
  refine ⟨fun x hx hxwaiting => ?_, fun w hw hactive => ?_⟩
  · rcases hreplace.mem hx with rfl | ⟨hx, hs⟩
    · cases hxwaiting
    · obtain ⟨w, hw, hb, hopen⟩ := hdb.waiting x hx hxwaiting
      refine ⟨w, (hmem w).mpr (.inl ⟨hw, fun hk => hs ?_⟩), hb, hopen⟩
      -- A Run of another scope is not bound to this wait.
      have heq : w = wait := Table.eq_of_key_eq hw (Table.mem_of_get hget) hk
      rw [heq] at hb
      exact hb.1.symm.trans hscope.symm
  · rcases (hmem w).mp hw with ⟨hw, hk⟩ | rfl
    · obtain ⟨x, hx, hxwaiting, hb⟩ := hdb.active w hw hactive
      refine ⟨x, hreplace.mem_of_ne hx fun hs => hk ?_, hxwaiting, hb⟩
      -- The Run is bound to one wait only, and that is the one that is settled.
      have hx' := Database.mem_iff_run.mp hx
      rw [hs, Database.mem_iff_run.mp hrow] at hx'
      cases hx'
      rw [hb.unique hbound hw (Table.mem_of_get hget)]
      rfl
    · cases hsignal : winner db wait t <;> rw [hsignal] at hactive <;> cases hactive

/-! ## Transitions -/

/-- Waiting names an open wait, and a waiting Run is left alone. -/
def Call.Heeds (db : Database) : Call → Prop
  | .transition c target args =>
    (target.waiting = true → ∃ w ∈ db.waits.rows, w.toRunScope = c.toRunScope ∧
      args.wait_id = some w.wait_id ∧ args.wait_generation = some w.generation.val ∧
      (w.state = .pending ∨ w.state = .active)) ∧
    ∀ r ∈ db.runs.runs.rows, r.toRunScope = c.toRunScope → r.state.waiting = true →
      target ≠ .ready ∧ target ≠ .cancelled
  | _ => True

instance (db : Database) (c : Call) : Decidable (c.Heeds db) := by
  unfold Call.Heeds
  split <;> infer_instance

theorem Transitions.not_waiting {claim : ExecutionClaim} (hheeds : Call.Heeds db (.transition claim target args))
    (hr : db.run claim.toRunScope = some r) (htarget : target ∈ r.state.transitions) :
    r.state.waiting = false := by
  by_contra hwaiting
  rw [Bool.not_eq_false] at hwaiting
  have hscope := (Database.run_eq_some.mp hr).2
  obtain ⟨hready, hcancelled⟩ := hheeds.2 r (Table.mem_of_get (Database.run_eq_some.mp hr).1) hscope hwaiting
  cases hstate : r.state <;> rw [hstate] at hwaiting htarget <;>
    simp_all [RunState.waiting, RunState.transitions]

theorem Transitions.wakeable {claim : ExecutionClaim} (hdb : Wakeable db)
    (hheeds : Call.Heeds db (.transition claim target args))
    (h : Transitions start stop claim target args db db') : Wakeable db' := by
  obtain ⟨-, -, hr, -, htarget, -, -, -, hupdate⟩ := h
  rename_i r _ _
  have hbefore := Transitions.not_waiting hheeds hr htarget
  have hscope := (Database.run_eq_some.mp hr).2
  have hrow : r ∈ db.runs.runs.rows := Table.mem_of_get (Database.run_eq_some.mp hr).1
  have hreplace := ReplacesRun.of_update (Database.run_eq_some.mp hr).1 rfl hupdate
  cases hafter : target.waiting with
  | false => exact hdb.replaceRun hrow hreplace hbefore hafter
  | true =>
    obtain ⟨w, hw, hwscope, hid, hgen, hopen⟩ := hheeds.1 hafter
    refine ⟨fun x hx hwaiting => ?_, fun v hv hactive => ?_⟩
    · rcases hreplace.mem hx with rfl | ⟨hx, -⟩
      · exact ⟨w, hw, ⟨hwscope.trans hscope.symm, by simp [RunRow.moved, hafter, hid],
          by simp [RunRow.moved, hafter, hgen]⟩, hopen⟩
      · exact hdb.waiting x hx hwaiting
    · obtain ⟨x, hx, hwaiting, hb⟩ := hdb.active v hv hactive
      refine ⟨x, hreplace.mem_of_ne hx fun hs => ?_, hwaiting, hb⟩
      have hx' := Database.mem_iff_run.mp hx
      rw [hs, Database.mem_iff_run.mp hrow] at hx'
      cases hx'
      rw [hbefore] at hwaiting
      cases hwaiting

theorem Effect.wakeable (hdb : Wakeable db) (hheeds : c.Heeds db) (h : Effect start stop db c db') : Wakeable db' := by
  cases h with
  | resolves c h =>
    cases h with
    | writes h => exact h.invariant (fun hdb h => h.wakeable hdb) hdb
    | settle hprepare hruns hget hopen hwait hsettle hevents =>
      have hmid := hprepare.invariant (fun hdb h => h.wakeable hdb) hdb
      have hdone := hsettle.wakeable hmid
      obtain ⟨events, -, rfl⟩ := hevents
      exact ⟨hdone.waiting, hdone.active⟩
  | acts c h =>
    rcases h with rfl | ⟨t, actions, -, -, rfl⟩
    · exact hdb
    · exact ⟨hdb.waiting, hdb.active⟩
  | transitions claim target args h => exact h.wakeable hdb hheeds
  | saves checkpoint claim h =>
    obtain ⟨checkpoints, -, rfl⟩ := h
    exact ⟨hdb.waiting, hdb.active⟩

/-! ## How a Run stops waiting -/

theorem Write.keeps_waiting (hr : r ∈ db.runs.runs.rows) (hwaiting : r.state.waiting = true)
    (h : Write gate start stop db db') : r ∈ db'.runs.runs.rows := by
  have hne : ∀ {x : RunRow}, x ∈ db.runs.runs.rows → x.state.waiting = false → r.toRunScope ≠ x.toRunScope := by
    intro x hx hnot hs
    have hx' := Database.mem_iff_run.mp hx
    rw [← hs, Database.mem_iff_run.mp hr] at hx'
    cases hx'
    rw [hnot] at hwaiting
    cases hwaiting
  cases h <;> try exact hr
  case createRun runs clk run hclk hcase h =>
    have hrun := Database.run_insert h (Database.mem_iff_run.mp hr)
    exact Database.mem_iff_run.mpr hrun
  case moveRun hx hmove h =>
    have hevolves : Evolves start _ _ := hmove.evolves
    exact (ReplacesRun.of_update hx hevolves.scope h).mem_of_ne hr (hne (Table.mem_of_get hx) hmove.not_waiting.1)
  case renew runs t leaseUntil x claim ht hx hvalid h =>
    have hreplace : ReplacesRun db runs x { x with lease_until := some leaseUntil } := ⟨rfl, Database.run_extend hx h⟩
    have hrunning := (validOn_iff.mp hvalid).2.1
    exact hreplace.mem_of_ne hr (hne (Table.mem_of_get (Database.run_eq_some.mp hx).1) (by rw [hrunning]; rfl))

theorem Effect.settles_left (hheeds : c.Heeds db) (hr : r ∈ db.runs.runs.rows)
    (hwaiting : r.state.waiting = true) (hw : w ∈ db.waits.rows) (hb : Bound r w)
    (h : Effect start stop db c db') : r ∈ db'.runs.runs.rows ∨
      ∃ w' ∈ db'.waits.rows, w'.key = w.key ∧ w'.state.settled = true := by
  cases h with
  | resolves c h =>
    cases h with
    | writes h => exact .inl (h.invariant (fun hr h => h.keeps_waiting hr hwaiting) hr)
    | @settle mid done _ wait current now hprepare hruns hget hopen hwait hsettle hevents =>
      have hone := SettlesOne.of_settles hprepare hruns hget hopen hwait hsettle hevents
      by_cases hs : r.toRunScope = current.toRunScope
      · -- The Run is the one whose wait is settled, and it is bound to no other.
        obtain ⟨x, hx, hwaits, -⟩ := hone.woken
        rw [← hs, Database.mem_iff_run.mp hr] at hx
        cases hx
        have hb' := ((waitsFor_iff hs.symm).mp hwaits).2
        rw [hb.unique hb' hw hone.found]
        exact .inr ⟨_, hone.here, hone.key_eq, hone.ended.settled.1⟩
      · obtain ⟨events, -, rfl⟩ := hevents
        obtain ⟨-, -, -, -, hx, -, -, -, -, hrun⟩ := hsettle
        have hreplace := ReplacesRun.of_update (Database.run_eq_some.mp hx).1 rfl hrun
        refine .inl (hreplace.mem_of_ne (hruns ▸ hr) fun heq => hs ?_)
        rw [heq, (Database.run_eq_some.mp hx).2, hwait]
  | acts c h =>
    rw [h.runs_eq]
    exact .inl hr
  | transitions claim target args h =>
    obtain ⟨-, -, hx, -, htarget, -, -, -, hupdate⟩ := h
    have hnot := Transitions.not_waiting hheeds hx htarget
    have hreplace := ReplacesRun.of_update (Database.run_eq_some.mp hx).1 rfl hupdate
    refine .inl (hreplace.mem_of_ne hr fun heq => ?_)
    rw [(Database.run_eq_some.mp hx).2] at heq
    have hrun := Database.mem_iff_run.mp hr
    rw [heq, hx] at hrun
    cases hrun
    rw [hnot] at hwaiting
    cases hwaiting
  | saves checkpoint claim h =>
    obtain ⟨checkpoints, -, rfl⟩ := h
    exact .inl hr

/-! ## Histories -/

/-- Ending the waiting of a Run settles its wait. -/
def SettlesLeft (τ : CallTransaction) : Prop :=
  ∀ r ∈ τ.before.runs.runs.rows, ∀ w ∈ τ.before.waits.rows, r.state.waiting = true → Bound r w →
    (∃ r' ∈ τ.after.runs.runs.rows, r'.state.waiting = true ∧ Bound r' w) ∨
      ∃ w' ∈ τ.after.waits.rows, w'.key = w.key ∧ w'.state.settled = true

/-- **A waiting Run is wakeable** in every history whose calls heed the waits: it is bound to an open wait of its own, and
every active wait has a Run that waits for exactly it. -/
theorem waiting_wakeable [Hashing] {h : List (Transaction Database Time Call Output Failure)} {t₀ t : Time}
    {db : Database} (hr : History h t₀ db t) (hheeds : ∀ τ ∈ h, τ.call.Heeds τ.before) :
    (∀ r ∈ db.runs.runs.rows, r.state = .waitingInput ∨ r.state = .waitingApproval →
      ∃ w ∈ db.waits.rows, Bound r w ∧ (w.state = .pending ∨ w.state = .active)) ∧
    (∀ w ∈ db.waits.rows, w.state = .active → ∃ r ∈ db.runs.runs.rows,
      (r.state = .waitingInput ∨ r.state = .waitingApproval) ∧ Bound r w) ∧
    ∀ τ ∈ h, SettlesLeft τ := by
  have hwakeable : Wakeable db := by
    refine hr.invariant_of (fun db _ c => c.Heeds db) (fun db _ => Wakeable db) (fun _ hdb => hdb)
      ?_ hheeds ⟨fun r hx => (by cases hx), fun w hw => (by cases hw)⟩
    intro db clk c db' o hdb hc hexec
    exact (exec_effect hexec).wakeable hdb hc
  have hstate : ∀ s : RunState, s.waiting = true ↔ s = .waitingInput ∨ s = .waitingApproval := by
    intro s
    cases s <;> simp [RunState.waiting]
  refine ⟨fun r hx hwaiting => hwakeable.waiting r hx ((hstate r.state).mpr hwaiting),
    fun w hw hactive => ?_, fun τ hτ r hx w hw hwaiting hb => ?_⟩
  · obtain ⟨r, hx, hwaiting, hb⟩ := hwakeable.active w hw hactive
    exact ⟨r, hx, (hstate r.state).mp hwaiting, hb⟩
  · obtain ⟨-, -, -, -, houtcome⟩ := hr.before hτ
    unfold Transaction.after
    rw [houtcome]
    cases hexec : exec τ.before τ.clock τ.call with
    | error e => exact .inl ⟨r, hx, hwaiting, hb⟩
    | ok result =>
      rcases (exec_effect hexec).settles_left (hheeds τ hτ) hx hwaiting hw hb with hkept | hsettled
      · exact .inl ⟨r, hkept, hwaiting, hb⟩
      · exact .inr hsettled

/-- The Run of the small history waits for an active wait. -/
theorem waiting_wakeable_input :
    (∀ τ ∈ trace (@exec sampleHashing) Database.empty waitingCalls, τ.call.Heeds τ.before) ∧
    ∃ r ∈ (replay (@exec sampleHashing) Database.empty waitingCalls).runs.runs.rows,
      (r.state = .waitingInput ∨ r.state = .waitingApproval) ∧ Bound r { sampleWait with
        state := .active } := by
  have hr : @History sampleHashing _ 0 _ _ :=
    replay_runs (@exec sampleHashing) waitingCalls Database.empty 0 (by decide)
  have hheeds : ∀ τ ∈ trace (@exec sampleHashing) Database.empty waitingCalls,
      τ.call.Heeds τ.before := by decide
  exact ⟨hheeds, (@waiting_wakeable sampleHashing _ _ _ _ hr hheeds).2.1 { sampleWait with
    state := .active } (by decide) rfl⟩

/-- The Run is parked on a wait that nobody registered. -/
def missingWaitCalls : List (Time × Call) :=
  sampleCalls ++
    [(3, .transition sampleClaim .waitingInput ⟨none, none, some sampleWait.wait_id, some 1, none⟩)]

/-- The claim that parked the Run takes it away again. -/
def leftWaitCalls : List (Time × Call) :=
  waitingCalls ++ [(6, .transition sampleClaim .ready ⟨none, none, none, none, none⟩)]

/-- `transition` parks a Run on no wait, and takes one out of its wait. -/
theorem transition_strands_run :
    (∃ t, @History sampleHashing (trace (@exec sampleHashing) Database.empty missingWaitCalls) 0
      (replay (@exec sampleHashing) Database.empty missingWaitCalls) t) ∧
    (∃ r ∈ (replay (@exec sampleHashing) Database.empty missingWaitCalls).runs.runs.rows,
      r.state = .waitingInput ∧
      ¬ ∃ w ∈ (replay (@exec sampleHashing) Database.empty missingWaitCalls).waits.rows, Bound r w) ∧
    (∃ t, @History sampleHashing (trace (@exec sampleHashing) Database.empty leftWaitCalls) 0
      (replay (@exec sampleHashing) Database.empty leftWaitCalls) t) ∧
    ∃ w ∈ (replay (@exec sampleHashing) Database.empty leftWaitCalls).waits.rows, w.state = .active ∧
      ∀ r ∈ (replay (@exec sampleHashing) Database.empty leftWaitCalls).runs.runs.rows,
        r.state = .ready :=
  ⟨⟨_, replay_runs (@exec sampleHashing) missingWaitCalls Database.empty 0 (by decide)⟩, by decide,
    ⟨_, replay_runs (@exec sampleHashing) leftWaitCalls Database.empty 0 (by decide)⟩, by decide⟩

end Aftercare
