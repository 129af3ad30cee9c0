import Aftercare.Runtime.Worker
import Aftercare.System.Calls

/-!
# Checkpoints that reload

A pool of workers over the database: any number of slices at a time, any of which may crash between its two
transactions. `checkpoints_reload` holds when the provider uses fresh call ids and the executor answers for its
case; otherwise a slice may save a checkpoint that `get_latest` refuses (`slice_saves_unreadable`).
-/

namespace Aftercare

open Relational Text Investigation

variable {gate : Gate}

/-! ## The pool -/

structure WorkerPool where
  db : Database
  workers : ℕ → Option Slice

def WorkerPool.empty : WorkerPool := ⟨.empty, fun _ => none⟩

inductive PoolCall
  /-- A call of a repository by anyone. -/
  | call (c : Call)
  /-- A worker starts `run_once`. -/
  | runOnce (w : ℕ) (tenant run_id owner : Identifier) (lease : ℤ)
  /-- A worker starts `run_next`. -/
  | runNext (w : ℕ) (readings : RunKey → ℕ → Time) (locked : RunKey → Bool)
      (tenant : Option Identifier) (owner : Identifier) (lease : ℤ)
  /-- The harness and the second transaction of a slice. -/
  | execute (w : ℕ) (input : SliceInput)
  /-- A worker crashes. -/
  | crash (w : ℕ)

def WorkerPool.setWorker (s : WorkerPool) (w : ℕ) (slice : Option Slice) : WorkerPool :=
  { s with workers := Function.update s.workers w slice }

theorem WorkerPool.workers_setWorker (s : WorkerPool) (w v : ℕ) (slice : Option Slice) :
    (s.setWorker w slice).workers v = if v = w then slice else s.workers v :=
  Function.update_apply ..

/-- An exception rolls the second transaction back; the slice is over. -/
def WorkerPool.finish (s : WorkerPool) (w : ℕ) (outcome : Result (Database × Checkpoint)) : WorkerPool :=
  match outcome with
  | .ok (db, _) => { s with db := db }.setWorker w none
  | .error _ => s.setWorker w none

/-- A worker that has a slice does not start another one. -/
def WorkerPool.step [Hashing] [JsonDecoding] : Engine WorkerPool Time PoolCall Unit Failure :=
  fun s clk c =>
  match c with
  | .call c => do
    let (db, _) ← exec s.db clk c
    pure ({ s with db := db }, ())
  | .runOnce w tenant run_id owner lease =>
    match s.workers w with
    | none => do
      let (db, slice) ← Aftercare.runOnce s.db clk tenant run_id owner lease
      pure ({ s with db := db }.setWorker w (some slice), ())
    | some _ => pure (s, ())
  | .runNext w readings locked tenant owner lease =>
    match s.workers w with
    | none => do
      let (db, found) ← Aftercare.runNext s.db clk readings locked tenant owner lease
      pure ({ s with db := db }.setWorker w found, ())
    | some _ => pure (s, ())
  | .execute w input =>
    match s.workers w with
    | none => pure (s, ())
    | some slice => pure (s.finish w (executeClaim s.db clk slice input), ())
  | .crash w => pure (s.setWorker w none, ())

abbrev PoolTransaction := Transaction WorkerPool Time PoolCall Unit Failure

abbrev PoolHistory [Hashing] [JsonDecoding] (h : List (Transaction WorkerPool Time PoolCall Unit Failure))
    (t₀ : Time) (s : WorkerPool) (t : Time) : Prop := Runs WorkerPool.step WorkerPool.empty t₀ h s t

inductive PoolStep [Hashing] [JsonDecoding] (s : WorkerPool) (clk : Clock Time) :
    PoolCall → WorkerPool → Prop
  /-- A call of a repository. -/
  | call {c : Call} {db : Database} {output : Output} (h : exec s.db clk c = .ok (db, output)) :
    PoolStep s clk (.call c) { s with db := db }
  /-- A worker that is busy, or that has no slice, does nothing. -/
  | idle (c : PoolCall) : PoolStep s clk c s
  /-- A worker starts a slice, or finds none to start. -/
  | start (c : PoolCall) (w : ℕ) {db : Database} {found : Option Slice}
    (hwrites : Writes .closed (clk.read 0) clk.stop s.db db)
    (hbegins : ∀ slice ∈ found, slice.Begins clk s.db db) :
    PoolStep s clk c ({ s with db := db }.setWorker w found)
  /-- A worker commits the end of its slice. -/
  | saved {w : ℕ} {input : SliceInput} {slice : Slice} {db : Database} {c : Checkpoint}
    (hslice : s.workers w = some slice) (h : executeClaim s.db clk slice input = .ok (db, c)) :
    PoolStep s clk (.execute w input) ({ s with db := db }.setWorker w none)
  /-- A worker crashes, or its slice raises. -/
  | dropped (c : PoolCall) (w : ℕ) : PoolStep s clk c (s.setWorker w none)

variable {s : WorkerPool} {db db' : Database} {c : Checkpoint} {stop t₀ t : Time}
  {h : List PoolTransaction}

/-- **Every step of the pool is one of these.** -/
theorem WorkerPool.step_cases [Hashing] [JsonDecoding] {s' : WorkerPool} {clk : Clock Time}
    {c : PoolCall} {o : Unit} (h : WorkerPool.step s clk c = .ok (s', o)) : PoolStep s clk c s' := by
  cases c <;> simp only [WorkerPool.step] at h
  case call c =>
    simp only [ok_iff, Prod.exists] at h
    obtain ⟨db, output, hexec, rfl, -⟩ := h
    exact .call hexec
  case runOnce w tenant run_id owner lease =>
    split at h
    · simp only [ok_iff, Prod.exists] at h
      obtain ⟨db, slice, hstart, rfl, -⟩ := h
      have hbegins := runOnce_begins hstart
      exact .start _ w hbegins.writes.1 fun x hx => Option.some.inj hx ▸ hbegins
    · cases h
      exact .idle _
  case runNext w readings locked tenant owner lease =>
    split at h
    · simp only [ok_iff, Prod.exists] at h
      obtain ⟨db, found, hstart, rfl, -⟩ := h
      exact .start _ w (runNext_begins hstart).1 (runNext_begins hstart).2
    · cases h
      exact .idle _
  case execute w input =>
    split at h
    · cases h
      exact .idle _
    · rename_i slice hslice
      cases h
      unfold WorkerPool.finish
      split
      · rename_i db c hexecute
        exact .saved hslice hexecute
      · exact .dropped _ w
  case crash w =>
    cases h
    exact .dropped _ w

/-! ## What a transaction writes -/

def SavesValid (db db' : Database) : Prop :=
  ∀ c ∈ db'.checkpoints.rows, c ∈ db.checkpoints.rows ∨ c.valid = true

theorem SavesValid.of_eq (h : db'.checkpoints = db.checkpoints) : SavesValid db db' := by
  intro c hc
  rw [h] at hc
  exact .inl hc

theorem SavesValid.trans {db'' : Database} (h : SavesValid db db') (h' : SavesValid db' db'') : SavesValid db db'' := by
  intro c hc
  rcases h' c hc with hc | hvalid
  · exact h c hc
  · exact .inr hvalid

theorem Saves.mem {x : Checkpoint} (h : Saves c db db')
    (hx : x ∈ db'.checkpoints.rows) : x ∈ db.checkpoints.rows ∨ x = c := by
  obtain ⟨checkpoints, hinsert, rfl⟩ := h
  exact (Table.mem_insert hinsert).mp hx

theorem Write.savesValid {start : Time} (h : Write gate start stop db db') : SavesValid db db' := by
  cases h with
  | checkpoint hgate c hvalid h =>
    intro x hx
    rcases (Table.mem_insert h).mp hx with hx | rfl
    · exact .inl hx
    · exact .inr hvalid
  | _ => exact .of_eq rfl

theorem Writes.savesValid {start : Time} (h : Writes gate start stop db db') : SavesValid db db' := by
  induction h with
  | refl => exact .of_eq rfl
  | tail _ hwrite ih => exact ih.trans hwrite.savesValid

theorem Effect.savesValid {start : Time} {c : Call} {x : Checkpoint} (h : Effect start stop db c db') :
    x ∈ db'.checkpoints.rows → x ∈ db.checkpoints.rows ∨ x.valid = true ∨ ∃ claim, c = .saveCheckpoint x claim := by
  refine h.rule (fun hwrites hx => (hwrites.savesValid x hx).imp_right .inl) (fun hmid => hmid)
    (fun _ _ => .inl) fun hcall hinsert hx => ?_
  rcases (Table.mem_insert hinsert).mp hx with hx | rfl
  · exact .inl hx
  · exact .inr (.inr ⟨_, hcall⟩)

/-! ## What a step does -/

/-- The checkpoint is the one that a host saves by this step. -/
def PoolCall.HostSaves (call : PoolCall) (c : Checkpoint) : Prop :=
  ∃ claim, call = .call (.saveCheckpoint c claim)

/-- Call ids are fresh, and the executor answers for its case. -/
def PoolCall.Keeps (s : WorkerPool) : PoolCall → Prop
  | .execute w input => ∀ slice ∈ s.workers w, input.Keeps slice
  | _ => True

/-- The slices under way start from checkpoints that read back. -/
def WorkerPool.Ready (s : WorkerPool) : Prop :=
  ∀ w, ∀ slice ∈ s.workers w, ∀ c ∈ slice.previous, c.valid = true

theorem WorkerPool.Ready.setWorker (hs : s.Ready) (db : Database) (w : ℕ)
    {slice : Option Slice} (hslice : ∀ x ∈ slice, ∀ c ∈ x.previous, c.valid = true) :
    ({ s with db := db }.setWorker w slice).Ready := by
  intro v x hx
  rw [WorkerPool.workers_setWorker] at hx
  split_ifs at hx
  · exact hslice x hx
  · exact hs v x hx

structure PoolEffect (s : WorkerPool) (c : PoolCall) (s' : WorkerPool) : Prop where
  ready : s.Ready → s'.Ready
  saved : s.Ready → c.Keeps s → ∀ x ∈ s'.db.checkpoints.rows,
    x ∈ s.db.checkpoints.rows ∨ x.valid = true ∨ c.HostSaves x

/-- **What a step does to the checkpoints.** -/
theorem WorkerPool.step_effect [Hashing] [JsonDecoding] {s' : WorkerPool} {clk : Clock Time}
    {c : PoolCall} {o : Unit} (h : WorkerPool.step s clk c = .ok (s', o)) : PoolEffect s c s' := by
  cases WorkerPool.step_cases h with
  | call hexec =>
    refine ⟨id, fun _ _ x hx => ?_⟩
    rcases (exec_effect hexec).savesValid hx with hold | hvalid | ⟨claim, rfl⟩
    · exact .inl hold
    · exact .inr (.inl hvalid)
    · exact .inr (.inr ⟨claim, rfl⟩)
  | idle => exact ⟨id, fun _ _ _ hx => .inl hx⟩
  | start c w hwrites hbegins =>
    exact ⟨fun hs => hs.setWorker _ w fun slice hslice => (hbegins slice hslice).writes.2,
      fun _ _ x hx => (hwrites.savesValid x hx).imp_right .inl⟩
  | @saved w input slice db c hslice hexecute =>
    obtain ⟨⟨saved, hsaves, heq⟩, hsound⟩ := executeClaim_saves hexecute
    refine ⟨fun hs => hs.setWorker db w (by simp), fun hs hkeeps x hx => ?_⟩
    have hx' : x ∈ saved.checkpoints.rows := heq ▸ hx
    rcases hsaves.mem hx' with hold | rfl
    · exact .inl hold
    · have hx := hsound (hs w slice hslice) (hkeeps slice hslice)
      obtain ⟨checkpoints, hinsert, -⟩ := hsaves
      exact .inr (.inl (hx.valid_of_insert hinsert))
  | dropped c w => exact ⟨fun hs => hs.setWorker s.db w (by simp), fun _ _ _ hx => .inl hx⟩

/-! ## Histories -/

theorem PoolHistory.ready [Hashing] [JsonDecoding] (hr : PoolHistory h t₀ s t) : s.Ready :=
  hr.invariant (fun s _ => s.Ready) (fun _ hs => hs)
    (fun hs hstep => (WorkerPool.step_effect hstep).ready hs) fun w slice hslice => by cases hslice

theorem PoolHistory.saved [Hashing] [JsonDecoding] (hr : PoolHistory h t₀ s t) {τ : PoolTransaction} (hτ : τ ∈ h)
    (hkeeps : τ.call.Keeps τ.before) (hc : c ∈ τ.after.db.checkpoints.rows) :
    c ∈ τ.before.db.checkpoints.rows ∨ c.valid = true ∨ τ.call.HostSaves c := by
  obtain ⟨h', t', hbefore, -, houtcome⟩ := hr.before hτ
  unfold Transaction.after at hc
  rw [houtcome] at hc
  cases hstep : WorkerPool.step τ.before τ.clock τ.call with
  | error e =>
    rw [hstep] at hc
    exact .inl hc
  | ok result =>
    rw [hstep] at hc
    exact (WorkerPool.step_effect hstep).saved (PoolHistory.ready hbefore) hkeeps c hc

theorem PoolHistory.stored [Hashing] [JsonDecoding]
    (hr : PoolHistory h t₀ s t) (hkeeps : ∀ τ ∈ h, τ.call.Keeps τ.before)
    (hc : c ∈ s.db.checkpoints.rows) : c.valid = true ∨ ∃ τ ∈ h, τ.call.HostSaves c := by
  induction hr with
  | refl => cases hc
  | @call h s t clk call hbefore hle ih =>
    have hhistory := Runs.call clk call hbefore hle
    rcases PoolHistory.saved hhistory List.mem_cons_self (hkeeps _ List.mem_cons_self) hc with
      hold | hvalid | hhost
    · rcases ih (fun τ hτ => hkeeps τ (List.mem_cons_of_mem _ hτ)) hold with hvalid | ⟨τ, hτ, hhost⟩
      · exact .inl hvalid
      · exact .inr ⟨τ, List.mem_cons_of_mem _ hτ, hhost⟩
    · exact .inl hvalid
    · exact .inr ⟨_, List.mem_cons_self, hhost⟩

theorem latestCheckpoint_mem {tenant run_id : Identifier} (h : latestCheckpoint db tenant run_id = some c) :
    c ∈ db.checkpoints.rows ∧ c.tenant_id = tenant ∧ c.run_id = run_id := by
  unfold latestCheckpoint at h
  have hmem := List.mem_of_mem_head? (Option.mem_def.mpr h)
  rw [List.mem_insertionSort] at hmem
  simp only [Table.select, List.mem_filter, Bool.and_eq_true, beq_iff_eq] at hmem
  exact hmem

theorem Checkpoint.decode_of_valid (h : c.valid = true) : c.decode = .ok c := by
  simp [Checkpoint.decode, require, h]

/-- **Checkpoints reload.** In every history with fresh call ids and answers of their own case, every checkpoint that is
written is coherent and decoded to itself, as long as what hosts saved reads back. -/
theorem checkpoints_reload [Hashing] [JsonDecoding]
    {h : List (Transaction WorkerPool Time PoolCall Unit Failure)} {t₀ t : Time} {s : WorkerPool}
    (hr : PoolHistory h t₀ s t) (hkeeps : ∀ τ ∈ h, τ.call.Keeps τ.before) :
    (∀ τ ∈ h, ∀ c ∈ τ.after.db.checkpoints.rows, c ∉ τ.before.db.checkpoints.rows →
      ¬τ.call.HostSaves c → c.coherentCheckpoint = true ∧ c.decode = .ok c) ∧
    ∀ tenant run_id, (∀ τ ∈ h, ∀ c, τ.call.HostSaves c → c.tenant_id = tenant →
        c.run_id = run_id → c.valid = true) →
      getLatest s.db tenant run_id = .ok (latestCheckpoint s.db tenant run_id) := by
  constructor
  · intro τ hτ c hc hnew hhost
    rcases PoolHistory.saved hr hτ (hkeeps τ hτ) hc with hold | hvalid | hsaves
    · exact absurd hold hnew
    · have hcoherent := hvalid
      unfold Checkpoint.valid at hcoherent
      rw [Bool.and_eq_true] at hcoherent
      exact ⟨hcoherent.2, Checkpoint.decode_of_valid hvalid⟩
    · exact absurd hsaves hhost
  · intro tenant run_id hhosts
    unfold getLatest
    split
    · rename_i hnone
      rw [hnone]
      rfl
    · rename_i c hlatest
      obtain ⟨hmem, htenant, hrun⟩ := latestCheckpoint_mem hlatest
      have hvalid : c.valid = true := by
        rcases PoolHistory.stored hr hkeeps hmem with hvalid | ⟨τ, hτ, hhost⟩
        · exact hvalid
        · exact hhosts τ hτ c hhost htenant hrun
      rw [Checkpoint.decode_of_valid hvalid, hlatest]
      rfl

/-! ## Slices of a small history -/

@[reducible]
def sampleDecoding : JsonDecoding where
  loads text := if text = "\x7b\x7d" then .ok (.object []) else .error .malformed

def sampleTool : Identifier := ⟨"lookup_order", Eq.refl true⟩

/-- A response that asks for the tool under a call id. -/
def askTool (call_id : Identifier) : NormalizedResponse where
  response_id := ⟨"response-1", Eq.refl true⟩
  text := ""
  tool_calls := [⟨call_id, sampleTool, []⟩]
  usage := some ⟨10, 5, 15, rfl⟩

def answerFor (artifact_case : RunScope → CaseScope) :
    ToolRequest → RunScope → Time → Result ArtifactReference := fun _ scope _ =>
  .ok { artifact_case scope with reference_id := ⟨"artifact-1", Eq.refl true⟩, sha256 := sampleDigest }

/-- A slice whose provider and executor answer like this. -/
def sampleInput (call_id : Identifier) (artifact_case : RunScope → CaseScope) : SliceInput where
  harness :=
    { model := "model-1", model_config_version := none, strategy_id := "strategy-1"
      policy_version := "policy-v1", tool_schema_version := "tools-v1", tools := [⟨sampleTool⟩]
      limits := ⟨8, 4, 1000000, 300000000, 30000000⟩, pricing := ⟨1, 1⟩, before_run := none
      render_input := fun _ => .ok (.text "case"), complete := fun _ => .ok (askTool call_id)
      execute := answerFor artifact_case }
  execution_time := 0
  max_steps := 8
  resume_next_step := none
  heartbeat_failed := false
  assessment_evaluator := none
  put_assessment _ _ := pure ()

def sampleSlice (t : Time) (call_id : Identifier) (artifact_case : RunScope → CaseScope) :
    List (Time × PoolCall) :=
  [(t, .runOnce 0 sampleScope.tenant_id sampleScope.run_id sampleOwner 3600000000),
    (t + 1, .execute 0 (sampleInput call_id artifact_case))]

def poolSetup : List (Time × PoolCall) :=
  [(0, .call (.createCase sampleCase)), (1, .call (.createRun sampleRun))]

def firstCall : Identifier := ⟨"call-1", Eq.refl true⟩

def secondCall : Identifier := ⟨"call-2", Eq.refl true⟩

/-- The model asks, the tool answers, and the model asks again. -/
def askAgain (call_id : Identifier) : List (Time × PoolCall) :=
  poolSetup ++ sampleSlice 2 firstCall (·.toCaseScope) ++ sampleSlice 4 firstCall (·.toCaseScope) ++
    sampleSlice 6 call_id (·.toCaseScope)

/-- The model asks, and the tool answers for another case. -/
def answerElsewhere : List (Time × PoolCall) :=
  poolSetup ++ sampleSlice 2 firstCall (·.toCaseScope) ++
    sampleSlice 4 firstCall fun scope => { scope with case_id := ⟨"case-2", Eq.refl true⟩ }

def samplePool (steps : List (Time × PoolCall)) : WorkerPool :=
  replay (@WorkerPool.step sampleHashing sampleDecoding) WorkerPool.empty steps

theorem sampleInput_keeps {call_id : Identifier} {slice : Slice}
    (h : slice.previous.all (fun c => c.tool_results.all fun r => r.call_id != call_id) = true) :
    (sampleInput call_id (·.toCaseScope)).Keeps slice where
  fresh := by
    intro c hc request response call hresponse hcall r hr
    rw [Option.mem_def.mp hc, Option.all_some, List.all_eq_true] at h
    cases hresponse
    cases hcall
    exact bne_iff_ne.mp (h r hr)
  own := by
    intro request scope now artifact hartifact
    cases hartifact
    rfl

/-- The Run's fourth checkpoint is read back. -/
theorem checkpoints_reload_fresh : (∀ τ ∈ trace (@WorkerPool.step sampleHashing sampleDecoding) WorkerPool.empty
      (askAgain secondCall), τ.call.Keeps τ.before) ∧
    getLatest (samplePool (askAgain secondCall)).db sampleScope.tenant_id sampleScope.run_id =
      .ok (latestCheckpoint (samplePool (askAgain secondCall)).db sampleScope.tenant_id sampleScope.run_id) ∧
    (latestCheckpoint (samplePool (askAgain secondCall)).db sampleScope.tenant_id
      sampleScope.run_id).map (·.checkpoint_version) = some 4 := by
  have hkeeps : ∀ τ ∈ trace (@WorkerPool.step sampleHashing sampleDecoding) WorkerPool.empty
      (askAgain secondCall), τ.call.Keeps τ.before := by
    unfold askAgain poolSetup sampleSlice
    simp only [List.cons_append, List.nil_append, forall_mem_trace_cons]
    refine ⟨trivial, trivial, trivial, ?_, trivial, ?_, trivial, ?_, fun τ hτ => by cases hτ⟩
    all_goals
      intro slice hslice
      exact sampleInput_keeps (by cases hslice; decide)
  -- No host saves a checkpoint in this history.
  have hhosts : ∀ τ ∈ trace (@WorkerPool.step sampleHashing sampleDecoding) WorkerPool.empty
      (askAgain secondCall), ∀ c, ¬τ.call.HostSaves c := by
    unfold askAgain poolSetup sampleSlice
    simp only [List.cons_append, List.nil_append, forall_mem_trace_cons]
    refine ⟨?_, ?_, ?_, ?_, ?_, ?_, ?_, ?_, ?_⟩
    case refine_9 => intro τ hτ; cases hτ
    all_goals
      rintro c ⟨claim, hcall⟩
      cases hcall
  refine ⟨hkeeps, ?_, by decide⟩
  have hhistory := replay_runs (@WorkerPool.step sampleHashing sampleDecoding) (askAgain secondCall)
    WorkerPool.empty 0 (by decide)
  exact (@checkpoints_reload sampleHashing sampleDecoding _ _ _ _ hhistory hkeeps).2
    sampleScope.tenant_id sampleScope.run_id fun τ hτ c hhost => absurd hhost (hhosts τ hτ c)

/-- A slice saves what `get_latest` refuses. -/
theorem slice_saves_unreadable :
    (∃ h t, @PoolHistory sampleHashing sampleDecoding h 0 (samplePool (askAgain firstCall)) t) ∧
    getLatest (samplePool (askAgain firstCall)).db sampleScope.tenant_id sampleScope.run_id =
      .error (.validation "Checkpoint") ∧
    (∃ h t, @PoolHistory sampleHashing sampleDecoding h 0 (samplePool answerElsewhere) t) ∧
    getLatest (samplePool answerElsewhere).db sampleScope.tenant_id sampleScope.run_id =
      .error (.validation "Checkpoint") :=
  ⟨⟨_, _, replay_runs (@WorkerPool.step sampleHashing sampleDecoding) (askAgain firstCall)
      WorkerPool.empty 0 (by decide)⟩, by decide,
    ⟨_, _, replay_runs (@WorkerPool.step sampleHashing sampleDecoding) answerElsewhere
      WorkerPool.empty 0 (by decide)⟩, by decide⟩

end Aftercare
