import Aftercare.Runtime.Worker

/-!
# Sequences of slices

The slices of one Run, one after the other: each starts from the checkpoint that the last one saved, and
one that raises saves nothing. `RunSlice.advance` is `_execute_claim` of `runtime/worker.py` up to its
write, and `executeClaim_advance` is the connection: what the worker saves is what the slice advances
to.
-/

namespace Aftercare

open Relational Text Investigation

/-- A slice of a Run: the claim that it holds, and its input. -/
structure RunSlice where
  claim : ExecutionClaim
  input : SliceInput

/-- The checkpoint that a slice saves. -/
def RunSlice.advance [JsonDecoding] (s : RunSlice) (previous : Option Checkpoint) : Result Checkpoint := do
  let start ← Slice.resume ⟨s.claim, none, previous⟩ s.input.resume_next_step
  let result ← runModelHarness s.input.harness s.claim.toRunScope start s.input.execution_time
    s.input.max_steps
  require (s.input.heartbeat_failed = false) (.contract .leaseLost "lease heartbeat failed")
  s.input.assess { result.checkpoint with saved_fencing_token := s.claim.fencing_token }
    result.proposal

theorem executeClaim_advance [JsonDecoding] {db db' : Database} {clk : Clock Time} {slice : Slice}
    {input : SliceInput} {c : Checkpoint} (h : executeClaim db clk slice input = .ok (db', c)) :
    RunSlice.advance ⟨slice.claim, input⟩ slice.previous = .ok c := by
  simp only [executeClaim, ok_iff, Prod.exists] at h
  obtain ⟨start, hstart, result, hresult, hheartbeat, -, checkpoint, hassess, -, -, -, -, -, -, -, -, rfl⟩ := h
  simp only [RunSlice.advance, ok_iff]
  exact ⟨start, hstart, result, hresult, hheartbeat, hassess⟩

/-- How a slice ended: with a checkpoint, or with an exception. -/
structure SliceEnd where
  slice : RunSlice
  (previous saved : Option Checkpoint)

/-- The ends of the slices of a Run. -/
def sliceEnds [JsonDecoding] : Option Checkpoint → List RunSlice → List SliceEnd
  | _, [] => []
  | previous, s :: rest =>
    match s.advance previous with
    | .ok c => ⟨s, previous, some c⟩ :: sliceEnds (some c) rest
    | .error _ => ⟨s, previous, none⟩ :: sliceEnds previous rest

theorem sliceEnds_forall [JsonDecoding] {P : SliceEnd → Prop} {slices : List RunSlice}
    (hsaved : ∀ s ∈ slices, ∀ previous c, s.advance previous = .ok c → P ⟨s, previous, some c⟩)
    (hraised : ∀ s ∈ slices, ∀ previous, P ⟨s, previous, none⟩) (previous : Option Checkpoint) :
    ∀ e ∈ sliceEnds previous slices, P e := by
  induction slices generalizing previous with
  | nil => intro e he; cases he
  | cons s rest ih =>
    have hrest := ih (fun t ht => hsaved t (List.mem_cons_of_mem s ht))
      fun t ht => hraised t (List.mem_cons_of_mem s ht)
    unfold sliceEnds
    split
    · rename_i c hadvance
      rw [List.forall_mem_cons]
      exact ⟨hsaved s List.mem_cons_self previous c hadvance, hrest (some c)⟩
    · rw [List.forall_mem_cons]
      exact ⟨hraised s List.mem_cons_self previous, hrest previous⟩

end Aftercare
