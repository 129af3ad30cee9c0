import Aftercare.Api.Routes
import Aftercare.System.Calls

/-!
# Requests to the program

A history of the program with its API: requests that open a case or work on one, by any identities that
`auth` has verified, between any calls of the repositories by workers. The token of a request is
arbitrary, since the program has no say in what an identity provider puts into it.
-/

namespace Aftercare

open Relational

/-- A request, or a call of a repository by a worker. -/
inductive ApiCall
  | openCase (now : Time) (identity : AuthContext) (ids : Routes.FreshIds) (body : OpenCaseInput)
      (idempotency_key : Option String)
  | onCase (now : Time) (identity : AuthContext) (case_id : String) (op : CaseOperation)
  | repository (call : Call)

inductive ApiOutput
  | response (response : Response)
  | output (output : Output)

def serve [Hashing] : Engine ApiStore Time ApiCall ApiOutput Failure := fun store clk c =>
  match c with
  | .openCase now identity ids body key => do
    let (store, response) ← Routes.openCase store clk now identity ids body key
    return (store, .response response)
  | .onCase now identity case_id op => do
    let (store, response) ← op.handle store clk now identity case_id
    return (store, .response response)
  | .repository call => do
    let (db, output) ← exec store.toDatabase clk call
    return ({ store with toDatabase := db }, .output output)

abbrev ApiHistory [Hashing] (h : List (Transaction ApiStore Time ApiCall ApiOutput Failure))
    (t₀ : Time) (store : ApiStore) (t : Time) : Prop := Runs serve ApiStore.empty t₀ h store t

/-! ## Two cases

The fixed histories of the API have two cases of one tenant, each opened by a subject of its own. -/

/-- An identity of the tenant of the fixed histories. -/
def sampleIdentity (subject_id : Identifier) (permissions : List Identifier)
    (case_ids : Option (List Identifier)) : AuthContext where
  subject_id := subject_id
  tenant_id := sampleScope.tenant_id
  permissions := permissions
  synthetic := false
  case_ids := case_ids
  case_scope_resolved := false
  case_grant_revision := none

def firstSubject : Identifier := ⟨"subject-1", Eq.refl true⟩
def secondSubject : Identifier := ⟨"subject-2", Eq.refl true⟩
def firstCase : Identifier := ⟨"case-1", Eq.refl true⟩
def secondCase : Identifier := ⟨"case-2", Eq.refl true⟩

def sampleOpening : OpenCaseInput :=
  ⟨⟨"order-1", Eq.refl true⟩, .buyer, ⟨"message-1", Eq.refl true⟩, sampleDigest⟩

def sampleRequests : List (Time × ApiCall) :=
  [(0, .openCase 0 (sampleIdentity firstSubject [Permission.caseCreate] none)
      ⟨firstCase, ⟨"session-1", Eq.refl true⟩, ⟨"run-1", Eq.refl true⟩⟩ sampleOpening (some "key-1")),
    (1, .openCase 1 (sampleIdentity secondSubject [Permission.caseCreate] none)
      ⟨secondCase, ⟨"session-2", Eq.refl true⟩, ⟨"run-2", Eq.refl true⟩⟩ sampleOpening (some "key-2"))]

def sampleStore : ApiStore := replay (@serve sampleHashing) ApiStore.empty sampleRequests

def sampleApiHistory : List (Transaction ApiStore Time ApiCall ApiOutput Failure) :=
  trace (@serve sampleHashing) ApiStore.empty sampleRequests

theorem sample_apiHistory : @ApiHistory sampleHashing sampleApiHistory 0 sampleStore 1 :=
  replay_runs (@serve sampleHashing) sampleRequests ApiStore.empty 0 (by decide)

end Aftercare
