import Aftercare.Investigation.Recorder

/-!
# The import of a buyer history

`import_buyer_history` goes through the messages of a buyer page by page: it stores the bytes of each answer,
records the evidence, and advances the position. The three are written separately, so an attempt is a machine
with a step for each, and one that was cut off makes no further step.
-/

namespace Aftercare.Investigation

open Relational Text Connectors

/-! ## The artifact store -/

/-- The texts of the files of each Case, by their digests. -/
structure ArtifactStore where
  max_bytes : ℕ
  files : CaseScope → Sha256 → Option String

def segment (value label : String) : Result Unit :=
  require (value ≠ "." ∧ value ≠ ".." ∧ value.toList.all (fun c => c != '/' && c != '\\' && c != '\x00') = true)
    (.contract .invalidInput (label ++ " is not a single path segment"))

/-- The file is written unless it is there. -/
def ArtifactStore.write [Hashing] (store : ArtifactStore) (scope : CaseScope) (content : String) :
    Result (ArtifactStore × Sha256) := do
  require (content ≠ "") (.contract .invalidInput "artifact content must not be empty")
  require (content.utf8ByteSize ≤ store.max_bytes)
    (.contract .budgetExhausted "artifact exceeds the store budget")
  let digest := Hashing.sha256 content
  segment scope.tenant_id.val "tenant_id"
  segment scope.case_id.val "case_id"
  match store.files scope digest with
  | some stored => do
    require (Hashing.sha256 stored = digest)
      (.contract .conflict "stored artifact does not match its digest")
    pure (store, digest)
  | none =>
    let files := fun case sha =>
      if case = scope ∧ sha = digest then some content else store.files case sha
    pure ({ store with files := files }, digest)

/-- The reference is validated when the file is there already. -/
def ArtifactStore.put [Hashing] (store : ArtifactStore) (scope : CaseScope) (reference_id : String)
    (content : String) : ArtifactStore × Result ArtifactReference :=
  match store.write scope content with
  | .error failure => (store, .error failure)
  | .ok (written, digest) =>
    (written, do
      let reference_id ← identifier "ArtifactReference" reference_id
      pure ⟨scope, reference_id, digest⟩)

/-! ## One attempt -/

structure World where
  ledger : Ledger
  store : ArtifactStore

/-- The arguments of an import, with its connector and subject. -/
structure BuyerHistoryImport where
  connector : CommerceConnector
  subject : Identifier
  scope : CaseScope
  page_size : ℕ

/-- The variables of the loop while a page is written. -/
structure PageWork where
  scope : InvestigationScope
  message_id : Option Identifier
  page : BuyerMessagePage
  imported : ℕ

/-- What an attempt does next, with the values it has. -/
inductive ImportState
  /-- Build the recorder of the Case. -/
  | starting
  /-- Read the position. -/
  | reading (scope : InvestigationScope)
  /-- Look up the next page. -/
  | paging (scope : InvestigationScope) (message_id : Option Identifier) (imported : ℕ)
  /-- Store the bytes of an answer. -/
  | storing (work : PageWork) (answer : ConnectorAnswer) (rest : List ConnectorAnswer)
  /-- Record the evidence of an answer. -/
  | recording (work : PageWork) (answer : ConnectorAnswer) (rest : List ConnectorAnswer)
      (artifact : ArtifactReference)
  /-- Advance the position. -/
  | advancing (work : PageWork)
  | returned (imported : ℕ)
  | raised (failure : Failure)

def ImportState.finished : ImportState → Bool
  | .returned _ | .raised _ => true
  | _ => false

/-- The head of the loop over the answers of a page. -/
def PageWork.next (work : PageWork) : List ConnectorAnswer → ImportState
  | [] => .advancing work
  | answer :: rest => .storing work answer rest

namespace BuyerHistoryImport

variable [Hashing] (task : BuyerHistoryImport)

def source_id : Identifier := task.connector.registeredSources .lookupBuyerMessage

def recorder (scope : InvestigationScope) : ConnectorEvidenceRecorder :=
  unboundRecorder scope task.subject task.connector.sources

def step (now : Time) (world : World) : ImportState → World × ImportState
  | .starting =>
    match world.ledger.order_ids task.scope with
    | none =>
      (world, .raised (.contract .forbidden "evidence arrived for an unknown Case"))
    | some order_id => (world, .reading ⟨task.scope.tenant_id, task.scope.case_id, order_id⟩)
  | .reading scope =>
    match getCursor world.ledger scope task.source_id with
    | .error failure => (world, .raised failure)
    | .ok current => (world, .paging scope (current.map BuyerHistoryCursor.message_id) 0)
  | .paging scope message_id imported =>
    match task.connector.lookupBuyerMessages task.scope.tenant_id scope.order_id message_id
      task.page_size with
    | .error failure => (world, .raised failure)
    | .ok page =>
      match page.items with
      | [] => (world, .returned imported)
      | answer :: rest => (world, .storing ⟨scope, message_id, page, imported⟩ answer rest)
  | .storing work answer rest =>
    match world.store.put task.scope ("buyer-history:" ++ answer.source_event_id) answer.content with
    | (store, .error failure) => ({ world with store := store }, .raised failure)
    | (store, .ok artifact) => ({ world with store := store }, .recording work answer rest artifact)
  | .recording work answer rest artifact =>
    match (task.recorder work.scope).persist ⟨task.scope, answer, artifact⟩ world.ledger now with
    | .error failure => (world, .raised failure)
    | .ok (ledger, _, _) =>
      ({ world with ledger := ledger },
        PageWork.next { work with imported := work.imported + 1 } rest)
  | .advancing work =>
    match work.page.last_message_id with
    | none => (world, .raised (.contract .conflict "buyer history page lost its cursor"))
    | some last_message_id =>
      match advanceCursor world.ledger work.scope task.source_id work.message_id last_message_id with
      | .error failure => (world, .raised failure)
      | .ok (ledger, _) =>
        ({ world with ledger := ledger },
          if work.page.next_cursor = none then .returned work.imported
          else .paging work.scope (some last_message_id) work.imported)
  | .returned imported => (world, .returned imported)
  | .raised failure => (world, .raised failure)

/-- An attempt that runs alone, with the times of its steps. -/
def run : List Time → World → ImportState → World × ImportState
  | [], world, state => (world, state)
  | now :: times, world, state =>
    let (world, state) := task.step now world state
    run times world state

end BuyerHistoryImport

/-! ## The system -/

/-- A world, and the attempts begun in it, each with its page size. -/
structure ImportSystem where
  world : World
  attempts : List (ℕ × ImportState)

/-- An attempt is begun, or makes a step. -/
inductive ImportEvent
  | begins (page_size : ℕ)
  | steps (index : ℕ) (now : Time)
deriving DecidableEq, Repr

namespace ImportSystem

variable [Hashing] (connector : CommerceConnector) (subject : Identifier) (scope : CaseScope)

/-- The system after an event. -/
def next (system : ImportSystem) : ImportEvent → ImportSystem
  | .begins page_size => { system with attempts := system.attempts ++ [(page_size, .starting)] }
  | .steps index now =>
    match system.attempts[index]? with
    | none => system
    | some (page_size, state) =>
      let (world, state) := BuyerHistoryImport.step ⟨connector, subject, scope, page_size⟩ now system.world
        state
      { world := world, attempts := system.attempts.set index (page_size, state) }

def after (system : ImportSystem) (events : List ImportEvent) : ImportSystem :=
  events.foldl (next connector subject scope) system

end ImportSystem

end Aftercare.Investigation
