import Aftercare.Investigation.Exports
import Aftercare.Investigation.Importing

/-!
# Crash safety of the import

The system holds all attempts that were ever begun. Each event is a step of one of them, so `step_stepped`
gives what it does to the attempt itself, and that the ledger only grows gives what it does to the others. An
attempt that was cut off is one whose index does not occur any more.
-/

namespace Aftercare.Investigation

open Relational Text Connectors

/-! ## The system -/

section

variable [Hashing] {connector : CommerceConnector} {scope : InvestigationScope} {order : Order}
  {base : List BuyerMessage} {ledger : Ledger} {subject : Identifier}

variable (connector scope order base) in
structure SystemSafe (system : ImportSystem) : Prop where
  order_id : system.world.ledger.order_ids scope.caseScope = some scope.order_id
  cursor : CursorSafe connector scope order base system.world.ledger
  attempts : ∀ attempt ∈ system.attempts, ∃ rank,
    Standing connector scope order base system.world.ledger attempt.2 rank

/-- The event is a step of the attempt with the index. -/
def ImportEvent.stepOf (index : ℕ) : ImportEvent → Bool
  | .begins _ => false
  | .steps i _ => i == index

variable {system : ImportSystem} {n : ℕ} {state : ImportState}

theorem next_steps {index : ℕ} (h : system.attempts[index]? = some (n, state)) (now : Time) :
    system.next connector subject scope.caseScope (.steps index now) =
      let result := BuyerHistoryImport.step ⟨connector, subject, scope.caseScope, n⟩ now system.world state
      ⟨result.1, system.attempts.set index (n, result.2)⟩ := by
  simp only [ImportSystem.next, h]

section

variable (hfound : connector.dataset.requireOrder scope.order_id scope.tenant_id = .ok order)
include hfound

theorem next_standing (event : ImportEvent) {index rank : ℕ}
    (hsafe : SystemSafe connector scope order base system) (hattempt : system.attempts[index]? = some (n, state))
    (h : Standing connector scope order base system.world.ledger state rank) :
    ∃ state' rank', (system.next connector subject scope.caseScope event).attempts[index]? = some (n, state') ∧
      Standing connector scope order base
        (system.next connector subject scope.caseScope event).world.ledger state' rank' ∧
      rank' ≤ rank - if event.stepOf index then 1 else 0 := by
  match event with
  | .begins page_size =>
    refine ⟨state, rank, ?_, h, le_rfl⟩
    exact List.getElem?_append_left (List.getElem?_eq_some_iff.mp hattempt).1 ▸ hattempt
  | .steps i now =>
    by_cases hi : i = index
    · rw [hi, next_steps hattempt]
      obtain ⟨-, -, -, rank', hstanding, hrank⟩ := step_stepped subject n hfound hsafe.order_id hsafe.cursor h now
      refine ⟨_, rank', ?_, hstanding, by simpa [ImportEvent.stepOf] using hrank⟩
      exact List.getElem?_set_self (List.getElem?_eq_some_iff.mp hattempt).1
    · have hother : (ImportEvent.steps i now).stepOf index = false := by simp [ImportEvent.stepOf, hi]
      match hfirst : system.attempts[i]? with
      | none =>
        have hsame : system.next connector subject scope.caseScope (.steps i now) = system := by
          simp only [ImportSystem.next, hfirst]
        rw [hsame]
        exact ⟨state, rank, hattempt, h, by simp [hother]⟩
      | some (m, running) =>
        rw [next_steps hfirst]
        obtain ⟨rank', hrunning⟩ := hsafe.attempts _ (List.mem_of_getElem? hfirst)
        have hstepped := step_stepped subject m hfound hsafe.order_id hsafe.cursor hrunning now
        refine ⟨state, rank, ?_, h.of_grows hstepped.grows, by simp [hother]⟩
        rw [List.getElem?_set_ne hi]
        exact hattempt

theorem next_safe (subject : Identifier) (event : ImportEvent) (hsafe : SystemSafe connector scope order base system) :
    SystemSafe connector scope order base (system.next connector subject scope.caseScope event) := by
  match event with
  | .begins page_size =>
    refine ⟨hsafe.order_id, hsafe.cursor, fun attempt hmem => ?_⟩
    rw [ImportSystem.next, List.mem_append, List.mem_singleton] at hmem
    obtain hmem | rfl := hmem
    · exact hsafe.attempts attempt hmem
    · exact ⟨_, .starting⟩
  | .steps i now =>
    match hfirst : system.attempts[i]? with
    | none =>
      have hsame : system.next connector subject scope.caseScope (.steps i now) = system := by
        simp only [ImportSystem.next, hfirst]
      rw [hsame]
      exact hsafe
    | some (n, running) =>
      rw [next_steps hfirst]
      obtain ⟨rank, hrunning⟩ := hsafe.attempts _ (List.mem_of_getElem? hfirst)
      obtain ⟨hgrows, hcursor, -, rank', hstanding, -⟩ :=
        step_stepped subject n hfound hsafe.order_id hsafe.cursor hrunning now
      refine ⟨hgrows.order_ids ▸ hsafe.order_id, hcursor, fun attempt hmem => ?_⟩
      obtain hmem | rfl := List.mem_or_eq_of_mem_set hmem
      · obtain ⟨rank, hother⟩ := hsafe.attempts attempt hmem
        exact ⟨rank, hother.of_grows hgrows⟩
      · exact ⟨rank', hstanding⟩

theorem after_safe (subject : Identifier) (events : List ImportEvent)
    (hsafe : SystemSafe connector scope order base system) :
    SystemSafe connector scope order base (system.after connector subject scope.caseScope events) := by
  induction events generalizing system with
  | nil => exact hsafe
  | cons event events ih => exact ih (next_safe hfound subject event hsafe)

theorem after_standing (subject : Identifier) (events : List ImportEvent) {index rank : ℕ}
    (hsafe : SystemSafe connector scope order base system) (hattempt : system.attempts[index]? = some (n, state))
    (h : Standing connector scope order base system.world.ledger state rank) :
    ∃ state' rank', (system.after connector subject scope.caseScope events).attempts[index]? = some (n, state') ∧
      Standing connector scope order base
        (system.after connector subject scope.caseScope events).world.ledger state' rank' ∧
      rank' ≤ rank - events.countP (ImportEvent.stepOf index) := by
  induction events generalizing system state rank with
  | nil => exact ⟨state, rank, hattempt, h, le_rfl⟩
  | cons event events ih =>
    obtain ⟨state₁, rank₁, hattempt₁, hstanding₁, hrank₁⟩ := next_standing hfound event hsafe hattempt h
    obtain ⟨state₂, rank₂, hattempt₂, hstanding₂, hrank₂⟩ :=
      ih (next_safe hfound subject event hsafe) hattempt₁ hstanding₁
    refine ⟨state₂, rank₂, hattempt₂, hstanding₂, ?_⟩
    rw [List.countP_cons]
    omega

end

theorem EvidenceOf.unique {message : BuyerMessage} {row row' : ObservationRow}
    (hrow : row ∈ ledger.observations.rows) (hrow' : row' ∈ ledger.observations.rows)
    (h : EvidenceOf connector scope message row) (h' : EvidenceOf connector scope message row') :
    row = row' := by
  obtain ⟨artifact, hderived⟩ := h
  obtain ⟨artifact', hderived'⟩ := h'
  have hpayload := (evidenceFromAnswer_derived hderived).unique (evidenceFromAnswer_derived hderived')
  refine Table.eq_of_key_eq hrow hrow' ?_
  rw [observationSchema_key, observationSchema_key, hpayload]

end

/-! ## A Case that was just opened -/

def emptyStore (max_bytes : ℕ) : ArtifactStore := ⟨max_bytes, fun _ _ => none⟩

theorem order_ids_opened (scope : InvestigationScope) :
    (Ledger.opened scope).order_ids scope.caseScope = some scope.order_id := if_pos rfl

def ImportState.returns : ImportState → Bool
  | .returned _ => true
  | _ => false

theorem ImportState.exists_returned {state : ImportState} (h : state.returns = true) :
    ∃ imported, state = .returned imported := by
  cases state with
  | returned imported => exact ⟨imported, rfl⟩
  | _ => cases h

/-! ## Crash safety -/

section

variable [Hashing] {connector : CommerceConnector} {scope : InvestigationScope} {order : Order}
  {subject : Identifier}

/-- **Imports are crash safe.** The position never lies beyond a message that is not recorded, a message is recorded
at most once, an attempt that returned leaves every message recorded, and every attempt ends. -/
theorem import_crash_safe (subject : Identifier) {start : World}
    (hfound : connector.dataset.requireOrder scope.order_id scope.tenant_id = .ok order)
    (hcase : start.ledger.order_ids scope.caseScope = some scope.order_id)
    (hnone : ledgerPosition connector scope start.ledger = none) (events : List ImportEvent) :
    let system := ImportSystem.after connector subject scope.caseScope ⟨start, []⟩ events
    (∀ cursor ∈ ledgerPosition connector scope system.world.ledger, ∃ before message later,
      sortMessages order.messages = before ++ message :: later ∧ message.message_id = cursor ∧
        ∀ m ∈ before ++ [message], MessageRecorded connector scope system.world.ledger m) ∧
    (∀ message ∈ order.messages, ∀ row ∈ system.world.ledger.observations.rows,
      ∀ row' ∈ system.world.ledger.observations.rows, EvidenceOf connector scope message row →
        EvidenceOf connector scope message row' → row = row') ∧
    (∀ page_size imported, (page_size, .returned imported) ∈ system.attempts →
      ∀ message ∈ order.messages, MessageRecorded connector scope system.world.ledger message) ∧
    ∀ index < system.attempts.length, ∀ further : List ImportEvent,
      4 * order.messages.length + 3 ≤ further.countP (ImportEvent.stepOf index) →
        ∃ page_size state, (system.after connector subject scope.caseScope further).attempts[index]? =
          some (page_size, state) ∧ state.finished = true := by
  intro system
  have hbegin : SystemSafe connector scope order [] ⟨start, []⟩ := by
    refine ⟨hcase, ⟨[], _, rfl, ⟨List.prefix_rfl, by simp⟩, hnone⟩, by simp⟩
  have hsafe := after_safe hfound subject events hbegin
  refine ⟨fun cursor hcursor => ?_, fun message _ row hrow row' hrow' => EvidenceOf.unique hrow hrow',
    fun page_size imported hmem message hmessage => ?_, fun index hindex further hcount => ?_⟩
  · obtain ⟨done, rest, hsplit, hdone, hposition⟩ := hsafe.cursor
    rw [Option.mem_def, hposition, positionAfter, Option.map_eq_some_iff] at hcursor
    obtain ⟨message, hlast, hid⟩ := hcursor
    obtain ⟨before, hbefore⟩ := List.getLast?_eq_some_iff.mp hlast
    refine ⟨before, message, rest, ?_, hid, fun m hm => hdone.recorded m (hbefore ▸ hm) (by simp)⟩
    rw [← hsplit, hbefore, List.append_assoc, List.singleton_append]
  · obtain ⟨rank, hstanding⟩ := hsafe.attempts _ hmem
    cases hstanding with
    | returned hdone => exact hdone.recorded message (mem_sortMessages.mpr hmessage) (by simp)
  · obtain ⟨rank, hstanding⟩ := hsafe.attempts _ (List.getElem_mem hindex)
    obtain ⟨state, rank', hattempt, hafter, hrank⟩ := after_standing hfound subject further
      hsafe (List.getElem?_eq_getElem hindex) hstanding
    have hbound := hstanding.rank_le
    have hzero : rank' = 0 := by omega
    rw [hzero] at hafter
    exact ⟨_, state, hattempt, hafter.finished⟩

end

/-- An import that runs alone until it returns. -/
def importedAlone : { system : ImportSystem // ∃ a ∈ system.attempts, a.1 = 16 ∧ a.2.returns = true } :=
  ⟨@ImportSystem.after zeroHashing (messageConnector 5 five_fits) ⟨"aftercare-connector", Eq.refl true⟩
    orderScope.caseScope ⟨⟨.opened orderScope, emptyStore 4096⟩, []⟩
    (.begins 16 :: List.replicate 7 (.steps 0 sampleTime.val)), by decide +kernel⟩

theorem exists_import : letI := zeroHashing
    ∃ (start : World) (events : List ImportEvent) (imported : ℕ),
      start.ledger.order_ids orderScope.caseScope = some orderScope.order_id ∧
      ledgerPosition (messageConnector 5 (by decide)) orderScope start.ledger = none ∧
      (16, .returned imported) ∈ (ImportSystem.after (messageConnector 5 (by decide))
        ⟨"aftercare-connector", Eq.refl true⟩ orderScope.caseScope ⟨start, []⟩ events).attempts := by
  let H := zeroHashing
  obtain ⟨⟨_, state⟩, hmem, rfl, hreturns⟩ := importedAlone.2
  obtain ⟨imported, rfl⟩ := ImportState.exists_returned hreturns
  exact ⟨_, _, imported, order_ids_opened orderScope, rfl, hmem⟩

/-- An import of one message that is not cut off records it. -/
theorem import_crash_safe_alone : letI := zeroHashing
    ∃ (start : World) (events : List ImportEvent) (imported : ℕ),
      let connector := messageConnector 5 (by decide)
      let system := ImportSystem.after connector ⟨"aftercare-connector", Eq.refl true⟩ orderScope.caseScope
        ⟨start, []⟩ events
      (16, .returned imported) ∈ system.attempts ∧
        MessageRecorded connector orderScope system.world.ledger (sampleMessage 5 (by decide)) := by
  let H := zeroHashing
  obtain ⟨start, events, imported, horder, hnone, hmem⟩ := exists_import
  have hfound : (messageConnector 5 (by decide)).dataset.requireOrder orderScope.order_id orderScope.tenant_id =
    .ok (messageOrder 5 (by decide)) := rfl
  have hsafe := import_crash_safe ⟨"aftercare-connector", Eq.refl true⟩ hfound horder hnone events
  have hmessage : sampleMessage 5 (by decide) ∈ (messageOrder 5 (by decide)).messages :=
    List.mem_singleton_self _
  exact ⟨start, events, imported, hmem, hsafe.2.2.1 16 imported hmem _ hmessage⟩

end Aftercare.Investigation
