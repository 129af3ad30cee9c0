import Aftercare.Investigation.BuyerHistory

/-!
# Imports that are cut off

The messages of an order stand in one sequence. `Standing` says which part of it an attempt has behind it in each
of its states, with a rank that drops with each step, and the position in the ledger ends such a part as well
(`CursorSafe`). Every step of every attempt keeps this. `base` is what the position has passed before.
-/

namespace Aftercare.Investigation

open Relational Text Connectors

variable {message : BuyerMessage} {done rest selected : List BuyerMessage} {state : ImportState}
  {rank : ℕ} {work : PageWork} {artifact : ArtifactReference} {now : Time} {world : World}

/-! ## Pages -/

/-- The position after a part of the sequence: its last message. -/
def positionAfter (done : List BuyerMessage) : Option Identifier :=
  done.getLast?.map BuyerMessage.message_id

theorem unique_sortMessages (order : Order) : ((sortMessages order.messages).map BuyerMessage.message_id).Nodup := by
  have hperm := (List.perm_insertionSort (fun a b : BuyerMessage => a.key ≤ b.key) order.messages).map
    BuyerMessage.message_id
  exact hperm.nodup_iff.mpr order.unique_messages

theorem mem_sortMessages {order : Order} : message ∈ sortMessages order.messages ↔ message ∈ order.messages :=
  List.mem_insertionSort _

theorem pageStart_position (hunique : ((done ++ rest).map BuyerMessage.message_id).Nodup) :
    CommerceConnector.pageStart (done ++ rest) (positionAfter done) = .ok done.length := by
  cases hlast : done.getLast? with
  | none =>
    rw [List.getLast?_eq_none_iff] at hlast
    rw [hlast]
    rfl
  | some last =>
    obtain ⟨front, hdone⟩ := List.getLast?_eq_some_iff.mp hlast
    rw [hdone, List.append_assoc, List.singleton_append] at hunique ⊢
    rw [List.map_append, List.map_cons, List.nodup_append] at hunique
    have hfront : ∀ m ∈ front, m.message_id ≠ last.message_id := fun m hm heq =>
      hunique.2.2 m.message_id (List.mem_map_of_mem hm) last.message_id List.mem_cons_self heq
    have hposition : positionAfter (front ++ [last]) = some last.message_id := by
      rw [positionAfter, List.getLast?_concat, Option.map_some]
    have hindex : (front ++ last :: rest).findIdx
        (fun message => decide (message.message_id = last.message_id)) = front.length := by
      rw [List.findIdx_append, if_neg, List.findIdx_cons]
      · simp
      · rw [List.findIdx_lt_length]
        intro ⟨m, hm, heq⟩
        exact hfront m hm (by simpa using heq)
    rw [hposition, CommerceConnector.pageStart, hindex, require, if_pos]
    · rw [ok_bind, List.length_append, List.length_singleton]
      rfl
    · simp

section

variable [Hashing] {connector : CommerceConnector} {scope : InvestigationScope} {order : Order}

theorem lookupBuyerMessages_eq_ok {limit : ℕ} {page : BuyerMessagePage}
    (hfound : connector.dataset.requireOrder scope.order_id scope.tenant_id = .ok order)
    (hsplit : done ++ rest = sortMessages order.messages)
    (h : connector.lookupBuyerMessages scope.tenant_id scope.order_id (positionAfter done) limit = .ok page) :
    1 ≤ limit ∧ page.items = (rest.take limit).map (connector.buyerAnswer scope.order_id) ∧
      page.last_message_id = positionAfter (rest.take limit) ∧
      page.next_cursor = if rest.drop limit = [] then none else positionAfter (rest.take limit) := by
  have hstart := pageStart_position (hsplit ▸ unique_sortMessages order)
  rw [hsplit] at hstart
  simp only [CommerceConnector.lookupBuyerMessages, ok_iff, hfound, Except.ok.injEq, exists_eq_left', hstart] at h
  obtain ⟨hlimit, rfl⟩ := h
  have horder := (CommerceDataset.requireOrder_eq_ok hfound).2.2
  rw [← hsplit, List.drop_left, horder]
  refine ⟨hlimit.1, rfl, rfl, ?_⟩
  have hmore : done.length + (rest.take limit).length < (done ++ rest).length ↔ rest.drop limit ≠ [] := by
    rw [List.length_append, List.length_take, ne_eq, List.drop_eq_nil_iff]
    omega
  simp only [hmore, ite_not]
  rfl

end

/-! ## What holds of an attempt -/

section

variable [Hashing] (connector : CommerceConnector) (scope : InvestigationScope) (order : Order)
  (base : List BuyerMessage)

def EvidenceOf (message : BuyerMessage) (row : ObservationRow) : Prop :=
  ∃ artifact, evidenceFromAnswer (connector.buyerAnswer scope.order_id message) scope artifact
    (registeredSourceKinds connector.sources) = .ok row.payload

def MessageRecorded (ledger : Ledger) (message : BuyerMessage) : Prop :=
  ∃ row ∈ ledger.observations.rows, EvidenceOf connector scope message row

def ledgerPosition (ledger : Ledger) : Option Identifier :=
  (ledger.cursors.get (scope.tenant_id, scope.case_id,
    connector.registeredSources .lookupBuyerMessage)).map BuyerHistoryCursor.message_id

/-- What continues the base, with all of it recorded. -/
structure Behind (ledger : Ledger) (done : List BuyerMessage) : Prop where
  continues : base <+: done
  recorded : ∀ message ∈ done, message ∉ base → MessageRecorded connector scope ledger message

/-- The position of the ledger is the end of a part that is behind. -/
def CursorSafe (ledger : Ledger) : Prop :=
  ∃ done rest, done ++ rest = sortMessages order.messages ∧ Behind connector scope base ledger done ∧
    ledgerPosition connector scope ledger = positionAfter done

/-- What is behind the page, its messages, and the rest. -/
structure OnPage (done selected rest : List BuyerMessage) (work : PageWork) : Prop where
  split : done ++ selected ++ rest = sortMessages order.messages
  nonempty : selected ≠ []
  scope : work.scope = scope
  message_id : work.message_id = positionAfter done
  last_message_id : work.page.last_message_id = positionAfter selected
  next_cursor : work.page.next_cursor = none ↔ rest = []

/-- What holds of an attempt in each state, and its rank. -/
inductive Standing (ledger : Ledger) : ImportState → ℕ → Prop
  | starting : Standing ledger .starting (4 * order.messages.length + 3)
  | reading : Standing ledger (.reading scope) (4 * order.messages.length + 2)
  | paging {done rest : List BuyerMessage} {imported : ℕ}
      (hsplit : done ++ rest = sortMessages order.messages)
      (hdone : Behind connector scope base ledger done) :
      Standing ledger (.paging scope (positionAfter done) imported) (4 * rest.length + 1)
  | storing {done written pending rest : List BuyerMessage} {message : BuyerMessage} {work : PageWork}
      (hpage : OnPage scope order done (written ++ message :: pending) rest work)
      (hdone : Behind connector scope base ledger done)
      (hwritten : ∀ m ∈ written, MessageRecorded connector scope ledger m) :
      Standing ledger (.storing work (connector.buyerAnswer scope.order_id message)
        (pending.map (connector.buyerAnswer scope.order_id)))
        (4 * rest.length + 2 * pending.length + 4)
  | recording {done written pending rest : List BuyerMessage} {message : BuyerMessage} {work : PageWork}
      {artifact : ArtifactReference}
      (hpage : OnPage scope order done (written ++ message :: pending) rest work)
      (hdone : Behind connector scope base ledger done)
      (hwritten : ∀ m ∈ written, MessageRecorded connector scope ledger m) :
      Standing ledger (.recording work (connector.buyerAnswer scope.order_id message)
        (pending.map (connector.buyerAnswer scope.order_id)) artifact)
        (4 * rest.length + 2 * pending.length + 3)
  | advancing {done selected rest : List BuyerMessage} {work : PageWork}
      (hpage : OnPage scope order done selected rest work)
      (hdone : Behind connector scope base ledger done)
      (hwritten : ∀ m ∈ selected, MessageRecorded connector scope ledger m) :
      Standing ledger (.advancing work) (4 * rest.length + 2)
  | returned {imported : ℕ}
      (hdone : Behind connector scope base ledger (sortMessages order.messages)) :
      Standing ledger (.returned imported) 0
  | raised {failure : Failure} : Standing ledger (.raised failure) 0

/-- The ledger has the position of the attempt. -/
def InStep (ledger : Ledger) : ImportState → Prop
  | .starting | .reading _ | .raised _ => True
  | .paging _ message_id _ => ledgerPosition connector scope ledger = message_id
  | .storing work _ _ | .recording work _ _ _ | .advancing work =>
    ledgerPosition connector scope ledger = work.message_id
  | .returned _ => ledgerPosition connector scope ledger = positionAfter (sortMessages order.messages)

/-- Rows are only added, as evidence of messages after the base. -/
structure Grows (ledger ledger' : Ledger) : Prop where
  order_ids : ledger'.order_ids = ledger.order_ids
  kept : ∀ row ∈ ledger.observations.rows, row ∈ ledger'.observations.rows
  added : ∀ row ∈ ledger'.observations.rows, row ∈ ledger.observations.rows ∨
    ∃ message ∈ sortMessages order.messages, message ∉ base ∧ EvidenceOf connector scope message row

variable {connector scope order base} {ledger ledger' ledger'' : Ledger}

theorem Grows.refl (ledger : Ledger) : Grows connector scope order base ledger ledger :=
  ⟨rfl, fun _ h => h, fun _ h => .inl h⟩

theorem Grows.trans (h : Grows connector scope order base ledger ledger')
    (h' : Grows connector scope order base ledger' ledger'') :
    Grows connector scope order base ledger ledger'' where
  order_ids := h'.order_ids.trans h.order_ids
  kept row hrow := h'.kept row (h.kept row hrow)
  added row hrow := (h'.added row hrow).elim (h.added row) .inr

theorem Grows.of_eq (horder : ledger'.order_ids = ledger.order_ids)
    (hrows : ledger'.observations = ledger.observations) : Grows connector scope order base ledger ledger' :=
  ⟨horder, fun _ h => hrows ▸ h, fun _ h => .inl (hrows ▸ h)⟩

theorem MessageRecorded.of_grows (hgrows : Grows connector scope order base ledger ledger')
    (h : MessageRecorded connector scope ledger message) : MessageRecorded connector scope ledger' message := by
  obtain ⟨row, hrow, hevidence⟩ := h
  exact ⟨row, hgrows.kept row hrow, hevidence⟩

theorem Behind.of_grows (hgrows : Grows connector scope order base ledger ledger')
    (h : Behind connector scope base ledger done) : Behind connector scope base ledger' done :=
  ⟨h.continues, fun m hm hnew => (h.recorded m hm hnew).of_grows hgrows⟩

theorem Behind.append {done selected : List BuyerMessage} (h : Behind connector scope base ledger done)
    (hwritten : ∀ m ∈ selected, MessageRecorded connector scope ledger m) :
    Behind connector scope base ledger (done ++ selected) where
  continues := h.continues.trans (List.prefix_append done selected)
  recorded m hm hnew := by
    rw [List.mem_append] at hm
    exact hm.elim (fun hdone => h.recorded m hdone hnew) (hwritten m)

theorem Standing.of_grows (hgrows : Grows connector scope order base ledger ledger')
    (h : Standing connector scope order base ledger state rank) :
    Standing connector scope order base ledger' state rank := by
  cases h with
  | starting => exact .starting
  | reading => exact .reading
  | paging hsplit hdone => exact .paging hsplit (hdone.of_grows hgrows)
  | storing hpage hdone hwritten =>
    exact .storing hpage (hdone.of_grows hgrows) fun m hm => (hwritten m hm).of_grows hgrows
  | recording hpage hdone hwritten =>
    exact .recording hpage (hdone.of_grows hgrows) fun m hm => (hwritten m hm).of_grows hgrows
  | advancing hpage hdone hwritten =>
    exact .advancing hpage (hdone.of_grows hgrows) fun m hm => (hwritten m hm).of_grows hgrows
  | returned hdone => exact .returned (hdone.of_grows hgrows)
  | raised => exact .raised

theorem Standing.rank_le (h : Standing connector scope order base ledger state rank) :
    rank ≤ 4 * order.messages.length + 3 := by
  have hlength : (sortMessages order.messages).length = order.messages.length := List.length_insertionSort _ _
  cases h with
  | starting => omega
  | reading => omega
  | paging hsplit hdone =>
    have hsum := congrArg List.length hsplit
    rw [List.length_append, hlength] at hsum
    omega
  | storing hpage hdone hwritten | recording hpage hdone hwritten =>
    have hsum := congrArg List.length hpage.split
    simp only [List.length_append, List.length_cons, hlength] at hsum
    omega
  | advancing hpage hdone hwritten =>
    have hsum := congrArg List.length hpage.split
    simp only [List.length_append, hlength] at hsum
    omega
  | returned hdone => omega
  | raised => omega

theorem Standing.finished (h : Standing connector scope order base ledger state 0) : state.finished = true := by
  generalize hzero : 0 = rank at h
  cases h with
  | returned hdone => rfl
  | raised => rfl
  | starting | reading | paging | storing | recording | advancing => omega

/-! ## Steps -/

variable {subject : Identifier} {page_size : ℕ}

variable (connector scope order base) in
/-- The ledger grows, the position stays safe, and the rank drops. -/
structure Stepped (ledger : Ledger) (state : ImportState) (rank : ℕ) (result : World × ImportState) :
    Prop where
  grows : Grows connector scope order base ledger result.1.ledger
  safe : CursorSafe connector scope order base result.1.ledger
  inStep : InStep connector scope order ledger state →
    InStep connector scope order result.1.ledger result.2
  standing : ∃ rank', Standing connector scope order base result.1.ledger result.2 rank' ∧
    rank' ≤ rank - 1

theorem CursorSafe.of_grows (hgrows : Grows connector scope order base ledger ledger')
    (hcursors : ledger'.cursors = ledger.cursors) (h : CursorSafe connector scope order base ledger) :
    CursorSafe connector scope order base ledger' := by
  obtain ⟨done, rest, hsplit, hdone, hposition⟩ := h
  exact ⟨done, rest, hsplit, hdone.of_grows hgrows, by rw [ledgerPosition, hcursors]; exact hposition⟩

theorem OnPage.new (hpage : OnPage scope order done selected rest work)
    (hdone : Behind connector scope base ledger done) (hmem : message ∈ selected) :
    message ∈ sortMessages order.messages ∧ message ∉ base := by
  have hunique := unique_sortMessages order
  rw [← hpage.split, List.append_assoc, List.map_append, List.nodup_append] at hunique
  refine ⟨hpage.split ▸ by simp [hmem], fun hbase => ?_⟩
  refine hunique.2.2 message.message_id (List.mem_map_of_mem (hdone.continues.subset hbase)) message.message_id ?_ rfl
  exact List.mem_map_of_mem (List.mem_append_left rest hmem)

theorem recording_grows {accepted : InvestigationEvidence} {grant : SourceGrant}
    (hpage : OnPage scope order done selected rest work)
    (hdone : Behind connector scope base ledger done) (hmem : message ∈ selected)
    (hpersist : (unboundRecorder scope subject connector.sources).persist
      ⟨scope.caseScope, connector.buyerAnswer scope.order_id message, artifact⟩ ledger now =
        .ok (ledger', accepted, grant)) :
    Grows connector scope order base ledger ledger' ∧ ledger'.cursors = ledger.cursors ∧
      MessageRecorded connector scope ledger' message := by
  obtain ⟨-, -, hderived, -, hput⟩ := ConnectorEvidenceRecorder.persist_put hpersist
  obtain ⟨hsequence, hnew⟩ := hpage.new hdone hmem
  have hevidence : ∀ row : ObservationRow, row.payload = accepted →
      EvidenceOf connector scope message row := fun row hrow => ⟨artifact, hrow ▸ hderived⟩
  refine ⟨⟨by rw [hput.frame], fun row hrow => hput.keeps hrow, fun row hrow => ?_⟩, by rw [hput.frame], ?_⟩
  · obtain hold | hadded := hput.mem_rows hrow
    · exact .inl hold
    · exact .inr ⟨message, hsequence, hnew, hevidence row hadded⟩
  · obtain ⟨row, hrow, hpayload⟩ := hput.mem
    exact ⟨row, hrow, hevidence row hpayload⟩

theorem Stepped.of_raised {store : ArtifactStore} {failure : Failure}
    (hsafe : CursorSafe connector scope order base ledger) :
    Stepped connector scope order base ledger state rank (⟨ledger, store⟩, .raised failure) :=
  ⟨.refl _, hsafe, fun _ => trivial, 0, .raised, Nat.zero_le _⟩

theorem reading_stepped (hsafe : CursorSafe connector scope order base world.ledger) :
    Stepped connector scope order base world.ledger (.reading scope) (4 * order.messages.length + 2)
      (BuyerHistoryImport.step ⟨connector, subject, scope.caseScope, page_size⟩ now world (.reading scope)) := by
  simp only [BuyerHistoryImport.step]
  split
  · exact .of_raised hsafe
  · next current hcurrent =>
    obtain ⟨done, rest, hsplit, hdone, hposition⟩ := hsafe
    have hread : current.map BuyerHistoryCursor.message_id = positionAfter done := by
      rw [← hposition, ← getCursor_eq_ok hcurrent]
      rfl
    have hlength := congrArg List.length hsplit
    rw [List.length_append, sortMessages, List.length_insertionSort] at hlength
    rw [hread]
    exact ⟨.refl _, ⟨done, rest, hsplit, hdone, hposition⟩, fun _ => hposition, _, .paging hsplit hdone, by omega⟩

theorem paging_stepped {imported : ℕ}
    (hfound : connector.dataset.requireOrder scope.order_id scope.tenant_id = .ok order)
    (hsafe : CursorSafe connector scope order base world.ledger)
    (hsplit : done ++ rest = sortMessages order.messages) (hdone : Behind connector scope base world.ledger done) :
    Stepped connector scope order base world.ledger (.paging scope (positionAfter done) imported) (4 * rest.length + 1)
      (BuyerHistoryImport.step ⟨connector, subject, scope.caseScope, page_size⟩ now world
        (.paging scope (positionAfter done) imported)) := by
  simp only [BuyerHistoryImport.step]
  split
  · exact .of_raised hsafe
  · next page hpage =>
    obtain ⟨hlimit, hitems, hlast, hnext⟩ := lookupBuyerMessages_eq_ok hfound hsplit hpage
    have hparts := List.take_append_drop page_size rest
    match hselected : rest.take page_size with
    | [] =>
      have hrest : rest = [] := by
        rw [List.take_eq_nil_iff] at hselected
        exact hselected.resolve_left (by omega)
      rw [hselected, List.map_nil] at hitems
      rw [hrest, List.append_nil] at hsplit
      simp only [hitems]
      refine ⟨.refl _, hsafe, fun hstep => ?_, 0, .returned (hsplit ▸ hdone), Nat.zero_le _⟩
      rw [InStep, ← hsplit]
      exact hstep
    | message :: pending =>
      rw [hselected, List.map_cons] at hitems
      have hwork : OnPage scope order done ([] ++ message :: pending) (rest.drop page_size)
          ⟨scope, positionAfter done, page, imported⟩ := by
        refine ⟨?_, by simp, rfl, rfl, ?_, ?_⟩
        · rw [List.nil_append, List.append_assoc, ← hselected, hparts, hsplit]
        · rw [List.nil_append, ← hselected, hlast]
        · have hsome : positionAfter (rest.take page_size) ≠ none := by
            simp [positionAfter, hselected, List.getLast?_eq_none_iff]
          rw [hnext]
          simp [hsome]
      have hlength := congrArg List.length hparts
      rw [hselected, List.length_append, List.length_cons] at hlength
      simp only [hitems]
      exact ⟨.refl _, hsafe, fun hstep => hstep, _, .storing hwork hdone (by simp), by omega⟩

theorem recording_stepped {written pending : List BuyerMessage}
    (hsafe : CursorSafe connector scope order base world.ledger)
    (hpage : OnPage scope order done (written ++ message :: pending) rest work)
    (hdone : Behind connector scope base world.ledger done)
    (hwritten : ∀ m ∈ written, MessageRecorded connector scope world.ledger m) :
    let state := .recording work (connector.buyerAnswer scope.order_id message)
      (pending.map (connector.buyerAnswer scope.order_id)) artifact
    Stepped connector scope order base world.ledger state (4 * rest.length + 2 * pending.length + 3)
      (BuyerHistoryImport.step ⟨connector, subject, scope.caseScope, page_size⟩ now world state) := by
  simp only [BuyerHistoryImport.step]
  split
  · exact .of_raised hsafe
  · next recorded accepted grant hpersist =>
    rw [BuyerHistoryImport.recorder, hpage.scope] at hpersist
    obtain ⟨hgrows, hcursors, hmessage⟩ := recording_grows hpage hdone (by simp) hpersist
    have hall : ∀ m ∈ written ++ [message], MessageRecorded connector scope recorded m := by
      intro m hm
      rw [List.mem_append, List.mem_singleton] at hm
      exact hm.elim (fun hm => (hwritten m hm).of_grows hgrows) fun hm => hm ▸ hmessage
    have hposition : ledgerPosition connector scope recorded = ledgerPosition connector scope world.ledger := by
      rw [ledgerPosition, ledgerPosition, hcursors]
    refine ⟨hgrows, hsafe.of_grows hgrows hcursors, fun hstep => ?_, ?_⟩
    · match pending with
      | [] | next :: pending => exact hposition.trans hstep
    match pending with
    | [] =>
      refine ⟨_, .advancing ⟨hpage.split, hpage.nonempty, hpage.scope, hpage.message_id,
        hpage.last_message_id, hpage.next_cursor⟩ (hdone.of_grows hgrows) hall, ?_⟩
      simp
    | next :: pending =>
      have hshift : written ++ message :: next :: pending = written ++ [message] ++ next :: pending := by
        simp
      have hnext : OnPage scope order done (written ++ [message] ++ next :: pending) rest
          { work with imported := work.imported + 1 } := by
        rw [← hshift]
        exact ⟨hpage.split, by simp, hpage.scope, hpage.message_id, hpage.last_message_id, hpage.next_cursor⟩
      refine ⟨_, .storing hnext (hdone.of_grows hgrows) hall, ?_⟩
      rw [List.length_cons]
      omega

omit [Hashing] in
theorem OnPage.positionAfter_append {last : Identifier} (hpage : OnPage scope order done selected rest work)
    (hlast : work.page.last_message_id = some last) : positionAfter (done ++ selected) = some last := by
  rw [← hlast, hpage.last_message_id, positionAfter, positionAfter, List.getLast?_append_of_ne_nil _ hpage.nonempty]

theorem advancing_stepped (hsafe : CursorSafe connector scope order base world.ledger)
    (hpage : OnPage scope order done selected rest work) (hdone : Behind connector scope base world.ledger done)
    (hwritten : ∀ m ∈ selected, MessageRecorded connector scope world.ledger m) :
    Stepped connector scope order base world.ledger (.advancing work) (4 * rest.length + 2)
      (BuyerHistoryImport.step ⟨connector, subject, scope.caseScope, page_size⟩ now world (.advancing work)) := by
  simp only [BuyerHistoryImport.step]
  split
  · exact .of_raised hsafe
  · next last hlast =>
    split
    · exact .of_raised hsafe
    · next advanced cursor hadvance =>
      rw [hpage.scope] at hadvance
      obtain ⟨hframe, hposition⟩ := advanceCursor_eq_ok hadvance
      have hend := hpage.positionAfter_append hlast
      have hgrows : Grows connector scope order base world.ledger advanced := .of_eq (by rw [hframe]) (by rw [hframe])
      have hbehind : Behind connector scope base advanced (done ++ selected) := (hdone.append hwritten).of_grows hgrows
      have hsafe' : CursorSafe connector scope order base advanced :=
        ⟨done ++ selected, rest, hpage.split, hbehind, hposition.trans hend.symm⟩
      split_ifs with hnext
      · have hsplit := hpage.split
        rw [hpage.next_cursor.mp hnext, List.append_nil] at hsplit
        refine ⟨hgrows, hsafe', fun _ => ?_, 0, .returned (hsplit ▸ hbehind), Nat.zero_le _⟩
        rw [InStep, ← hsplit, hend]
        exact hposition
      · refine ⟨hgrows, hsafe', fun _ => hposition, ?_⟩
        rw [hpage.scope, ← hend]
        exact ⟨_, .paging hpage.split hbehind, by omega⟩

variable (subject : Identifier) (page_size : ℕ)
    (hfound : connector.dataset.requireOrder scope.order_id scope.tenant_id = .ok order)
    (horder : world.ledger.order_ids scope.caseScope = some scope.order_id)
    (hsafe : CursorSafe connector scope order base world.ledger)
    (h : Standing connector scope order base world.ledger state rank)
include hfound horder hsafe h

theorem step_stepped (now : Time) : Stepped connector scope order base world.ledger state rank
      (BuyerHistoryImport.step ⟨connector, subject, scope.caseScope, page_size⟩ now world state) := by
  cases h with
  | starting =>
    simp only [BuyerHistoryImport.step, horder]
    exact ⟨.refl _, hsafe, fun _ => trivial, _, .reading, by omega⟩
  | reading => exact reading_stepped hsafe
  | paging hsplit hdone => exact paging_stepped hfound hsafe hsplit hdone
  | storing hpage hdone hwritten =>
    simp only [BuyerHistoryImport.step]
    split
    · exact .of_raised hsafe
    · exact ⟨.refl _, hsafe, fun hstep => hstep, _, .recording hpage hdone hwritten, by omega⟩
  | recording hpage hdone hwritten => exact recording_stepped hsafe hpage hdone hwritten
  | advancing hpage hdone hwritten => exact advancing_stepped hsafe hpage hdone hwritten
  | returned hdone => exact ⟨.refl _, hsafe, fun hstep => hstep, 0, .returned hdone, le_rfl⟩
  | raised => exact .of_raised hsafe

theorem run_stepped (times : List Time) : Stepped connector scope order base world.ledger state (rank + 1)
      (BuyerHistoryImport.run ⟨connector, subject, scope.caseScope, page_size⟩ times world state) := by
  induction times generalizing world state rank with
  | nil => exact ⟨.refl _, hsafe, fun hstep => hstep, rank, h, le_rfl⟩
  | cons now times ih =>
    obtain ⟨hgrows, hsafe', hstep, rank', hstanding, hrank⟩ := step_stepped subject page_size hfound horder hsafe h now
    obtain ⟨hgrows', hsafe'', hstep', rank'', hstanding', hrank'⟩ := ih (hgrows.order_ids ▸ horder) hsafe' hstanding
    exact ⟨hgrows.trans hgrows', hsafe'', fun h => hstep' (hstep h), rank'', hstanding', by omega⟩

end

end Aftercare.Investigation
