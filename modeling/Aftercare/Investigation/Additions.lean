import Aftercare.Investigation.Crashes
import Aftercare.Ordered.Watermark

/-!
# Imports of an order that grows

A completed import leaves the position at the last message of its export, and the next one takes the messages
that sort after it (`taken_of_imports`). So imports read above a watermark: a message that is added with an
earlier time of receipt is passed over, and never recorded.
-/

namespace Aftercare.Investigation

open Relational Text Connectors Ordered

/-! ## The position in the next export -/

theorem pairwise_sortMessages (messages : List BuyerMessage) :
    (sortMessages messages).Pairwise fun a b => a.key ≤ b.key :=
  List.pairwise_insertionSort _ _

theorem message_id_of_key {a b : BuyerMessage} (h : a.key = b.key) : a.message_id = b.message_id :=
  Identifier.ext (congrArg (fun k => (ofLex k).2) h)

theorem exists_base {order : Order} {seen : List BuyerMessage} (hsub : ∀ m ∈ seen, m ∈ order.messages) :
    ∃ base rest, base ++ rest = sortMessages order.messages ∧ positionAfter base = positionAfter (sortMessages seen) ∧
      ∀ m ∈ order.messages, m ∉ base ↔ ∀ b ∈ seen, b.key < m.key := by
  match hlast : (sortMessages seen).getLast? with
  | none =>
    have hseen : seen = [] := by
      have hlength : (sortMessages seen).length = seen.length := List.length_insertionSort _ _
      rw [List.getLast?_eq_none_iff.mp hlast] at hlength
      exact List.length_eq_zero_iff.mp hlength.symm
    exact ⟨[], _, rfl, by rw [positionAfter, positionAfter, hlast]; rfl, by simp [hseen]⟩
  | some last =>
    obtain ⟨front, hfront⟩ := List.getLast?_eq_some_iff.mp hlast
    have hmem : ∀ b, b ∈ seen ↔ b ∈ front ++ [last] := fun b => by
      rw [← hfront, sortMessages, List.mem_insertionSort]
    have hmax : ∀ b ∈ seen, b.key ≤ last.key := by
      intro b hb
      have hsorted := pairwise_sortMessages seen
      rw [hfront, List.pairwise_append] at hsorted
      rw [hmem, List.mem_append, List.mem_singleton] at hb
      exact hb.elim (fun h => hsorted.2.2 b h last (by simp)) fun h => h ▸ le_rfl
    have hfound : last ∈ sortMessages order.messages := mem_sortMessages.mpr (hsub last ((hmem last).mpr (by simp)))
    obtain ⟨before, rest, hsplit⟩ := List.append_of_mem hfound
    have hsorted := pairwise_sortMessages order.messages
    have hunique := unique_sortMessages order
    rw [hsplit, List.pairwise_append, List.pairwise_cons] at hsorted
    rw [hsplit, List.map_append, List.map_cons, List.nodup_append, List.nodup_cons] at hunique
    refine ⟨before ++ [last], rest, by rw [hsplit, List.append_assoc]; rfl, ?_, fun m hm => ?_⟩
    · rw [positionAfter, positionAfter, hlast, List.getLast?_concat]
    · constructor
      · -- behind the last message of the earlier export, and not under its key
        intro hnot b hb
        have hrest : m ∈ rest := by
          have hm' := mem_sortMessages.mpr hm
          rw [hsplit, List.mem_append, List.mem_cons] at hm'
          simp only [List.mem_append, List.mem_singleton, not_or] at hnot
          tauto
        refine lt_of_le_of_lt (hmax b hb) (lt_of_le_of_ne (hsorted.2.1.1 m hrest) fun hkey => ?_)
        exact hunique.2.1.1 (message_id_of_key hkey ▸ List.mem_map_of_mem hrest)
      · intro habove hbase
        have hlt := habove last ((hmem last).mpr (by simp))
        rw [List.mem_append, List.mem_singleton] at hbase
        obtain hbefore | rfl := hbase
        · exact absurd hlt (not_lt_of_ge (hsorted.2.2 m hbefore last (by simp)))
        · exact lt_irrefl _ hlt

/-! ## Imports in turn -/

structure OrderExport (scope : InvestigationScope) where
  connector : CommerceConnector
  order : Order
  found : connector.dataset.requireOrder scope.order_id scope.tenant_id = .ok order

def OrderExport.messages {scope : InvestigationScope} (e : OrderExport scope) : Set BuyerMessage :=
  {m | m ∈ e.order.messages}

section

variable [Hashing] {scope : InvestigationScope}

def OrderExport.Imports (e : OrderExport scope) (world world' : World) : Prop :=
  ∃ subject page_size times imported, BuyerHistoryImport.run
    ⟨e.connector, subject, scope.caseScope, page_size⟩ times world .starting = (world', .returned imported)

/-- Exports, each of them imported before the next one came. -/
inductive ImportedInTurn : World → List (OrderExport scope) → World → Prop
  | nil (world : World) : ImportedInTurn world [] world
  | cons {world world' world'' : World} {e : OrderExport scope} {exports : List (OrderExport scope)}
      (himport : e.Imports world world') (hrest : ImportedInTurn world' exports world'') :
      ImportedInTurn world (e :: exports) world''

/-- The message is recorded, from one of the exports. -/
def RecordedFrom (exports : List (OrderExport scope)) (ledger : Ledger) (message : BuyerMessage) : Prop :=
  ∃ e ∈ exports, MessageRecorded e.connector scope ledger message

theorem imports_above (seen : List BuyerMessage) {e : OrderExport scope} {world world' : World}
    (h : e.Imports world world') (horder : world.ledger.order_ids scope.caseScope = some scope.order_id)
    (hsub : ∀ m ∈ seen, m ∈ e.order.messages)
    (hposition : ledgerPosition e.connector scope world.ledger = positionAfter (sortMessages seen)) :
    world'.ledger.order_ids = world.ledger.order_ids ∧
    ledgerPosition e.connector scope world'.ledger = positionAfter (sortMessages e.order.messages) ∧
    (∀ row ∈ world.ledger.observations.rows, row ∈ world'.ledger.observations.rows) ∧
    (∀ row ∈ world'.ledger.observations.rows, row ∈ world.ledger.observations.rows ∨
      ∃ m ∈ above BuyerMessage.key {m | m ∈ seen} e.messages, EvidenceOf e.connector scope m row) ∧
    ∀ m ∈ above BuyerMessage.key {m | m ∈ seen} e.messages, MessageRecorded e.connector scope world'.ledger m := by
  obtain ⟨subject, page_size, times, imported, hrun⟩ := h
  obtain ⟨base, rest, hsplit, hbase, habove⟩ := exists_base hsub
  have hsafe : CursorSafe e.connector scope e.order base world.ledger :=
    ⟨base, rest, hsplit, ⟨List.prefix_rfl, fun m hm hnew => absurd hm hnew⟩, hposition.trans hbase.symm⟩
  obtain ⟨hgrows, -, hstep, rank, hstanding, -⟩ := run_stepped subject page_size e.found horder hsafe .starting times
  rw [hrun] at hgrows hstep hstanding
  have hdone : Behind e.connector scope base world'.ledger (sortMessages e.order.messages) := by
    cases hstanding with
    | returned hdone => exact hdone
  refine ⟨hgrows.order_ids, hstep trivial, hgrows.kept, fun row hrow => ?_, fun m hm => ?_⟩
  · obtain hold | ⟨m, hm, hnew, hevidence⟩ := hgrows.added row hrow
    · exact .inl hold
    · have hmem := mem_sortMessages.mp hm
      exact .inr ⟨m, ⟨hmem, (habove m hmem).mp hnew⟩, hevidence⟩
  · exact hdone.recorded m (mem_sortMessages.mpr hm.1) ((habove m hm.1).mpr hm.2)

variable {exports : List (OrderExport scope)} {sources : CommerceSources}

theorem taken_of_imports {world world' : World} {seen : List BuyerMessage} (h : ImportedInTurn world exports world')
    (horder : world.ledger.order_ids scope.caseScope = some scope.order_id)
    (hsources : ∀ e ∈ exports, e.connector.sources = sources)
    (hgrows : ({m | m ∈ seen} :: exports.map OrderExport.messages).IsChain (· ⊆ ·))
    (hposition : (world.ledger.cursors.get (scope.tenant_id, scope.case_id, sources.buyer_channel)).map
      BuyerHistoryCursor.message_id = positionAfter (sortMessages seen)) :
    let all := taken BuyerMessage.key {m | m ∈ seen} (exports.map OrderExport.messages)
    (∀ row ∈ world.ledger.observations.rows, row ∈ world'.ledger.observations.rows) ∧
    (∀ row ∈ world'.ledger.observations.rows, row ∈ world.ledger.observations.rows ∨
      ∃ e ∈ exports, ∃ m ∈ all, EvidenceOf e.connector scope m row) ∧
    ∀ m ∈ all, RecordedFrom exports world'.ledger m := by
  induction h generalizing seen with
  | nil world => exact ⟨fun _ h => h, fun _ h => .inl h, fun m hm => absurd hm (Set.notMem_empty m)⟩
  | @cons world middle world' e exports himport hrest ih =>
    rw [List.map_cons, List.isChain_cons_cons] at hgrows
    have hsource : e.connector.registeredSources .lookupBuyerMessage = sources.buyer_channel :=
      congrArg CommerceSources.buyer_channel (hsources e List.mem_cons_self)
    obtain ⟨horders, hend, hkept, hadded, hrecorded⟩ := imports_above seen himport horder hgrows.1
      (by rw [ledgerPosition, hsource]; exact hposition)
    rw [ledgerPosition, hsource] at hend
    obtain ⟨hkept', hadded', hrecorded'⟩ := ih (horders ▸ horder)
      (fun e he => hsources e (List.mem_cons_of_mem _ he)) hgrows.2 hend
    refine ⟨fun row hrow => hkept' row (hkept row hrow), fun row hrow => ?_, fun m hm => ?_⟩
    · obtain hmiddle | ⟨e', he', m, hm, hevidence⟩ := hadded' row hrow
      · obtain hold | ⟨m, hm, hevidence⟩ := hadded row hmiddle
        · exact .inl hold
        · exact .inr ⟨e, List.mem_cons_self, m, .inl hm, hevidence⟩
      · exact .inr ⟨e', List.mem_cons_of_mem _ he', m, .inr hm, hevidence⟩
    · obtain hfirst | hlater := hm
      · obtain ⟨row, hrow, hevidence⟩ := hrecorded m hfirst
        exact ⟨e, List.mem_cons_self, row, hkept' row hrow, hevidence⟩
      · obtain ⟨e', he', hmessage⟩ := hrecorded' m hlater
        exact ⟨e', List.mem_cons_of_mem _ he', hmessage⟩

theorem EvidenceOf.event {connector : CommerceConnector} {message : BuyerMessage} {row : ObservationRow}
    (h : EvidenceOf connector scope message row) :
    row.payload.source_event_id.val = eventId "buyer-message" (messageSection message) ∧
      row.payload.toInvestigationScope = scope ∧ row.payload.observed_at = message.received_at.val := by
  obtain ⟨artifact, hderived⟩ := h
  have hfacts := evidenceFromAnswer_derived hderived
  exact ⟨hfacts.source_event_id, hfacts.scope_eq, hfacts.observed_at⟩

end

/-! ## An order with two messages -/

def earlyMessage : BuyerMessage := sampleMessage 5 five_fits

def lateMessage : BuyerMessage :=
  { earlyMessage with
    message_id := ⟨"message-2", Eq.refl true⟩
    received_at := ⟨1700000000000001, by decide⟩ }

theorem early_lt_late : earlyMessage.key < lateMessage.key := Prod.Lex.toLex_lt_toLex.mpr (.inl (by decide))

/-- An export of the order with some of its messages. -/
def historyExport (messages : List BuyerMessage) (hlength : messages.length ≤ 64)
    (hunique : (messages.map BuyerMessage.message_id).Nodup) : OrderExport orderScope where
  connector := ⟨sampleDataset (sampleOrder messages hlength hunique), sampleSources⟩
  order := sampleOrder messages hlength hunique
  found := rfl

def oneExport (message : BuyerMessage) : OrderExport orderScope :=
  historyExport [message] (by simp) (by simp)

def bothExport : OrderExport orderScope :=
  historyExport [earlyMessage, lateMessage] (by decide) (by decide)

variable {m message : BuyerMessage}

theorem mem_oneExport : m ∈ (oneExport message).order.messages ↔ m = message := List.mem_singleton

theorem mem_bothExport : m ∈ bothExport.order.messages ↔ m = earlyMessage ∨ m = lateMessage :=
  List.mem_cons.trans (or_congr_right List.mem_singleton)

theorem sources_history : ∀ e ∈ [oneExport message, bothExport], e.connector.sources = sampleSources := by
  intro e he
  obtain rfl | he := List.mem_cons.mp he
  · rfl
  · rw [List.mem_singleton.mp he]
    rfl

theorem subset_bothExport (h : message = earlyMessage ∨ message = lateMessage) :
    ([oneExport message, bothExport].map OrderExport.messages).IsChain (· ⊆ ·) := by
  rw [List.map_cons, List.map_cons, List.isChain_cons_cons]
  exact ⟨fun m hm => mem_bothExport.mpr (mem_oneExport.mp hm ▸ h), by simp⟩

@[reducible]
def historyHashing : Hashing := markHashing [(messageSection lateMessage).dumps]

/-- An import of an export that no other overtakes. -/
def OrderExport.imported (e : OrderExport orderScope) (world : World) : World × ImportState :=
  @BuyerHistoryImport.run historyHashing ⟨e.connector, orderScope.tenant_id, orderScope.caseScope, 16⟩
    (List.replicate 11 lateMessage.received_at.val) world .starting

theorem OrderExport.imports_imported {e : OrderExport orderScope} {world : World}
    (h : (e.imported world).2.returns = true) :
    @OrderExport.Imports historyHashing orderScope e world (e.imported world).1 := by
  obtain ⟨imported, hstate⟩ := ImportState.exists_returned h
  exact ⟨orderScope.tenant_id, 16, List.replicate 11 lateMessage.received_at.val, imported, Prod.ext rfl hstate⟩

/-- The Case before the first import: both orders of the messages are imported, and their events are told apart. -/
def openedWorld : { world : World // letI := historyHashing
    eventId "buyer-message" (messageSection earlyMessage) ≠ eventId "buyer-message" (messageSection lateMessage) ∧
    (((oneExport earlyMessage).imported world).2.returns = true ∧
      (bothExport.imported ((oneExport earlyMessage).imported world).1).2.returns = true) ∧
    ((oneExport lateMessage).imported world).2.returns = true ∧
      (bothExport.imported ((oneExport lateMessage).imported world).1).2.returns = true } :=
  ⟨⟨.opened orderScope, emptyStore 4096⟩, by decide +kernel, by decide +kernel, by decide +kernel⟩

theorem eq_of_event {m' : BuyerMessage} (hm : m = earlyMessage ∨ m = lateMessage)
    (hm' : m' = earlyMessage ∨ m' = lateMessage) : letI := historyHashing
    eventId "buyer-message" (messageSection m) = eventId "buyer-message" (messageSection m') → m = m' := by
  intro hevent
  obtain rfl | rfl := hm
  · obtain rfl | rfl := hm'
    · rfl
    · exact absurd hevent openedWorld.2.1
  · obtain rfl | rfl := hm'
    · exact absurd hevent.symm openedWorld.2.1
    · rfl

/-! ## The messages of a growing order -/

section

variable [Hashing] {scope : InvestigationScope} {exports : List (OrderExport scope)}
  {sources : CommerceSources}

/-- **Imports of a growing order.** All messages of the last export are recorded exactly when in each export the
messages that were added sort after those that were there. -/
theorem growing_history_recorded {start world : World} (h : ImportedInTurn start exports world)
    (horder : start.ledger.order_ids scope.caseScope = some scope.order_id)
    (hsources : ∀ e ∈ exports, e.connector.sources = sources)
    (hnone : start.ledger.cursors.get (scope.tenant_id, scope.case_id, sources.buyer_channel) = none)
    (hempty : ∀ row ∈ start.ledger.observations.rows, row.payload.toInvestigationScope ≠ scope)
    (hgrows : (exports.map OrderExport.messages).IsChain (· ⊆ ·))
    (hevents : ∀ e ∈ exports.getLast?, ∀ m ∈ e.order.messages, ∀ m' ∈ e.order.messages,
      eventId "buyer-message" (messageSection m) = eventId "buyer-message" (messageSection m') → m = m') :
    (∀ e ∈ exports.getLast?, ∀ m ∈ e.order.messages, RecordedFrom exports world.ledger m) ↔
      exports.IsChain fun e e' => ∀ m ∈ e'.order.messages, m ∉ e.order.messages →
        ∀ b ∈ e.order.messages, b.key < m.key := by
  have hfrom : ({m | m ∈ ([] : List BuyerMessage)} :: exports.map OrderExport.messages).IsChain (· ⊆ ·) :=
    List.isChain_cons.mpr ⟨fun _ _ m hm => absurd hm List.not_mem_nil, hgrows⟩
  obtain ⟨-, hadded, hrecorded⟩ := taken_of_imports h horder hsources hfrom (by rw [hnone]; rfl)
  have hwatermark := last_subset_iff BuyerMessage.key hfrom
  have hchain : ({m | m ∈ ([] : List BuyerMessage)} :: exports.map OrderExport.messages).IsChain
      (AddedAbove BuyerMessage.key) ↔ exports.IsChain fun e e' => ∀ m ∈ e'.order.messages,
        m ∉ e.order.messages → ∀ b ∈ e.order.messages, b.key < m.key := by
    rw [List.isChain_cons, List.isChain_map]
    refine and_iff_right fun new _ m _ _ b hb => absurd hb List.not_mem_nil
  rw [← hchain, ← hwatermark]
  obtain rfl | ⟨front, last, rfl⟩ := List.eq_nil_or_concat exports
  · simp
  have hlast : ((front.concat last).map OrderExport.messages).getLastD {m | m ∈ []} = last.messages := by
    simp [List.getLastD_eq_getLast?]
  rw [List.concat_eq_append, List.getLast?_concat] at hevents ⊢
  rw [← List.concat_eq_append, hlast]
  have hsubset := taken_subset_last BuyerMessage.key hfrom
  rw [hlast] at hsubset
  constructor
  · intro hall m hm
    obtain ⟨e, he, row, hrow, hevidence⟩ := hall last rfl m hm
    obtain hold | ⟨e', he', m', hm', hevidence'⟩ := hadded row hrow
    · exact absurd hevidence.event.2.1 (hempty row hold)
    · have hsame := hevents last rfl m' (hsubset hm') m hm
        (hevidence'.event.1.symm.trans hevidence.event.1)
      exact .inr (hsame ▸ hm')
  · intro hall e he m hm
    rw [Option.mem_def, Option.some.injEq] at he
    obtain hnil | hm := hall (he ▸ hm)
    · exact absurd hnil List.not_mem_nil
    · exact hrecorded m hm

end

/-- The later message is added to the export, and both are recorded. -/
theorem growing_history_recorded_in_order : letI := historyHashing
    ∃ max_bytes world, ImportedInTurn ⟨.opened orderScope, emptyStore max_bytes⟩
        [oneExport earlyMessage, bothExport] world ∧
      ∀ m ∈ bothExport.order.messages, RecordedFrom [oneExport earlyMessage, bothExport] world.ledger m := by
  let H := historyHashing
  let middle := ((oneExport earlyMessage).imported openedWorld.1).1
  have himported : ImportedInTurn openedWorld.1 [oneExport earlyMessage, bothExport] (bothExport.imported middle).1 :=
    .cons (OrderExport.imports_imported openedWorld.2.2.1.1)
      (.cons (OrderExport.imports_imported openedWorld.2.2.1.2) (.nil _))
  have hevents : ∀ e ∈ [oneExport earlyMessage, bothExport].getLast?, ∀ m ∈ e.order.messages,
      ∀ m' ∈ e.order.messages, eventId "buyer-message" (messageSection m) =
        eventId "buyer-message" (messageSection m') → m = m' := by
    intro e he m hm m' hm' hevent
    have hlast : bothExport = e := Option.some.inj he
    rw [← hlast, mem_bothExport] at hm hm'
    exact eq_of_event hm hm' hevent
  refine ⟨4096, _, himported, ?_⟩
  have hrecorded := growing_history_recorded himported (order_ids_opened orderScope) sources_history rfl
    (by simp [openedWorld, Ledger.opened, Table.empty]) (subset_bothExport (.inl rfl)) hevents
  refine hrecorded.mpr ?_ bothExport rfl
  rw [List.isChain_cons_cons]
  refine ⟨fun m hm hnew b hb => ?_, by simp⟩
  rw [mem_oneExport] at hnew hb
  rw [hb, (mem_bothExport.mp hm).resolve_left hnew]
  exact early_lt_late

/-- The earlier message is added to the export, and is not recorded. -/
theorem late_addition_not_recorded : letI := historyHashing
    ∃ max_bytes world, ImportedInTurn ⟨.opened orderScope, emptyStore max_bytes⟩
        [oneExport lateMessage, bothExport] world ∧
      (∀ m ∈ (oneExport lateMessage).order.messages, m ∈ bothExport.order.messages) ∧
      earlyMessage ∈ bothExport.order.messages ∧
      ¬RecordedFrom [oneExport lateMessage, bothExport] world.ledger earlyMessage := by
  let H := historyHashing
  let middle := ((oneExport lateMessage).imported openedWorld.1).1
  have himported : ImportedInTurn openedWorld.1 [oneExport lateMessage, bothExport] (bothExport.imported middle).1 :=
    .cons (OrderExport.imports_imported openedWorld.2.2.2.1)
      (.cons (OrderExport.imports_imported openedWorld.2.2.2.2) (.nil _))
  have hsub : ∀ m ∈ (oneExport lateMessage).order.messages, m ∈ bothExport.order.messages :=
    fun m hm => mem_bothExport.mpr (.inr (mem_oneExport.mp hm))
  have hgrows : ({m | m ∈ ([] : List BuyerMessage)} ::
      [oneExport lateMessage, bothExport].map OrderExport.messages).IsChain (· ⊆ ·) :=
    List.isChain_cons.mpr ⟨fun _ _ m hm => absurd hm List.not_mem_nil, subset_bothExport (.inr rfl)⟩
  obtain ⟨-, hadded, -⟩ := taken_of_imports himported (order_ids_opened orderScope) sources_history hgrows rfl
  refine ⟨4096, _, himported, hsub, mem_bothExport.mpr (.inl rfl), ?_⟩
  rintro ⟨e, he, row, hrow, hevidence⟩
  obtain hold | ⟨e', he', m, hm, hevidence'⟩ := hadded row hrow
  · simp [openedWorld, Ledger.opened, Table.empty] at hold
  have hlate : m = lateMessage := by
    obtain hfirst | hsecond | hnone := hm
    · exact mem_oneExport.mp hfirst.1
    · have hlt := hsecond.2 lateMessage (mem_oneExport.mpr rfl)
      obtain rfl | rfl := mem_bothExport.mp hsecond.1
      · exact absurd hlt early_lt_late.asymm
      · rfl
    · exact absurd hnone (Set.notMem_empty m)
  rw [hlate] at hevidence'
  have htimes := hevidence.event.2.2.symm.trans hevidence'.event.2.2
  exact absurd htimes (by decide)

end Aftercare.Investigation
