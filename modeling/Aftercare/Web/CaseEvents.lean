import Aftercare.Domain.Events
import Aftercare.Text.Calendar
import Aftercare.Text.JsonSpaced
import Aftercare.Web.Sse
import Aftercare.Web.Timeline

/-!
# From the server to the timeline

`_format_sse_event` of `api/app.py` writes an event as three lines and an empty one. The browser cuts the stream at the
empty lines, and `parseCaseEvent` of `web/src/sse.ts` reads the summary of an event from its message. No field contains
a line end (`OneLine`), so the events come out as they went in, wherever the stream is cut.
-/

namespace Aftercare.Web

open Text

/-! ## The server -/

def eventTypeText : EventType → String
  | .caseOpened => "case.opened"
  | .inputReceived => "input.received"
  | .runStateChanged => "run.state_changed"
  | .waitResolved => "wait.resolved"
  | .investigationProposed => "investigation.proposed"
  | .approvalRequested => "approval.requested"
  | .approvalDecided => "approval.decided"
  | .approvalExpired => "approval.expired"
  | .reviewRequested => "review.requested"
  | .reviewDecided => "review.decided"
  | .reviewStrategyMigrated => "review.strategy_migrated"
  | .caseGrantGranted => "case_grant.granted"
  | .caseGrantRevoked => "case_grant.revoked"

def optionalText (id : Option Identifier) : Json := id.elim .null fun id => .string id.val

def payloadMembers (payload : ArtifactReference) : List (String × Json) :=
  [("tenant_id", .string payload.tenant_id.val), ("case_id", .string payload.case_id.val),
    ("reference_id", .string payload.reference_id.val), ("sha256", .string payload.sha256.val)]

/-- `event.model_dump(mode="json")`; both schema versions are always 1. -/
def modelDump (event : DomainEvent) : List (String × Json) :=
  [("tenant_id", .string event.tenant_id.val), ("case_id", .string event.case_id.val), ("schema_version", .int 1),
    ("event_id", .string event.event_id.val), ("event_type", .string (eventTypeText event.event_type)),
    ("payload_schema_version", .int 1), ("payload", .object (payloadMembers event.payload)),
    ("run_id", optionalText event.run_id), ("correlation_id", .string event.correlation_id.val),
    ("causation_id", optionalText event.causation_id), ("recorded_at", .string (isoText "Z" event.recorded_at)),
    ("case_seq", .int event.case_seq.val)]

/-- `_format_sse_event`. -/
def formatSseEvent (event : DomainEvent) : String :=
  "id: " ++ toString event.case_seq.val ++ "\nevent: " ++ eventTypeText event.event_type ++ "\ndata: " ++
    (Json.object (modelDump event)).spaced ++ "\n\n"

/-! ## The browser -/

/-- What the engine provides: `Number` of a text where it is an integer, and `String` of a value. -/
structure JavaScript where
  number : String → Option ℤ
  string : Json → String
  number_digits : ∀ n : ℕ, n < 2 ^ 53 → number (toString n) = some (n : ℤ)
  string_text : ∀ s, string (.string s) = s

/-- `JSON.parse`, which knows no `NaN`. The size of a number is not looked at. -/
def jsonParse (text : String) : Option Json := (loads text).toOption.filter Json.strict

/-- The properties of a value that is an `"object"` and not `null`; those of an array are its indices. -/
def properties : Json → Option (List (String × Json))
  | .object pairs => some pairs
  | .array _ => some []
  | _ => none

/-- A property whose `typeof` is `"string"`. -/
def textProperty (payload : List (String × Json)) (key : String) : Option String :=
  match payload.lookup key with
  | some (.string s) => some s
  | _ => none

def parseCaseEvent (js : JavaScript) (message : SseMessage) : Option CaseEvent := do
  let seq ← message.id.bind js.number
  if seq < 1 then none
  let payload ← (jsonParse message.data).bind properties
  let reference_id := (((payload.lookup "payload").bind properties).bind (·.lookup "reference_id")).map js.string
  return { case_seq := seq.toNat
           event_type := (textProperty payload "event_type").getD message.event
           recorded_at := textProperty payload "recorded_at"
           run_id := textProperty payload "run_id"
           reference_id := reference_id }

/-! ## The round trip -/

/-- The summary of an event. -/
def summary (event : DomainEvent) : CaseEvent :=
  ⟨event.case_seq.val, eventTypeText event.event_type, some (isoText "Z" event.recorded_at),
    event.run_id.map (·.val), some event.payload.reference_id.val⟩

theorem optionalText_spec (id : Option Identifier) : Reads (optionalText id).spaced.toList (optionalText id) ∧
    (optionalText id).merged = optionalText id ∧ (optionalText id).strict = true := by
  cases id with
  | none => exact ⟨reads_null, rfl, rfl⟩
  | some id => exact ⟨reads_string id.val, rfl, rfl⟩

theorem reads_modelDump (event : DomainEvent) :
    Reads (Json.object (modelDump event)).spaced.toList (.object (modelDump event)) := by
  have hpayload : Reads (Json.object (payloadMembers event.payload)).spaced.toList
      (.object (payloadMembers event.payload)) := by
    refine reads_object ?_
    simp only [payloadMembers, List.forall_mem_cons, reads_string, List.not_mem_nil, false_implies, implies_true,
      and_self]
  refine reads_object ?_
  simp only [modelDump, List.forall_mem_cons, reads_string, reads_int, optionalText_spec, hpayload,
    List.not_mem_nil, false_implies, implies_true, and_self]

theorem jsonParse_modelDump (event : DomainEvent) :
    jsonParse (Json.object (modelDump event)).spaced = some (.object (modelDump event)) := by
  have hmerged : (Json.object (modelDump event)).merged = .object (modelDump event) := by
    simp [Json.merged, modelDump, payloadMembers, mergedPairs, setKeys, setKey, optionalText_spec]
  have hstrict : (Json.object (modelDump event)).strict = true := by
    simp [Json.strict, modelDump, payloadMembers, strictPairs, optionalText_spec]
  rw [jsonParse, loads_of_reads (reads_modelDump event), hmerged]
  exact Option.filter_eq_some_iff.mpr ⟨rfl, hstrict⟩

/-- The three lines of an event. -/
def eventLines (event : DomainEvent) : List (List Char) :=
  ["id: ".toList ++ (toString event.case_seq.val).toList, "event: ".toList ++ (eventTypeText event.event_type).toList,
    "data: ".toList ++ (Json.object (modelDump event)).spaced.toList]

theorem line_id (fields : Fields) (value : String) :
    fields.line ("id: ".toList ++ value.toList) = { fields with id := some value } := by
  simp [Fields.line]

theorem line_event (fields : Fields) (value : String) :
    fields.line ("event: ".toList ++ value.toList) = { fields with event := value } := by
  simp [Fields.line]

theorem line_data (fields : Fields) (value : String) :
    fields.line ("data: ".toList ++ value.toList) = { fields with data := fields.data ++ [value] } := by
  simp [Fields.line]

theorem oneLine_eventLines (event : DomainEvent) : ∀ line ∈ eventLines event, OneLine line := by
  have hseq : OneLine (toString event.case_seq.val).toList := (reads_int event.case_seq.val).oneLine
  have htype : OneLine (eventTypeText event.event_type).toList := by
    cases event.event_type
    all_goals exact List.all_eq_true.mp (by decide)
  simp only [eventLines, List.forall_mem_cons, List.not_mem_nil, false_implies, implies_true, and_true]
  refine ⟨OneLine.append (List.all_eq_true.mp (by decide)) hseq, OneLine.append (List.all_eq_true.mp (by decide)) htype,
    OneLine.append (List.all_eq_true.mp (by decide)) (reads_modelDump event).oneLine⟩

theorem decodeBlock_event (event : DomainEvent) :
    decodeBlock (['\n'].intercalate (eventLines event)) = some ⟨some (toString event.case_seq.val),
      eventTypeText event.event_type, (Json.object (modelDump event)).spaced⟩ := by
  have hlines : (['\n'].intercalate (eventLines event)).splitOn '\n' = eventLines event := by
    refine List.splitOn_intercalate _ (fun line hline hmem => ?_) (List.cons_ne_nil _ _)
    exact absurd (oneLine_eventLines event line hline _ hmem) (by decide)
  rw [decodeBlock, hlines, eventLines]
  simp only [List.foldl_cons, List.foldl_nil, line_id, line_event, line_data]
  rfl

variable {event : DomainEvent}

theorem lookup_modelDump {key : String} {value : Json} (h : (key, value) ∈ modelDump event) :
    (modelDump event).lookup key = some value :=
  (lookup_eq_some_iff (by simp [modelDump])).mpr h

theorem textProperty_of_mem {key s : String} (h : (key, .string s) ∈ modelDump event) :
    textProperty (modelDump event) key = some s := by
  rw [textProperty, lookup_modelDump h]

theorem parseCaseEvent_event (js : JavaScript) (h : event.case_seq.val < 2 ^ 53) :
    parseCaseEvent js ⟨some (toString event.case_seq.val), eventTypeText event.event_type,
      (Json.object (modelDump event)).spaced⟩ = some (summary event) := by
  have hpos : ¬(event.case_seq.val : ℤ) < 1 := by
    have := event.case_seq.pos
    omega
  have hnumber := js.number_digits _ h
  have hpayload : (modelDump event).lookup "payload" = some (.object (payloadMembers event.payload)) :=
    lookup_modelDump (by simp [modelDump])
  have hreference : (payloadMembers event.payload).lookup "reference_id" =
      some (.string event.payload.reference_id.val) :=
    (lookup_eq_some_iff (by simp [payloadMembers])).mpr (by simp [payloadMembers])
  have htype : textProperty (modelDump event) "event_type" = some (eventTypeText event.event_type) :=
    textProperty_of_mem (by simp [modelDump])
  have hrecorded : textProperty (modelDump event) "recorded_at" = some (isoText "Z" event.recorded_at) :=
    textProperty_of_mem (by simp [modelDump])
  have hrun : textProperty (modelDump event) "run_id" = event.run_id.map (·.val) := by
    have hfield : (modelDump event).lookup "run_id" = some (optionalText event.run_id) :=
      lookup_modelDump (by simp [modelDump])
    rw [textProperty, hfield]
    cases event.run_id
    all_goals rfl
  rw [parseCaseEvent, Option.bind_some, hnumber]
  simp [hpos, jsonParse_modelDump, properties, hpayload, hreference, htype, hrecorded, hrun, js.string_text, summary]

theorem cut_line {line : List Char} (h : '\n' ∉ line) (rest : List Char) :
    cut (line ++ '\n' :: rest) = if rest.head? = some '\n' then some (line, rest.tail)
      else (cut rest).map fun p => (line ++ '\n' :: p.1, p.2) := by
  induction line with
  | nil =>
    rw [List.nil_append, cut]
    simp
  | cons c line ih =>
    rw [List.mem_cons, not_or] at h
    rw [List.cons_append, cut, if_neg fun hc => h.1 hc.1.symm, ih h.2]
    split_ifs
    · rfl
    · rw [Option.map_map]
      rfl

theorem toList_formatSseEvent (event : DomainEvent) :
    (formatSseEvent event).toList = ['\n'].intercalate (eventLines event) ++ ['\n', '\n'] := by
  simp [formatSseEvent, eventLines, List.intercalate_cons_cons]

theorem cut_lines {lines : List (List Char)} (hne : lines ≠ []) (h : ∀ line ∈ lines, line ≠ [] ∧ '\n' ∉ line)
    (rest : List Char) :
    cut (['\n'].intercalate lines ++ '\n' :: '\n' :: rest) = some (['\n'].intercalate lines, rest) := by
  induction lines with
  | nil => exact absurd rfl hne
  | cons line lines ih =>
    rw [List.forall_mem_cons] at h
    cases lines with
    | nil => rw [List.intercalate_singleton, cut_line h.1.2, if_pos (List.head?_cons ..), List.tail_cons]
    | cons next lines =>
      have hhead : (['\n'].intercalate (next :: lines) ++ '\n' :: '\n' :: rest).head? ≠ some '\n' := by
        obtain ⟨hnext, hmem⟩ := h.2 next List.mem_cons_self
        cases next with
        | nil => exact absurd rfl hnext
        | cons c next =>
          have hc : c ≠ '\n' := fun hc => hmem (hc ▸ List.mem_cons_self)
          cases lines
          all_goals simpa [List.intercalate_cons_cons] using hc
      rw [List.intercalate_cons_cons, List.append_assoc, List.append_assoc, List.singleton_append, cut_line h.1.2,
        if_neg hhead, ih (List.cons_ne_nil _ _) h.2, Option.map_some, List.append_assoc, List.singleton_append]

/-- The loop takes the lines of an event for a block. -/
theorem cut_event (event : DomainEvent) (rest : List Char) :
    cut ((formatSseEvent event).toList ++ rest) = some (['\n'].intercalate (eventLines event), rest) := by
  rw [toList_formatSseEvent, List.append_assoc]
  refine cut_lines (List.cons_ne_nil _ _) (fun line hline => ⟨?_, fun hmem => ?_⟩) rest
  · simp only [List.mem_cons, List.not_mem_nil, or_false] at hline
    obtain rfl | rfl | rfl := hline
    all_goals simp
  · exact absurd (oneLine_eventLines event line hline _ hmem) (by decide)

theorem drains_events (events : List DomainEvent) : Drains ((events.map formatSseEvent).flatMap String.toList)
      (events.map fun event => ['\n'].intercalate (eventLines event)) [] := by
  induction events with
  | nil => exact .done rfl
  | cons event events ih => exact .block (cut_event event _) ih

theorem normalize_of_notMem {text : List Char} (h : '\r' ∉ text) : normalize text = text := by
  induction text with
  | nil => rfl
  | cons c text ih =>
    rw [List.mem_cons, not_or] at h
    rw [normalize, if_neg fun hc => h.1 hc.1.symm, ih h.2]

theorem notMem_intercalate {c : Char} (hc : c ≠ '\n') {lines : List (List Char)} (h : ∀ line ∈ lines, c ∉ line) :
    c ∉ ['\n'].intercalate lines := by
  induction lines with
  | nil => exact List.not_mem_nil
  | cons line lines ih =>
    rw [List.forall_mem_cons] at h
    cases lines with
    | nil =>
      rw [List.intercalate_singleton]
      exact h.1
    | cons next lines => simp [List.intercalate_cons_cons, h.1, hc, ih h.2]

theorem return_notMem_format (event : DomainEvent) : '\r' ∉ (formatSseEvent event).toList := by
  have hlines : ∀ line ∈ eventLines event, '\r' ∉ line := fun line hline hmem =>
    absurd (oneLine_eventLines event line hline _ hmem) (by decide)
  rw [toList_formatSseEvent, List.mem_append, not_or]
  exact ⟨notMem_intercalate (by decide) hlines, by decide⟩

/-- **What the server writes, the browser reads**, wherever the stream is cut. -/
theorem events_round_trip (js : JavaScript) (events : List DomainEvent) (chunks : List (List Char))
    (hseq : ∀ event ∈ events, event.case_seq.val < 2 ^ 53)
    (hchunks : chunks.flatten = (events.map formatSseEvent).flatMap String.toList) :
    (feed [] chunks).filterMap (parseCaseEvent js) = events.map summary := by
  have hnormal : chunks.map normalize = chunks := by
    refine (List.map_congr_left fun chunk hchunk => normalize_of_notMem fun hmem => ?_).trans (List.map_id chunks)
    have htext : '\r' ∈ (events.map formatSseEvent).flatMap String.toList :=
      hchunks ▸ List.mem_flatten.mpr ⟨chunk, hchunk, hmem⟩
    obtain ⟨text, htext, hmem⟩ := List.mem_flatMap.mp htext
    obtain ⟨event, -, rfl⟩ := List.mem_map.mp htext
    exact return_notMem_format event hmem
  have hparse : ∀ event ∈ events, (decodeBlock (['\n'].intercalate (eventLines event))).bind (parseCaseEvent js) =
      some (summary event) := by
    intro event hevent
    rw [decodeBlock_event, Option.bind_some, parseCaseEvent_event js (hseq event hevent)]
  obtain ⟨blocks, left, hdrains, hfeed⟩ := feed_drains [] chunks rfl
  rw [List.nil_append, hnormal, hchunks] at hdrains
  rw [hfeed, (hdrains.unique (drains_events events)).1, List.filterMap_map, List.filterMap_filterMap]
  exact List.filterMap_eq_map_iff_forall_eq_some.mpr hparse

/-- An engine that knows decimal integers only. -/
def decimals : JavaScript where
  number text := match readNumber text.toList with
    | some (.int n) => some n
    | _ => none
  string
    | .string s => s
    | value => value.dumps
  number_digits n _ := by
    have hread : readNumber (toString n).toList = some (.int n) := readNumber_int n
    rw [hread]
  string_text _ := rfl

def openedEvent : DomainEvent where
  tenant_id := ⟨"t", Eq.refl true⟩
  case_id := ⟨"c", Eq.refl true⟩
  event_id := ⟨"e", Eq.refl true⟩
  event_type := .caseOpened
  payload := ⟨⟨⟨"t", Eq.refl true⟩, ⟨"c", Eq.refl true⟩⟩, ⟨"r", Eq.refl true⟩,
    ⟨"0000000000000000000000000000000000000000000000000000000000000000", Eq.refl true⟩⟩
  run_id := none
  correlation_id := ⟨"e", Eq.refl true⟩
  causation_id := none
  recorded_at := 0
  coherent_draft := ⟨rfl, fun h => Bool.noConfusion h⟩
  case_seq := .one

/-- An event of a stream that is cut in one of its lines. -/
theorem events_round_trip_cut :
    (feed [] [(formatSseEvent openedEvent).toList.take 12, (formatSseEvent openedEvent).toList.drop 12]).filterMap
      (parseCaseEvent decimals) = [⟨1, "case.opened", some "1970-01-01T00:00:00Z", none, some "r"⟩] := by
  rw [events_round_trip decimals [openedEvent] _ (by decide) (by simp)]
  decide

/-- **A stream that breaks off.** Wherever the connection ends, the browser has read the first events, and among them
every one that has arrived as a whole. -/
theorem broken_stream_read (js : JavaScript) (events : List DomainEvent) (chunks : List (List Char))
    (hseq : ∀ event ∈ events, event.case_seq.val < 2 ^ 53)
    (hchunks : chunks.flatten <+: (events.map formatSseEvent).flatMap String.toList) :
    ∃ n, (feed [] chunks).filterMap (parseCaseEvent js) = (events.take n).map summary ∧
      ∀ m ≤ events.length, ((events.take m).map formatSseEvent).flatMap String.toList <+: chunks.flatten → m ≤ n := by
  have hnormal : chunks.map normalize = chunks := by
    refine (List.map_congr_left fun chunk hchunk => normalize_of_notMem fun hmem => ?_).trans (List.map_id chunks)
    obtain ⟨text, htext, hmem⟩ := List.mem_flatMap.mp (hchunks.subset (List.mem_flatten.mpr ⟨chunk, hchunk, hmem⟩))
    obtain ⟨event, -, rfl⟩ := List.mem_map.mp htext
    exact return_notMem_format event hmem
  obtain ⟨blocks, left, hdrains, hfeed⟩ := feed_drains [] chunks rfl
  rw [List.nil_append, hnormal] at hdrains
  obtain ⟨missing, hmissing⟩ := hchunks
  -- with what is missing, the loop would go on to the blocks of all events
  have hall := hdrains.append (drains_drain _ (left ++ missing) le_rfl)
  rw [hmissing] at hall
  obtain ⟨n, rfl⟩ : ∃ n, blocks = (events.take n).map fun event => ['\n'].intercalate (eventLines event) :=
    ⟨blocks.length, by rw [List.map_take, ← (hall.unique (drains_events events)).1, List.take_left]⟩
  refine ⟨n, ?_, fun m hm harrived => ?_⟩
  · rw [hfeed, List.filterMap_map, List.filterMap_filterMap]
    refine List.filterMap_eq_map_iff_forall_eq_some.mpr fun event hevent => ?_
    change (decodeBlock _).bind (parseCaseEvent js) = _
    rw [decodeBlock_event, Option.bind_some, parseCaseEvent_event js (hseq event (List.mem_of_mem_take hevent))]
  · obtain ⟨part, hpart⟩ := harrived
    have hwhole := (drains_events (events.take m)).append (drains_drain _ ([] ++ part) le_rfl)
    rw [hpart] at hwhole
    have hlength := congrArg List.length (hdrains.unique hwhole).1
    rw [List.length_append, List.length_map, List.length_map, List.length_take, List.length_take] at hlength
    omega

/-- The connection ends within the second event. -/
theorem broken_stream_read_half : let chunks := [(formatSseEvent openedEvent).toList, "id: ".toList]
    ∃ n, 1 ≤ n ∧ (feed [] chunks).filterMap (parseCaseEvent decimals) = ([openedEvent, openedEvent].take n).map summary := by
  intro chunks
  obtain ⟨n, hread, hwhole⟩ := broken_stream_read decimals [openedEvent, openedEvent] chunks (by decide)
    (by simp [chunks, formatSseEvent])
  exact ⟨n, hwhole 1 (by decide) (by simp [chunks]), hread⟩

end Aftercare.Web
