import Aftercare.Text.Strings

/-!
# The event stream in the browser

`SseDecoder` of `web/src/sse.ts` is fed with the chunks of a stream and returns the complete messages. Where the stream
is cut does not matter (`Drains.append`), except that line ends are normalized chunk by chunk: a `\r\n` that is cut in
two keeps its `\r` (`cut_line_end_differs`).
-/

namespace Aftercare.Web

structure SseMessage where
  id : Option String
  (event data : String)
deriving DecidableEq

/-! ## The decoder -/

/-- `replace(/\r\n/g, "\n")`. -/
def normalize : List Char → List Char
  | [] => []
  | c :: rest => if c = '\r' ∧ rest.head? = some '\n' then normalize rest else c :: normalize rest

/-- What stands before and after the first empty line. -/
def cut : List Char → Option (List Char × List Char)
  | [] => none
  | c :: rest =>
    if c = '\n' ∧ rest.head? = some '\n' then some ([], rest.tail)
    else (cut rest).map fun p => (c :: p.1, p.2)

/-- The loop of `push`: the blocks, and the buffer that is left. -/
def drain : ℕ → List Char → List (List Char) × List Char
  | 0, buffer => ([], buffer)
  | fuel + 1, buffer =>
    match cut buffer with
    | none => ([], buffer)
    | some (block, rest) => ((block :: (drain fuel rest).1), (drain fuel rest).2)

/-- The variables of `decodeBlock`. -/
structure Fields where
  id : Option String
  event : String
  data : List String

def Fields.line (fields : Fields) (line : List Char) : Fields :=
  if line = [] ∨ line.head? = some ':' then fields
  else
    let rest := (line.dropWhile (· ≠ ':')).drop 1
    let value := String.ofList (if rest.head? = some ' ' then rest.drop 1 else rest)
    match String.ofList (line.takeWhile (· ≠ ':')) with
    | "id" => { fields with id := some value }
    | "event" => { fields with event := value }
    | "data" => { fields with data := fields.data ++ [value] }
    | _ => fields

def decodeBlock (block : List Char) : Option SseMessage :=
  let fields := (block.splitOn '\n').foldl Fields.line ⟨none, "message", []⟩
  if fields.data = [] then none else some ⟨fields.id, fields.event, "\n".intercalate fields.data⟩

/-- `SseDecoder.push`: the messages, and the new buffer. -/
def push (buffer chunk : List Char) : List SseMessage × List Char :=
  let text := buffer ++ normalize chunk
  let (blocks, buffer) := drain text.length text
  (blocks.filterMap decodeBlock, buffer)

/-- The messages of the chunks, from this buffer on. -/
def feed : List Char → List (List Char) → List SseMessage
  | _, [] => []
  | buffer, chunk :: chunks => (push buffer chunk).1 ++ feed (push buffer chunk).2 chunks

/-! ## The buffer -/

/-- What the loop takes from a text, and what it leaves. -/
inductive Drains : List Char → List (List Char) → List Char → Prop
  | done {text : List Char} (h : cut text = none) : Drains text [] text
  | block {text block rest left : List Char} {blocks : List (List Char)} (h : cut text = some (block, rest))
      (hrest : Drains rest blocks left) : Drains text (block :: blocks) left

theorem cut_append {text block rest : List Char} (more : List Char) (h : cut text = some (block, rest)) :
    cut (text ++ more) = some (block, rest ++ more) ∧ rest.length < text.length := by
  induction text generalizing block with
  | nil => cases h
  | cons c text ih =>
    rw [List.cons_append, cut]
    rw [cut] at h
    cases text with
    | nil => simp [cut] at h
    | cons d text =>
      rw [List.cons_append, List.head?_cons]
      rw [List.head?_cons] at h
      split_ifs at h ⊢ with hline
      · cases h
        exact ⟨rfl, Nat.lt_succ_of_lt (Nat.lt_succ_self _)⟩
      · obtain ⟨p, hp, heq⟩ := Option.map_eq_some_iff.mp h
        obtain ⟨rfl, rfl⟩ := Prod.mk.inj heq
        obtain ⟨hcut, hlt⟩ := ih hp
        rw [← List.cons_append, hcut]
        exact ⟨rfl, Nat.lt_succ_of_lt hlt⟩

theorem drains_drain (fuel : ℕ) (text : List Char) (h : text.length ≤ fuel) :
    Drains text (drain fuel text).1 (drain fuel text).2 := by
  induction fuel generalizing text with
  | zero =>
    rw [List.length_eq_zero_iff.mp (Nat.le_zero.mp h)]
    exact .done rfl
  | succ fuel ih =>
    rw [drain]
    cases hcut : cut text with
    | none => exact .done hcut
    | some p =>
      have hlt := (cut_append [] hcut).2
      exact .block hcut (ih _ (by omega))

theorem Drains.left_whole {text left : List Char} {blocks : List (List Char)}
    (h : Drains text blocks left) : cut left = none := by
  induction h with
  | done h => exact h
  | block _ _ ih => exact ih

theorem Drains.unique {text left left' : List Char} {blocks blocks' : List (List Char)}
    (h : Drains text blocks left) (h' : Drains text blocks' left') : blocks = blocks' ∧ left = left' := by
  induction h generalizing blocks' with
  | done h =>
    cases h' with
    | done => exact ⟨rfl, rfl⟩
    | block hcut => simp [h] at hcut
  | block h hrest ih =>
    cases h' with
    | done hnone => simp [h] at hnone
    | block hcut hrest' =>
      rw [h, Option.some.injEq, Prod.mk.injEq] at hcut
      obtain ⟨rfl, rfl⟩ := hcut
      obtain ⟨rfl, rfl⟩ := ih hrest'
      exact ⟨rfl, rfl⟩

/-- **The loop goes on where it stopped** when more text comes. -/
theorem Drains.append {text more left left' : List Char} {blocks blocks' : List (List Char)}
    (h : Drains text blocks left) (h' : Drains (left ++ more) blocks' left') :
    Drains (text ++ more) (blocks ++ blocks') left' := by
  induction h with
  | done => exact h'
  | block h hrest ih => exact .block (cut_append more h).1 (ih h')

/-! ## Chunks -/

/-- No chunk starts with `\n` after a `\r`. -/
def lineEndsWhole (before : List Char) : List (List Char) → Bool
  | [] => true
  | chunk :: chunks =>
    !(before.getLast? == some '\r' && chunk.head? == some '\n') && lineEndsWhole (before ++ chunk) chunks

theorem normalize_append {x y : List Char} (h : ¬(x.getLast? = some '\r' ∧ y.head? = some '\n')) :
    normalize (x ++ y) = normalize x ++ normalize y := by
  induction x with
  | nil => rfl
  | cons c x ih =>
    rw [List.cons_append, normalize, normalize]
    cases x with
    | nil =>
      have hline : ¬(c = '\r' ∧ y.head? = some '\n') := fun hc => h ⟨by rw [hc.1]; rfl, hc.2⟩
      rw [List.nil_append, if_neg hline, if_neg (by simp)]
      rfl
    | cons d x =>
      rw [ih fun hc => h ⟨by rw [List.getLast?_cons_cons, hc.1], hc.2⟩, List.cons_append, List.head?_cons,
        List.head?_cons]
      split_ifs <;> rfl

theorem normalize_flatten {before : List Char} {chunks : List (List Char)} (h : lineEndsWhole before chunks = true) :
    normalize (before ++ chunks.flatten) = normalize before ++ (chunks.map normalize).flatten := by
  induction chunks generalizing before with
  | nil => simp
  | cons chunk chunks ih =>
    simp only [lineEndsWhole, Bool.and_eq_true, Bool.not_eq_true', Bool.and_eq_false_iff, beq_eq_false_iff_ne] at h
    have hwhole : ¬(before.getLast? = some '\r' ∧ chunk.head? = some '\n') :=
      fun hc => h.1.elim (absurd hc.1) (absurd hc.2)
    rw [List.flatten_cons, ← List.append_assoc, ih h.2, normalize_append hwhole, List.map_cons,
      List.flatten_cons, List.append_assoc]

theorem feed_drains (buffer : List Char) (chunks : List (List Char)) (hbuffer : cut buffer = none) :
    ∃ blocks left, Drains (buffer ++ (chunks.map normalize).flatten) blocks left ∧
      feed buffer chunks = blocks.filterMap decodeBlock := by
  induction chunks generalizing buffer with
  | nil =>
    rw [List.map_nil, List.flatten_nil, List.append_nil]
    exact ⟨[], buffer, .done hbuffer, rfl⟩
  | cons chunk chunks ih =>
    have hdrain := drains_drain _ (buffer ++ normalize chunk) le_rfl
    obtain ⟨blocks, left, hrest, hfeed⟩ := ih (push buffer chunk).2 hdrain.left_whole
    refine ⟨(drain (buffer ++ normalize chunk).length (buffer ++ normalize chunk)).1 ++ blocks, left, ?_, ?_⟩
    · rw [List.map_cons, List.flatten_cons, ← List.append_assoc]
      exact hdrain.append hrest
    · rw [feed, hfeed, List.filterMap_append]
      rfl

/-- **Chunks do not matter** as long as no line end is cut in two. -/
theorem chunks_decode (chunks : List (List Char)) (h : lineEndsWhole [] chunks = true) :
    feed [] chunks = feed [] [chunks.flatten] := by
  obtain ⟨blocks, left, hdrains, hfeed⟩ := feed_drains [] chunks rfl
  obtain ⟨blocks', left', hdrains', hfeed'⟩ := feed_drains [] [chunks.flatten] rfl
  have hnormalized := normalize_flatten h
  rw [List.nil_append, normalize, List.nil_append] at hnormalized
  rw [List.map_singleton, List.flatten_singleton, hnormalized] at hdrains'
  rw [hfeed, hfeed', (hdrains.unique hdrains').1]

/-- A stream with `\r\n` that is cut in the middle of a line. -/
theorem cut_in_a_line :
    feed [] ["id: 1\r\nda".toList, "ta: x\r\n\r\n".toList] = [⟨some "1", "message", "x"⟩] := by
  rw [chunks_decode _ (by decide)]
  decide

/-- A `\r\n` that is cut in two. -/
theorem cut_line_end_differs : feed [] ["data: x\r".toList, "\n\r\n".toList] = [⟨none, "message", "x\r"⟩] ∧
      feed [] ["data: x\r\n\r\n".toList] = [⟨none, "message", "x"⟩] := by
  decide

end Aftercare.Web
