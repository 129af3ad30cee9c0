import Aftercare.Text.JsonRoundTrip

/-!
# JSON text on one line

`json.dumps` without options writes a space after each comma and colon, and the members of an object in their order.
Such a text stands on one line, and the reader reads it back (`Reads`).
-/

namespace Aftercare.Text

mutual

/-- `json.dumps(value, ensure_ascii=False)`. -/
def Json.spaced : Json → String
  | .array items => "[" ++ spacedItems items ++ "]"
  | .object pairs => "\x7b" ++ spacedPairs pairs ++ "\x7d"
  | value => value.dumps

def spacedItems : List Json → String
  | [] => ""
  | [item] => item.spaced
  | item :: items => item.spaced ++ ", " ++ spacedItems items

def spacedPairs : List (String × Json) → String
  | [] => ""
  | [(key, value)] => quoted key ++ ": " ++ value.spaced
  | (key, value) :: pairs => quoted key ++ ": " ++ value.spaced ++ ", " ++ spacedPairs pairs

end

/-! ## One line -/

def lineChar (c : Char) : Bool := c != '\n' && c != '\r'

def OneLine (text : List Char) : Prop := ∀ c ∈ text, lineChar c

theorem OneLine.append {a b : List Char} (ha : OneLine a) (hb : OneLine b) : OneLine (a ++ b) :=
  fun c hc => (List.mem_append.mp hc).elim (ha c) (hb c)

theorem lineChar_hexDigit : ∀ n < 16, lineChar (hexDigit n) := by decide

theorem oneLine_escapeChar (c : Char) : OneLine (escapeChar c).toList := by
  unfold escapeChar
  split_ifs with _ _ hn hr _ _ _ hlow
  iterate 7 exact List.all_eq_true.mp (by decide)
  · have hdigits : OneLine [hexDigit (c.toNat / 16), hexDigit (c.toNat % 16)] := by
      intro d hd
      simp only [List.mem_cons, List.not_mem_nil, or_false] at hd
      obtain rfl | rfl := hd
      · exact lineChar_hexDigit _ (by omega)
      · exact lineChar_hexDigit _ (Nat.mod_lt _ (by omega))
    rw [String.toList_append]
    refine OneLine.append (List.all_eq_true.mp (by decide)) ?_
    rw [String.toList_ofList]
    exact hdigits
  · intro d hd
    rw [String.toList_singleton, List.mem_singleton] at hd
    simp [lineChar, hd, hn, hr]

theorem oneLine_quotedChars (s : String) : OneLine (quotedChars s) := by
  have hquote : OneLine ['"'] := List.all_eq_true.mp (by decide)
  refine hquote.append (OneLine.append (fun c hc => ?_) hquote)
  obtain ⟨d, -, hd⟩ := List.mem_flatMap.mp hc
  exact oneLine_escapeChar d c hd

/-! ## Reading back -/

/-- The text stands on one line, and the reader takes it for the value. -/
structure Reads (text : List Char) (value : Json) : Prop where
  read : ∀ {depth : ℕ} {rest : List Char}, text.length ≤ depth → Ends rest →
    parseValue depth (text ++ rest) = some (value, rest)
  start : ∃ c tail, text = c :: tail ∧ opens c
  oneLine : OneLine text

theorem reads_scalar {value : Json} (hwhole : value.whole) (htext : value.spaced.toList = value.chars)
    (hline : OneLine value.chars) : Reads value.spaced.toList value := by
  rw [htext]
  exact ⟨fun hdepth hrest => parseValue_chars value hwhole hdepth hrest, head_chars value hwhole, hline⟩

theorem reads_null : Reads Json.null.spaced.toList .null := reads_scalar rfl rfl (List.all_eq_true.mp (by decide))

theorem reads_string (s : String) : Reads (Json.string s).spaced.toList (.string s) :=
  reads_scalar rfl (toList_quoted s) (oneLine_quotedChars s)

theorem reads_int (n : ℤ) : Reads (Json.int n).spaced.toList (.int n) := by
  refine reads_scalar rfl rfl fun c hc => ?_
  have htoken := tokenChar_int n c hc
  rw [lineChar, Bool.and_eq_true, bne_iff_ne, bne_iff_ne]
  constructor
  all_goals
    rintro rfl
    exact absurd htoken (by decide)

def spacedMember (p : String × Json) : List Char := quotedChars p.1 ++ ':' :: ' ' :: p.2.spaced.toList

def spacedTail : List (String × Json) → List Char
  | [] => ['\x7d']
  | p :: pairs => ',' :: ' ' :: (spacedMember p ++ spacedTail pairs)

theorem toList_spacedPairs (p : String × Json) (pairs : List (String × Json)) :
    (spacedPairs (p :: pairs)).toList ++ ['\x7d'] = spacedMember p ++ spacedTail pairs := by
  induction pairs generalizing p with
  | nil => simp [spacedPairs, spacedMember, spacedTail, toList_quoted]
  | cons q pairs ih =>
    rw [spacedPairs, String.toList_append, List.append_assoc, ih, spacedTail]
    · simp [spacedMember, toList_quoted]
    · simp

theorem skipSpace_blank_reads {text : List Char} {value : Json} (h : Reads text value) (rest : List Char) :
    skipSpace (' ' :: (text ++ rest)) = text ++ rest := by
  obtain ⟨c, tail, rfl, hc⟩ := h.start
  exact skipSpace_of_opens hc _

theorem parsePairs_member {depth : ℕ} {p : String × Json} {rest : List Char} (h : Reads p.2.spaced.toList p.2)
    (hdepth : p.2.spaced.toList.length ≤ depth) (hrest : Ends rest) :
    parsePairs (depth + 1) (spacedMember p ++ rest) = match skipSpace rest with
      | '\x7d' :: rest => some ([p], rest)
      | ',' :: rest => (parsePairs depth (skipSpace rest)).map fun read => (p :: read.1, read.2)
      | _ => none := by
  have hvalue := h.read hdepth hrest
  rw [spacedMember, quotedChars, List.append_assoc, List.cons_append, List.append_assoc, List.singleton_append,
    parsePairs, parseString_quoted, Option.bind_some]
  change Option.bind (parseValue depth (skipSpace (' ' :: (p.2.spaced.toList ++ rest)))) _ = _
  rw [skipSpace_blank_reads h, hvalue]
  rfl

theorem ends_spacedTail (pairs : List (String × Json)) (rest : List Char) : Ends (spacedTail pairs ++ rest) := by
  cases pairs with
  | nil => exact ends_cons (by decide) _
  | cons p pairs => exact ends_cons (by decide) _

theorem parsePairs_spaced {depth : ℕ} (p : String × Json) (pairs : List (String × Json)) (rest : List Char)
    (h : ∀ q ∈ p :: pairs, Reads q.2.spaced.toList q.2)
    (hdepth : (spacedMember p ++ spacedTail pairs).length ≤ depth) :
    parsePairs depth (spacedMember p ++ spacedTail pairs ++ rest) = some (p :: pairs, rest) := by
  induction pairs generalizing p depth with
  | nil =>
    simp only [spacedMember, List.length_append, List.length_cons] at hdepth
    obtain ⟨depth, rfl⟩ : ∃ n, depth = n + 1 := ⟨depth - 1, by omega⟩
    rw [List.append_assoc, parsePairs_member (h p List.mem_cons_self) (by omega) (ends_spacedTail [] rest)]
    rfl
  | cons q pairs ih =>
    have hq : ∀ r ∈ q :: pairs, Reads r.2.spaced.toList r.2 := fun r hr => h r (List.mem_cons_of_mem p hr)
    rw [spacedTail, List.length_append, List.length_cons, List.length_cons, spacedMember, List.length_append,
      List.length_cons, List.length_cons] at hdepth
    obtain ⟨depth, rfl⟩ : ∃ n, depth = n + 1 := ⟨depth - 1, by omega⟩
    rw [List.append_assoc, parsePairs_member (h p List.mem_cons_self) (by omega) (ends_spacedTail _ rest)]
    change Option.map _ (parsePairs depth (skipSpace (spacedMember q ++ spacedTail pairs ++ rest))) = _
    have hspace : skipSpace (spacedMember q ++ spacedTail pairs ++ rest) =
        spacedMember q ++ spacedTail pairs ++ rest := skipSpace_of_opens (by decide) _
    rw [hspace, ih q hq (by omega), Option.map_some]

theorem oneLine_spacedMember {p : String × Json} (h : Reads p.2.spaced.toList p.2) : OneLine (spacedMember p) := by
  have hcolon : OneLine [':', ' '] := List.all_eq_true.mp (by decide)
  exact (oneLine_quotedChars p.1).append (hcolon.append h.oneLine)

theorem oneLine_spacedTail {pairs : List (String × Json)} (h : ∀ q ∈ pairs, Reads q.2.spaced.toList q.2) :
    OneLine (spacedTail pairs) := by
  induction pairs with
  | nil => exact List.all_eq_true.mp (by decide)
  | cons p pairs ih =>
    have hcomma : OneLine [',', ' '] := List.all_eq_true.mp (by decide)
    have hrest := ih fun q hq => h q (List.mem_cons_of_mem p hq)
    exact hcomma.append ((oneLine_spacedMember (h p List.mem_cons_self)).append hrest)

/-- **An object is read back** when the values of its members are. -/
theorem reads_object {pairs : List (String × Json)} (h : ∀ q ∈ pairs, Reads q.2.spaced.toList q.2) :
    Reads (Json.object pairs).spaced.toList (.object pairs) := by
  cases pairs with
  | nil =>
    refine ⟨fun {depth rest} hdepth _ => ?_, ⟨'\x7b', _, rfl, rfl⟩, List.all_eq_true.mp (by decide)⟩
    obtain ⟨depth, rfl⟩ : ∃ n, depth = n + 1 := ⟨depth - 1, (Nat.sub_add_cancel (Nat.le_of_succ_le hdepth)).symm⟩
    rfl
  | cons p pairs =>
    have htext : (Json.object (p :: pairs)).spaced.toList = '\x7b' :: (spacedMember p ++ spacedTail pairs) := by
      rw [Json.spaced, String.toList_append, String.toList_append, List.append_assoc, ← toList_spacedPairs]
      rfl
    rw [htext]
    refine ⟨fun {depth rest} hdepth _ => ?_, ⟨'\x7b', _, rfl, rfl⟩, ?_⟩
    · rw [List.length_cons] at hdepth
      obtain ⟨depth, rfl⟩ : ∃ n, depth = n + 1 := ⟨depth - 1, by omega⟩
      have hspace : skipSpace (spacedMember p ++ spacedTail pairs ++ rest) =
          spacedMember p ++ spacedTail pairs ++ rest := skipSpace_of_opens (by decide) _
      rw [List.cons_append, parseValue, hspace, if_neg, parsePairs_spaced p pairs rest h (by omega), Option.map_some]
      rw [spacedMember, quotedChars, List.cons_append, List.cons_append, List.cons_append, List.head?_cons]
      decide
    · have hopen : OneLine ['\x7b'] := List.all_eq_true.mp (by decide)
      exact hopen.append ((oneLine_spacedMember (h p List.mem_cons_self)).append
        (oneLine_spacedTail fun q hq => h q (List.mem_cons_of_mem p hq)))

theorem loads_of_reads {text : String} {value : Json} (h : Reads text.toList value) : loads text = .ok value.merged := by
  have hends : Ends [] := fun c hc => by cases hc
  have hread : parseValue _ (text.toList ++ []) = some (value, []) := h.read le_rfl hends
  obtain ⟨c, tail, htext, hc⟩ := h.start
  rw [List.append_nil, String.length_toList] at hread
  have hspace : skipSpace text.toList = text.toList := by
    rw [htext]
    exact skipSpace_of_opens hc tail
  rw [loads, hspace, hread]
  rfl

end Aftercare.Text
