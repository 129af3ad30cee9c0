import Aftercare.Text.JsonReader
import Mathlib.Algebra.BigOperators.Group.List.Basic

/-!
# Reading back what was encoded

A value without fractions is read back from its text. So the text determines the value, up to the order
of its keys, and the text of an object that breaks off is not read at all. The length of the text is a
sum over the parts of the value.
-/

namespace Aftercare.Text

/-! ## Reading a text back -/

/-- The characters of a string inside of its quotes. -/
def escaped (cs : List Char) : List Char := cs.flatMap fun c => (escapeChar c).toList

def quotedChars (s : String) : List Char := '"' :: (escaped s.toList ++ ['"'])

mutual

/-- The compact text, with the members in their own order. -/
def Json.chars : Json → List Char
  | .null => "null".toList
  | .bool b => if b then "true".toList else "false".toList
  | .int n => (toString n).toList
  | .float text _ => text.toList
  | .string s => quotedChars s
  | .array [] => ['[', ']']
  | .array (item :: items) => '[' :: (item.chars ++ itemsTail items)
  | .object [] => ['\x7b', '\x7d']
  | .object ((key, value) :: pairs) =>
    '\x7b' :: (quotedChars key ++ ':' :: (value.chars ++ pairsTail pairs))

def itemsTail : List Json → List Char
  | [] => [']']
  | item :: items => ',' :: (item.chars ++ itemsTail items)

def pairsTail : List (String × Json) → List Char
  | [] => ['\x7d']
  | (key, value) :: pairs => ',' :: (quotedChars key ++ ':' :: (value.chars ++ pairsTail pairs))

end

mutual

def Json.whole : Json → Bool
  | .null | .bool _ | .int _ | .string _ => true
  | .float _ _ => false
  | .array items => wholeItems items
  | .object pairs => wholePairs pairs

def wholeItems : List Json → Bool
  | [] => true
  | item :: items => item.whole && wholeItems items

def wholePairs : List (String × Json) → Bool
  | [] => true
  | (_, value) :: pairs => value.whole && wholePairs pairs

end

theorem hexNumber_control : ∀ n < 32,
    hexNumber anyHexDigit ['0', '0', hexDigit (n / 16), hexDigit (n % 16)] = some n := by
  decide

theorem scanString_escapeChar (c : Char) (rest : List Char) : scanString ((escapeChar c).toList ++ rest) =
      (scanString rest).map fun p => (c.toNat :: p.1, p.2) := by
  unfold escapeChar
  split_ifs with hquote hslash hn hr ht hb hf hlow
  · exact hquote ▸ scanString_escape (by decide) rest
  · exact hslash ▸ scanString_escape (by decide) rest
  · exact hn ▸ scanString_escape (by decide) rest
  · exact hr ▸ scanString_escape (by decide) rest
  · exact ht ▸ scanString_escape (by decide) rest
  · exact hb ▸ scanString_escape (by decide) rest
  · exact hf ▸ scanString_escape (by decide) rest
  · rw [String.toList_append, String.toList_ofList, String.toList_ofList]
    change scanString ('\\' :: 'u' :: '0' :: '0' :: hexDigit _ :: hexDigit _ :: rest) = _
    rw [scanString, hexNumber_control c.toNat hlow, Option.bind_some]
  · rw [String.toList_singleton]
    change scanString (c :: rest) = _
    rw [scanString_plain hquote hslash, if_neg hlow]

theorem scanString_escaped (cs rest : List Char) :
    scanString (escaped cs ++ '"' :: rest) = some (cs.map Char.toNat, rest) := by
  induction cs with
  | nil => rfl
  | cons c cs ih =>
    rw [escaped, List.flatMap_cons, List.append_assoc, scanString_escapeChar]
    rw [escaped] at ih
    rw [ih]
    rfl

theorem joinSurrogates_toNat (cs : List Char) : joinSurrogates (cs.map Char.toNat) = some cs := by
  have hvalid : ∀ c : Char, ¬(0xD800 ≤ c.toNat ∧ c.toNat < 0xE000) := by
    intro c h
    have hc : c.toNat.isValidChar := c.valid
    unfold Nat.isValidChar at hc
    omega
  induction cs with
  | nil => rfl
  | cons c cs ih =>
    cases cs with
    | nil =>
      rw [List.map_cons, List.map_nil, joinSurrogates, if_neg (hvalid c), Char.ofNat_toNat]
    | cons d cs =>
      rw [List.map_cons] at ih ⊢
      rw [List.map_cons, joinSurrogates, if_neg (fun h => hvalid c ⟨h.1, by omega⟩), if_neg (hvalid c), ih,
        Option.map_some, Char.ofNat_toNat]

theorem parseString_quoted (s : String) (rest : List Char) :
    parseString (escaped s.toList ++ '"' :: rest) = some (s, rest) := by
  rw [parseString, scanString_escaped, Option.bind_some, joinSurrogates_toNat, Option.map_some, String.ofList_toList]

def Ends (rest : List Char) : Prop := ∀ c ∈ rest.head?, tokenChar c = false

theorem scanToken_of_ends {token rest : List Char} {value : Json} (hchars : ∀ c ∈ token, tokenChar c)
    (hrest : Ends rest) (h : readToken token = some value) : scanToken (token ++ rest) = some (value, rest) := by
  have htake : rest.takeWhile tokenChar = [] := by
    cases rest with
    | nil => rfl
    | cons c rest => exact List.takeWhile_cons_of_neg (by simp [hrest c rfl])
  have hdrop : rest.dropWhile tokenChar = rest := by
    cases rest with
    | nil => rfl
    | cons c rest => exact List.dropWhile_cons_of_neg (by simp [hrest c rfl])
  rw [scanToken, List.takeWhile_append_of_pos hchars, List.dropWhile_append_of_pos hchars, htake, hdrop,
    List.append_nil, h, Option.map_some]

theorem head_toDigits {n : ℕ} (h : n ≠ 0) : (Nat.toDigits 10 n).head?.any (· != '0') = true := by
  have hdigit : ∀ n < 10, n ≠ 0 → [Nat.digitChar n].head?.any (· != '0') = true := by decide
  induction n using Nat.strong_induction_on with
  | _ n ih =>
    by_cases hlt : n < 10
    · rw [Nat.toDigits_of_lt_base hlt]
      exact hdigit n hlt h
    · rw [Nat.toDigits_of_base_le (by decide) (by omega), List.head?_append_of_ne_nil _ Nat.toDigits_ne_nil]
      exact ih (n / 10) (by omega) (by omega)

theorem wholeDigits_toDigits (n : ℕ) : wholeDigits (Nat.toDigits 10 n) = true := by
  have hall : (Nat.toDigits 10 n).all Char.isDigit = true :=
    List.all_eq_true.mpr fun c hc => Nat.isDigit_of_mem_toDigits (by decide) (by decide) hc
  by_cases h : n = 0
  · rw [h]
    decide
  · rw [wholeDigits, hall, head_toDigits h, Bool.or_true, Bool.and_true]

theorem readDigits_toDigits (token : List Char) (n : ℕ) (sign : ℤ) :
    readDigits token (Nat.toDigits 10 n) sign = some (.int (sign * n)) := by
  have hall : ∀ c ∈ Nat.toDigits 10 n, c.isDigit := fun c hc => Nat.isDigit_of_mem_toDigits (by decide) (by decide) hc
  rw [readDigits, List.takeWhile_eq_self_iff.mpr hall, List.dropWhile_eq_nil_iff.mpr hall, wholeDigits_toDigits,
    Nat.ofDigitChars_toDigits (by decide) (by decide)]
  rfl

theorem head_toDigits_ne_minus (n : ℕ) : (Nat.toDigits 10 n).head? ≠ some '-' := by
  intro h
  have hdigit := Nat.isDigit_of_mem_toDigits (by decide) (by decide) (List.mem_of_mem_head? h)
  exact absurd hdigit (by decide)

theorem toList_int (n : ℤ) : (toString n).toList = Nat.toDigits 10 n.toNat ∧ 0 ≤ n ∨
    (toString n).toList = '-' :: Nat.toDigits 10 (-n).toNat ∧ n < 0 := by
  rw [Int.toString_eq_repr, Int.repr_eq_if]
  split_ifs with hn
  · rw [Nat.repr_eq_ofList_toDigits, String.toList_ofList]
    exact .inl ⟨rfl, hn⟩
  · rw [String.toList_append, Nat.repr_eq_ofList_toDigits, String.toList_ofList, String.toList_ofList,
      List.singleton_append]
    exact .inr ⟨rfl, by omega⟩

theorem readNumber_int (n : ℤ) : readNumber (toString n).toList = some (.int n) := by
  obtain ⟨htext, hn⟩ | ⟨htext, hn⟩ := toList_int n
  · rw [htext, readNumber, if_neg (head_toDigits_ne_minus _), readDigits_toDigits, one_mul, Int.toNat_of_nonneg hn]
  · rw [htext, readNumber, if_pos List.head?_cons, List.tail_cons, readDigits_toDigits,
      Int.toNat_of_nonneg (by omega), neg_one_mul, neg_neg]

theorem readToken_int (n : ℤ) : readToken (toString n).toList = some (.int n) := by
  have hread := readNumber_int n
  have hword : ∀ word : List Char, readNumber word = none → (toString n).toList ≠ word := by
    rintro word hnone rfl
    rw [hread] at hnone
    cases hnone
  rw [readToken, if_neg (hword _ (by decide)), if_neg (hword _ (by decide)),
    if_neg (hword _ (by decide)), if_neg, hread]
  rintro (h | h | h)
  all_goals exact hword _ (by decide) h

theorem tokenChar_int (n : ℤ) : ∀ c ∈ (toString n).toList, tokenChar c := by
  have hdigits : ∀ m, ∀ c ∈ Nat.toDigits 10 m, tokenChar c := by
    intro m c hc
    have hdigit := Nat.isDigit_of_mem_toDigits (by decide) (by decide) hc
    simp [tokenChar, Char.isAlphanum, hdigit]
  intro c hc
  obtain ⟨htext, -⟩ | ⟨htext, -⟩ := toList_int n
  · exact hdigits _ c (htext ▸ hc)
  · obtain rfl | hc := List.mem_cons.mp (htext ▸ hc)
    · rfl
    · exact hdigits _ c hc

def opens (c : Char) : Bool := tokenChar c || c == '"' || c == '[' || c == '\x7b'

theorem head_chars (value : Json) (h : value.whole) : ∃ c tail, value.chars = c :: tail ∧ opens c := by
  cases value with
  | null => exact ⟨'n', _, rfl, rfl⟩
  | bool b => cases b with
    | false => exact ⟨'f', _, rfl, rfl⟩
    | true => exact ⟨'t', _, rfl, rfl⟩
  | int n =>
    cases htext : (toString n).toList with
    | nil =>
      obtain ⟨h, -⟩ | ⟨h, -⟩ := toList_int n
      · exact absurd (h.symm.trans htext) Nat.toDigits_ne_nil
      · cases h.symm.trans htext
    | cons c tail =>
      have hc := tokenChar_int n c (htext ▸ List.mem_cons_self)
      exact ⟨c, tail, htext, by simp [opens, hc]⟩
  | float text finite => cases h
  | string s => exact ⟨'"', _, rfl, rfl⟩
  | array items =>
    cases items with
    | nil => exact ⟨'[', _, rfl, rfl⟩
    | cons item items => exact ⟨'[', _, rfl, rfl⟩
  | object pairs =>
    cases pairs with
    | nil => exact ⟨'\x7b', _, rfl, rfl⟩
    | cons pair pairs => exact ⟨'\x7b', _, rfl, rfl⟩

theorem skipSpace_of_opens {c : Char} (h : opens c) (rest : List Char) : skipSpace (c :: rest) = c :: rest := by
  refine List.dropWhile_cons_of_neg fun hspace => ?_
  simp only [Bool.or_eq_true, beq_iff_eq] at hspace
  obtain ((rfl | rfl) | rfl) | rfl := hspace
  all_goals exact absurd h (by decide)

theorem skipSpace_chars {value : Json} (h : value.whole) (rest : List Char) :
    skipSpace (value.chars ++ rest) = value.chars ++ rest := by
  obtain ⟨c, tail, htext, hc⟩ := head_chars value h
  rw [htext, List.cons_append, skipSpace_of_opens hc]

theorem parseValue_word {depth : ℕ} {token rest : List Char} {value : Json}
    (hchars : ∀ c ∈ token, tokenChar c) (hread : readToken token = some value) (hrest : Ends rest) :
    parseValue (depth + 1) (token ++ rest) = some (value, rest) := by
  have hne : token ≠ [] := by
    rintro rfl
    cases hread
  rw [parseValue_token, scanToken_of_ends hchars hrest hread]
  intro c hc
  rw [List.head?_append_of_ne_nil _ hne] at hc
  have htoken := hchars c (List.mem_of_mem_head? hc)
  refine ⟨?_, ?_, ?_⟩
  all_goals
    rintro rfl
    exact absurd htoken (by decide)

theorem ends_cons {c : Char} (h : tokenChar c = false) (rest : List Char) : Ends (c :: rest) := by
  rintro d hd
  cases hd
  exact h

theorem ends_itemsTail (items : List Json) (rest : List Char) : Ends (itemsTail items ++ rest) := by
  cases items with
  | nil => exact ends_cons (by decide) _
  | cons item items => exact ends_cons (by decide) _

theorem ends_pairsTail (pairs : List (String × Json)) (rest : List Char) : Ends (pairsTail pairs ++ rest) := by
  cases pairs with
  | nil => exact ends_cons (by decide) _
  | cons pair pairs => exact ends_cons (by decide) _

theorem length_itemsTail_pos (items : List Json) : 0 < (itemsTail items).length := by
  cases items with
  | nil => exact Nat.succ_pos _
  | cons item items => exact Nat.succ_pos _

theorem length_pairsTail_pos (pairs : List (String × Json)) : 0 < (pairsTail pairs).length := by
  cases pairs with
  | nil => exact Nat.succ_pos _
  | cons pair pairs => exact Nat.succ_pos _

mutual

theorem parseValue_chars {depth : ℕ} {rest : List Char} (value : Json) (hwhole : value.whole)
    (hdepth : value.chars.length ≤ depth) (hrest : Ends rest) :
    parseValue depth (value.chars ++ rest) = some (value, rest) := by
  obtain ⟨depth, rfl⟩ : ∃ n, depth = n + 1 := by
    obtain ⟨c, tail, htext, -⟩ := head_chars value hwhole
    rw [htext, List.length_cons] at hdepth
    exact ⟨depth - 1, by omega⟩
  match value with
  | .null | .bool true | .bool false => exact parseValue_word (List.all_eq_true.mp (by decide)) rfl hrest
  | .int n => exact parseValue_word (tokenChar_int n) (readToken_int n) hrest
  | .float text finite => cases hwhole
  | .string s =>
    rw [Json.chars, quotedChars, List.cons_append, List.append_assoc, List.singleton_append, parseValue,
      parseString_quoted, Option.map_some]
  | .array [] => rfl
  | .array (item :: items) =>
    rw [Json.chars, List.length_cons] at hdepth
    have hitem : item.whole := (Bool.and_eq_true _ _ ▸ hwhole).1
    obtain ⟨c, tail, htext, hc⟩ := head_chars item hitem
    have hclose : c ≠ ']' := by
      rintro rfl
      exact absurd hc (by decide)
    have hitems := parseItems_chars item items rest hwhole (Nat.le_of_succ_le_succ hdepth)
    rw [Json.chars, List.cons_append, parseValue, List.append_assoc, skipSpace_chars hitem, if_neg,
      ← List.append_assoc, hitems, Option.map_some]
    rw [htext]
    simpa using hclose
  | .object [] => rfl
  | .object ((key, value) :: pairs) =>
    rw [Json.chars, List.length_cons] at hdepth
    have hpairs := parsePairs_chars key value pairs rest hwhole (Nat.le_of_succ_le_succ hdepth)
    have hspace : skipSpace (quotedChars key ++ ':' :: (value.chars ++ pairsTail pairs) ++ rest) =
        quotedChars key ++ ':' :: (value.chars ++ pairsTail pairs) ++ rest :=
      skipSpace_of_opens (by decide) _
    rw [Json.chars, List.cons_append, parseValue, hspace, if_neg, hpairs, Option.map_some]
    rw [quotedChars, List.cons_append, List.cons_append, List.head?_cons]
    decide

theorem parseItems_chars {depth : ℕ} (item : Json) (items : List Json) (rest : List Char)
    (hwhole : wholeItems (item :: items)) (hdepth : (item.chars ++ itemsTail items).length ≤ depth) :
    parseItems depth (item.chars ++ itemsTail items ++ rest) = some (item :: items, rest) := by
  rw [wholeItems, Bool.and_eq_true] at hwhole
  rw [List.length_append] at hdepth
  have htail := length_itemsTail_pos items
  obtain ⟨depth, rfl⟩ : ∃ n, depth = n + 1 := ⟨depth - 1, by omega⟩
  have hitem : parseValue depth (item.chars ++ (itemsTail items ++ rest)) = some (item, itemsTail items ++ rest) :=
    parseValue_chars item hwhole.1 (by omega) (ends_itemsTail items rest)
  rw [List.append_assoc, parseItems, hitem, Option.bind_some]
  match items with
  | [] => rfl
  | next :: items =>
    rw [itemsTail, List.length_cons] at hdepth
    have hnext : next.whole := (Bool.and_eq_true _ _ ▸ hwhole.2).1
    have hitems : parseItems depth (next.chars ++ itemsTail items ++ rest) =
        some (next :: items, rest) := parseItems_chars next items rest hwhole.2 (by omega)
    change Option.map _ (parseItems depth (skipSpace (next.chars ++ itemsTail items ++ rest))) = _
    rw [List.append_assoc, skipSpace_chars hnext, ← List.append_assoc, hitems, Option.map_some]

theorem parsePairs_chars {depth : ℕ} (key : String) (value : Json) (pairs : List (String × Json))
    (rest : List Char) (hwhole : wholePairs ((key, value) :: pairs))
    (hdepth : (quotedChars key ++ ':' :: (value.chars ++ pairsTail pairs)).length ≤ depth) :
    parsePairs depth (quotedChars key ++ ':' :: (value.chars ++ pairsTail pairs) ++ rest) =
      some ((key, value) :: pairs, rest) := by
  rw [wholePairs, Bool.and_eq_true] at hwhole
  rw [List.length_append, List.length_cons, List.length_append] at hdepth
  have htail := length_pairsTail_pos pairs
  obtain ⟨depth, rfl⟩ : ∃ n, depth = n + 1 := ⟨depth - 1, by omega⟩
  have hvalue : parseValue depth (value.chars ++ (pairsTail pairs ++ rest)) = some (value, pairsTail pairs ++ rest) :=
    parseValue_chars value hwhole.1 (by omega) (ends_pairsTail pairs rest)
  rw [quotedChars, List.cons_append, List.cons_append, List.append_assoc, List.append_assoc,
    List.singleton_append, parsePairs, parseString_quoted, Option.bind_some]
  change Option.bind (parseValue depth (skipSpace (value.chars ++ pairsTail pairs ++ rest))) _ = _
  rw [List.append_assoc, skipSpace_chars hwhole.1, hvalue, Option.bind_some]
  match pairs with
  | [] => rfl
  | (next, second) :: pairs =>
    rw [pairsTail, List.length_cons] at hdepth
    have hpairs : parsePairs depth (quotedChars next ++ ':' :: (second.chars ++ pairsTail pairs) ++ rest) =
        some ((next, second) :: pairs, rest) :=
      parsePairs_chars next second pairs rest hwhole.2 (by omega)
    change Option.map _ (parsePairs depth
      (skipSpace (quotedChars next ++ ':' :: (second.chars ++ pairsTail pairs) ++ rest))) = _
    have hspace : skipSpace (quotedChars next ++ ':' :: (second.chars ++ pairsTail pairs) ++ rest) =
        quotedChars next ++ ':' :: (second.chars ++ pairsTail pairs) ++ rest :=
      skipSpace_of_opens (by decide) _
    rw [hspace, hpairs, Option.map_some]

end

/-! ## The encoder's text -/

theorem toList_quoted (s : String) : (quoted s).toList = quotedChars s := by
  rw [quoted, String.toList_append, String.toList_append, String.toList_join]
  simp [quotedChars, escaped, List.flatMap_map]

theorem toList_intercalate_cons (s : String) (rest : List String) :
    (",".intercalate (s :: rest)).toList = s.toList ++ rest.flatMap fun t => ',' :: t.toList := by
  induction rest generalizing s with
  | nil => simp
  | cons t rest ih =>
    rw [String.intercalate_cons_of_ne_nil (by simp), String.toList_append, String.toList_append, ih]
    simp

theorem itemsTail_eq (items : List Json) :
    itemsTail items = (items.flatMap fun item => ',' :: item.chars) ++ [']'] := by
  induction items with
  | nil => rfl
  | cons item items ih => simp [itemsTail, ih]

theorem pairsTail_eq (pairs : List (String × Json)) : pairsTail pairs =
      (pairs.flatMap fun p => ',' :: (quotedChars p.1 ++ ':' :: p.2.chars)) ++ ['\x7d'] := by
  induction pairs with
  | nil => rfl
  | cons pair pairs ih => simp [pairsTail, ih]

theorem dumpItems_eq_map (items : List Json) : dumpItems items = items.map Json.dumps := by
  induction items with
  | nil => rfl
  | cons item items ih => rw [dumpItems, ih, List.map_cons]

theorem dumpPairs_eq_map (pairs : List (String × Json)) : dumpPairs pairs = pairs.map fun p => (p.1, p.2.dumps) := by
  induction pairs with
  | nil => rfl
  | cons pair pairs ih => rw [dumpPairs, ih, List.map_cons]

theorem sortedItems_eq_map (items : List Json) : sortedItems items = items.map Json.sorted := by
  induction items with
  | nil => rfl
  | cons item items ih => rw [sortedItems, ih, List.map_cons]

theorem sortedPairs_eq_map (pairs : List (String × Json)) :
    sortedPairs pairs = pairs.map fun p => (p.1, p.2.sorted) := by
  induction pairs with
  | nil => rfl
  | cons pair pairs ih => rw [sortedPairs, ih, List.map_cons]

theorem map_insertionSort_key {α β : Type} (f : α → β) (pairs : List (String × α)) :
    (pairs.insertionSort fun a b => a.1 ≤ b.1).map (fun p => (p.1, f p.2)) =
      (pairs.map fun p => (p.1, f p.2)).insertionSort fun a b => a.1 ≤ b.1 :=
  List.map_insertionSort _ _ _ _ fun _ _ _ _ => Iff.rfl

theorem toList_bracketed {α : Type} {xs : List α} {text : α → String} {value : α → Json}
    (h : ∀ x ∈ xs, (text x).toList = (value x).chars) :
    (bracketed (xs.map text)).toList = (Json.array (xs.map value)).chars := by
  cases xs with
  | nil =>
    rw [List.map_nil, List.map_nil]
    rfl
  | cons x xs =>
    rw [List.forall_mem_cons] at h
    rw [bracketed, String.toList_append, String.toList_append, List.map_cons, toList_intercalate_cons,
      List.map_cons, Json.chars, itemsTail_eq, h.1, List.flatMap_map, List.flatMap_map,
      List.flatMap_congr fun x hx => congrArg (List.cons ',') (h.2 x hx)]
    simp

theorem toList_braced {pairs : List (String × Json)} (h : ∀ p ∈ pairs, p.2.dumps.toList = p.2.sorted.chars) :
    (braced (pairs.map fun p => (p.1, p.2.dumps))).toList =
      (Json.object (pairs.map fun p => (p.1, p.2.sorted))).chars := by
  cases pairs with
  | nil => rfl
  | cons pair pairs =>
    rw [List.forall_mem_cons] at h
    have hmember : ∀ p ∈ pairs, ',' :: (quoted p.1 ++ ":" ++ p.2.dumps).toList =
        ',' :: (quotedChars p.1 ++ ':' :: p.2.sorted.chars) := by
      intro p hp
      rw [String.toList_append, String.toList_append, toList_quoted, h.2 p hp]
      simp
    rw [braced, String.toList_append, String.toList_append, List.map_cons, List.map_cons,
      toList_intercalate_cons, List.map_cons, Json.chars, pairsTail_eq, List.flatMap_map,
      List.flatMap_map, List.flatMap_map, List.flatMap_congr hmember, String.toList_append,
      String.toList_append, toList_quoted, h.1]
    simp

mutual

theorem toList_dumps (value : Json) : value.dumps.toList = value.sorted.chars := by
  match value with
  | .null | .bool true | .bool false | .int n | .float text finite => rfl
  | .string s => exact toList_quoted s
  | .array items =>
    rw [Json.dumps, Json.sorted, dumpItems_eq_map, sortedItems_eq_map, toList_bracketed (toList_dumpItems items)]
  | .object pairs =>
    rw [Json.dumps, Json.sorted, dumpPairs_eq_map, sortedPairs_eq_map,
      ← map_insertionSort_key Json.dumps, ← map_insertionSort_key Json.sorted]
    exact toList_braced fun p hp => toList_dumpPairs pairs p (by simpa using hp)

theorem toList_dumpItems (items : List Json) : ∀ v ∈ items, v.dumps.toList = v.sorted.chars := by
  match items with
  | [] => exact fun v hv => absurd hv List.not_mem_nil
  | item :: items => exact List.forall_mem_cons.mpr ⟨toList_dumps item, toList_dumpItems items⟩

theorem toList_dumpPairs (pairs : List (String × Json)) : ∀ p ∈ pairs, p.2.dumps.toList = p.2.sorted.chars := by
  match pairs with
  | [] => exact fun p hp => absurd hp List.not_mem_nil
  | (key, value) :: pairs =>
    exact List.forall_mem_cons.mpr ⟨toList_dumps value, toList_dumpPairs pairs⟩

end

theorem wholeItems_iff {items : List Json} : wholeItems items = true ↔ ∀ v ∈ items, v.whole := by
  induction items with
  | nil => simp [wholeItems]
  | cons item items ih => rw [wholeItems, Bool.and_eq_true, ih, List.forall_mem_cons]

theorem wholePairs_iff {pairs : List (String × Json)} : wholePairs pairs = true ↔ ∀ p ∈ pairs, p.2.whole := by
  induction pairs with
  | nil => simp [wholePairs]
  | cons pair pairs ih => rw [wholePairs, Bool.and_eq_true, ih, List.forall_mem_cons]

mutual

theorem whole_sorted (value : Json) (h : value.whole) : value.sorted.whole := by
  match value with
  | .null | .bool b | .int n | .string s => rfl
  | .float text finite => cases h
  | .array items =>
    rw [Json.whole, wholeItems_iff] at h
    rw [Json.sorted, Json.whole, wholeItems_iff, sortedItems_eq_map, List.forall_mem_map]
    exact whole_sortedItems items h
  | .object pairs =>
    rw [Json.whole, wholePairs_iff] at h
    rw [Json.sorted, Json.whole, wholePairs_iff, sortedPairs_eq_map]
    intro p hp
    rw [List.mem_insertionSort, List.mem_map] at hp
    obtain ⟨q, hq, rfl⟩ := hp
    exact whole_sortedPairs pairs h q hq

theorem whole_sortedItems (items : List Json) (h : ∀ v ∈ items, v.whole) : ∀ v ∈ items, v.sorted.whole := by
  match items with
  | [] => exact fun v hv => absurd hv List.not_mem_nil
  | item :: items =>
    rw [List.forall_mem_cons] at h
    exact List.forall_mem_cons.mpr ⟨whole_sorted item h.1, whole_sortedItems items h.2⟩

theorem whole_sortedPairs (pairs : List (String × Json)) (h : ∀ p ∈ pairs, p.2.whole) :
    ∀ p ∈ pairs, p.2.sorted.whole := by
  match pairs with
  | [] => exact fun p hp => absurd hp List.not_mem_nil
  | (key, value) :: pairs =>
    rw [List.forall_mem_cons] at h
    exact List.forall_mem_cons.mpr ⟨whole_sorted value h.1, whole_sortedPairs pairs h.2⟩

end

theorem parseValue_dumps {value : Json} (h : value.whole) :
    parseValue value.dumps.length value.dumps.toList = some (value.sorted, []) := by
  have hends : Ends [] := fun c hc => by cases hc
  have hparse := parseValue_chars value.sorted (whole_sorted value h) le_rfl hends
  rwa [List.append_nil, ← toList_dumps, String.length_toList] at hparse

theorem loads_dumps {value : Json} (h : value.whole) : loads value.dumps = .ok value.sorted.merged := by
  have hspace : skipSpace value.dumps.toList = value.dumps.toList := by
    have hchars := skipSpace_chars (whole_sorted value h) []
    rwa [List.append_nil, ← toList_dumps] at hchars
  rw [loads, hspace, parseValue_dumps h]
  rfl

theorem sorted_of_dumps_eq {a b : Json} (ha : a.whole) (hb : b.whole) (h : a.dumps = b.dumps) :
    a.sorted = b.sorted := by
  have hread := parseValue_dumps ha
  rw [h, parseValue_dumps hb] at hread
  exact (congrArg Prod.fst (Option.some.inj hread)).symm

theorem head_dumps_object (pairs : List (String × Json)) : (Json.object pairs).dumps.toList.head? = some '\x7b' := by
  rw [toList_dumps, Json.sorted]
  cases (sortedPairs pairs).insertionSort fun a b => a.1 ≤ b.1 with
  | nil => rfl
  | cons pair rest => rfl

theorem loads_take_error {pairs : List (String × Json)} (h : (Json.object pairs).whole) {n : ℕ}
    (hn : n < (Json.object pairs).dumps.length) :
    loads (String.ofList ((Json.object pairs).dumps.toList.take n)) = .error .malformed := by
  have hparse := parseValue_dumps h
  have hhead := head_dumps_object pairs
  rw [← String.length_toList] at hn hparse
  generalize (Json.object pairs).dumps.toList = text at hn hparse hhead
  have hlen : (text.take n).length ≤ text.length := by
    rw [List.length_take]
    omega
  rw [loads, String.toList_ofList, String.length_ofList]
  split
  · next value rest hread =>
    -- the whole text would be read with what is missing left over
    have hstart : skipSpace (text.take n) = text.take n ∧ (text.take n).head? = some '\x7b' := by
      cases n with
      | zero => cases hread
      | succ n =>
        cases text with
        | nil => cases hhead
        | cons c tail =>
          cases hhead
          exact ⟨rfl, rfl⟩
    rw [hstart.1] at hread
    have hlonger := (parse_append hlen).1 (text.drop n) hread (.inr hstart.2)
    rw [List.take_append_drop, hparse] at hlonger
    have hrest := congrArg Prod.snd (Option.some.inj hlonger)
    have hdrop : text.drop n = [] := (List.append_eq_nil_iff.mp hrest.symm).2
    rw [List.drop_eq_nil_iff] at hdrop
    omega
  · rfl

/-! ## The length of a text -/

/-- The characters that a character takes inside of a string. -/
def escapeWidth (c : Char) : ℕ :=
  if c = '"' ∨ c = '\\' ∨ c = '\n' ∨ c = '\r' ∨ c = '\t' ∨ c = '\x08' ∨ c = '\x0c' then 2
  else if c.toNat < 32 then 6
  else 1

/-- The characters that a text takes as a string, with its quotes. -/
def quotedLength (s : String) : ℕ := 2 + (s.toList.map escapeWidth).sum

mutual

def Json.size : Json → ℕ
  | .null => 4
  | .bool b => if b then 4 else 5
  | .int n => (toString n).length
  | .float text _ => text.length
  | .string s => quotedLength s
  | .array items => if items.isEmpty then 2 else 1 + itemsSize items
  | .object pairs => if pairs.isEmpty then 2 else 1 + pairsSize pairs

/-- The items of an array, each with the sign after it. -/
def itemsSize : List Json → ℕ
  | [] => 0
  | item :: items => item.size + 1 + itemsSize items

/-- The members of an object, each with the sign after it. -/
def pairsSize : List (String × Json) → ℕ
  | [] => 0
  | (key, value) :: pairs => quotedLength key + 1 + value.size + 1 + pairsSize pairs

end

theorem length_escapeChar (c : Char) : (escapeChar c).toList.length = escapeWidth c := by
  by_cases hshort : c = '"' ∨ c = '\\' ∨ c = '\n' ∨ c = '\r' ∨ c = '\t' ∨ c = '\x08' ∨ c = '\x0c'
  · rw [escapeWidth, if_pos hshort]
    obtain rfl | rfl | rfl | rfl | rfl | rfl | rfl := hshort
    all_goals rfl
  · rw [escapeWidth, if_neg hshort]
    push Not at hshort
    obtain ⟨hquote, hslash, hn, hr, ht, hb, hf⟩ := hshort
    rw [escapeChar, if_neg hquote, if_neg hslash, if_neg hn, if_neg hr, if_neg ht, if_neg hb, if_neg hf]
    split_ifs
    · rw [String.toList_append, List.length_append, String.toList_ofList, String.toList_ofList]
      rfl
    · rw [String.toList_singleton, List.length_singleton]

theorem length_quoted (s : String) : (quoted s).length = quotedLength s := by
  have hwidth : (fun c => (escapeChar c).toList.length) = escapeWidth := funext length_escapeChar
  rw [← String.length_toList, toList_quoted, quotedChars, quotedLength, escaped, List.length_cons,
    List.length_append, List.length_flatMap, hwidth, List.length_singleton]
  omega

theorem length_intercalate {texts : List String} (h : texts ≠ []) :
    (",".intercalate texts).length + 1 = (texts.map fun t => t.length + 1).sum := by
  induction texts with
  | nil => exact absurd rfl h
  | cons t rest ih =>
    by_cases hrest : rest = []
    · rw [hrest]
      simp
    · rw [String.intercalate_cons_of_ne_nil hrest, String.length_append, String.length_append,
        List.map_cons, List.sum_cons, ← ih hrest]
      have hcomma : ",".length = 1 := by decide
      omega

theorem length_bracketed {items : List String} (h : items ≠ []) :
    (bracketed items).length = 1 + (items.map fun t => t.length + 1).sum := by
  have hopen : "[".length = 1 := by decide
  have hclose : "]".length = 1 := by decide
  have hitems := length_intercalate h
  rw [bracketed, String.length_append, String.length_append]
  omega

theorem length_braced {members : List (String × String)} (h : members ≠ []) : (braced members).length =
      1 + (members.map fun m => quotedLength m.1 + 1 + m.2.length + 1).sum := by
  have hopen : "\x7b".length = 1 := by decide
  have hclose : "\x7d".length = 1 := by decide
  have hmembers := @length_intercalate (members.map fun m => quoted m.1 ++ ":" ++ m.2) (by simpa using h)
  rw [List.map_map] at hmembers
  have hcolon : ":".length = 1 := by decide
  simp only [Function.comp_def, String.length_append, length_quoted, hcolon] at hmembers
  rw [braced, String.length_append, String.length_append]
  omega

def plainChar (c : Char) : Bool := 32 ≤ c.toNat && c != '"' && c != '\\'

theorem escapeChar_of_plain {c : Char} (h : plainChar c = true) : (escapeChar c).toList = [c] := by
  simp only [plainChar, Bool.and_eq_true, decide_eq_true_eq, bne_iff_ne] at h
  obtain ⟨⟨hlow, hquote⟩, hslash⟩ := h
  have hne : ∀ d : Char, d.toNat < 32 → c ≠ d := by
    intro d hd hcd
    rw [hcd] at hlow
    omega
  simp [escapeChar, hquote, hslash, hne, not_lt.mpr hlow]

theorem escapeWidth_of_plain {c : Char} (h : plainChar c = true) : escapeWidth c = 1 := by
  rw [← length_escapeChar, escapeChar_of_plain h, List.length_singleton]

theorem escaped_of_plain {cs : List Char} (h : cs.all plainChar = true) : escaped cs = cs := by
  rw [escaped, List.flatMap_congr fun c hc => escapeChar_of_plain (List.all_eq_true.mp h c hc)]
  simp

theorem quotedLength_of_plain {s : String} (h : s.toList.all plainChar = true) : quotedLength s = 2 + s.length := by
  have hwidth : ∀ c ∈ s.toList, escapeWidth c = 1 := fun c hc => escapeWidth_of_plain (List.all_eq_true.mp h c hc)
  rw [quotedLength, List.map_congr_left hwidth, List.map_const', List.sum_replicate_nat,
    String.length_toList, Nat.mul_one]

mutual

theorem length_dumps (value : Json) : value.dumps.length = value.size := by
  match value with
  | .null => rfl
  | .bool true => rfl
  | .bool false => rfl
  | .int n => rfl
  | .float text finite => rfl
  | .string s => exact length_quoted s
  | .array [] => rfl
  | .array (item :: items) =>
    rw [Json.dumps, length_bracketed (by simp [dumpItems]), length_dumpItems]
    rfl
  | .object [] => rfl
  | .object (pair :: pairs) =>
    have hperm := List.perm_insertionSort (fun a b => a.1 ≤ b.1) (dumpPairs (pair :: pairs))
    have hne : (dumpPairs (pair :: pairs)).insertionSort (fun a b => a.1 ≤ b.1) ≠ [] := by
      intro hnil
      rw [hnil] at hperm
      cases hperm.nil_eq
    rw [Json.dumps, length_braced hne, (hperm.map _).sum_eq, length_dumpPairs]
    rfl

theorem length_dumpItems (items : List Json) : ((dumpItems items).map fun t => t.length + 1).sum = itemsSize items := by
  match items with
  | [] => rfl
  | item :: items =>
    rw [dumpItems, List.map_cons, List.sum_cons, length_dumps item, length_dumpItems items, itemsSize]

theorem length_dumpPairs (pairs : List (String × Json)) :
    ((dumpPairs pairs).map fun m => quotedLength m.1 + 1 + m.2.length + 1).sum = pairsSize pairs := by
  match pairs with
  | [] => rfl
  | (key, value) :: pairs =>
    rw [dumpPairs, List.map_cons, List.sum_cons, length_dumps value, length_dumpPairs pairs, pairsSize]

end

/-! ## Fields of an object -/

theorem lookup_eq_some_iff {α : Type} {pairs : List (String × α)} (h : (pairs.map Prod.fst).Nodup)
    {key : String} {value : α} : pairs.lookup key = some value ↔ (key, value) ∈ pairs := by
  induction pairs with
  | nil => simp
  | cons pair rest ih =>
    rw [List.map_cons, List.nodup_cons] at h
    by_cases hk : key = pair.1
    · have hhere : (pair :: rest).lookup key = some pair.2 := by
        rw [hk, List.lookup_cons, beq_self_eq_true]
      have hnot : (key, value) ∉ rest := fun hmem => h.1 (hk ▸ List.mem_map_of_mem (f := Prod.fst) hmem)
      rw [hhere, List.mem_cons, or_iff_left hnot, Option.some.injEq, Prod.ext_iff]
      exact ⟨fun hvalue => ⟨hk, hvalue.symm⟩, fun hpair => hpair.2.symm⟩
    · have hthere : (pair :: rest).lookup key = rest.lookup key := by
        rw [List.lookup_cons, beq_false_of_ne hk]
      have hne : (key, value) ≠ pair := fun heq => hk (congrArg Prod.fst heq)
      rw [hthere, ih h.2, List.mem_cons, or_iff_right hne]

theorem lookup_sorted {pairs : List (String × Json)} (h : (pairs.map Prod.fst).Nodup) (key : String) :
    ((sortedPairs pairs).insertionSort fun a b => a.1 ≤ b.1).lookup key = (pairs.lookup key).map Json.sorted := by
  have hperm := List.perm_insertionSort (fun a b => a.1 ≤ b.1) (sortedPairs pairs)
  have hkeys : (((sortedPairs pairs).insertionSort fun a b => a.1 ≤ b.1).map Prod.fst).Nodup := by
    rw [(hperm.map Prod.fst).nodup_iff, keys_sortedPairs]
    exact h
  ext value
  rw [lookup_eq_some_iff hkeys, hperm.mem_iff, sortedPairs_eq_map, List.mem_map, Option.map_eq_some_iff]
  constructor
  · intro ⟨pair, hpair, heq⟩
    rw [Prod.mk.injEq] at heq
    refine ⟨pair.2, ?_, heq.2⟩
    rw [lookup_eq_some_iff h, ← heq.1]
    exact hpair
  · intro ⟨v, hv, heq⟩
    rw [lookup_eq_some_iff h] at hv
    exact ⟨(key, v), hv, by rw [← heq]⟩

theorem sorted_field {ps qs : List (String × Json)} (hp : (ps.map Prod.fst).Nodup)
    (hq : (qs.map Prod.fst).Nodup) (h : (Json.object ps).sorted = (Json.object qs).sorted)
    (key : String) : (ps.lookup key).map Json.sorted = (qs.lookup key).map Json.sorted := by
  rw [← lookup_sorted hp, ← lookup_sorted hq]
  rw [Json.sorted, Json.sorted, Json.object.injEq] at h
  rw [h]

theorem map_of_sorted_array {α : Type} {dump : α → Json} {xs ys : List α}
    (hinj : ∀ a b, (dump a).sorted = (dump b).sorted → a = b)
    (h : (Json.array (xs.map dump)).sorted = (Json.array (ys.map dump)).sorted) : xs = ys := by
  rw [Json.sorted, Json.sorted, Json.array.injEq, sortedItems_eq_map, sortedItems_eq_map, List.map_map,
    List.map_map] at h
  exact List.map_injective_iff.mpr (fun a b => hinj a b) h

theorem whole_array {α : Type} (dump : α → Json) (xs : List α) (h : ∀ a, (dump a).whole = true) :
    (Json.array (xs.map dump)).whole = true := by
  rw [Json.whole, wholeItems_iff, List.forall_mem_map]
  exact fun a _ => h a

end Aftercare.Text
