import Aftercare.Text.Json
import Aftercare.Text.Strings
import Mathlib.Data.List.TakeWhile

/-!
# Reading JSON texts

A descent over characters with a bound on its depth, which the length of the text is always enough for. Limits of an
implementation are left out. The reader looks no further than one character past a value, so what has been read of a
text is read of a longer one too.
-/

namespace Aftercare.Text

/-! ## Strings -/

/-- The character that a letter stands for after a backslash. -/
def unescape (c : Char) : Option Char :=
  if c = '"' then some '"'
  else if c = '\\' then some '\\'
  else if c = '/' then some '/'
  else if c = 'b' then some '\x08'
  else if c = 'f' then some '\x0c'
  else if c = 'n' then some '\n'
  else if c = 'r' then some '\r'
  else if c = 't' then some '\t'
  else none

/-- The code points up to the closing quote, and what follows it. -/
def scanString : List Char → Option (List ℕ × List Char)
  | [] => none
  | '"' :: rest => some ([], rest)
  | '\\' :: 'u' :: a :: b :: c :: d :: rest =>
    (hexNumber anyHexDigit [a, b, c, d]).bind fun n =>
      (scanString rest).map fun p => (n :: p.1, p.2)
  | '\\' :: c :: rest =>
    (unescape c).bind fun e => (scanString rest).map fun p => (e.toNat :: p.1, p.2)
  | c :: rest =>
    if c.toNat < 32 then none else (scanString rest).map fun p => (c.toNat :: p.1, p.2)

/-- A pair of surrogates is one character, and one alone is none. -/
def joinSurrogates : List ℕ → Option (List Char)
  | [] => some []
  | high :: low :: rest =>
    if 0xD800 ≤ high ∧ high < 0xDC00 ∧ 0xDC00 ≤ low ∧ low < 0xE000 then
      (joinSurrogates rest).map
        (Char.ofNat (0x10000 + (high - 0xD800) * 0x400 + (low - 0xDC00)) :: ·)
    else if 0xD800 ≤ high ∧ high < 0xE000 then none
    else (joinSurrogates (low :: rest)).map (Char.ofNat high :: ·)
  | [n] => if 0xD800 ≤ n ∧ n < 0xE000 then none else some [Char.ofNat n]

def parseString (s : List Char) : Option (String × List Char) :=
  (scanString s).bind fun p => (joinSurrogates p.1).map fun cs => (String.ofList cs, p.2)

/-! ## Words and numbers -/

def tokenChar (c : Char) : Bool := c.isAlphanum || c == '-' || c == '+' || c == '.'

/-- Digits of a number: at least one, and no leading zero. -/
def wholeDigits (digits : List Char) : Bool :=
  digits.all Char.isDigit && (digits == ['0'] || (digits.head?.any (· != '0')))

def exponentValid : List Char → Bool
  | [] => true
  | e :: rest =>
    (e == 'e' || e == 'E') &&
      let digits := match rest with
        | '+' :: digits | '-' :: digits => digits
        | digits => digits
      !digits.isEmpty && digits.all Char.isDigit

def fractionValid : List Char → Bool
  | '.' :: rest => (rest.head?.any Char.isDigit) && exponentValid (rest.dropWhile Char.isDigit)
  | rest => exponentValid rest

def readExponent : List Char → ℤ
  | '-' :: digits => -(Nat.ofDigitChars 10 digits 0 : ℕ)
  | '+' :: digits => (Nat.ofDigitChars 10 digits 0 : ℕ)
  | digits => (Nat.ofDigitChars 10 digits 0 : ℕ)

/-- A literal has a finite value as a double: from `2 ^ 1024 - 2 ^ 970` on it is rounded to infinity. -/
def finiteLiteral (body : List Char) : Bool :=
  let mantissa := body.takeWhile fun c => c != 'e' && c != 'E'
  let places := (mantissa.dropWhile (· != '.')).length - 1
  let scale := readExponent (body.drop (mantissa.length + 1)) - places
  Nat.ofDigitChars 10 (mantissa.filter (· != '.')) 0 * 10 ^ scale.toNat < (2 ^ 1024 - 2 ^ 970) * 10 ^ (-scale).toNat

def readDigits (token body : List Char) (sign : ℤ) : Option Json :=
  let digits := body.takeWhile Char.isDigit
  let fraction := body.dropWhile Char.isDigit
  if !wholeDigits digits then none
  else if fraction.isEmpty then some (.int (sign * (Nat.ofDigitChars 10 digits 0 : ℕ)))
  else if fractionValid fraction then some (.float (String.ofList token) (finiteLiteral body))
  else none

def readNumber (token : List Char) : Option Json :=
  if token.head? = some '-' then readDigits token token.tail (-1) else readDigits token token 1

def readToken (token : List Char) : Option Json :=
  if token = "null".toList then some .null
  else if token = "true".toList then some (.bool true)
  else if token = "false".toList then some (.bool false)
  else if token = "NaN".toList ∨ token = "Infinity".toList ∨ token = "-Infinity".toList then
    some (.float (String.ofList token) false)
  else readNumber token

/-- A word or a number at the head of a text, as long as it goes. -/
def scanToken (s : List Char) : Option (Json × List Char) :=
  (readToken (s.takeWhile tokenChar)).map fun value => (value, s.dropWhile tokenChar)

/-! ## Values -/

def skipSpace (s : List Char) : List Char :=
  s.dropWhile fun c => c == ' ' || c == '\t' || c == '\n' || c == '\r'

mutual

/-- The value at the head of a text, and what follows it. -/
def parseValue : ℕ → List Char → Option (Json × List Char)
  | 0, _ => none
  | _ + 1, '"' :: rest => (parseString rest).map fun p => (.string p.1, p.2)
  | depth + 1, '[' :: rest =>
    if (skipSpace rest).head? = some ']' then some (.array [], (skipSpace rest).tail)
    else (parseItems depth (skipSpace rest)).map fun p => (.array p.1, p.2)
  | depth + 1, '\x7b' :: rest =>
    if (skipSpace rest).head? = some '\x7d' then some (.object [], (skipSpace rest).tail)
    else (parsePairs depth (skipSpace rest)).map fun p => (.object p.1, p.2)
  | _ + 1, s => scanToken s

/-- The items of an array, and what follows its closing bracket. -/
def parseItems : ℕ → List Char → Option (List Json × List Char)
  | 0, _ => none
  | depth + 1, s =>
    (parseValue depth s).bind fun (item, rest) =>
      match skipSpace rest with
      | ']' :: rest => some ([item], rest)
      | ',' :: rest => (parseItems depth (skipSpace rest)).map fun p => (item :: p.1, p.2)
      | _ => none

/-- The members of an object, and what follows its closing brace. -/
def parsePairs : ℕ → List Char → Option (List (String × Json) × List Char)
  | depth + 1, '"' :: s =>
    (parseString s).bind fun (key, rest) =>
      match skipSpace rest with
      | ':' :: rest =>
        (parseValue depth (skipSpace rest)).bind fun (value, rest) =>
          match skipSpace rest with
          | '\x7d' :: rest => some ([(key, value)], rest)
          | ',' :: rest =>
            (parsePairs depth (skipSpace rest)).map fun p => ((key, value) :: p.1, p.2)
          | _ => none
      | _ => none
  | _, _ => none

end

/-- `json.loads`: one value, with nothing after it but white space. -/
def loads (text : String) : Except JsonError Json :=
  match parseValue text.length (skipSpace text.toList) with
  | some (value, rest) => if skipSpace rest = [] then .ok value.merged else .error .malformed
  | none => .error .malformed

/-! ## A longer text

What has been read of a text is read of a longer one too, with more depth or less: the reader looks no
further than one character past the value.
-/

variable {c : Char} {s rest : List Char}

theorem scanString_escape {e : Char} (h : unescape c = some e) (rest : List Char) :
    scanString ('\\' :: c :: rest) = (scanString rest).map fun p => (e.toNat :: p.1, p.2) := by
  have hu : c ≠ 'u' := by
    intro hc
    rw [hc, show unescape 'u' = none by decide] at h
    cases h
  rw [scanString, h]
  · rfl
  · intro a b d f rest' hc
    exact absurd hc hu

theorem scanString_plain (hquote : c ≠ '"') (hslash : c ≠ '\\') (rest : List Char) : scanString (c :: rest) =
      if c.toNat < 32 then none else (scanString rest).map fun p => (c.toNat :: p.1, p.2) := by
  rw [scanString]
  · exact fun h => hquote h
  · exact fun _ _ _ _ _ h => absurd h hslash
  · exact fun _ _ h => absurd h hslash

theorem scanString_append {points : List ℕ} (more : List Char) (h : scanString s = some (points, rest)) :
    scanString (s ++ more) = some (points, rest ++ more) := by
  fun_induction scanString s generalizing points with
  | case1 => cases h
  | case2 tail =>
    cases h
    rfl
  | case3 a b c d tail ih =>
    simp only [Option.bind_eq_some_iff, Option.map_eq_some_iff, Prod.mk.injEq] at h
    obtain ⟨n, hn, p, hp, rfl, rfl⟩ := h
    simp only [List.cons_append, scanString, hn, Option.bind_some, ih hp, Option.map_some]
  | case4 c tail _ ih =>
    simp only [Option.bind_eq_some_iff, Option.map_eq_some_iff, Prod.mk.injEq] at h
    obtain ⟨e, he, p, hp, rfl, rfl⟩ := h
    rw [List.cons_append, List.cons_append, scanString_escape he, ih hp, Option.map_some]
  | case5 c tail hquote _ hslash hlow => cases h
  | case6 c tail hquote _ hslash hlow ih =>
    rw [Option.map_eq_some_iff] at h
    obtain ⟨p, hp, heq⟩ := h
    cases heq
    have hback : c ≠ '\\' := by
      intro hc
      cases tail with
      | nil => cases hp
      | cons d tail => exact hslash d tail hc rfl
    rw [List.cons_append, scanString_plain hquote hback, if_neg hlow, ih hp, Option.map_some]

theorem parseString_append {key : String} (more : List Char) (h : parseString s = some (key, rest)) :
    parseString (s ++ more) = some (key, rest ++ more) := by
  rw [parseString, Option.bind_eq_some_iff] at h
  obtain ⟨⟨points, rest'⟩, hscan, hjoin⟩ := h
  rw [Option.map_eq_some_iff] at hjoin
  obtain ⟨cs, hcs, heq⟩ := hjoin
  cases heq
  rw [parseString, scanString_append more hscan, Option.bind_some, hcs, Option.map_some]

theorem skipSpace_append (more : List Char) (h : skipSpace s ≠ []) : skipSpace (s ++ more) = skipSpace s ++ more := by
  rw [skipSpace] at h
  rw [skipSpace, List.dropWhile_append, if_neg (by simpa using h), skipSpace]

theorem scanToken_append {value : Json} (more : List Char) (hrest : rest ≠ [])
    (h : scanToken s = some (value, rest)) : scanToken (s ++ more) = some (value, rest ++ more) := by
  rw [scanToken, Option.map_eq_some_iff] at h
  obtain ⟨v, hv, heq⟩ := h
  cases heq
  rw [scanToken, List.dropWhile_append, if_neg (by simpa using hrest), List.takeWhile_append]
  have hlen : (s.takeWhile tokenChar).length ≠ s.length := by
    intro hlen
    have hsplit := congrArg List.length (List.takeWhile_append_dropWhile (p := tokenChar) (l := s))
    rw [List.length_append, hlen] at hsplit
    exact hrest (List.eq_nil_of_length_eq_zero (by omega))
  rw [if_neg hlen, hv, Option.map_some]

theorem parse_nil (depth : ℕ) : parseValue depth [] = none ∧ parseItems depth [] = none ∧
    parsePairs depth [] = none := by
  have hvalue : ∀ depth, parseValue depth [] = none
    | 0 => rfl
    | _ + 1 => rfl
  have hitems : parseItems depth [] = none := by
    cases depth with
    | zero => rfl
    | succ depth => rw [parseItems, hvalue, Option.bind_none]
  exact ⟨hvalue depth, hitems, by cases depth <;> rfl⟩

theorem skipSpace_cons_append (more : List Char)
    (h : skipSpace s = c :: rest) : s ≠ [] ∧ skipSpace (s ++ more) = c :: (rest ++ more) := by
  refine ⟨fun hs => ?_, ?_⟩
  · rw [hs] at h
    cases h
  · rw [skipSpace_append more (by simp [h]), h, List.cons_append]

/-- One reader reads of a longer text what another reads of a text. -/
def Extends {α : Type} (reader later : List Char → Option (α × List Char)) : Prop :=
  ∀ ⦃s rest : List Char⦄ ⦃a : α⦄ (more : List Char),
    reader s = some (a, rest) → later (s ++ more) = some (a, rest ++ more)

/-- The same where a word or a number could go on. -/
def ExtendsEnded (reader later : List Char → Option (Json × List Char)) : Prop :=
  ∀ ⦃s rest : List Char⦄ ⦃value : Json⦄ (more : List Char),
    reader s = some (value, rest) → rest ≠ [] ∨ s.head? = some '\x7b' →
      later (s ++ more) = some (value, rest ++ more)

theorem parseValue_token {depth : ℕ}
    (h : ∀ c ∈ s.head?, c ≠ '"' ∧ c ≠ '[' ∧ c ≠ '\x7b') : parseValue (depth + 1) s = scanToken s := by
  rw [parseValue]
  · rintro rest rfl
    exact (h '"' rfl).1 rfl
  · rintro rest rfl
    exact (h '[' rfl).2.1 rfl
  · rintro rest rfl
    exact (h '\x7b' rfl).2.2 rfl

variable {depth deep : ℕ}

theorem enclosed_append {α : Type} {reader later : List Char → Option (α × List Char)}
    (hext : Extends reader later) (hnil : reader [] = none) {close : Char} {empty : Json}
    {wrap : α → Json} {tail : List Char} {value : Json} (more : List Char)
    (h : (if (skipSpace tail).head? = some close then some (empty, (skipSpace tail).tail)
      else (reader (skipSpace tail)).map fun p => (wrap p.1, p.2)) = some (value, rest)) :
    (if (skipSpace (tail ++ more)).head? = some close then
        some (empty, (skipSpace (tail ++ more)).tail)
      else (later (skipSpace (tail ++ more))).map fun p => (wrap p.1, p.2)) =
      some (value, rest ++ more) := by
  have hne : skipSpace tail ≠ [] := by
    intro hempty
    rw [hempty, hnil] at h
    cases h
  rw [skipSpace_append more hne, List.head?_append_of_ne_nil _ hne, List.tail_append_of_ne_nil hne]
  split_ifs at h ⊢ with hclosed
  · cases h
    rfl
  · rw [Option.map_eq_some_iff] at h
    obtain ⟨p, hp, heq⟩ := h
    cases heq
    rw [hext more hp, Option.map_some]

theorem parseValue_append (hitems : Extends (parseItems depth) (parseItems deep))
    (hpairs : Extends (parsePairs depth) (parsePairs deep)) :
    ExtendsEnded (parseValue (depth + 1)) (parseValue (deep + 1)) := by
  intro s rest value more h hend
  by_cases hsign : ∀ c ∈ s.head?, c ≠ '"' ∧ c ≠ '[' ∧ c ≠ '\x7b'
  · rw [parseValue_token hsign] at h
    have hrest : rest ≠ [] := hend.resolve_right fun hhead => (hsign _ hhead).2.2 rfl
    have hs : s ≠ [] := by
      rintro rfl
      cases h
    rw [parseValue_token (by rwa [List.head?_append_of_ne_nil _ hs]), scanToken_append more hrest h]
  · obtain ⟨c, tail, rfl⟩ : ∃ c tail, s = c :: tail := by
      cases s with
      | nil => exact absurd (fun c hc => by cases hc) hsign
      | cons c tail => exact ⟨c, tail, rfl⟩
    have hcases : c = '"' ∨ c = '[' ∨ c = '\x7b' := by
      by_contra hnone
      push Not at hnone
      exact hsign fun d hd => by
        cases hd
        exact hnone
    obtain rfl | rfl | rfl := hcases
    · rw [parseValue, Option.map_eq_some_iff] at h
      obtain ⟨p, hp, heq⟩ := h
      cases heq
      rw [List.cons_append, parseValue, parseString_append more hp, Option.map_some]
    · rw [parseValue] at h
      rw [List.cons_append, parseValue]
      exact enclosed_append hitems (parse_nil depth).2.1 more h
    · rw [parseValue] at h
      rw [List.cons_append, parseValue]
      exact enclosed_append hpairs (parse_nil depth).2.2 more h

theorem skipSpace_append_of_reads {α : Type} {reader : List Char → Option (α × List Char)}
    (hnil : reader [] = none) {p : α × List Char} (more : List Char)
    (h : reader (skipSpace s) = some p) : skipSpace (s ++ more) = skipSpace s ++ more := by
  refine skipSpace_append more fun hempty => ?_
  rw [hempty, hnil] at h
  cases h

theorem parseItems_append (hvalue : ExtendsEnded (parseValue depth) (parseValue deep))
    (hitems : Extends (parseItems depth) (parseItems deep)) :
    Extends (parseItems (depth + 1)) (parseItems (deep + 1)) := by
  intro s rest items more h
  rw [parseItems, Option.bind_eq_some_iff] at h
  obtain ⟨⟨item, after⟩, hitem, h⟩ := h
  simp only at h
  split at h
  · next tail hspace =>
    cases h
    obtain ⟨hne, hmore⟩ := skipSpace_cons_append more hspace
    simp only [parseItems, hvalue more hitem (.inl hne), Option.bind_some, hmore]
  · next tail hspace =>
    rw [Option.map_eq_some_iff] at h
    obtain ⟨p, hp, heq⟩ := h
    cases heq
    obtain ⟨hne, hmore⟩ := skipSpace_cons_append more hspace
    have htail := skipSpace_append_of_reads (parse_nil depth).2.1 more hp
    simp only [parseItems, hvalue more hitem (.inl hne), Option.bind_some, hmore, htail,
      hitems more hp, Option.map_some]
  · cases h

theorem parsePairs_append (hvalue : ExtendsEnded (parseValue depth) (parseValue deep))
    (hpairs : Extends (parsePairs depth) (parsePairs deep)) :
    Extends (parsePairs (depth + 1)) (parsePairs (deep + 1)) := by
  intro s rest pairs more h
  unfold parsePairs at h
  split at h
  · next d tail hd =>
    cases hd
    rw [Option.bind_eq_some_iff] at h
    obtain ⟨⟨key, after⟩, hkey, h⟩ := h
    simp only at h
    split at h
    · next colon hcolon =>
      rw [Option.bind_eq_some_iff] at h
      obtain ⟨⟨value, after'⟩, hread, h⟩ := h
      have hcolon' := (skipSpace_cons_append more hcolon).2
      have hspace := skipSpace_append_of_reads (parse_nil depth).1 more hread
      simp only at h
      split at h
      · next tail' hclose =>
        cases h
        obtain ⟨hne, hmore⟩ := skipSpace_cons_append more hclose
        simp only [List.cons_append, parsePairs, parseString_append more hkey, Option.bind_some,
          hcolon', hspace, hvalue more hread (.inl hne), hmore]
      · next tail' hcomma =>
        rw [Option.map_eq_some_iff] at h
        obtain ⟨p, hp, heq⟩ := h
        cases heq
        obtain ⟨hne, hmore⟩ := skipSpace_cons_append more hcomma
        have htail := skipSpace_append_of_reads (parse_nil depth).2.2 more hp
        simp only [List.cons_append, parsePairs, parseString_append more hkey, Option.bind_some,
          hcolon', hspace, hvalue more hread (.inl hne), hmore, htail, hpairs more hp, Option.map_some]
      · cases h
    · cases h
  · cases h

theorem parse_append (h : depth ≤ deep) : ExtendsEnded (parseValue depth) (parseValue deep) ∧
    Extends (parseItems depth) (parseItems deep) ∧ Extends (parsePairs depth) (parsePairs deep) := by
  induction depth generalizing deep with
  | zero =>
    refine ⟨fun s rest value more h => ?_, fun s rest items more h => ?_, fun s rest pairs more h => ?_⟩
    all_goals cases h
  | succ depth ih =>
    obtain ⟨deep, rfl⟩ : ∃ n, deep = n + 1 := ⟨deep - 1, by omega⟩
    obtain ⟨hvalue, hitems, hpairs⟩ := ih (Nat.le_of_succ_le_succ h)
    exact ⟨parseValue_append hitems hpairs, parseItems_append hvalue hitems, parsePairs_append hvalue hpairs⟩

end Aftercare.Text
