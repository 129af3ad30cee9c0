import Mathlib.Data.Int.Notation
import Mathlib.Data.List.Sort
import Mathlib.Data.String.Basic

/-!
# JSON values and their text

A JSON value as a decoder reads it, and the compact text that an encoder writes for it. An object is the list of its
pairs, so a repeated key is still there: `Json.strict` refuses it, `Json.merged` keeps the last value. Decoding is a
parameter, `JsonDecoding`; that it reads back what an encoder wrote is `JsonDecoding.ReadsBack`.
-/

namespace Aftercare.Text

/-- A number with a fraction or an exponent is kept as its text. -/
inductive Json
  | null
  | bool (b : Bool)
  | int (n : ℤ)
  | float (text : String) (finite : Bool)
  | string (s : String)
  | array (items : List Json)
  | object (pairs : List (String × Json))

inductive JsonError
  /-- The text is not JSON. -/
  | malformed
  /-- A literal has no value, such as an integer of too many digits. -/
  | value
  /-- The text is nested too deeply. -/
  | recursion
deriving DecidableEq, Repr

class JsonDecoding where
  loads : String → Except JsonError Json

/-! ## Objects -/

mutual

/-- No object repeats a key, and every number is finite. -/
def Json.strict : Json → Bool
  | .null | .bool _ | .int _ | .string _ => true
  | .float _ finite => finite
  | .array items => strictItems items
  | .object pairs => decide (pairs.map Prod.fst).Nodup && strictPairs pairs

def strictItems : List Json → Bool
  | [] => true
  | item :: items => item.strict && strictItems items

def strictPairs : List (String × Json) → Bool
  | [] => true
  | (_, value) :: pairs => value.strict && strictPairs pairs

end

/-- A value at any depth of another. -/
inductive Json.Within (part : Json) : Json → Prop
  | here : Within part part
  | item {item : Json} {items : List Json} (hmem : item ∈ items) (h : Within part item) :
      Within part (.array items)
  | member {pair : String × Json} {pairs : List (String × Json)} (hmem : pair ∈ pairs)
      (h : Within part pair.2) : Within part (.object pairs)

theorem strictItems_iff {items : List Json} : strictItems items = true ↔ ∀ item ∈ items, item.strict = true := by
  induction items with
  | nil => simp [strictItems]
  | cons item items ih => simp [strictItems, ih]

theorem strictPairs_iff {pairs : List (String × Json)} :
    strictPairs pairs = true ↔ ∀ pair ∈ pairs, pair.2.strict = true := by
  induction pairs with
  | nil => simp [strictPairs]
  | cons pair pairs ih => simp [strictPairs, ih]

theorem Json.Within.strict {part value : Json} (h : part.Within value) (hstrict : value.strict = true) :
    part.strict = true := by
  induction h with
  | here => exact hstrict
  | item hmem h ih => exact ih (strictItems_iff.mp hstrict _ hmem)
  | member hmem h ih =>
    rw [Json.strict, Bool.and_eq_true] at hstrict
    exact ih (strictPairs_iff.mp hstrict.2 _ hmem)

mutual

/-- An object of the value repeats a key, at any depth. -/
def Json.ambiguous : Json → Bool
  | .null | .bool _ | .int _ | .float _ _ | .string _ => false
  | .array items => ambiguousItems items
  | .object pairs => !decide (pairs.map Prod.fst).Nodup || ambiguousPairs pairs

def ambiguousItems : List Json → Bool
  | [] => false
  | item :: items => item.ambiguous || ambiguousItems items

def ambiguousPairs : List (String × Json) → Bool
  | [] => false
  | (_, value) :: pairs => value.ambiguous || ambiguousPairs pairs

end

def setKey {α : Type} (key : String) (value : α) : List (String × α) → List (String × α)
  | [] => [(key, value)]
  | (k, v) :: rest => if k = key then (k, value) :: rest else (k, v) :: setKey key value rest

/-- Set keys in turn, so that the last value of a key stays. -/
def setKeys {α : Type} (pairs dict : List (String × α)) : List (String × α) :=
  pairs.foldl (fun dict p => setKey p.1 p.2 dict) dict

mutual

/-- The value, with the last value of each key. -/
def Json.merged : Json → Json
  | .array items => .array (mergedItems items)
  | .object pairs => .object (setKeys (mergedPairs pairs) [])
  | value => value

def mergedItems : List Json → List Json
  | [] => []
  | item :: items => item.merged :: mergedItems items

def mergedPairs : List (String × Json) → List (String × Json)
  | [] => []
  | (key, value) :: pairs => (key, value.merged) :: mergedPairs pairs

end

theorem mem_keys_setKey {α : Type} {key k : String} {value : α} {dict : List (String × α)} :
    k ∈ (setKey key value dict).map Prod.fst ↔ k = key ∨ k ∈ dict.map Prod.fst := by
  induction dict with
  | nil => simp [setKey]
  | cons p rest ih =>
    unfold setKey
    split_ifs with heq
    · simp only [List.map_cons, List.mem_cons, heq]
      tauto
    · rw [List.map_cons, List.mem_cons, ih, List.map_cons, List.mem_cons]
      tauto

theorem nodup_setKey {α : Type} {key : String} {value : α} {dict : List (String × α)}
    (h : (dict.map Prod.fst).Nodup) : ((setKey key value dict).map Prod.fst).Nodup := by
  induction dict with
  | nil => simp [setKey]
  | cons p rest ih =>
    rw [List.map_cons, List.nodup_cons] at h
    unfold setKey
    split_ifs with heq
    · simpa using h
    · rw [List.map_cons, List.nodup_cons, mem_keys_setKey]
      exact ⟨fun hmem => hmem.elim heq h.1, ih h.2⟩

theorem setKeys_keys {α : Type} {pairs dict : List (String × α)} (h : (dict.map Prod.fst).Nodup) :
    ((setKeys pairs dict).map Prod.fst).Nodup ∧ ∀ k, k ∈ (setKeys pairs dict).map Prod.fst ↔
      k ∈ pairs.map Prod.fst ∨ k ∈ dict.map Prod.fst := by
  induction pairs generalizing dict with
  | nil => simpa [setKeys] using h
  | cons p rest ih =>
    have hset : ((setKey p.1 p.2 dict).map Prod.fst).Nodup := nodup_setKey h
    obtain ⟨hnodup, hkeys⟩ := ih hset
    refine ⟨hnodup, fun k => ?_⟩
    have hk := hkeys k
    rw [mem_keys_setKey] at hk
    rw [List.map_cons, List.mem_cons]
    exact hk.trans (by tauto)

theorem keys_mergedPairs (pairs : List (String × Json)) : (mergedPairs pairs).map Prod.fst = pairs.map Prod.fst := by
  induction pairs with
  | nil => rfl
  | cons p rest ih =>
    obtain ⟨key, value⟩ := p
    rw [mergedPairs, List.map_cons, List.map_cons, ih]

/-! ## Encoding -/

def hexDigit (n : ℕ) : Char := if n < 10 then Char.ofNat (48 + n) else Char.ofNat (87 + n)

/-- Characters outside of ASCII are written as they are. -/
def escapeChar (c : Char) : String :=
  if c = '"' then "\\\""
  else if c = '\\' then "\\\\"
  else if c = '\n' then "\\n"
  else if c = '\r' then "\\r"
  else if c = '\t' then "\\t"
  else if c = '\x08' then "\\b"
  else if c = '\x0c' then "\\f"
  else if c.toNat < 32 then
    "\\u00" ++ String.ofList [hexDigit (c.toNat / 16), hexDigit (c.toNat % 16)]
  else String.singleton c

def quoted (s : String) : String := "\"" ++ String.join (s.toList.map escapeChar) ++ "\""

def bracketed (items : List String) : String := "[" ++ ",".intercalate items ++ "]"

/-- Members of the text between braces, each with its key. -/
def braced (members : List (String × String)) : String :=
  "\x7b" ++ ",".intercalate (members.map fun m => quoted m.1 ++ ":" ++ m.2) ++ "\x7d"

theorem length_le_utf8ByteSize (s : String) : s.length ≤ s.utf8ByteSize := by
  have hsize : ∀ cs : List Char, cs.length ≤ String.utf8Len cs := by
    intro cs
    induction cs with
    | nil => exact le_rfl
    | cons c cs ih =>
      have hpos := c.utf8Size_pos
      rw [String.utf8Len_cons, List.length_cons]
      omega
  have hlength := hsize s.toList
  rwa [← String.utf8ByteSize_ofList, String.ofList_toList, String.length_toList] at hlength

theorem utf8ByteSize_bracketed_le {n : ℕ} {items : List String} (h : ∀ s ∈ items, s.utf8ByteSize ≤ n) :
    (bracketed items).utf8ByteSize ≤ 2 + items.length * (n + 1) := by
  have hitems : (",".intercalate items).utf8ByteSize ≤ items.length * (n + 1) := by
    induction items with
    | nil => simp
    | cons s rest ih =>
      have hs : s.utf8ByteSize ≤ n := h s List.mem_cons_self
      have hrest := ih fun t ht => h t (List.mem_cons_of_mem s ht)
      have hcomma : ",".utf8ByteSize = 1 := by decide
      rw [List.length_cons, Nat.succ_mul]
      by_cases hnil : rest = []
      · rw [hnil, String.intercalate_singleton]
        omega
      · rw [String.intercalate_cons_of_ne_nil hnil, String.utf8ByteSize_append, String.utf8ByteSize_append]
        omega
  have hopen : "[".utf8ByteSize = 1 := by decide
  have hclose : "]".utf8ByteSize = 1 := by decide
  rw [bracketed, String.utf8ByteSize_append, String.utf8ByteSize_append]
  omega

mutual

/-- The compact text, with the members in the order of their keys. -/
def Json.dumps : Json → String
  | .null => "null"
  | .bool b => if b then "true" else "false"
  | .int n => toString n
  | .float text _ => text
  | .string s => quoted s
  | .array items => bracketed (dumpItems items)
  | .object pairs => braced ((dumpPairs pairs).insertionSort fun a b => a.1 ≤ b.1)

def dumpItems : List Json → List String
  | [] => []
  | item :: items => item.dumps :: dumpItems items

/-- The members of an object, with the texts of their values. -/
def dumpPairs : List (String × Json) → List (String × String)
  | [] => []
  | (key, value) :: pairs => (key, value.dumps) :: dumpPairs pairs

end

example : (Json.object [("b", .array [.int 1, .null]), ("a", .string "x\"y")]).dumps =
    "\x7b\"a\":\"x\\\"y\",\"b\":[1,null]\x7d" := by decide

mutual

/-- The pairs of each object in the order of their keys. -/
def Json.sorted : Json → Json
  | .array items => .array (sortedItems items)
  | .object pairs => .object ((sortedPairs pairs).insertionSort fun a b => a.1 ≤ b.1)
  | value => value

def sortedItems : List Json → List Json
  | [] => []
  | item :: items => item.sorted :: sortedItems items

def sortedPairs : List (String × Json) → List (String × Json)
  | [] => []
  | (key, value) :: pairs => (key, value.sorted) :: sortedPairs pairs

end

/-- The decoder reads the text back, if it reads it at all. -/
def JsonDecoding.ReadsBack [JsonDecoding] (value : Json) : Prop :=
  ∀ read, JsonDecoding.loads value.dumps = .ok read → read = value.sorted

theorem keys_sortedPairs (pairs : List (String × Json)) : (sortedPairs pairs).map Prod.fst = pairs.map Prod.fst := by
  induction pairs with
  | nil => rfl
  | cons p rest ih =>
    obtain ⟨key, value⟩ := p
    rw [sortedPairs, List.map_cons, List.map_cons, ih]

end Aftercare.Text
