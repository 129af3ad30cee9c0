import Mathlib.Algebra.Group.Nat.Defs
import Mathlib.Data.Int.Notation
import Aftercare.Relational.History
import Aftercare.Relational.Table

/-!
# Shared value constraints

The value types of `domain/common.py`. An `Identifier`, a `Sha256` or a `PositiveInt` carries the proof that it
passes its own validation; text built at run time goes through `identifier`. A `Failure` is the exception that
leaves a method, and rolls the caller's transaction back.
-/

namespace Aftercare

/-- Microseconds since the epoch. -/
abbrev Time := ℤ

/-- The order of times, by an instance that computes. -/
instance : Preorder Time := Int.instLinearOrder.toPreorder

/-- The largest value of `NonNegativeInt` and of a `bigint` column. -/
def maxInt : ℕ := 2 ^ 63 - 1

/-! ## Failures -/

inductive ErrorCode
  | invalidInput
  | unauthenticated
  | forbidden
  | conflict
  | leaseLost
  | rateLimited
  | retryable
  | outcomeUnknown
  | unsupportedVersion
  | evidenceRejected
  | budgetExhausted
deriving DecidableEq, Repr

inductive Failure
  /-- `ContractViolation(code, message)`. -/
  | contract (code : ErrorCode) (message : String)
  /-- A validation error of the named model. -/
  | validation (model : String)
  /-- The constraint or the range that a statement broke. -/
  | database (constraint : String)
  /-- A failed `assert`. -/
  | assertion
  /-- The `OverflowError` of a date out of range. -/
  | overflow
  /-- A `ValueError` that is no contract violation. -/
  | value
  /-- A `RecursionError`. -/
  | recursion
deriving DecidableEq, Repr

/-- The result of a method: a value, or what it raised. -/
abbrev Result (α : Type) := Except Failure α

/-- An `except ContractViolation` does not catch the failure. -/
def Failure.Escapes : Failure → Prop
  | .contract _ _ => False
  | _ => True

/-- `try` with `except ContractViolation`. -/
def attempt {α : Type} (x : Result α) : Result (Except ErrorCode α) :=
  match x with
  | .ok a => .ok (.ok a)
  | .error (.contract code _) => .ok (.error code)
  | .error e => .error e

theorem attempt_eq_value {α : Type} {x : Result α} {a : α} : attempt x = .ok (.ok a) ↔ x = .ok a := by
  unfold attempt
  split <;> simp

theorem attempt_eq_code {α : Type} {x : Result α} {code : ErrorCode} :
    attempt x = .ok (.error code) ↔ ∃ message, x = .error (.contract code message) := by
  unfold attempt
  split <;> simp_all

/-! ## Identifiers, digests and counters -/

/-- A letter or digit of the identifier pattern, `[A-Za-z0-9]`. -/
def alphanumeric (c : Char) : Bool :=
  ('A' ≤ c && c ≤ 'Z') || ('a' ≤ c && c ≤ 'z') || ('0' ≤ c && c ≤ '9')

/-- A letter, a digit, or one of `._:-` and the slash. -/
def identifierChar (c : Char) : Bool :=
  alphanumeric c || c == '.' || c == '_' || c == ':' || c == '/' || c == '-'

/-- At most 160 characters, the first one a letter or a digit. -/
def identifierValid (s : String) : Bool :=
  match s.toList with
  | [] => false
  | c :: cs => alphanumeric c && cs.all identifierChar && decide ((c :: cs).length ≤ 160)

/-- `Identifier`: an opaque ASCII identifier. -/
@[ext]
structure Identifier where
  val : String
  valid : identifierValid val = true
deriving DecidableEq, Repr

/-- Validate text as an `Identifier` field of the named model. -/
def identifier (model text : String) : Result Identifier :=
  if h : identifierValid text = true then .ok ⟨text, h⟩ else .error (.validation model)

theorem identifier_eq_ok {model text : String} {i : Identifier} : identifier model text = .ok i ↔ i.val = text := by
  unfold identifier
  split_ifs with h
  · constructor
    · intro hi; cases hi; rfl
    · intro hi; cases i; subst hi; rfl
  · constructor
    · intro hi; cases hi
    · intro hi; exact absurd (hi ▸ i.valid) h

/-- Every character of a text may stand in an identifier. -/
def identifierText (s : String) : Bool := s.toList.all identifierChar

/-- The first character of a text may start an identifier. -/
def identifierStart (s : String) : Bool := s.toList.head?.any alphanumeric

theorem identifierValid_iff {s : String} : identifierValid s = true ↔
    identifierStart s = true ∧ identifierText s = true ∧ s.length ≤ 160 := by
  unfold identifierValid identifierStart identifierText
  rw [← String.length_toList]
  cases s.toList with
  | nil => simp
  | cons c cs =>
    have hchar : alphanumeric c = true → identifierChar c = true := by
      intro h
      simp [identifierChar, h]
    simp only [List.head?_cons, Option.any_some, List.all_cons, Bool.and_eq_true, decide_eq_true_eq]
    tauto

theorem identifierText_append {s t : String} :
    identifierText (s ++ t) = true ↔ identifierText s = true ∧ identifierText t = true := by
  simp [identifierText, String.toList_append]

theorem identifierStart_append {s t : String} (h : identifierStart s = true) : identifierStart (s ++ t) = true := by
  unfold identifierStart at h ⊢
  rw [String.toList_append]
  cases hs : s.toList with
  | nil => simp [hs] at h
  | cons c cs => simpa [hs] using h

theorem Identifier.text (i : Identifier) : identifierText i.val = true := (identifierValid_iff.mp i.valid).2.1

theorem Identifier.ne_empty (i : Identifier) : i.val ≠ "" := by
  intro hempty
  have hvalid := i.valid
  rw [hempty] at hvalid
  exact absurd hvalid (by decide)

/-- The validation of `Sha256`: 64 lower-case hexadecimal digits. -/
def sha256Valid (s : String) : Bool :=
  s.toList.length == 64 && s.toList.all fun c => ('0' ≤ c && c ≤ '9') || ('a' ≤ c && c ≤ 'f')

/-- `Sha256`: a digest in hexadecimal. -/
structure Sha256 where
  val : String
  valid : sha256Valid val = true
deriving DecidableEq, Repr

/-- `PositiveInt`: from 1 to `2^63 - 1`. -/
structure PositiveInt where
  val : ℕ
  pos : 1 ≤ val
  le : val ≤ maxInt
deriving DecidableEq, Repr

/-- The number one. -/
def PositiveInt.one : PositiveInt := ⟨1, by decide, by decide⟩

def PositiveInt.two : PositiveInt := ⟨2, by decide, by decide⟩

/-- Validate a number as a `PositiveInt` field of the named model. -/
def positiveInt (model : String) (n : ℕ) : Result PositiveInt :=
  if h : 1 ≤ n ∧ n ≤ maxInt then .ok ⟨n, h.1, h.2⟩ else .error (.validation model)

theorem positiveInt_eq_ok {model : String} {n : ℕ} {p : PositiveInt} : positiveInt model n = .ok p ↔ p.val = n := by
  unfold positiveInt
  split_ifs with h
  · constructor
    · intro hp; cases hp; rfl
    · intro hp; cases p; subst hp; rfl
  · constructor
    · intro hp; cases hp
    · intro hp; exact absurd ⟨hp ▸ p.pos, hp ▸ p.le⟩ h

/-- An optional text field with `Field(max_length=n)`. -/
def maxLength (n : ℕ) (text : Option String) : Bool :=
  match text with
  | none => true
  | some s => decide (s.length ≤ n)

open Relational

/-! ## Dates -/

/-- The smallest `datetime`, in microseconds. -/
def minDatetime : Time := -62135596800000000

/-- The largest `datetime`, in microseconds. -/
def maxDatetime : Time := 253402300799999999

/-- Add a `timedelta` to a `datetime`. -/
def addDuration (t : Time) (duration : ℤ) : Result Time := do
  require (minDatetime ≤ t + duration ∧ t + duration ≤ maxDatetime) .overflow
  pure (t + duration)

/-! ## Statements -/

/-- A statement on a table: a broken constraint is an error of the database. -/
def statement {α : Type} (table : String) : Except Violation α → Result α
  | .ok a => .ok a
  | .error .unique => .error (.database s!"{table} unique")
  | .error .check => .error (.database s!"{table} check")

theorem statement_eq_ok {α : Type} {table : String} {x : Except Violation α} {a : α} :
    statement table x = .ok a ↔ x = .ok a := by
  rcases x with (_ | _) | b
  · simp [statement]
  · simp [statement]
  · simp [statement]

end Aftercare
