import Mathlib.Tactic.Common

/-!
# Fallible computations in `Except`

A transaction body is a chain of guards, lookups and writes, each of which may refuse. The lemmas say when such a
chain succeeds, so that `simp only` turns a successful body into the facts its guards established. `Raises` is the
other side.
-/

namespace Aftercare.Relational

variable {ε α β : Type}

/-- Refuse with `e` unless `p` holds. -/
def require (p : Prop) [Decidable p] (e : ε) : Except ε Unit :=
  if p then .ok () else .error e

/-- The value of a lookup, refusing with `e` when there is none. -/
def fetch (o : Option α) (e : ε) : Except ε α :=
  match o with
  | some a => .ok a
  | none => .error e

variable {tail f : α → Except ε β} {head : Except ε α} {a : α} {e : ε}

theorem ok_bind : (Except.ok a >>= tail) = tail a := rfl

theorem bind_eq_ok {b : β} : (head >>= tail) = .ok b ↔ ∃ a, head = .ok a ∧ tail a = .ok b := by
  rcases head with e | a
  · constructor
    · intro h; cases h
    · rintro ⟨a, h, -⟩; cases h
  · constructor
    · intro h; exact ⟨a, rfl, h⟩
    · rintro ⟨a', h, h'⟩; cases h; exact h'

theorem bind_congr_ok {g : α → Except ε β} (h : ∀ a, head = .ok a → f a = g a) : (head >>= f) = (head >>= g) := by
  cases head with
  | error e => rfl
  | ok a => exact h a rfl

theorem exists_unit {p : Unit → Prop} : (∃ u, p u) ↔ p () := ⟨fun ⟨_, h⟩ => h, fun h => ⟨(), h⟩⟩

theorem require_eq_ok {p : Prop} [Decidable p] {u : Unit} : require p e = .ok u ↔ p := by
  unfold require
  split_ifs with h
  · simp [h]
  · simp [h]

theorem fetch_eq_ok {o : Option α} : fetch o e = .ok a ↔ o = some a := by
  cases o with
  | none => simp [fetch]
  | some b => simp [fetch]

theorem pure_eq_ok {b : α} : (pure a : Except ε α) = .ok b ↔ a = b := ⟨Except.ok.inj, congrArg Except.ok⟩

theorem ok_iff : (∀ {ε α β : Type} {head : Except ε α} {tail : α → Except ε β} {b : β},
      (head >>= tail) = .ok b ↔ ∃ a, head = .ok a ∧ tail a = .ok b) ∧
    (∀ {p : Unit → Prop}, (∃ u, p u) ↔ p ()) ∧
    (∀ {ε : Type} {p : Prop} [Decidable p] {e : ε} {u : Unit}, require p e = .ok u ↔ p) ∧
    (∀ {ε α : Type} {o : Option α} {e : ε} {a : α}, fetch o e = .ok a ↔ o = some a) ∧
    (∀ {ε α : Type} {a b : α}, (pure a : Except ε α) = .ok b ↔ a = b) ∧
    ∀ {α β : Type} {a a' : α} {b b' : β}, (a, b) = (a', b') ↔ a = a' ∧ b = b' :=
  ⟨bind_eq_ok, exists_unit, require_eq_ok, fetch_eq_ok, pure_eq_ok, .of_eq (Prod.mk.injEq ..)⟩

/-! ## Errors of a kind -/

/-- The computation ends with an error of this kind. -/
def Raises (P : ε → Prop) (x : Except ε α) : Prop := ∃ e, x = .error e ∧ P e

variable {P : ε → Prop}

@[simp]
theorem raises_ok : ¬Raises P (.ok a : Except ε α) := by
  rintro ⟨e, h, -⟩
  cases h

@[simp]
theorem raises_pure : ¬Raises P (pure a : Except ε α) := raises_ok

@[simp]
theorem raises_error : Raises P (.error e : Except ε α) ↔ P e :=
  ⟨fun ⟨_, h, he⟩ => by cases h; exact he, fun he => ⟨e, rfl, he⟩⟩

theorem raises_bind : Raises P (head >>= tail) ↔ Raises P head ∨ ∃ a, head = .ok a ∧ Raises P (tail a) := by
  rcases head with e | a
  · simp [bind, Except.bind]
  · simp [bind, Except.bind]

theorem raises_require {p : Prop} [Decidable p] : Raises P (require p e) ↔ ¬p ∧ P e := by
  unfold require
  split_ifs with h
  · simp [h]
  · simp [h]

theorem raises_fetch {o : Option α} : Raises P (fetch o e) ↔ o = none ∧ P e := by
  cases o with
  | none => simp [fetch]
  | some a => simp [fetch]

theorem exists_ok_iff {x : Except ε α} : (∃ a, x = .ok a) ↔ ¬Raises (fun _ => True) x := by
  rcases x with e | a
  · simp
  · simp

theorem raises_mapM {items : List α} : Raises P (items.mapM f) ↔ ∃ before item after, items = before ++ item :: after ∧
      (∀ x ∈ before, ∃ y, f x = .ok y) ∧ Raises P (f item) := by
  induction items with
  | nil => simp [List.mapM_nil]
  | cons a items ih =>
    rw [List.mapM_cons, raises_bind]
    constructor
    · rintro (ha | ⟨b, hb, h⟩)
      · exact ⟨[], a, items, rfl, by simp, ha⟩
      · rw [raises_bind, ih] at h
        rcases h with ⟨before, item, after, rfl, hbefore, hitem⟩ | ⟨_, -, h⟩
        · refine ⟨a :: before, item, after, rfl, ?_, hitem⟩
          rw [List.forall_mem_cons]
          exact ⟨⟨b, hb⟩, hbefore⟩
        · exact absurd h raises_pure
    · rintro ⟨before, item, after, heq, hbefore, hitem⟩
      cases before with
      | nil =>
        cases heq
        exact .inl hitem
      | cons x before =>
        cases heq
        rw [List.forall_mem_cons] at hbefore
        obtain ⟨⟨b, hb⟩, hbefore⟩ := hbefore
        refine .inr ⟨b, hb, ?_⟩
        rw [raises_bind, ih]
        exact .inl ⟨before, item, after, rfl, hbefore, hitem⟩

theorem mapM_exists_ok {items : List α} : (∃ results, items.mapM f = .ok results) ↔ ∀ x ∈ items, ∃ y, f x = .ok y := by
  induction items with
  | nil => simp [List.mapM_nil, pure_eq_ok]
  | cons a items ih =>
    rw [List.forall_mem_cons, ← ih]
    simp only [List.mapM_cons, bind_eq_ok, pure_eq_ok]
    constructor
    · rintro ⟨_, b, hb, rest, hrest, -⟩
      exact ⟨⟨b, hb⟩, rest, hrest⟩
    · rintro ⟨⟨b, hb⟩, rest, hrest⟩
      exact ⟨_, b, hb, rest, hrest, rfl⟩

end Aftercare.Relational
