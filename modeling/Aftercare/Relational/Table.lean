import Mathlib.Data.List.Nodup
import Mathlib.Data.List.Pairwise

/-!
# Tables that carry their constraints

A `Schema` gives a table's primary key, the pairs of rows that its unique constraints forbid, and the check every
row passes; a `Table` is a list of rows that meets it. `insert` and `update` refuse, as a database does, when a
constraint fails. A statement's effect is read through `get`, or through the rows for a scan.
-/

namespace Aftercare.Relational

/-- The constraints of a table with rows `ρ` and primary key `κ`. -/
structure Schema (ρ κ : Type) where
  /-- The primary key of a row. -/
  key : ρ → κ
  /-- Rows that another unique constraint forbids together. -/
  clash : ρ → ρ → Bool
  /-- The check constraints of one row. -/
  check : ρ → Bool

/-- The constraint that a refused statement would have broken. -/
inductive Violation
  | unique
  | check
deriving DecidableEq, Repr

variable {ρ κ : Type}

/-- Two rows may stand in one table. -/
def Schema.Apart (S : Schema ρ κ) (a b : ρ) : Prop :=
  S.key a ≠ S.key b ∧ S.clash a b = false ∧ S.clash b a = false

instance [DecidableEq κ] (S : Schema ρ κ) (a b : ρ) : Decidable (S.Apart a b) :=
  inferInstanceAs (Decidable (_ ∧ _ ∧ _))

theorem Schema.Apart.symm {S : Schema ρ κ} {a b : ρ} (h : S.Apart a b) : S.Apart b a := ⟨h.1.symm, h.2.2, h.2.1⟩

instance (S : Schema ρ κ) : Std.Symm S.Apart := ⟨fun _ _ h => h.symm⟩

/-- A list of rows that meets the constraints of `S`. -/
structure Table (S : Schema ρ κ) where
  /-- The rows, in insertion order. -/
  rows : List ρ
  /-- No two rows break a unique constraint. -/
  apart : rows.Pairwise S.Apart
  /-- Every row passes the check constraints. -/
  checked : ∀ r ∈ rows, S.check r = true

namespace Table

variable {S : Schema ρ κ}

def empty : Table S := ⟨[], List.Pairwise.nil, by simp⟩

variable {t t' : Table S}

variable {f : ρ → ρ} {p : ρ → Bool} {r a old : ρ}

theorem eq_of_key_eq {b : ρ} (ha : a ∈ t.rows) (hb : b ∈ t.rows) (h : S.key a = S.key b) : a = b := by
  by_contra hne
  exact (t.apart.forall ha hb hne).1 h

variable [DecidableEq κ]

/-- The row with primary key `k`. -/
def get (t : Table S) (k : κ) : Option ρ := t.rows.find? fun r => S.key r = k

/-- The rows that `p` selects. -/
def select (t : Table S) (p : ρ → Bool) : List ρ := t.rows.filter p

theorem get_eq_some {k : κ} : t.get k = some r ↔ r ∈ t.rows ∧ S.key r = k := by
  constructor
  · intro h
    exact ⟨List.mem_of_find?_eq_some h, by simpa using List.find?_some h⟩
  · rintro ⟨hr, rfl⟩
    cases hf : t.get (S.key r) with
    | none => simpa using List.find?_eq_none.mp hf r hr
    | some a =>
      have ha : a ∈ t.rows := List.mem_of_find?_eq_some hf
      have hk : S.key a = S.key r := by simpa using List.find?_some hf
      rw [eq_of_key_eq ha hr hk]

theorem key_of_get {k : κ} (h : t.get k = some r) : S.key r = k := (get_eq_some.mp h).2

theorem mem_of_get {k : κ} (h : t.get k = some r) : r ∈ t.rows := (get_eq_some.mp h).1

theorem get_of_mem (h : r ∈ t.rows) : t.get (S.key r) = some r := get_eq_some.mpr ⟨h, rfl⟩

theorem get_eq_none {k : κ} : t.get k = none ↔ ∀ r ∈ t.rows, S.key r ≠ k := by
  simp [get, List.find?_eq_none]

theorem check_of_get {k : κ} (h : t.get k = some r) : S.check r = true := t.checked r (mem_of_get h)

/-! ## Insertion -/

/-- `INSERT`: append `r`, unless a constraint refuses it. -/
def insert (t : Table S) (r : ρ) : Except Violation (Table S) :=
  if hc : S.check r = true then
    if hu : ∀ a ∈ t.rows, S.Apart a r then
      .ok
        { rows := t.rows ++ [r]
          apart := by
            refine List.pairwise_append.mpr ⟨t.apart, List.pairwise_singleton _ _, ?_⟩
            intro a ha b hb
            rw [List.mem_singleton.mp hb]
            exact hu a ha
          checked := by
            intro a ha
            rcases List.mem_append.mp ha with ha | ha
            · exact t.checked a ha
            · rw [List.mem_singleton.mp ha]; exact hc }
    else .error .unique
  else .error .check

theorem insert_eq_ok (h : t.insert r = .ok t') :
    S.check r = true ∧ (∀ a ∈ t.rows, S.Apart a r) ∧ t'.rows = t.rows ++ [r] := by
  unfold insert at h
  split_ifs at h with hc hu
  cases h
  exact ⟨hc, hu, rfl⟩

theorem get_none_of_insert (h : t.insert r = .ok t') : t.get (S.key r) = none := by
  obtain ⟨-, hu, -⟩ := insert_eq_ok h
  exact get_eq_none.mpr fun a ha => (hu a ha).1

theorem get_insert (h : t.insert r = .ok t') (k : κ) : t'.get k = if k = S.key r then some r else t.get k := by
  obtain ⟨-, -, hrows⟩ := insert_eq_ok h
  unfold get
  rw [hrows, List.find?_append]
  split_ifs with hk
  · subst hk
    have hnone : t.rows.find? (fun a => S.key a = S.key r) = none := get_none_of_insert h
    simp [hnone]
  · simp [Ne.symm hk]

theorem insert_of_apart (hc : S.check r = true) (hu : ∀ a ∈ t.rows, S.Apart a r) : ∃ t', t.insert r = .ok t' := by
  unfold insert
  rw [dif_pos hc, dif_pos hu]
  exact ⟨_, rfl⟩

/-- An insertion succeeds when no constraint stands against it. -/
theorem insert_total (hc : S.check r = true) (hk : t.get (S.key r) = none)
    (hu : ∀ a, S.clash a r = false ∧ S.clash r a = false) : ∃ t', t.insert r = .ok t' :=
  insert_of_apart hc fun a ha => ⟨get_eq_none.mp hk a ha, hu a⟩

theorem mem_insert (h : t.insert r = .ok t') : a ∈ t'.rows ↔ a ∈ t.rows ∨ a = r := by
  obtain ⟨-, -, hrows⟩ := insert_eq_ok h
  simp [hrows]

/-- `ON CONFLICT DO NOTHING`, with whether the row was appended. -/
def insertOrIgnore (t : Table S) (r : ρ) : Except Violation (Table S × Bool) :=
  match t.insert r with
  | .ok t' => .ok (t', true)
  | .error .unique => .ok (t, false)
  | .error .check => .error .check

theorem insertOrIgnore_of_insert (h : t.insert r = .ok t') : t.insertOrIgnore r = .ok (t', true) := by
  unfold insertOrIgnore
  rw [h]

theorem insertOrIgnore_eq_ok {inserted : Bool} (h : t.insertOrIgnore r = .ok (t', inserted)) :
    (inserted = true ∧ t.insert r = .ok t') ∨ (inserted = false ∧ t' = t) := by
  unfold insertOrIgnore at h
  split at h
  · cases h
    exact .inl ⟨rfl, by assumption⟩
  · cases h
    exact .inr ⟨rfl, rfl⟩
  · cases h

theorem insertOrIgnore_map_fst (h : (t.insertOrIgnore r).map Prod.fst = .ok t') : t.insert r = .ok t' ∨ t' = t := by
  cases hinsert : t.insertOrIgnore r with
  | error e =>
    rw [hinsert] at h
    cases h
  | ok result =>
    obtain ⟨left, inserted⟩ := result
    rw [hinsert] at h
    cases h
    exact (insertOrIgnore_eq_ok hinsert).imp And.right And.right

theorem insertOrIgnore_ignored :
    t.insertOrIgnore r = .ok (t, false) ↔ S.check r = true ∧ ∃ a ∈ t.rows, ¬S.Apart a r := by
  unfold insertOrIgnore insert
  by_cases hc : S.check r = true
  · by_cases hu : ∀ a ∈ t.rows, S.Apart a r
    · rw [dif_pos hc, dif_pos hu]
      simpa [hc] using hu
    · rw [dif_pos hc, dif_neg hu]
      simpa [hc] using hu
  · simp [hc]

/-- An insertion that may be ignored only fails on a check. -/
theorem insertOrIgnore_total (hc : S.check r = true) (hu : ∀ a, S.clash a r = false ∧ S.clash r a = false) :
    ∃ t' inserted, t.insertOrIgnore r = .ok (t', inserted) ∧ t'.get (S.key r) = some ((t.get (S.key r)).getD r) := by
  cases hget : t.get (S.key r) with
  | none =>
    obtain ⟨t', hinsert⟩ := insert_total hc hget hu
    refine ⟨t', true, insertOrIgnore_of_insert hinsert, ?_⟩
    rw [get_insert hinsert, if_pos rfl]
    rfl
  | some a =>
    obtain ⟨ha, hkey⟩ := get_eq_some.mp hget
    exact ⟨t, false, insertOrIgnore_ignored.mpr ⟨hc, a, ha, fun h => h.1 hkey⟩, hget⟩

/-- `ON CONFLICT (key) DO NOTHING`. -/
def insertIfAbsent (t : Table S) (r : ρ) : Except Violation (Table S) :=
  match t.get (S.key r) with
  | some _ => .ok t
  | none => t.insert r

theorem get_insertIfAbsent (h : t.insertIfAbsent r = .ok t') (k : κ) :
    t'.get k = if k = S.key r then some ((t.get k).getD r) else t.get k := by
  unfold insertIfAbsent at h
  split at h
  · next a ha =>
    rw [← Except.ok.inj h]
    split_ifs with hk
    · rw [hk, ha, Option.getD_some]
    · rfl
  · next hnone =>
    rw [get_insert h]
    split_ifs with hk
    · rw [hk, hnone, Option.getD_none]
    · rfl

/-! ## Update -/

/-- The rows after the row with key `k` is replaced by `r`. -/
def replaced (S : Schema ρ κ) (rows : List ρ) (k : κ) (r : ρ) : List ρ :=
  rows.map fun a => if S.key a = k then r else a

theorem mem_replaced {rows : List ρ} {k : κ} :
    a ∈ replaced S rows k r ↔ (a ∈ rows ∧ S.key a ≠ k) ∨ (a = r ∧ ∃ b ∈ rows, S.key b = k) := by
  unfold replaced
  rw [List.mem_map]
  constructor
  · rintro ⟨b, hb, rfl⟩
    split_ifs with hk
    · exact .inr ⟨rfl, b, hb, hk⟩
    · exact .inl ⟨hb, hk⟩
  · rintro (⟨ha, hk⟩ | ⟨rfl, b, hb, hk⟩)
    · exact ⟨a, ha, if_neg hk⟩
    · exact ⟨b, hb, if_pos hk⟩

/-- Replacing a row by one that is apart from all the others. -/
theorem pairwise_replaced {rows : List ρ} {k : κ} (hrows : rows.Pairwise S.Apart)
    (hr : ∀ a ∈ rows, S.key a ≠ k → S.Apart a r) : (replaced S rows k r).Pairwise S.Apart := by
  unfold replaced
  rw [List.pairwise_map]
  refine hrows.imp_of_mem ?_
  intro a b ha hb hab
  split_ifs with hak hbk hbk
  · exact absurd (hak.trans hbk.symm) hab.1
  · exact (hr b hb hbk).symm
  · exact hr a ha hak
  · exact hab

/-- `UPDATE` of the row with key `k`, refusing a row that fails a constraint. -/
def update (t : Table S) (k : κ) (f : ρ → ρ) : Except Violation (Table S) :=
  match t.get k with
  | none => .ok t
  | some old =>
    if hc : S.check (f old) = true then
      if hu : S.key (f old) = k ∧ ∀ a ∈ t.rows, S.key a ≠ k → S.Apart a (f old) then
        .ok
          { rows := replaced S t.rows k (f old)
            apart := pairwise_replaced t.apart hu.2
            checked := by
              intro a ha
              rcases mem_replaced.mp ha with ⟨ha, -⟩ | ⟨rfl, -⟩
              · exact t.checked a ha
              · exact hc }
      else .error .unique
    else .error .check

theorem update_of_none {k : κ} (hk : t.get k = none) (h : t.update k f = .ok t') : t' = t := by
  unfold update at h
  rw [hk] at h
  exact (Except.ok.inj h).symm

theorem update_eq_ok {k : κ} (hk : t.get k = some old) (h : t.update k f = .ok t') :
    S.check (f old) = true ∧ S.key (f old) = k ∧ t'.rows = replaced S t.rows k (f old) := by
  unfold update at h
  rw [hk] at h
  dsimp only at h
  split_ifs at h with hc hu
  cases h
  exact ⟨hc, hu.1, rfl⟩

/-- An update succeeds exactly when no constraint stands against it. -/
theorem update_ok_iff {k : κ} (hk : t.get k = some old) :
    (∃ t', t.update k f = .ok t') ↔ S.check (f old) = true ∧ S.key (f old) = k ∧
      ∀ a ∈ t.rows, S.key a ≠ k → S.clash a (f old) = false ∧ S.clash (f old) a = false := by
  unfold update
  rw [hk]
  dsimp only
  constructor
  · rintro ⟨t', h⟩
    split_ifs at h with hc hu
    exact ⟨hc, hu.1, fun a ha hak => (hu.2 a ha hak).2⟩
  · rintro ⟨hc, hkey, hu⟩
    have hapart : ∀ a ∈ t.rows, S.key a ≠ k → S.Apart a (f old) :=
      fun a ha hak => ⟨fun h => hak (h.trans hkey), hu a ha hak⟩
    rw [dif_pos hc, dif_pos ⟨hkey, hapart⟩]
    exact ⟨_, rfl⟩

/-- An update succeeds when no constraint stands against it. -/
theorem update_total {k : κ} (hk : t.get k = some old) (hc : S.check (f old) = true) (hkey : S.key (f old) = k)
    (hu : ∀ a, S.clash a (f old) = false ∧ S.clash (f old) a = false) :
    ∃ t', t.update k f = .ok t' :=
  (update_ok_iff hk).mpr ⟨hc, hkey, fun a _ _ => hu a⟩

theorem get_update {k : κ} (h : t.update k f = .ok t') (k' : κ) :
    t'.get k' = if k' = k then (t.get k).map f else t.get k' := by
  cases hk : t.get k with
  | none =>
    rw [update_of_none hk h]
    split_ifs with hkk
    · rw [hkk, hk]; rfl
    · rfl
  | some old =>
    obtain ⟨-, hkey, hrows⟩ := update_eq_ok hk h
    have hold := get_eq_some.mp hk
    split_ifs with hkk
    · subst hkk
      refine get_eq_some.mpr ⟨?_, hkey⟩
      rw [hrows]
      exact mem_replaced.mpr (.inr ⟨rfl, old, hold⟩)
    · refine Option.ext fun a => ?_
      rw [get_eq_some, get_eq_some, hrows, mem_replaced]
      constructor
      · rintro ⟨⟨ha, -⟩ | ⟨rfl, -⟩, hak⟩
        · exact ⟨ha, hak⟩
        · exact absurd (hak.symm.trans hkey) hkk
      · rintro ⟨ha, hak⟩
        exact ⟨.inl ⟨ha, fun hk' => hkk (hak.symm.trans hk')⟩, hak⟩

theorem mem_update {k : κ} (hk : t.get k = some old) (h : t.update k f = .ok t') :
    a ∈ t'.rows ↔ (a ∈ t.rows ∧ S.key a ≠ k) ∨ a = f old := by
  obtain ⟨-, -, hrows⟩ := update_eq_ok hk h
  have hold : ∃ b ∈ t.rows, S.key b = k := ⟨old, get_eq_some.mp hk⟩
  rw [hrows, mem_replaced]
  simp [hold]

theorem map_update {β : Type} {k : κ} {g : ρ → β} (hk : t.get k = some old) (hg : g (f old) = g old)
    (h : t.update k f = .ok t') : t'.rows.map g = t.rows.map g := by
  obtain ⟨-, -, hrows⟩ := update_eq_ok hk h
  rw [hrows, replaced, List.map_map]
  refine List.map_congr_left fun a ha => ?_
  dsimp only [Function.comp]
  split_ifs with hkey
  · rw [hg, eq_of_key_eq ha (mem_of_get hk) (hkey.trans (key_of_get hk).symm)]
  · rfl

theorem mem_update_of_ne {k : κ} (hk : t.get k = some old) (h : t.update k f = .ok t') (ha : a ∈ t.rows)
    (hne : a ≠ old) : a ∈ t'.rows := by
  refine (mem_update hk h).mpr (.inl ⟨ha, fun hkey => hne ?_⟩)
  exact eq_of_key_eq ha (mem_of_get hk) (hkey.trans (key_of_get hk).symm)

/-! ## Deletion -/

/-- `DELETE` of the rows that `p` selects. -/
def deleteWhere (t : Table S) (p : ρ → Bool) : Table S where
  rows := t.rows.filter fun r => !p r
  apart := t.apart.filter _
  checked r hr := t.checked r (List.mem_of_mem_filter hr)

omit [DecidableEq κ] in
theorem mem_deleteWhere : a ∈ (t.deleteWhere p).rows ↔ a ∈ t.rows ∧ p a = false := by
  simp [deleteWhere]

omit [DecidableEq κ] in
theorem ext_rows {u : Table S} (h : t.rows = u.rows) : t = u := by
  cases t
  cases u
  cases h
  rfl

omit [DecidableEq κ] in
theorem nodup_rows (t : Table S) : t.rows.Nodup := t.apart.imp fun hapart heq => hapart.1 (congrArg S.key heq)

omit [DecidableEq κ] in
theorem deleteWhere_of_forall (h : ∀ r ∈ t.rows, p r = false) : t.deleteWhere p = t :=
  ext_rows (List.filter_eq_self.mpr fun r hr => by rw [h r hr]; rfl)

omit [DecidableEq κ] in
theorem deleteWhere_comm (t : Table S) (p q : ρ → Bool) :
    (t.deleteWhere p).deleteWhere q = (t.deleteWhere q).deleteWhere p := by
  refine ext_rows ?_
  change (t.rows.filter _).filter _ = (t.rows.filter _).filter _
  rw [List.filter_filter, List.filter_filter]
  exact List.filter_congr fun r _ => Bool.and_comm _ _

omit [DecidableEq κ] in
theorem deleteWhere_append {new : List ρ} (h : t'.rows = t.rows ++ new) (hnew : ∀ r ∈ new, p r = true) :
    t'.deleteWhere p = t.deleteWhere p := by
  refine ext_rows ?_
  change t'.rows.filter _ = t.rows.filter _
  have hnone : (new.filter fun r => !p r) = [] := List.filter_eq_nil_iff.mpr fun r hr => by simp [hnew r hr]
  rw [h, List.filter_append, hnone, List.append_nil]

theorem get_deleteWhere (t : Table S) (p : ρ → Bool) (k : κ) :
    (t.deleteWhere p).get k = (t.get k).filter fun r => !p r := by
  refine Option.ext fun a => ?_
  rw [get_eq_some, mem_deleteWhere, Option.filter_eq_some_iff, get_eq_some]
  constructor
  · rintro ⟨⟨ha, hp⟩, hk⟩
    exact ⟨⟨ha, hk⟩, by simp [hp]⟩
  · rintro ⟨⟨ha, hk⟩, hp⟩
    exact ⟨⟨ha, by simpa using hp⟩, hk⟩

theorem get_deleteWhere_key (t : Table S) (k k' : κ) :
    (t.deleteWhere fun r => S.key r = k).get k' = if k' = k then none else t.get k' := by
  rw [get_deleteWhere]
  cases hget : t.get k' with
  | none => simp
  | some r =>
    have hkey := key_of_get hget
    split_ifs with hk
    · simp [hkey, hk]
    · simp [hkey, hk]

/-! ## Restoring a row -/

/-- The table with the row of a key as it is in another table. -/
def restoreKey (t : Table S) (k : κ) (u : Table S) (hclash : ∀ a b, S.clash a b = false) : Table S where
  rows := t.rows.filterMap fun r => if S.key r = k then u.get k else some r
  apart := by
    refine List.pairwise_filterMap.mpr (t.apart.imp fun {a b} hab a' ha b' hb => ?_)
    have hkey : ∀ {r r'}, (if S.key r = k then u.get k else some r) = some r' → S.key r' = S.key r := by
      intro r r' hr
      split_ifs at hr with hsame
      · exact (key_of_get hr).trans hsame.symm
      · exact congrArg S.key (Option.some.inj hr).symm
    exact ⟨by rw [hkey ha, hkey hb]; exact hab.1, hclash _ _, hclash _ _⟩
  checked r hr := by
    obtain ⟨a, ha, hr⟩ := List.mem_filterMap.mp hr
    split_ifs at hr
    · exact check_of_get hr
    · exact Option.some.inj hr ▸ t.checked a ha

section

variable {t u : Table S} {k : κ} (hclash : ∀ a b, S.clash a b = false)

theorem rows_restoreKey : (t.restoreKey k u hclash).rows =
    t.rows.filterMap fun r => if S.key r = k then u.get k else some r := rfl

theorem get_restoreKey (hthere : (u.get k).isSome → (t.get k).isSome) : (t.restoreKey k u hclash).get k = u.get k := by
  refine Option.ext fun a => ?_
  rw [get_eq_some, rows_restoreKey, List.mem_filterMap]
  constructor
  · rintro ⟨⟨b, hb, hba⟩, hkey⟩
    split_ifs at hba with hsame
    · exact hba
    · obtain rfl := Option.some.inj hba
      exact absurd hkey hsame
  · intro ha
    obtain ⟨old, hold⟩ := Option.isSome_iff_exists.mp (hthere (ha ▸ rfl))
    exact ⟨⟨old, mem_of_get hold, (if_pos (key_of_get hold)).trans ha⟩, key_of_get ha⟩

theorem get_restoreKey_of_ne {k' : κ} (hne : k' ≠ k) : (t.restoreKey k u hclash).get k' = t.get k' := by
  refine Option.ext fun a => ?_
  rw [get_eq_some, get_eq_some, rows_restoreKey, List.mem_filterMap]
  constructor
  · rintro ⟨⟨b, hb, hba⟩, rfl⟩
    split_ifs at hba with hsame
    · exact absurd (key_of_get hba) hne
    · obtain rfl := Option.some.inj hba
      exact ⟨hb, rfl⟩
  · rintro ⟨ha, rfl⟩
    exact ⟨⟨a, ha, if_neg hne⟩, rfl⟩

theorem restoreKey_self (t : Table S) (k : κ) : t.restoreKey k t hclash = t := by
  refine ext_rows ((List.filterMap_congr fun r hr => ?_).trans List.filterMap_some)
  split_ifs with hsame
  · rw [← hsame]
    exact get_of_mem hr
  · rfl

theorem restoreKey_comm {v : Table S} {k' : κ} (hne : k ≠ k') :
    (t.restoreKey k u hclash).restoreKey k' v hclash = (t.restoreKey k' v hclash).restoreKey k u hclash := by
  refine ext_rows ?_
  simp only [rows_restoreKey, List.filterMap_filterMap]
  refine List.filterMap_congr fun r _ => ?_
  by_cases hk : S.key r = k
  · rw [if_pos hk, if_neg (by rwa [hk])]
    cases hu : u.get k with
    | none => simp [hk]
    | some a => simp [hk, key_of_get hu, hne]
  · rw [if_neg hk]
    by_cases hk' : S.key r = k'
    · cases hv : v.get k' with
      | none => simp [hk']
      | some a => simp [hk', key_of_get hv, Ne.symm hne]
    · simp [hk, hk']

theorem restoreKey_insert {t' : Table S} {r : ρ} (h : t.insert r = .ok t') (hu : u.get (S.key r) = none) :
    t'.restoreKey (S.key r) u hclash = t.restoreKey (S.key r) u hclash := by
  obtain ⟨-, -, hrows⟩ := insert_eq_ok h
  refine ext_rows ?_
  rw [rows_restoreKey, hrows, List.filterMap_append]
  simp [rows_restoreKey, hu]

theorem restoreKey_update {t' : Table S} {f : ρ → ρ} {old : ρ} (hk : t.get k = some old)
    (h : t.update k f = .ok t') : t'.restoreKey k u hclash = t.restoreKey k u hclash := by
  obtain ⟨-, hkey, hrows⟩ := update_eq_ok hk h
  refine ext_rows ?_
  rw [rows_restoreKey, hrows, replaced, List.filterMap_map, rows_restoreKey]
  refine List.filterMap_congr fun r _ => ?_
  by_cases hr : S.key r = k
  · simp [hr, hkey]
  · simp [hr]

end

end Table

end Aftercare.Relational
