import Mathlib.Data.Fintype.Basic
import Mathlib.Data.List.Nodup
import Mathlib.Logic.Function.Basic

/-!
# Transactions that read what is committed and lock the rows they write

A transaction sees the committed rows and its own changes, its `Draft`, and locks the rows that it changes or
selects for an update. `Snapshots.Sound`: no row is locked twice and a draft changes only locked rows, so the
committed version of a locked row stays what it was (`mem_commit_of_locked`).
-/

namespace Aftercare.Relational

variable {ρ κ τ : Type} {key : ρ → κ}

/-- The locked keys, the replaced ones, and the new versions. -/
structure Draft (ρ κ : Type) where
  (locked removed : List κ)
  added : List ρ

namespace Draft

/-- The draft of a transaction that has done nothing. -/
def empty : Draft ρ κ := ⟨[], [], []⟩

def lock (d : Draft ρ κ) (k : κ) : Draft ρ κ := { d with locked := k :: d.locked }

/-- A draft changes only locked rows, with one version of each. -/
structure Sound (key : ρ → κ) (d : Draft ρ κ) : Prop where
  removed : ∀ k ∈ d.removed, k ∈ d.locked
  added : ∀ r ∈ d.added, key r ∈ d.removed
  distinct : (d.added.map key).Nodup

theorem sound_empty : (empty : Draft ρ κ).Sound key :=
  ⟨fun _ hk => absurd hk List.not_mem_nil, fun _ hr => absurd hr List.not_mem_nil, List.nodup_nil⟩

variable {d : Draft ρ κ}

theorem Sound.lock (h : d.Sound key) (k : κ) : (d.lock k).Sound key :=
  ⟨fun k' hk' => List.mem_cons_of_mem k (h.removed k' hk'), h.added, h.distinct⟩

variable [DecidableEq κ]

/-- The rows that the transaction sees, and that it commits. -/
def view (key : ρ → κ) (d : Draft ρ κ) (rows : List ρ) : List ρ :=
  rows.filter (key · ∉ d.removed) ++ d.added

def delete (key : ρ → κ) (d : Draft ρ κ) (ks : List κ) : Draft ρ κ where
  locked := ks ++ d.locked
  removed := ks ++ d.removed
  added := d.added.filter (key · ∉ ks)

/-- A row is inserted, or replaces the row of its key. -/
def write (key : ρ → κ) (d : Draft ρ κ) (r : ρ) : Draft ρ κ where
  locked := key r :: d.locked
  removed := key r :: d.removed
  added := r :: d.added.filter (key · ≠ key r)

theorem mem_view {rows : List ρ} {r : ρ} : r ∈ d.view key rows ↔ (r ∈ rows ∧ key r ∉ d.removed) ∨ r ∈ d.added := by
  simp only [view, List.mem_append, List.mem_filter, decide_eq_true_eq]

theorem added_delete (h : d.added = []) (ks : List κ) : (d.delete key ks).added = [] := by
  rw [delete, h, List.filter_nil]

theorem added_write (h : d.added = []) (r : ρ) : (d.write key r).added = [r] := by
  rw [write, h, List.filter_nil]

theorem Sound.delete (h : d.Sound key) (ks : List κ) : (d.delete key ks).Sound key where
  removed k hk := by
    rcases List.mem_append.mp hk with hk | hk
    · exact List.mem_append_left _ hk
    · exact List.mem_append_right _ (h.removed k hk)
  added r hr := List.mem_append_right _ (h.added r (List.mem_of_mem_filter hr))
  distinct := h.distinct.sublist (List.filter_sublist.map key)

theorem Sound.write (h : d.Sound key) (r : ρ) : (d.write key r).Sound key where
  removed k hk := by
    rcases List.mem_cons.mp hk with rfl | hk
    · exact List.mem_cons_self
    · exact List.mem_cons_of_mem _ (h.removed k hk)
  added a ha := by
    rcases List.mem_cons.mp ha with rfl | ha
    · exact List.mem_cons_self
    · exact List.mem_cons_of_mem _ (h.added a (List.mem_of_mem_filter ha))
  distinct := by
    refine List.nodup_cons.mpr ⟨fun hmem => ?_, h.distinct.sublist (List.filter_sublist.map key)⟩
    obtain ⟨a, ha, hkey⟩ := List.mem_map.mp hmem
    exact of_decide_eq_true (List.mem_filter.mp ha).2 hkey

theorem Sound.nodup_view (h : d.Sound key) {rows : List ρ} (hrows : (rows.map key).Nodup) :
    ((d.view key rows).map key).Nodup := by
  rw [view, List.map_append]
  refine List.nodup_append.mpr ⟨hrows.sublist (List.filter_sublist.map key), h.distinct, ?_⟩
  intro k hk k' hk' heq
  obtain ⟨r, hr, rfl⟩ := List.mem_map.mp hk
  obtain ⟨a, ha, rfl⟩ := List.mem_map.mp hk'
  exact of_decide_eq_true (List.mem_filter.mp hr).2 (heq ▸ h.added a ha)

end Draft

/-- The committed rows, and the draft of each transaction. -/
structure Snapshots (ρ κ τ : Type) where
  rows : List ρ
  drafts : τ → Draft ρ κ

namespace Snapshots

variable {s : Snapshots ρ κ τ}

def Free (s : Snapshots ρ κ τ) (i : τ) (k : κ) : Prop := ∀ j, j ≠ i → k ∉ (s.drafts j).locked

instance [DecidableEq κ] [Fintype τ] [DecidableEq τ] (i : τ) (k : κ) : Decidable (s.Free i k) :=
  inferInstanceAs (Decidable (∀ _, _))

/-- Rows are locked once, drafts are sound, and committed keys differ. -/
structure Sound (key : ρ → κ) (s : Snapshots ρ κ τ) : Prop where
  separate : ∀ i, ∀ k ∈ (s.drafts i).locked, s.Free i k
  drafts : ∀ i, (s.drafts i).Sound key
  rows : (s.rows.map key).Nodup

variable [DecidableEq τ]

def draft (s : Snapshots ρ κ τ) (i : τ) (d : Draft ρ κ) : Snapshots ρ κ τ :=
  { s with drafts := Function.update s.drafts i d }

@[simp]
theorem draft_self (s : Snapshots ρ κ τ) (i : τ) (d : Draft ρ κ) : (s.draft i d).drafts i = d := by
  simp only [draft, Function.update_self]

variable {i : τ}

theorem draft_of_ne (s : Snapshots ρ κ τ) {j : τ} (hne : j ≠ i) (d : Draft ρ κ) :
    (s.draft i d).drafts j = s.drafts j := by
  simp only [draft, Function.update_of_ne hne]

theorem Sound.draft (h : s.Sound key) {d : Draft ρ κ} (hd : d.Sound key) (hfree : ∀ k ∈ d.locked, s.Free i k) :
    (s.draft i d).Sound key where
  separate j k hk j' hne := by
    by_cases hj : j = i
    · subst hj
      rw [draft_self] at hk
      rw [draft_of_ne s hne]
      exact hfree k hk j' hne
    · rw [draft_of_ne s hj] at hk
      by_cases hj' : j' = i
      · subst hj'
        rw [draft_self]
        exact fun hk' => hfree k hk' j hj hk
      · rw [draft_of_ne s hj']
        exact h.separate j k hk j' hne
  drafts j := by
    by_cases hj : j = i
    · subst hj
      rw [draft_self]
      exact hd
    · rw [draft_of_ne s hj]
      exact h.drafts j
  rows := h.rows

theorem Sound.rollback (h : s.Sound key) (i : τ) : (s.draft i .empty).Sound key :=
  h.draft Draft.sound_empty fun _ hk => absurd hk List.not_mem_nil

variable [DecidableEq κ]

def commit (key : ρ → κ) (s : Snapshots ρ κ τ) (i : τ) : Snapshots ρ κ τ where
  rows := (s.drafts i).view key s.rows
  drafts := Function.update s.drafts i .empty

theorem Sound.commit (h : s.Sound key) (i : τ) : (s.commit key i).Sound key where
  separate := (h.rollback i).separate
  drafts := (h.rollback i).drafts
  rows := (h.drafts i).nodup_view h.rows

theorem mem_commit_of_locked (h : s.Sound key) {j : τ} (hne : j ≠ i) {r : ρ} (hr : key r ∈ (s.drafts j).locked) :
    r ∈ (s.commit key i).rows ↔ r ∈ s.rows := by
  have hlocked : key r ∉ (s.drafts i).locked := h.separate j (key r) hr i hne.symm
  have hremoved : key r ∉ (s.drafts i).removed := fun hk => hlocked ((h.drafts i).removed _ hk)
  refine Draft.mem_view.trans ⟨fun hmem => ?_, fun hmem => .inl ⟨hmem, hremoved⟩⟩
  rcases hmem with ⟨hmem, -⟩ | hadded
  · exact hmem
  · exact absurd ((h.drafts i).added r hadded) hremoved

end Snapshots

end Aftercare.Relational
