import Mathlib.Data.List.Chain
import Mathlib.Data.Set.Lattice

/-!
# Reading snapshots above a watermark

A reader takes of each snapshot what lies above everything of the one before (`above`). It has taken all of the
last one exactly when at each step all that was added lies above all that was there (`last_subset_iff`).
-/

namespace Aftercare.Ordered

variable {α κ : Type} [Preorder κ] (key : α → κ) {seen : Set α} {snapshots : List (Set α)}

/-- The elements of a snapshot above everything of the one before. -/
def above (seen new : Set α) : Set α := {a | a ∈ new ∧ ∀ b ∈ seen, key b < key a}

/-- All that was added lies above all that was there. -/
def AddedAbove (seen new : Set α) : Prop := ∀ a ∈ new, a ∉ seen → ∀ b ∈ seen, key b < key a

def taken (seen : Set α) : List (Set α) → Set α
  | [] => ∅
  | new :: later => above key seen new ∪ taken new later

variable {key}

theorem subset_last (hgrows : (seen :: snapshots).IsChain (· ⊆ ·)) : seen ⊆ snapshots.getLastD seen := by
  induction snapshots generalizing seen with
  | nil => exact subset_rfl
  | cons new later ih =>
    rw [List.isChain_cons_cons] at hgrows
    rw [List.getLastD_cons]
    exact hgrows.1.trans (ih hgrows.2)

variable (key) in
theorem taken_subset_last (hgrows : (seen :: snapshots).IsChain (· ⊆ ·)) :
    taken key seen snapshots ⊆ snapshots.getLastD seen := by
  induction snapshots generalizing seen with
  | nil => exact Set.empty_subset _
  | cons new later ih =>
    rw [List.isChain_cons_cons] at hgrows
    rw [List.getLastD_cons]
    exact Set.union_subset (fun a ha => subset_last hgrows.2 ha.1) (ih hgrows.2)

theorem notMem_taken {a : α} (hgrows : (seen :: snapshots).IsChain (· ⊆ ·)) (ha : a ∈ seen) :
    a ∉ taken key seen snapshots := by
  induction snapshots generalizing seen with
  | nil => exact Set.notMem_empty a
  | cons new later ih =>
    rw [List.isChain_cons_cons] at hgrows
    intro htaken
    obtain habove | hlater := htaken
    · exact lt_irrefl _ (habove.2 a ha)
    · exact ih hgrows.2 (hgrows.1 ha) hlater

variable (key) in
theorem last_subset_iff (hgrows : (seen :: snapshots).IsChain (· ⊆ ·)) :
    snapshots.getLastD seen ⊆ seen ∪ taken key seen snapshots ↔ (seen :: snapshots).IsChain (AddedAbove key) := by
  induction snapshots generalizing seen with
  | nil => simp [taken]
  | cons new later ih =>
    rw [List.isChain_cons_cons] at hgrows ⊢
    rw [List.getLastD_cons, taken, ← ih hgrows.2]
    constructor
    · intro hall
      refine ⟨fun a ha hadded => ?_, fun a ha => ?_⟩
      · -- what was added is in the last snapshot, and if not now then it is never taken
        obtain hseen | habove | hlater := hall (subset_last hgrows.2 ha)
        · exact absurd hseen hadded
        · exact habove.2
        · exact absurd hlater (notMem_taken hgrows.2 ha)
      · obtain hseen | habove | hlater := hall ha
        · exact .inl (hgrows.1 hseen)
        · exact .inl habove.1
        · exact .inr hlater
    · rintro ⟨hadded, hall⟩ a ha
      obtain hnew | hlater := hall ha
      · by_cases hseen : a ∈ seen
        · exact .inl hseen
        · exact .inr (.inl ⟨hnew, hadded a hnew hseen⟩)
      · exact .inr (.inr hlater)

end Aftercare.Ordered
