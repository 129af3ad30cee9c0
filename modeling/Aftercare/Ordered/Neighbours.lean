import Mathlib.Algebra.BigOperators.Group.List.Basic
import Mathlib.Algebra.Order.BigOperators.Group.List
import Mathlib.Data.List.Chain
import Mathlib.Tactic.Ring

/-!
# Neighbours in a list

A property that holds at the head and fails further on is lost between two neighbours (`exists_crossing`); in a
sorted list nothing stands between two neighbours (`not_between_neighbours`). So a scan of the neighbours finds
whether the positions are consecutive (`isChain_succ_iff`).
-/

namespace Aftercare.Ordered

variable {α : Type} {R : α → α → Prop} {l : List α}

@[simp]
theorem consecutivePairs_singleton (a : α) : [a].consecutivePairs = [] := rfl

@[simp]
theorem consecutivePairs_cons_cons (a b : α) (l : List α) :
    (a :: b :: l).consecutivePairs = (a, b) :: (b :: l).consecutivePairs := rfl

theorem forall_consecutivePairs_iff : (∀ p ∈ l.consecutivePairs, R p.1 p.2) ↔ l.IsChain R := by
  induction l using List.twoStepInduction with
  | nil => simp
  | singleton a => simp
  | cons_cons a b l _ ih =>
    rw [consecutivePairs_cons_cons, List.forall_mem_cons, ih, List.isChain_cons_cons]

theorem mem_of_mem_consecutivePairs {p : α × α} (hp : p ∈ l.consecutivePairs) : p.1 ∈ l ∧ p.2 ∈ l :=
  ⟨(List.of_mem_zip hp).1, List.mem_of_mem_tail (List.of_mem_zip hp).2⟩

theorem rel_of_mem_consecutivePairs (h : l.Pairwise R) {p : α × α} (hp : p ∈ l.consecutivePairs) : R p.1 p.2 :=
  forall_consecutivePairs_iff.mpr h.isChain p hp

theorem exists_crossing {P : α → Prop} {a b : α} (ha : P a) (hb : b ∈ a :: l) (hnb : ¬P b) :
    ∃ p ∈ (a :: l).consecutivePairs, P p.1 ∧ ¬P p.2 := by
  induction l generalizing a with
  | nil =>
    rw [List.mem_singleton.mp hb] at hnb
    exact absurd ha hnb
  | cons c l ih =>
    rw [consecutivePairs_cons_cons]
    by_cases hc : P c
    · have hbc : b ∈ c :: l := by
        rcases List.mem_cons.mp hb with rfl | hb
        · exact absurd ha hnb
        · exact hb
      obtain ⟨p, hp, hcross⟩ := ih hc hbc
      exact ⟨p, List.mem_cons_of_mem _ hp, hcross⟩
    · exact ⟨(a, c), List.mem_cons_self, ha, hc⟩

theorem not_between_neighbours (h : l.Pairwise R) {p : α × α} (hp : p ∈ l.consecutivePairs)
    {r : α} (hr : r ∈ l) : r = p.1 ∨ R r p.1 ∨ r = p.2 ∨ R p.2 r := by
  induction l using List.twoStepInduction with
  | nil => cases hr
  | singleton a => cases hp
  | cons_cons a b l _ ih =>
    rw [List.pairwise_cons] at h
    rw [consecutivePairs_cons_cons, List.mem_cons] at hp
    rcases hp with rfl | hp
    · rcases List.mem_cons.mp hr with rfl | hr
      · exact .inl rfl
      · rcases List.mem_cons.mp hr with rfl | hr
        · exact .inr (.inr (.inl rfl))
        · exact .inr (.inr (.inr (List.rel_of_pairwise_cons h.2 hr)))
    · rcases List.mem_cons.mp hr with rfl | hr
      · exact .inr (.inl (h.1 p.1 (mem_of_mem_consecutivePairs hp).1))
      · exact ih b h.2 hp hr

/-! ## Positions -/

section Positions

variable {f : α → ℤ}

/-- No position between two of the list is left out. -/
def Consecutive (f : α → ℤ) (l : List α) : Prop :=
  ∀ a ∈ l, ∀ b ∈ l, ∀ i, f a ≤ i → i ≤ f b → ∃ r ∈ l, f r = i

/-- Sorted positions are consecutive exactly when neighbours are one apart. -/
theorem isChain_succ_iff (h : l.Pairwise fun a b => f a < f b) :
    l.IsChain (fun a b => f b = f a + 1) ↔ Consecutive f l := by
  rw [← forall_consecutivePairs_iff]
  constructor
  · intro hsucc a ha b hb i hai hib
    by_contra hnone
    -- A position that nothing has is crossed between two neighbours, which are one apart.
    have hmiss : ∀ r ∈ l, f r ≠ i := fun r hr hri => hnone ⟨r, hr, hri⟩
    cases l with
    | nil => cases ha
    | cons c l =>
      have hca : f c ≤ f a := by
        rcases List.mem_cons.mp ha with rfl | ha
        · exact le_rfl
        · exact (List.rel_of_pairwise_cons h ha).le
      have hci : f c < i := by
        have := hmiss c List.mem_cons_self
        omega
      obtain ⟨p, hp, hbefore, hafter⟩ := exists_crossing (P := fun r => f r < i) hci hb (by omega)
      have hone := hsucc p hp
      have hne := hmiss p.2 (mem_of_mem_consecutivePairs hp).2
      omega
  · intro hcons p hp
    have hlt : f p.1 < f p.2 := rel_of_mem_consecutivePairs h hp
    obtain ⟨h1, h2⟩ := mem_of_mem_consecutivePairs hp
    obtain ⟨r, hr, hri⟩ := hcons p.1 h1 p.2 h2 (f p.1 + 1) (by omega) (by omega)
    rcases not_between_neighbours h hp hr with rfl | hr | rfl | hr
    · omega
    · omega
    · exact hri
    · omega

theorem sum_distances (f : α → ℤ) (a : α) (l : List α) :
    ((a :: l).consecutivePairs.map fun p => f p.2 - f p.1 - 1).sum =
      f ((a :: l).getLast (List.cons_ne_nil a l)) - f a + 1 - (a :: l).length := by
  induction l generalizing a with
  | nil => simp
  | cons b l ih =>
    rw [consecutivePairs_cons_cons, List.map_cons, List.sum_cons, ih, List.getLast_cons_cons]
    simp only [List.length_cons]
    push_cast
    ring

end Positions

/-- A sum leaves nothing out exactly when the left-out items are zero. -/
theorem sum_unless_eq_iff {β : Type} {skip : β → Bool} {d : β → ℤ} {items : List β}
    (h : ∀ b ∈ items, skip b = true → 0 ≤ d b) :
    (items.map fun b => if skip b then 0 else d b).sum = (items.map d).sum ↔ ∀ b ∈ items, skip b = true → d b = 0 := by
  induction items with
  | nil => simp
  | cons b items ih =>
    rw [List.forall_mem_cons] at h
    obtain ⟨hb, hitems⟩ := h
    have hle : (items.map fun b => if skip b then 0 else d b).sum ≤ (items.map d).sum := by
      refine List.sum_le_sum fun b hb => ?_
      split_ifs with hskip
      · exact hitems b hb hskip
      · exact le_rfl
    rw [List.map_cons, List.sum_cons, List.map_cons, List.sum_cons, List.forall_mem_cons, ← ih hitems]
    by_cases hskip : skip b = true
    · have hnonneg := hb hskip
      simp only [hskip, if_true, true_implies]
      omega
    · simp only [hskip]
      simp

end Aftercare.Ordered
