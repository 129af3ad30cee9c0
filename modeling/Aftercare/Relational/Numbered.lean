import Mathlib.Data.List.Basic
import Mathlib.Data.List.Nodup
import Mathlib.Data.List.Range

/-!
# Numbered logs

A log is numbered by `pos` when its entries have the positions `1, 2, …` in order. A numbered log has
no gaps and no duplicates, the next entry has the position after its length, and a reader that has the
first `k` entries has one more when it takes the entry at position `k + 1`, wherever it came from.
-/

namespace Aftercare.Relational

variable {α : Type} {pos : α → ℕ} {log : List α} {a : α} {k : ℕ}

/-- The entries of the log have the positions `1, 2, …` in order. -/
def Numbered (pos : α → ℕ) (log : List α) : Prop := log.map pos = List.range' 1 log.length

theorem numbered_nil (pos : α → ℕ) : Numbered pos [] := rfl

theorem Numbered.concat (h : Numbered pos log) (ha : pos a = log.length + 1) : Numbered pos (log ++ [a]) := by
  unfold Numbered at h ⊢
  rw [List.map_append, h, List.length_append, List.length_singleton, List.range'_1_concat,
    List.map_singleton, ha, Nat.add_comm 1]

theorem Numbered.pos_eq {i : ℕ} (h : Numbered pos log) (ha : log[i]? = some a) : pos a = i + 1 := by
  have hmap : (log.map pos)[i]? = some (pos a) := by rw [List.getElem?_map, ha]; rfl
  rw [h, List.getElem?_eq_some_iff] at hmap
  obtain ⟨hi, hpos⟩ := hmap
  rw [List.getElem_range'] at hpos
  omega

theorem Numbered.pos_le (h : Numbered pos log) (ha : a ∈ log) : pos a ≤ log.length := by
  obtain ⟨i, hi⟩ := List.mem_iff_getElem?.mp ha
  have hpos := h.pos_eq hi
  have hlt := (List.getElem?_eq_some_iff.mp hi).1
  omega

theorem Numbered.getElem?_of_mem (h : Numbered pos log) (ha : a ∈ log) (hpos : pos a = k + 1) : log[k]? = some a := by
  obtain ⟨i, hi⟩ := List.mem_iff_getElem?.mp ha
  have heq : i = k := by
    have := h.pos_eq hi
    omega
  rw [← heq]
  exact hi

theorem Numbered.take_succ (h : Numbered pos log) (ha : a ∈ log) (hpos : pos a = k + 1) :
    log.take (k + 1) = log.take k ++ [a] ∧ k + 1 ≤ log.length := by
  have hget := h.getElem?_of_mem ha hpos
  obtain ⟨hlt, -⟩ := List.getElem?_eq_some_iff.mp hget
  refine ⟨?_, hlt⟩
  rw [List.take_add_one, hget]
  rfl

theorem Numbered.nodup (h : Numbered pos log) : log.Nodup := by
  refine List.Nodup.of_map pos ?_
  rw [h]
  exact List.nodup_range'

theorem Numbered.foldl_max (h : Numbered pos log) : (log.map pos).foldl max 0 = log.length := by
  rw [h]
  induction log.length with
  | zero => rfl
  | succ n ih =>
    rw [List.range'_1_concat, List.foldl_append, ih, List.foldl_cons, List.foldl_nil]
    omega

theorem Numbered.map_drop (h : Numbered pos log) (n : ℕ) :
    (log.drop n).map pos = List.range' (n + 1) (log.drop n).length := by
  rw [List.map_drop, h, List.drop_range', List.length_drop, Nat.add_comm, Nat.mul_one]

/-- What comes after a position is what is left of the log behind it. -/
theorem Numbered.filter_lt (h : Numbered pos log) (n : ℕ) : (log.filter fun a => n < pos a) = log.drop n := by
  have hbefore : ∀ a ∈ log.take n, pos a ≤ n := by
    intro a ha
    obtain ⟨i, hi⟩ := List.mem_iff_getElem?.mp ha
    rw [List.getElem?_take, Option.ite_none_right_eq_some] at hi
    have := h.pos_eq hi.2
    omega
  have hbehind : ∀ a ∈ log.drop n, n < pos a := by
    intro a ha
    have hpos := List.mem_map_of_mem (f := pos) ha
    rw [h.map_drop, List.mem_range'_1] at hpos
    omega
  nth_rewrite 1 [← List.take_append_drop n log]
  rw [List.filter_append, List.filter_eq_nil_iff.mpr, List.filter_eq_self.mpr, List.nil_append]
  · exact fun a ha => decide_eq_true (hbehind a ha)
  · exact fun a ha hlt => absurd (of_decide_eq_true hlt) (not_lt.mpr (hbefore a ha))

/-- A part of the log has every entry that it reaches. -/
theorem Numbered.mem_of_prefix {part : List α} {n : ℕ} (h : Numbered pos log) (hpart : part <+: log.drop n)
    (ha : a ∈ log) (hn : n < pos a) (hle : pos a ≤ n + part.length) : a ∈ part := by
  have hget : log[pos a - 1]? = some a := h.getElem?_of_mem ha (by omega)
  rw [List.prefix_iff_eq_take.mp hpart]
  refine List.mem_iff_getElem?.mpr ⟨pos a - 1 - n, ?_⟩
  rw [List.getElem?_take, if_pos (by omega), List.getElem?_drop, ← hget]
  congr 1
  omega

/-- A part of the log that goes on where another one ended. -/
theorem prefix_drop_append {part rest : List α} {n : ℕ} (hpart : part <+: log.drop n)
    (hrest : rest <+: log.drop (n + part.length)) : part ++ rest <+: log.drop n := by
  obtain ⟨behind, hbehind⟩ := hpart
  rw [← hbehind, List.prefix_append_right_inj]
  rwa [← List.drop_drop, ← hbehind, List.drop_left] at hrest

theorem take_of_grows {log log' : List α} (h : log <+: log') (hk : k ≤ log.length) : log'.take k = log.take k := by
  obtain ⟨rest, rfl⟩ := h
  rw [List.take_append_of_le_length hk]

end Aftercare.Relational
