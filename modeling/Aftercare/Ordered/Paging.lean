import Mathlib.Data.List.Sort

/-!
# Paging by a keyset cursor

Rows are read page by page, from the largest key down. A page holds the rows below the cursor, and the cursor
of the next page is the key of its last row. Where the keys differ, the pages together are all rows in order,
and each row comes once (`follow_eq`); a page that is full may be the last one, and an empty page follows.
-/

namespace Aftercare.Ordered

variable {α κ : Type} [LinearOrder κ] (key : α → κ)

def descending (rows : List α) : List α := rows.insertionSort fun a b => key b ≤ key a

/-- The rows below the cursor, if there is one. -/
def below (after : Option κ) (rows : List α) : List α := rows.filter fun r => after.all fun k => decide (key r < k)

def page (rows : List α) (limit : ℕ) (after : Option κ) : List α :=
  (descending key (below key after rows)).take limit

/-- The rows of the pages, as long as there is a cursor. -/
def follow (list : Option κ → List α) (limit : ℕ) : ℕ → Option κ → Option (List α)
  | 0, _ => none
  | fuel + 1, after =>
    let rows := list after
    match if rows.length = limit then rows.getLast? else none with
    | none => some rows
    | some last => (follow list limit fuel (some (key last))).map (rows ++ ·)

theorem perm_descending (rows : List α) : (descending key rows).Perm rows := List.perm_insertionSort _ _

variable {key} {rows rows' : List α} {limit : ℕ} {after : Option κ}

theorem pairwise_descending (hkeys : (rows.map key).Nodup) :
    (descending key rows).Pairwise fun a b => key b < key a := by
  have hne : (descending key rows).Pairwise fun a b => key a ≠ key b :=
    List.pairwise_map.mp (((perm_descending key rows).map key).nodup_iff.mpr hkeys)
  have hle := List.pairwise_insertionSort (fun a b : α => key b ≤ key a) rows
  exact (hle.and hne).imp fun h => lt_of_le_of_ne h.1 h.2.symm

/-- A list in strict order that has the same rows is the sorted one. -/
theorem eq_descending (hperm : rows'.Perm rows) (h : rows'.Pairwise fun a b => key b < key a) :
    rows' = descending key rows := by
  have hkeys : (rows.map key).Nodup := (hperm.map key).nodup_iff.mp (List.pairwise_map.mpr (h.imp fun hlt => hlt.ne'))
  exact (hperm.trans (perm_descending key rows).symm).eq_of_pairwise (fun a b _ _ hab hba => absurd hab hba.asymm) h
    (pairwise_descending hkeys)

/-- **Behind the last row of a page** come exactly the rows below its key. -/
theorem drop_descending {last : α} (hkeys : (rows.map key).Nodup)
    (hlast : (page key rows limit after).getLast? = some last) :
    (descending key (below key after rows)).drop limit = descending key (below key (some (key last)) rows) := by
  have hsublist : (below key after rows).Sublist rows := List.filter_sublist
  have hsorted := pairwise_descending (hkeys.sublist (hsublist.map key))
  obtain ⟨front, hfront⟩ := List.getLast?_eq_some_iff.mp hlast
  have hsplit := List.take_append_drop limit (descending key (below key after rows))
  generalize (descending key (below key after rows)).drop limit = rest at hsplit
  rw [← page, hfront, List.append_assoc, List.singleton_append] at hsplit
  have hmem : last ∈ descending key (below key after rows) := by
    rw [← hsplit]
    simp
  rw [(perm_descending key _).mem_iff] at hmem
  rw [← hsplit, List.pairwise_append, List.pairwise_cons] at hsorted
  obtain ⟨-, ⟨hbehind, hrest⟩, hbefore⟩ := hsorted
  refine eq_descending ?_ hrest
  -- the rows below the last one, of all rows and of those that the page was taken from
  have hbelow : below key (some (key last)) (below key after rows) = below key (some (key last)) rows := by
    rw [below, below, below, List.filter_filter]
    refine List.filter_congr fun r _ => ?_
    rw [below, List.mem_filter] at hmem
    cases after with
    | none => simp
    | some k =>
      have hlt : key last < k := by simpa using hmem.2
      simp only [Option.all_some, Bool.and_eq_left_iff_imp, decide_eq_true_eq]
      exact fun h => h.trans hlt
  have hperm := (perm_descending key (below key after rows)).filter
    fun r => (some (key last)).all fun k => decide (key r < k)
  rw [← below, ← below, hbelow, ← hsplit, below, List.filter_append, List.filter_cons_of_neg (by simp),
    List.filter_eq_nil_iff.mpr, List.filter_eq_self.mpr, List.nil_append] at hperm
  · exact hperm
  · exact fun r hr => by simpa using hbehind r hr
  · exact fun r hr => by simpa using (hbefore r hr last List.mem_cons_self).le

/-- **The pages together** are the rows below the cursor, in order. -/
theorem follow_eq (after : Option κ) (hkeys : (rows.map key).Nodup) (hlimit : 0 < limit) {fuel : ℕ}
    (hfuel : (below key after rows).length < fuel) :
    follow key (page key rows limit) limit fuel after = some (descending key (below key after rows)) := by
  induction fuel generalizing after with
  | zero => omega
  | succ fuel ih =>
    have hlength : (descending key (below key after rows)).length = (below key after rows).length :=
      (perm_descending key _).length_eq
    rw [follow]
    by_cases hfull : (page key rows limit after).length = limit
    · have hle : limit ≤ (below key after rows).length := by
        rw [← hlength, ← hfull, page, List.length_take]
        omega
      obtain ⟨last, hlast⟩ : ∃ last, (page key rows limit after).getLast? = some last := by
        rw [← Option.isSome_iff_exists, List.getLast?_isSome, ← List.length_pos_iff]
        omega
      have hrest := drop_descending hkeys hlast
      have hshorter : (below key (some (key last)) rows).length < fuel := by
        rw [← (perm_descending key _).length_eq, ← hrest, List.length_drop, hlength]
        omega
      simp only [hfull, if_true, hlast, ih _ hshorter, ← hrest, Option.map_some]
      rw [page, List.take_append_drop]
    · have hall : page key rows limit after = descending key (below key after rows) := by
        rw [page, List.length_take] at hfull
        exact List.take_of_length_le (by omega)
      simp only [if_neg hfull]
      rw [hall]

end Aftercare.Ordered
