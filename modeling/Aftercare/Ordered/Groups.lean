import Mathlib.Data.List.Induction
import Mathlib.Data.List.Nodup

/-!
# Grouping a list by a key

`groups key l` is the dictionary of lists that a loop builds with `setdefault(key, []).append(item)`, in
the order in which the keys came up. Each key stands in it once, with the items of that key in their
order (`groups_spec`).
-/

namespace Aftercare.Ordered

variable {κ β : Type} [DecidableEq κ]

theorem lookup_of_mem_entries {γ : Type} {dict : List (κ × γ)} (h : (dict.map Prod.fst).Nodup)
    {e : κ × γ} (he : e ∈ dict) : dict.lookup e.1 = some e.2 := by
  obtain ⟨before, after, rfl⟩ := List.append_of_mem he
  rw [List.map_append, List.nodup_append] at h
  refine List.lookup_eq_some_iff.mpr ⟨before, after, rfl, fun p hp => bne_iff_ne.mpr fun heq => ?_⟩
  exact h.2.2 p.1 (List.mem_map_of_mem hp) e.1 (by simp) heq.symm

theorem filter_flatMap_key (key : β → κ) {f : κ → List β} (hf : ∀ k, ∀ b ∈ f k, key b = k) {keys : List κ}
    (hkeys : keys.Nodup) {k : κ} (hk : k ∈ keys) : (keys.flatMap f).filter (fun b => key b = k) = f k := by
  induction keys with
  | nil => cases hk
  | cons k' keys ih =>
    rw [List.nodup_cons] at hkeys
    rw [List.flatMap_cons, List.filter_append]
    have hall : (f k').filter (fun b => key b = k) = if k' = k then f k' else [] := by
      split_ifs with heq
      · exact List.filter_eq_self.mpr fun b hb => decide_eq_true ((hf k' b hb).trans heq)
      · refine List.filter_eq_nil_iff.mpr fun b hb hkey => heq ?_
        exact (hf k' b hb).symm.trans (of_decide_eq_true hkey)
    rw [hall]
    rcases List.mem_cons.mp hk with rfl | hk
    · have hrest : (keys.flatMap f).filter (fun b => key b = k) = [] := by
        refine List.filter_eq_nil_iff.mpr fun b hb hkey => hkeys.1 ?_
        obtain ⟨k', hk', hb⟩ := List.mem_flatMap.mp hb
        rw [← of_decide_eq_true hkey, hf k' b hb]
        exact hk'
      rw [if_pos rfl, hrest, List.append_nil]
    · have hne : k' ≠ k := by
        rintro rfl
        exact hkeys.1 hk
      rw [if_neg hne, List.nil_append]
      exact ih hkeys.2 hk

/-- `dict.setdefault(k, []).append(b)`. -/
def appendTo (k : κ) (b : β) : List (κ × List β) → List (κ × List β)
  | [] => [(k, [b])]
  | (k', bs) :: rest => if k' = k then (k', bs ++ [b]) :: rest else (k', bs) :: appendTo k b rest

theorem keys_appendTo (k : κ) (b : β) (dict : List (κ × List β)) : (appendTo k b dict).map Prod.fst =
      if k ∈ dict.map Prod.fst then dict.map Prod.fst else dict.map Prod.fst ++ [k] := by
  induction dict with
  | nil => rfl
  | cons e rest ih =>
    unfold appendTo
    split_ifs with hk hmem hmem
    · rfl
    · exact absurd (List.mem_map.mpr ⟨e, List.mem_cons_self, hk⟩) hmem
    · have hrest : k ∈ rest.map Prod.fst := (List.mem_cons.mp hmem).resolve_left (Ne.symm hk)
      rw [List.map_cons, ih, if_pos hrest, List.map_cons]
    · have hrest : k ∉ rest.map Prod.fst := fun h => hmem (List.mem_cons_of_mem _ h)
      rw [List.map_cons, ih, if_neg hrest, List.map_cons, List.cons_append]

theorem nodup_appendTo {k : κ} {b : β} {dict : List (κ × List β)}
    (h : (dict.map Prod.fst).Nodup) : ((appendTo k b dict).map Prod.fst).Nodup := by
  rw [keys_appendTo]
  split_ifs with hk
  · exact h
  · exact List.nodup_append.mpr ⟨h, List.nodup_singleton k, by grind⟩

/-- The list of the key is longer, or new, and the others are as they were. -/
theorem mem_appendTo {k : κ} {b : β} {dict : List (κ × List β)} (h : (dict.map Prod.fst).Nodup) {e : κ × List β}
    (he : e ∈ appendTo k b dict) : (e.1 ≠ k ∧ e ∈ dict) ∨ (e.1 = k ∧ ∃ bs, e.2 = bs ++ [b] ∧
        ((k, bs) ∈ dict ∨ (bs = [] ∧ k ∉ dict.map Prod.fst))) := by
  induction dict with
  | nil =>
    rw [appendTo, List.mem_singleton] at he
    subst he
    exact .inr ⟨rfl, [], rfl, .inr ⟨rfl, by simp⟩⟩
  | cons d rest ih =>
    obtain ⟨k', bs⟩ := d
    rw [List.map_cons, List.nodup_cons] at h
    unfold appendTo at he
    split_ifs at he with hk
    · subst hk
      rcases List.mem_cons.mp he with rfl | he
      · exact .inr ⟨rfl, bs, rfl, .inl List.mem_cons_self⟩
      · refine .inl ⟨fun hkey => h.1 ?_, List.mem_cons_of_mem _ he⟩
        exact List.mem_map.mpr ⟨e, he, hkey⟩
    · rcases List.mem_cons.mp he with rfl | he
      · exact .inl ⟨hk, List.mem_cons_self⟩
      · rcases ih h.2 he with ⟨hne, he⟩ | ⟨heq, bs', hbs, hold⟩
        · exact .inl ⟨hne, List.mem_cons_of_mem _ he⟩
        · refine .inr ⟨heq, bs', hbs, hold.imp (List.mem_cons_of_mem _) fun hnew => ?_⟩
          refine ⟨hnew.1, fun hmem => hnew.2 ?_⟩
          exact (List.mem_cons.mp hmem).resolve_left (Ne.symm hk)

def groups (key : β → κ) (l : List β) : List (κ × List β) :=
  l.foldl (fun dict b => appendTo (key b) b dict) []

theorem groups_concat (key : β → κ) (l : List β) (b : β) :
    groups key (l ++ [b]) = appendTo (key b) b (groups key l) := by
  simp [groups]

theorem groups_spec (key : β → κ) (l : List β) : ((groups key l).map Prod.fst).Nodup ∧
      (∀ e ∈ groups key l, e.2 = l.filter (fun b => key b = e.1) ∧ e.2 ≠ []) ∧
      ∀ b ∈ l, key b ∈ (groups key l).map Prod.fst := by
  induction l using List.reverseRecOn with
  | nil => simp [groups]
  | append_singleton l b ih =>
    obtain ⟨hnodup, hgroups, hkeys⟩ := ih
    rw [groups_concat]
    refine ⟨nodup_appendTo hnodup, ?_, ?_⟩
    · intro e he
      rw [List.filter_append]
      rcases mem_appendTo hnodup he with ⟨hne, he⟩ | ⟨heq, bs, hbs, hold⟩
      · obtain ⟨hfilter, hne'⟩ := hgroups e he
        have hb : [b].filter (fun b => key b = e.1) = [] := by simp [Ne.symm hne]
        rw [hb, List.append_nil]
        exact ⟨hfilter, hne'⟩
      · have hb : [b].filter (fun b' => key b' = e.1) = [b] := by simp [heq]
        have hitems : bs = l.filter fun b' => key b' = e.1 := by
          rcases hold with hmem | ⟨rfl, hnew⟩
          · rw [heq]
            exact (hgroups _ hmem).1
          · refine (List.filter_eq_nil_iff.mpr fun b' hb' hkey => hnew ?_).symm
            rw [← heq, ← of_decide_eq_true hkey]
            exact hkeys b' hb'
        rw [hb, hbs, hitems]
        exact ⟨rfl, by simp⟩
    · intro b' hb'
      rw [keys_appendTo]
      rcases List.mem_append.mp hb' with hb' | hb'
      · have hkey := hkeys b' hb'
        split_ifs
        · exact hkey
        · exact List.mem_append_left _ hkey
      · rw [List.mem_singleton.mp hb']
        split_ifs with hkey
        · exact hkey
        · exact List.mem_append_right _ (List.mem_singleton_self _)

end Aftercare.Ordered
