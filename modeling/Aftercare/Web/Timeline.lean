import Mathlib.Data.List.Sort

/-!
# The timeline of the browser

`appendEvents` of `web/src/sse.ts` folds the delivered events of a Case into a timeline that keeps a limited
number of them. It looks for duplicates among the events that it has kept only, so an event that was dropped
before may come again: it then stands in front of all others and is dropped once more.
-/

namespace Aftercare.Web

structure CaseEvent where
  case_seq : ℕ
  event_type : String
  (recorded_at run_id reference_id : Option String)
deriving DecidableEq

def bySeq (events : List CaseEvent) : List CaseEvent :=
  events.insertionSort fun left right => left.case_seq ≤ right.case_seq

def appendEvent (events : List CaseEvent) (event : CaseEvent) (cap : ℕ) : List CaseEvent :=
  if events.any fun item => item.case_seq = event.case_seq then events
  else
    let next := bySeq (events ++ [event])
    if next.length > cap then next.drop (next.length - cap) else next

def appendEvents (events incoming : List CaseEvent) (cap : ℕ) : List CaseEvent :=
  incoming.foldl (fun next event => appendEvent next event cap) events

/-- The latest delivered events, and all of them unless it is full. -/
structure Latest (cap : ℕ) (delivered : CaseEvent → Prop) (events : List CaseEvent) : Prop where
  sorted : events.Pairwise (·.case_seq < ·.case_seq)
  kept : ∀ e ∈ events, delivered e
  length_le : events.length ≤ cap
  dropped : ∀ e, delivered e → e ∉ events → events.length = cap ∧ ∀ x ∈ events, e.case_seq < x.case_seq

variable {cap : ℕ} {delivered : CaseEvent → Prop} {events : List CaseEvent} {event : CaseEvent}

theorem perm_bySeq (events : List CaseEvent) : (bySeq events).Perm events := List.perm_insertionSort _ _

theorem pairwise_bySeq (hsorted : events.Pairwise (·.case_seq < ·.case_seq))
    (hfresh : ∀ e ∈ events, e.case_seq ≠ event.case_seq) :
    (bySeq (events ++ [event])).Pairwise (·.case_seq < ·.case_seq) := by
  have hle := List.pairwise_insertionSort (fun left right : CaseEvent => left.case_seq ≤ right.case_seq)
    (events ++ [event])
  have hne : (events ++ [event]).Pairwise (·.case_seq ≠ ·.case_seq) := by
    rw [List.pairwise_append]
    refine ⟨hsorted.imp fun h => h.ne, List.pairwise_singleton _ _, fun e he x hx => ?_⟩
    rw [List.mem_singleton.mp hx]
    exact hfresh e he
  have hne := ((perm_bySeq (events ++ [event])).pairwise_iff fun h => h.symm).mpr hne
  exact (hle.and hne).imp fun h => lt_of_le_of_ne h.1 h.2

/-- **One delivery.** -/
theorem Latest.append (hunique : ∀ e, delivered e → e.case_seq = event.case_seq → e = event)
    (h : Latest cap delivered events) :
    Latest cap (fun e => delivered e ∨ e = event) (appendEvent events event cap) := by
  unfold appendEvent
  by_cases hany : events.any (fun item => item.case_seq = event.case_seq) = true
  · obtain ⟨e, he, hseq⟩ := List.any_eq_true.mp hany
    have hmem : event ∈ events := hunique e (h.kept e he) (of_decide_eq_true hseq) ▸ he
    rw [if_pos hany]
    refine ⟨h.sorted, fun e he => .inl (h.kept e he), h.length_le, ?_⟩
    rintro e (hd | rfl) hnot
    · exact h.dropped e hd hnot
    · exact absurd hmem hnot
  · have hsorted := pairwise_bySeq h.sorted fun e he hseq => hany (List.any_eq_true.mpr ⟨e, he, decide_eq_true hseq⟩)
    have hperm := perm_bySeq (events ++ [event])
    rw [if_neg hany]
    generalize bySeq (events ++ [event]) = next at hsorted hperm
    have hmem : ∀ e, e ∈ next ↔ e ∈ events ∨ e = event := by
      intro e
      rw [hperm.mem_iff, List.mem_append, List.mem_singleton]
    have hlength : next.length = events.length + 1 := by
      rw [hperm.length_eq, List.length_append, List.length_singleton]
    have hkept : ∀ e ∈ next, delivered e ∨ e = event := fun e he => ((hmem e).mp he).imp_left (h.kept e)
    have hdropped : ∀ e, delivered e ∨ e = event → e ∉ next → delivered e ∧ e ∉ events := by
      intro e hd hnot
      rw [hmem, not_or] at hnot
      exact ⟨hd.resolve_right hnot.2, hnot.1⟩
    have hle := h.length_le
    simp only
    split_ifs with hlong
    · -- the timeline was full, and the first event of the new one is left out
      cases next with
      | nil => simp at hlength
      | cons first rest =>
        have hone : (first :: rest).length - cap = 1 := by omega
        rw [hone, List.drop_one, List.tail_cons]
        rw [List.pairwise_cons] at hsorted
        rw [List.length_cons] at hlength hlong
        refine ⟨hsorted.2, fun e he => hkept e (.tail _ he), by omega, fun e hd hnot => ⟨by omega, ?_⟩⟩
        intro x hx
        by_cases hfirst : e = first
        · rw [hfirst]
          exact hsorted.1 x hx
        · obtain ⟨hd, hnot⟩ := hdropped e hd (by simp [hfirst, hnot])
          have hbefore := (h.dropped e hd hnot).2
          rcases (hmem x).mp (.tail _ hx) with hx' | rfl
          · exact hbefore x hx'
          · -- the event is not the first one, which was in the timeline before
            have hfirst_mem : first ∈ events := ((hmem first).mp List.mem_cons_self).resolve_right
              fun heq => (heq ▸ hsorted.1 x hx).ne rfl
            exact (hbefore first hfirst_mem).trans (hsorted.1 x hx)
    · refine ⟨hsorted, hkept, by omega, fun e hd hnot => ?_⟩
      obtain ⟨hd, hnot⟩ := hdropped e hd hnot
      have hfull := (h.dropped e hd hnot).1
      omega

theorem Latest.appends (incoming : List CaseEvent) (h : Latest cap delivered events)
    (hunique : ∀ e e', (delivered e ∨ e ∈ incoming) → (delivered e' ∨ e' ∈ incoming) →
      e.case_seq = e'.case_seq → e = e') :
    Latest cap (fun e => delivered e ∨ e ∈ incoming) (appendEvents events incoming cap) := by
  induction incoming generalizing delivered events with
  | nil => simpa [appendEvents] using h
  | cons event incoming ih =>
    simp only [List.mem_cons, ← or_assoc] at hunique ⊢
    exact ih (h.append fun e hd hseq => hunique e event (.inl (.inl hd)) (.inl (.inr rfl)) hseq) hunique

/-- **The timeline.** Whatever batches the events of a Case come in, in any order and any number of times, the
timeline holds the latest of them. -/
theorem timeline_latest (cap : ℕ) (batches : List (List CaseEvent))
    (hunique : ∀ e ∈ batches.flatten, ∀ e' ∈ batches.flatten, e.case_seq = e'.case_seq → e = e') :
    Latest cap (· ∈ batches.flatten)
      (batches.foldl (fun events incoming => appendEvents events incoming cap) []) := by
  have hempty : Latest cap (fun _ => False) [] :=
    ⟨.nil, fun e he => by simp at he, Nat.zero_le cap, fun e he => he.elim⟩
  have hfold := hempty.appends batches.flatten fun e e' he he' =>
    hunique e (he.resolve_left id) e' (he'.resolve_left id)
  rw [appendEvents, List.foldl_flatten] at hfold
  simp only [false_or] at hfold
  exact hfold

/-- The first of three events comes again when it is dropped. -/
theorem dropped_event_stays_dropped :
    let event (n : ℕ) : CaseEvent := ⟨n, "run.ready", none, none, none⟩
    let batches := [[event 2, event 1], [event 3], [event 1]]
    Latest 2 (· ∈ batches.flatten) [event 2, event 3] :=
  timeline_latest 2 _ (by decide)

end Aftercare.Web
