import Mathlib.Data.Prod.Lex
import Aftercare.Ordered.Paging
import Aftercare.System.Requests

/-!
# The work queue

`list_cases` of `api/app.py` returns the Cases that an operator may open, a page at a time, with the cursor of
the next page if the page is full. `queue_visited` says that the pages together are the whole queue.
-/

namespace Aftercare

open Relational Ordered

structure CaseListEntry where
  (case_id order_id : Identifier)
  status : CaseStatus
  version : ℕ
  created_at : Time
  permissions : Option (List Identifier)
deriving DecidableEq

/-- What the entries are ordered by. -/
def CaseListEntry.key (entry : CaseListEntry) : ℤ ×ₗ String := toLex (entry.created_at, entry.case_id.val)

/-- The filters, and the two fields of the cursor. -/
structure CaseQuery where
  tenant_id : Identifier
  case_ids : Option (List Identifier)
  status : Option CaseStatus
  limit : ℕ
  after_created_at : Option Time
  after_case_id : Option Identifier

/-- The rows without the cursor and the limit; `visible` is what a Case is shown with. -/
def CaseQuery.rows (query : CaseQuery) (store : ApiStore) (created_at : CaseScope → Time)
    (visible : CaseScope → Option (Option (List Identifier))) : List CaseListEntry :=
  store.cases.rows.filterMap fun c =>
    if c.tenant_id = query.tenant_id ∧ query.case_ids.all (c.case_id ∈ ·) ∧ query.status.all (c.status = ·) then
      (visible c.toCaseScope).map fun permissions =>
        ⟨c.case_id, c.order_id, c.status, c.version, created_at c.toCaseScope, permissions⟩
    else none

/-- `_page`, and the statement with `_cursor_clause`. -/
def CaseQuery.run (query : CaseQuery) (store : ApiStore) (created_at : CaseScope → Time)
    (visible : CaseScope → Option (Option (List Identifier))) : Result (List CaseListEntry) := do
  require (1 ≤ query.limit ∧ query.limit ≤ 200)
    (.contract .invalidInput "limit must be an integer in [1, 200]")
  require (query.after_created_at.isNone = query.after_case_id.isNone)
    (.contract .invalidInput "cursor requires both fields")
  pure (page CaseListEntry.key (query.rows store created_at visible) query.limit
    (query.after_created_at.map fun t => toLex (t, (query.after_case_id.map (·.val)).getD "")))

/-- `list_for_tenant` shows every Case. -/
def visibleForTenant (_ : CaseScope) : Option (Option (List Identifier)) := some none

/-- `list_accessible`: the Cases that the subject may read. -/
def visibleTo (store : ApiStore) (now : Time) (subject_id : Identifier) (scope : CaseScope) :
    Option (Option (List Identifier)) :=
  ((store.grants.get (scope, subject_id)).filter fun g =>
    decide (Permission.caseRead ∈ g.permissions) && g.isActive now).map fun g => some g.permissions

structure CaseListResponse where
  cases : List CaseListEntry
  next_created_at : Option Time
  next_case_id : Option Identifier

/-- The query of `list_cases`: a synthetic principal browses its tenant. -/
def AuthContext.query (identity : AuthContext) (status : Option CaseStatus) (limit : ℕ)
    (after_created_at : Option Time) (after_case_id : Option Identifier) : CaseQuery :=
  ⟨identity.tenant_id, if identity.synthetic then none else identity.case_ids, status, limit, after_created_at,
    after_case_id⟩

/-- What `list_cases` shows to an identity. -/
def AuthContext.visible (identity : AuthContext) (store : ApiStore) (now : Time) :
    CaseScope → Option (Option (List Identifier)) :=
  if identity.synthetic then visibleForTenant else visibleTo store now identity.subject_id

def listCases (store : ApiStore) (created_at : CaseScope → Time) (now : Time) (identity : AuthContext)
    (status : Option CaseStatus) (limit : ℕ) (after_created_at : Option Time)
    (after_case_id : Option Identifier) : Result CaseListResponse := do
  identity.require Permission.caseRead
  let entries ← (identity.query status limit after_created_at after_case_id).run store created_at
    (identity.visible store now)
  let last := if entries.length = limit then entries.getLast? else none
  pure ⟨entries, last.map (·.created_at), last.map (·.case_id)⟩

/-- Follow the cursors of a list: the Cases of all pages. -/
def followCursor (list : Option Time → Option Identifier → Result CaseListResponse) :
    ℕ → Option Time → Option Identifier → Option (List CaseListEntry)
  | 0, _, _ => none
  | fuel + 1, after_created_at, after_case_id =>
    match list after_created_at after_case_id with
    | .error _ => none
    | .ok response =>
      match response.next_created_at, response.next_case_id with
      | some t, some case_id => (followCursor list fuel (some t) (some case_id)).map (response.cases ++ ·)
      | _, _ => some response.cases

variable {store : ApiStore} {created_at : CaseScope → Time} {identity : AuthContext}

theorem nodup_rows (query : CaseQuery) (visible : CaseScope → Option (Option (List Identifier))) :
    ((query.rows store created_at visible).map CaseListEntry.key).Nodup := by
  rw [List.nodup_iff_pairwise_ne, List.pairwise_map, CaseQuery.rows, List.pairwise_filterMap]
  refine store.cases.apart.imp fun {c c'} hapart e he e' he' hkey => hapart.1 ?_
  split_ifs at he he' with hc hc'
  obtain ⟨_, -, rfl⟩ := Option.map_eq_some_iff.mp he
  obtain ⟨_, -, rfl⟩ := Option.map_eq_some_iff.mp he'
  have hid : c.case_id = c'.case_id := Identifier.ext (Prod.mk.inj (toLex.injective hkey)).2
  exact congrArg₂ CaseScope.mk (hc.1.trans hc'.1.symm) hid

/-- A response is the page behind the entry of the cursor. -/
theorem listCases_page (now : Time) (status : Option CaseStatus) {limit : ℕ} (last : Option CaseListEntry)
    (hread : Permission.caseRead ∈ identity.permissions) (hlimit : 1 ≤ limit ∧ limit ≤ 200) :
    let rows := (identity.query status limit none none).rows store created_at (identity.visible store now)
    let entries := page CaseListEntry.key rows limit (last.map (·.key))
    let next := if entries.length = limit then entries.getLast? else none
    listCases store created_at now identity status limit (last.map (·.created_at)) (last.map (·.case_id)) =
      .ok ⟨entries, next.map (·.created_at), next.map (·.case_id)⟩ := by
  simp only [listCases, ok_iff, AuthContext.require_eq_ok, CaseQuery.run]
  refine ⟨hread, _, ⟨hlimit, ?_, ?_⟩, rfl⟩
  · cases last <;> rfl
  · cases last <;> rfl

/-- **The queue is visited.** Whoever may read Cases and follows the cursors of a queue that stays the same gets every
Case that the filters admit once, in order. -/
theorem queue_visited (store : ApiStore) (created_at : CaseScope → Time) (now : Time) (identity : AuthContext)
    (status : Option CaseStatus) (limit : ℕ) (hread : Permission.caseRead ∈ identity.permissions)
    (hlimit : 1 ≤ limit ∧ limit ≤ 200) :
    let rows := (identity.query status limit none none).rows store created_at (identity.visible store now)
    ∃ visited : List CaseListEntry, visited.Perm rows ∧ visited.Pairwise (fun a b => b.key < a.key) ∧
      ∀ fuel, rows.length < fuel →
        followCursor (listCases store created_at now identity status limit) fuel none none = some visited := by
  intro rows
  have hkeys : (rows.map CaseListEntry.key).Nodup := nodup_rows _ _
  have hfollow : ∀ (fuel : ℕ) (last : Option CaseListEntry),
      followCursor (listCases store created_at now identity status limit) fuel (last.map (·.created_at))
        (last.map (·.case_id)) = follow CaseListEntry.key (page CaseListEntry.key rows limit) limit fuel
          (last.map (·.key)) := by
    intro fuel
    induction fuel with
    | zero => exact fun _ => rfl
    | succ fuel ih =>
      intro last
      rw [followCursor, follow, listCases_page now status last hread hlimit]
      cases hnext : if (page CaseListEntry.key rows limit (last.map (·.key))).length = limit then
        (page CaseListEntry.key rows limit (last.map (·.key))).getLast? else none with
      | none => rfl
      | some next => exact congrArg (Option.map _) (ih (some next))
  refine ⟨descending CaseListEntry.key rows, perm_descending _ rows, pairwise_descending hkeys, ?_⟩
  intro fuel hfuel
  have hall : below CaseListEntry.key none rows = rows := List.filter_eq_self.mpr fun _ _ => rfl
  have hvisited := follow_eq none hkeys hlimit.1 (hall.symm ▸ hfuel)
  rw [hall] at hvisited
  exact (hfollow fuel none).trans hvisited

/-- Two Cases of one moment, on pages of one. -/
theorem full_pages_visited :
    let identity := { sampleIdentity firstSubject [Permission.caseRead] none with synthetic := true }
    ∃ visited, visited.length = 2 ∧ ∀ fuel, 2 < fuel →
      followCursor (listCases sampleStore (fun _ => 0) 1 identity none 1) fuel none none = some visited := by
  intro identity
  obtain ⟨visited, hperm, -, hvisited⟩ := queue_visited sampleStore (fun _ => 0) 1 identity none 1 (by decide)
    (by decide)
  have hrows : ((identity.query none 1 none none).rows sampleStore (fun _ => 0)
    (identity.visible sampleStore 1)).length = 2 := by decide
  exact ⟨visited, hperm.length_eq.trans hrows, fun fuel hfuel => hvisited fuel (hrows ▸ hfuel)⟩

end Aftercare
