import Aftercare.Domain.Events

/-!
# The sandbox provider

`FakeSandboxProvider` of `sandbox/fake.py`. An operation may change the provider and raise all the same; none
removes an allocation, so `sandbox-<n>` is named by its position. `Provider.Changes` says once what an operation
can do, and `create_frame_iff` when a creation that raises leaves the provider as it was.
-/

namespace Aftercare.Sandbox

open Relational

/-! ## The provider -/

inductive SandboxState
  | ready
  | running
  | destroyRequested
  | destroyed
deriving DecidableEq, Repr

structure SandboxSpec where
  image : Identifier
  (cpu_millis memory_mib max_artifact_bytes : ℕ)
  bounded : (1 ≤ cpu_millis ∧ cpu_millis ≤ 1000000) ∧ (1 ≤ memory_mib ∧ memory_mib ≤ 1048576) ∧
    1 ≤ max_artifact_bytes ∧ max_artifact_bytes ≤ 100000000
deriving DecidableEq

/-- `_MutableAllocation`; nothing has validated its key and owner. -/
structure Allocation where
  (request_key owner : String)
  fencing_token : ℤ
  state : SandboxState
  lease_until : Time
  spec : SandboxSpec
deriving DecidableEq

structure ArtifactRecord where
  allocation_id : ℕ
  name : Identifier
  sha256 : Sha256
  size_bytes : ℕ
deriving DecidableEq

/-- `FakeSandboxProvider`. -/
structure Provider where
  capacity : ℕ
  allocations : List Allocation
  requests : List (String × ℕ)
  artifacts : List ((ℕ × String) × ArtifactRecord)
deriving DecidableEq

def Provider.new (capacity : ℕ) : Provider := ⟨capacity, [], [], []⟩

def Allocation.active (a : Allocation) : Bool := a.state != .destroyed

/-- `_public`: an allocation that is handed out is validated. -/
def Allocation.public (a : Allocation) : Result Allocation := do
  let _ ← identifier "SandboxAllocation" a.request_key
  let _ ← identifier "SandboxAllocation" a.owner
  pure a

namespace Provider

def active (p : Provider) : ℕ := p.allocations.countP Allocation.active

def create (p : Provider) (now : Time) (request_key owner : String) (spec : SandboxSpec) (lease : ℤ) :
    Provider × Result (ℕ × Allocation) :=
  if request_key = "" ∨ owner = "" ∨ lease ≤ 0 then
    (p, .error (.contract .invalidInput "invalid sandbox allocation request"))
  else match p.requests.lookup request_key with
    | some id => (p, do
        -- The index names allocations that are there (`Provider.Sound`).
        let existing ← fetch p.allocations[id]? .assertion
        require (existing.spec = spec) (.contract .conflict "sandbox request key reused")
        require (existing.owner = owner)
          (.contract .conflict "sandbox request key owned by another worker")
        let existing ← existing.public
        pure (id, existing))
    | none =>
      if p.capacity ≤ p.active then (p, .error (.contract .rateLimited "sandbox capacity exhausted"))
      else match addDuration now lease with
        | .error failure => (p, .error failure)
        | .ok lease_until =>
          let item : Allocation := ⟨request_key, owner, 1, .ready, lease_until, spec⟩
          ({ p with
              allocations := p.allocations ++ [item]
              requests := (request_key, p.allocations.length) :: p.requests },
            do
              let item ← item.public
              pure (p.allocations.length, item))

def requireCurrent (p : Provider) (now : Time) (id : ℕ) (owner : String) (fencing_token : ℤ) :
    Result Allocation := do
  let lost := .contract .leaseLost "sandbox lease lost"
  let item ← fetch p.allocations[id]? lost
  require (item.owner = owner ∧ item.fencing_token = fencing_token) lost
  require (now < item.lease_until ∨ item.state = .destroyed) (.contract .leaseLost "sandbox lease expired")
  pure item

/-- The end of an operation that changes one allocation. -/
def change (p : Provider) (id : ℕ) (item : Result Allocation) : Provider × Result (ℕ × Allocation) :=
  match item with
  | .error failure => (p, .error failure)
  | .ok item => ({ p with allocations := p.allocations.set id item }, do
      let item ← item.public
      pure (id, item))

def renew (p : Provider) (now : Time) (id : ℕ) (owner : String) (fencing_token lease : ℤ) :
    Provider × Result (ℕ × Allocation) :=
  p.change id do
    require (0 < lease) (.contract .invalidInput "sandbox lease must be positive")
    let item ← p.requireCurrent now id owner fencing_token
    require (item.state ≠ .destroyRequested ∧ item.state ≠ .destroyed)
      (.contract .conflict "sandbox is not renewable")
    let lease_until ← addDuration now lease
    pure { item with lease_until := lease_until }

def start (p : Provider) (now : Time) (id : ℕ) (owner : String) (fencing_token : ℤ) :
    Provider × Result (ℕ × Allocation) :=
  p.change id do
    let item ← p.requireCurrent now id owner fencing_token
    require (item.state ≠ .destroyRequested) (.contract .conflict "sandbox is pending destroy")
    require (item.state ≠ .destroyed) (.contract .conflict "sandbox is destroyed")
    pure { item with state := .running }

def requestDestroy (p : Provider) (now : Time) (id : ℕ) (owner : String) (fencing_token : ℤ) :
    Provider × Result (ℕ × Allocation) :=
  p.change id do
    let item ← p.requireCurrent now id owner fencing_token
    pure (if item.state = .destroyed then item else { item with state := .destroyRequested })

def confirmDestroy (p : Provider) (id : ℕ) : Provider × Result (ℕ × Allocation) :=
  p.change id do
    let item ← fetch p.allocations[id]? (.contract .invalidInput "unknown sandbox allocation")
    require (item.state = .destroyed ∨ item.state = .destroyRequested)
      (.contract .conflict "sandbox destroy was not requested")
    pure { item with state := .destroyed }

/-- The record of an artifact, when its allocation may be written to. -/
def artifactRecord [Hashing] (p : Provider) (now : Time) (id : ℕ) (owner : String) (fencing_token : ℤ)
    (name content : String) : Result ArtifactRecord := do
  let item ← p.requireCurrent now id owner fencing_token
  require (item.state ≠ .destroyRequested ∧ item.state ≠ .destroyed)
    (.contract .conflict "sandbox is not writable")
  require (content.utf8ByteSize ≤ item.spec.max_artifact_bytes)
    (.contract .budgetExhausted "artifact size budget exceeded")
  require (name ≠ "") (.contract .invalidInput "artifact name is required")
  let name ← identifier "ArtifactRecord" name
  pure ⟨id, name, Hashing.sha256 content, content.utf8ByteSize⟩

/-- `put_artifact`, with the text of the content. -/
def putArtifact [Hashing] (p : Provider) (now : Time) (id : ℕ) (owner : String) (fencing_token : ℤ)
    (name content : String) : Provider × Result ArtifactRecord :=
  match p.artifactRecord now id owner fencing_token name content with
  | .error failure => (p, .error failure)
  | .ok record =>
    match p.artifacts.lookup (id, name) with
    | some previous => (p, do
        require (previous = record) (.contract .conflict "artifact name already has different content")
        pure previous)
    | none => ({ p with artifacts := ((id, name), record) :: p.artifacts }, .ok record)

/-- What `reconcile` makes of an allocation. -/
def expire (now : Time) (a : Allocation) : Allocation :=
  if (a.state = .ready ∨ a.state = .running) ∧ a.lease_until ≤ now then
    { a with state := .destroyRequested }
  else a

def reconcile (p : Provider) (now : Time) : Provider × Result (List Allocation) :=
  let allocations := p.allocations.map (expire now)
  ({ p with allocations := allocations }, allocations.mapM Allocation.public)

end Provider

/-! ## Runs -/

inductive SandboxCall
  | create (request_key owner : String) (spec : SandboxSpec) (lease : ℤ)
  | renew (id : ℕ) (owner : String) (fencing_token lease : ℤ)
  | start (id : ℕ) (owner : String) (fencing_token : ℤ)
  | requestDestroy (id : ℕ) (owner : String) (fencing_token : ℤ)
  | confirmDestroy (id : ℕ)
  | putArtifact (id : ℕ) (owner : String) (fencing_token : ℤ) (name content : String)
  | reconcile (time : Time)

/-- The lease that the operation presents. -/
def SandboxCall.lease : SandboxCall → Option (ℕ × String × ℤ)
  | renew id owner token _ | start id owner token | requestDestroy id owner token
  | putArtifact id owner token _ _ => some (id, owner, token)
  | _ => none

/-- The provider after an operation, whether it raised or not. -/
def Provider.step [Hashing] (p : Provider) (now : Time) : SandboxCall → Provider
  | .create key owner spec lease => (p.create now key owner spec lease).1
  | .renew id owner token lease => (p.renew now id owner token lease).1
  | .start id owner token => (p.start now id owner token).1
  | .requestDestroy id owner token => (p.requestDestroy now id owner token).1
  | .confirmDestroy id => (p.confirmDestroy id).1
  | .putArtifact id owner token name content => (p.putArtifact now id owner token name content).1
  | .reconcile time => (p.reconcile time).1

def Provider.run [Hashing] (p : Provider) (calls : List (Time × SandboxCall)) : Provider :=
  calls.foldl (fun p c => p.step c.1 c.2) p

structure Allocation.Becomes (a a' : Allocation) : Prop where
  request_key : a'.request_key = a.request_key
  owner : a'.owner = a.owner
  spec : a'.spec = a.spec
  final : a.state = .destroyed → a' = a
  requested : a'.state = .destroyed → a.state = .destroyed ∨ a.state = .destroyRequested

def Provider.Leased (p : Provider) (now : Time) (lease : ℕ × String × ℤ) : Prop :=
  ∃ a, p.allocations[lease.1]? = some a ∧ a.owner = lease.2.1 ∧ a.fencing_token = lease.2.2 ∧ now < a.lease_until

inductive Provider.Changes (p : Provider) (now : Time) (c : SandboxCall) : Provider → Prop
  | kept : p.Changes now c p
  | created (a : Allocation) (hlease : c.lease = none) (hactive : a.active = true)
      (hnew : p.requests.lookup a.request_key = none) (hroom : p.active < p.capacity) :
      p.Changes now c { p with
        allocations := p.allocations ++ [a], requests := (a.request_key, p.allocations.length) :: p.requests }
  | changed {id : ℕ} {a a' : Allocation} (hget : p.allocations[id]? = some a) (hbecomes : a.Becomes a')
      (hlease : ∀ lease, c.lease = some lease → p.Leased now lease ∨ a' = a) :
      p.Changes now c { p with allocations := p.allocations.set id a' }
  | stored {id : ℕ} {name : String} {record : ArtifactRecord} (hnew : p.artifacts.lookup (id, name) = none)
      (hlease : ∀ lease, c.lease = some lease → p.Leased now lease) :
      p.Changes now c { p with artifacts := ((id, name), record) :: p.artifacts }
  | reconciled (time : Time) (hlease : c.lease = none) :
      p.Changes now c { p with allocations := p.allocations.map (expire time) }

section

variable {p p' : Provider} {now : Time} {c : SandboxCall}

theorem Allocation.Becomes.refl (a : Allocation) : a.Becomes a := ⟨rfl, rfl, rfl, fun _ => rfl, .inl⟩

variable {a : Allocation} {id : ℕ}

theorem Provider.requireCurrent_eq_ok {owner : String} {token : ℤ} (h : p.requireCurrent now id owner token = .ok a) :
    p.allocations[id]? = some a ∧ (p.Leased now (id, owner, token) ∨ a.state = .destroyed) := by
  simp only [requireCurrent, bind_eq_ok, exists_unit, fetch_eq_ok, require_eq_ok, pure_eq_ok] at h
  obtain ⟨item, hget, ⟨howner, htoken⟩, hlease, rfl⟩ := h
  exact ⟨hget, hlease.imp_left fun hlease => ⟨item, hget, howner, htoken, hlease⟩⟩

theorem Provider.Changes.of_change {item : Result Allocation}
    (h : ∀ a', item = .ok a' → ∃ a, p.allocations[id]? = some a ∧ a.Becomes a' ∧ ∀ lease, c.lease = some lease →
      p.Leased now lease ∨ a' = a) :
    p.Changes now c (p.change id item).1 := by
  cases item with
  | error failure => exact .kept
  | ok a' =>
    obtain ⟨a, hget, hbecomes, hlease⟩ := h a' rfl
    exact .changed hget hbecomes hlease

theorem Provider.current_becomes {owner : String} {token : ℤ} {a' : Allocation}
    (h : p.requireCurrent now id owner token = .ok a) (hlease : c.lease = some (id, owner, token))
    (hbecomes : a.Becomes a') : ∃ a, p.allocations[id]? = some a ∧ a.Becomes a' ∧
      ∀ lease, c.lease = some lease → p.Leased now lease ∨ a' = a := by
  obtain ⟨hget, hleased⟩ := Provider.requireCurrent_eq_ok h
  refine ⟨a, hget, hbecomes, fun lease heq => ?_⟩
  rw [hlease, Option.some.injEq] at heq
  subst heq
  exact hleased.imp_right hbecomes.final

/-- **What an operation does.** -/
theorem Provider.step_changes [Hashing] (p : Provider) (now : Time) (c : SandboxCall) :
    p.Changes now c (p.step now c) := by
  cases c with
  | create key owner spec lease =>
    simp only [step, create]
    split
    · exact .kept
    split
    · exact .kept
    next hnew =>
    split
    · exact .kept
    next hfull =>
    split
    · exact .kept
    · exact .created _ rfl rfl hnew (not_le.mp hfull)
  | renew id owner token lease =>
    refine .of_change fun a' h => ?_
    simp only [bind_eq_ok, exists_unit, require_eq_ok, pure_eq_ok] at h
    obtain ⟨-, a, hcurrent, hlive, lease_until, -, rfl⟩ := h
    exact Provider.current_becomes hcurrent rfl ⟨rfl, rfl, rfl, fun h => absurd h hlive.2, .inl⟩
  | start id owner token =>
    refine .of_change fun a' h => ?_
    simp only [bind_eq_ok, exists_unit, require_eq_ok, pure_eq_ok] at h
    obtain ⟨a, hcurrent, -, hlive, rfl⟩ := h
    exact Provider.current_becomes hcurrent rfl ⟨rfl, rfl, rfl, fun h => absurd h hlive, fun h => by cases h⟩
  | requestDestroy id owner token =>
    refine .of_change fun a' h => ?_
    simp only [bind_eq_ok, pure_eq_ok] at h
    obtain ⟨a, hcurrent, rfl⟩ := h
    refine Provider.current_becomes hcurrent rfl ?_
    split_ifs with hdestroyed
    · exact .refl a
    · exact ⟨rfl, rfl, rfl, fun h => absurd h hdestroyed, fun h => by cases h⟩
  | confirmDestroy id =>
    refine .of_change fun a' h => ?_
    simp only [bind_eq_ok, exists_unit, fetch_eq_ok, require_eq_ok, pure_eq_ok] at h
    obtain ⟨a, hget, hstate, rfl⟩ := h
    refine ⟨a, hget, ⟨rfl, rfl, rfl, fun h => ?_, fun _ => hstate⟩, fun lease h => by cases h⟩
    rw [← h]
  | putArtifact id owner token name content =>
    simp only [step, putArtifact]
    split
    · exact .kept
    next record hrecord =>
    split
    · exact .kept
    next hnew =>
    refine .stored hnew fun lease heq => ?_
    simp only [artifactRecord, bind_eq_ok, exists_unit, require_eq_ok] at hrecord
    obtain ⟨a, hcurrent, hlive, -⟩ := hrecord
    cases heq
    exact (Provider.requireCurrent_eq_ok hcurrent).2.resolve_right hlive.2
  | reconcile time => exact .reconciled time rfl

/-- Keys, specs, owners, destroyed allocations and artifacts stay. -/
structure Provider.Keeps (p p' : Provider) : Prop where
  capacity : p'.capacity = p.capacity
  requests : ∀ key id, p.requests.lookup key = some id → p'.requests.lookup key = some id
  allocations : ∀ (id : ℕ) (a : Allocation), p.allocations[id]? = some a → ∃ a', p'.allocations[id]? = some a' ∧
    a'.request_key = a.request_key ∧ a'.owner = a.owner ∧ a'.spec = a.spec ∧ (a.state = .destroyed → a' = a)
  artifacts : ∀ name record, p.artifacts.lookup name = some record → p'.artifacts.lookup name = some record

/-- A key names an allocation that was created for it. -/
structure Provider.Sound (p : Provider) : Prop where
  active_le : p.active ≤ p.capacity
  requested : ∀ key id, p.requests.lookup key = some id → ∃ a, p.allocations[id]? = some a ∧ a.request_key = key

theorem Provider.Keeps.refl (p : Provider) : p.Keeps p :=
  ⟨rfl, fun _ _ h => h, fun _ a h => ⟨a, h, rfl, rfl, rfl, fun _ => rfl⟩, fun _ _ h => h⟩

theorem Provider.Keeps.trans {p'' : Provider} (h : p.Keeps p') (h' : p'.Keeps p'') : p.Keeps p'' := by
  refine ⟨h'.capacity.trans h.capacity, fun key id hkey => h'.requests key id (h.requests key id hkey),
    fun id a hget => ?_, fun name record hname => h'.artifacts name record (h.artifacts name record hname)⟩
  obtain ⟨a', hget', hkey, howner, hspec, hfinal⟩ := h.allocations id a hget
  obtain ⟨a'', hget'', hkey', howner', hspec', hfinal'⟩ := h'.allocations id a' hget'
  refine ⟨a'', hget'', hkey'.trans hkey, howner'.trans howner, hspec'.trans hspec, fun hstate => ?_⟩
  rw [← hfinal hstate]
  exact hfinal' (by rw [hfinal hstate, hstate])

theorem lookup_cons_of_new {α β : Type} [BEq α] [LawfulBEq α] {l : List (α × β)} {k k' : α} {v v' : β}
    (hnew : l.lookup k' = none) (h : l.lookup k = some v) : ((k', v') :: l).lookup k = some v := by
  rw [List.lookup_cons]
  split
  · next heq =>
    rw [← beq_iff_eq.mp heq, h] at hnew
    cases hnew
  · exact h

theorem Provider.expire_becomes (time : Time) (a : Allocation) : a.Becomes (expire time a) := by
  unfold expire
  split_ifs with h
  · refine ⟨rfl, rfl, rfl, fun hstate => ?_, fun h => by cases h⟩
    rcases h.1 with hlive | hlive
    all_goals
      rw [hstate] at hlive
      cases hlive
  · exact .refl a

theorem Provider.Changes.becomes (h : p.Changes now c p') (hget : p.allocations[id]? = some a) :
    ∃ a', p'.allocations[id]? = some a' ∧ a.Becomes a' := by
  cases h with
  | kept | stored => exact ⟨a, hget, .refl a⟩
  | created => exact ⟨a, (List.getElem?_append_left (List.getElem?_eq_some_iff.mp hget).1).trans hget, .refl a⟩
  | @changed other b b' hother hbecomes _ =>
    by_cases hsame : other = id
    · subst hsame
      rw [hget, Option.some.injEq] at hother
      subst hother
      exact ⟨b', List.getElem?_set_self (List.getElem?_eq_some_iff.mp hget).1, hbecomes⟩
    · exact ⟨a, (List.getElem?_set_ne hsame).trans hget, .refl a⟩
  | reconciled time _ =>
    refine ⟨expire time a, ?_, expire_becomes time a⟩
    rw [List.getElem?_map, hget, Option.map_some]

theorem Provider.Changes.keeps (h : p.Changes now c p') : p.Keeps p' := by
  have hallocations : ∀ (id : ℕ) (a : Allocation), p.allocations[id]? = some a →
      ∃ a', p'.allocations[id]? = some a' ∧ a'.request_key = a.request_key ∧ a'.owner = a.owner ∧
        a'.spec = a.spec ∧ (a.state = .destroyed → a' = a) := by
    intro id a hget
    obtain ⟨a', hget', hbecomes⟩ := h.becomes hget
    exact ⟨a', hget', hbecomes.request_key, hbecomes.owner, hbecomes.spec, hbecomes.final⟩
  cases h with
  | created a _ _ hnew _ => exact ⟨rfl, fun _ _ h => lookup_cons_of_new hnew h, hallocations, fun _ _ h => h⟩
  | stored hnew _ => exact ⟨rfl, fun _ _ h => h, hallocations, fun _ _ h => lookup_cons_of_new hnew h⟩
  | kept | changed | reconciled => exact ⟨rfl, fun _ _ h => h, hallocations, fun _ _ h => h⟩

theorem Provider.Changes.active_le (h : p.Changes now c p') (hle : p.active ≤ p.capacity) :
    p'.active ≤ p'.capacity := by
  cases h with
  | kept | stored => exact hle
  | created a _ hactive _ hroom =>
    simp only [active, List.countP_append, List.countP_singleton, hactive, if_true]
    exact hroom
  | @changed id a a' hget hbecomes _ =>
    obtain ⟨hlt, hget⟩ := List.getElem?_eq_some_iff.mp hget
    refine le_trans ?_ hle
    simp only [active, List.countP_set hlt, hget]
    by_cases hstate : a.state = .destroyed
    · rw [hbecomes.final hstate]
      have hnot : a.active = false := by simp [Allocation.active, hstate]
      simp [hnot]
    · have hactive : a.active = true := by simp [Allocation.active, hstate]
      have hpos : 0 < p.allocations.countP Allocation.active :=
        List.countP_pos_iff.mpr ⟨a, hget ▸ List.getElem_mem hlt, hactive⟩
      rw [hactive, if_pos rfl]
      split_ifs <;> omega
  | reconciled time _ =>
    refine le_trans ?_ hle
    simp only [active, List.countP_map]
    refine List.countP_mono_left fun a _ h => ?_
    by_cases hstate : a.state = .destroyed
    · simp [Function.comp, (expire_becomes time a).final hstate, Allocation.active, hstate] at h
    · simp [Allocation.active, hstate]

theorem Provider.Sound.step (hp : p.Sound) (h : p.Changes now c p') : p'.Sound := by
  refine ⟨h.active_le hp.active_le, fun key id hkey => ?_⟩
  by_cases hold : p.requests.lookup key = some id
  · obtain ⟨a, hget, hrequest⟩ := hp.requested key id hold
    obtain ⟨a', hget', hkept, -⟩ := h.keeps.allocations id a hget
    exact ⟨a', hget', hkept.trans hrequest⟩
  · -- only a creation adds a key, and it adds the allocation with it
    cases h with
    | created a _ _ _ _ =>
      rw [List.lookup_cons] at hkey
      split at hkey
      · next heq =>
        cases hkey
        exact ⟨a, List.getElem?_concat_length, (beq_iff_eq.mp heq).symm⟩
      · exact absurd hkey hold
    | kept | changed | stored | reconciled => exact absurd hkey hold

theorem Provider.run_keeps [Hashing] (hp : p.Sound) (calls : List (Time × SandboxCall)) :
    (p.run calls).Sound ∧ p.Keeps (p.run calls) := by
  induction calls generalizing p with
  | nil => exact ⟨hp, .refl p⟩
  | cons call calls ih =>
    have hstep := p.step_changes call.1 call.2
    obtain ⟨hsound, hkeeps⟩ := ih (hp.step hstep)
    exact ⟨hsound, hstep.keeps.trans hkeeps⟩

theorem Provider.sound_new (capacity : ℕ) : (Provider.new capacity).Sound := ⟨Nat.zero_le _, fun _ _ h => by cases h⟩

/-- **The lifecycle of sandboxes.** In every run the allocations fit the capacity, a key names the allocation that was
created for it for good, what is destroyed stays destroyed, and an operation with a stale lease changes nothing. -/
theorem sandbox_lifecycle [Hashing] (capacity : ℕ) (calls later : List (Time × SandboxCall)) (now : Time)
    (c : SandboxCall) : let p := (Provider.new capacity).run calls
    p.active ≤ capacity ∧
    (∀ key id, p.requests.lookup key = some id → ∃ a a', p.allocations[id]? = some a ∧ a.request_key = key ∧
      (p.run later).requests.lookup key = some id ∧ (p.run later).allocations[id]? = some a' ∧
      a'.spec = a.spec ∧ a'.owner = a.owner) ∧
    (∀ (id : ℕ) (a : Allocation), p.allocations[id]? = some a → a.state = .destroyed →
      (p.run later).allocations[id]? = some a) ∧
    (∀ (id : ℕ) (a a' : Allocation), p.allocations[id]? = some a → (p.step now c).allocations[id]? = some a' →
      a'.state = .destroyed → a.state = .destroyed ∨ a.state = .destroyRequested) ∧
    (∀ lease, c.lease = some lease → ¬p.Leased now lease → p.step now c = p) ∧
    ∀ name record, p.artifacts.lookup name = some record → (p.run later).artifacts.lookup name = some record := by
  intro p
  obtain ⟨hsound, hnew⟩ := Provider.run_keeps (Provider.sound_new capacity) calls
  obtain ⟨-, hlater⟩ := Provider.run_keeps hsound later
  refine ⟨hsound.active_le.trans_eq hnew.capacity, fun key id hkey => ?_, fun id a hget hstate => ?_,
    fun id a a' hget hget' hstate => ?_, fun lease hlease hlost => ?_, hlater.artifacts⟩
  · obtain ⟨a, hget, hrequest⟩ := hsound.requested key id hkey
    obtain ⟨a', hget', -, howner, hspec, -⟩ := hlater.allocations id a hget
    exact ⟨a, a', hget, hrequest, hlater.requests key id hkey, hget', hspec, howner⟩
  · obtain ⟨a', hget', -, -, -, hfinal⟩ := hlater.allocations id a hget
    rw [hget', hfinal hstate]
  · obtain ⟨b, hb, hbecomes⟩ := (p.step_changes now c).becomes hget
    rw [hget', Option.some.injEq] at hb
    exact hbecomes.requested (hb ▸ hstate)
  · generalize hstep : p.step now c = p'
    cases (hstep ▸ p.step_changes now c : p.Changes now c p') with
    | kept => rfl
    | created _ hnone | reconciled _ hnone =>
      rw [hlease] at hnone
      cases hnone
    | changed hget _ hheld =>
      obtain rfl := (hheld lease hlease).resolve_left hlost
      obtain ⟨hlt, hget⟩ := List.getElem?_eq_some_iff.mp hget
      rw [← hget, List.set_getElem_self]
    | stored _ hheld => exact absurd (hheld lease hlease) hlost

end

/-! ## Creations that raise -/

theorem Allocation.public_eq_ok {a b : Allocation} :
    a.public = .ok b ↔ (identifierValid a.request_key = true ∧ identifierValid a.owner = true) ∧ a = b := by
  have hvalid : ∀ text : String, (∃ i : Identifier, i.val = text) ↔ identifierValid text = true := by
    refine fun text => ⟨?_, fun h => ⟨⟨text, h⟩, rfl⟩⟩
    rintro ⟨i, rfl⟩
    exact i.valid
  simp only [Allocation.public, bind_eq_ok, identifier_eq_ok, pure_eq_ok, exists_and_right, hvalid, and_assoc]

/-- **Creations that raise.** A creation that raises leaves the provider as it was exactly when the key and the owner are
identifiers, or the creation does not get to the insertion. -/
theorem create_frame_iff (p : Provider) (now : Time) (request_key owner : String) (spec : SandboxSpec)
    (lease : ℤ) : ((∃ failure, (p.create now request_key owner spec lease).2 = .error failure) →
      (p.create now request_key owner spec lease).1 = p ∧
      ∀ time, (p.reconcile time).2.isOk = true →
        ((p.create now request_key owner spec lease).1.reconcile time).2.isOk = true) ↔
    (identifierValid request_key = true ∧ identifierValid owner = true) ∨
      (request_key = "" ∨ owner = "" ∨ lease ≤ 0) ∨ (p.requests.lookup request_key).isSome = true ∨
      p.capacity ≤ p.active ∨ (addDuration now lease).isOk = false := by
  unfold Provider.create
  split
  · next hinvalid => simp [hinvalid]
  next hinvalid =>
  split
  · next id hknown => simp [hknown]
  next hnew =>
  split
  · next hfull => simp [hfull]
  next hfull =>
  cases hlease : addDuration now lease with
  | error failure => simp [Except.isOk, Except.toBool]
  | ok lease_until =>
    have hok : (Except.ok lease_until : Result Time).isOk = true := rfl
    simp only [hinvalid, hnew, hfull, hok, Option.isSome_none, Bool.false_eq_true, Bool.true_eq_false, or_false]
    cases hpublic : Allocation.public ⟨request_key, owner, 1, .ready, lease_until, spec⟩ with
    | ok item =>
      have hvalid := (Allocation.public_eq_ok.mp hpublic).1
      refine iff_of_true ?_ hvalid
      rintro ⟨failure, hfailure⟩
      cases hfailure
    | error failure =>
      refine iff_of_false (fun h => ?_) fun hvalid => ?_
      · -- the allocation was inserted
        have hsame := congrArg (fun q : Provider => q.allocations.length) (h ⟨failure, rfl⟩).1
        simp at hsame
      · rw [Allocation.public_eq_ok.mpr ⟨hvalid, rfl⟩] at hpublic
        cases hpublic

/-- A key with a blank is inserted before it is refused. -/
theorem create_changes_on_failure :
    let spec : SandboxSpec := ⟨⟨"image-1", Eq.refl true⟩, 1, 1, 1, by decide⟩
    let p := (Provider.new 1).create 0 "a key" "owner-1" spec 1000000
    p.2.isOk = false ∧ p.1.allocations.length = 1 ∧ (p.1.reconcile 0).2.isOk = false ∧
      (p.1.create 0 "key-2" "owner-1" spec 1000000).2.isOk = false ∧
      ((Provider.new 1).create 0 "key-2" "owner-1" spec 1000000).2.isOk = true := by
  decide

end Aftercare.Sandbox
