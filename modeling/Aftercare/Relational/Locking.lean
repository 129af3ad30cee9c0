import Mathlib.Data.List.Pairwise
import Mathlib.Data.List.Perm.Basic

/-!
# Transactions that lock the parts they write

A transaction locks a part of the store with its first call on it and keeps the lock until it ends. The lock
remembers the store from before, and `restore` takes the part back to it. What is committed is what is left when
every open transaction is rolled back; only a commit changes it (`run_sound`).
-/

namespace Aftercare.Relational

variable {σ κ τ γ ε : Type}

/-- A locked part, and the store from before its first call. -/
structure Lock (σ κ τ : Type) where
  part : κ
  holder : τ
  before : σ

/-- A store with the calls of all transactions, and their locks. -/
structure Sessions (σ κ τ : Type) where
  store : σ
  locks : List (Lock σ κ τ)
  /-- A part is locked once. -/
  distinct : locks.Pairwise (·.part ≠ ·.part)

instance : Std.Symm fun l l' : Lock σ κ τ => l.part ≠ l'.part := ⟨fun _ _ h => h.symm⟩

inductive Op (γ : Type)
  | call (c : γ)
  | commit
  | rollback

def undo (restore : σ → κ → σ → σ) (locks : List (Lock σ κ τ)) (store : σ) : σ :=
  locks.foldr (fun l s => restore s l.part l.before) store

namespace Sessions

def start (store : σ) : Sessions σ κ τ := ⟨store, [], .nil⟩

section

variable (restore : σ → κ → σ → σ)

/-- What is left when every open transaction is rolled back. -/
def committed (s : Sessions σ κ τ) : σ := undo restore s.locks s.store

variable [DecidableEq κ] [DecidableEq τ]

def heldByOther (s : Sessions σ κ τ) (t : τ) (k : κ) : Bool :=
  s.locks.any fun l => l.part = k ∧ l.holder ≠ t

/-- A call wrote the part, and holds its lock from now on. -/
def perform (s : Sessions σ κ τ) (t : τ) (k : κ) (store' : σ) : Sessions σ κ τ :=
  if h : ∀ l ∈ s.locks, k ≠ l.part then ⟨store', ⟨k, t, s.store⟩ :: s.locks, .cons h s.distinct⟩
  else { s with store := store' }

def commit (s : Sessions σ κ τ) (t : τ) : Sessions σ κ τ :=
  ⟨s.store, s.locks.filter (·.holder ≠ t), s.distinct.filter _⟩

def rollback (s : Sessions σ κ τ) (t : τ) : Sessions σ κ τ :=
  ⟨undo restore (s.locks.filter (·.holder = t)) s.store, s.locks.filter (·.holder ≠ t), s.distinct.filter _⟩

/-- One operation; a call that has to wait does nothing yet. -/
def step (part : γ → κ) (call : γ → σ → Except ε σ) (waits : Sessions σ κ τ → τ → γ → Bool)
    (s : Sessions σ κ τ) : τ × Op γ → Sessions σ κ τ
  | (t, .call c) =>
    if s.heldByOther t (part c) || waits s t c then s
    else match call c s.store with
      | .ok store' => s.perform t (part c) store'
      | .error _ => s.rollback restore t
  | (t, .commit) => s.commit t
  | (t, .rollback) => s.rollback restore t

end

end Sessions

/-! ## What restoring has to do -/

section

variable {restore : σ → κ → σ → σ} {Within : κ → σ → σ → Prop} {Inv : σ → Prop}

/-- `Within k b s`: what the part had in `b` is still there in `s`. -/
structure Restores (restore : σ → κ → σ → σ) (Within : κ → σ → σ → Prop) (Inv : σ → Prop) : Prop where
  refl : ∀ {k s}, Within k s s
  self : ∀ {k s}, restore s k s = s
  inv : ∀ {k b s}, Inv s → Inv b → Within k b s → Inv (restore s k b)
  within : ∀ {k b k' b' s}, k ≠ k' → Within k' b' s → Within k' b' (restore s k b)
  comm : ∀ {k b k' b' s}, k ≠ k' → restore (restore s k b) k' b' = restore (restore s k' b') k b

structure Writes (restore : σ → κ → σ → σ) (Within : κ → σ → σ → Prop) (Inv : σ → Prop) (k : κ)
    (s s' : σ) : Prop where
  inv : Inv s'
  within : ∀ {k' b}, Within k' b s → Within k' b s'
  restored : ∀ {b}, Within k b s → restore s' k b = restore s k b

/-- The invariant holds now and held when each lock was taken. -/
structure Sound (Within : κ → σ → σ → Prop) (Inv : σ → Prop) (s : Sessions σ κ τ) : Prop where
  store : Inv s.store
  before : ∀ l ∈ s.locks, Inv l.before
  within : ∀ l ∈ s.locks, Within l.part l.before s.store

/-! ## Undoing -/

theorem undo_append (restore : σ → κ → σ → σ) (locks locks' : List (Lock σ κ τ)) (s : σ) :
    undo restore (locks ++ locks') s = undo restore locks (undo restore locks' s) :=
  List.foldr_append

variable (h : Restores restore Within Inv)
include h

theorem undo_perm {locks locks' : List (Lock σ κ τ)} {s : σ}
    (hperm : locks.Perm locks') (hdistinct : locks.Pairwise (·.part ≠ ·.part)) :
    undo restore locks s = undo restore locks' s := by
  induction hperm with
  | nil => rfl
  | cons l _ ih =>
    rw [undo, undo, List.foldr_cons, List.foldr_cons]
    exact congrArg (restore · l.part l.before) (ih hdistinct.of_cons)
  | swap l l' rest =>
    have hne : l'.part ≠ l.part := List.rel_of_pairwise_cons hdistinct List.mem_cons_self
    exact h.comm hne.symm
  | trans hfirst _ ih ih' =>
    rw [ih hdistinct, ih' ((hfirst.pairwise_iff fun h => h.symm).mp hdistinct)]

theorem undo_sound (locks : List (Lock σ κ τ)) {s : σ} (hs : Inv s)
    (hdistinct : locks.Pairwise (·.part ≠ ·.part)) (hbefore : ∀ l ∈ locks, Inv l.before)
    (hwithin : ∀ l ∈ locks, Within l.part l.before s) : Inv (undo restore locks s) ∧
      ∀ {k b}, (∀ l ∈ locks, l.part ≠ k) → Within k b s → Within k b (undo restore locks s) := by
  induction locks with
  | nil => exact ⟨hs, fun _ hb => hb⟩
  | cons l rest ih =>
    obtain ⟨hinv, hkept⟩ := ih hdistinct.of_cons (fun a ha => hbefore a (List.mem_cons_of_mem l ha))
      fun a ha => hwithin a (List.mem_cons_of_mem l ha)
    have hrest : ∀ a ∈ rest, a.part ≠ l.part := fun a ha => (List.rel_of_pairwise_cons hdistinct ha).symm
    have hl := hkept hrest (hwithin l List.mem_cons_self)
    refine ⟨h.inv hinv (hbefore l List.mem_cons_self) hl, fun hk hb => ?_⟩
    exact h.within (hk l List.mem_cons_self) (hkept (fun a ha => hk a (List.mem_cons_of_mem l ha)) hb)

theorem undo_rel {R : σ → σ → Prop} [Std.Refl R] [IsTrans σ R]
    (hrestore : ∀ {k b s}, Within k b s → R (restore s k b) s) (locks : List (Lock σ κ τ)) {s : σ} (hs : Inv s)
    (hdistinct : locks.Pairwise (·.part ≠ ·.part)) (hbefore : ∀ l ∈ locks, Inv l.before)
    (hwithin : ∀ l ∈ locks, Within l.part l.before s) : R (undo restore locks s) s := by
  induction locks with
  | nil => exact refl s
  | cons l rest ih =>
    have hbefore' : ∀ a ∈ rest, Inv a.before := fun a ha => hbefore a (List.mem_cons_of_mem l ha)
    have hwithin' : ∀ a ∈ rest, Within a.part a.before s := fun a ha => hwithin a (List.mem_cons_of_mem l ha)
    obtain ⟨-, hkept⟩ := undo_sound h rest hs hdistinct.of_cons hbefore' hwithin'
    have hrest : ∀ a ∈ rest, a.part ≠ l.part := fun a ha => (List.rel_of_pairwise_cons hdistinct ha).symm
    have hl := hrestore (hkept hrest (hwithin l List.mem_cons_self))
    exact IsTrans.trans _ _ _ hl (ih hdistinct.of_cons hbefore' hwithin')

theorem undo_congr {locks : List (Lock σ κ τ)} {l : Lock σ κ τ} {s s' : σ}
    (hdistinct : locks.Pairwise (·.part ≠ ·.part)) (hl : l ∈ locks)
    (hrestored : restore s' l.part l.before = restore s l.part l.before) :
    undo restore locks s' = undo restore locks s := by
  obtain ⟨front, back, rfl⟩ := List.append_of_mem hl
  have hperm : (front ++ l :: back).Perm ((front ++ back) ++ [l]) :=
    List.perm_middle.trans (List.perm_append_singleton l _).symm
  rw [undo_perm h hperm hdistinct, undo_perm h hperm hdistinct, undo_append restore (front ++ back),
    undo_append restore (front ++ back)]
  exact congrArg (undo restore (front ++ back)) hrestored

/-! ## Operations -/

variable {s : Sessions σ κ τ}

omit h in
theorem sound_start {store : σ} (h : Inv store) : Sound Within Inv (Sessions.start store : Sessions σ κ τ) where
  store := h
  before l hl := by cases hl
  within l hl := by cases hl

theorem Sound.committed (hs : Sound Within Inv s) : Inv (s.committed restore) :=
  (undo_sound h s.locks hs.store s.distinct hs.before hs.within).1

section

variable [DecidableEq τ]

omit h in
theorem Sound.commit (hs : Sound Within Inv s) (t : τ) : Sound Within Inv (s.commit t) :=
  ⟨hs.store, fun l hl => hs.before l (List.mem_of_mem_filter hl), fun l hl => hs.within l (List.mem_of_mem_filter hl)⟩

theorem Sound.rollback (hs : Sound Within Inv s) (t : τ) : Sound Within Inv (s.rollback restore t) := by
  obtain ⟨hinv, hkept⟩ := undo_sound h (s.locks.filter (·.holder = t)) hs.store
    (s.distinct.filter _) (fun l hl => hs.before l (List.mem_of_mem_filter hl))
    fun l hl => hs.within l (List.mem_of_mem_filter hl)
  refine ⟨hinv, fun l hl => hs.before l (List.mem_of_mem_filter hl), fun l hl => ?_⟩
  obtain ⟨hl, hother⟩ := List.mem_filter.mp hl
  refine hkept (fun a ha hsame => ?_) (hs.within l hl)
  -- two locks on one part are one lock, and it has one holder
  obtain ⟨ha, howner⟩ := List.mem_filter.mp ha
  have hne : a ≠ l := fun heq => by
    rw [heq] at howner
    exact absurd (of_decide_eq_true howner) (of_decide_eq_true hother)
  exact s.distinct.forall ha hl hne hsame

omit h in
theorem rollback_of_free {t : τ} (hfree : ∀ l ∈ s.locks, l.holder ≠ t) : s.rollback restore t = s := by
  have hown : s.locks.filter (·.holder = t) = [] := by simpa using hfree
  have hothers : s.locks.filter (·.holder ≠ t) = s.locks := by simpa using hfree
  unfold Sessions.rollback
  cases s
  rw [Sessions.mk.injEq]
  exact ⟨congrArg (fun locks => undo restore locks _) hown, hothers⟩

omit h in
theorem filter_holder_perm (t : τ) : (s.locks.filter (·.holder ≠ t) ++ s.locks.filter (·.holder = t)).Perm s.locks := by
  simpa using List.filter_append_perm (fun l : Lock σ κ τ => decide (l.holder ≠ t)) s.locks

theorem committed_rollback (t : τ) : (s.rollback restore t).committed restore = s.committed restore := by
  have hperm := filter_holder_perm (s := s) t
  rw [Sessions.committed, Sessions.committed, ← undo_perm h hperm
    ((hperm.pairwise_iff fun h => h.symm).mpr s.distinct), undo_append]
  rfl

/-- What a commit leads to, when restoring a part leads back. -/
theorem committed_commit {R : σ → σ → Prop} [Std.Refl R] [IsTrans σ R]
    (hrestore : ∀ {k b s}, Within k b s → R (restore s k b) s) (hs : Sound Within Inv s) (t : τ) :
    R (s.committed restore) ((s.commit t).committed restore) := by
  have hperm := List.perm_append_comm.trans (filter_holder_perm (s := s) t)
  have hdistinct := (hperm.pairwise_iff fun h => h.symm).mpr s.distinct
  rw [Sessions.committed, ← undo_perm h hperm hdistinct, undo_append]
  have hmine : ∀ l ∈ s.locks.filter (·.holder = t), l ∈ s.locks := fun l => List.mem_of_mem_filter
  have hothers : ∀ l ∈ s.locks.filter (·.holder ≠ t), l ∈ s.locks := fun l => List.mem_of_mem_filter
  obtain ⟨hinv, hkept⟩ := undo_sound h (s.locks.filter (·.holder ≠ t)) hs.store (s.distinct.filter _)
    (fun l hl => hs.before l (hothers l hl)) fun l hl => hs.within l (hothers l hl)
  refine undo_rel h hrestore _ hinv (s.distinct.filter _) (fun l hl => hs.before l (hmine l hl)) fun l hl => ?_
  refine hkept (fun a ha => ?_) (hs.within l (hmine l hl))
  exact ((List.pairwise_append.mp hdistinct).2.2 l hl a ha).symm

end

variable [DecidableEq κ] {k : κ} {store' : σ}

theorem Sound.perform (hs : Sound Within Inv s) (hwrites : Writes restore Within Inv k s.store store') (t : τ) :
    Sound Within Inv (s.perform t k store') := by
  unfold Sessions.perform
  split_ifs with hfree
  · refine ⟨hwrites.inv, fun l hl => ?_, fun l hl => ?_⟩
    · obtain rfl | hl := List.mem_cons.mp hl
      · exact hs.store
      · exact hs.before l hl
    · obtain rfl | hl := List.mem_cons.mp hl
      · exact hwrites.within h.refl
      · exact hwrites.within (hs.within l hl)
  · exact ⟨hwrites.inv, hs.before, fun l hl => hwrites.within (hs.within l hl)⟩

theorem committed_perform (hs : Sound Within Inv s) (hwrites : Writes restore Within Inv k s.store store') (t : τ) :
    (s.perform t k store').committed restore = s.committed restore := by
  unfold Sessions.perform
  split_ifs with hfree
  · have hdistinct : (⟨k, t, s.store⟩ :: s.locks).Pairwise (·.part ≠ ·.part) := .cons hfree s.distinct
    have hcongr := undo_congr h hdistinct List.mem_cons_self (hwrites.restored h.refl)
    have hperm : (⟨k, t, s.store⟩ :: s.locks).Perm (s.locks ++ [⟨k, t, s.store⟩]) :=
      (List.perm_append_singleton _ _).symm
    rw [Sessions.committed, hcongr, undo_perm h hperm hdistinct, undo_append]
    exact congrArg (undo restore s.locks) h.self
  · push Not at hfree
    obtain ⟨l, hl, rfl⟩ := hfree
    exact undo_congr h s.distinct hl (hwrites.restored (hs.within l hl))

variable [DecidableEq τ] {part : γ → κ} {call : γ → σ → Except ε σ} {waits : Sessions σ κ τ → τ → γ → Bool}

omit h in
theorem step_call (t : τ) (c : γ) : s.step restore part call waits (t, .call c) =
    if s.heldByOther t (part c) || waits s t c then s else match call c s.store with
      | .ok store' => s.perform t (part c) store'
      | .error _ => s.rollback restore t := rfl

variable (hcall : ∀ c s s', Inv s → call c s = .ok s' → Writes restore Within Inv (part c) s s')
  (hs : Sound Within Inv s)
include hcall hs

/-- **One operation** keeps the sessions sound. -/
theorem step_sound (op : τ × Op γ) : Sound Within Inv (s.step restore part call waits op) := by
  obtain ⟨t, _ | _ | _⟩ := op
  case call c =>
    rw [step_call]
    split_ifs
    · exact hs
    · cases hresult : call c s.store with
      | ok store' => exact hs.perform h (hcall c s.store store' hs.store hresult) t
      | error e => exact hs.rollback h t
  case commit => exact hs.commit t
  case rollback => exact hs.rollback h t

/-- **A whole schedule** keeps the sessions sound. -/
theorem run_sound (schedule : List (τ × Op γ)) :
    Sound Within Inv (schedule.foldl (Sessions.step restore part call waits) s) := by
  induction schedule generalizing s with
  | nil => exact hs
  | cons op rest ih => exact ih (step_sound h hcall hs op)

/-- **Only a commit changes what is committed.** -/
theorem committed_step (t : τ) (c : γ) :
    (s.step restore part call waits (t, .call c)).committed restore = s.committed restore := by
  rw [step_call]
  split_ifs
  · rfl
  · cases hresult : call c s.store with
    | ok store' => exact committed_perform h hs (hcall c s.store store' hs.store hresult) t
    | error e => exact committed_rollback h t

/-- **What is committed develops** along every schedule. -/
theorem committed_run {R : σ → σ → Prop} [Std.Refl R] [IsTrans σ R]
    (hrestore : ∀ {k b s}, Within k b s → R (restore s k b) s) (schedule : List (τ × Op γ)) :
    R (s.committed restore) ((schedule.foldl (Sessions.step restore part call waits) s).committed restore) := by
  induction schedule generalizing s with
  | nil => exact refl _
  | cons op rest ih =>
    refine IsTrans.trans _ _ _ ?_ (ih (step_sound h hcall hs op))
    obtain ⟨t, _ | _ | _⟩ := op
    case call c => rw [committed_step h hcall hs t c]; exact refl _
    case commit => exact committed_commit h hrestore hs t
    case rollback => exact committed_rollback (s := s) h t ▸ refl _

end

end Aftercare.Relational
