import Mathlib.Order.Monotone.Basic
import Aftercare.Relational.Outcome

/-!
# Histories of atomic transactions

An `Engine` executes calls on a state, each as one transaction with a clock that never runs backwards. `Runs` is the
set of histories, newest transaction first. `Runs.invariant` and `Runs.invariant_of` turn a fact about one call
into one about histories; `replay_runs` makes a list of calls a history.
-/

namespace Aftercare.Relational

/-! ## Clocks -/

section Clock

variable {T : Type} [Preorder T]

/-- The readings of one transaction, by statement; it commits at `stop`. -/
structure Clock (T : Type) [Preorder T] where
  read : ℕ → T
  stop : T
  mono : Monotone read
  le_stop : ∀ i, read i ≤ stop

/-- A clock that stands still during the transaction. -/
def Clock.still (t : T) : Clock T := ⟨fun _ => t, t, monotone_const, fun _ => le_rfl⟩

/-- The clock after its first `n` readings. -/
def Clock.drop (clk : Clock T) (n : ℕ) : Clock T where
  read i := clk.read (n + i)
  stop := clk.stop
  mono := fun _ _ h => clk.mono (Nat.add_le_add_left h n)
  le_stop i := clk.le_stop (n + i)

theorem Clock.start_le (clk : Clock T) (i : ℕ) : clk.read 0 ≤ clk.read i := clk.mono (Nat.zero_le i)

theorem Clock.start_le_stop (clk : Clock T) : clk.read 0 ≤ clk.stop := clk.le_stop 0

end Clock

/-! ## Transactions and histories -/

variable {σ κ ο ε T : Type} [Preorder T]

/-- The new state and the output, or the failure that rolls back. -/
abbrev Engine (σ T κ ο ε : Type) [Preorder T] := σ → Clock T → κ → Except ε (σ × ο)

/-- The state after a call: a failed call leaves the state as it was. -/
def committed (s : σ) (outcome : Except ε (σ × ο)) : σ :=
  match outcome with
  | .ok (s', _) => s'
  | .error _ => s

@[simp]
theorem committed_ok (s s' : σ) (o : ο) : committed s (.ok (s', o) : Except ε (σ × ο)) = s' := rfl

@[simp]
theorem committed_error (s : σ) (e : ε) : committed s (.error e : Except ε (σ × ο)) = s := rfl

structure Transaction (σ T κ ο ε : Type) [Preorder T] where
  before : σ
  clock : Clock T
  call : κ
  outcome : Except ε (σ × ο)

def Transaction.after (τ : Transaction σ T κ ο ε) : σ := committed τ.before τ.outcome

/-- The histories of `exec`, the newest transaction first. -/
inductive Runs (exec : Engine σ T κ ο ε) (s₀ : σ) (t₀ : T) :
    List (Transaction σ T κ ο ε) → σ → T → Prop
  | refl : Runs exec s₀ t₀ [] s₀ t₀
  | call {h : List (Transaction σ T κ ο ε)} {s : σ} {t : T} (clk : Clock T) (c : κ) :
      Runs exec s₀ t₀ h s t → t ≤ clk.read 0 →
      Runs exec s₀ t₀ (⟨s, clk, c, exec s clk c⟩ :: h) (committed s (exec s clk c)) clk.stop

variable {exec : Engine σ T κ ο ε} {s₀ s s' : σ} {t₀ t t' : T}
  {h h' : List (Transaction σ T κ ο ε)}

theorem Runs.trans (hr : Runs exec s₀ t₀ h s t) (hr' : Runs exec s t h' s' t') : Runs exec s₀ t₀ (h' ++ h) s' t' := by
  induction hr' with
  | refl => exact hr
  | call clk c _ hle ih => exact ih.call clk c hle

theorem Runs.le (hr : Runs exec s₀ t₀ h s t) : t₀ ≤ t := by
  induction hr with
  | refl => exact le_rfl
  | call clk c _ hle ih => exact ih.trans (hle.trans clk.start_le_stop)

/-- **The invariant rule.** A property that holds at the start, that time alone does not break, and that every call
meeting `C` keeps, holds at the end. -/
theorem Runs.invariant_of (C : σ → Clock T → κ → Prop) (P : σ → T → Prop) (later : ∀ {s t t'}, t ≤ t' → P s t → P s t')
    (step : ∀ {s clk c s' o}, P s (clk.read 0) → C s clk c → exec s clk c = .ok (s', o) → P s' clk.stop)
    (hr : Runs exec s₀ t₀ h s t) (hC : ∀ τ ∈ h, C τ.before τ.clock τ.call) (start : P s₀ t₀) : P s t := by
  induction hr with
  | refl => exact start
  | @call h s t clk c _ hle ih =>
    have hs : P s t := ih fun τ hτ => hC τ (List.mem_cons_of_mem _ hτ)
    have hread : P s (clk.read 0) := later hle hs
    have hc : C s clk c := hC _ List.mem_cons_self
    cases hexec : exec s clk c with
    | error e => exact later clk.start_le_stop hread
    | ok r => exact step hread hc hexec

theorem Runs.invariant (P : σ → T → Prop) (later : ∀ {s t t'}, t ≤ t' → P s t → P s t')
    (step : ∀ {s clk c s' o}, P s (clk.read 0) → exec s clk c = .ok (s', o) → P s' clk.stop)
    (hr : Runs exec s₀ t₀ h s t) (start : P s₀ t₀) : P s t :=
  hr.invariant_of (fun _ _ _ => True) P later (fun hs _ hexec => step hs hexec) (fun _ _ => trivial) start

variable {τ : Transaction σ T κ ο ε} {P : σ → Prop}

theorem Runs.before (hr : Runs exec s₀ t₀ h s t) (hτ : τ ∈ h) :
    ∃ h' t', Runs exec s₀ t₀ h' τ.before t' ∧ t' ≤ τ.clock.read 0 ∧ τ.outcome = exec τ.before τ.clock τ.call := by
  induction hr with
  | refl => cases hτ
  | @call h s t clk c hr hle ih =>
    rcases List.mem_cons.mp hτ with rfl | hτ
    · exact ⟨h, t, hr, hle, rfl⟩
    · exact ih hτ

theorem Runs.split {later earlier : List (Transaction σ T κ ο ε)} (hr : Runs exec s₀ t₀ (later ++ τ :: earlier) s t) :
    ∃ t', Runs exec s₀ t₀ earlier τ.before t' ∧ t' ≤ τ.clock.read 0 ∧ τ.outcome = exec τ.before τ.clock τ.call := by
  induction later generalizing s t with
  | nil =>
    cases hr with
    | call clk c hr hle => exact ⟨_, hr, hle, rfl⟩
  | cons τ' later ih =>
    cases hr with
    | call clk c hr hle => exact ih hr

theorem Runs.stable (stable : ∀ s clk c, P s → P (committed s (exec s clk c))) (hr : Runs exec s₀ t₀ h s t)
    (hτ : τ ∈ h) (hP : P τ.after) : P s := by
  induction hr with
  | refl => cases hτ
  | @call h s t clk c _ _ ih =>
    rcases List.mem_cons.mp hτ with rfl | hτ
    · exact hP
    · exact stable s clk c (ih hτ)

/-- What is true for good is true before each later transaction. -/
theorem Runs.stable_later (stable : ∀ s clk c, P s → P (committed s (exec s clk c)))
    {later earlier : List (Transaction σ T κ ο ε)} {τ' : Transaction σ T κ ο ε}
    (hr : Runs exec s₀ t₀ (later ++ τ :: earlier) s t) (hP : P τ.after) (hτ' : τ' ∈ later) : P τ'.before := by
  obtain ⟨after, before, rfl⟩ := List.append_of_mem hτ'
  rw [List.append_assoc, List.cons_append] at hr
  obtain ⟨t', hbefore, -⟩ := hr.split
  exact hbefore.stable stable (List.mem_append_right before List.mem_cons_self) hP

theorem Runs.becomes (hr : Runs exec s₀ t₀ h s t) (start : ¬P s₀) (hs : P s) : ∃ τ ∈ h, ¬P τ.before ∧ P τ.after := by
  induction hr with
  | refl => exact absurd hs start
  | @call h s t clk c _ _ ih =>
    by_cases hold : P s
    · obtain ⟨τ, hτ, hbecomes⟩ := ih hold
      exact ⟨τ, List.mem_cons_of_mem _ hτ, hbecomes⟩
    · exact ⟨_, List.mem_cons_self, hold, hs⟩

/-- **What comes true for good comes true once**, by exactly one transaction. -/
theorem Runs.becomes_once (stable : ∀ s clk c, P s → P (committed s (exec s clk c))) (hr : Runs exec s₀ t₀ h s t)
    (start : ¬P s₀) (hs : P s) :
    ∃ later τ earlier, h = later ++ τ :: earlier ∧ ¬P τ.before ∧ P τ.after ∧
      (∀ τ' ∈ earlier, ¬P τ'.after) ∧ ∀ τ' ∈ later, P τ'.before := by
  induction hr with
  | refl => exact absurd hs start
  | @call h s t clk c hr hle ih =>
    by_cases hold : P s
    · obtain ⟨later, τ, earlier, rfl, hbefore, hafter, hearlier, hlater⟩ := ih hold
      refine ⟨_ :: later, τ, earlier, rfl, hbefore, hafter, hearlier, ?_⟩
      exact List.forall_mem_cons.mpr ⟨hold, hlater⟩
    · exact ⟨[], _, h, rfl, hold, hs, fun τ' hτ' hP => hold (hr.stable stable hτ' hP), fun τ' hτ' => by cases hτ'⟩

/-! ## Concrete histories -/

/-- The state after a list of calls at the given times. -/
def replay (exec : Engine σ T κ ο ε) (s : σ) : List (T × κ) → σ
  | [] => s
  | (t, c) :: rest => replay exec (committed s (exec s (.still t) c)) rest

/-- The transactions of a list of calls, the newest first. -/
def trace (exec : Engine σ T κ ο ε) (s : σ) : List (T × κ) → List (Transaction σ T κ ο ε)
  | [] => []
  | (t, c) :: rest =>
    trace exec (committed s (exec s (.still t) c)) rest ++
      [⟨s, .still t, c, exec s (.still t) c⟩]

theorem forall_mem_trace_cons {P : Transaction σ T κ ο ε → Prop} (exec : Engine σ T κ ο ε) (s : σ) (t : T)
    (c : κ) (rest : List (T × κ)) : (∀ τ ∈ trace exec s ((t, c) :: rest), P τ) ↔
      P ⟨s, .still t, c, exec s (.still t) c⟩ ∧ ∀ τ ∈ trace exec (committed s (exec s (.still t) c)) rest, P τ := by
  rw [trace, List.forall_mem_append, List.forall_mem_singleton, and_comm]

theorem call_mem_of_mem_trace {exec : Engine σ T κ ο ε} {s : σ} {calls : List (T × κ)}
    (hτ : τ ∈ trace exec s calls) : τ.call ∈ calls.map Prod.snd := by
  induction calls generalizing s with
  | nil => cases hτ
  | cons call rest ih =>
    rw [trace, List.mem_append, List.mem_singleton] at hτ
    rw [List.map_cons, List.mem_cons]
    rcases hτ with hτ | rfl
    · exact .inr (ih hτ)
    · exact .inl rfl

def lastTime (t : T) : List (T × κ) → T
  | [] => t
  | (u, _) :: rest => lastTime u rest

theorem replay_runs (exec : Engine σ T κ ο ε) (calls : List (T × κ)) (s : σ) (t : T)
    (hle : (t :: calls.map Prod.fst).IsChain (· ≤ ·)) :
    Runs exec s t (trace exec s calls) (replay exec s calls) (lastTime t calls) := by
  induction calls generalizing s t with
  | nil => exact .refl
  | cons call rest ih =>
    obtain ⟨u, c⟩ := call
    rw [List.map_cons, List.isChain_cons_cons] at hle
    have hfirst : Runs exec s t [⟨s, .still u, c, exec s (.still u) c⟩]
        (committed s (exec s (.still u) c)) u := Runs.refl.call (.still u) c hle.1
    exact hfirst.trans (ih _ u hle.2)

end Aftercare.Relational
