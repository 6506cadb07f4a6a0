import Halquen.Library.Action
import Halquen.Library.Run

/-!
# Histories

A run of computations that may fail, together with the list of those that succeeded. `Last P log i
later` says that `i` is the last entry of the log with the property `P`, and what came after it;
a log has at most one such entry (`Last.unique`).
-/

set_option autoImplicit false

namespace Halquen.Library.History

open Halquen.Library.Action Halquen.Library.Action.Act Halquen.Library.Run

/-! ## Last entries -/

section Last

variable {ι : Type} {P : ι → Prop} {log later : List ι} {i j : ι}

/-- Last entry of the log with the property, and the entries after it. -/
def Last (P : ι → Prop) (log : List ι) (i : ι) (later : List ι) : Prop :=
  P i ∧ (∀ j ∈ later, ¬ P j) ∧ ∃ before, log = before ++ i :: later

/-- The newest entry is the last of its kind. -/
theorem last_concat (hi : P i) (log : List ι) : Last P (log ++ [i]) i [] :=
  ⟨hi, by simp, log, rfl⟩

/-- An entry of another kind comes later. -/
theorem Last.concat (h : Last P log i later) (hj : ¬ P j) :
    Last P (log ++ [j]) i (later ++ [j]) := by
  obtain ⟨hi, hlater, before, rfl⟩ := h
  refine ⟨hi, ?_, before, by simp⟩
  intro k hk
  rcases List.mem_append.mp hk with hold | hnew
  · exact hlater k hold
  · rw [List.mem_singleton.mp hnew]
    exact hj

/-- There is one last entry. -/
theorem Last.unique {i' : ι} {later' : List ι} (h : Last P log i later)
    (h' : Last P log i' later') : i = i' ∧ later = later' := by
  obtain ⟨hi, hlater, before, rfl⟩ := h
  obtain ⟨hi', hlater', before', heq⟩ := h'
  induction before generalizing before' with
  | nil =>
      cases before' with
      | nil => exact ⟨(List.cons.inj heq).1, (List.cons.inj heq).2⟩
      | cons k before' =>
          -- The other entry would come after the first one.
          obtain ⟨-, rfl⟩ := List.cons.inj heq
          exact absurd hi' (hlater i' (by simp))
  | cons k before ih =>
      cases before' with
      | nil =>
          obtain ⟨-, rfl⟩ := List.cons.inj heq
          exact absurd hi (hlater' i (by simp))
      | cons k' before' => exact ih before' (List.cons.inj heq).2

end Last

/-! ## Atomic computations -/

section Atomic

variable {σ ε α β : Type} {s s' : σ} {effect : σ → Prop}

/-- Outcome of a computation that fails and changes nothing, or has its effect. -/
def Atomic (s : σ) (effect : σ → Prop) (r : Except ε α) (s' : σ) : Prop :=
  (∃ e, r = .error e ∧ s' = s) ∨ ((∃ a, r = .ok a) ∧ effect s')

theorem atomic_error (e : ε) : Atomic (α := α) s effect (.error e) s := .inl ⟨e, rfl, rfl⟩

theorem atomic_ok (a : α) (h : effect s') : Atomic (ε := ε) s effect (.ok a) s' :=
  .inr ⟨⟨a, rfl⟩, h⟩

/-- A success has had its effect. -/
theorem Atomic.effect_of_ok {a : α} (h : Atomic (ε := ε) s effect (.ok a) s') : effect s' := by
  rcases h with ⟨e, he, -⟩ | ⟨-, heffect⟩
  · cases he
  · exact heffect

/-- A failure has had none. -/
theorem Atomic.unchanged_of_error {e : ε} (h : Atomic (α := α) s effect (.error e) s') :
    s' = s := by
  rcases h with ⟨-, -, hsame⟩ | ⟨⟨a, ha⟩, -⟩
  · exact hsame
  · cases ha

/-- What the state keeps under the effect, it keeps under the computation. -/
theorem Atomic.keeps {r : Except ε α} (h : Atomic s effect r s') {P : σ → Prop} (hs : P s)
    (heffect : effect s' → P s') : P s' := by
  rcases h with ⟨-, -, rfl⟩ | ⟨-, h⟩
  · exact hs
  · exact heffect h

/-- What is done with the result does not matter. -/
theorem post_atomic_map {m : Act σ ε α} (h : Post m s (Atomic s effect)) (f : α → β) :
    Post (do return f (← m)) s (Atomic s effect) := by
  apply Post.bind h
  · intro a s' hm
    exact atomic_ok (f a) hm.effect_of_ok
  · intro e s' hm
    rw [hm.unchanged_of_error]
    exact atomic_error e

/-- Outcome of a computation that fails and changes nothing, or ends with this value and state. -/
def Settled (s : σ) (Q : α → σ → Prop) : Except ε α → σ → Prop
  | .ok a, s' => Q a s'
  | .error _, s' => s' = s

end Atomic

/-! ## Logged runs -/

section Logged

variable {σ ε α ι : Type}

/-- A state, and the inputs that were accepted on the way to it. -/
structure Logged (σ ι : Type) where
  state : σ
  accepted : List ι

/-- One input. It is accepted if its computation succeeds. -/
def Logged.step (perform : ι → Act σ ε α) (s : Logged σ ι) (i : ι) : Logged σ ι :=
  match perform i s.state with
  | (.ok _, state) => ⟨state, s.accepted ++ [i]⟩
  | (.error _, state) => ⟨state, s.accepted⟩

/-- Rule of invariance: what an accepted input preserves with its entry in the log, and a failed
one without. -/
theorem logged_invariant {perform : ι → Act σ ε α} {I : σ → List ι → Prop}
    (hstep : ∀ s log i, I s log → Post (perform i) s fun r s' =>
      match r with | .ok _ => I s' (log ++ [i]) | .error _ => I s' log)
    {s : Logged σ ι} (h : I s.state s.accepted) (inputs : List ι) :
    I (run (Logged.step perform) s inputs).state (run (Logged.step perform) s inputs).accepted := by
  apply run_invariant (I := fun s : Logged σ ι => I s.state s.accepted) _ h
  intro s i hs
  have hpost := hstep s.state s.accepted i hs
  unfold Post at hpost
  unfold Logged.step
  cases hi : perform i s.state with
  | mk r s' =>
      rw [hi] at hpost
      cases r <;> exact hpost

end Logged

end Halquen.Library.History
