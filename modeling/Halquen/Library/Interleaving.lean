import Halquen.Library.Run
import Mathlib.Logic.Function.Basic

/-!
# Interleaved components

Components that share a state and take their steps one at a time, in any order. A step of a
component changes its own state and the shared one. What holds of every component is shown for one
component at a time: its own steps keep its condition, and the steps of the others, which do to the
shared state no more than they guarantee, do not disturb it (`run_compositional`). A component whose
potential falls with every step that changes anything takes a bounded number of such steps, whatever
the others do (`effective_le`).
-/

set_option autoImplicit false

namespace Halquen.Library.Interleaving

open Halquen.Library.Run

variable {ι κ σ ε : Type} [DecidableEq ι]

/-- The state of a family of components and of what they share. -/
structure Composite (ι κ σ : Type) where
  component : ι → κ
  shared : σ

/-- One step of one component. -/
def advance (move : ι → κ → σ → ε → κ × σ) (c : Composite ι κ σ) (e : ι × ε) : Composite ι κ σ where
  component := Function.update c.component e.1 (move e.1 (c.component e.1) c.shared e.2).1
  shared := (move e.1 (c.component e.1) c.shared e.2).2

section

variable (move : ι → κ → σ → ε → κ × σ) (c : Composite ι κ σ) (e : ι × ε)

/-- A move changes its own component. -/
theorem advance_self :
    (advance move c e).component e.1 = (move e.1 (c.component e.1) c.shared e.2).1 :=
  Function.update_self _ _ _

/-- A move leaves the other components. -/
theorem advance_of_ne {j : ι} (hj : e.1 ≠ j) : (advance move c e).component j = c.component j :=
  Function.update_of_ne (Ne.symm hj) _ _

/-- A move that changes nothing changes nothing of the whole. -/
theorem advance_of_still (h : move e.1 (c.component e.1) c.shared e.2 =
    (c.component e.1, c.shared)) : advance move c e = c := by
  unfold advance
  rw [h, Function.update_eq_self]

end

/-- The condition `J` of the shared state and the conditions `I` of the components are kept by the
events that `C` admits. `G` is what the steps of a component guarantee to the others. -/
structure Compositional (move : ι → κ → σ → ε → κ × σ) (C : ε → Prop) (J : σ → Prop)
    (I : ι → κ → σ → Prop) (G : ι → σ → σ → Prop) : Prop where
  shared : ∀ i k s e, C e → J s → I i k s → J (move i k s e).2
  own : ∀ i k s e, C e → J s → I i k s → I i (move i k s e).1 (move i k s e).2
  guarantee : ∀ i k s e, C e → J s → I i k s → G i s (move i k s e).2
  stable : ∀ i j k s s', i ≠ j → G i s s' → I j k s → I j k s'

section

variable {move : ι → κ → σ → ε → κ × σ} {C : ε → Prop} {J : σ → Prop} {I : ι → κ → σ → Prop}
  {G : ι → σ → σ → Prop}

/-- A move keeps the invariant of every component: its own by the step, the others' by what the step
guarantees. -/
theorem Compositional.step (h : Compositional move C J I G) {c : Composite ι κ σ} {e : ι × ε}
    (he : C e.2) (hc : J c.shared ∧ ∀ i, I i (c.component i) c.shared) :
    J (advance move c e).shared ∧
      ∀ i, I i ((advance move c e).component i) (advance move c e).shared := by
  obtain ⟨hshared, hcomponents⟩ := hc
  refine ⟨h.shared e.1 _ _ e.2 he hshared (hcomponents e.1), fun j => ?_⟩
  by_cases hj : e.1 = j
  · subst hj
    rw [advance_self]
    exact h.own e.1 _ _ e.2 he hshared (hcomponents e.1)
  · rw [advance_of_ne move c e hj]
    exact h.stable e.1 j _ _ _ hj (h.guarantee e.1 _ _ e.2 he hshared (hcomponents e.1))
      (hcomponents j)

/-- Rule of composition: what each component keeps for itself holds of all of them in every run. -/
theorem run_compositional (h : Compositional move C J I G) {c : Composite ι κ σ}
    (hshared : J c.shared) (hcomponents : ∀ i, I i (c.component i) c.shared)
    {events : List (ι × ε)} (hevents : ∀ e ∈ events, C e.2) :
    J (run (advance move) c events).shared ∧
      ∀ i, I i ((run (advance move) c events).component i) (run (advance move) c events).shared :=
  run_invariant_of (I := fun c : Composite ι κ σ =>
      J c.shared ∧ ∀ i, I i (c.component i) c.shared) (C := fun e => C e.2)
    (fun _ _ he hc => h.step he hc) ⟨hshared, hcomponents⟩ hevents

end

/-! ## Progress -/

open Classical in
/-- Number of the steps of a component in a run that change anything. -/
noncomputable def effective (move : ι → κ → σ → ε → κ × σ) (i : ι) (c : Composite ι κ σ)
    (events : List (ι × ε)) : Nat :=
  spent (advance move) (fun c e => if e.1 = i ∧ advance move c e ≠ c then 1 else 0) c events

/-- A potential bounds the steps of a component that change anything, in every run. -/
theorem effective_le {move : ι → κ → σ → ε → κ × σ} {potential : κ → Nat}
    (hmove : ∀ i k s e, move i k s e = (k, s) ∨ potential (move i k s e).1 < potential k) (i : ι)
    (c : Composite ι κ σ) (events : List (ι × ε)) :
    effective move i c events ≤ potential (c.component i) := by
  refine @spent_le_potential _ _ (advance move) (fun _ => True) (fun _ => True)
    (fun c => potential (c.component i)) _ (fun _ _ _ _ => trivial) ?_ _ trivial _
    (fun _ _ => trivial)
  intro c e _ _
  by_cases hi : e.1 = i
  · subst hi
    rcases hmove e.1 (c.component e.1) c.shared e.2 with hsame | hless
    · have hstill := advance_of_still move c e hsame
      refine Nat.le_of_eq ?_
      rw [if_neg (fun h => h.2 hstill), hstill, Nat.zero_add]
    · rw [advance_self]
      split <;> omega
  · refine Nat.le_of_eq ?_
    rw [if_neg (fun h => hi h.1), advance_of_ne move c e hi, Nat.zero_add]

end Halquen.Library.Interleaving
