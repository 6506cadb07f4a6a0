import Mathlib.Logic.Relation

/-!
# Runs

The run of a machine over a list of inputs, its rules of invariance, and the resource rule: what
every input spends from a budget, the whole run spends from it.
-/

set_option autoImplicit false

namespace Halquen.Library.Run

variable {σ ι : Type} (step : σ → ι → σ)

/-- State reached after all inputs, in order. -/
def run (s : σ) (inputs : List ι) : σ := inputs.foldl step s

variable {step}

@[simp]
theorem run_nil (s : σ) : run step s [] = s := rfl

@[simp]
theorem run_cons (s : σ) (i : ι) (inputs : List ι) :
    run step s (i :: inputs) = run step (step s i) inputs := rfl

/-- A run may be cut anywhere. -/
theorem run_append (s : σ) (before after : List ι) :
    run step s (before ++ after) = run step (run step s before) after := List.foldl_append

/-- An invariant of the steps holds after the run. -/
theorem run_invariant {I : σ → Prop} (hstep : ∀ s i, I s → I (step s i)) {s : σ} (h : I s)
    (inputs : List ι) : I (run step s inputs) := by
  induction inputs generalizing s with
  | nil => exact h
  | cons i inputs ih => exact ih (hstep s i h)

/-- As `run_invariant`, with a condition that every input of the run meets. -/
theorem run_invariant_of {I : σ → Prop} {C : ι → Prop}
    (hstep : ∀ s i, C i → I s → I (step s i)) {s : σ} (h : I s) {inputs : List ι}
    (hinputs : ∀ i ∈ inputs, C i) : I (run step s inputs) := by
  induction inputs generalizing s with
  | nil => exact h
  | cons i inputs ih =>
      exact ih (hstep s i (hinputs i (by simp)) h) fun j hj =>
        hinputs j (List.mem_cons_of_mem i hj)

variable (step) in
/-- Every input of the run meets a condition in the state in which it is met. -/
def Along (C : σ → ι → Prop) : σ → List ι → Prop
  | _, [] => True
  | s, i :: inputs => C s i ∧ Along C (step s i) inputs

/-- As `run_invariant_of`, with a condition on each input in the state in which it is met. -/
theorem run_invariant_along {I : σ → Prop} {C : σ → ι → Prop}
    (hstep : ∀ s i, C s i → I s → I (step s i)) {s : σ} (h : I s) {inputs : List ι}
    (hinputs : Along step C s inputs) : I (run step s inputs) := by
  induction inputs generalizing s with
  | nil => exact h
  | cons i inputs ih => exact ih (hstep s i hinputs.1 h) hinputs.2

/-- Where a step keeps a property exactly under a condition, the property holds in every state of
a run exactly if every input meets the condition. -/
theorem holds_throughout_iff {I J : σ → Prop} {C : σ → ι → Prop}
    (hinv : ∀ s i, J s → J (step s i)) (hstep : ∀ s i, J s → I s → (I (step s i) ↔ C s i)) {s : σ}
    (hJ : J s) (hI : I s) (inputs : List ι) :
    (∀ before after, inputs = before ++ after → I (run step s before)) ↔
      Along step C s inputs := by
  induction inputs generalizing s with
  | nil =>
      refine iff_of_true (fun before after heq => ?_) trivial
      obtain ⟨rfl, -⟩ := List.append_eq_nil_iff.mp heq.symm
      exact hI
  | cons i inputs ih =>
      constructor
      · intro h
        have hnext : I (step s i) := h [i] inputs rfl
        refine ⟨(hstep s i hJ hI).mp hnext, (ih (hinv s i hJ) hnext).mp ?_⟩
        intro before after heq
        exact h (i :: before) after (congrArg (i :: ·) heq)
      · rintro ⟨hi, hrest⟩ before after heq
        have hnext : I (step s i) := (hstep s i hJ hI).mpr hi
        cases before with
        | nil => exact hI
        | cons j before =>
            obtain ⟨rfl, hinputs⟩ := List.cons.inj heq
            exact (ih (hinv s i hJ) hnext).mpr hrest before after hinputs

/-- A preorder that every step respects relates the ends of the run. -/
theorem run_related {R : σ → σ → Prop} [IsPreorder σ R] (hstep : ∀ s i, R s (step s i)) (s : σ)
    (inputs : List ι) : R s (run step s inputs) := by
  induction inputs generalizing s with
  | nil => exact refl_of R s
  | cons i inputs ih => exact trans_of R (hstep s i) (ih (step s i))

/-- Where an input logs one entry at most, every entry was logged by one of the inputs. -/
theorem exists_logged {α : Type} {log : σ → List α}
    (hstep : ∀ s i, log (step s i) = log s ∨ ∃ a, log (step s i) = log s ++ [a]) {s : σ} {a : α}
    (hs : a ∉ log s) {inputs : List ι} (ha : a ∈ log (run step s inputs)) :
    ∃ before i after, inputs = before ++ i :: after ∧
      log (step (run step s before) i) = log (run step s before) ++ [a] := by
  induction inputs generalizing s with
  | nil => exact absurd ha hs
  | cons i inputs ih =>
      by_cases hnext : a ∈ log (step s i)
      · rcases hstep s i with hsame | ⟨b, hlogged⟩
        · exact absurd (hsame ▸ hnext) hs
        · rw [hlogged, List.mem_append, List.mem_singleton] at hnext
          obtain rfl := hnext.resolve_left hs
          exact ⟨[], i, inputs, rfl, hlogged⟩
      · obtain ⟨before, j, after, rfl, hlogged⟩ := ih hnext ha
        exact ⟨i :: before, j, after, rfl, hlogged⟩

variable (step) in
/-- Sum of what the inputs of a run spend, each in the state in which it is met. -/
def spent (cost : σ → ι → Nat) (s : σ) : List ι → Nat
  | [] => 0
  | i :: inputs => cost s i + spent cost (step s i) inputs

/-- Resource rule: an input that spends at most what the potential loses keeps the whole run within
the potential that it started with. -/
theorem spent_le_potential {I : σ → Prop} {C : ι → Prop} {potential : σ → Nat} {cost : σ → ι → Nat}
    (hinv : ∀ s i, C i → I s → I (step s i))
    (hstep : ∀ s i, C i → I s → cost s i + potential (step s i) ≤ potential s) {s : σ} (h : I s)
    {inputs : List ι} (hinputs : ∀ i ∈ inputs, C i) :
    spent step cost s inputs ≤ potential s := by
  induction inputs generalizing s with
  | nil => exact Nat.zero_le _
  | cons i inputs ih =>
      have hi := hinputs i (by simp)
      have hfirst := hstep s i hi h
      have hrest := ih (hinv s i hi h) fun j hj => hinputs j (List.mem_cons_of_mem i hj)
      simp only [spent]
      omega

end Halquen.Library.Run
