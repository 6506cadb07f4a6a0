import Halquen.Library.Run
import Mathlib.Logic.Function.Basic

/-!
# Programs that share a state

Programs of atomic steps that run side by side on one state, in any order of their steps, while the
environment interferes as well. A program is correct (`Correct`) if each of its steps is one that it
has guaranteed to the others, and its postcondition holds where it ends, whatever the others do
between its steps that it relies on. Programs that rely on what the others guarantee stay correct in
every run (`parallel_correct`), and what every guarantee keeps holds throughout
(`parallel_invariant`).
-/

set_option autoImplicit false

namespace Halquen.Library.RelyGuarantee

open Halquen.Library.Run

/-- A program. A step depends on the state that it meets and on chance. -/
inductive Prog (σ χ α : Type) where
  | done (a : α)
  | atom (effect : χ → σ → σ) (next : χ → σ → Prog σ χ α)

section

variable {σ χ α β : Type}

/-- One program after another. -/
def Prog.bind : Prog σ χ α → (α → Prog σ χ β) → Prog σ χ β
  | .done a, f => f a
  | .atom effect next, f => .atom effect fun c s => (next c s).bind f

instance Prog.monad : Monad (Prog σ χ) where
  pure := .done
  bind := .bind

/-- One step with a result. -/
def call (act : χ → σ → β × σ) : Prog σ χ β :=
  .atom (fun c s => (act c s).2) fun c s => .done (act c s).1

/-! ## Correct programs -/

/-- The program relies on `R`, guarantees `G` and ends with `Q`. -/
def Correct (R G : σ → σ → Prop) (Q : α → σ → Prop) : Prog σ χ α → σ → Prop
  | .done a, s => ∀ s', R s s' → Q a s'
  | .atom effect next, s => ∀ s', R s s' → ∀ c,
      G s' (effect c s') ∧ Correct R G Q (next c s') (effect c s')

/-- An assertion that the others do not break. -/
def Stable (R : σ → σ → Prop) (P : σ → Prop) : Prop := ∀ s s', R s s' → P s → P s'

variable {R G : σ → σ → Prop} {P : σ → Prop} {Q Q' : α → σ → Prop} {s s' : σ}

/-- A correct program stays correct after interference. -/
theorem Correct.interfered [IsPreorder σ R] {p : Prog σ χ α} (h : Correct R G Q p s)
    (hR : R s s') : Correct R G Q p s' := by
  cases p with
  | done a => exact fun s'' hR' => h s'' (trans_of R hR hR')
  | atom effect next => exact fun s'' hR' => h s'' (trans_of R hR hR')

/-- A postcondition may be weakened. -/
theorem Correct.mono {p : Prog σ χ α} (h : Correct R G Q p s) (hQ : ∀ a s, Q a s → Q' a s) :
    Correct R G Q' p s := by
  induction p generalizing s with
  | done a => exact fun s' hR => hQ a s' (h s' hR)
  | atom effect next ih =>
      intro s' hR c
      obtain ⟨hG, hnext⟩ := h s' hR c
      exact ⟨hG, ih c s' hnext⟩

/-- Sequencing. -/
theorem Correct.bind [IsPreorder σ R] {T : β → σ → Prop} {p : Prog σ χ α}
    {f : α → Prog σ χ β} (h : Correct R G Q p s)
    (hf : ∀ a s, Q a s → Correct R G T (f a) s) : Correct R G T (p >>= f) s := by
  induction p generalizing s with
  | done a => exact hf a s (h s (refl_of R s))
  | atom effect next ih =>
      intro s' hR c
      obtain ⟨hG, hnext⟩ := h s' hR c
      exact ⟨hG, ih c s' hnext⟩

/-- One step, under an assertion that the others do not break and with a postcondition that they do
not break either. -/
theorem correct_call {act : χ → σ → α × σ} (hP : Stable R P) (hQ : ∀ a, Stable R (Q a)) (h : P s)
    (hact : ∀ s, P s → ∀ c, G s (act c s).2 ∧ Q (act c s).1 (act c s).2) :
    Correct R G Q (call act) s := by
  intro s' hR c
  obtain ⟨hG, hresult⟩ := hact s' (hP s s' hR h) c
  exact ⟨hG, fun s'' hR' => hQ _ _ _ hR' hresult⟩

end

/-! ## Programs that may fail -/

/-- The result, changed. -/
def Prog.map {σ χ α β : Type} (f : α → β) : Prog σ χ α → Prog σ χ β
  | .done a => .done (f a)
  | .atom effect next => .atom effect fun c s => (next c s).map f

section

variable {σ χ α β ε δ : Type} {R G : σ → σ → Prop} {P : σ → Prop} {s : σ}

/-- A program whose errors become errors of the caller. -/
def check (wrap : ε → δ) (p : Prog σ χ (Except ε α)) : ExceptT δ (Prog σ χ) α :=
  ExceptT.mk (p.map fun r => r.mapError wrap)

/-- A program whose errors are left to the caller. -/
def attempt (p : Prog σ χ α) : ExceptT δ (Prog σ χ) α := ExceptT.mk (p.map .ok)

/-- Fails when a condition holds. -/
def reject (cond : Bool) (e : ε) : ExceptT ε (Prog σ χ) Unit := if cond then throw e else pure ()

/-- The program is correct, with a postcondition for its regular end. -/
def Succeeds (R G : σ → σ → Prop) (Q : α → σ → Prop) (p : ExceptT ε (Prog σ χ) α) : σ → Prop :=
  Correct R G (fun r s => ∀ a, r = .ok a → Q a s) p.run

/-- A result may be changed afterwards. -/
theorem Correct.map {Q : α → σ → Prop} {T : β → σ → Prop} {f : α → β} {p : Prog σ χ α}
    (h : Correct R G Q p s) (hT : ∀ a s, Q a s → T (f a) s) : Correct R G T (p.map f) s := by
  induction p generalizing s with
  | done a => exact fun s' hR => hT a s' (h s' hR)
  | atom effect next ih =>
      intro s' hR c
      obtain ⟨hG, hnext⟩ := h s' hR c
      exact ⟨hG, ih c s' hnext⟩

/-- A call whose error ends the program. -/
theorem succeeds_check {Q : Except ε α → σ → Prop} {T : α → σ → Prop} {wrap : ε → δ}
    {p : Prog σ χ (Except ε α)} (h : Correct R G Q p s) (hT : ∀ a s, Q (.ok a) s → T a s) :
    Succeeds R G T (check wrap p) s := by
  refine Correct.map h fun r s hr b hb => ?_
  cases r with
  | error e => cases hb
  | ok a =>
      cases hb
      exact hT _ s hr

/-- A call whose error is a result. -/
theorem succeeds_attempt {Q : α → σ → Prop} {p : Prog σ χ α} (h : Correct R G Q p s) :
    Succeeds R G Q (attempt p : ExceptT δ (Prog σ χ) α) s := by
  refine Correct.map h fun a s ha b hb => ?_
  cases hb
  exact ha

/-- A result that nobody can spoil. -/
theorem succeeds_pure {Q : α → σ → Prop} (a : α) (hstable : Stable R (Q a)) (h : Q a s) :
    Succeeds R G Q (pure a : ExceptT ε (Prog σ χ) α) s := by
  intro s' hR b hb
  cases hb
  exact hstable s s' hR h

theorem succeeds_throw {Q : α → σ → Prop} (e : ε) :
    Succeeds R G Q (throw e : ExceptT ε (Prog σ χ) α) s := by
  intro s' _ b hb
  cases hb

/-- The rule of sequencing: what the first part leaves is what the second starts from. -/
theorem Succeeds.bind [IsPreorder σ R] {Q : α → σ → Prop} {T : β → σ → Prop}
    {p : ExceptT ε (Prog σ χ) α} {f : α → ExceptT ε (Prog σ χ) β} (h : Succeeds R G Q p s)
    (hf : ∀ a s, Q a s → Succeeds R G T (f a) s) : Succeeds R G T (p >>= f) s := by
  refine Correct.bind h fun r s hr => ?_
  cases r with
  | error e => exact succeeds_throw e
  | ok a => exact hf a s (hr a rfl)

/-- A postcondition of success may be weakened. -/
theorem Succeeds.mono {Q Q' : α → σ → Prop} {p : ExceptT ε (Prog σ χ) α}
    (h : Succeeds R G Q p s) (hQ : ∀ a s, Q a s → Q' a s) : Succeeds R G Q' p s :=
  Correct.mono h fun _ s hr a ha => hQ a s (hr a ha)

/-- What is not rejected does not meet the condition. -/
theorem succeeds_reject {cond : Bool} {e : ε} (hstable : Stable R P) (h : P s) :
    Succeeds R G (fun _ s => cond = false ∧ P s)
      (reject cond e : ExceptT ε (Prog σ χ) Unit) s := by
  unfold reject
  cases cond with
  | true => exact succeeds_throw e
  | false => exact succeeds_pure () (fun s s' hR hs => ⟨hs.1, hstable s s' hR hs.2⟩) ⟨rfl, h⟩

end

/-! ## Runs -/

/-- A state, and what is left of the programs that share it. -/
structure Shared (ι σ χ α : Type) where
  state : σ
  programs : ι → Prog σ χ α

/-- The next step of one of the programs, or an interference. -/
inductive Move (ι χ ε : Type) where
  | program (i : ι) (c : χ)
  | interference (e : ε)

section

variable {ι σ χ ε α : Type} [DecidableEq ι] (interfere : ε → σ → σ)

/-- One step. -/
def move (s : Shared ι σ χ α) : Move ι χ ε → Shared ι σ χ α
  | .program i c =>
      match s.programs i with
      | .done _ => s
      | .atom effect next =>
          ⟨effect c s.state, Function.update s.programs i (next c s.state)⟩
  | .interference e => { s with state := interfere e s.state }

variable {R G : ι → σ → σ → Prop} {Q : ι → α → σ → Prop}

/-- Every program is correct. -/
def AllCorrect (R G : ι → σ → σ → Prop) (Q : ι → α → σ → Prop) (s : Shared ι σ χ α) : Prop :=
  ∀ i, Correct (R i) (G i) (Q i) (s.programs i) s.state

/-- A step is an interference or guaranteed by the program that does it. -/
theorem move_cases [∀ i, IsPreorder σ (R i)] {s : Shared ι σ χ α} (h : AllCorrect R G Q s)
    (m : Move ι χ ε) :
    (move interfere s m).state = s.state ∨
      (∃ i, G i s.state (move interfere s m).state) ∨
      ∃ e, (move interfere s m).state = interfere e s.state := by
  cases m with
  | interference e => exact .inr (.inr ⟨e, rfl⟩)
  | program i c =>
      have hi := h i
      unfold move
      cases hprogram : s.programs i with
      | done a => exact .inl (by simp [hprogram])
      | atom effect next =>
          rw [hprogram] at hi
          refine .inr (.inl ⟨i, ?_⟩)
          simp only [hprogram]
          exact (hi s.state (refl_of (R i) s.state) c).1

/-- Every move of a program is interference for the others, so all stay correct. -/
theorem AllCorrect.move [∀ i, IsPreorder σ (R i)] {s : Shared ι σ χ α}
    (h : AllCorrect R G Q s)
    (hothers : ∀ i j, i ≠ j → ∀ s s', G i s s' → R j s s')
    (hinterfere : ∀ i e s, R i s (interfere e s)) (m : Move ι χ ε) :
    AllCorrect R G Q (move interfere s m) := by
  intro j
  cases m with
  | interference e => exact (h j).interfered (hinterfere j e s.state)
  | program i c =>
      have hi := h i
      unfold RelyGuarantee.move
      cases hprogram : s.programs i with
      | done a =>
          simp only [hprogram]
          exact h j
      | atom effect next =>
          rw [hprogram] at hi
          obtain ⟨hG, hnext⟩ := hi s.state (refl_of (R i) s.state) c
          simp only [hprogram]
          by_cases hij : j = i
          · subst hij
            rw [Function.update_self]
            exact hnext
          · rw [Function.update_of_ne hij]
            exact (h j).interfered (hothers i j (Ne.symm hij) _ _ hG)

/-- Programs that rely on what the others guarantee are correct throughout every run. -/
theorem parallel_correct [∀ i, IsPreorder σ (R i)]
    (hothers : ∀ i j, i ≠ j → ∀ s s', G i s s' → R j s s')
    (hinterfere : ∀ i e s, R i s (interfere e s)) {s : Shared ι σ χ α} (h : AllCorrect R G Q s)
    (moves : List (Move ι χ ε)) : AllCorrect R G Q (run (move interfere) s moves) :=
  run_invariant (I := AllCorrect R G Q)
    (fun _ m hs => hs.move interfere hothers hinterfere m) h moves

/-- What every guarantee and every interference keep holds throughout. -/
theorem parallel_invariant [∀ i, IsPreorder σ (R i)]
    (hothers : ∀ i j, i ≠ j → ∀ s s', G i s s' → R j s s')
    (hinterfere : ∀ i e s, R i s (interfere e s)) {I : σ → Prop}
    (hguarantee : ∀ i s s', G i s s' → I s → I s') (henvironment : ∀ e s, I s → I (interfere e s))
    {s : Shared ι σ χ α} (h : AllCorrect R G Q s) (hI : I s.state) (moves : List (Move ι χ ε)) :
    I (run (move interfere) s moves).state := by
  have hstep : ∀ (s : Shared ι σ χ α) m, AllCorrect R G Q s ∧ I s.state →
      AllCorrect R G Q (move interfere s m) ∧ I (move interfere s m).state := by
    rintro s m ⟨hs, hstate⟩
    refine ⟨hs.move interfere hothers hinterfere m, ?_⟩
    rcases move_cases interfere hs m with hsame | ⟨i, hG⟩ | ⟨e, he⟩
    · rw [hsame]
      exact hstate
    · exact hguarantee i _ _ hG hstate
    · rw [he]
      exact henvironment e s.state hstate
  exact (run_invariant (I := fun s : Shared ι σ χ α => AllCorrect R G Q s ∧ I s.state) hstep
    ⟨h, hI⟩ moves).2

omit [DecidableEq ι] in
/-- A program that has ended has its postcondition. -/
theorem AllCorrect.ended [∀ i, IsPreorder σ (R i)] {s : Shared ι σ χ α}
    (h : AllCorrect R G Q s) {i : ι} {a : α} (hdone : s.programs i = .done a) :
    Q i a s.state := by
  have hi := h i
  rw [hdone] at hi
  exact hi s.state (refl_of (R i) s.state)

end

end Halquen.Library.RelyGuarantee
