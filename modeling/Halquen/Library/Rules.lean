import Mathlib.Data.List.Basic

/-!
# Ordered rule lists

A decision procedure that tries its rules in order and takes the verdict of the first rule that
fires. `firstRule` computes the verdict, `firstFailure` is the form used by validators, where a
rule that fires is an error and silence of all rules is success. The results used to reason about
such procedures are `firstRule_cases`, which splits on whether some rule fires, and
`firstRule_forall_iff`, which characterises a property that every rule's verdict refutes.
-/

set_option autoImplicit false

namespace Halquen.Library.Rules

variable {α : Type}

/-- A rule with a fixed verdict. -/
def rule (fires : Bool) (verdict : α) : Option α := if fires then some verdict else none

@[simp]
theorem rule_true (verdict : α) : rule true verdict = some verdict := rfl

@[simp]
theorem rule_false (verdict : α) : rule false verdict = none := rfl

/-- A rule that does not fire says nothing. -/
@[simp]
theorem rule_eq_none_iff (fires : Bool) (verdict : α) :
    rule fires verdict = none ↔ fires = false := by
  cases fires <;> simp

/-- A rule that fires gives its verdict. -/
@[simp]
theorem rule_eq_some_iff (fires : Bool) (verdict v : α) :
    rule fires verdict = some v ↔ fires = true ∧ verdict = v := by
  cases fires <;> simp

/-- Verdict of the first rule that fires, else the fallback. -/
def firstRule (rules : List (Option α)) (fallback : α) : α := (rules.findSome? id).getD fallback

@[simp]
theorem firstRule_nil (fallback : α) : firstRule [] fallback = fallback := rfl

/-- A silent rule is passed over. -/
@[simp]
theorem firstRule_cons_none (rules : List (Option α)) (fallback : α) :
    firstRule (none :: rules) fallback = firstRule rules fallback := rfl

/-- The first verdict counts. -/
@[simp]
theorem firstRule_cons_some (v : α) (rules : List (Option α)) (fallback : α) :
    firstRule (some v :: rules) fallback = v := rfl

/-- No rule of the list fires. -/
def Silent (rules : List (Option α)) : Prop := ∀ r ∈ rules, r = none

@[simp]
theorem silent_nil : Silent ([] : List (Option α)) := by simp [Silent]

/-- A list is silent if all of its rules are. -/
@[simp]
theorem silent_cons (r : Option α) (rules : List (Option α)) :
    Silent (r :: rules) ↔ r = none ∧ Silent rules := by
  simp [Silent]

/-- Either no rule fires and the fallback is taken, or the verdict is that of a rule in the list
with only silent rules before it. -/
theorem firstRule_cases (rules : List (Option α)) (fallback : α) :
    (Silent rules ∧ firstRule rules fallback = fallback) ∨
      ∃ before v after, rules = before ++ some v :: after ∧ Silent before ∧
        firstRule rules fallback = v := by
  induction rules with
  | nil => exact .inl ⟨silent_nil, rfl⟩
  | cons r rules ih =>
      cases r with
      | some v => exact .inr ⟨[], v, rules, rfl, silent_nil, rfl⟩
      | none =>
          rcases ih with ⟨hsilent, heq⟩ | ⟨before, v, after, rfl, hbefore, heq⟩
          · exact .inl ⟨by simpa using hsilent, heq⟩
          · exact .inr ⟨none :: before, v, after, rfl, by simpa using hbefore, heq⟩

/-- A property that every verdict of the list refutes holds of the outcome exactly when no rule
fires and the fallback has it. -/
theorem firstRule_forall_iff {rules : List (Option α)} (fallback : α) (P : α → Prop)
    (h : ∀ v, some v ∈ rules → ¬ P v) :
    P (firstRule rules fallback) ↔ Silent rules ∧ P fallback := by
  rcases firstRule_cases rules fallback with
    ⟨hsilent, heq⟩ | ⟨before, v, after, hrules, -, heq⟩
  · rw [heq]
    exact ⟨fun hp => ⟨hsilent, hp⟩, fun hp => hp.2⟩
  · have hv : some v ∈ rules := by simp [hrules]
    rw [heq]
    constructor
    · intro hp
      exact absurd hp (h v hv)
    · rintro ⟨hsilent, -⟩
      exact absurd (hsilent _ hv) (by simp)

/-- Observing the verdict is observing the rules. -/
theorem map_firstRule {β : Type} (f : α → β) (rules : List (Option α)) (fallback : α) :
    f (firstRule rules fallback) = firstRule (rules.map (Option.map f)) (f fallback) := by
  induction rules with
  | nil => rfl
  | cons r rules ih =>
      cases r with
      | none => exact ih
      | some v => rfl

/-- Where some rule fires, the fallback does not matter. -/
theorem firstRule_eq_of_not_silent {rules : List (Option α)} (h : ¬ Silent rules) (a b : α) :
    firstRule rules a = firstRule rules b := by
  induction rules with
  | nil => exact absurd silent_nil h
  | cons r rules ih =>
      cases r with
      | none => exact ih fun hs => h (by simpa using hs)
      | some v => rfl

/-- Validation by an ordered list of failure rules. -/
def firstFailure {ε : Type} (rules : List (Option ε)) : Except ε Unit :=
  firstRule (rules.map (Option.map .error)) (.ok ())

/-- All checks pass if none of them fails. -/
theorem firstFailure_eq_ok_iff {ε : Type} (rules : List (Option ε)) :
    firstFailure rules = .ok () ↔ Silent rules := by
  unfold firstFailure
  rw [firstRule_forall_iff _ (fun r : Except ε Unit => r = .ok ())]
  · simp [Silent]
  · intro v hv hok
    obtain ⟨r, -, hr⟩ := List.mem_map.mp hv
    cases r with
    | none => simp at hr
    | some e =>
        simp only [Option.map_some, Option.some.injEq] at hr
        rw [← hr] at hok
        cases hok

end Halquen.Library.Rules
