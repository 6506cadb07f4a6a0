import Mathlib.Logic.Relation

/-!
# Stateful computations that may fail

`Act σ ε α` is a computation over a state `σ` that ends with a value or an error and keeps the
state it has reached in both cases; only `transaction` undoes the changes of a failed computation.

Two kinds of facts are proved about computations. `Post m s Q` says what holds of the outcome and
of the state reached from `s`; the rules of this module push it through the constructs of the
language, so that a program is executed symbolically by rewriting. `Keeps R m` says that a
preorder `R` relates the state before to the state after, whatever the outcome; it is compositional,
and the rules follow the constructs. `Respects R m` is about two runs: from related states the
outcomes are equal and the states reached are related.
-/

set_option autoImplicit false

namespace Halquen.Library.Action

/-- A computation over a state that may fail. -/
def Act (σ ε α : Type) : Type := σ → Except ε α × σ

namespace Act

variable {σ τ ε ε' α β : Type}

instance : Monad (Act σ ε) where
  pure a := fun s => (.ok a, s)
  bind m f := fun s =>
    match m s with
    | (.ok a, s') => f a s'
    | (.error e, s') => (.error e, s')

/-- Sequencing is associative. -/
theorem bind_assoc {γ : Type} (m : Act σ ε α) (f : α → Act σ ε β) (g : β → Act σ ε γ) :
    m >>= f >>= g = m >>= fun a => f a >>= g := by
  funext s
  simp only [bind]
  cases h : m s with
  | mk r s' => cases r <;> rfl

/-- After a success the rest runs in the state that was left. -/
theorem bind_of_ok {m : Act σ ε α} {s s' : σ} {a : α} (h : m s = (.ok a, s')) (f : α → Act σ ε β) :
    (m >>= f) s = f a s' := by
  simp only [bind, h]

/-- After a failure nothing more happens. -/
theorem bind_of_error {m : Act σ ε α} {s s' : σ} {e : ε} (h : m s = (.error e, s'))
    (f : α → Act σ ε β) : (m >>= f) s = (.error e, s') := by
  simp only [bind, h]

/-- A sequence stops with its first computation or goes on after it. -/
theorem bind_cases (m : Act σ ε α) (f : α → Act σ ε β) (s : σ) :
    (∃ e s', m s = (.error e, s') ∧ (m >>= f) s = (.error e, s')) ∨
      ∃ a s', m s = (.ok a, s') ∧ (m >>= f) s = f a s' := by
  cases h : m s with
  | mk r s' =>
      cases r with
      | error e => exact .inl ⟨e, s', rfl, bind_of_error h f⟩
      | ok a => exact .inr ⟨a, s', rfl, bind_of_ok h f⟩

/-- What is done with the value alone changes no state. -/
theorem state_map (f : α → β) (m : Act σ ε α) (s : σ) :
    ((do return f (← m) : Act σ ε β) s).2 = (m s).2 := by
  rcases bind_cases m (fun a => (pure (f a) : Act σ ε β)) s with
    ⟨e, s', hm, hstop⟩ | ⟨a, s', hm, hnext⟩
  · rw [hm, hstop]
  · rw [hm, hnext]
    rfl

/-- A sequence that succeeds has a first part that does. -/
theorem exists_of_bind_eq_ok {m : Act σ ε α} {f : α → Act σ ε β} {s s' : σ} {b : β}
    (h : (m >>= f) s = (.ok b, s')) : ∃ a s₁, m s = (.ok a, s₁) ∧ f a s₁ = (.ok b, s') := by
  rcases bind_cases m f s with ⟨e, s₁, hm, hbind⟩ | ⟨a, s₁, hm, hbind⟩
  · rw [hbind] at h
    cases h
  · exact ⟨a, s₁, hm, hbind ▸ h⟩

/-- What is done with a result does not change the state. -/
theorem outcome_map (f : α → β) (m : Act σ ε α) (s : σ) :
    ((do return f (← m) : Act σ ε β) s).1 = (m s).1.map f := by
  rcases bind_cases m (fun a => (pure (f a) : Act σ ε β)) s with
    ⟨e, s', hm, hstop⟩ | ⟨a, s', hm, hnext⟩
  · rw [hm, hstop]
    rfl
  · rw [hm, hnext]
    rfl

theorem map_congr {m m' : Act σ ε α} {s s' : σ} (h : m s = m' s') (f : α → β) :
    (do return f (← m) : Act σ ε β) s = (do return f (← m') : Act σ ε β) s' := by
  simp only [bind, h]

/-- A computation with this outcome, and the state it reaches. -/
theorem eq_of_outcome {m : Act σ ε α} {s : σ} {r : Except ε α} (h : (m s).1 = r) :
    m s = (r, (m s).2) := Prod.ext h rfl

/-- Fails and changes nothing. -/
def throw (e : ε) : Act σ ε α := fun s => (.error e, s)

/-- Reads the state. -/
def gets (f : σ → α) : Act σ ε α := fun s => (.ok (f s), s)

/-- A look at the state that may fail. -/
def reads (f : σ → Except ε α) : Act σ ε α := fun s => (f s, s)

/-- Changes the state. -/
def modify (f : σ → σ) : Act σ ε Unit := fun s => (.ok (), f s)

/-- A result that was found without the state. -/
def ofExcept (r : Except ε α) : Act σ ε α := fun s => (r, s)

/-- The value, or this error where there is none. -/
def orThrow (e : ε) : Option α → Act σ ε α
  | some a => fun s => (.ok a, s)
  | none => throw e

/-- Goes on only where the condition holds. -/
def require (cond : Bool) (e : ε) : Act σ ε Unit := if cond then pure () else throw e

/-- The outcome as a value. -/
def attempt (m : Act σ ε α) : Act σ ε' (Except ε α) := fun s => (.ok (m s).1, (m s).2)

/-- Fails with another error. -/
def mapError (f : ε → ε') (m : Act σ ε α) : Act σ ε' α := fun s => ((m s).1.mapError f, (m s).2)

/-- A failed computation leaves the state as it was. -/
def transaction (m : Act σ ε α) : Act σ ε α := fun s =>
  match m s with
  | (.ok a, s') => (.ok a, s')
  | (.error e, _) => (.error e, s)

/-- A computation over a part of the state. -/
def within (get : σ → τ) (set : σ → τ → σ) (m : Act τ ε α) : Act σ ε α := fun s =>
  ((m (get s)).1, set s (m (get s)).2)

/-- One computation for each item, in order, up to the first failure. -/
def forEach (xs : List α) (f : α → Act σ ε Unit) : Act σ ε Unit :=
  match xs with
  | [] => pure ()
  | x :: xs => do
      f x
      forEach xs f

/-! ## Outcome and final state -/

/-- What holds of the outcome and of the state reached. -/
def Post (m : Act σ ε α) (s : σ) (Q : Except ε α → σ → Prop) : Prop := Q (m s).1 (m s).2

/-- What holds of a computation that goes on after the first one with `f`. -/
def Next (f : α → Act σ ε β) (Q : Except ε β → σ → Prop) : Except ε α → σ → Prop
  | .ok a, s => Post (f a) s Q
  | .error e, s => Q (.error e) s

section Post

variable {m : Act σ ε α} {s : σ} {Q R : Except ε α → σ → Prop}

/-- A postcondition may be weakened. -/
theorem Post.mono (h : Post m s Q) (hQR : ∀ r s', Q r s' → R r s') : Post m s R :=
  hQR _ _ h

/-- Two postconditions of one run hold together. -/
theorem Post.and (hQ : Post m s Q) (hR : Post m s R) : Post m s fun r s' => Q r s' ∧ R r s' :=
  ⟨hQ, hR⟩

@[simp]
theorem next_ok (f : α → Act σ ε β) (P : Except ε β → σ → Prop) (a : α) :
    Next f P (.ok a) s ↔ Post (f a) s P := Iff.rfl

@[simp]
theorem next_error (f : α → Act σ ε β) (P : Except ε β → σ → Prop) (e : ε) :
    Next f P (.error e) s ↔ P (.error e) s := Iff.rfl

/-- One rule for each operation, as for weakest preconditions: what is asked after it is asked
before it. -/
@[simp]
theorem post_pure (a : α) : Post (pure a : Act σ ε α) s Q ↔ Q (.ok a) s := Iff.rfl

/-- The rule of sequencing: what comes next is the postcondition of what comes first. -/
theorem post_bind (f : α → Act σ ε β) (P : Except ε β → σ → Prop) :
    Post (m >>= f) s P ↔ Post m s (Next f P) := by
  change P _ _ ↔ Next f P (m s).1 (m s).2
  simp only [bind]
  cases h : m s with
  | mk r s' => cases r <;> rfl

/-- Rule of sequencing: an intermediate condition, and what follows from it. -/
theorem Post.bind {f : α → Act σ ε β} {P : Except ε β → σ → Prop} (h : Post m s Q)
    (hok : ∀ a s', Q (.ok a) s' → Post (f a) s' P)
    (herror : ∀ e s', Q (.error e) s' → P (.error e) s') : Post (m >>= f) s P := by
  rw [post_bind]
  refine h.mono fun r s' hr => ?_
  cases r with
  | ok a => exact hok a s' hr
  | error e => exact herror e s' hr

@[simp]
theorem post_throw (e : ε) : Post (throw e : Act σ ε α) s Q ↔ Q (.error e) s := Iff.rfl

@[simp]
theorem post_gets (f : σ → α) : Post (gets f : Act σ ε α) s Q ↔ Q (.ok (f s)) s := Iff.rfl

@[simp]
theorem post_reads (f : σ → Except ε α) : Post (reads f : Act σ ε α) s Q ↔ Q (f s) s := Iff.rfl

@[simp]
theorem post_modify (f : σ → σ) (P : Except ε Unit → σ → Prop) :
    Post (modify f : Act σ ε Unit) s P ↔ P (.ok ()) (f s) := Iff.rfl

@[simp]
theorem post_ofExcept (r : Except ε α) : Post (ofExcept r : Act σ ε α) s Q ↔ Q r s := Iff.rfl

@[simp]
theorem post_orThrow_some (e : ε) (a : α) :
    Post (orThrow e (some a) : Act σ ε α) s Q ↔ Q (.ok a) s := Iff.rfl

@[simp]
theorem post_orThrow_none (e : ε) : Post (orThrow e none : Act σ ε α) s Q ↔ Q (.error e) s :=
  Iff.rfl

/-- A check splits the postcondition in two cases. -/
theorem post_require (cond : Bool) (e : ε) (P : Except ε Unit → σ → Prop) :
    Post (require cond e : Act σ ε Unit) s P ↔
      (cond = true → P (.ok ()) s) ∧ (cond = false → P (.error e) s) := by
  cases cond <;> simp [require]

/-- A failure that is caught is a result. -/
@[simp]
theorem post_attempt (P : Except ε' (Except ε α) → σ → Prop) :
    Post (attempt m : Act σ ε' _) s P ↔ Post m s fun r s' => P (.ok r) s' := Iff.rfl

@[simp]
theorem post_mapError (f : ε → ε') (P : Except ε' α → σ → Prop) :
    Post (mapError f m) s P ↔ Post m s fun r s' => P (r.mapError f) s' := Iff.rfl

theorem post_ite (cond : Prop) [Decidable cond] (m' : Act σ ε α) :
    Post (if cond then m else m') s Q ↔ (cond → Post m s Q) ∧ (¬ cond → Post m' s Q) := by
  by_cases h : cond <;> simp [h]

/-- An operation on a part is judged by the part. -/
@[simp]
theorem post_within {t : τ} {get : τ → σ} {set : τ → σ → τ} (P : Except ε α → τ → Prop) :
    Post (within get set m) t P ↔ Post m (get t) fun r s' => P r (set t s') := Iff.rfl

/-- A transaction either commits or leaves no trace. -/
theorem post_transaction :
    Post (transaction m) s Q ↔
      Post m s fun r s' => match r with | .ok a => Q (.ok a) s' | .error e => Q (.error e) s := by
  simp only [Post, transaction]
  cases h : m s with
  | mk r s' => cases r <;> rfl

end Post

/-! ## Results -/

/-- What holds if the computation succeeds; nothing is said about a failure. -/
def Returns (m : Act σ ε α) (s : σ) (Q : α → σ → Prop) : Prop :=
  Post m s fun r s' => ∀ a, r = .ok a → Q a s'

section Returns

variable {m : Act σ ε α} {s : σ} {Q R : α → σ → Prop}

/-- A run that is known to succeed satisfies the postcondition. -/
theorem Returns.of_eq (h : Returns m s Q) {a : α} {s' : σ} (hm : m s = (.ok a, s')) : Q a s' := by
  have hpost : ∀ b, (m s).1 = .ok b → Q b (m s).2 := h
  rw [hm] at hpost
  exact hpost a rfl

/-- A postcondition of success may be weakened. -/
theorem Returns.mono (h : Returns m s Q) (hQR : ∀ a s', Q a s' → R a s') : Returns m s R :=
  Post.mono h fun _ s' hr a ha => hQR a s' (hr a ha)

/-- Two postconditions of success hold together. -/
theorem Returns.and (hQ : Returns m s Q) (hR : Returns m s R) :
    Returns m s fun a s' => Q a s' ∧ R a s' := fun a ha => ⟨hQ a ha, hR a ha⟩

theorem returns_of_forall (h : ∀ a s', Q a s') : Returns m s Q := fun a _ => h a _

/-- The same rules for runs that succeed. A failure satisfies every postcondition. -/
@[simp]
theorem returns_pure (a : α) : Returns (pure a : Act σ ε α) s Q ↔ Q a s := by
  simp [Returns]

/-- A sequence succeeds if both parts do. -/
@[simp]
theorem returns_bind (f : α → Act σ ε β) (P : β → σ → Prop) :
    Returns (m >>= f) s P ↔ Returns m s fun a s' => Returns (f a) s' P := by
  rw [Returns, post_bind, Returns, Post, Post]
  cases h : (m s).1 with
  | ok a =>
      rw [next_ok]
      exact ⟨fun hP b hb => by cases hb; exact hP, fun hP => hP a rfl⟩
  | error e => simp

/-- What holds after the second computation, from wherever the first one ends. -/
theorem returns_bind_of_forall {f : α → Act σ ε β} {P : β → σ → Prop}
    (h : ∀ a s', Returns (f a) s' P) : Returns (m >>= f) s P := by
  rw [returns_bind]
  exact returns_of_forall h

@[simp]
theorem returns_throw (e : ε) : Returns (throw e : Act σ ε α) s Q := by
  simp [Returns]

@[simp]
theorem returns_gets (f : σ → α) : Returns (gets f : Act σ ε α) s Q ↔ Q (f s) s := by
  simp [Returns]

@[simp]
theorem returns_modify (f : σ → σ) (P : Unit → σ → Prop) :
    Returns (modify f : Act σ ε Unit) s P ↔ P () (f s) :=
  ⟨fun h => h () rfl, fun h _ _ => h⟩

@[simp]
theorem returns_ofExcept (r : Except ε α) :
    Returns (ofExcept r : Act σ ε α) s Q ↔ ∀ a, r = .ok a → Q a s := by
  simp [Returns]

@[simp]
theorem returns_orThrow (e : ε) (o : Option α) :
    Returns (orThrow e o : Act σ ε α) s Q ↔ ∀ a, o = some a → Q a s := by
  cases o <;> simp [Returns]

@[simp]
theorem returns_require (cond : Bool) (e : ε) (P : Unit → σ → Prop) :
    Returns (require cond e : Act σ ε Unit) s P ↔ (cond = true → P () s) := by
  cases cond with
  | false => exact iff_of_true (returns_throw e) (by simp)
  | true => exact ⟨fun h _ => h () rfl, fun h _ _ => h rfl⟩

@[simp]
theorem returns_within {t : τ} {get : τ → σ} {set : τ → σ → τ} (P : α → τ → Prop) :
    Returns (within get set m) t P ↔ Returns m (get t) fun a s' => P a (set t s') := Iff.rfl

/-- A transaction that succeeds is as if it were none. -/
@[simp]
theorem returns_transaction : Returns (transaction m) s Q ↔ Returns m s Q := by
  rw [Returns, post_transaction, Returns, Post, Post]
  cases (m s).1 <;> simp

theorem gets_eq (f : σ → α) : (gets f : Act σ ε α) s = (.ok (f s), s) := rfl

theorem require_of_true {cond : Bool} (h : cond = true) (e : ε) :
    require cond e s = (.ok (), s) := by
  rw [require, if_pos h]
  rfl

theorem within_of_ok {τ : Type} {get : τ → σ} {set : τ → σ → τ} {t : τ} {s' : σ} {a : α}
    (h : m (get t) = (.ok a, s')) : within get set m t = (.ok a, set t s') := by
  simp only [within, h]

/-- A transaction that succeeds returns what its body returns. -/
theorem transaction_of_ok {a : α} (h : (m s).1 = .ok a) : (transaction m s).1 = .ok a := by
  rw [transaction, eq_of_outcome h]

/-- A transaction that fails has changed nothing. -/
theorem transaction_error {e : ε} {s' : σ} (h : transaction m s = (.error e, s')) : s' = s := by
  have hpost : Post (transaction m) s fun r s' => (∃ e, r = .error e) → s' = s := by
    rw [post_transaction, Post]
    cases (m s).1 <;> simp
  rw [Post, h] at hpost
  exact hpost ⟨e, rfl⟩

/-- Loop rule: an invariant on the items done and the state. -/
theorem returns_forEach {f : α → Act σ ε Unit} (I : List α → σ → Prop)
    (hf : ∀ pre x s, I pre s → Returns (f x) s fun _ s' => I (pre ++ [x]) s') :
    ∀ (xs pre : List α) (s : σ), I pre s → Returns (forEach xs f) s fun _ s' => I (pre ++ xs) s'
  | [], pre, s, h => by simpa [forEach] using h
  | x :: xs, pre, s, h => by
      simp only [forEach, returns_bind]
      refine (hf pre x s h).mono fun _ s' hs' => ?_
      simpa using returns_forEach I hf xs (pre ++ [x]) s' hs'

end Returns

/-! ## Relations kept -/

/-- The relation holds between the state before and the state after, whatever the outcome. -/
def Keeps (R : σ → σ → Prop) (m : Act σ ε α) : Prop := ∀ s, R s (m s).2

section Keeps

variable {R S : σ → σ → Prop} {m : Act σ ε α}

/-- A relation that is kept implies a weaker one that is kept. -/
theorem Keeps.mono (h : Keeps R m) (hRS : ∀ s s', R s s' → S s s') : Keeps S m :=
  fun s => hRS _ _ (h s)

/-- A relation that is kept is a postcondition of every run. -/
theorem Keeps.post (h : Keeps R m) (s : σ) : Post m s fun _ s' => R s s' := h s

/-- A relation that is kept is a postcondition of success. -/
theorem Keeps.returns (h : Keeps R m) (s : σ) : Returns m s fun _ s' => R s s' := fun _ _ => h s

/-- A change keeps a relation if every state is related to its change. -/
theorem keeps_modify {f : σ → σ} (h : ∀ s, R s (f s)) : Keeps R (modify f : Act σ ε Unit) := h

/-- Catching a failure changes nothing. -/
theorem Keeps.attempt (hm : Keeps R m) : Keeps R (attempt m : Act σ ε' _) := hm

/-- Renaming a failure changes nothing. -/
theorem Keeps.mapError (hm : Keeps R m) (f : ε → ε') : Keeps R (mapError f m) := hm

/-- Both branches must keep the relation. -/
theorem Keeps.ite {cond : Prop} [Decidable cond] {m' : Act σ ε α} (hm : cond → Keeps R m)
    (hm' : ¬ cond → Keeps R m') : Keeps R (if cond then m else m') := by
  by_cases h : cond
  · rw [if_pos h]
    exact hm h
  · rw [if_neg h]
    exact hm' h

variable [IsPreorder σ R]

/-- What changes nothing keeps every reflexive relation. -/
theorem keeps_pure (a : α) : Keeps R (pure a : Act σ ε α) := fun s => refl_of R s

theorem keeps_throw (e : ε) : Keeps R (throw e : Act σ ε α) := fun s => refl_of R s

theorem keeps_gets (f : σ → α) : Keeps R (gets f : Act σ ε α) := fun s => refl_of R s

theorem keeps_ofExcept (r : Except ε α) : Keeps R (ofExcept r : Act σ ε α) := fun s => refl_of R s

theorem keeps_orThrow (e : ε) (o : Option α) : Keeps R (orThrow e o : Act σ ε α) := by
  cases o <;> exact fun s => refl_of R s

theorem keeps_require (cond : Bool) (e : ε) : Keeps R (require cond e : Act σ ε Unit) := by
  cases cond <;> exact fun s => refl_of R s

/-- A transaction that is undone changes nothing. -/
theorem Keeps.transaction (hm : Keeps R m) : Keeps R (transaction m) := by
  intro s
  have hms := hm s
  unfold Act.transaction
  cases h : m s with
  | mk r s' =>
      rw [h] at hms
      cases r with
      | ok a => exact hms
      | error e => exact refl_of R s

/-- A sequence keeps a transitive relation that its parts keep. -/
theorem Keeps.bind {f : α → Act σ ε β} (hm : Keeps R m) (hf : ∀ a, Keeps R (f a)) :
    Keeps R (m >>= f) := by
  intro s
  have hms := hm s
  simp only [Bind.bind]
  cases h : m s with
  | mk r s' =>
      rw [h] at hms
      cases r with
      | ok a => exact trans_of R hms (hf a s')
      | error e => exact hms

/-- As `Keeps.bind`, with a fact about the value of the first computation. -/
theorem Keeps.bind_of {f : α → Act σ ε β} {Q : α → Prop} (hm : Keeps R m)
    (hQ : ∀ s, Returns m s fun a _ => Q a) (hf : ∀ a, Q a → Keeps R (f a)) : Keeps R (m >>= f) := by
  intro s
  have hms := hm s
  have hvalue := hQ s
  simp only [Bind.bind]
  cases h : m s with
  | mk r s' =>
      rw [h] at hms
      cases r with
      | ok a => exact trans_of R hms (hf a (hvalue.of_eq h) s')
      | error e => exact hms

/-- So does a loop, by induction on the list. -/
theorem Keeps.forEach {xs : List β} {f : β → Act σ ε Unit} (hf : ∀ x ∈ xs, Keeps R (f x)) :
    Keeps R (forEach xs f) := by
  induction xs with
  | nil => exact keeps_pure ()
  | cons x xs ih =>
      exact (hf x (by simp)).bind fun _ => ih fun y hy => hf y (List.mem_cons_of_mem x hy)

end Keeps

/-! ## Relations respected -/

/-- From related states the computation has the same outcome and reaches related states. -/
def Respects (R : σ → σ → Prop) (m : Act σ ε α) : Prop :=
  ∀ s t, R s t → (m s).1 = (m t).1 ∧ R (m s).2 (m t).2

section Respects

variable {R : σ → σ → Prop} {m : Act σ ε α}

theorem respects_pure (a : α) : Respects R (pure a : Act σ ε α) := fun _ _ h => ⟨rfl, h⟩

theorem respects_ofExcept (r : Except ε α) : Respects R (ofExcept r : Act σ ε α) :=
  fun _ _ h => ⟨rfl, h⟩

theorem respects_orThrow (e : ε) (o : Option α) : Respects R (orThrow e o : Act σ ε α) := by
  cases o <;> exact fun _ _ h => ⟨rfl, h⟩

theorem respects_require (cond : Bool) (e : ε) : Respects R (require cond e : Act σ ε Unit) := by
  cases cond <;> exact fun _ _ h => ⟨rfl, h⟩

/-- A reading respects a relation if related states read the same. -/
theorem respects_gets {f : σ → α} (hf : ∀ s t, R s t → f s = f t) :
    Respects R (gets f : Act σ ε α) := by
  intro s t h
  refine ⟨?_, h⟩
  change Except.ok (f s) = Except.ok (f t)
  rw [hf s t h]

/-- A sequence respects a relation that its parts respect. -/
theorem Respects.bind {f : α → Act σ ε β} (hm : Respects R m) (hf : ∀ a, Respects R (f a)) :
    Respects R (m >>= f) := by
  intro s t h
  obtain ⟨hvalue, hstate⟩ := hm s t h
  simp only [Bind.bind]
  cases hs : m s with
  | mk r s' =>
      cases ht : m t with
      | mk r' t' =>
          rw [hs, ht] at hvalue hstate
          cases hvalue
          -- Both runs go on with the same value, or stop with the same error.
          cases r with
          | ok a => exact hf a s' t' hstate
          | error e => exact ⟨rfl, hstate⟩

end Respects

end Act

end Halquen.Library.Action
