import Halquen.Library.Run
import Mathlib.Data.List.Basic

/-!
# Cancellation registry

Chat requests wait for the lock of the service; a `CancelChat` request does not. It finds the chat
in a registry that maps request identifiers to senders. Insertion, removal by a cancellation and
removal after the chat take the lock of the registry separately, and the last one goes by the
identifier alone. As long as no chat arrives under the identifier of a chat that was cancelled and
has not been cleaned up, every entry belongs to the chat that inserted it (`registry_owned`).
-/

set_option autoImplicit false

namespace Halquen.Service.Cancellation

open Halquen.Library.Run

/-! ## The dispatcher -/

/-- Where the task of an accepted chat stands. -/
inductive ChatPhase where
  /-- Waits for the service or is handled by it; its receiver is alive. -/
  | running
  /-- The handler has returned, and the entry is still to be removed. -/
  | handled
  /-- The entry was removed, and the response is returned. -/
  | answered
  /-- The handler has panicked, and the task with it. -/
  | panicked
  deriving DecidableEq

/-- A chat that was accepted. `signalled` is the value in its watch channel. -/
structure ChatTask where
  requestId : String
  phase : ChatPhase
  signalled : Bool
  deriving DecidableEq

/-- A `CancelChat` request, with the sender that it took from the registry and its answer. -/
structure CancelTask where
  requestId : String
  sender : Option Nat
  requested : Option Bool
  deriving DecidableEq

/-- The registry, and the tasks in the order in which they were dispatched. The sender of a chat is
the place of its task. -/
structure Dispatcher where
  pending : String → Option Nat
  chats : List ChatTask
  cancels : List CancelTask
  refused : List String

/-- The dispatcher before any request. -/
def Dispatcher.empty : Dispatcher := ⟨fun _ => none, [], [], []⟩

/-- What the tasks do one after the other. -/
inductive Event where
  | chat (requestId : String)
  | handled (k : Nat)
  | panicked (k : Nat)
  | cleanedUp (k : Nat)
  | cancel (requestId : String)
  | send (c : Nat)
  deriving DecidableEq

namespace Dispatcher

/-- The dispatcher with one chat in another phase. -/
def setPhase (s : Dispatcher) (k : Nat) (phase : ChatPhase) : Dispatcher :=
  { s with chats := s.chats.modify k fun chat => { chat with phase := phase } }

/-- `CancellationRegistry::remove`. -/
def remove (s : Dispatcher) (requestId : String) : Dispatcher :=
  { s with pending := Function.update s.pending requestId none }

/-- The phase of a chat. -/
def phaseOf (s : Dispatcher) (k : Nat) : Option ChatPhase := s.chats[k]?.map ChatTask.phase

/-- A chat is accepted unless its identifier is in the registry. -/
def dispatchChat (s : Dispatcher) (requestId : String) : Dispatcher :=
  if (s.pending requestId).isSome then { s with refused := s.refused ++ [requestId] }
  else { s with
    pending := Function.update s.pending requestId (some s.chats.length)
    chats := s.chats ++ [⟨requestId, .running, false⟩] }

/-- A cancellation takes the sender out of the registry. -/
def dispatchCancel (s : Dispatcher) (requestId : String) : Dispatcher :=
  { s.remove requestId with cancels := s.cancels ++ [⟨requestId, s.pending requestId, none⟩] }

/-- Signals through the sender of a chat, if its receiver is alive. -/
def signal (s : Dispatcher) (k : Nat) : Bool × Dispatcher :=
  if s.phaseOf k = some .running then
    (true, { s with chats := s.chats.modify k fun chat => { chat with signalled := true } })
  else (false, s)

/-- The dispatcher with one cancellation answered. -/
def answerCancel (s : Dispatcher) (c : Nat) (requested : Bool) : Dispatcher :=
  { s with cancels := s.cancels.modify c fun task => { task with requested := some requested } }

/-- A cancellation signals through the sender that it took, and answers. -/
def sendCancel (s : Dispatcher) (c : Nat) : Dispatcher :=
  match s.cancels[c]? with
  | some ⟨_, some k, none⟩ => (s.signal k).2.answerCancel c (s.signal k).1
  | some ⟨_, none, none⟩ => s.answerCancel c false
  | _ => s

end Dispatcher

/-- A task can only do what it stands before; other events change nothing. -/
def step (s : Dispatcher) : Event → Dispatcher
  | .chat requestId => s.dispatchChat requestId
  | .handled k => if s.phaseOf k = some .running then s.setPhase k .handled else s
  | .panicked k => if s.phaseOf k = some .running then s.setPhase k .panicked else s
  | .cleanedUp k =>
      match s.chats[k]? with
      | some ⟨requestId, .handled, _⟩ => (s.remove requestId).setPhase k .answered
      | _ => s
  | .cancel requestId => s.dispatchCancel requestId
  | .send c => s.sendCancel c

/-! ## Ownership -/

/-- The task still has to remove the entry. -/
def ChatPhase.Open (phase : ChatPhase) : Prop := phase = .running ∨ phase = .handled

instance (phase : ChatPhase) : Decidable phase.Open := inferInstanceAs (Decidable (_ ∨ _))

namespace Dispatcher

/-- A cancellation has taken the sender of the chat. -/
def Cancelled (s : Dispatcher) (k : Nat) : Prop := ∃ task ∈ s.cancels, task.sender = some k

instance (s : Dispatcher) (k : Nat) : Decidable (s.Cancelled k) :=
  inferInstanceAs (Decidable (∃ task ∈ s.cancels, _))

/-- The registry holds the senders of the open chats that were not cancelled, each under the
identifier of its chat, and no two open chats have one identifier. -/
structure Owned (s : Dispatcher) : Prop where
  registered : ∀ k chat, s.chats[k]? = some chat → chat.phase.Open → ¬ s.Cancelled k →
    s.pending chat.requestId = some k
  entry : ∀ requestId k, s.pending requestId = some k →
    ∃ chat, s.chats[k]? = some chat ∧ chat.requestId = requestId ∧ chat.phase ≠ .answered ∧
      ¬ s.Cancelled k
  distinct : ∀ (j k : Nat) (a b : ChatTask), s.chats[j]? = some a → s.chats[k]? = some b →
    a.phase.Open → b.phase.Open → a.requestId = b.requestId → j = k
  known : ∀ k, s.Cancelled k → k < s.chats.length

end Dispatcher

/-- No chat arrives under the identifier of an open chat that was cancelled. -/
def Admissible (s : Dispatcher) : Event → Prop
  | .chat requestId => ∀ k chat, s.chats[k]? = some chat → chat.requestId = requestId →
      chat.phase.Open → ¬ s.Cancelled k
  | _ => True

section

variable {s : Dispatcher}

open Dispatcher

theorem owned_empty : Owned .empty := by
  constructor <;> simp [Dispatcher.empty, Cancelled]

/-- Moving one chat on, short of its answer, keeps the ownership. -/
theorem owned_modify {k : Nat} {f : ChatTask → ChatTask} (h : Owned s)
    (hid : ∀ chat, (f chat).requestId = chat.requestId)
    (hopen : ∀ chat, s.chats[k]? = some chat → (f chat).phase.Open → chat.phase.Open)
    (hanswered : ∀ chat, s.chats[k]? = some chat → (f chat).phase = .answered →
      chat.phase = .answered) : Owned { s with chats := s.chats.modify k f } := by
  -- What a chat of the new state was before.
  have hback : ∀ (j : Nat) (chat' : ChatTask), (s.chats.modify k f)[j]? = some chat' →
      ∃ chat : ChatTask, s.chats[j]? = some chat ∧ chat'.requestId = chat.requestId ∧
        (chat'.phase.Open → chat.phase.Open) := by
    intro j chat' hchat'
    rw [List.getElem?_modify, Option.map_eq_map, Option.map_eq_some_iff] at hchat'
    obtain ⟨chat, hchat, rfl⟩ := hchat'
    refine ⟨chat, hchat, ?_⟩
    split
    · rename_i heq
      exact ⟨hid chat, hopen chat (heq ▸ hchat)⟩
    · exact ⟨rfl, id⟩
  -- The four parts of the invariant, each traced back to the chat that was there.
  constructor
  · intro j chat' hchat' hphase hcancelled
    obtain ⟨chat, hchat, hsame, hwas⟩ := hback j chat' hchat'
    rw [hsame]
    exact h.registered j chat hchat (hwas hphase) hcancelled
  · intro requestId j hpending
    obtain ⟨chat, hchat, hrequest, hphase, hcancelled⟩ := h.entry requestId j hpending
    by_cases heq : k = j
    · subst heq
      refine ⟨f chat, by simp [hchat], (hid chat).trans hrequest, ?_, hcancelled⟩
      exact fun hanswer => hphase (hanswered chat hchat hanswer)
    · exact ⟨chat, by simp [hchat, heq], hrequest, hphase, hcancelled⟩
  · intro i j a' b' ha' hb' hphaseA hphaseB hsame
    obtain ⟨a, ha, hidA, hwasA⟩ := hback i a' ha'
    obtain ⟨b, hb, hidB, hwasB⟩ := hback j b' hb'
    apply h.distinct i j a b ha hb (hwasA hphaseA) (hwasB hphaseB)
    rw [← hidA, ← hidB, hsame]
  · intro j hcancelled
    rw [List.length_modify]
    exact h.known j hcancelled

theorem cancelled_modify {c : Nat} {f : CancelTask → CancelTask}
    (hsender : ∀ task, (f task).sender = task.sender) (k : Nat) :
    Cancelled { s with cancels := s.cancels.modify c f } k ↔ Cancelled s k := by
  simp only [Cancelled, List.mem_iff_getElem?, List.getElem?_modify, Option.map_eq_map,
    Option.map_eq_some_iff]
  constructor
  · rintro ⟨task', ⟨j, task, htask, rfl⟩, hsome⟩
    refine ⟨task, ⟨j, htask⟩, ?_⟩
    split at hsome
    · rwa [hsender] at hsome
    · exact hsome
  · rintro ⟨task, ⟨j, htask⟩, hsome⟩
    refine ⟨_, ⟨j, task, htask, rfl⟩, ?_⟩
    split
    · rwa [hsender]
    · exact hsome

/-- The ownership concerns the cancellations only through what they have taken. -/
theorem owned_answerCancel (h : Owned s) (c : Nat) (requested : Bool) :
    Owned (s.answerCancel c requested) := by
  have hsame : ∀ k, (s.answerCancel c requested).Cancelled k ↔ s.Cancelled k :=
    cancelled_modify fun _ => rfl
  constructor
  · intro k chat hchat hphase hcancelled
    exact h.registered k chat hchat hphase fun hk => hcancelled ((hsame k).mpr hk)
  · intro requestId k hpending
    obtain ⟨chat, hchat, hrequest, hphase, hcancelled⟩ := h.entry requestId k hpending
    exact ⟨chat, hchat, hrequest, hphase, fun hk => hcancelled ((hsame k).mp hk)⟩
  · exact h.distinct
  · intro k hk
    exact h.known k ((hsame k).mp hk)

theorem owned_signal (h : Owned s) (k : Nat) : Owned (s.signal k).2 := by
  unfold signal
  split
  · exact owned_modify h (fun _ => rfl) (fun _ _ => id) fun _ _ => id
  · exact h

theorem owned_sendCancel (h : Owned s) (c : Nat) : Owned (s.sendCancel c) := by
  unfold sendCancel
  split
  · exact owned_answerCancel (owned_signal h _) _ _
  · exact owned_answerCancel h _ _
  · exact h

/-- A cancellation takes the sender of the chat under its identifier, and of no other. -/
theorem cancelled_dispatchCancel (requestId : String) (k : Nat) :
    (s.dispatchCancel requestId).Cancelled k ↔ s.Cancelled k ∨ s.pending requestId = some k := by
  simp [Cancelled, dispatchCancel, Dispatcher.remove, or_and_right, exists_or]

theorem owned_dispatchCancel (h : Owned s) (requestId : String) :
    Owned (s.dispatchCancel requestId) := by
  constructor
  · intro k chat hchat hphase hcancelled
    rw [cancelled_dispatchCancel, not_or] at hcancelled
    have hpending := h.registered k chat hchat hphase hcancelled.1
    have hne : chat.requestId ≠ requestId := fun heq => hcancelled.2 (heq ▸ hpending)
    exact (Function.update_of_ne hne _ _).trans hpending
  · intro other k hpending
    change Function.update s.pending requestId none other = some k at hpending
    obtain rfl | hne := eq_or_ne other requestId
    · simp at hpending
    rw [Function.update_of_ne hne] at hpending
    obtain ⟨chat, hchat, hrequest, hphase, hcancelled⟩ := h.entry other k hpending
    refine ⟨chat, hchat, hrequest, hphase, ?_⟩
    rw [cancelled_dispatchCancel, not_or]
    refine ⟨hcancelled, fun htaken => hne ?_⟩
    -- One chat does not stand under two identifiers.
    obtain ⟨chat', hchat', hrequest', -⟩ := h.entry requestId k htaken
    rw [hchat] at hchat'
    rw [← hrequest, ← hrequest', Option.some.inj hchat']
  · exact h.distinct
  · intro k hcancelled
    rcases (cancelled_dispatchCancel requestId k).mp hcancelled with hcancelled | htaken
    · exact h.known k hcancelled
    · obtain ⟨chat, hchat, -⟩ := h.entry requestId k htaken
      exact (List.getElem?_eq_some_iff.mp hchat).1

/-- After its handler has returned, a chat removes no entry but its own. -/
theorem owned_cleanedUp (h : Owned s) {k : Nat} {chat : ChatTask} (hchat : s.chats[k]? = some chat)
    (hphase : chat.phase = .handled) :
    Owned ((s.remove chat.requestId).setPhase k .answered) := by
  have hlater : ∀ j, j ≠ k → ((s.remove chat.requestId).setPhase k .answered).chats[j]? =
      s.chats[j]? := fun j hj => List.getElem?_modify_ne _ _ hj.symm
  have hself : ((s.remove chat.requestId).setPhase k .answered).chats[k]? =
      some { chat with phase := .answered } := by
    simp [setPhase, Dispatcher.remove, hchat]
  -- An open chat of the new state is another chat.
  have hother : ∀ (j : Nat) (other : ChatTask),
      ((s.remove chat.requestId).setPhase k .answered).chats[j]? = some other →
        other.phase.Open → j ≠ k ∧ s.chats[j]? = some other := by
    intro j other hget hopen
    by_cases hj : j = k
    · subst hj
      rw [hself] at hget
      rw [← Option.some.inj hget] at hopen
      exact absurd hopen (by simp [ChatPhase.Open])
    · rw [hlater j hj] at hget
      exact ⟨hj, hget⟩
  constructor
  · intro j other hget hopen hcancelled
    obtain ⟨hj, hget⟩ := hother j other hget hopen
    have hne : other.requestId ≠ chat.requestId := fun heq =>
      hj (h.distinct j k other chat hget hchat hopen (.inr hphase) heq)
    exact (Function.update_of_ne hne _ _).trans (h.registered j other hget hopen hcancelled)
  · intro requestId j hpending
    change Function.update s.pending chat.requestId none requestId = some j at hpending
    obtain rfl | hne := eq_or_ne requestId chat.requestId
    · simp at hpending
    rw [Function.update_of_ne hne] at hpending
    obtain ⟨other, hget, hrequest, hrest⟩ := h.entry requestId j hpending
    have hj : j ≠ k := by
      rintro rfl
      rw [hchat] at hget
      exact hne (hrequest.symm.trans (congrArg ChatTask.requestId (Option.some.inj hget)).symm)
    exact ⟨other, (hlater j hj).trans hget, hrequest, hrest⟩
  · intro i j a b ha hb hopenA hopenB hsame
    obtain ⟨-, ha⟩ := hother i a ha hopenA
    obtain ⟨-, hb⟩ := hother j b hb hopenB
    exact h.distinct i j a b ha hb hopenA hopenB hsame
  · intro j hcancelled
    have hlength := h.known j hcancelled
    simpa [setPhase, Dispatcher.remove] using hlength

/-- An accepted chat is the only open chat under its identifier. -/
theorem owned_dispatchChat (h : Owned s) {requestId : String}
    (hadmissible : Admissible s (.chat requestId)) : Owned (s.dispatchChat requestId) := by
  unfold dispatchChat
  split
  · exact ⟨h.registered, h.entry, h.distinct, h.known⟩
  rename_i hfree
  rw [Option.not_isSome_iff_eq_none] at hfree
  -- Any open chat under this identifier would be cancelled or in the registry.
  have hnew : ∀ (j : Nat) (other : ChatTask), s.chats[j]? = some other → other.phase.Open →
      other.requestId ≠ requestId := by
    intro j other hget hopen heq
    have hpending := h.registered j other hget hopen (hadmissible j other hget heq hopen)
    rw [heq, hfree] at hpending
    cases hpending
  -- A chat of the new state is an old one or the new one.
  have hget : ∀ (j : Nat) (other : ChatTask),
      (s.chats ++ [⟨requestId, .running, false⟩])[j]? = some other →
        s.chats[j]? = some other ∨
          (j = s.chats.length ∧ other = ⟨requestId, .running, false⟩) := by
    intro j other hother
    rw [List.getElem?_append] at hother
    split at hother
    · exact .inl hother
    · rw [List.getElem?_singleton] at hother
      split at hother
      · exact .inr ⟨by omega, (Option.some.inj hother).symm⟩
      · cases hother
  constructor
  · intro j other hother hopen hcancelled
    rcases hget j other hother with hold | ⟨rfl, rfl⟩
    · exact (Function.update_of_ne (hnew j other hold hopen) _ _).trans
        (h.registered j other hold hopen hcancelled)
    · exact Function.update_self ..
  · intro other j hpending
    change Function.update s.pending requestId (some s.chats.length) other = some j at hpending
    obtain rfl | hne := eq_or_ne other requestId
    · rw [Function.update_self] at hpending
      obtain rfl := Option.some.inj hpending
      refine ⟨⟨other, .running, false⟩, by simp, rfl, by simp, fun hcancelled => ?_⟩
      exact absurd (h.known _ hcancelled) (Nat.lt_irrefl _)
    · rw [Function.update_of_ne hne] at hpending
      obtain ⟨chat, hchat, hrest⟩ := h.entry other j hpending
      refine ⟨chat, ?_, hrest⟩
      rw [List.getElem?_append_left (List.getElem?_eq_some_iff.mp hchat).1]
      exact hchat
  · intro i j a b ha hb hopenA hopenB hsame
    rcases hget i a ha with ha | ⟨rfl, rfl⟩ <;> rcases hget j b hb with hb | ⟨rfl, rfl⟩
    · exact h.distinct i j a b ha hb hopenA hopenB hsame
    · exact absurd hsame (hnew i a ha hopenA)
    · exact absurd hsame.symm (hnew j b hb hopenB)
    · rfl
  · intro j hcancelled
    rw [List.length_append]
    exact Nat.lt_add_right _ (h.known j hcancelled)

theorem owned_step (s : Dispatcher) (e : Event) (hadmissible : Admissible s e) (h : Owned s) :
    Owned (step s e) := by
  cases e with
  | chat requestId => exact owned_dispatchChat h hadmissible
  | handled k =>
      simp only [step]
      split
      · rename_i hphase
        obtain ⟨chat, hchat, hrunning⟩ := Option.map_eq_some_iff.mp hphase
        refine owned_modify h (fun _ => rfl) (fun chat' hchat' _ => ?_) (fun _ _ => by simp)
        rw [hchat] at hchat'
        exact .inl (Option.some.inj hchat' ▸ hrunning)
      · exact h
  | panicked k =>
      simp only [step]
      split
      · exact owned_modify h (fun _ => rfl) (fun _ _ => by simp [ChatPhase.Open])
          (fun _ _ => by simp)
      · exact h
  | cleanedUp k =>
      simp only [step]
      split
      · rename_i requestId signalled hchat
        exact owned_cleanedUp h hchat rfl
      · exact h
  | cancel requestId => exact owned_dispatchCancel h requestId
  | send c => exact owned_sendCancel h c

/-! ## Runs -/

theorem owned_run {events : List Event} (h : Along step Admissible .empty events) :
    Owned (run step .empty events) :=
  run_invariant_along owned_step owned_empty h

/-- Only its own send changes what a cancellation has taken and answered. -/
theorem cancels_step {c : Nat} {task : CancelTask} (s : Dispatcher) (e : Event) (he : e ≠ .send c)
    (h : s.cancels[c]? = some task) : (step s e).cancels[c]? = some task := by
  have hlt : c < s.cancels.length := (List.getElem?_eq_some_iff.mp h).1
  -- Only an answer to a cancellation changes one, and the last of these is for another.
  cases e with
  | chat requestId =>
      simp only [step, dispatchChat]
      split <;> exact h
  | handled k =>
      simp only [step]
      split <;> exact h
  | panicked k =>
      simp only [step]
      split <;> exact h
  | cleanedUp k =>
      simp only [step]
      split <;> exact h
  | cancel requestId =>
      change (s.cancels ++ [_])[c]? = some task
      rw [List.getElem?_append_left hlt]
      exact h
  | send c' =>
      have hne : c' ≠ c := fun heq => he (by rw [heq])
      have hanswer : ∀ (t : Dispatcher) (requested : Bool), t.cancels = s.cancels →
          (t.answerCancel c' requested).cancels[c]? = some task := by
        intro t requested hsame
        change (t.cancels.modify c' _)[c]? = some task
        rw [List.getElem?_modify_ne _ _ hne, hsame]
        exact h
      have hsignal : ∀ k, (s.signal k).2.cancels = s.cancels := by
        intro k
        unfold signal
        split <;> rfl
      simp only [step, sendCancel]
      split
      · exact hanswer _ _ (hsignal _)
      · exact hanswer _ _ rfl
      · exact h

theorem cancels_run {c : Nat} {task : CancelTask} (h : s.cancels[c]? = some task)
    {events : List Event} (hevents : .send c ∉ events) :
    (run step s events).cancels[c]? = some task := by
  apply run_invariant_of (I := fun t : Dispatcher => t.cancels[c]? = some task)
    (C := fun e => e ≠ .send c) cancels_step h
  intro e he heq
  exact hevents (heq ▸ he)

/-- A cancellation signals the chat whose sender it took, if that chat is still running, and answers
accordingly; no other chat is concerned. -/
theorem sendCancel_taken {c k : Nat} {requestId : String}
    (h : s.cancels[c]? = some ⟨requestId, some k, none⟩) :
    (∀ j, j ≠ k → (s.sendCancel c).chats[j]? = s.chats[j]?) ∧
      (s.phaseOf k = some .running →
        (s.sendCancel c).cancels[c]? = some ⟨requestId, some k, some true⟩ ∧
          (s.sendCancel c).chats[k]?.map ChatTask.signalled = some true) := by
  have hsend : s.sendCancel c = (s.signal k).2.answerCancel c (s.signal k).1 := by
    simp only [sendCancel, h]
  rw [hsend]
  refine ⟨fun j hj => ?_, fun hrunning => ?_⟩
  · change (s.signal k).2.chats[j]? = s.chats[j]?
    unfold signal
    split
    · exact List.getElem?_modify_ne _ _ hj.symm
    · rfl
  · obtain ⟨chat, hchat, -⟩ := Option.map_eq_some_iff.mp hrunning
    simp [signal, hrunning, answerCancel, h, hchat]

/-- In every run in which no chat arrives under the identifier of an open chat that was cancelled:
the registry maps the identifier of every open chat that was not cancelled to its own sender. A
cancellation of such a chat concerns no other one, and if the chat is still running when the
signal is sent, the cancellation is answered with `requested` and the chat is signalled. A further
chat under the identifier of a running one is refused. After all chats have ended the registry is
empty, unless a handler has panicked. -/
theorem registry_owned (events : List Event) (hevents : Along step Admissible .empty events) :
    let s := run step .empty events
    (∀ (k : Nat) (chat : ChatTask), s.chats[k]? = some chat → chat.phase.Open →
      ¬ s.Cancelled k → s.pending chat.requestId = some k) ∧
    (∀ (k : Nat) (chat : ChatTask) (between : List Event), s.chats[k]? = some chat →
      chat.phase.Open → ¬ s.Cancelled k → .send s.cancels.length ∉ between →
        let s' := run step (step s (.cancel chat.requestId)) between
        let answered := step s' (.send s.cancels.length)
        (∀ j, j ≠ k → answered.chats[j]? = s'.chats[j]?) ∧
          (s'.phaseOf k = some .running →
            answered.cancels[s.cancels.length]? = some ⟨chat.requestId, some k, some true⟩ ∧
              answered.chats[k]?.map ChatTask.signalled = some true)) ∧
    (∀ (k : Nat) (chat : ChatTask), s.chats[k]? = some chat → chat.phase = .running →
      Admissible s (.chat chat.requestId) →
        step s (.chat chat.requestId) = { s with refused := s.refused ++ [chat.requestId] }) ∧
    ((∀ chat ∈ s.chats, ¬ chat.phase.Open ∧ chat.phase ≠ .panicked) →
      s.pending = fun _ => none) := by
  intro s
  have howned : Owned s := owned_run hevents
  refine ⟨howned.registered, ?_, ?_, ?_⟩
  · intro k chat between hchat hopen hcancelled hunsent s' answered
    apply sendCancel_taken
    -- The cancellation has taken the entry of the chat, and holds it until it is sent.
    have htaken : (step s (.cancel chat.requestId)).cancels[s.cancels.length]? =
        some ⟨chat.requestId, some k, none⟩ := by
      change (s.cancels ++ [_])[s.cancels.length]? = _
      rw [List.getElem?_concat_length, howned.registered k chat hchat hopen hcancelled]
    exact cancels_run htaken hunsent
  · intro k chat hchat hrunning hadmissible
    -- An open chat is registered, so a second one of its identifier is refused.
    have hopen : chat.phase.Open := .inl hrunning
    have hpending := howned.registered k chat hchat hopen (hadmissible k chat hchat rfl hopen)
    simp [step, dispatchChat, hpending]
  · intro hended
    funext requestId
    cases hpending : s.pending requestId with
    | none => rfl
    | some k =>
        obtain ⟨chat, hchat, -, hphase, -⟩ := howned.entry requestId k hpending
        obtain ⟨hclosed, hcalm⟩ := hended chat (List.mem_of_getElem? hchat)
        -- A chat that has neither answered nor panicked is open.
        exfalso
        cases heq : chat.phase with
        | running => exact hclosed (.inl heq)
        | handled => exact hclosed (.inr heq)
        | answered => exact hphase heq
        | panicked => exact hcalm heq

end

theorem admissible_first : Along step Admissible .empty [.chat "request:1"] := by
  refine ⟨fun k chat hchat => ?_, trivial⟩
  simp [Dispatcher.empty] at hchat

/-- A chat that is cancelled while it runs. -/
theorem registry_owned_cancelled :
    (step (step (run step .empty [.chat "request:1"]) (.cancel "request:1"))
      (.send 0)).cancels[0]? = some ⟨"request:1", some 0, some true⟩ :=
  (((registry_owned [.chat "request:1"] admissible_first).2.1 0
    ⟨"request:1", .running, false⟩ [] rfl (by decide) (by decide) (by simp)).2 rfl).1

/-- A chat is cancelled, a second one arrives under the same identifier, and then the first one is
cleaned up. -/
def reusedRun : List Event := [.chat "request:1", .cancel "request:1", .send 0, .chat "request:1",
  .handled 0, .cleanedUp 0]

/-- The cleanup of the first chat has removed the entry of the second, which is still running: a
cancellation does not find it, and a third chat is accepted under its identifier. -/
theorem registry_disowned :
    ¬ ∀ (events : List Event) (k : Nat) (chat : ChatTask),
      let s := run step .empty events
      s.chats[k]? = some chat → chat.phase = .running → ¬ s.Cancelled k →
        s.pending chat.requestId = some k ∧
          (step (step s (.cancel chat.requestId)) (.send s.cancels.length)).cancels[
            s.cancels.length]? = some ⟨chat.requestId, some k, some true⟩ ∧
          (step s (.chat chat.requestId)).chats = s.chats := by
  intro h
  obtain ⟨hpending, -⟩ := h reusedRun 1 ⟨"request:1", .running, false⟩ rfl rfl (by decide)
  exact absurd hpending (by decide)

end Halquen.Service.Cancellation
