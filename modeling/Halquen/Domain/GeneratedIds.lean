import Halquen.Domain.Ids

/-!
# Fresh identifiers

The values from which a fresh identifier is made, and what tells two of them apart. The parts of the
text are separated by colons, and none of them has a colon of its own, so that each part can be read
back (`generatedValue_inj`). The reading of the clock is not one of these parts as it is: a clock
that stands before the epoch reads as the epoch (`before_epoch`). The counter tells identifiers of
one process apart until it starts again (`generated_ids`).
-/

set_option autoImplicit false

namespace Halquen.Domain.GeneratedIds

open Halquen.Domain.Ids

/-! ## The clock -/

/-- Seconds since the epoch, which are negative before it, and the nanoseconds that are to be added
to them. -/
structure SystemTime where
  seconds : Int64
  nanoseconds : Fin 1000000000
  deriving DecidableEq

/-- `duration_since(UNIX_EPOCH)` in nanoseconds. -/
def SystemTime.durationSinceEpoch (now : SystemTime) : Option Nat :=
  if now.seconds.toInt < 0 then none
  else some (now.seconds.toInt.toNat * 1000000000 + now.nanoseconds.val)

/-- The nanoseconds in an identifier. -/
def SystemTime.nanos (now : SystemTime) : Nat := now.durationSinceEpoch.getD 0

theorem SystemTime.nanos_of_neg {now : SystemTime} (h : now.seconds.toInt < 0) :
    now.nanos = 0 := by
  rw [nanos, durationSinceEpoch, if_pos h]
  rfl

theorem SystemTime.nanos_of_nonneg {now : SystemTime} (h : ¬ now.seconds.toInt < 0) :
    now.nanos = now.seconds.toInt.toNat * 1000000000 + now.nanoseconds.val := by
  rw [nanos, durationSinceEpoch, if_neg h]
  rfl

theorem SystemTime.nanos_lt (now : SystemTime) : now.nanos < 2 ^ 128 := by
  by_cases h : now.seconds.toInt < 0
  · rw [nanos_of_neg h]
    exact Nat.two_pow_pos 128
  · have hseconds := now.seconds.toInt_lt
    have hnanoseconds := now.nanoseconds.isLt
    rw [nanos_of_nonneg h]
    omega

/-- What an identifier is made of. -/
def stampAt (processId : Fin (2 ^ 32)) (now : SystemTime) (sequence : Fin (2 ^ 64)) : Stamp where
  processId
  nanos := ⟨now.nanos, now.nanos_lt⟩
  sequence

/-- The clock stands at the epoch or before it. -/
def SystemTime.AtMostEpoch (now : SystemTime) : Prop := now.nanos = 0

/-- Two readings give the same nanoseconds only if they are the same, or neither is past the
epoch. -/
theorem SystemTime.nanos_eq_iff (now now' : SystemTime) :
    now.nanos = now'.nanos ↔ now = now' ∨ (now.AtMostEpoch ∧ now'.AtMostEpoch) := by
  constructor
  · intro h
    by_cases hpast : now.nanos = 0
    · exact .inr ⟨hpast, h.symm.trans hpast⟩
    · have hsign : ¬ now.seconds.toInt < 0 := fun hneg => hpast (nanos_of_neg hneg)
      have hsign' : ¬ now'.seconds.toInt < 0 := fun hneg =>
        hpast (h.trans (nanos_of_neg hneg))
      have hlt := now.nanoseconds.isLt
      have hlt' := now'.nanoseconds.isLt
      rw [nanos_of_nonneg hsign, nanos_of_nonneg hsign'] at h
      have hseconds : now.seconds = now'.seconds := Int64.toInt_inj.mp (by omega)
      have hnanoseconds : now.nanoseconds = now'.nanoseconds := Fin.ext (by omega)
      cases now
      cases now'
      cases hseconds
      cases hnanoseconds
      exact .inl rfl
  · rintro (rfl | ⟨h, h'⟩)
    · rfl
    · exact h.trans h'.symm

/-! ## The text -/

theorem toList_repr_inj {m n : Nat} (h : m.repr.toList = n.repr.toList) : m = n := by
  have hdigits := congrArg (fun digits => Nat.ofDigitChars 10 digits 0) h
  simpa only [Nat.toList_repr, Nat.ofDigitChars_ten_toDigits] using hdigits

theorem colon_notMem_repr (n : Nat) : ':' ∉ n.repr.toList := by
  rw [Nat.toList_repr]
  intro hmem
  exact absurd (Nat.isDigit_of_mem_toDigits (by omega) (by omega) hmem) (by decide)

/-- What stands before the first separator, and what stands behind it. -/
theorem append_cons_inj {α : Type} {sep : α} {front front' back back' : List α}
    (hfront : sep ∉ front) (hfront' : sep ∉ front')
    (h : front ++ sep :: back = front' ++ sep :: back') : front = front' ∧ back = back' := by
  induction front generalizing front' with
  | nil =>
      cases front' with
      | nil => exact ⟨rfl, (List.cons.inj h).2⟩
      | cons first rest' => exact absurd ((List.cons.inj h).1 ▸ List.mem_cons_self) hfront'
  | cons first rest ih =>
      cases front' with
      | nil => exact absurd ((List.cons.inj h).1 ▸ List.mem_cons_self) hfront
      | cons first' rest' =>
          obtain ⟨rfl, htail⟩ := List.cons.inj h
          have hrest := ih (fun hin => hfront (List.mem_cons_of_mem _ hin))
            (fun hin => hfront' (List.mem_cons_of_mem _ hin)) htail
          exact ⟨by rw [hrest.1], hrest.2⟩

/-- Each part of a generated identifier can be read back. -/
theorem generatedValue_inj {tag tag' : String} (htag : ':' ∉ tag.toList) (htag' : ':' ∉ tag'.toList)
    {stamp stamp' : Stamp} (h : generatedValue tag stamp = generatedValue tag' stamp') :
    tag = tag' ∧ stamp = stamp' := by
  have htext := congrArg String.toList h
  simp only [toList_generatedValue, List.append_assoc, List.cons_append] at htext
  obtain ⟨hsame, htext⟩ := append_cons_inj htag htag' htext
  obtain ⟨hprocess, htext⟩ :=
    append_cons_inj (colon_notMem_repr _) (colon_notMem_repr _) htext
  obtain ⟨hnanos, hsequence⟩ :=
    append_cons_inj (colon_notMem_repr _) (colon_notMem_repr _) htext
  have hprocess := Fin.ext (toList_repr_inj hprocess)
  have hnanos := Fin.ext (toList_repr_inj hnanos)
  have hsequence := Fin.ext (toList_repr_inj hsequence)
  refine ⟨String.toList_injective hsame, ?_⟩
  cases stamp
  cases stamp'
  cases hprocess
  cases hnanos
  cases hsequence
  rfl

theorem generatedValue_eq_iff (kind : GeneratedKind) (processId processId' : Fin (2 ^ 32))
    (now now' : SystemTime) (sequence sequence' : Fin (2 ^ 64)) :
    generatedValue kind.tag (stampAt processId now sequence) =
        generatedValue kind.tag (stampAt processId' now' sequence') ↔
      processId = processId' ∧ (now = now' ∨ (now.AtMostEpoch ∧ now'.AtMostEpoch)) ∧
        sequence = sequence' := by
  rw [← SystemTime.nanos_eq_iff]
  constructor
  · intro h
    obtain ⟨-, hstamp⟩ := generatedValue_inj kind.colon_notMem_tag kind.colon_notMem_tag h
    have hnanos := congrArg (fun stamp => stamp.nanos.val) hstamp
    exact ⟨congrArg Stamp.processId hstamp, hnanos, congrArg Stamp.sequence hstamp⟩
  · rintro ⟨rfl, hnanos, rfl⟩
    have hstamp : stampAt processId now sequence = stampAt processId now' sequence := by
      unfold stampAt
      simp only [hnanos]
    rw [hstamp]

/-! ## The way back -/

/-- Messages of the validators. -/
def IdError.message : IdError → String
  | .empty => "identifier cannot be empty"
  | .tooLong => "identifier exceeds " ++ maxIdLen.repr ++ " bytes"
  | .invalidCharacter => "identifier contains an unsupported character"
  | .invalidCapabilityFormat =>
      "capability identifier must use lowercase namespace.operation segments"

/-- An identifier is written as its text, and read through the constructor. -/
def deserialize (kind : IdKind) (value : String) : Except String (TypedId kind) :=
  (TypedId.new kind value).mapError IdError.message

theorem deserialize_asStr {kind : IdKind} (id : TypedId kind) :
    deserialize kind id.asStr = .ok id := by
  rw [deserialize, TypedId.new_asStr]
  rfl

/-! ## Identifiers of one process -/

/-- A call of `generate`: the type of the identifier and the clock at that moment. -/
structure Call where
  kind : GeneratedKind
  now : SystemTime

/-- `COUNTER.fetch_add(1)` after so many calls. -/
def fetchAdd (counter : Nat) : Fin (2 ^ 64) := ⟨counter % 2 ^ 64, Nat.mod_lt _ (Nat.two_pow_pos 64)⟩

/-- The texts that a process generates, after so many calls before them. -/
def generateAll (processId : Fin (2 ^ 32)) : Nat → List Call → List String
  | _, [] => []
  | counter, call :: calls =>
      generatedValue call.kind.tag (stampAt processId call.now (fetchAdd counter)) ::
        generateAll processId (counter + 1) calls

theorem mem_generateAll {processId : Fin (2 ^ 32)} {counter : Nat} {calls : List Call}
    {text : String} (h : text ∈ generateAll processId counter calls) :
    ∃ call : Call, ∃ later, counter ≤ later ∧ later < counter + calls.length ∧
      text = generatedValue call.kind.tag (stampAt processId call.now (fetchAdd later)) := by
  induction calls generalizing counter with
  | nil => cases h
  | cons call calls ih =>
      rcases List.mem_cons.mp h with rfl | hrest
      · exact ⟨call, counter, Nat.le_refl _, by rw [List.length_cons]; omega, rfl⟩
      · obtain ⟨call', later, hle, hlt, htext⟩ := ih hrest
        exact ⟨call', later, by omega, by rw [List.length_cons]; omega, htext⟩

/-- As long as the counter has not come round, no text is generated twice. -/
theorem nodup_generateAll (processId : Fin (2 ^ 32)) (counter : Nat) (calls : List Call)
    (hlength : calls.length ≤ 2 ^ 64) : (generateAll processId counter calls).Nodup := by
  induction calls generalizing counter with
  | nil => exact List.nodup_nil
  | cons call calls ih =>
      rw [List.length_cons] at hlength
      apply List.nodup_cons.mpr
      refine ⟨fun hin => ?_, ih _ (by omega)⟩
      obtain ⟨call', later, hle, hlt, htext⟩ := mem_generateAll hin
      obtain ⟨-, hstamp⟩ :=
        generatedValue_inj call.kind.colon_notMem_tag call'.kind.colon_notMem_tag htext
      have hsequence : counter % 2 ^ 64 = later % 2 ^ 64 :=
        congrArg (fun stamp => stamp.sequence.val) hstamp
      omega

/-- What the source relies on where it takes a fresh identifier. -/
theorem generated_ids :
    (∀ kind processId now sequence,
      let text := generatedValue kind.tag (stampAt processId now sequence)
      validateOpaque text = .ok () ∧
        (∃ id, TypedId.new (.generated kind) text = .ok id ∧
          deserialize (.generated kind) text = .ok id ∧ id.asStr = text)) ∧
    (∀ (kind : GeneratedKind) processId processId' now now' sequence sequence',
      generatedValue kind.tag (stampAt processId now sequence) =
          generatedValue kind.tag (stampAt processId' now' sequence') →
        processId = processId' ∧ (now = now' ∨ (now.AtMostEpoch ∧ now'.AtMostEpoch)) ∧
          sequence = sequence') ∧
    ∀ processId counter calls, calls.length ≤ 2 ^ 64 →
      (generateAll processId counter calls).Nodup := by
  refine ⟨fun kind processId now sequence => ?_, ?_, nodup_generateAll⟩
  · let id := TypedId.generate kind (stampAt processId now sequence)
    exact ⟨kind.validate_generatedValue _, id, TypedId.new_asStr id, deserialize_asStr id, rfl⟩
  · intro kind processId processId' now now' sequence sequence' h
    exact (generatedValue_eq_iff kind processId processId' now now' sequence sequence').mp h

/-- A second and two seconds before the epoch. -/
def beforeEpoch (seconds : Int64) : SystemTime := ⟨-seconds, 0⟩

/-- Different readings before the epoch are not told apart. -/
theorem before_epoch : ¬ ∀ (kind : GeneratedKind) processId processId' now now' sequence sequence',
    generatedValue kind.tag (stampAt processId now sequence) =
        generatedValue kind.tag (stampAt processId' now' sequence') →
      processId = processId' ∧ now = now' ∧ sequence = sequence' := by
  intro h
  have hsame := (h .audit 1 1 (beforeEpoch 1) (beforeEpoch 2) 0 0 (by decide)).2.1
  exact absurd hsame (by decide)

/-- The counter tells them apart. -/
theorem generated_ids_beforeEpoch :
    (generateAll 1 0 [⟨.audit, beforeEpoch 1⟩, ⟨.audit, beforeEpoch 2⟩]).Nodup ∧
      (beforeEpoch 1 = beforeEpoch 2 ∨
        ((beforeEpoch 1).AtMostEpoch ∧ (beforeEpoch 2).AtMostEpoch)) :=
  ⟨generated_ids.2.2 1 0 [⟨.audit, beforeEpoch 1⟩, ⟨.audit, beforeEpoch 2⟩] (by decide),
    (generated_ids.2.1 .audit 1 1 (beforeEpoch 1) (beforeEpoch 2) 0 0 (by decide)).2.1⟩

end Halquen.Domain.GeneratedIds
