import Mathlib.Algebra.Group.Int.Defs
import Mathlib.Algebra.GroupWithZero.Nat
import Mathlib.Data.List.Basic

/-!
# Typed identifiers

Every identifier of the domain is a wrapper around a validated string. `TypedId` carries the
result of its validator as a field, so an identifier that the constructor of the source would
reject cannot be built. Generated identifiers are built without a call to the validator in the
source; they are valid all the same (`validateOpaque_generatedValue`), and this is what
`TypedId.generate` relies on.

A capability identifier contains no `:` (`colon_notMem_capabilityId`), while every generated
identifier does (`colon_mem_generatedValue`), so no capability is ever mistaken for a generated
subject of the audit trail.
-/

set_option autoImplicit false

namespace Halquen.Domain.Ids

/-- Reasons for which an identifier is rejected. -/
inductive IdError where
  | empty
  | tooLong
  | invalidCharacter
  | invalidCapabilityFormat
  deriving DecidableEq, Repr

/-- Longest identifier, in bytes. -/
def maxIdLen : Nat := 128

/-- Characters of an identifier. All of them are ASCII, so the byte test of the source and this
character test accept the same strings. -/
def isOpaqueChar (c : Char) : Bool :=
  c.isAlphanum || c == ':' || c == '.' || c == '_' || c == '-'

/-- Check made of every identifier. -/
def validateOpaque (value : String) : Except IdError Unit :=
  if value = "" then
    .error .empty
  else if maxIdLen < value.utf8ByteSize then
    .error .tooLong
  else if value.toList.all isOpaqueChar then
    .ok ()
  else
    .error .invalidCharacter

/-- A lowercase letter, then lowercase letters, digits and underscores. -/
def validCapabilitySegment : List Char → Bool
  | [] => false
  | c :: cs => c.isLower && cs.all fun d => d.isLower || d.isDigit || d == '_'

/-- Check made of capability identifiers: at least two valid segments separated by dots. -/
def validateCapability (value : String) : Except IdError Unit := do
  validateOpaque value
  match value.toList.splitOn '.' with
  | scope :: operation :: segments =>
      if validCapabilitySegment scope && validCapabilitySegment operation
          && segments.all validCapabilitySegment then
        .ok ()
      else
        .error .invalidCapabilityFormat
  | _ => .error .invalidCapabilityFormat

/-- Identifier types for which the program generates fresh values. -/
inductive GeneratedKind where
  | execution | event | memory | memoryRevision | evidence | proposal | correction | unknownCase
  | audit | activity | cacheEntry | chatMessage | chatSession | model | provider | permission
  | resourceLabel | agent | agentInstance | agentSession | daemonSession | behaviourEvent
  deriving DecidableEq, Repr

/-- Leading word of the generated identifiers of a type. -/
def GeneratedKind.tag : GeneratedKind → String
  | .execution => "execution"
  | .event => "event"
  | .memory => "memory"
  | .memoryRevision => "revision"
  | .evidence => "evidence"
  | .proposal => "proposal"
  | .correction => "correction"
  | .unknownCase => "unknown"
  | .audit => "audit"
  | .activity => "activity"
  | .cacheEntry => "cache"
  | .chatMessage => "message"
  | .chatSession => "session"
  | .model => "model"
  | .provider => "provider"
  | .permission => "permission"
  | .resourceLabel => "resource-label"
  | .agent => "agent"
  | .agentInstance => "agent-instance"
  | .agentSession => "agent-session"
  | .daemonSession => "daemon-session"
  | .behaviourEvent => "behaviour"

/-- The identifier types of the domain. -/
inductive IdKind where
  | capability
  | entity
  | generated (kind : GeneratedKind)
  deriving DecidableEq, Repr

/-- Validator of an identifier type. -/
def IdKind.validate : IdKind → String → Except IdError Unit
  | .capability => validateCapability
  | .entity => validateOpaque
  | .generated _ => validateOpaque

/-- An identifier: a string together with the fact that its validator accepts it. -/
structure TypedId (kind : IdKind) where
  asStr : String
  valid : kind.validate asStr = .ok ()

@[ext]
theorem TypedId.ext {kind : IdKind} {a b : TypedId kind} (h : a.asStr = b.asStr) : a = b := by
  cases a
  cases b
  cases h
  rfl

instance {kind : IdKind} : DecidableEq (TypedId kind) := fun a b =>
  decidable_of_iff (a.asStr = b.asStr) ⟨TypedId.ext, congrArg TypedId.asStr⟩

/-- Constructor of an identifier from text. -/
def TypedId.new (kind : IdKind) (value : String) : Except IdError (TypedId kind) :=
  match h : kind.validate value with
  | .ok () => .ok ⟨value, h⟩
  | .error e => .error e

/-- Reading an identifier back from its own text succeeds. -/
@[simp]
theorem TypedId.new_asStr {kind : IdKind} (id : TypedId kind) :
    TypedId.new kind id.asStr = .ok id := by
  unfold TypedId.new
  split
  · rfl
  · rename_i e h
    rw [id.valid] at h
    cases h

theorem TypedId.asStr_of_new {kind : IdKind} {value : String} {id : TypedId kind}
    (h : TypedId.new kind value = .ok id) : id.asStr = value := by
  unfold TypedId.new at h
  split at h
  · cases h
    rfl
  · cases h

/-- The identifier of an application that examples name. -/
theorem validate_telegram : IdKind.entity.validate "app:telegram" = .ok () := by decide

abbrev CapabilityId := TypedId .capability
abbrev EntityId := TypedId .entity
abbrev EventId := TypedId (.generated .event)
abbrev ExecutionId := TypedId (.generated .execution)
abbrev MemoryId := TypedId (.generated .memory)
abbrev MemoryRevisionId := TypedId (.generated .memoryRevision)
abbrev EvidenceId := TypedId (.generated .evidence)
abbrev ProposalId := TypedId (.generated .proposal)
abbrev CorrectionId := TypedId (.generated .correction)
abbrev AuditId := TypedId (.generated .audit)
abbrev ActivityId := TypedId (.generated .activity)
abbrev CacheEntryId := TypedId (.generated .cacheEntry)
abbrev ChatMessageId := TypedId (.generated .chatMessage)
abbrev ChatSessionId := TypedId (.generated .chatSession)
abbrev ModelId := TypedId (.generated .model)
abbrev ProviderId := TypedId (.generated .provider)
abbrev PermissionId := TypedId (.generated .permission)
abbrev ResourceLabelId := TypedId (.generated .resourceLabel)
abbrev AgentId := TypedId (.generated .agent)
abbrev AgentInstanceId := TypedId (.generated .agentInstance)
abbrev AgentSessionId := TypedId (.generated .agentSession)
abbrev DaemonSessionId := TypedId (.generated .daemonSession)
abbrev BehaviourEventId := TypedId (.generated .behaviourEvent)

/-! ## Letters of ASCII -/

theorem isUpper_iff {c : Char} : c.isUpper = true ↔ 65 ≤ c.toNat ∧ c.toNat ≤ 90 := by
  have hbounds : c.isUpper = true ↔ 'A'.val ≤ c.val ∧ c.val ≤ 'Z'.val := decide_eq_true_iff
  rw [hbounds, UInt32.le_iff_toNat_le, UInt32.le_iff_toNat_le]
  exact Iff.rfl

theorem isLower_iff {c : Char} : c.isLower = true ↔ 97 ≤ c.toNat ∧ c.toNat ≤ 122 := by
  have hbounds : c.isLower = true ↔ 'a'.val ≤ c.val ∧ c.val ≤ 'z'.val := by
    change (decide ('a'.val ≤ c.val) && decide (c.val ≤ 'z'.val)) = true ↔ _
    rw [Bool.and_eq_true, decide_eq_true_iff, decide_eq_true_iff]
  rw [hbounds, UInt32.le_iff_toNat_le, UInt32.le_iff_toNat_le]
  exact Iff.rfl

theorem isAlphanum_iff {c : Char} :
    c.isAlphanum = true ↔ c.isUpper = true ∨ c.isLower = true ∨ c.isDigit = true := by
  change ((c.isUpper || c.isLower) || c.isDigit) = true ↔ _
  rw [Bool.or_eq_true, Bool.or_eq_true, or_assoc]

theorem not_isUpper_of_isLower {c : Char} (h : c.isLower = true) : c.isUpper = false := by
  obtain ⟨hfirst, -⟩ := isLower_iff.mp h
  rw [← Bool.not_eq_true, isUpper_iff]
  omega

/-- The lower case of ASCII leaves everything but the capital letters alone. -/
theorem toLower_eq {c : Char} (h : c.isUpper = false) : c.toLower = c := by
  unfold Char.toLower
  exact dif_neg (decide_eq_false_iff_not.mp h)

/-! ## Validity of identifier text -/

theorem validateOpaque_eq_ok_iff (value : String) :
    validateOpaque value = .ok () ↔
      value ≠ "" ∧ value.utf8ByteSize ≤ maxIdLen ∧ value.toList.all isOpaqueChar = true := by
  unfold validateOpaque
  split
  · simp_all
  · split
    · rename_i h
      simp only [reduceCtorEq, false_iff]
      rintro ⟨-, hle, -⟩
      omega
    · split <;> simp_all

/-- A capability identifier is an identifier whose dot-separated segments are all valid. -/
theorem validateCapability_segments {value : String} (h : validateCapability value = .ok ()) :
    ∀ segment ∈ value.toList.splitOn '.', validCapabilitySegment segment = true := by
  unfold validateCapability at h
  cases hv : validateOpaque value with
  | error e =>
      rw [hv] at h
      cases h
  | ok u =>
      rw [hv] at h
      change (match value.toList.splitOn '.' with
        | «namespace» :: operation :: segments => _
        | _ => _) = _ at h
      split at h
      · rename_i first second rest heq
        split at h
        · rename_i hseg
          simp only [Bool.and_eq_true, List.all_eq_true] at hseg
          rw [heq]
          intro segment hmem
          rcases List.mem_cons.mp hmem with rfl | hmem
          · exact hseg.1.1
          · rcases List.mem_cons.mp hmem with rfl | hmem
            · exact hseg.1.2
            · exact hseg.2 segment hmem
        · cases h
      · cases h

theorem colon_notMem_of_validSegment {segment : List Char}
    (h : validCapabilitySegment segment = true) : ':' ∉ segment := by
  cases segment with
  | nil => simp
  | cons c cs =>
      simp only [validCapabilitySegment, Bool.and_eq_true, List.all_eq_true] at h
      intro hmem
      rcases List.mem_cons.mp hmem with rfl | hmem
      · exact absurd h.1 (by decide)
      · exact absurd (h.2 _ hmem) (by decide)

theorem mem_intercalate_singleton {α : Type} {x sep : α} :
    ∀ {pieces : List (List α)}, x ∈ [sep].intercalate pieces → x = sep ∨ ∃ p ∈ pieces, x ∈ p
  | [], h => by simp at h
  | [piece], h => by
      rw [List.intercalate_singleton] at h
      exact .inr ⟨piece, by simp, h⟩
  | piece :: next :: rest, h => by
      rw [List.intercalate_cons_cons] at h
      rcases List.mem_append.mp h with h | h
      · rcases List.mem_append.mp h with h | h
        · exact .inr ⟨piece, by simp, h⟩
        · exact .inl (List.mem_singleton.mp h)
      · rcases mem_intercalate_singleton h with h | ⟨p, hp, hx⟩
        · exact .inl h
        · exact .inr ⟨p, List.mem_cons_of_mem _ hp, hx⟩

/-- No capability identifier contains a colon. -/
theorem colon_notMem_capabilityId (id : CapabilityId) : ':' ∉ id.asStr.toList := by
  have hseg := validateCapability_segments id.valid
  have hpieces : ['.'].intercalate (id.asStr.toList.splitOn '.') = id.asStr.toList :=
    List.intercalate_splitOn '.'
  intro hmem
  rw [← hpieces] at hmem
  rcases mem_intercalate_singleton hmem with h | ⟨piece, hpiece, hcolon⟩
  · exact absurd h (by decide)
  · exact colon_notMem_of_validSegment (hseg piece hpiece) hcolon

/-! ## Generated identifiers -/

instance neZeroProcessIds : NeZero (2 ^ 32) := ⟨by decide⟩

instance neZeroNanos : NeZero (2 ^ 128) := ⟨by decide⟩

instance neZeroSequences : NeZero (2 ^ 64) := ⟨by decide⟩

/-- What a generated identifier is made of: the process identifier, the nanoseconds since the
epoch and the value of the process-wide counter, in the widths of the source. -/
structure Stamp where
  processId : Fin (2 ^ 32)
  nanos : Fin (2 ^ 128)
  sequence : Fin (2 ^ 64)
  deriving DecidableEq, Repr

/-- Text of a generated identifier. -/
def generatedValue (tag : String) (stamp : Stamp) : String :=
  tag ++ ":" ++ stamp.processId.val.repr ++ ":" ++ stamp.nanos.val.repr ++ ":"
    ++ stamp.sequence.val.repr

theorem utf8Size_of_isOpaqueChar {c : Char} (h : isOpaqueChar c = true) : c.utf8Size = 1 := by
  have hval : c.toNat = c.val.toNat := rfl
  have h9 : '9'.val.toNat = 57 := rfl
  have hm : (127 : UInt32).toNat = 127 := rfl
  simp only [isOpaqueChar, Bool.or_eq_true, isAlphanum_iff, isUpper_iff, isLower_iff,
    Char.isDigit, Bool.and_eq_true, decide_eq_true_eq, beq_iff_eq, UInt32.le_iff_toNat_le,
    ge_iff_le] at h
  rw [Char.utf8Size_eq_one_iff, UInt32.le_iff_toNat_le]
  rcases h with (((h | rfl) | rfl) | rfl) | rfl
  · omega
  all_goals decide

theorem utf8ByteSize_of_all_opaque (cs : List Char) (h : cs.all isOpaqueChar = true) :
    (String.ofList cs).utf8ByteSize = cs.length := by
  induction cs with
  | nil => rfl
  | cons c cs ih =>
      rw [List.all_cons, Bool.and_eq_true] at h
      rw [String.ofList_cons, String.utf8ByteSize_append, String.utf8ByteSize_singleton,
        utf8Size_of_isOpaqueChar h.1, ih h.2, List.length_cons, Nat.add_comm]

theorem all_opaque_repr (n : Nat) : n.repr.toList.all isOpaqueChar = true := by
  rw [Nat.toList_repr, List.all_eq_true]
  intro c hc
  have hd : c.isDigit = true := Nat.isDigit_of_mem_toDigits (by omega) (by omega) hc
  simp [isOpaqueChar, Char.isAlphanum, hd]

theorem length_toList_repr_le {n k : Nat} (hk : 0 < k) (h : n < 10 ^ k) :
    n.repr.toList.length ≤ k := by
  rw [String.length_toList]
  exact (Nat.length_repr_le_iff hk).mpr h

/-- The characters of a generated identifier are those of its parts. -/
theorem toList_generatedValue (tag : String) (stamp : Stamp) :
    (generatedValue tag stamp).toList =
      tag.toList ++ ':' :: stamp.processId.val.repr.toList ++ ':' :: stamp.nanos.val.repr.toList
        ++ ':' :: stamp.sequence.val.repr.toList := by
  simp [generatedValue, String.toList_append]

theorem colon_mem_generatedValue (tag : String) (stamp : Stamp) :
    ':' ∈ (generatedValue tag stamp).toList := by
  simp [toList_generatedValue]

/-- A generated identifier passes the check made of identifiers, as long as its leading word does
and is short enough. -/
theorem validateOpaque_generatedValue (tag : String) (stamp : Stamp)
    (htag : tag.toList.all isOpaqueChar = true) (hlen : tag.toList.length ≤ 32) :
    validateOpaque (generatedValue tag stamp) = .ok () := by
  have hall : (generatedValue tag stamp).toList.all isOpaqueChar = true := by
    have hcolon : isOpaqueChar ':' = true := by decide
    simp only [toList_generatedValue, List.all_append, List.all_cons, htag, hcolon,
      all_opaque_repr, Bool.and_self]
  have hbytes : (generatedValue tag stamp).utf8ByteSize
      = (generatedValue tag stamp).toList.length := by
    rw [← utf8ByteSize_of_all_opaque _ hall, String.ofList_toList]
  have hp : stamp.processId.val.repr.toList.length ≤ 10 :=
    length_toList_repr_le (by omega) (Nat.lt_trans stamp.processId.isLt (by decide))
  have hn : stamp.nanos.val.repr.toList.length ≤ 39 :=
    length_toList_repr_le (by omega) (Nat.lt_trans stamp.nanos.isLt (by decide))
  have hs : stamp.sequence.val.repr.toList.length ≤ 20 :=
    length_toList_repr_le (by omega) (Nat.lt_trans stamp.sequence.isLt (by decide))
  rw [validateOpaque_eq_ok_iff]
  refine ⟨?_, ?_, hall⟩
  · intro hempty
    have hmem := colon_mem_generatedValue tag stamp
    rw [hempty] at hmem
    simp at hmem
  · rw [hbytes, toList_generatedValue]
    simp only [List.length_append, List.length_cons, maxIdLen]
    omega

theorem GeneratedKind.validate_generatedValue (kind : GeneratedKind) (stamp : Stamp) :
    (IdKind.generated kind).validate (generatedValue kind.tag stamp) = .ok () := by
  apply validateOpaque_generatedValue
  · cases kind <;> decide
  · cases kind <;> decide

/-- Fresh identifier of a type. -/
def TypedId.generate (kind : GeneratedKind) (stamp : Stamp) : TypedId (.generated kind) :=
  ⟨generatedValue kind.tag stamp, kind.validate_generatedValue stamp⟩

@[simp]
theorem TypedId.asStr_generate (kind : GeneratedKind) (stamp : Stamp) :
    (TypedId.generate kind stamp).asStr = generatedValue kind.tag stamp := rfl

theorem GeneratedKind.colon_notMem_tag (kind : GeneratedKind) : ':' ∉ kind.tag.toList := by
  cases kind <;> decide

/-- The leading word of a generated identifier ends at its first colon. -/
theorem takeWhile_generatedValue (kind : GeneratedKind) (stamp : Stamp) :
    (generatedValue kind.tag stamp).toList.takeWhile (· != ':') = kind.tag.toList := by
  rw [toList_generatedValue, List.append_assoc, List.append_assoc, List.cons_append,
    List.takeWhile_append_of_pos]
  · simp
  · intro c hc
    rw [bne_iff_ne]
    rintro rfl
    exact kind.colon_notMem_tag hc

/-- Identifiers of types with different leading words are different texts. -/
theorem TypedId.asStr_generate_ne {kind kind' : GeneratedKind} (h : kind.tag ≠ kind'.tag)
    (stamp stamp' : Stamp) :
    (TypedId.generate kind stamp).asStr ≠ (TypedId.generate kind' stamp').asStr := by
  intro heq
  have htags := congrArg (fun text : String => text.toList.takeWhile (· != ':')) heq
  simp only [asStr_generate, takeWhile_generatedValue] at htags
  exact h (String.toList_injective htags)

/-- No capability identifier is the text of a generated identifier. -/
theorem capabilityId_ne_generate (id : CapabilityId) (kind : GeneratedKind) (stamp : Stamp) :
    id.asStr ≠ (TypedId.generate kind stamp).asStr := by
  intro heq
  refine colon_notMem_capabilityId id ?_
  rw [heq]
  exact colon_mem_generatedValue kind.tag stamp

end Halquen.Domain.Ids
