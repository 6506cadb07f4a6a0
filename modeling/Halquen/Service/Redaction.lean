import Halquen.Domain.Capability
import Halquen.Library.Words
import Mathlib.Data.List.Infix

/-!
# Redaction of log texts

Before a text is logged, its tokens are looked at in order and credentials are replaced. A token of
a sensitive kind is replaced itself, and announces how many of the next tokens are values: two after
an authorization header, one after a bearer scheme. A key with a colon or an equals sign at its end
announces nothing, so a value that stands apart from its key is logged (`redact_iff`).
-/

set_option autoImplicit false

namespace Halquen.Service.Redaction

open Halquen.Domain.Capability Halquen.Library.Words

abbrev Token := List Char

/-- `split_whitespace`. -/
def splitWhitespace (value : String) : List Token := words isWhiteSpace value.toList

/-- `to_ascii_lowercase`. -/
def toAsciiLowercase (token : Token) : Token := token.map Char.toLower

/-- The token has the part in it. -/
def contains (token : Token) (part : String) : Bool := decide (part.toList <:+: token)

/-- `token.len()`, in bytes. -/
def byteLength (token : Token) : Nat := (String.ofList token).utf8ByteSize

/-- What stands for a secret. -/
def redactedMark : Token := "[REDACTED]".toList

/-- What stands for a long secret. -/
def oversizedMark : Token := "[OVERSIZED_REDACTED]".toList

/-- The token announces a bearer token. -/
def isBearer (lower : Token) : Bool := lower == "bearer".toList

/-- The token is itself to be hidden. -/
def isSensitive (lower : Token) : Bool :=
  contains lower "api_key" || contains lower "apikey" || contains lower "password"
    || contains lower "authorization" || isBearer lower

/-- The loop over the tokens, with the number of values that are announced. -/
def redactTokens : Nat → List Token → List Token
  | _, [] => []
  | redactNext, token :: rest =>
      let lower := toAsciiLowercase token
      if decide (0 < redactNext) || isSensitive lower then
        let announced := if contains lower "authorization" then 2
          else if isBearer lower then 1 else redactNext - 1
        redactedMark :: redactTokens announced rest
      else if 256 < byteLength token then oversizedMark :: redactTokens redactNext rest
      else token :: redactTokens redactNext rest

/-- `redact`: every word of a text is shown or hidden. -/
def redact (value : String) : String :=
  .ofList ([' '].intercalate (redactTokens 0 (splitWhitespace value)))

/-! ## What is to be replaced -/

/-- The token names the header. -/
def Authorization (token : Token) : Prop :=
  contains (toAsciiLowercase token) "authorization" = true

/-- The token is the word before a bearer token. -/
def Bearer (token : Token) : Prop := isBearer (toAsciiLowercase token) = true

/-- The name of a credential, with a colon or an equals sign at the end. -/
def OpenKey (token : Token) : Prop :=
  (∃ name ∈ ["password", "api_key", "apikey", "authorization"],
    contains (toAsciiLowercase token) name = true) ∧
      (token.getLast? = some ':' ∨ token.getLast? = some '=')

/-- What is replaced, given the tokens before it, the nearest one first. -/
def Reached (earlier : List Token) (token : Token) : Prop :=
  isSensitive (toAsciiLowercase token) = true ∨ (∃ previous ∈ earlier.head?, Bearer previous) ∨
    (∃ previous ∈ earlier.take 2, Authorization previous) ∨ 256 < byteLength token

/-- The value of an open key. -/
def AfterKey (earlier : List Token) : Prop := ∃ previous ∈ earlier.head?, OpenKey previous

/-- What is to be replaced. -/
def Due (earlier : List Token) (token : Token) : Prop := Reached earlier token ∨ AfterKey earlier

/-- The two marks. -/
def marks : List Token := [redactedMark, oversizedMark]

/-- Every token that is due is replaced, every other one is kept in its place, and there is nothing
left to be redacted. -/
structure Redacted (text : String) : Prop where
  length : (splitWhitespace (redact text)).length = (splitWhitespace text).length
  replaced : ∀ before token after, splitWhitespace text = before ++ token :: after →
    Due before.reverse token →
      ∃ mark ∈ marks, (splitWhitespace (redact text))[before.length]? = some mark
  kept : ∀ before token after, splitWhitespace text = before ++ token :: after →
    ¬ Due before.reverse token → (splitWhitespace (redact text))[before.length]? = some token
  idempotent : redact (redact text) = redact text

/-- The value of an open key is replaced for another reason, or is a mark already. -/
def Covered (text : String) : Prop :=
  ∀ before token after, splitWhitespace text = before ++ token :: after →
    AfterKey before.reverse → Reached before.reverse token ∨ token ∈ marks

/-! ## The counter -/

/-- The number of announced values after some tokens, the nearest one first. -/
def pending : List Token → Nat
  | [] => 0
  | previous :: earlier =>
      if contains (toAsciiLowercase previous) "authorization" then 2
      else if isBearer (toAsciiLowercase previous) then 1
      else if earlier.head?.any fun token => contains (toAsciiLowercase token) "authorization"
      then 1 else 0

theorem pending_cons (token : Token) (earlier : List Token) :
    pending (token :: earlier) =
      if contains (toAsciiLowercase token) "authorization" then 2
      else if isBearer (toAsciiLowercase token) then 1 else pending earlier - 1 := by
  have hrest : (if earlier.head?.any fun token => contains (toAsciiLowercase token) "authorization"
      then 1 else 0) = pending earlier - 1 := by
    cases earlier with
    | nil => rfl
    | cons previous earlier =>
        rw [List.head?_cons, Option.any_some, pending]
        split
        · rfl
        · split
          · rfl
          · split <;> rfl
  rw [pending, hrest]

theorem pending_pos_iff (earlier : List Token) :
    0 < pending earlier ↔ (∃ previous ∈ earlier.head?, Bearer previous) ∨
      ∃ previous ∈ earlier.take 2, Authorization previous := by
  unfold Bearer Authorization
  cases earlier with
  | nil => simp [pending]
  | cons previous earlier =>
      rw [pending]
      cases hauthorization : contains (toAsciiLowercase previous) "authorization" with
      | true => simp [hauthorization]
      | false =>
          cases hbearer : isBearer (toAsciiLowercase previous) with
          | true => simp [hbearer]
          | false =>
              cases earlier with
              | nil => simp [hauthorization, hbearer]
              | cons second earlier =>
                  cases hsecond : contains (toAsciiLowercase second) "authorization" <;>
                    simp [hauthorization, hbearer, hsecond]

/-- What becomes of a token. -/
def outcome (earlier : List Token) (token : Token) : Token :=
  if decide (0 < pending earlier) || isSensitive (toAsciiLowercase token) then redactedMark
  else if 256 < byteLength token then oversizedMark
  else token

theorem redactTokens_cons (earlier : List Token) (token : Token) (rest : List Token) :
    redactTokens (pending earlier) (token :: rest) =
      outcome earlier token :: redactTokens (pending (token :: earlier)) rest := by
  rw [pending_cons, redactTokens, outcome]
  by_cases h : decide (0 < pending earlier) || isSensitive (toAsciiLowercase token)
  · rw [if_pos h, if_pos h]
  · -- Nothing is announced, and the token announces nothing.
    have hnone : pending earlier = 0 ∧
        contains (toAsciiLowercase token) "authorization" = false ∧
          isBearer (toAsciiLowercase token) = false := by
      simp only [isSensitive, Bool.or_eq_true, decide_eq_true_eq, not_or, Bool.not_eq_true] at h
      exact ⟨by omega, h.2.1.2, h.2.2⟩
    obtain ⟨hzero, hauthorization, hbearer⟩ := hnone
    rw [if_neg h, if_neg h, hzero, hauthorization, hbearer]
    split <;> rfl

theorem redactTokens_split (earlier before : List Token) (token : Token) (after : List Token) :
    redactTokens (pending earlier) (before ++ token :: after) =
      redactTokens (pending earlier) before ++ outcome (before.reverse ++ earlier) token ::
        redactTokens (pending (token :: (before.reverse ++ earlier))) after := by
  induction before generalizing earlier with
  | nil => exact redactTokens_cons earlier token after
  | cons first before ih =>
      rw [List.cons_append, redactTokens_cons, redactTokens_cons, ih, List.reverse_cons,
        List.append_assoc, List.singleton_append, List.cons_append]

theorem length_redactTokens (redactNext : Nat) (tokens : List Token) :
    (redactTokens redactNext tokens).length = tokens.length := by
  induction tokens generalizing redactNext with
  | nil => rfl
  | cons token tokens ih =>
      rw [redactTokens]
      split
      · rw [List.length_cons, ih, List.length_cons]
      · split
        · rw [List.length_cons, ih, List.length_cons]
        · rw [List.length_cons, ih, List.length_cons]

theorem outcome_of_reached {earlier : List Token} {token : Token} (h : Reached earlier token) :
    outcome earlier token ∈ marks := by
  unfold outcome
  split
  · exact List.mem_cons_self
  · rename_i hquiet
    rw [Bool.or_eq_true, decide_eq_true_eq, pending_pos_iff, not_or, not_or] at hquiet
    rcases h with hsensitive | hbearer | hauthorization | hlong
    · exact absurd hsensitive hquiet.2
    · exact absurd hbearer hquiet.1.1
    · exact absurd hauthorization hquiet.1.2
    · rw [if_pos hlong]
      exact List.mem_cons_of_mem _ List.mem_cons_self

theorem outcome_of_not_reached {earlier : List Token} {token : Token}
    (h : ¬ Reached earlier token) : outcome earlier token = token := by
  unfold Reached at h
  rw [not_or, ← or_assoc, not_or, ← pending_pos_iff] at h
  obtain ⟨hquiet, hnone, hshort⟩ := h
  have hkeep : ¬ (decide (0 < pending earlier) || isSensitive (toAsciiLowercase token)) := by
    rw [Bool.or_eq_true, decide_eq_true_eq]
    exact not_or.mpr ⟨hnone, hquiet⟩
  rw [outcome, if_neg hkeep, if_neg hshort]

/-! ## The text that is logged -/

/-- A token in the output is short and not sensitive. -/
theorem settled_of_mem {out : Token} {redactNext : Nat} {tokens : List Token}
    (h : out ∈ redactTokens redactNext tokens) :
    isSensitive (toAsciiLowercase out) = false ∧ ¬ 256 < byteLength out ∧
      (out ∈ marks ∨ out ∈ tokens) := by
  have hmarks : ∀ mark ∈ marks,
      isSensitive (toAsciiLowercase mark) = false ∧ ¬ 256 < byteLength mark := by decide
  induction tokens generalizing redactNext with
  | nil => cases h
  | cons token tokens ih =>
      have hmark : ∀ mark ∈ marks, isSensitive (toAsciiLowercase mark) = false ∧
          ¬ 256 < byteLength mark ∧ (mark ∈ marks ∨ mark ∈ token :: tokens) := fun mark hin =>
        ⟨(hmarks mark hin).1, (hmarks mark hin).2, .inl hin⟩
      have hlater : ∀ announced, out ∈ redactTokens announced tokens →
          isSensitive (toAsciiLowercase out) = false ∧ ¬ 256 < byteLength out ∧
            (out ∈ marks ∨ out ∈ token :: tokens) := fun announced hin =>
        have hout := ih hin
        ⟨hout.1, hout.2.1, hout.2.2.imp_right (List.mem_cons_of_mem token)⟩
      -- The three branches of the loop: a secret, a token that is too long, and a token that is
      -- kept.
      rw [redactTokens] at h
      split at h
      · rcases List.mem_cons.mp h with rfl | hin
        · exact hmark _ List.mem_cons_self
        · exact hlater _ hin
      · rename_i hquiet
        split at h
        · rcases List.mem_cons.mp h with rfl | hin
          · exact hmark _ (List.mem_cons_of_mem _ List.mem_cons_self)
          · exact hlater _ hin
        · rename_i hshort
          rcases List.mem_cons.mp h with rfl | hin
          · rw [Bool.or_eq_true, not_or, Bool.not_eq_true] at hquiet
            exact ⟨by simpa using hquiet.2, hshort, .inr List.mem_cons_self⟩
          · exact hlater _ hin

/-- The tokens of the output are what becomes of the tokens. -/
theorem splitWhitespace_redact (text : String) :
    splitWhitespace (redact text) = redactTokens 0 (splitWhitespace text) := by
  have hmarks : ∀ mark ∈ marks, mark ≠ [] ∧ mark.all (fun c => !isWhiteSpace c) = true := by decide
  rw [splitWhitespace, redact, String.toList_ofList]
  apply words_intercalate (by decide)
  intro out hout
  rcases (settled_of_mem hout).2.2 with hmark | htoken
  · obtain ⟨hne, hall⟩ := hmarks out hmark
    exact ⟨hne, fun c hc => by simpa using List.all_eq_true.mp hall c hc⟩
  · exact mem_words htoken

/-- Where nothing is announced, short tokens that are not sensitive are kept. -/
theorem redactTokens_of_settled {tokens : List Token}
    (h : ∀ token ∈ tokens,
      isSensitive (toAsciiLowercase token) = false ∧ ¬ 256 < byteLength token) :
    redactTokens 0 tokens = tokens := by
  induction tokens with
  | nil => rfl
  | cons token tokens ih =>
      obtain ⟨hquiet, hshort⟩ := h token List.mem_cons_self
      rw [redactTokens, if_neg (by simp [hquiet]), if_neg hshort,
        ih fun later hlater => h later (List.mem_cons_of_mem _ hlater)]

theorem redact_idempotent (text : String) : redact (redact text) = redact text := by
  rw [redact, splitWhitespace_redact, redactTokens_of_settled, redact]
  intro token htoken
  obtain ⟨hquiet, hshort, -⟩ := settled_of_mem htoken
  exact ⟨hquiet, hshort⟩

theorem getElem?_redact {text : String} {before : List Token} {token : Token} {after : List Token}
    (h : splitWhitespace text = before ++ token :: after) :
    (splitWhitespace (redact text))[before.length]? = some (outcome before.reverse token) := by
  have hsplit := redactTokens_split [] before token after
  rw [List.append_nil] at hsplit
  rw [splitWhitespace_redact, h, show (0 : Nat) = pending [] from rfl, hsplit,
    List.getElem?_append_right (by rw [length_redactTokens]), length_redactTokens, Nat.sub_self]
  rfl

/-- The tokens that are due are replaced, and only those, exactly if the values of open keys are
covered otherwise. -/
theorem redact_iff (text : String) : Redacted text ↔ Covered text := by
  constructor
  · intro h before token after hsplit hkey
    by_contra hnot
    rw [not_or] at hnot
    obtain ⟨mark, hmark, hout⟩ := h.replaced before token after hsplit (.inr hkey)
    rw [getElem?_redact hsplit, outcome_of_not_reached hnot.1, Option.some.injEq] at hout
    exact hnot.2 (hout ▸ hmark)
  · intro h
    refine ⟨?_, ?_, ?_, redact_idempotent text⟩
    · rw [splitWhitespace_redact, length_redactTokens]
    · intro before token after hsplit hdue
      refine ⟨_, ?_, getElem?_redact hsplit⟩
      by_cases hreached : Reached before.reverse token
      · exact outcome_of_reached hreached
      · rw [outcome_of_not_reached hreached]
        have hkey : AfterKey before.reverse := hdue.resolve_left hreached
        exact (h before token after hsplit hkey).resolve_left hreached
    · intro before token after hsplit hdue
      rw [getElem?_redact hsplit, outcome_of_not_reached fun hreached => hdue (.inl hreached)]

example : redact "Authorization: Bearer TEST_TOKEN api_key=TEST_KEY safe=value" =
    "[REDACTED] [REDACTED] [REDACTED] [REDACTED] safe=value" := by decide

/-- A password behind its key is logged. -/
theorem password_logged : redact "password: hunter2" = "[REDACTED] hunter2" ∧
    ¬ Redacted "password: hunter2" := by
  have hout : redact "password: hunter2" = "[REDACTED] hunter2" := by decide
  refine ⟨hout, fun h => ?_⟩
  have hkey : AfterKey ["password:".toList] :=
    ⟨"password:".toList, rfl, ⟨"password", by decide, by decide⟩, .inl (by decide)⟩
  obtain ⟨mark, hmark, hsame⟩ :=
    h.replaced ["password:".toList] "hunter2".toList [] (by decide) (.inr hkey)
  rw [hout] at hsame
  have hsecond : (splitWhitespace "[REDACTED] hunter2")[1]? = some "hunter2".toList := by decide
  have heq : "hunter2".toList = mark := Option.some.inj (hsecond.symm.trans hsame)
  exact absurd (heq ▸ hmark) (by decide)

end Halquen.Service.Redaction
