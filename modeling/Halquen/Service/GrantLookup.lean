import Halquen.Policy.Authorization
import Halquen.Service.Context
import Halquen.Storage.Grants

/-!
# One grant stands for the table

The daemon evaluates a proposal with at most one grant, the first row of a filtered and ordered
query. For a table written by upserts this decides as if every row of the table were in the
context (`lookup_decides_as_table`): the row filter is the activity and matching test of the
policy engine, and the order puts a Deny before every Allow.
-/

set_option autoImplicit false

namespace Halquen.Service.GrantLookup

open Halquen.Domain.Ids Halquen.Domain.Capability Halquen.Domain.Security
open Halquen.Library.Rules Halquen.Library.Sql Halquen.Library.TextCodec
open Halquen.Policy.Engine Halquen.Policy.Specification Halquen.Policy.Authorization
open Halquen.Service.Context Halquen.Storage.Grants

/-- Tables all of whose rows were written by upserts. -/
inductive Written (serde : ScopeCodec) : List GrantRow → Prop where
  | empty : Written serde []
  | upsert {rows rows' : List GrantRow} (grant : PermissionGrant) (hrows : Written serde rows)
      (hok : upsertPermissionGrant serde rows grant = .ok rows') : Written serde rows'

/-- Reads every row of the table. -/
def allGrants (serde : ScopeCodec) (rows : List GrantRow) :
    Except StorageError (List PermissionGrant) :=
  rows.mapM (permissionFromRow serde)

/-- Rows of a written table are the rows of well-shaped grants. -/
def WrittenRow (serde : ScopeCodec) (row : GrantRow) : Prop :=
  ∃ grant, row = .ofGrant serde grant ∧ SessionShaped grant

section

variable {serde : ScopeCodec}

theorem writtenRow_of_written {rows : List GrantRow} (h : Written serde rows) :
    ∀ row ∈ rows, WrittenRow serde row := by
  induction h with
  | empty => simp
  | upsert grant hrows hok ih =>
      exact forall_upsertPermissionGrant hok ih fun g hg => ⟨g, rfl, hg⟩

/-- Every row of a written table is read. -/
theorem allGrants_of_rows (hserde : serde.Lawful) {rows : List GrantRow}
    (h : ∀ row ∈ rows, WrittenRow serde row) :
    ∃ grants, allGrants serde rows = .ok grants ∧ (∀ grant ∈ grants, SessionShaped grant) ∧
      rows = grants.map (GrantRow.ofGrant serde) := by
  induction rows with
  | nil => exact ⟨[], rfl, by simp, rfl⟩
  | cons row rows ih =>
      obtain ⟨grants, hall, hshaped, hrows⟩ := ih fun r hr => h r (by simp [hr])
      obtain ⟨grant, rfl, hshape⟩ := h row (by simp)
      refine ⟨grant :: grants, ?_, ?_, by simp [hrows]⟩
      · unfold allGrants at hall ⊢
        rw [List.mapM_cons, permissionFromRow_ofGrant hserde, hall]
        rfl
      · intro g hg
        rcases List.mem_cons.mp hg with rfl | hg
        · exact hshape
        · exact hshaped g hg

theorem effect_eq_deny_iff (grant : PermissionGrant) :
    (GrantRow.ofGrant serde grant).effect = "deny" ↔ grant.effect = .deny := by
  cases h : grant.effect <;> simp [GrantRow.ofGrant, permissionEffect, h]

end

/-- The grant that the lookup of the daemon finds for a proposal. -/
def lookup (serde : ScopeCodec) (rows : List GrantRow) (p : ActionProposal)
    (sessionId : Option ChatSessionId) (nowMs : Int) :
    Except StorageError (Option PermissionGrant) :=
  activePermissionGrantForProposal serde rows p (permissionSession p sessionId)
    (permissionAgent p) nowMs

/-- Query that the lookup and the claim of the daemon make for a proposal. -/
def queryFor (serde : ScopeCodec) (p : ActionProposal) (sessionId : Option ChatSessionId)
    (nowMs : Int) : GrantQuery :=
  .ofProposal serde p (permissionSession p sessionId) (permissionAgent p) nowMs

section

variable {serde : ScopeCodec} (hserde : serde.Lawful) (p : ActionProposal)
  (sessionId : Option ChatSessionId) (nowMs : Int) (profile : SecurityProfile)

include hserde in
/-- An exact grant of the full context is a grant of the table whose row the filter accepts. -/
theorem exactGrant_iff {grants : List PermissionGrant}
    (hshaped : ∀ grant ∈ grants, SessionShaped grant) (effect : PermissionEffect)
    (g : PermissionGrant) :
    ExactGrant (withGrants (contextFor profile p sessionId nowMs) grants) p effect g ↔
      g ∈ grants ∧ g.effect = effect ∧
        holds (activeFor (queryFor serde p sessionId nowMs) (.ofGrant serde g)) = true := by
  have hfilter (hg : g ∈ grants) := holds_activeFor_ofGrant hserde (hshaped g hg) p
    (permissionSession p sessionId) (permissionAgent p) nowMs
  constructor
  · rintro ⟨hmem, heffect, hactive, hscope⟩
    refine ⟨hmem, heffect, ?_⟩
    rw [contextFor_eq] at hactive
    rw [queryFor, hfilter hmem, Bool.and_eq_true, PermissionScope.matches_iff]
    exact ⟨hactive, hscope⟩
  · rintro ⟨hmem, heffect, hholds⟩
    rw [queryFor, hfilter hmem, Bool.and_eq_true, PermissionScope.matches_iff] at hholds
    refine ⟨hmem, heffect, ?_, hholds.2⟩
    rw [contextFor_eq]
    exact hholds.1

include hserde in
/-- What the lookup finds: nothing, if no row passes the filter; else an accepted grant, which is a
Deny if any accepted grant is. -/
theorem lookup_spec {grants : List PermissionGrant}
    (hshaped : ∀ grant ∈ grants, SessionShaped grant) :
    (lookup serde (grants.map (.ofGrant serde)) p sessionId nowMs = .ok none ∧
      ∀ effect, ¬ ∃ g, ExactGrant (withGrants (contextFor profile p sessionId nowMs) grants) p
        effect g) ∨
    ∃ found, lookup serde (grants.map (.ofGrant serde)) p sessionId nowMs = .ok (some found) ∧
      ExactGrant (withGrants (contextFor profile p sessionId nowMs) grants) p found.effect found ∧
      (found.effect = .allow →
        ¬ ∃ g,
          ExactGrant (withGrants (contextFor profile p sessionId nowMs) grants) p .deny g) := by
  have hexact := exactGrant_iff hserde p sessionId nowMs profile hshaped
  cases hrow : lookupRow (queryFor serde p sessionId nowMs) (grants.map (.ofGrant serde)) with
  -- No row is active, so no grant of the table is exact.
  | none =>
      refine .inl ⟨activePermissionGrantForProposal_of_none hrow, ?_⟩
      rintro effect ⟨g, hg⟩
      obtain ⟨hmem, -, hholds⟩ := (hexact effect g).mp hg
      rw [lookupRow, firstBy_eq_none_iff] at hrow
      have hsel : GrantRow.ofGrant serde g ∈
          select (activeFor (queryFor serde p sessionId nowMs)) (grants.map (.ofGrant serde)) := by
        rw [mem_select]
        exact ⟨List.mem_map_of_mem hmem, hholds⟩
      simp [hrow] at hsel
  | some row =>
      obtain ⟨hsel, hleast⟩ := firstBy_spec hrow
      rw [mem_select] at hsel
      obtain ⟨hmem, hholds⟩ := hsel
      obtain ⟨found, hfound, rfl⟩ := List.mem_map.mp hmem
      refine .inr ⟨found, ?_, (hexact _ _).mpr ⟨hfound, rfl, hholds⟩, ?_⟩
      · rw [lookup, activePermissionGrantForProposal_of_some hrow,
          permissionFromRow_ofGrant hserde]
        rfl
      -- The order of the query puts a denying row first, so an allowing one comes first alone.
      · rintro hallow ⟨g, hg⟩
        obtain ⟨hgmem, hdeny, hgholds⟩ := (hexact .deny g).mp hg
        have hle := hleast (.ofGrant serde g) (by
          rw [mem_select]
          exact ⟨List.mem_map_of_mem hgmem, hgholds⟩)
        have hg0 : (GrantRow.ofGrant serde g).effect = "deny" := (effect_eq_deny_iff g).mpr hdeny
        have hf1 : (GrantRow.ofGrant serde found).effect ≠ "deny" := by
          rw [Ne, effect_eq_deny_iff, hallow]
          decide
        rw [lookupKey, lookupKey, if_pos hg0, if_neg hf1, Prod.Lex.toLex_le_toLex] at hle
        simp at hle

include hserde in
/-- The lookup and the table lead to the same verdict. -/
theorem verdict_lookup (engine : PolicyEngine) (c : CapabilityDescriptor)
    {grants : List PermissionGrant} (hshaped : ∀ grant ∈ grants, SessionShaped grant)
    {found : Option PermissionGrant}
    (hfound : lookup serde (grants.map (.ofGrant serde)) p sessionId nowMs = .ok found) :
    verdict (engine.decide c p
        (withGrants (contextFor profile p sessionId nowMs) found.toList)) =
      verdict (engine.decide c p (withGrants (contextFor profile p sessionId nowMs) grants)) := by
  -- With a single grant in the context, its effect says which exact grants there are.
  have hsingle (g : PermissionGrant)
      (hg : ExactGrant (withGrants (contextFor profile p sessionId nowMs) grants) p g.effect g)
      (effect : PermissionEffect) :
      (∃ h, ExactGrant (withGrants (contextFor profile p sessionId nowMs) [g]) p effect h) ↔
        g.effect = effect := by
    constructor
    · rintro ⟨h, hh⟩
      rw [← List.mem_singleton.mp hh.mem]
      exact hh.effect_eq
    · rintro rfl
      exact ⟨g, by simp [withGrants], rfl, hg.active, hg.scope_eq⟩
  rcases lookup_spec hserde p sessionId nowMs profile hshaped with
    ⟨hnone, hno⟩ | ⟨g, hsome, hg, horder⟩
  · rw [hfound, Except.ok.injEq] at hnone
    subst hnone
    have hempty (effect : PermissionEffect) :
        ¬ ∃ h, ExactGrant (withGrants (contextFor profile p sessionId nowMs) []) p effect h := by
      rintro ⟨h, hh⟩
      have hmem := hh.mem
      simp [withGrants] at hmem
    -- Without a row both contexts are without an exact grant.
    apply verdict_decide_congr
    · exact iff_of_false (hempty .deny) (hno .deny)
    · exact fun _ => iff_of_false (hempty .allow) (hno .allow)
  · rw [hfound, Except.ok.injEq] at hsome
    subst hsome
    simp only [Option.toList_some]
    -- The row that is found has the effect that prevails in the whole table.
    apply verdict_decide_congr
    · rw [hsingle g hg]
      constructor
      · intro hdeny
        rw [hdeny] at hg
        exact ⟨g, hg⟩
      · intro hex
        cases heffect : g.effect with
        | deny => rfl
        | allow => exact absurd hex (horder heffect)
    · intro hnot
      rw [hsingle g hg] at hnot ⊢
      have hallow : g.effect = .allow := by
        cases heffect : g.effect with
        | allow => rfl
        | deny => exact absurd heffect hnot
      rw [hallow] at hg
      exact iff_of_true hallow ⟨g, hg⟩

end

/-- For a written table every row is readable, the lookup succeeds, and its grant alone leads to
the outcome, reason and authorization that the whole table leads to, in all three evaluations of
the engine. The row filter of the query accepts the rows of the active and matching grants. -/
theorem lookup_decides_as_table (serde : ScopeCodec) (hserde : serde.Lawful)
    (rows : List GrantRow) (hrows : Written serde rows) (engine : PolicyEngine)
    (c : CapabilityDescriptor) (p : ActionProposal) (x : ExecutionId) (profile : SecurityProfile)
    (sessionId : Option ChatSessionId) (nowMs : Int) :
    ∃ grants found, allGrants serde rows = .ok grants ∧
      lookup serde rows p sessionId nowMs = .ok found ∧
      (let single := withGrants (contextFor profile p sessionId nowMs) found.toList
       let whole := withGrants (contextFor profile p sessionId nowMs) grants
       verdict (engine.evaluateProposal c p single) = verdict (engine.evaluateProposal c p whole) ∧
       (verdict (engine.authorizeProposal c p x single).decision =
          verdict (engine.authorizeProposal c p x whole).decision ∧
        (engine.authorizeProposal c p x single).authorization =
          (engine.authorizeProposal c p x whole).authorization) ∧
       verdict (engine.authorizeConfirmedProposalOnce c p x single).decision =
          verdict (engine.authorizeConfirmedProposalOnce c p x whole).decision ∧
        (engine.authorizeConfirmedProposalOnce c p x single).authorization =
          (engine.authorizeConfirmedProposalOnce c p x whole).authorization) ∧
      ∀ row ∈ rows, ∀ grant, permissionFromRow serde row = .ok grant →
        (holds (activeFor (queryFor serde p sessionId nowMs) row) = true ↔
          (grant.isActive nowMs (permissionSession p sessionId) (permissionAgent p) &&
            grant.scope.matches p) = true) := by
  obtain ⟨grants, hall, hshaped, rfl⟩ := allGrants_of_rows hserde (writtenRow_of_written hrows)
  -- The condition of the query is the match of the grant that is read from the row.
  have hfilter : ∀ row ∈ grants.map (GrantRow.ofGrant serde), ∀ grant,
      permissionFromRow serde row = .ok grant →
      (holds (activeFor (queryFor serde p sessionId nowMs) row) = true ↔
        (grant.isActive nowMs (permissionSession p sessionId) (permissionAgent p) &&
          grant.scope.matches p) = true) := by
    intro row hrow grant hread
    obtain ⟨g, hg, rfl⟩ := List.mem_map.mp hrow
    rw [permissionFromRow_ofGrant hserde, Except.ok.injEq] at hread
    subst hread
    exact holds_activeFor_ofGrant hserde (hshaped g hg) p _ _ nowMs
  obtain ⟨found, hfound⟩ : ∃ found,
      lookup serde (grants.map (.ofGrant serde)) p sessionId nowMs = .ok found := by
    rcases lookup_spec hserde p sessionId nowMs profile hshaped with ⟨h, -⟩ | ⟨g, h, -⟩
    · exact ⟨none, h⟩
    · exact ⟨some g, h⟩
  have hverdict := verdict_lookup hserde p sessionId nowMs profile engine c hshaped hfound
  exact ⟨grants, found, hall, hfound, ⟨hverdict, evaluations_congr engine c p x _ rfl hverdict⟩,
    hfilter⟩

/-! ## A table with an Allow and a Deny of one scope -/

/-- Launch of an application that carries no label. -/
def launchTelegram : ActionProposal where
  action := ⟨openAppDescriptor.id, .openApp ⟨"app:telegram", validate_telegram⟩⟩
  context := (ActionContext.trustedUser none).withResource ⟨.application, "app:telegram", .«local»⟩

/-- JSON text of the scope of a launch, under the classification of the application. -/
def telegramScopeJson (classification : String) : String :=
  "\x7b\"capability_id\":\"system.open_app\",\"arguments\":\x7b\"kind\":\"open_app\"," ++
  "\"app\":\"app:telegram\"\x7d,\"resources\":[\x7b\"kind\":\"application\"," ++
  "\"identifier\":\"app:telegram\",\"classification\":\"" ++ classification ++
  "\"\x7d],\"destination\":null\x7d"

/-- JSON text of the scope of `launchTelegram`. -/
def launchTelegramJson : String := telegramScopeJson "local"

/-- A lawful codec that writes this scope as its JSON text. -/
noncomputable def launchTelegramSerde : ScopeCodec :=
  .tabulated [(.fromProposal launchTelegram, launchTelegramJson)]

theorem launchTelegramSerde_lawful : launchTelegramSerde.Lawful :=
  Codec.tabulated_lawful ⟨by decide +kernel, by decide +kernel⟩

/-- A grant of the scope of `launchTelegram` for every session. -/
def launchTelegramGrant (id : PermissionId) (effect : PermissionEffect) (grantedAtMs : Int) :
    PermissionGrant where
  id := id
  effect := effect
  lifetime := .always
  scope := .fromProposal launchTelegram
  session := none
  agentId := none
  grantedBy := .userExplicit
  grantedAtMs := grantedAtMs
  expiresAtMs := none
  revokedAtMs := none
  useLimit := none
  useCount := 0

/-- A grant that allows a launch. -/
def allowTelegram : PermissionGrant := launchTelegramGrant ⟨"permission:allow", by decide⟩ .allow 2

/-- A grant that forbids it. -/
def denyTelegram : PermissionGrant := launchTelegramGrant ⟨"permission:deny", by decide⟩ .deny 1

theorem written_telegram : Written launchTelegramSerde
    [.ofGrant launchTelegramSerde allowTelegram, .ofGrant launchTelegramSerde denyTelegram] := by
  have hallow : Written launchTelegramSerde [.ofGrant launchTelegramSerde allowTelegram] :=
    .upsert allowTelegram .empty (by decide +kernel)
  exact .upsert denyTelegram hallow (by decide +kernel)

theorem lookup_decides_as_table_telegram :
    ∃ grants found,
      allGrants launchTelegramSerde [.ofGrant launchTelegramSerde allowTelegram,
        .ofGrant launchTelegramSerde denyTelegram] = .ok grants ∧
      lookup launchTelegramSerde [.ofGrant launchTelegramSerde allowTelegram,
        .ofGrant launchTelegramSerde denyTelegram] launchTelegram none 5 = .ok found ∧
      verdict (PolicyEngine.new.evaluateProposal openAppDescriptor launchTelegram
          (withGrants (contextFor .balanced launchTelegram none 5) found.toList)) =
        verdict (PolicyEngine.new.evaluateProposal openAppDescriptor launchTelegram
          (withGrants (contextFor .balanced launchTelegram none 5) grants)) := by
  obtain ⟨grants, found, hall, hfound, ⟨hverdict, -⟩, -⟩ :=
    lookup_decides_as_table launchTelegramSerde launchTelegramSerde_lawful _ written_telegram .new
      openAppDescriptor launchTelegram ⟨"execution:1", by decide⟩ .balanced none 5
  exact ⟨grants, found, hall, hfound, hverdict⟩

end Halquen.Service.GrantLookup
