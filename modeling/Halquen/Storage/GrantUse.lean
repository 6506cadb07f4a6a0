import Halquen.Library.Run
import Halquen.Storage.Sessions

/-!
# Uses of a grant

The operations that any number of connections perform on the grants, one transaction after the
other: claims for proposals, consumption, revocation, upserts, and the session operations.
`follows_apply` says what one operation does to one grant that it does not replace: it leaves the
scope and the binding alone, counts one more use exactly if it reports one, and never brings a
revoked grant back. Over a whole run this bounds the uses by the limit (`uses_le_limit`), keeps a
revoked grant revoked (`no_use_after_revocation`) and confines every claim to the exact scope and
binding of the grant (`claim_within_binding`).
-/

set_option autoImplicit false

namespace Halquen.Storage.GrantUse

open Halquen.Domain.Ids Halquen.Domain.Security Halquen.Domain.Agent
open Halquen.Library.Action Halquen.Library.Action.Act Halquen.Library.Run Halquen.Library.Sql
open Halquen.Storage.Grants Halquen.Storage.Sessions

/-- Operations of the connections. -/
inductive GrantOperation where
  | claim (proposal : ActionProposal) (session : Option PermissionSessionScope)
      (agentId : Option AgentId) (nowMs : Int)
  | consume (id : PermissionId)
  | revoke (id : PermissionId) (nowMs : Int)
  | upsert (grant : PermissionGrant)
  | beginDaemonSession (session : DaemonSession)
  | finishDaemonSession (id : DaemonSessionId) (endedAtMs : Int)
  | beginAgentSession (session : AgentSession)
  | finishAgentSession (id : AgentSessionId) (status : AgentSessionStatus) (endedAtMs : Int)

section

variable (serde : ScopeCodec)

/-- The grant whose use an operation reports, if any, and the tables after it. -/
def GrantOperation.apply (t : SessionTables) : GrantOperation →
    Option PermissionId × SessionTables
  | .claim proposal session agentId nowMs =>
      let claim := claimPermissionForProposal serde t.grants proposal session agentId nowMs
      (claim.1.toOption.join, { t with grants := claim.2 })
  | .consume id =>
      let consume := consumePermission t.grants id
      (if consume.1 then some id else none, { t with grants := consume.2 })
  | .revoke id nowMs => (none, { t with grants := (revokePermission t.grants id nowMs).2 })
  | .upsert grant =>
      let rows := (upsertPermissionGrant serde t.grants grant).toOption
      (none, { t with grants := rows.getD t.grants })
  | .beginDaemonSession session => (none, (Sessions.beginDaemonSession session t).2)
  | .finishDaemonSession id endedAtMs => (none, (Sessions.finishDaemonSession id endedAtMs t).2)
  | .beginAgentSession session => (none, (Sessions.beginAgentSession session t).2)
  | .finishAgentSession id status endedAtMs =>
      (none, (Sessions.finishAgentSession id status endedAtMs t).2)

/-- What an operation leaves in the tables. -/
def GrantOperation.perform (t : SessionTables) (operation : GrantOperation) : SessionTables :=
  (operation.apply serde t).2

/-- The operation reports a use of the grant. -/
def GrantOperation.Uses (t : SessionTables) (g : PermissionId) (operation : GrantOperation)
    : Prop :=
  (operation.apply serde t).1 = some g

instance (t : SessionTables) (g : PermissionId) (operation : GrantOperation) :
    Decidable (operation.Uses serde t g) :=
  inferInstanceAs (Decidable (_ = _))

/-- Number of uses of a grant that the operations of a run report. -/
def usesOf (g : PermissionId) (t : SessionTables) (operations : List GrantOperation) : Nat :=
  spent (GrantOperation.perform serde)
    (fun t operation => if operation.Uses serde t g then 1 else 0) t operations

/-- The operation does not replace the grant. -/
def GrantOperation.Spares (g : PermissionId) (operation : GrantOperation) : Prop :=
  ∀ grant, operation = .upsert grant → grant.id ≠ g

end

/-! ## One operation -/

/-- What may change in a row while its grant is not replaced. -/
structure Follows (row row' : GrantRow) : Prop where
  columns : row' = { row with useCount := row'.useCount, revokedAtMs := row'.revokedAtMs }
  revoked : row.revokedAtMs ≠ none → row'.revokedAtMs = row.revokedAtMs

instance : IsPreorder GrantRow Follows where
  refl row := ⟨rfl, fun _ => rfl⟩
  trans row row' row'' h h' := by
    refine ⟨?_, fun hrevoked => ?_⟩
    · rw [h'.columns, h.columns]
    · have hmid := h.revoked hrevoked
      rw [h'.revoked (by rwa [hmid]), hmid]

/-- A use leaves all but the count. -/
theorem follows_use (row : GrantRow) : Follows row row.use := ⟨rfl, fun _ => rfl⟩

/-- A revocation leaves all but its time. -/
theorem follows_revoke {row : GrantRow} (h : row.revokedAtMs = none) (nowMs : Int) :
    Follows row { row with revokedAtMs := some nowMs } := ⟨rfl, fun hne => absurd h hne⟩

section

variable {serde : ScopeCodec} {t : SessionTables} {g : PermissionId} {row : GrantRow}

/-- A grant is used only while it is unrevoked and has uses left. -/
def Usable (row : GrantRow) : Prop :=
  row.revokedAtMs = none ∧ ∀ limit ∈ row.useLimit, row.useCount < limit

variable (serde) in
/-- What a claim does: it uses one row that matches the query, or changes nothing. -/
theorem claim_cases (rows : List GrantRow) (proposal : ActionProposal)
    (session : Option PermissionSessionScope) (agentId : Option AgentId) (nowMs : Int) :
    let claim := claimPermissionForProposal serde rows proposal session agentId nowMs
    (claim.1.toOption.join = none ∧ claim.2 = rows) ∨
      ∃ candidate ∈ rows, candidate.effect = "allow" ∧
        holds (activeFor (.ofProposal serde proposal session agentId nowMs) candidate) = true ∧
        claim.2 = updateRows (claimable candidate.id nowMs) GrantRow.use rows ∧
        claim.1.toOption.join = (TypedId.new (.generated .permission) candidate.id).toOption := by
  simp only [claimPermissionForProposal]
  cases hrow : claimRow (.ofProposal serde proposal session agentId nowMs) rows with
  | none => exact .inl ⟨rfl, rfl⟩
  | some candidate =>
      have hmem := (firstBy_spec hrow).1
      rw [mem_select, holds_and, holds_eq] at hmem
      obtain ⟨hcandidate, ⟨-, heffect⟩, hactive⟩ := hmem
      simp only
      split
      · refine .inr ⟨candidate, hcandidate, Option.some.inj heffect, hactive, ?_⟩
        cases TypedId.new (.generated .permission) candidate.id with
        | ok id => exact ⟨rfl, rfl⟩
        | error e => exact ⟨rfl, rfl⟩
      · exact .inl ⟨rfl, rfl⟩

/-- Fate of the row of a grant under one operation that may use it. -/
def Fate (row : GrantRow) (used : Prop) (rows' : List GrantRow) : Prop :=
  ∃ row' ∈ rows', row'.id = row.id ∧ Follows row row' ∧
    (used ∧ Usable row ∧ row'.useCount = row.useCount + 1 ∨
      ¬ used ∧ row'.useCount = row.useCount)

/-- A row that is left alone is not used. -/
theorem fate_of_mem {used : Prop} {rows' : List GrantRow} (hused : ¬ used) (hrow : row ∈ rows') :
    Fate row used rows' :=
  ⟨row, hrow, rfl, refl_of Follows row, .inr ⟨hused, rfl⟩⟩

/-- A revocation uses no grant. -/
theorem fate_of_grantsRevoked {used : Prop} {rows rows' : List GrantRow} (hused : ¬ used)
    (h : GrantsRevoked rows rows') (hrow : row ∈ rows) : Fate row used rows' := by
  induction h with
  | nil => simp at hrow
  | @cons first first' rest rest' hfirst hrest ih =>
      rcases List.mem_cons.mp hrow with rfl | hrow
      · refine ⟨first', by simp, ?_⟩
        rcases hfirst with rfl | ⟨hnone, at_, rfl⟩
        · exact ⟨rfl, refl_of Follows _, .inr ⟨hused, rfl⟩⟩
        · exact ⟨rfl, follows_revoke hnone at_, .inr ⟨hused, rfl⟩⟩
      · obtain ⟨row', hmem, h⟩ := ih hrow
        exact ⟨row', List.mem_cons_of_mem _ hmem, h⟩

/-- Under an update that counts one more use, a row is used exactly where the guard holds. -/
theorem fate_of_update {used : Prop} {rows : List GrantRow} {cond : GrantRow → Truth}
    (hrow : row ∈ rows) (hused : used ↔ holds (cond row) = true)
    (husable : holds (cond row) = true → Usable row) :
    Fate row used (updateRows cond GrantRow.use rows) := by
  have hmem : (if holds (cond row) then row.use else row) ∈ updateRows cond GrantRow.use rows :=
    List.mem_map_of_mem hrow
  by_cases hcond : holds (cond row) = true
  · rw [if_pos hcond] at hmem
    exact ⟨row.use, hmem, rfl, follows_use row, .inl ⟨hused.mpr hcond, husable hcond, rfl⟩⟩
  · rw [if_neg hcond] at hmem
    exact fate_of_mem (fun h => hcond (hused.mp h)) hmem

/-- The condition of the claim. -/
theorem holds_claimable (id : String) (nowMs : Int) (row : GrantRow) :
    holds (claimable id nowMs row) = true ↔
      row.id = id ∧ row.revokedAtMs = none ∧ (∀ expiry ∈ row.expiresAtMs, nowMs ≤ expiry) ∧
        ∀ limit ∈ row.useLimit, row.useCount < limit := by
  simp [claimable]

/-- A claim uses the row that it returns and no other. -/
theorem fate_claim (hkeys : UniqueKey GrantRow.id t.grants) (hrow : row ∈ t.grants)
    (hid : row.id = g.asStr) (proposal : ActionProposal)
    (session : Option PermissionSessionScope) (agentId : Option AgentId) (nowMs : Int) :
    Fate row
      ((claimPermissionForProposal serde t.grants proposal session agentId nowMs).1.toOption.join
        = some g)
      (claimPermissionForProposal serde t.grants proposal session agentId nowMs).2 := by
  rcases claim_cases serde t.grants proposal session agentId nowMs with
    ⟨hnone, hrows⟩ | ⟨candidate, hcandidate, -, hactive, hrows, hresult⟩
  · rw [hnone, hrows]
    exact fate_of_mem (by simp) hrow
  · rw [holds_activeFor] at hactive
    obtain ⟨-, -, hrevoked, hexpiry, hlimit, -⟩ := hactive
    -- The claimed identifier is that of the row, as the identifiers of the table are distinct.
    have hclaimed : (TypedId.new (.generated .permission) candidate.id).toOption = some g ↔
        row.id = candidate.id := by
      rw [hid]
      constructor
      · intro hsome
        cases hnew : TypedId.new (.generated .permission) candidate.id with
        | ok id =>
            rw [hnew] at hsome
            cases hsome
            exact TypedId.asStr_of_new hnew
        | error e =>
            rw [hnew] at hsome
            cases hsome
      · intro heq
        rw [← heq, TypedId.new_asStr]
        rfl
    rw [hrows, hresult]
    refine fate_of_update hrow ?_ ?_
    · rw [hclaimed, holds_claimable]
      refine ⟨fun heq => ?_, fun h => h.1⟩
      obtain rfl := hkeys.eq_of_mem hrow hcandidate heq
      exact ⟨rfl, hrevoked, hexpiry, hlimit⟩
    -- The update of the claim applies to the claimed row, and to no other.
    · rw [holds_claimable]
      exact fun h => ⟨h.2.1, h.2.2.2⟩

/-- Guard of the increment in `consume_permission`. -/
def consumable (id : PermissionId) (row : GrantRow) : Truth :=
  (eq (some row.id) (some id.asStr)).and ((isNull row.revokedAtMs).and (unexhausted row))

/-- The condition of the consumption. -/
theorem holds_consumable (id : PermissionId) (row : GrantRow) :
    holds (consumable id row) = true ↔ row.id = id.asStr ∧ Usable row := by
  simp [consumable, Usable]

/-- A consumption uses the row that it names and no other. -/
theorem fate_consume (hkeys : UniqueKey GrantRow.id t.grants) (hrow : row ∈ t.grants)
    (hid : row.id = g.asStr) (id : PermissionId) :
    Fate row ((if (consumePermission t.grants id).1 then some id else none) = some g)
      (consumePermission t.grants id).2 := by
  have hconsume : consumePermission t.grants id =
      (changes (consumable id) t.grants == 1, updateRows (consumable id) GrantRow.use t.grants) :=
    rfl
  rw [hconsume]
  refine fate_of_update hrow ?_ fun h => ((holds_consumable id row).mp h).2
  have hchanges : changes (consumable id) t.grants = 1 ↔
      ∃ r ∈ t.grants, holds (consumable id r) = true :=
    changes_eq_one_iff hkeys fun r hr => ((holds_consumable id r).mp hr).1
  simp only [beq_iff_eq, hchanges]
  constructor
  · intro hused
    split at hused
    · rename_i hsome
      obtain ⟨r, hr, hcond⟩ := hsome
      cases hused
      have hsame := hkeys.eq_of_mem hr hrow (((holds_consumable g r).mp hcond).1.trans hid.symm)
      exact hsame ▸ hcond
    · cases hused
  · intro hcond
    rw [if_pos ⟨row, hrow, hcond⟩]
    have heq := ((holds_consumable id row).mp hcond).1
    exact congrArg some (TypedId.ext (heq.symm.trans hid))

theorem grantsRevoked_revokePermission (rows : List GrantRow) (id : PermissionId) (nowMs : Int) :
    GrantsRevoked rows (revokePermission rows id nowMs).2 := by
  unfold GrantsRevoked revokePermission updateRows
  rw [List.forall₂_map_right_iff, List.forall₂_same]
  intro row _
  split
  · rename_i hcond
    simp only [holds_and, holds_isNull] at hcond
    exact .inr ⟨hcond.2, nowMs, rfl⟩
  · exact .inl rfl

/-- Saving a grant leaves the rows of the others. -/
theorem mem_upsert_of_ne {grant : PermissionGrant} {rows rows' : List GrantRow}
    (h : upsertPermissionGrant serde rows grant = .ok rows') (hrow : row ∈ rows)
    (hne : row.id ≠ grant.id.asStr) : row ∈ rows' := by
  rw [upsertPermissionGrant_spec h, upsertRow]
  split
  · exact List.mem_map.mpr ⟨row, hrow, if_neg hne⟩
  · exact List.mem_append_left _ hrow

variable (serde) in
/-- What one operation that spares a grant does to its row. -/
theorem follows_apply (hkeys : UniqueKey GrantRow.id t.grants) (hrow : row ∈ t.grants)
    (hid : row.id = g.asStr) {operation : GrantOperation} (hspares : operation.Spares g) :
    Fate row (operation.Uses serde t g) (operation.perform serde t).grants := by
  have hnone : ¬ (none : Option PermissionId) = some g := by simp
  cases operation with
  | claim proposal session agentId nowMs =>
      change Fate row ((claimPermissionForProposal serde t.grants proposal session agentId
        nowMs).1.toOption.join = some g) _
      exact fate_claim hkeys hrow hid proposal session agentId nowMs
  | consume id => exact fate_consume hkeys hrow hid id
  | revoke id nowMs =>
      exact fate_of_grantsRevoked hnone (grantsRevoked_revokePermission t.grants id nowMs) hrow
  | upsert grant =>
      have hne : row.id ≠ grant.id.asStr := fun heq =>
        hspares grant rfl (TypedId.ext (heq.symm.trans hid))
      refine fate_of_mem hnone ?_
      change row ∈ (upsertPermissionGrant serde t.grants grant).toOption.getD t.grants
      cases h : upsertPermissionGrant serde t.grants grant with
      | error e => exact hrow
      | ok rows' => exact mem_upsert_of_ne h hrow hne
  | beginDaemonSession session =>
      exact fate_of_grantsRevoked hnone (keeps_revoked_beginDaemonSession session t) hrow
  | finishDaemonSession id endedAtMs =>
      exact fate_of_grantsRevoked hnone (keeps_revoked_finishDaemonSession id endedAtMs t) hrow
  | beginAgentSession session =>
      exact fate_of_grantsRevoked hnone (keeps_revoked_beginAgentSession session t) hrow
  | finishAgentSession id status endedAtMs =>
      exact fate_of_grantsRevoked hnone (keeps_revoked_finishAgentSession id status endedAtMs t)
        hrow

theorem uniqueKey_grantsRevoked {rows rows' : List GrantRow} (h : GrantsRevoked rows rows')
    (hkeys : UniqueKey GrantRow.id rows) : UniqueKey GrantRow.id rows' := by
  have hsame : rows'.map GrantRow.id = rows.map GrantRow.id := by
    induction h with
    | nil => rfl
    | @cons first first' rest rest' hfirst _ ih =>
        have htail : UniqueKey GrantRow.id rest := hkeys.sublist (by simp)
        rw [List.map_cons, List.map_cons, ih htail]
        rcases hfirst with rfl | ⟨-, at_, rfl⟩ <;> rfl
  rw [UniqueKey, hsame]
  exact hkeys

/-- Identifiers stay unique, whatever is done. -/
theorem uniqueKey_perform (t : SessionTables) (operation : GrantOperation)
    (hkeys : UniqueKey GrantRow.id t.grants) :
    UniqueKey GrantRow.id (operation.perform serde t).grants := by
  -- No operation changes an identifier, and an upsert adds new ones only.
  cases operation with
  | claim proposal session agentId nowMs =>
      change UniqueKey GrantRow.id
        (claimPermissionForProposal serde t.grants proposal session agentId nowMs).2
      rcases claim_cases serde t.grants proposal session agentId nowMs with
        ⟨-, hrows⟩ | ⟨candidate, -, -, -, hrows, -⟩
      · rwa [hrows]
      · rw [hrows]
        exact hkeys.update _ fun _ => rfl
  | consume id => exact hkeys.update _ fun _ => rfl
  | revoke id nowMs => exact hkeys.update _ fun _ => rfl
  | upsert grant =>
      change UniqueKey GrantRow.id
        ((upsertPermissionGrant serde t.grants grant).toOption.getD t.grants)
      cases h : upsertPermissionGrant serde t.grants grant with
      | error e => exact hkeys
      | ok rows' =>
          change UniqueKey GrantRow.id rows'
          rw [upsertPermissionGrant_spec h]
          exact hkeys.upsert fun _ h => h
  | beginDaemonSession session =>
      exact uniqueKey_grantsRevoked (keeps_revoked_beginDaemonSession session t) hkeys
  | finishDaemonSession id endedAtMs =>
      exact uniqueKey_grantsRevoked (keeps_revoked_finishDaemonSession id endedAtMs t) hkeys
  | beginAgentSession session =>
      exact uniqueKey_grantsRevoked (keeps_revoked_beginAgentSession session t) hkeys
  | finishAgentSession id status endedAtMs =>
      exact uniqueKey_grantsRevoked (keeps_revoked_finishAgentSession id status endedAtMs t) hkeys

end

/-! ## Runs -/

section

variable {serde : ScopeCodec} {g : PermissionId}

/-- The grant is stored, with a row that follows the given one. -/
structure Tracked (g : PermissionId) (row : GrantRow) (t : SessionTables) : Prop where
  keys : UniqueKey GrantRow.id t.grants
  stored : ∃ row' ∈ t.grants, row'.id = g.asStr ∧ Follows row row'

/-- The row of a grant can be followed through every operation that does not save it. -/
theorem tracked_perform {row : GrantRow} (t : SessionTables) (operation : GrantOperation)
    (hspares : operation.Spares g) (h : Tracked g row t) :
    Tracked g row (operation.perform serde t) := by
  obtain ⟨row₁, hmem, hid, hfollows⟩ := h.stored
  obtain ⟨row₂, hmem', hid', hfollows', -⟩ := follows_apply serde h.keys hmem hid hspares
  exact ⟨uniqueKey_perform t operation h.keys, row₂, hmem', hid'.trans hid,
    trans_of Follows hfollows hfollows'⟩

/-- As long as the grant is not replaced, it is stored under its own columns. -/
theorem tracked_run {row : GrantRow} {t : SessionTables} (h : Tracked g row t)
    {operations : List GrantOperation} (hspares : ∀ o ∈ operations, o.Spares g) :
    Tracked g row (run (GrantOperation.perform serde) t operations) :=
  run_invariant_of tracked_perform h hspares

/-- Uses that a limit leaves to the grant. -/
def remainingUses (g : PermissionId) (limit : Int) (t : SessionTables) : Nat :=
  match t.grants.find? fun row => row.id == g.asStr with
  | some row => (limit - row.useCount).toNat
  | none => 0

/-- The uses left are those that its row has left. -/
theorem remainingUses_eq {t : SessionTables} (hkeys : UniqueKey GrantRow.id t.grants)
    {row : GrantRow} (hrow : row ∈ t.grants) (hid : row.id = g.asStr) (limit : Int) :
    remainingUses g limit t = (limit - row.useCount).toNat := by
  unfold remainingUses
  cases hfind : t.grants.find? fun row => row.id == g.asStr with
  | none =>
      rw [List.find?_eq_none] at hfind
      exact absurd (beq_iff_eq.mpr hid) (hfind row hrow)
  | some found =>
      have hfound : found.id = g.asStr := by simpa using List.find?_some hfind
      rw [hkeys.eq_of_mem (List.mem_of_find?_eq_some hfind) hrow (hfound.trans hid.symm)]

/-- The uses of a grant with a limit never exceed what the limit left at the start. -/
theorem uses_le_limit {t : SessionTables} (hkeys : UniqueKey GrantRow.id t.grants)
    {row : GrantRow} (hrow : row ∈ t.grants) (hid : row.id = g.asStr) {limit : Int}
    (hlimit : row.useLimit = some limit) {operations : List GrantOperation}
    (hspares : ∀ o ∈ operations, o.Spares g) :
    usesOf serde g t operations ≤ (limit - row.useCount).toNat := by
  rw [← remainingUses_eq hkeys hrow hid limit]
  refine spent_le_potential (I := Tracked g row) (C := GrantOperation.Spares g) tracked_perform
    ?_ ⟨hkeys, row, hrow, hid, refl_of Follows row⟩ hspares
  -- One operation: a use that is reported is one that the limit still allowed.
  intro t₁ operation hoperation htracked
  obtain ⟨row₁, hmem₁, hid₁, hfollows⟩ := htracked.stored
  obtain ⟨row₂, hmem₂, hid₂, -, huse⟩ :=
    follows_apply serde htracked.keys hmem₁ hid₁ hoperation
  have hlimit₁ : row₁.useLimit = some limit := by rw [hfollows.columns]; exact hlimit
  rw [remainingUses_eq htracked.keys hmem₁ hid₁ limit,
    remainingUses_eq (uniqueKey_perform t₁ operation htracked.keys) hmem₂ (hid₂.trans hid₁) limit]
  rcases huse with ⟨hused, husable, hcount⟩ | ⟨hunused, hcount⟩
  · have hleft := husable.2 limit hlimit₁
    rw [if_pos hused, hcount]
    omega
  · rw [if_neg hunused, hcount]
    omega

/-- A grant that was revoked is not used again. -/
theorem no_use_after_revocation {t : SessionTables} (hkeys : UniqueKey GrantRow.id t.grants)
    {row : GrantRow} (hrow : row ∈ t.grants) (hid : row.id = g.asStr)
    (hrevoked : row.revokedAtMs ≠ none) {before : List GrantOperation} {operation : GrantOperation}
    (hbefore : ∀ o ∈ before, o.Spares g) (hoperation : operation.Spares g) :
    ¬ operation.Uses serde (run (GrantOperation.perform serde) t before) g := by
  have htracked : Tracked g row (run (GrantOperation.perform serde) t before) :=
    tracked_run ⟨hkeys, row, hrow, hid, refl_of Follows row⟩ hbefore
  obtain ⟨row₁, hmem₁, hid₁, hfollows⟩ := htracked.stored
  obtain ⟨row₂, -, -, -, huse⟩ := follows_apply serde htracked.keys hmem₁ hid₁ hoperation
  intro hused
  rcases huse with ⟨-, husable, -⟩ | ⟨hunused, -⟩
  · exact hrevoked ((hfollows.revoked hrevoked).symm.trans husable.1)
  · exact hunused hused

variable (serde) in
/-- A revocation marks the row. -/
theorem revoked_perform {t : SessionTables} {row : GrantRow} (hrow : row ∈ t.grants)
    (hid : row.id = g.asStr)
    (nowMs : Int) : ∃ row' ∈ ((GrantOperation.revoke g nowMs).perform serde t).grants,
      row'.id = g.asStr ∧ row'.revokedAtMs ≠ none := by
  change ∃ row' ∈ (revokePermission t.grants g nowMs).2, _
  unfold revokePermission updateRows
  refine ⟨_, List.mem_map_of_mem hrow, ?_⟩
  split
  · exact ⟨hid, by simp⟩
  · rename_i hcond
    -- Only a row that is revoked already is left alone.
    rw [holds_and, holds_eq, holds_isNull] at hcond
    exact ⟨hid, fun hnone => hcond ⟨⟨rfl, congrArg some hid⟩, hnone⟩⟩

/-- After a revocation a grant is not used again, whatever happens in between. -/
theorem no_use_after_revoke {t : SessionTables} (hkeys : UniqueKey GrantRow.id t.grants)
    {row : GrantRow} (hrow : row ∈ t.grants) (hid : row.id = g.asStr)
    {before between : List GrantOperation}
    {nowMs : Int} {operation : GrantOperation} (hbefore : ∀ o ∈ before, o.Spares g)
    (hbetween : ∀ o ∈ between, o.Spares g) (hoperation : operation.Spares g) :
    ¬ operation.Uses serde
      (run (GrantOperation.perform serde) t (before ++ .revoke g nowMs :: between)) g := by
  have htracked : Tracked g row (run (GrantOperation.perform serde) t before) :=
    tracked_run ⟨hkeys, row, hrow, hid, refl_of Follows row⟩ hbefore
  obtain ⟨row₁, hmem₁, hid₁, -⟩ := htracked.stored
  obtain ⟨row₂, hmem₂, hid₂, hrevoked⟩ := revoked_perform serde hmem₁ hid₁ nowMs
  rw [run_append, run_cons]
  exact no_use_after_revocation (uniqueKey_perform _ _ htracked.keys) hmem₂ hid₂ hrevoked hbetween
    hoperation

/-- The exact scope and binding of a grant. -/
structure BoundTo (grant : PermissionGrant) (proposal : ActionProposal)
    (session : Option PermissionSessionScope) (agentId : Option AgentId) : Prop where
  effect : grant.effect = .allow
  scope : grant.scope = PermissionScope.fromProposal proposal
  agent : grant.agentId = agentId
  session : (grant.lifetime ≠ .session ∧ grant.session = none) ∨
    (grant.lifetime = .session ∧ grant.session = session)

theorem permissionLifetime_eq_session (lifetime : PermissionLifetime) :
    permissionLifetime lifetime = "session" ↔ lifetime = .session := by
  cases lifetime <;> simp [permissionLifetime]

/-- The row filter confines a row that follows a grant to the scope and binding of the grant. -/
theorem boundTo_of_activeFor (hserde : serde.Lawful) {grant : PermissionGrant} {row : GrantRow}
    (hfollows : Follows (.ofGrant serde grant) row) (heffect : row.effect = "allow")
    {proposal : ActionProposal} {session : Option PermissionSessionScope}
    {agentId : Option AgentId} {nowMs : Int}
    (h : holds (activeFor (.ofProposal serde proposal session agentId nowMs) row) = true) :
    BoundTo grant proposal session agentId ∧ row.revokedAtMs = none ∧
      ∀ expiry ∈ grant.expiresAtMs, nowMs ≤ expiry := by
  rw [hfollows.columns] at heffect
  rw [holds_activeFor, hfollows.columns] at h
  simp only [GrantRow.ofGrant, GrantQuery.ofProposal] at h heffect
  obtain ⟨-, hscope, hrevoked, hexpiry, -, hsession, hagent⟩ := h
  refine ⟨⟨?_, hserde.injective hscope, asStr_columns_injective hagent, ?_⟩, hrevoked, hexpiry⟩
  · cases heq : grant.effect with
    | allow => rfl
    | deny => simp [heq, permissionEffect] at heffect
  · rw [ne_eq, permissionLifetime_eq_session] at hsession
    rcases hsession with ⟨hlifetime, hkind, -⟩ | ⟨hlifetime, hkind, hid⟩
    · exact .inl ⟨hlifetime, Option.map_eq_none_iff.mp hkind⟩
    · exact .inr ⟨hlifetime, permissionSession_columns_injective hkind hid⟩

/-- Every successful claim of a grant is for its exact scope and binding, at a time when it is
neither revoked nor expired. -/
theorem claim_within_binding (hserde : serde.Lawful) {t : SessionTables}
    (hkeys : UniqueKey GrantRow.id t.grants) {grant : PermissionGrant}
    (hrow : GrantRow.ofGrant serde grant ∈ t.grants) {before : List GrantOperation}
    (hbefore : ∀ o ∈ before, o.Spares grant.id) {proposal : ActionProposal}
    {session : Option PermissionSessionScope} {agentId : Option AgentId} {nowMs : Int}
    (hused : (GrantOperation.claim proposal session agentId nowMs).Uses serde
      (run (GrantOperation.perform serde) t before) grant.id) :
    BoundTo grant proposal session agentId ∧ (∀ expiry ∈ grant.expiresAtMs, nowMs ≤ expiry) ∧
      ∃ row ∈ (run (GrantOperation.perform serde) t before).grants,
        row.id = grant.id.asStr ∧ row.revokedAtMs = none := by
  -- In the course of the run the row has only been used and perhaps revoked.
  have htracked : Tracked grant.id (.ofGrant serde grant)
      (run (GrantOperation.perform serde) t before) :=
    tracked_run ⟨hkeys, _, hrow, rfl, refl_of Follows _⟩ hbefore
  obtain ⟨row, hmem, hid, hfollows⟩ := htracked.stored
  change (claimPermissionForProposal serde _ proposal session agentId nowMs).1.toOption.join =
    some grant.id at hused
  rcases claim_cases serde (run (GrantOperation.perform serde) t before).grants proposal
    session agentId nowMs with ⟨hnone, -⟩ | ⟨candidate, hcandidate, heffect, hactive, -, hresult⟩
  · rw [hnone] at hused
    cases hused
  -- What was claimed is this row.
  · have hcid : candidate.id = grant.id.asStr := by
      rw [hresult] at hused
      cases hnew : TypedId.new (.generated .permission) candidate.id with
      | ok id =>
          rw [hnew] at hused
          cases hused
          exact (TypedId.asStr_of_new hnew).symm
      | error e =>
          rw [hnew] at hused
          cases hused
    obtain rfl := htracked.keys.eq_of_mem hcandidate hmem (hcid.trans hid.symm)
    obtain ⟨hbound, hrevoked, hexpiry⟩ := boundTo_of_activeFor hserde hfollows heffect hactive
    exact ⟨hbound, hexpiry, candidate, hcandidate, hcid, hrevoked⟩

end

end Halquen.Storage.GrantUse
