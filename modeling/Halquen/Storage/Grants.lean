import Halquen.Domain.Security
import Halquen.Library.Listing
import Halquen.Library.TextCodec
import Mathlib.Tactic.DeriveCountable

/-!
# The table of permission grants

Rows of `permission_grants` hold text and integers, as the schema declares them; the scope is JSON
text, written and read by a codec that is a parameter. The module defines the statements of the
storage layer on the table: the lookup for a proposal, the upsert, revocation, consumption and the
claim of a grant inside one transaction.

A row written from a grant reads back as that grant (`permissionFromRow_ofGrant`), and the row
filter of the queries accepts it exactly when the grant is active and matches the proposal
(`holds_activeFor_ofGrant`).
-/

set_option autoImplicit false

namespace Halquen.Storage.Grants

open Halquen.Domain.Ids Halquen.Domain.Capability Halquen.Domain.Security
open Halquen.Library.Rules Halquen.Library.Sql Halquen.Library.TextCodec Halquen.Library.Listing

/-- Errors of the storage layer. -/
inductive StorageError where
  | invalidMemoryChange (message : String)
  | invalidInteraction (message : String)
  | database
  | serialization
  deriving DecidableEq, Repr

/-- JSON text of permission scopes. -/
abbrev ScopeCodec := Codec PermissionScope

instance {kind : IdKind} : Countable (TypedId kind) :=
  (show Function.Injective TypedId.asStr from fun _ _ h => TypedId.ext h).countable

deriving instance Countable for ActionArguments
deriving instance Countable for ResourceClassification
deriving instance Countable for ResourceKind
deriving instance Countable for ResourceDescriptor
deriving instance Countable for DestinationClass
deriving instance Countable for PermissionScope

/-! ## Columns -/

/-- The text of an effect in its column. -/
def permissionEffect : PermissionEffect → String
  | .allow => "allow"
  | .deny => "deny"

/-- The effect of a text. -/
def parsePermissionEffect : String → Option PermissionEffect :=
  parseVariant [.allow, .deny] permissionEffect

/-- The text of a lifetime in its column. -/
def permissionLifetime : PermissionLifetime → String
  | .once => "once"
  | .session => "session"
  | .until => "until"
  | .always => "always"

/-- The lifetime of a text. -/
def parsePermissionLifetime : String → Option PermissionLifetime :=
  parseVariant [.once, .session, .until, .always] permissionLifetime

/-- The text of an origin in its column. -/
def actionOrigin : ActionOrigin → String
  | .userExplicit => "user_explicit"
  | .system => "system"
  | .localResolver => "local_resolver"
  | .aiProposal => "ai_proposal"
  | .externalContent => "external_content"
  | .plugin => "plugin"
  | .storedProcedure => "stored_procedure"
  | .agent => "agent"

/-- The origin of a text. -/
def parseActionOrigin : String → Option ActionOrigin :=
  parseVariant [.userExplicit, .system, .localResolver, .aiProposal, .externalContent, .plugin,
    .storedProcedure, .agent] actionOrigin

/-- The kind of a session in its column. -/
def permissionSessionKind : PermissionSessionScope → String
  | .chat _ => "chat"
  | .agent _ => "agent"
  | .daemon _ => "daemon"

/-- The identifier of a session in its column. -/
def permissionSessionId : PermissionSessionScope → String
  | .chat id => id.asStr
  | .agent id => id.asStr
  | .daemon id => id.asStr

/-- An identifier column. -/
def parseId (kind : IdKind) (text : String) : Option (TypedId kind) :=
    (TypedId.new kind text).toOption

/-- The two session columns. Only both or neither may be NULL. -/
def parsePermissionSession : Option String → Option String → Option (Option PermissionSessionScope)
  | none, none => some none
  | some kind, some id =>
      if kind = "chat" then (parseId _ id).map fun id => some (.chat id)
      else if kind = "agent" then (parseId _ id).map fun id => some (.agent id)
      else if kind = "daemon" then (parseId _ id).map fun id => some (.daemon id)
      else none
  | _, _ => none

/-- A column of 32-bit unsigned integers. -/
def parseU32 (value : Int) : Option UInt32 :=
  if 0 ≤ value ∧ value < 2 ^ 32 then some (UInt32.ofNat value.toNat) else none

/-- A row of `permission_grants`. -/
structure GrantRow where
  id : String
  capabilityId : String
  scopeJson : String
  grantedAtMs : Int
  expiresAtMs : Option Int
  revokedAtMs : Option Int
  effect : String
  lifetime : String
  sessionKind : Option String
  sessionId : Option String
  agentId : Option String
  grantedBy : String
  useLimit : Option Int
  useCount : Int
  deriving DecidableEq

/-- Columns written for a grant. -/
def GrantRow.ofGrant (serde : ScopeCodec) (grant : PermissionGrant) : GrantRow where
  id := grant.id.asStr
  capabilityId := grant.scope.capabilityId.asStr
  scopeJson := serde.toText grant.scope
  grantedAtMs := grant.grantedAtMs
  expiresAtMs := grant.expiresAtMs
  revokedAtMs := grant.revokedAtMs
  effect := permissionEffect grant.effect
  lifetime := permissionLifetime grant.lifetime
  sessionKind := grant.session.map permissionSessionKind
  sessionId := grant.session.map permissionSessionId
  agentId := grant.agentId.map TypedId.asStr
  grantedBy := actionOrigin grant.grantedBy
  useLimit := grant.useLimit.map fun limit => (limit.toNat : Int)
  useCount := grant.useCount.toNat

/-- Reads a row; a column that does not convert is an error of the query. -/
def permissionFromRow (serde : ScopeCodec) (row : GrantRow) : Except StorageError PermissionGrant :=
  let read : Option PermissionGrant := do
    let scope ← serde.fromText row.scopeJson
    let id ← parseId _ row.id
    let effect ← parsePermissionEffect row.effect
    let lifetime ← parsePermissionLifetime row.lifetime
    let session ← parsePermissionSession row.sessionKind row.sessionId
    let agentId ← match row.agentId with
      | none => some none
      | some text => (parseId _ text).map some
    let grantedBy ← parseActionOrigin row.grantedBy
    let useLimit ← match row.useLimit with
      | none => some none
      | some limit => (parseU32 limit).map some
    let useCount ← parseU32 row.useCount
    some {
      id, effect, lifetime, scope, session, agentId, grantedBy
      grantedAtMs := row.grantedAtMs
      expiresAtMs := row.expiresAtMs
      revokedAtMs := row.revokedAtMs
      useLimit, useCount }
  match read with
  | some grant => .ok grant
  | none => .error .database

/-- Column constraints of the schema. JSON validity of the scope is what serialisation gives. -/
def GrantRow.checks (row : GrantRow) : Bool :=
  (row.effect == "allow" || row.effect == "deny")
    && (row.lifetime == "once" || row.lifetime == "session" || row.lifetime == "until"
      || row.lifetime == "always")
    && (row.grantedBy == "user_explicit" || row.grantedBy == "system")
    && row.sessionKind.all (fun kind => kind == "chat" || kind == "agent" || kind == "daemon")
    && row.useLimit.all (fun limit => decide (0 < limit))
    && decide (0 ≤ row.useCount)

/-! ## Statements -/

/-- `ON CONFLICT(id) DO UPDATE`: every column but the time of the first grant is replaced. -/
def GrantRow.replacedBy (row old : GrantRow) : GrantRow :=
  { row with id := old.id, grantedAtMs := old.grantedAtMs }

/-- `upsert_permission_grant`: a valid grant is written over the row of its identifier. -/
def upsertPermissionGrant (serde : ScopeCodec) (rows : List GrantRow) (grant : PermissionGrant) :
    Except StorageError (List GrantRow) :=
  match grant.validate with
  | .error _ => .error (.invalidInteraction "invalid permission grant")
  | .ok () =>
      let row := GrantRow.ofGrant serde grant
      if 32768 < row.scopeJson.utf8ByteSize then
        .error (.invalidInteraction "permission scope exceeds 32768 bytes")
      else if row.checks then
        .ok (upsertRow GrantRow.id row row.replacedBy rows)
      else
        .error .database

/-- `use_limit IS NULL OR use_count < use_limit`. -/
def unexhausted (row : GrantRow) : Truth :=
  (isNull row.useLimit).or (lt (some row.useCount) row.useLimit)

/-- `expires_at_ms IS NULL OR expires_at_ms >= ?`. -/
def unexpired (nowMs : Int) (row : GrantRow) : Truth :=
  (isNull row.expiresAtMs).or (ge row.expiresAtMs (some nowMs))

/-- `revoke_permission`: a grant is revoked once. -/
def revokePermission (rows : List GrantRow) (id : PermissionId) (nowMs : Int) :
    Bool × List GrantRow :=
  let cond := fun row : GrantRow =>
    (eq (some row.id) (some id.asStr)).and (isNull row.revokedAtMs)
  (changes cond rows == 1,
    updateRows cond (fun row => { row with revokedAtMs := some nowMs }) rows)

/-- The row after one more use. -/
def GrantRow.use (row : GrantRow) : GrantRow := { row with useCount := row.useCount + 1 }

/-- `consume_permission`: a use is counted while the grant has one left. -/
def consumePermission (rows : List GrantRow) (id : PermissionId) : Bool × List GrantRow :=
  let cond := fun row : GrantRow =>
    (eq (some row.id) (some id.asStr)).and ((isNull row.revokedAtMs).and (unexhausted row))
  (changes cond rows == 1, updateRows cond GrantRow.use rows)

/-- What a query for a proposal is asked with. -/
structure GrantQuery where
  capabilityId : String
  scopeJson : String
  nowMs : Int
  sessionKind : Option String
  sessionId : Option String
  agentId : Option String
  deriving DecidableEq

/-- What is looked for in the table on behalf of a proposal. -/
def GrantQuery.ofProposal (serde : ScopeCodec) (proposal : ActionProposal)
    (session : Option PermissionSessionScope) (agentId : Option AgentId) (nowMs : Int) :
    GrantQuery where
  capabilityId := proposal.action.capabilityId.asStr
  scopeJson := serde.toText (PermissionScope.fromProposal proposal)
  nowMs := nowMs
  sessionKind := session.map permissionSessionKind
  sessionId := session.map permissionSessionId
  agentId := agentId.map TypedId.asStr

/-- Row filter shared by the lookup and the claim. -/
def activeFor (query : GrantQuery) (row : GrantRow) : Truth :=
  (eq (some row.capabilityId) (some query.capabilityId)).and <|
  (eq (some row.scopeJson) (some query.scopeJson)).and <|
  (isNull row.revokedAtMs).and <|
  (unexpired query.nowMs row).and <|
  (unexhausted row).and <|
  (((ne (some row.lifetime) (some "session")).and
      ((isNull row.sessionKind).and (isNull row.sessionId))).or
    ((eq (some row.lifetime) (some "session")).and
      ((is row.sessionKind query.sessionKind).and (is row.sessionId query.sessionId)))).and <|
  ((isNull row.agentId).and (isNull query.agentId)).or (eq row.agentId query.agentId)

/-- `ORDER BY CASE effect WHEN 'deny' THEN 0 ELSE 1 END, granted_at_ms DESC, id`. -/
def lookupKey (row : GrantRow) : Nat ×ₗ Int ×ₗ String :=
  toLex (if row.effect = "deny" then 0 else 1, toLex (-row.grantedAtMs, row.id))

/-- `ORDER BY granted_at_ms DESC, id`. -/
def claimKey (row : GrantRow) : Int ×ₗ String := toLex (-row.grantedAtMs, row.id)

/-- `list_permission_grants`: at most two hundred, the newest first. -/
def listPermissionGrants (serde : ScopeCodec) (rows : List GrantRow) (limit : Nat) :
    Except StorageError (List PermissionGrant) :=
  listRows claimKey (permissionFromRow serde) (min limit 200) rows

/-- The row that the lookup for a proposal finds. -/
def lookupRow (query : GrantQuery) (rows : List GrantRow) : Option GrantRow :=
  firstBy lookupKey (select (activeFor query) rows)

/-- `active_permission_grant_for_proposal`: the one grant that decides about a proposal. -/
def activePermissionGrantForProposal (serde : ScopeCodec) (rows : List GrantRow)
    (proposal : ActionProposal) (session : Option PermissionSessionScope)
    (agentId : Option AgentId) (nowMs : Int) : Except StorageError (Option PermissionGrant) :=
  match lookupRow (.ofProposal serde proposal session agentId nowMs) rows with
  | none => .ok none
  | some row => (permissionFromRow serde row).map some

/-- The row that a claim selects. -/
def claimRow (query : GrantQuery) (rows : List GrantRow) : Option GrantRow :=
  firstBy claimKey
    (select (fun row => (eq (some row.effect) (some "allow")).and (activeFor query row)) rows)

/-- Guard of the conditional increment inside a claim. -/
def claimable (id : String) (nowMs : Int) (row : GrantRow) : Truth :=
  (eq (some row.id) (some id)).and <|
  (isNull row.revokedAtMs).and <|
  (unexpired nowMs row).and (unexhausted row)

/-- Claim of a grant: selection and conditional increment in one transaction, which an error
before the commit rolls back. -/
def claimPermissionForProposal (serde : ScopeCodec) (rows : List GrantRow)
    (proposal : ActionProposal) (session : Option PermissionSessionScope)
    (agentId : Option AgentId) (nowMs : Int) :
    Except StorageError (Option PermissionId) × List GrantRow :=
  match claimRow (.ofProposal serde proposal session agentId nowMs) rows with
  | none => (.ok none, rows)
  | some candidate =>
      if changes (claimable candidate.id nowMs) rows = 1 then
        let rows' := updateRows (claimable candidate.id nowMs) GrantRow.use rows
        match TypedId.new (.generated .permission) candidate.id with
        | .ok id => (.ok (some id), rows')
        | .error _ => (.error (.invalidInteraction "invalid permission id"), rows')
      else
        (.error (.invalidInteraction "permission changed while it was being claimed"), rows)

section Outcomes

variable {serde : ScopeCodec} {rows : List GrantRow} {proposal : ActionProposal}
  {session : Option PermissionSessionScope} {agentId : Option AgentId} {nowMs : Int}

/-- Where no row matches no grant is found. -/
theorem activePermissionGrantForProposal_of_none
    (h : lookupRow (.ofProposal serde proposal session agentId nowMs) rows = none) :
    activePermissionGrantForProposal serde rows proposal session agentId nowMs = .ok none := by
  rw [activePermissionGrantForProposal, h]

/-- The grant found is that of the first row that matches. -/
theorem activePermissionGrantForProposal_of_some {row : GrantRow}
    (h : lookupRow (.ofProposal serde proposal session agentId nowMs) rows = some row) :
    activePermissionGrantForProposal serde rows proposal session agentId nowMs =
      (permissionFromRow serde row).map some := by
  rw [activePermissionGrantForProposal, h]

theorem claimPermissionForProposal_of_none
    (h : claimRow (.ofProposal serde proposal session agentId nowMs) rows = none) :
    claimPermissionForProposal serde rows proposal session agentId nowMs = (.ok none, rows) := by
  rw [claimPermissionForProposal, h]

/-- A claim that selects a row uses it, if it is still claimable. -/
theorem rows_claimPermissionForProposal {row : GrantRow}
    (h : claimRow (.ofProposal serde proposal session agentId nowMs) rows = some row) :
    (claimPermissionForProposal serde rows proposal session agentId nowMs).2 =
      if changes (claimable row.id nowMs) rows = 1 then
        updateRows (claimable row.id nowMs) GrantRow.use rows
      else
        rows := by
  rw [claimPermissionForProposal, h]
  dsimp only
  split
  · split <;> rfl
  · rfl

end Outcomes

/-! ## Rows written from grants -/

section Rows

variable {serde : ScopeCodec}

/-- Each column reads what it writes. -/
theorem parsePermissionEffect_encode (effect : PermissionEffect) :
    parsePermissionEffect (permissionEffect effect) = some effect := by
  apply parseVariant_encode
  · intro a b h
    cases a <;> cases b <;> first | rfl | simp [permissionEffect] at h
  · cases effect <;> simp

theorem parsePermissionLifetime_encode (lifetime : PermissionLifetime) :
    parsePermissionLifetime (permissionLifetime lifetime) = some lifetime := by
  apply parseVariant_encode
  · intro a b h
    cases a <;> cases b <;> first | rfl | simp [permissionLifetime] at h
  · cases lifetime <;> simp

theorem parseActionOrigin_encode (origin : ActionOrigin) :
    parseActionOrigin (actionOrigin origin) = some origin := by
  apply parseVariant_encode
  · intro a b h
    cases a <;> cases b <;> first | rfl | simp [actionOrigin] at h
  · cases origin <;> simp

@[simp]
theorem parseId_asStr {kind : IdKind} (id : TypedId kind) : parseId kind id.asStr = some id := by
  simp [parseId, Except.toOption]

/-- A session is read back from its two columns. -/
theorem parsePermissionSession_encode (session : Option PermissionSessionScope) :
    parsePermissionSession (session.map permissionSessionKind) (session.map permissionSessionId)
      = some session := by
  cases session with
  | none => rfl
  | some scope =>
      cases scope <;>
        simp [parsePermissionSession, permissionSessionKind, permissionSessionId]

@[simp]
theorem parseU32_toNat (n : UInt32) : parseU32 (n.toNat : Int) = some n := by
  have hlt := n.toNat_lt
  have hrange : (0 : Int) ≤ n.toNat ∧ (n.toNat : Int) < 2 ^ 32 := by omega
  unfold parseU32
  rw [if_pos hrange]
  simp

/-- A row reads back as the grant it was written from, if its scope does. -/
theorem permissionFromRow_ofGrant_of_read {grant : PermissionGrant}
    (hread : serde.fromText (serde.toText grant.scope) = some grant.scope) :
    permissionFromRow serde (.ofGrant serde grant) = .ok grant := by
  cases grant with
  | mk id effect lifetime scope session agentId grantedBy grantedAtMs expiresAtMs revokedAtMs
      useLimit useCount =>
    cases agentId <;> cases useLimit <;>
      simp [permissionFromRow, GrantRow.ofGrant, hread, parsePermissionEffect_encode,
        parsePermissionLifetime_encode, parseActionOrigin_encode, parsePermissionSession_encode]

/-- A grant is read back from its row. -/
theorem permissionFromRow_ofGrant (hserde : serde.Lawful) (grant : PermissionGrant) :
    permissionFromRow serde (.ofGrant serde grant) = .ok grant :=
  permissionFromRow_ofGrant_of_read (hserde grant.scope)

theorem asStr_of_parseId {kind : IdKind} {text : String} {id : TypedId kind}
    (h : parseId kind text = some id) : id.asStr = text := by
  unfold parseId at h
  cases hnew : TypedId.new kind text with
  | error e =>
      rw [hnew] at h
      cases h
  | ok found =>
      rw [hnew] at h
      cases h
      exact TypedId.asStr_of_new hnew

theorem toNat_of_parseU32 {value : Int} {n : UInt32} (h : parseU32 value = some n) :
    (n.toNat : Int) = value := by
  unfold parseU32 at h
  split at h
  · rename_i hrange
    cases h
    have hlt : value.toNat < 2 ^ 32 := by omega
    rw [UInt32.toNat_ofNat', Nat.mod_eq_of_lt hlt]
    omega
  · cases h

/-- The columns of a row that reads as a grant. -/
structure ReadsAs (serde : ScopeCodec) (row : GrantRow) (grant : PermissionGrant) : Prop where
  scope : serde.fromText row.scopeJson = some grant.scope
  id : parseId _ row.id = some grant.id
  effect : parsePermissionEffect row.effect = some grant.effect
  lifetime : parsePermissionLifetime row.lifetime = some grant.lifetime
  session : parsePermissionSession row.sessionKind row.sessionId = some grant.session
  agentId : row.agentId = grant.agentId.map TypedId.asStr
  useLimit : row.useLimit = grant.useLimit.map fun limit => (limit.toNat : Int)
  useCount : row.useCount = grant.useCount.toNat
  expiresAtMs : row.expiresAtMs = grant.expiresAtMs
  revokedAtMs : row.revokedAtMs = grant.revokedAtMs

/-- A row that can be read says just what its grant says. -/
theorem readsAs_of_permissionFromRow {row : GrantRow} {grant : PermissionGrant}
    (h : permissionFromRow serde row = .ok grant) : ReadsAs serde row grant := by
  have hsome : ∀ read : Option PermissionGrant,
      (match read with | some grant => .ok grant | none => .error .database) =
        (.ok grant : Except StorageError PermissionGrant) → read = some grant := by
    intro read hread
    cases read with
    | none => cases hread
    | some found => exact congrArg some (Except.ok.inj hread)
  have hread := hsome _ h
  -- The optional columns are either NULL or converted.
  cases hagent : row.agentId <;> cases hlimit : row.useLimit <;>
    simp only [hagent, hlimit, bind, Option.bind_eq_some_iff, Option.map_eq_some_iff] at hread
  all_goals
    obtain ⟨scope, hscope, id, hid, effect, heffect, lifetime, hlifetime, session, hsession,
      hrest⟩ := hread
  · obtain ⟨agentId, ha, grantedBy, -, useLimit, hl, useCount, hcount, heq⟩ := hrest
    cases ha
    cases hl
    cases heq
    exact ⟨hscope, hid, heffect, hlifetime, hsession, hagent, hlimit,
      (toNat_of_parseU32 hcount).symm, rfl, rfl⟩
  · obtain ⟨agentId, ha, grantedBy, -, useLimit, ⟨limit, hl, rfl⟩, useCount, hcount, heq⟩ := hrest
    cases ha
    cases heq
    refine ⟨hscope, hid, heffect, hlifetime, hsession, hagent, ?_,
      (toNat_of_parseU32 hcount).symm, rfl, rfl⟩
    rw [hlimit, Option.map_some, toNat_of_parseU32 hl]
  · obtain ⟨agentId, ⟨agent, ha, rfl⟩, grantedBy, -, useLimit, hl, useCount, hcount, heq⟩ := hrest
    cases hl
    cases heq
    refine ⟨hscope, hid, heffect, hlifetime, hsession, ?_, hlimit,
      (toNat_of_parseU32 hcount).symm, rfl, rfl⟩
    rw [hagent, Option.map_some, asStr_of_parseId ha]
  · obtain ⟨agentId, ⟨agent, ha, rfl⟩, grantedBy, -, useLimit, ⟨limit, hl, rfl⟩, useCount, hcount,
      heq⟩ := hrest
    cases heq
    refine ⟨hscope, hid, heffect, hlifetime, hsession, ?_, ?_, (toNat_of_parseU32 hcount).symm, rfl,
      rfl⟩
    · rw [hagent, Option.map_some, asStr_of_parseId ha]
    · rw [hlimit, Option.map_some, toNat_of_parseU32 hl]

theorem id_of_permissionFromRow {row : GrantRow} {grant : PermissionGrant}
    (h : permissionFromRow serde row = .ok grant) : grant.id.asStr = row.id :=
  asStr_of_parseId (readsAs_of_permissionFromRow h).id

/-- A grant that is saved is written over the row of its identifier. -/
theorem upsertPermissionGrant_spec {rows rows' : List GrantRow} {grant : PermissionGrant}
    (h : upsertPermissionGrant serde rows grant = .ok rows') :
    rows' = upsertRow GrantRow.id (.ofGrant serde grant) (GrantRow.ofGrant serde grant).replacedBy
      rows := by
  unfold upsertPermissionGrant at h
  split at h
  · cases h
  · dsimp only at h
    split at h
    · cases h
    · split at h
      · exact (Except.ok.inj h).symm
      · cases h

/-- A grant that replaces another one is written like one that was given earlier. -/
theorem replacedBy_ofGrant (grant : PermissionGrant) {old : GrantRow}
    (hid : old.id = grant.id.asStr) : (GrantRow.ofGrant serde grant).replacedBy old =
      .ofGrant serde { grant with grantedAtMs := old.grantedAtMs } := by
  simp [GrantRow.replacedBy, GrantRow.ofGrant, hid]

/-- Saving a grant leaves the table readable. -/
theorem readable_upsertPermissionGrant (hserde : serde.Lawful) {rows rows' : List GrantRow}
    {grant : PermissionGrant} (hrows : Readable (permissionFromRow serde) rows)
    (h : upsertPermissionGrant serde rows grant = .ok rows') :
    Readable (permissionFromRow serde) rows' := by
  rw [upsertPermissionGrant_spec h]
  apply hrows.upsert ⟨_, permissionFromRow_ofGrant hserde grant⟩
  intro old _ hid
  rw [replacedBy_ofGrant grant hid]
  exact ⟨_, permissionFromRow_ofGrant hserde _⟩

/-- A grant under a new identifier is listed, where the listing reaches it. -/
theorem grant_listed_iff (hserde : serde.Lawful) {rows rows' : List GrantRow}
    {grant : PermissionGrant} (h : upsertPermissionGrant serde rows grant = .ok rows')
    (hfresh : ∀ r ∈ rows, r.id ≠ grant.id.asStr) (limit : Nat) :
    Listed (fun g => g.id.asStr) (listPermissionGrants serde rows' limit) grant ↔
      Reaches claimKey (permissionFromRow serde) (min limit 200) rows (.ofGrant serde grant) := by
  have hnew : ∀ r ∈ rows, r.id ≠ (GrantRow.ofGrant serde grant).id := hfresh
  have hident : ∀ r w, permissionFromRow serde r = .ok w → w.id.asStr = GrantRow.id r :=
    fun _ _ => id_of_permissionFromRow
  have hkey : ∀ r ∈ rows, claimKey r ≠ claimKey (.ofGrant serde grant) := by
    intro r hr heq
    exact hfresh r hr (congrArg (fun key => (ofLex key).2) heq)
  rw [upsertPermissionGrant_spec h, upsertRow_of_fresh hnew]
  have hlisted := listed_append_iff hident hnew hkey (permissionFromRow_ofGrant hserde grant) rfl
    (min limit 200)
  exact hlisted.trans (and_iff_right rfl)

/-- A row that reads as a grant has the word of its effect. -/
theorem effect_of_permissionFromRow {row : GrantRow} {grant : PermissionGrant}
    (h : permissionFromRow serde row = .ok grant) : permissionEffect grant.effect = row.effect :=
  encode_of_parseVariant (readsAs_of_permissionFromRow h).effect

/-- Different sessions differ in their columns. -/
theorem permissionSession_columns_injective {a b : Option PermissionSessionScope}
    (hkind : a.map permissionSessionKind = b.map permissionSessionKind)
    (hid : a.map permissionSessionId = b.map permissionSessionId) : a = b := by
  have ha := parsePermissionSession_encode a
  rw [hkind, hid, parsePermissionSession_encode b] at ha
  exact (Option.some.inj ha).symm

theorem asStr_columns_injective {kind : IdKind} {a b : Option (TypedId kind)}
    (h : a.map TypedId.asStr = b.map TypedId.asStr) : a = b :=
  Option.map_injective (fun _ _ => TypedId.ext) h

/-- The condition of the query on time. -/
@[simp]
theorem holds_unexpired (nowMs : Int) (row : GrantRow) :
    holds (unexpired nowMs row) = true ↔ ∀ expiry ∈ row.expiresAtMs, nowMs ≤ expiry := by
  cases h : row.expiresAtMs <;> simp [unexpired, h]

/-- The condition of the query on uses. -/
@[simp]
theorem holds_unexhausted (row : GrantRow) :
    holds (unexhausted row) = true ↔ ∀ limit ∈ row.useLimit, row.useCount < limit := by
  cases h : row.useLimit <;> simp [unexhausted, h]

/-- Meaning of the row filter in terms of the columns. -/
theorem holds_activeFor (query : GrantQuery) (row : GrantRow) :
    holds (activeFor query row) = true ↔
      row.capabilityId = query.capabilityId ∧ row.scopeJson = query.scopeJson ∧
      row.revokedAtMs = none ∧ (∀ expiry ∈ row.expiresAtMs, query.nowMs ≤ expiry) ∧
      (∀ limit ∈ row.useLimit, row.useCount < limit) ∧
      ((row.lifetime ≠ "session" ∧ row.sessionKind = none ∧ row.sessionId = none) ∨
        (row.lifetime = "session" ∧ row.sessionKind = query.sessionKind ∧
          row.sessionId = query.sessionId)) ∧
      row.agentId = query.agentId := by
  have hagent : ((row.agentId = none ∧ query.agentId = none) ∨
      (row.agentId.isSome = true ∧ row.agentId = query.agentId)) ↔
        row.agentId = query.agentId := by
    cases row.agentId <;> cases query.agentId <;> simp
  simp only [activeFor, holds_and, holds_or, holds_eq, holds_ne, holds_is, holds_isNull,
    holds_unexpired, holds_unexhausted, Option.isSome_some, true_and, Option.some.injEq, hagent,
    ne_eq]

/-- A grant whose lifetime and session fit together. -/
def SessionShaped (grant : PermissionGrant) : Prop :=
  grant.lifetime = .session ↔ grant.session.isSome = true

theorem sessionShaped_of_validate {grant : PermissionGrant} (h : grant.validate = .ok ()) :
    SessionShaped grant := by
  rw [PermissionGrant.validate, firstFailure_eq_ok_iff] at h
  simp only [silent_cons, silent_nil, rule_eq_none_iff, and_true, Bool.or_eq_false_iff] at h
  obtain ⟨⟨⟨⟨⟨-, hsome⟩, hnone⟩, -⟩, -⟩, -⟩ := h
  unfold SessionShaped
  by_cases hlife : grant.lifetime = .session
  · simp only [hlife, beq_self_eq_true, Bool.true_and] at hsome
    cases hs : grant.session with
    | none => simp [hs] at hsome
    | some scope => simp [hlife]
  · have hne : (grant.lifetime != .session) = true := by simpa using hlife
    simp only [hne, Bool.true_and] at hnone
    simp [hlife, hnone]

/-- What holds of the rows of well-shaped grants and of every row before holds after an upsert. -/
theorem forall_upsertPermissionGrant {rows rows' : List GrantRow} {grant : PermissionGrant}
    {P : GrantRow → Prop} (h : upsertPermissionGrant serde rows grant = .ok rows')
    (hrows : ∀ row ∈ rows, P row)
    (hnew : ∀ g, SessionShaped g → P (.ofGrant serde g)) : ∀ row ∈ rows', P row := by
  have hshape : SessionShaped grant := by
    unfold upsertPermissionGrant at h
    split at h
    · cases h
    · rename_i hvalid
      exact sessionShaped_of_validate hvalid
  rw [upsertPermissionGrant_spec h]
  intro row hrow
  rcases mem_upsertRow hrow with ⟨hold, -⟩ | ⟨old, -, hid, rfl⟩ | ⟨rfl, -⟩
  · exact hrows row hold
  · rw [replacedBy_ofGrant grant hid]
    exact hnew _ hshape
  · exact hnew grant hshape

/-- The row filter accepts the row of a grant exactly when the grant is active and matches, if the
two scopes are told apart by their texts. -/
theorem holds_activeFor_ofGrant_of_apart {grant : PermissionGrant} {proposal : ActionProposal}
    (hapart : serde.toText grant.scope = serde.toText (PermissionScope.fromProposal proposal) →
      grant.scope = PermissionScope.fromProposal proposal)
    (hshape : SessionShaped grant) (session : Option PermissionSessionScope)
    (agentId : Option AgentId) (nowMs : Int) :
    holds (activeFor (.ofProposal serde proposal session agentId nowMs)
        (.ofGrant serde grant)) = true ↔
      (grant.isActive nowMs session agentId && grant.scope.matches proposal) = true := by
  have hlimit : (∀ limit ∈ (GrantRow.ofGrant serde grant).useLimit,
      (GrantRow.ofGrant serde grant).useCount < limit) ↔
        ∀ limit ∈ grant.useLimit, grant.useCount < limit := by
    cases h : grant.useLimit <;> simp [GrantRow.ofGrant, h, UInt32.lt_iff_toNat_lt]
  have hlifetime : permissionLifetime grant.lifetime = "session" ↔ grant.lifetime = .session := by
    cases grant.lifetime <;> simp [permissionLifetime]
  have hscope : serde.toText grant.scope = serde.toText (PermissionScope.fromProposal proposal) ↔
      grant.scope = PermissionScope.fromProposal proposal := ⟨hapart, congrArg _⟩
  rw [holds_activeFor, hlimit, Bool.and_eq_true, PermissionGrant.isActive_iff,
    PermissionScope.matches_iff]
  simp only [GrantRow.ofGrant, GrantQuery.ofProposal, hlifetime, hscope, Option.map_eq_none_iff,
    ne_eq]
  constructor
  -- From the columns to the grant.
  · rintro ⟨-, heq, hrevoked, hexpiry, huses, hsession, hagent⟩
    refine ⟨⟨hrevoked, hexpiry, huses, ?_, asStr_columns_injective hagent⟩, heq⟩
    intro hlife
    rcases hsession with ⟨hother, -⟩ | ⟨-, hkind, hid⟩
    · exact absurd hlife hother
    · exact permissionSession_columns_injective hkind hid
  -- From the grant to the columns, where a grant without a session has none.
  · rintro ⟨⟨hrevoked, hexpiry, huses, hsession, hagent⟩, heq⟩
    refine ⟨by rw [heq]; rfl, heq, hrevoked, hexpiry, huses, ?_, by rw [hagent]⟩
    by_cases hlife : grant.lifetime = .session
    · rw [hsession hlife]
      exact .inr ⟨hlife, rfl, rfl⟩
    · have hnone : grant.session = none :=
        Option.not_isSome_iff_eq_none.mp ((not_congr hshape).mp hlife)
      exact .inl ⟨hlife, hnone, hnone⟩

/-- The query selects the rows of the grants that are active for the proposal. -/
theorem holds_activeFor_ofGrant (hserde : serde.Lawful) {grant : PermissionGrant}
    (hshape : SessionShaped grant) (proposal : ActionProposal)
    (session : Option PermissionSessionScope) (agentId : Option AgentId) (nowMs : Int) :
    holds (activeFor (.ofProposal serde proposal session agentId nowMs)
        (.ofGrant serde grant)) = true ↔
      (grant.isActive nowMs session agentId && grant.scope.matches proposal) = true :=
  holds_activeFor_ofGrant_of_apart (fun h => hserde.injective h) hshape session agentId nowMs

/-- A row that the filter of a proposal accepts reads as a grant that is active and matches. -/
theorem active_of_permissionFromRow {row : GrantRow} {grant : PermissionGrant}
    (hread : permissionFromRow serde row = .ok grant) {proposal : ActionProposal}
    (hserde : serde.fromText (serde.toText (.fromProposal proposal)) =
      some (.fromProposal proposal)) {session : Option PermissionSessionScope}
    {agentId : Option AgentId} {nowMs : Int}
    (h : holds (activeFor (.ofProposal serde proposal session agentId nowMs) row) = true) :
    grant.isActive nowMs session agentId = true ∧ grant.scope = .fromProposal proposal := by
  have hcolumns := readsAs_of_permissionFromRow hread
  rw [holds_activeFor] at h
  obtain ⟨-, hjson, hrevoked, hexpiry, huses, hsession, hagent⟩ := h
  -- Each column that the query compares is a field of the grant.
  rw [hcolumns.revokedAtMs] at hrevoked
  rw [hcolumns.expiresAtMs] at hexpiry
  rw [hcolumns.useLimit, hcolumns.useCount] at huses
  rw [hcolumns.agentId] at hagent
  constructor
  · refine (PermissionGrant.isActive_iff _ _ _ _).mpr ⟨hrevoked, hexpiry, ?_, ?_, ?_⟩
    · intro limit hlimit
      have hlt := huses limit.toNat (Option.mem_map_of_mem _ hlimit)
      exact UInt32.lt_iff_toNat_lt.mpr (Int.ofNat_lt.mp hlt)
    · intro hlifetime
      have hword : row.lifetime = "session" := by
        rw [← encode_of_parseVariant hcolumns.lifetime, hlifetime]
        rfl
      rcases hsession with ⟨hother, -⟩ | ⟨-, hkind, hid⟩
      · exact absurd hword hother
      · -- The session columns read as the session of the query and as that of the grant.
        have hparsed := hcolumns.session
        rw [hkind, hid] at hparsed
        exact Option.some.inj (hparsed.symm.trans (parsePermissionSession_encode session))
    · exact asStr_columns_injective hagent
  · have hscope := hcolumns.scope
    rw [hjson] at hscope
    exact (Option.some.inj (hserde.symm.trans hscope)).symm

end Rows

end Halquen.Storage.Grants
