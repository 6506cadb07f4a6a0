import Halquen.Service.Agents
import Halquen.Service.Handler
import Halquen.Service.SecurityService
import Halquen.Storage.RoundTrips
import Halquen.Library.Ranking
import Halquen.Library.Run

/-!
# Lookups of agents

A run of an agent and a grant for an agent look the agent up in the listing that is shown to the
user: the first hundred agents in the order of their names. An agent that is stored is found there
exactly if fewer than a hundred others come before it (`agent_lookup_iff`). In a larger table the
agents behind the page can neither be run nor be given a grant, although nothing is wrong with them.
-/

set_option autoImplicit false

namespace Halquen.Service.AgentLookups

open Halquen.Domain.Ids Halquen.Domain.Capability Halquen.Domain.Agent Halquen.Protocol.Messages
open Halquen.Library.Action Halquen.Library.Action.Act Halquen.Library.Listing
open Halquen.Library.Ranking Halquen.Library.Run Halquen.Library.Sql
open Halquen.Service.State Halquen.Service.Agents Halquen.Service.SecurityService
open Halquen.Storage.Agents Halquen.Storage.RoundTrips
open Halquen.Storage.Grants (StorageError)
open Halquen.Storage.Labels (nocaseKey)

/-! ## Tables that are reached -/

/-- A change of the table of agents. -/
inductive AgentChange where
  | save (agent : AgentConfiguration)
  | remove (id : AgentId)

/-- A configuration that is refused changes nothing. -/
def changeAgents (codec : ArgumentsCodec) (rows : List AgentRow) : AgentChange → List AgentRow
  | .save agent => (upsertAgent codec rows agent).toOption.getD rows
  | .remove id => (removeAgent rows id).2

/-- Every row reads back, and no two have the same identifier. -/
structure Sound (codec : ArgumentsCodec) (rows : List AgentRow) : Prop where
  readable : Readable (agentFromRow codec) rows
  unique : (rows.map AgentRow.id).Nodup

section

variable {codec : ArgumentsCodec} {rows : List AgentRow}

theorem sound_changeAgents (hcodec : codec.Lawful) (rows : List AgentRow) (change : AgentChange)
    (h : Sound codec rows) : Sound codec (changeAgents codec rows change) := by
  cases change with
  | save agent =>
      rw [changeAgents]
      cases hsaved : upsertAgent codec rows agent with
      | ok rows' =>
          refine ⟨readable_upsertAgent hcodec h.readable hsaved, ?_⟩
          obtain ⟨-, rfl⟩ := upsertAgent_spec hsaved
          have hunique : UniqueKey AgentRow.id rows := h.unique
          exact hunique.upsert fun old hid => hid
      | error e => exact h
  | remove id =>
      refine ⟨fun row hrow => h.readable row (List.mem_of_mem_filter hrow), ?_⟩
      exact UniqueKey.delete h.unique _

/-- Whatever is saved and removed, the table is sound. -/
theorem sound_run (hcodec : codec.Lawful) (changes : List AgentChange) :
    Sound codec (run (changeAgents codec) [] changes) :=
  run_invariant (sound_changeAgents hcodec) ⟨by simp [Readable], by simp⟩ changes

/-- The order of the listing tells agents apart. -/
theorem nodup_agentKey (h : Sound codec rows) : (rows.map agentKey).Nodup := by
  apply List.Nodup.of_map fun key : (String ×ₗ Nat) ×ₗ String => (ofLex key).2
  rw [List.map_map]
  exact h.unique

/-! ## Lookups -/

/-- How many agents are listed before this one. -/
def rank (rows : List AgentRow) (row : AgentRow) : Nat :=
  rows.countP fun other => decide (agentKey other < agentKey row)

/-- A search through the first hundred agents. -/
theorem find?_listAgents (h : Sound codec rows) {row : AgentRow} (hrow : row ∈ rows) {id : AgentId}
    (hid : row.id = id.asStr) :
    ∃ agents stored, listAgents codec rows 100 = .ok agents ∧ agentFromRow codec row = .ok stored ∧
      (agents.find? fun agent => agent.id == id) =
        if rank rows row < 100 then some stored else none := by
  obtain ⟨stored, hstored⟩ := h.readable row hrow
  have hident : ∀ other agent, agentFromRow codec other = .ok agent → agent.id.asStr = other.id :=
    fun _ _ => id_of_agentFromRow
  obtain ⟨agents, hagents, hfind⟩ := find?_listRows agentKey hident h.readable h.unique
    (nodup_agentKey h) hrow hstored (min 100 100)
  refine ⟨agents, stored, hagents, hstored, ?_⟩
  have hsame : (fun agent : AgentConfiguration => agent.id == id) =
      fun agent => agent.id.asStr == row.id := by
    funext agent
    rw [hid, Bool.eq_iff_iff, beq_iff_eq, beq_iff_eq]
    exact ⟨congrArg TypedId.asStr, TypedId.ext⟩
  rw [hsame, hfind]
  rfl

end

section

variable {W : World} {s : ServiceState} {row : AgentRow} {id : AgentId}

/-- The run of an agent finds the configuration that is stored for it. -/
def Finds (W : World) (s : ServiceState) (row : AgentRow) (id : AgentId) : Prop :=
  ∃ configuration s', configuredAgent W id s = (.ok configuration, s') ∧
    agentFromRow W.arguments row = .ok configuration

/-- A grant for the agent is accepted as one for a configured agent. -/
def Accepts (W : World) (s : ServiceState) (id : AgentId) : Prop :=
  ∃ s', requireAgent W (some id) s = (.ok (), s')

theorem read_listAgents (hquery : W.fails .listAgents (s.calls .listAgents) = false)
    {agents : List AgentConfiguration}
    (hagents : listAgents W.arguments s.data.database.agents 100 = .ok agents) :
    read W .listAgents (fun d => listAgents W.arguments d.agents 100) s =
      (.ok agents, s.called .listAgents s.data.database []) := by
  have hpost : Post (read W .listAgents fun d => listAgents W.arguments d.agents 100) s fun r s' =>
      (r, s') = (.ok agents, s.called .listAgents s.data.database []) := by
    refine (post_read rfl).mpr ⟨fun hfails => ?_, fun _ => ?_⟩
    · rw [hquery] at hfails
      cases hfails
    · rw [hagents]
      rfl
  exact hpost

/-- The two lookups of a stored agent. -/
theorem lookups_eq (h : Sound W.arguments s.data.database.agents)
    (hquery : W.fails .listAgents (s.calls .listAgents) = false)
    (hrow : row ∈ s.data.database.agents) (hid : row.id = id.asStr) :
    ∃ stored s', agentFromRow W.arguments row = .ok stored ∧
      configuredAgent W id s = (if rank s.data.database.agents row < 100 then .ok stored
        else .error (failure .notFound "agent is not configured"), s') ∧
      requireAgent W (some id) s = (if rank s.data.database.agents row < 100 then .ok ()
        else .error (validation "permission agent is not configured"), s') := by
  obtain ⟨agents, stored, hagents, hstored, hfind⟩ := find?_listAgents h hrow hid
  have hread := read_listAgents hquery hagents
  refine ⟨stored, s.called .listAgents s.data.database [], hstored, ?_, ?_⟩
  · rw [configuredAgent, bind_of_ok hread, hfind]
    split
    · rfl
    · rfl
  -- Both lookups go through the same listing, so both find the agent or neither does.
  · have hany : (agents.any fun agent => agent.id == id) =
        decide (rank s.data.database.agents row < 100) := by
      rw [Bool.eq_iff_iff, List.any_eq_true, ← List.find?_isSome, hfind, decide_eq_true_eq]
      split
      · rename_i hrank
        exact iff_of_true rfl hrank
      · rename_i hrank
        exact iff_of_false Bool.false_ne_true hrank
    rw [requireAgent, bind_of_ok hread, hany]
    split
    · rename_i hrank
      exact require_of_true (decide_eq_true hrank) _
    · rename_i hrank
      rw [decide_eq_false hrank]
      rfl

/-- After every run of changes of the table: a stored agent is found, and accepted, exactly if fewer
than a hundred agents are listed before it. Behind them it is reported as not configured. -/
theorem agent_lookup_iff (hcodec : W.arguments.Lawful) (changes : List AgentChange)
    (hagents : s.data.database.agents = run (changeAgents W.arguments) [] changes)
    (hquery : W.fails .listAgents (s.calls .listAgents) = false)
    (hrow : row ∈ s.data.database.agents) (hid : row.id = id.asStr) :
    (Finds W s row id ↔ rank s.data.database.agents row < 100) ∧
      (Accepts W s id ↔ rank s.data.database.agents row < 100) ∧
      (100 ≤ rank s.data.database.agents row →
        (∀ request : AgentRunRequest, request.agentId = id →
          isBlank request.input = false → request.input.utf8ByteSize ≤ 64 * 1024 →
            (runAgent W request s).1 =
              .error (failure .notFound "agent is not configured")) ∧
        ∀ (input : PermissionGrantUpsert) (descriptor : CapabilityDescriptor),
          input.agentId = some id → s.data.registry.get input.capabilityId = some descriptor →
          input.arguments.kind = descriptor.arguments → input.resources.length ≤ 16 →
            (upsertPermissionGrant W input s).1 =
              .error (validation "permission agent is not configured")) := by
  have hsound : Sound W.arguments s.data.database.agents := by
    rw [hagents]
    exact sound_run hcodec changes
  obtain ⟨stored, s', hstored, hconfigured, hrequired⟩ := lookups_eq hsound hquery hrow hid
  refine ⟨?_, ?_, fun hbehind => ?_⟩
  · constructor
    · rintro ⟨configuration, s₁, hfound, -⟩
      by_contra hrank
      rw [hconfigured, if_neg hrank] at hfound
      cases hfound
    · intro hrank
      exact ⟨stored, s', by rw [hconfigured, if_pos hrank], hstored⟩
  · constructor
    · rintro ⟨s₁, haccepted⟩
      by_contra hrank
      rw [hrequired, if_neg hrank] at haccepted
      cases haccepted
    · intro hrank
      exact ⟨s', by rw [hrequired, if_pos hrank]⟩
  · rw [if_neg (Nat.not_lt_of_le hbehind)] at hconfigured hrequired
    constructor
    -- A run is refused after its input was checked.
    · rintro request rfl hinput hsize
      have hvalid : (!isBlank request.input &&
          decide (request.input.utf8ByteSize ≤ 64 * 1024)) = true := by
        rw [hinput, decide_eq_true hsize]
        rfl
      rw [runAgent, bind_of_ok (require_of_true hvalid _), bind_of_error hconfigured]
    -- A grant is refused after its capability and scope were checked.
    · intro input descriptor hagent hregistered hkind hresources
      have hscope : (input.arguments.kind == descriptor.arguments &&
          decide (input.resources.length ≤ 16)) = true := by
        rw [hkind, decide_eq_true hresources, beq_self_eq_true]
        rfl
      have hfound : orThrow (validation "permission capability is not registered")
          (s.data.registry.get input.capabilityId) s = (.ok descriptor, s) := by
        rw [hregistered]
        rfl
      rw [upsertPermissionGrant, bind_of_ok (gets_eq _), bind_of_ok hfound,
        bind_of_ok (require_of_true hscope _), hagent, bind_of_error hrequired]

end

/-! ## A directory with more than a page -/

/-- A world in which nothing changes. -/
noncomputable def directoryWorld : World :=
  { World.steady (.listed []) with arguments := noArguments }

/-- The text of a number: so many letters and one more. -/
def text (n : Nat) : String := .ofList (List.replicate (n + 1) 'a')

/-- The agent of a number. -/
def agentNo (n : Nat) : AgentId :=
  (Storage.Grants.parseId _ (text n)).getD (.generate .agent ⟨0, 0, 0⟩)

/-- A hundred agents are called `a`, and one `b`. -/
def entry (n : Nat) : AgentConfiguration :=
  { configured "/usr/bin/true" with id := agentNo n, name := if n < 100 then "a" else "b" }

/-- Its row in the table. -/
noncomputable def entryRow (n : Nat) : AgentRow := .ofAgent noArguments (entry n)

theorem asStr_agentNo (n : Nat) (hn : n < 101) : (agentNo n).asStr = text n := by
  have hletters : (List.replicate (n + 1) 'a').all isOpaqueChar = true := by
    rw [List.all_replicate]
    simp
    decide
  have hvalid : validateOpaque (text n) = .ok () := by
    apply (validateOpaque_eq_ok_iff _).mpr
    refine ⟨?_, ?_, ?_⟩
    · intro hempty
      have hlength := congrArg (fun s => s.toList.length) hempty
      simp [text] at hlength
    · rw [text, utf8ByteSize_of_all_opaque _ hletters, List.length_replicate, maxIdLen]
      omega
    · rw [text, String.toList_ofList]
      exact hletters
  have hparsed : Storage.Grants.parseId _ (text n) = some (⟨text n, hvalid⟩ : AgentId) :=
    Storage.Grants.parseId_asStr (⟨text n, hvalid⟩ : AgentId)
  rw [agentNo, hparsed]
  rfl

theorem text_injective {m n : Nat} (h : text m = text n) : m = n := by
  have hlength := congrArg (fun s => s.toList.length) h
  simp only [text, String.toList_ofList, List.length_replicate] at hlength
  omega

/-- No rule is about the identifier. -/
theorem accepted_entry (n : Nat) :
    (entry n).validate = .ok () ∧ fitsInteger (entry n).timeoutMs = true ∧
      (unsignedValues (entry n)).all fitsInteger = true ∧ (entryRow n).checks = true := by
  have hname : ∀ name ∈ ["a", "b"],
      { configured "/usr/bin/true" with name := name }.validate = .ok () ∧
      fitsInteger (configured "/usr/bin/true").timeoutMs = true ∧
      (unsignedValues (configured "/usr/bin/true")).all fitsInteger = true ∧
      (AgentRow.ofAgent noArguments { configured "/usr/bin/true" with name := name }).checks =
        true := by
    decide
  apply hname (if n < 100 then "a" else "b")
  split
  · exact List.mem_cons_self
  · exact List.mem_cons_of_mem _ List.mem_cons_self

/-- The next agent is saved after those with smaller numbers. -/
theorem saved_entry {n : Nat} (hn : n < 101) :
    Storage.Agents.upsertAgent noArguments ((List.range n).map entryRow) (entry n) =
      .ok ((List.range (n + 1)).map entryRow) := by
  obtain ⟨hvalid, htimeout, hvalues, hchecks⟩ := accepted_entry n
  have hother : ∀ old ∈ (List.range n).map entryRow, old.id ≠ (entryRow n).id := by
    intro old hold
    obtain ⟨m, hm, rfl⟩ := List.mem_map.mp hold
    have hlt := List.mem_range.mp hm
    intro hsame
    have htext : (agentNo m).asStr = (agentNo n).asStr := hsame
    rw [asStr_agentNo m (hlt.trans hn), asStr_agentNo n hn] at htext
    exact hlt.ne (text_injective htext)
  unfold Storage.Agents.upsertAgent
  simp only [except_bind_eq_ok_iff, rejectIf_eq_ok_iff]
  refine ⟨(), ?_, (), ?_, (), ?_, (), ?_, ?_⟩
  · rw [hvalid]
    rfl
  · rw [htimeout]
    rfl
  · rw [hvalues]
    rfl
  · show (!((entryRow n).checks && _)) = false
    rw [hchecks, Bool.true_and, Bool.not_eq_false', List.all_eq_true]
    intro old hold
    simpa using .inl (hother old hold)
  · show Except.ok (upsertRow AgentRow.id (entryRow n) _ _) = _
    rw [upsertRow_of_fresh hother, List.range_succ, List.map_append]
    rfl

theorem run_entries (n : Nat) (hn : n ≤ 101) :
    run (changeAgents noArguments) [] ((List.range n).map fun k => .save (entry k)) =
      (List.range n).map entryRow := by
  induction n with
  | zero => rfl
  | succ n ih =>
      rw [List.range_succ, List.map_append, run_append, ih (Nat.le_of_succ_le hn)]
      show changeAgents noArguments _ (.save (entry n)) = _
      rw [changeAgents, saved_entry hn, List.range_succ]
      rfl

/-- The service with the first agents of the directory. -/
noncomputable def directory (n : Nat) : ServiceState :=
  let s := Handler.blank directoryWorld .new .new
  { s with data.database.agents := (List.range n).map entryRow }

/-- The only agent of a table is found. -/
theorem agent_lookup_single :
    Finds directoryWorld (directory 1) (entryRow 0) (agentNo 0) ∧
      Accepts directoryWorld (directory 1) (agentNo 0) := by
  have hall := @agent_lookup_iff directoryWorld (directory 1) (entryRow 0) (agentNo 0)
    noArguments_lawful ((List.range 1).map fun k => .save (entry k))
    (run_entries 1 (by omega)).symm rfl List.mem_cons_self rfl
  have hrank : rank (directory 1).data.database.agents (entryRow 0) < 100 :=
    (show rank [entryRow 0] (entryRow 0) ≤ 1 from List.countP_le_length).trans_lt (by omega)
  exact ⟨hall.1.mpr hrank, hall.2.1.mpr hrank⟩

/-- All agents called `a` are listed before the one called `b`. -/
theorem rank_last : rank ((List.range 101).map entryRow) (entryRow 100) = 100 := by
  have hbefore : ∀ row ∈ (List.range 100).map entryRow, agentKey row < agentKey (entryRow 100) := by
    intro row hrow
    obtain ⟨n, hn, rfl⟩ := List.mem_map.mp hrow
    apply Prod.Lex.toLex_lt_toLex.mpr
    left
    have hname : (entryRow n).name = "a" := if_pos (List.mem_range.mp hn)
    have hlast : nocaseKey "a" < nocaseKey (entryRow 100).name := by decide
    rw [hname]
    exact hlast
  rw [rank, List.range_succ, List.map_append, List.countP_append, List.countP_eq_length.mpr]
  · rw [List.length_map, List.length_range]
    simp
  · intro row hrow
    exact decide_eq_true (hbefore row hrow)

/-- The agent called `b` is stored, and neither lookup finds it. -/
theorem agent_lookup_lost :
    ¬ ∀ (W : World) (s : ServiceState) (changes : List AgentChange) (row : AgentRow) (id : AgentId),
      W.arguments.Lawful →
      s.data.database.agents = run (changeAgents W.arguments) [] changes →
      W.fails .listAgents (s.calls .listAgents) = false →
      row ∈ s.data.database.agents → row.id = id.asStr → Finds W s row id ∧ Accepts W s id := by
  intro h
  have hagents := (run_entries 101 le_rfl).symm
  have hmem : entryRow 100 ∈ (directory 101).data.database.agents :=
    List.mem_map.mpr ⟨100, List.mem_range.mpr (by omega), rfl⟩
  obtain ⟨-, s', haccepted⟩ := h directoryWorld (directory 101) _ (entryRow 100) (agentNo 100)
    noArguments_lawful hagents rfl hmem rfl
  have hsound : Sound noArguments (directory 101).data.database.agents := by
    show Sound noArguments ((List.range 101).map entryRow)
    rw [hagents]
    exact sound_run noArguments_lawful _
  obtain ⟨_, _, -, -, hrequired⟩ := lookups_eq (W := directoryWorld) hsound rfl hmem rfl
  have hrank : rank (directory 101).data.database.agents (entryRow 100) = 100 := rank_last
  have hrefused := haccepted.symm.trans hrequired
  rw [hrank] at hrefused
  cases hrefused

end Halquen.Service.AgentLookups
