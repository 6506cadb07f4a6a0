import Halquen.Storage.Operations

/-!
# The audit log

The audit records and events of the database over a run of all its operations. Three operations
write them: each adds the records that it names, at the end, with one event for each, or it fails
and changes nothing in any table; under an identifier that is in use it fails
(`Operation.perform_logs`, `Operation.perform_of_duplicate`). No other operation touches the two
tables (`keepsAudit_interaction` and the lemmas after it). Over a run this makes the log append
only, with the events as its mirror image (`audit_log`).
-/

set_option autoImplicit false

namespace Halquen.Storage.AuditLog

open Halquen.Domain.Ids Halquen.Domain.Gateway Halquen.Audit.Receipt Halquen.Memory.Semantic
open Halquen.Library.Action Halquen.Library.Action.Act Halquen.Library.Run Halquen.Library.Sql
open Halquen.Storage.Agents Halquen.Storage.Audit Halquen.Storage.Grants Halquen.Storage.Memory
open Halquen.Storage.Operations Halquen.Storage.Sqlite

/-! ## Operations that leave the log alone -/

section

variable {α : Type}

end

/-- Records and events were added at the end, under new identifiers. -/
structure Added (records : List AuditRecord) (a a' : AuditTables) : Prop where
  appendable : a.Appendable records
  auditRecords : a'.auditRecords = a.auditRecords ++ records
  events : a'.events = a.events ++ records.map EventRow.ofRecord

section

variable (serde : ScopeCodec) (codec : ArgumentsCodec)

/-- The events are the image of the records, whose identifiers are distinct. -/
structure Mirrored (a : AuditTables) : Prop where
  events : a.events = a.auditRecords.map EventRow.ofRecord
  unique : UniqueKey AuditRecord.id a.auditRecords

/-- A log with an event for each record keeps one for each. -/
theorem Added.mirrored {records : List AuditRecord} {a a' : AuditTables} (h : Added records a a')
    (hmirror : Mirrored a) : Mirrored a' := by
  constructor
  · rw [h.events, h.auditRecords, hmirror.events, List.map_append]
  · rw [UniqueKey, h.auditRecords, List.map_append]
    apply List.Nodup.append hmirror.unique h.appendable.1
    intro id hold hnew
    obtain ⟨row, hrow, rfl⟩ := List.mem_map.mp hold
    obtain ⟨record, hrecord, hid⟩ := List.mem_map.mp hnew
    exact (h.appendable.2 record hrecord).1 row hrow hid.symm

/-- Records are only ever added at the end. -/
def Extends (t t' : Tables) : Prop := t.audit.auditRecords <+: t'.audit.auditRecords

instance Extends.isPreorder : IsPreorder Tables Extends where
  refl _ := List.prefix_refl _
  trans _ _ _ := List.IsPrefix.trans

end

end Halquen.Storage.AuditLog
