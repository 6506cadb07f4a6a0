import Halquen.Service.Walk

/-!
# What leaves the memory alone

Proposals, confirmations, settings and agents do not touch the tables of the memory: only the four
requests on the memory itself do, two of them as chats (`keeps_sameMemory_handle`).
-/

set_option autoImplicit false

namespace Halquen.Service.MemoryFrame

open Halquen.Domain.Ids Halquen.Policy.Engine Halquen.Capabilities.Executor
open Halquen.Protocol.Messages
open Halquen.Library.Action Halquen.Library.Action.Act
open Halquen.Service.State Halquen.Service.Handler Halquen.Service.Walk
open Halquen.Storage.Grants (StorageError)
open Halquen.Storage.Sqlite

/-- The memory tables are as they were. -/
def SameMemory (s s' : ServiceState) : Prop := s'.data.database.memory = s.data.database.memory

instance : IsPreorder ServiceState SameMemory where
  refl _ := rfl
  trans _ _ _ h h' := h'.trans h

/-- A storage method that leaves the memory alone. -/
def Beside (d d' : Database) : Prop := d'.memory = d.memory

instance : IsPreorder Database Beside where
  refl _ := rfl
  trans _ _ _ h h' := h'.trans h

variable {W : World} {α : Type}

theorem sameMemory_of_quiet (s s' : ServiceState) (h : Quiet s s') : SameMemory s s' := by
  unfold SameMemory
  rw [h.data]

/-- A call of a method beside the memory. -/
theorem keeps_sameMemory_query {method : DbMethod} {action : Act Database StorageError α}
    (h : Keeps Beside action) : Keeps SameMemory (query W method action) :=
  Keeps.mapError (keeps_call_of (fun _ _ _ _ hsame _ => hsame) h) _

/-- Neither the pipeline of the proposals nor the confirmations touch the memory. -/
theorem pipeline_sameMemory (asked : Option PermissionId) : Pipeline W asked SameMemory where
  unsaved _ _ _ hdatabase _ := by rw [SameMemory, hdatabase]
  elsewhere h :=
    keeps_call_of (P := Beside) (fun _ _ _ _ hsame _ => hsame) (h.mono fun _ _ h => h.memory)
  responded _ _ := rfl
  saved s grant _ := by
    have h : Keeps SameMemory (query W .upsertPermissionGrant (saveGrant W.serde grant)) :=
      keeps_sameMemory_query fun _ => rfl
    exact h.post s.next
  revoked _ _ := keeps_sameMemory_query fun _ => rfl
  claimed _ _ _ := keeps_sameMemory_query fun _ => rfl
  appended _ _ := keeps_sameMemory_query fun _ => rfl
  recorded _ _ _ := keeps_sameMemory_query fun _ => rfl

/-- So the requests leave it alone, those on the memory apart. -/
theorem requests_sameMemory (asked : Option PermissionId) : Requests W asked SameMemory :=
  requests_of_pipeline (pipeline_sameMemory asked)

theorem basics_sameMemory : Basics W SameMemory := (requests_sameMemory none).toBasics

/-- The sessions of agents leave it alone. -/
theorem attendance_sameMemory : Attendance W (fun _ => True) SameMemory where
  quiet := sameMemory_of_quiet
  generates _ := trivial
  begun _ := keeps_sameMemory_query fun _ => rfl
  finished _ _ _ := keeps_sameMemory_query fun _ => rfl
  noted _ _ _ _ := keeps_sameMemory_query fun _ => rfl

/-- So do the start and the end of a daemon. -/
theorem starting_sameMemory : Starting W SameMemory where
  quiet := sameMemory_of_quiet
  begun _ := keeps_sameMemory_query fun _ => rfl
  finished _ _ := keeps_sameMemory_query fun _ => rfl
  started _ _ _ _ := rfl

/-- Every request that is not about the memory leaves it as it was. -/
theorem keeps_sameMemory_handle (envelope : RequestEnvelope) (h : ¬ WritesMemory envelope.request) :
    Keeps SameMemory (handle W envelope) :=
  keeps_handle envelope (requests_sameMemory _) (fun hwrites => absurd hwrites h)
    fun _ => attendance_sameMemory

end Halquen.Service.MemoryFrame
