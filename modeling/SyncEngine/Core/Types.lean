import SyncEngine.Js.Walk

/-!
# The data model

The records of `src/core/types.ts` that the state manager, its persistence and its
synchronizer exchange.  An entity's `data` and the values that operations carry are held
through a memory (`Core/Memory.lean`): an entity record holds the address of its data object,
and the type `V` of operation values is a parameter of operations and deltas.  The records that
stand in files and messages instead hold documents.
-/

namespace SyncEngine

open Js

abbrev EntityId := String
abbrev NodeId := String
abbrev Timestamp := ℕ

/-- The address of an object: which object text or object literal it was made from, counted
from the start of the process, and the property path inside that text. -/
abbrev Ref := ℕ × List String

/-- The field `op` of an operation; `other` is whatever is not one of the five names. -/
inductive OperationKind
  | set
  | delete
  | increment
  | append
  | remove
  | other
  deriving DecidableEq

/-- The text of the field `op`. -/
def OperationKind.name : OperationKind → String
  | .set => "set"
  | .delete => "delete"
  | .increment => "increment"
  | .append => "append"
  | .remove => "remove"
  | .other => ""

structure DeltaOperation (V : Type) where
  op : OperationKind
  path : String
  value : V
  deriving DecidableEq

/-- Map the value of an operation. -/
def DeltaOperation.map {V W : Type} (f : V → W) (o : DeltaOperation V) : DeltaOperation W :=
  ⟨o.op, o.path, f o.value⟩

structure StateDelta (V : Type) where
  entityId : EntityId
  fromVersion : ℕ
  toVersion : ℕ
  operations : List (DeltaOperation V)
  timestamp : Timestamp
  deriving DecidableEq

/-- Map the operation values of a delta. -/
def StateDelta.map {V W : Type} (f : V → W) (d : StateDelta V) : StateDelta W :=
  ⟨d.entityId, d.fromVersion, d.toVersion, d.operations.map (·.map f), d.timestamp⟩

/-- An entity record; `data` is the address of the entity's data object. -/
structure EntityState where
  id : EntityId
  type : String
  ownerId : String
  data : Ref
  version : ℕ
  lastModified : Timestamp
  deriving DecidableEq

/-- An entity as it stands in a file or a message, with its data written out. -/
@[ext] structure EntityDoc where
  id : EntityId
  type : String
  ownerId : String
  data : Obj Doc
  version : ℕ
  lastModified : Timestamp

/-- What `JSON.parse(JSON.stringify(entity))` gives. -/
def EntityDoc.json (e : EntityDoc) : EntityDoc := { e with data := e.data.json }

/-- A snapshot in memory: the entity map is copied, the records' data objects are shared. -/
structure StateSnapshot where
  version : ℕ
  timestamp : Timestamp
  entities : Js.Map EntityId EntityState
  checksum : String

/-- A snapshot as it stands in a file. -/
structure SnapshotDoc where
  version : ℕ
  timestamp : Timestamp
  checksum : String
  entities : Js.Map EntityId EntityDoc

end SyncEngine
