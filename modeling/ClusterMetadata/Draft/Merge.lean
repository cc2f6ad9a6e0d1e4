import ClusterMetadata.Document.Depth
import ClusterMetadata.Draft.Drafting

/-! Merging one draft over another.

Maps merge at every depth, and what the other draft holds is copied. The maps that are read and
those that are written may be the same shared maps, so a field is read when its turn comes, after
the fields before it were written. A map that gets another size while it is read is a fault, and so
is going deeper than there is room, as merging a map that is inside itself may do. -/
namespace ClusterMetadata.Draft

/-- A map that is read or written: one of a draft's own, or a shared one. -/
inductive Map where
  | own (fields : Draft)
  | shared (map : SharedMap)

def Node.map? : Node → Option Map
  | .leaf _ => none
  | .map fields => some (.own fields)
  | .shared m => some (.shared m)

namespace Map

def node : Map → Node
  | own fields => .map fields
  | shared m => .shared m

def get? (shelf : Shelf) : Map → Text → Option Node
  | own fields, name => Table.get? fields name
  | shared m, name => (Table.get? (shelf.fields m) name).map Node.ofSlot

def insert : Map → Text → Node → OnShelf Map
  | own fields, name, node => return .own (Table.insert fields name node)
  | shared m, name, node => do
    m.insert name (← node.share)
    return .shared m

/-- The fields that a shared map has now, which must be so many. -/
def fieldsOfSize (m : SharedMap) (size : Nat) : Drafting (Table Text Slot) := do
  let fields := (← Drafting.shelf).fields m
  if fields.length = size then return fields else Drafting.fail .changedWhileRead

/-- Visits the fields of a map from the first to the last, each as it is when its turn comes. -/
def visit {α : Type} (source : Map) (step : α → Text → Node → Drafting α) (start : α) :
    Drafting α :=
  match source with
  | own fields => fields.foldlM (fun a (name, node) => step a name node) start
  | shared m => do
    let size := ((← Drafting.shelf).fields m).length
    let last ← (List.range size).foldlM (fun a i => do
      match (← fieldsOfSize m size)[i]? with
      | some (name, slot) => step a name (.ofSlot slot)
      | none => return a) start
    let _ ← fieldsOfSize m size
    return last

/-- Merges the fields of one map into another, going down as far as there is room. -/
def mergeTo : Nat → Map → Map → Drafting Map
  | 0, _, _ => Drafting.fail .tooDeep
  | room + 1, target, source => source.visit (fun target name node => do
      match node, node.map? with
      | .leaf v, _ =>
        if max Document.putSteps v.copySteps ≤ room + 1 then target.insert name node
        else Drafting.fail .tooDeep
      | _, none => return target
      | _, some other =>
        match (target.get? (← Drafting.shelf) name).bind Node.map? with
        | some (.shared m) =>
          let _ ← mergeTo room (.shared m) other
          return target
        | some (.own fields) => do
          target.insert name (← mergeTo room (.own fields) other).node
        | none => do target.insert name (← mergeTo room (.own []) other).node) target

end Map

/-- The draft with another merged over it. -/
def merge (d other : Draft) : Drafting Draft := do
  match ← Map.mergeTo Document.mergingRoom (.own d) (.own other) with
  | .own fields => return fields
  | .shared _ => return d

end ClusterMetadata.Draft
