import ClusterMetadata.Document.Basic
import ClusterMetadata.Json.Depth

/-! How deep documents are merged and copied.

Merging goes one step down into each map and copies what it puts there. There is room for so many
steps; a document that needs more is merged up to the place where the room ends. The main
statement says that a document that fits is merged whole. -/
namespace ClusterMetadata.Document

open Json (Value)

/-- The most steps that a merge or a copy goes down. -/
def mergingRoom : Nat := 984

/-- The least steps that putting a value into a document takes. -/
def putSteps : Nat := 4

mutual
/-- The steps that merging a value goes down. -/
def valueSteps : Value → Nat
  | .object source => steps source + 1
  | leaf => max putSteps leaf.copySteps
termination_by structural v => v

def steps : List (Text × Value) → Nat
  | [] => 0
  | (_, v) :: rest => max (valueSteps v) (steps rest)
termination_by structural fields => fields
end

mutual
/-- The part of a field that is merged over what stands under its name: of a map over a map the
part that fits, of anything else nothing. -/
def partOver (room : Nat) (name : Text) (existing : Option Value) : Value → Document
  | .object source =>
    match existing with
    | some (.object fields) => [(name, .object (part (room - 1) fields source))]
    | _ => []
  | _ => []
termination_by structural v => v

/-- The part of fields that is merged over a document before the room ends. -/
def part (room : Nat) (d : Document) : List (Text × Value) → Document
  | [] => []
  | (name, v) :: rest =>
    if valueSteps v ≤ room then (name, v) :: part room d rest
    else partOver room name (Table.get? d name) v
termination_by structural fields => fields
end

def fits (other : Document) : Bool := steps other ≤ mergingRoom

/-- What is merged of a document that needs no more room than there is. -/
theorem part_eq_self (room : Nat) (d other : Document) (h : steps other ≤ room) :
    part room d other = other := by
  induction other with
  | nil => rfl
  | cons field rest ih =>
    obtain ⟨name, v⟩ := field
    simp only [steps, Nat.max_le] at h
    rw [part, if_pos h.1, ih h.2]

end ClusterMetadata.Document
