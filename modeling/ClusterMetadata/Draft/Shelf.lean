import ClusterMetadata.Document.Basic
import ClusterMetadata.Resource.Basic
import Std.Data.HashMap

/-! Maps that several documents share.

The value of a label or an annotation may be a map. Such a map is lent to the documents made of its
resource, not copied: what is written into it there is written into the resource's own map, where
documents made later find it. The shelf keeps the shared maps with the fields they have now. A
shared map may hold other shared maps, itself among them; `Shelf.shown` gives what a map shows, and
nothing when a map is inside itself. -/
namespace ClusterMetadata

open Json (Value Fields)

/-- The labels or the annotations of a resource. -/
structure Lender where
  map : MetadataMap
  owner : Resource
deriving DecidableEq

/-- The name of the resource tells most lenders apart. -/
instance : Hashable Lender := ⟨fun lender => hash (lender.owner.name.toOption.getD "")⟩

/-- A map on the shelf, by its number. -/
structure SharedMap where
  number : Nat
deriving DecidableEq, Repr

/-- What stands in a field of a shared map: a value that is no map, or another shared map. -/
inductive Slot where
  | leaf (value : Value)
  | map (inner : SharedMap)

/-- Maps that were lent, by the keys of the labels or annotations whose values they are. -/
abbrev Loans := Std.HashMap Text SharedMap

/-- The shared maps with their fields, and which of them were lent. -/
structure Shelf where
  maps : Array (Table Text Slot) := #[]
  lent : Std.HashMap Lender Loans := {}

abbrev OnShelf (α : Type) := StateM Shelf α

namespace Shelf

def fields (shelf : Shelf) (m : SharedMap) : Table Text Slot := shelf.maps.getD m.number []

/-- What a shared map shows, with the maps in it to a depth; nothing when it goes deeper. -/
def shownTo (shelf : Shelf) : Nat → SharedMap → Option Value
  | 0, _ => none
  | depth + 1, m => do
    let fields ← (shelf.fields m).mapM fun (name, slot) =>
      match slot with
      | .leaf v => some (name, v)
      | .map inner => (shelf.shownTo depth inner).map ((name, ·))
    return .object fields

/-- What a shared map shows, unless a map is inside itself: on a way down that meets no map twice
there are not more maps than on the shelf. -/
def shown (shelf : Shelf) (m : SharedMap) : Option Value := shelf.shownTo shelf.maps.size m

def at? (shelf : Shelf) (m : SharedMap) : Path → Option Slot
  | [] => some (.map m)
  | name :: rest =>
    match Table.get? (shelf.fields m) name, rest with
    | some (.map inner), rest => shelf.at? inner rest
    | some (.leaf v), [] => some (.leaf v)
    | _, _ => none

end Shelf

namespace Slot

def isMap : Slot → Bool
  | leaf _ => false
  | map _ => true

end Slot

namespace SharedMap

def make (fields : Table Text Slot) : OnShelf SharedMap :=
  modifyGet fun shelf =>
    (⟨shelf.maps.size⟩, { shelf with maps := shelf.maps.push fields })

def insert (m : SharedMap) (name : Text) (slot : Slot) : OnShelf Unit :=
  modify fun shelf =>
    let fields := Table.insert (shelf.fields m) name slot
    { shelf with maps := shelf.maps.setIfInBounds m.number fields }

/-- The map under a name. Where there is none, one is made with the fields that `fresh` gives it in
view of what stands there. -/
def inner (m : SharedMap) (name : Text) (fresh : Option Slot → Table Text Slot) :
    OnShelf SharedMap := do
  match Table.get? ((← get).fields m) name with
  | some (.map inner) => return inner
  | other =>
    let inner ← make (fresh other)
    m.insert name (.map inner)
    return inner

theorem run_inner (m : SharedMap) (name : Text) (fresh : Option Slot → Table Text Slot)
    (shelf : Shelf) :
    (m.inner name fresh).run shelf =
      (match Table.get? (shelf.fields m) name with
        | some (.map inner) => return inner
        | other => do
          let inner ← make (fresh other)
          m.insert name (.map inner)
          return inner : OnShelf SharedMap).run shelf := rfl

/-- The map that is there. -/
theorem run_inner_of_map {m inner : SharedMap} {name : Text} {shelf : Shelf}
    (there : Table.get? (shelf.fields m) name = some (.map inner))
    (fresh : Option Slot → Table Text Slot) :
    (m.inner name fresh).run shelf = (inner, shelf) := by
  rw [run_inner, there]
  rfl

/-- A new map takes the place of what is no map. -/
theorem run_inner_of_plain {m : SharedMap} {name : Text} {shelf : Shelf}
    (plain : ∀ there, Table.get? (shelf.fields m) name = some there → there.isMap = false)
    (fresh : Option Slot → Table Text Slot) :
    (m.inner name fresh).run shelf = (do
      let inner ← make (fresh (Table.get? (shelf.fields m) name))
      m.insert name (.map inner)
      return inner : OnShelf SharedMap).run shelf := by
  rw [run_inner]
  split
  · next inner there => cases plain _ there
  · rfl

/-- Writes at a path. Values on the way that are not maps give way to maps. -/
def put (m : SharedMap) : Path → Slot → OnShelf Unit
  | [], _ => return ()
  | [name], slot => m.insert name slot
  | name :: next :: rest, slot => do (← m.inner name fun _ => []).put (next :: rest) slot

/-- What a map starts with that takes the place of a leaf: a leaf that is not null is kept. -/
def opened : Option Slot → Table Text Slot
  | none | some (.leaf .null) => []
  | some slot => [(Document.valueField, slot)]

/-- Writes under a name; a leaf goes into a map that is there. -/
def safePutHere (m : SharedMap) (name : Text) (slot : Slot) : OnShelf Unit := do
  match Table.get? ((← get).fields m) name with
  | some (.map inner) =>
    if slot.isMap then m.insert name slot else inner.insert Document.valueField slot
  | _ => m.insert name slot

theorem run_safePutHere (m : SharedMap) (name : Text) (slot : Slot) (shelf : Shelf) :
    (m.safePutHere name slot).run shelf =
      (match Table.get? (shelf.fields m) name with
        | some (.map inner) =>
          if slot.isMap then m.insert name slot else inner.insert Document.valueField slot
        | _ => m.insert name slot).run shelf := rfl

/-- A map takes the place of what is there. -/
theorem run_safePutHere_of_map (m : SharedMap) (name : Text) {slot : Slot}
    (map : slot.isMap = true) (shelf : Shelf) :
    (m.safePutHere name slot).run shelf = (m.insert name slot).run shelf := by
  rw [run_safePutHere]
  split
  · rw [if_pos map]
  · rfl

/-- What is no map gives way. -/
theorem run_safePutHere_of_plain {m : SharedMap} {name : Text} {shelf : Shelf}
    (plain : ∀ there, Table.get? (shelf.fields m) name = some there → there.isMap = false)
    (slot : Slot) : (m.safePutHere name slot).run shelf = (m.insert name slot).run shelf := by
  rw [run_safePutHere]
  split
  · next inner there => cases plain _ there
  · rfl

/-- A leaf goes into the map that is there. -/
theorem run_safePutHere_below {m inner : SharedMap} {name : Text} {shelf : Shelf}
    (there : Table.get? (shelf.fields m) name = some (.map inner)) {slot : Slot}
    (leaf : slot.isMap = false) :
    (m.safePutHere name slot).run shelf =
      (inner.insert Document.valueField slot).run shelf := by
  rw [run_safePutHere, there]
  exact congrArg (StateT.run · shelf) (if_neg (ne_true_of_eq_false leaf))

/-- Writes at a path and keeps the leaves it meets. -/
def safePut (m : SharedMap) : Path → Slot → OnShelf Unit
  | [], _ => return ()
  | [name], slot => m.safePutHere name slot
  | name :: next :: rest, slot => do (← m.inner name opened).safePut (next :: rest) slot

end SharedMap

end ClusterMetadata
