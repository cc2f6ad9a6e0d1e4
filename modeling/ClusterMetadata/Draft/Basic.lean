import ClusterMetadata.Document.FieldOption
import ClusterMetadata.Draft.Shelf

/-! Drafts: documents in the making, which may hold shared maps.

The maps of a draft are its own as long as no shared map holds them; one that is written into a
shared map becomes shared. A document is what a draft shows at one moment. -/
namespace ClusterMetadata

open Json (Value)

/-- What stands in a field of a draft: a value that is no map, or a map that is its own or shared.
-/
inductive Draft.Node where
  | leaf (value : Value)
  | map (fields : List (Text × Draft.Node))
  | shared (map : SharedMap)

abbrev Draft := Table Text Draft.Node

namespace Draft

mutual
/-- The node of a value whose maps nobody else holds. -/
def Node.ofValue : Value → Node
  | .object fields => .map (ofFields fields)
  | v => .leaf v
termination_by structural v => v

def ofFields : List (Text × Value) → List (Text × Node)
  | [] => []
  | (name, v) :: rest => (name, Node.ofValue v) :: ofFields rest
termination_by structural fields => fields
end

def Node.ofText (t : Text) : Node := .leaf (.string t)

/-- What a slot of a shared map holds, as a node. -/
def Node.ofSlot : Slot → Node
  | .leaf v => .leaf v
  | .map m => .shared m

def Node.isMap : Node → Bool
  | .leaf _ => false
  | .map _ | .shared _ => true

mutual
/-- Makes the maps of a node shared, so that a shared map can hold it. -/
def Node.share : Node → OnShelf Slot
  | .leaf v => return .leaf v
  | .map fields => do return .map (← SharedMap.make (← shareFields fields))
  | .shared m => return .map m
termination_by structural node => node

def shareFields : List (Text × Node) → OnShelf (List (Text × Slot))
  | [] => return []
  | (name, node) :: rest => do
    let slot ← node.share
    return (name, slot) :: (← shareFields rest)
termination_by structural fields => fields
end

mutual
/-- The value that a node shows, given what the shared maps show. -/
def Node.shown (shared : SharedMap → Option Value) : Node → Option Value
  | .leaf v => some v
  | .map fields => (shownFields shared fields).map .object
  | .shared m => shared m
termination_by structural node => node

def shownFields (shared : SharedMap → Option Value) :
    List (Text × Node) → Option (List (Text × Value))
  | [] => some []
  | (name, node) :: rest => do
    let v ← node.shown shared
    return (name, v) :: (← shownFields shared rest)
termination_by structural fields => fields
end

/-- The document that a draft shows, unless a map is inside itself. -/
def shown (shelf : Shelf) (d : Draft) : Option Document := shownFields shelf.shown d

def at? (shelf : Shelf) (d : Draft) : Path → Option Node
  | [] => none
  | [name] => Table.get? d name
  | name :: next :: rest =>
    match Table.get? d name with
    | some (.map fields) => at? shelf fields (next :: rest)
    | some (.shared m) => (shelf.at? m (next :: rest)).map Node.ofSlot
    | _ => none

/-- Writes into the map under a name, in one way into a map of the draft's own and in another into a
shared one. Where there is no map, `fresh` says what a new one starts with, given what stands
there. -/
def within (d : Draft) (name : Text) (fresh : Option Node → Draft)
    (own : Draft → OnShelf Draft) (shared : SharedMap → OnShelf Unit) : OnShelf Draft :=
  match Table.get? d name with
  | some (.shared m) => do
    shared m
    return d
  | some (.map fields) => do return Table.insert d name (.map (← own fields))
  | other => do return Table.insert d name (.map (← own (fresh other)))

theorem within_of_shared {d : Draft} {name : Text} {m : SharedMap}
    (there : Table.get? d name = some (.shared m)) (fresh : Option Node → Draft)
    (own : Draft → OnShelf Draft) (shared : SharedMap → OnShelf Unit) :
    d.within name fresh own shared = (shared m >>= fun _ => pure d) := by
  rw [within, there]

theorem within_of_map {d fields : Draft} {name : Text}
    (there : Table.get? d name = some (.map fields)) (fresh : Option Node → Draft)
    (own : Draft → OnShelf Draft) (shared : SharedMap → OnShelf Unit) :
    d.within name fresh own shared =
      (own fields >>= fun fields => pure (Table.insert d name (.map fields))) := by
  rw [within, there]

theorem within_of_plain {d : Draft} {name : Text}
    (plain : ∀ there, Table.get? d name = some there → there.isMap = false)
    (fresh : Option Node → Draft) (own : Draft → OnShelf Draft)
    (shared : SharedMap → OnShelf Unit) :
    d.within name fresh own shared =
      (own (fresh (Table.get? d name)) >>= fun fields =>
        pure (Table.insert d name (.map fields))) := by
  rw [within]
  split
  · next m there => cases plain _ there
  · next fields there => cases plain _ there
  · rfl

/-- Writes a node at a path. Values on the way that are not maps give way to maps. -/
def put (d : Draft) : Path → Node → OnShelf Draft
  | [], _ => return d
  | [name], node => return Table.insert d name node
  | name :: next :: rest, node =>
    d.within name (fun _ => []) (fun fields => put fields (next :: rest) node)
      fun m => do m.put (next :: rest) (← node.share)

/-- What a map starts with that takes the place of a node: a leaf that is not null is kept. -/
def opened : Option Node → Draft
  | none | some (.leaf .null) => []
  | some node => [(Document.valueField, node)]

/-- Writes a node under a name; a leaf goes into a map that is there. -/
def safePutHere (d : Draft) (name : Text) (node : Node) : OnShelf Draft :=
  match Table.get? d name with
  | some existing =>
    if existing.isMap && !node.isMap then
      d.within name (fun _ => [])
        (fun fields => return Table.insert fields Document.valueField node)
        fun m => do m.insert Document.valueField (← node.share)
    else return Table.insert d name node
  | none => return Table.insert d name node

/-- A map takes the place of what is there. -/
theorem safePutHere_of_map (d : Draft) (name : Text) {node : Node} (map : node.isMap = true) :
    d.safePutHere name node = pure (Table.insert d name node) := by
  rw [safePutHere]
  split
  · rw [map, Bool.not_true, Bool.and_false, if_neg Bool.false_ne_true]
  · rfl

/-- What is no map gives way. -/
theorem safePutHere_of_plain {d : Draft} {name : Text}
    (plain : ∀ there, Table.get? d name = some there → there.isMap = false) (node : Node) :
    d.safePutHere name node = pure (Table.insert d name node) := by
  rw [safePutHere]
  split
  · next existing there =>
    rw [plain existing there, Bool.false_and, if_neg Bool.false_ne_true]
  · rfl

/-- A leaf goes into the map that is there. -/
theorem safePutHere_below {d : Draft} {name : Text} {existing node : Node}
    (there : Table.get? d name = some existing) (map : existing.isMap = true)
    (leaf : node.isMap = false) :
    d.safePutHere name node = d.within name (fun _ => [])
      (fun fields => return Table.insert fields Document.valueField node)
      (fun m => do m.insert Document.valueField (← node.share)) := by
  simp only [safePutHere, there, map, leaf, Bool.not_false, Bool.and_self, if_true]

/-- Writes a node at a path and keeps the leaves it meets. -/
def safePut (d : Draft) : Path → Node → OnShelf Draft
  | [], _ => return d
  | [name], node => d.safePutHere name node
  | name :: next :: rest, node =>
    d.within name opened (fun fields => safePut fields (next :: rest) node)
      fun m => do m.safePut (next :: rest) (← node.share)

def putText (d : Draft) (path : Path) (text : Text) : OnShelf Draft :=
  if text = "" then return d else d.put path (.ofText text)

def nestSection (under : Text) (d : Draft) (name : Text) : OnShelf Draft :=
  let rest := Table.erase d name
  match Table.get? d name with
  | none | some (.leaf .null) => return rest
  | some node => safePut rest (nestedPath under name) node

def adjust (d : Draft) : FieldOption → OnShelf Draft
  | .field key value => d.safePut (Path.ofKey key) (.ofValue value)
  | .nest under => movedSections.foldlM (nestSection under) d

def adjustAll (options : List FieldOption) (d : Draft) : OnShelf Draft := options.foldlM adjust d

/-! ## What drafts show -/

/-- A field of what a draft shows is what the draft's field shows. -/
theorem get?_shownFields {shared : SharedMap → Option Value} {d : Draft} {fields : Document}
    (h : shownFields shared d = some fields) (name : Text) :
    Table.get? fields name = (Table.get? d name).bind (Node.shown shared) := by
  induction d generalizing fields with
  | nil => simp_all [shownFields]
  | cons field rest ih =>
    obtain ⟨key, node⟩ := field
    rw [shownFields] at h
    cases hn : node.shown shared with
    | none => simp [hn] at h
    | some v =>
      cases hr : shownFields shared rest with
      | none => simp [hn, hr] at h
      | some shownRest =>
        simp only [hn, hr, Option.bind_eq_bind, Option.bind_some, Option.pure_def,
          Option.some.injEq] at h
        subst h
        by_cases hk : key = name <;> simp [Table.get?, hk, hn, ih hr]

mutual
/-- A value whose maps nobody else holds is shown as it is. -/
theorem shown_ofValue (shared : SharedMap → Option Value) (v : Value) :
    (Node.ofValue v).shown shared = some v := by
  cases v with
  | object fields => simp [Node.ofValue, Node.shown, shownFields_ofFields shared fields]
  | _ => simp [Node.ofValue, Node.shown]

theorem shownFields_ofFields (shared : SharedMap → Option Value) (fields : List (Text × Value)) :
    shownFields shared (ofFields fields) = some fields := by
  match fields with
  | [] => rfl
  | (name, v) :: rest =>
    simp [ofFields, shownFields, shown_ofValue shared v, shownFields_ofFields shared rest]
end

end Draft

end ClusterMetadata
