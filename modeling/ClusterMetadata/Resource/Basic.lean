import ClusterMetadata.Json.Literal
import ClusterMetadata.Resource.Entries
import ClusterMetadata.Resource.Kind

/-! Typed views of manifests.

A resource is a manifest of a known kind. Its fields are read on demand; a part that is blank reads
as nothing, and a part of the wrong form is a fault. -/
namespace ClusterMetadata

open Json (Value Fields)

/-- A manifest seen as a resource of a kind. The serial number tells resources apart that are made
of equal manifests. -/
structure Resource where
  kind : Kind
  serial : Nat := 0
  manifest : Value
deriving DecidableEq

/-- The two maps of a resource's metadata whose entries go into documents. -/
inductive MetadataMap where
  | labels
  | annotations
deriving DecidableEq, Repr

def MetadataMap.field : MetadataMap → Text
  | labels => "labels"
  | annotations => "annotations"

/-- A reference from a resource to one that owns it, and manages it when it is a controller. -/
structure OwnerReference where
  kind : Text
  name : Text
  uid : Text
  controller : Bool
deriving DecidableEq, Repr

structure Identity where
  kind : Kind
  space : Text
  name : Text
deriving DecidableEq, Repr

/-- The fields of an object; any other value is a fault. -/
def Json.Value.fieldsOf : Value → Except Fault Fields
  | .object fields => .ok fields
  | _ => .error .notAnObject

/-- A field that is there and is not null. -/
def Json.Fields.value (fields : Fields) (name : Text) : Value :=
  (Table.get? fields name).getD .null

/-- The text of a field, empty when the field is blank or missing. -/
def Json.Fields.text (fields : Fields) (name : Text) : Text := (fields.value name).text

/-- The fields of a part of an object: none when the part is blank or missing. -/
def Json.Fields.part (fields : Fields) (name : Text) : Except Fault Fields :=
  if (fields.value name).isBlank then .ok [] else (fields.value name).fieldsOf

/-- The items of a list, the characters of a string or the keys of an object; none of a blank
value. -/
def Json.Value.itemsOf (v : Value) : Except Fault (List Value) :=
  if v.isBlank then .ok []
  else match Entries.parts? v with
    | some items => .ok items
    | none => .error .noEntries

def OwnerReference.ofValue (v : Value) : Except Fault OwnerReference := do
  let fields ← v.fieldsOf
  return {
    kind := fields.text "kind"
    name := fields.text "name"
    uid := fields.text "uid"
    controller := !(fields.value "controller").isBlank }

namespace Resource

/-- The view of a manifest whose kind is given, or else named by the manifest; nothing when the kind
has no view. Only a manifest that has to name its kind must be an object. -/
def ofManifest? (manifest : Value) (kind : Option Text) : Except Fault (Option Resource) := do
  let name ← match kind with
    | some name =>
      if name = "" then pure ((← manifest.fieldsOf).text "kind") else pure name
    | none => pure ((← manifest.fieldsOf).text "kind")
  return (Kind.ofName? name).map fun kind => { kind, manifest }

def required : Option Resource → Except Fault Resource
  | some r => .ok r
  | none => .error .notAResource

def part (r : Resource) (name : Text) : Except Fault Fields := do
  (← r.manifest.fieldsOf).part name

def metadata (r : Resource) : Except Fault Fields := r.part "metadata"

def name (r : Resource) : Except Fault Text := do
  return (← r.metadata).text "name"

/-- The namespace, empty for what belongs to the whole cluster. -/
def space (r : Resource) : Except Fault Text :=
  if r.kind.isNamespaced then do return (← r.metadata).text "namespace" else .ok ""

def uid (r : Resource) : Except Fault Text := do
  return (← r.metadata).text "uid"

def entries (r : Resource) (map : MetadataMap) : Except Fault Entries := do
  Entries.ofValue ((← r.metadata).value map.field)

def labels (r : Resource) : Except Fault Entries := r.entries .labels

def annotations (r : Resource) : Except Fault Entries := r.entries .annotations

def ownerReferences (r : Resource) : Except Fault (List OwnerReference) := do
  let items ← ((← r.metadata).value "ownerReferences").itemsOf
  items.mapM OwnerReference.ofValue

def identity (r : Resource) : Except Fault Identity := do
  return ⟨r.kind, ← r.space, ← r.name⟩

def nodeName (r : Resource) : Except Fault Text := do
  return (← r.part "spec").text "nodeName"

def podAddress (r : Resource) : Except Fault Text := do
  return (← r.part "status").text "podIP"

/-- The first address of type `Hostname` that is not blank. -/
def firstHostname : List Value → Except Fault Text
  | [] => .ok ""
  | item :: rest => do
    let fields ← item.fieldsOf
    if fields.value "type" = .string "Hostname" ∧ !(fields.value "address").isBlank then
      return (fields.value "address").plain
    else firstHostname rest

def hostname (r : Resource) : Except Fault Text := do
  firstHostname (← ((← r.part "status").value "addresses").itemsOf)

/-- The resource in words: its kind, namespace and name. -/
def describe (r : Resource) : Except Fault String := do
  let space ← r.space
  let name ← r.name
  return r.kind.name ++ "(namespace=" ++ Text.quoted space ++ ", name=" ++ Text.quoted name ++ ")"

end Resource

end ClusterMetadata
