import ClusterMetadata.Draft.Drafting
import ClusterMetadata.Draft.Section

/-! The documents that every kind of resource has.

The native document holds the resource's identity, the names of its controllers and its selected
labels and annotations. The orchestrator document holds what is said of it in the common schema. -/
namespace ClusterMetadata

open Json (Value)

structure ClusterInfo where
  name : String := ""
  url : String := ""
deriving DecidableEq, Repr

/-- Makes the documents that do not depend on other resources. -/
structure Projector where
  selection : Selection := {}
  cluster : ClusterInfo := {}

/-- The name of the controller that a reference names, with its kind. -/
def OwnerReference.controllerName? (ref : OwnerReference) : Option (Kind × Text) := do
  let kind ← Kind.ofName? ref.kind
  if ref.controller && kind.isController && ref.name != "" then some (kind, ref.name) else none

def nameField : Text := "name"

namespace Draft

def putName (d : Draft) (field name : Text) : OnShelf Draft :=
  d.put [field, nameField] (.ofText name)

def putOwner (d : Draft) (ref : OwnerReference) : OnShelf Draft :=
  match ref.controllerName? with
  | some (kind, name) => d.putName kind.field name
  | none => return d

def putOwners (refs : List OwnerReference) (d : Draft) : OnShelf Draft := refs.foldlM putOwner d

def insertText (d : Draft) (field text : Text) : Draft :=
  if text = "" then d else Table.insert d field (.ofText text)

def insertSection (d : Draft) (map : MetadataMap) (fields : Draft) : Draft :=
  if fields.isEmpty then d else Table.insert d map.field (.map fields)

end Draft

def Document.putText (d : Document) (path : Path) (text : Text) : Document :=
  if text = "" then d else Document.put d path (.string text)

namespace Projector

/-- The draft of the native document of a resource, with the resource's own name and uid under
`field`. -/
def native (p : Projector) (field : Text) (r : Resource) (options : List FieldOption) :
    Drafting Draft := do
  let chosen ← p.selection.chosenLabels (← r.labels)
  let labels ← Draft.ofMap ⟨.labels, r⟩ p.selection.dedotLabels chosen
  let chosen := p.selection.chosenAnnotations (← r.annotations)
  let annotations ← Draft.ofMap ⟨.annotations, r⟩ p.selection.dedotAnnotations chosen
  let own : Draft := [(nameField, .ofText (← r.name)), ("uid", .ofText (← r.uid))]
  let d := Draft.insertText [(field, .map own)] "namespace" (← r.space)
  let d ← Draft.putOwners (← r.ownerReferences) d
  let d := (d.insertSection .labels labels).insertSection .annotations annotations
  Draft.adjustAll options d

/-- The part of the orchestrator document that does not depend on a resource. -/
def clusterDocument (p : Projector) : Document :=
  (Document.putText [] ["orchestrator", "cluster", "url"] p.cluster.url).putText
    ["orchestrator", "cluster", "name"] p.cluster.name

/-- The orchestrator document of a resource, or of something that is none. -/
def orchestrator (p : Projector) : Option Resource → Except Fault Document
  | none => .ok p.clusterDocument
  | some r => do
    let d := p.clusterDocument.putText ["orchestrator", "type"] "kubernetes"
    let d := d.putText ["orchestrator", "resource", "type"] r.kind.field
    let d := d.putText ["orchestrator", "resource", "name"] (← r.name)
    let d := d.putText ["orchestrator", "resource", "id"] (← r.uid)
    return d.putText ["orchestrator", "namespace"] (← r.space)

end Projector

/-- Both documents of a resource in one: the native one under `kubernetes`, the other merged over
it. -/
def Document.union (native orchestrator : Document) : Document :=
  Document.merge [("kubernetes", .object native)] orchestrator

end ClusterMetadata
