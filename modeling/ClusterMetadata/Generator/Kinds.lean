import ClusterMetadata.Generator.Basic

/-! The generators of namespaces, nodes and workload controllers. -/
namespace ClusterMetadata.Generator

open Json (Value)

def inheritedSections : List MetadataMap := [.labels, .annotations]

/-- A namespace's draft in the form that is merged into the documents of what it holds: its
sections under flat names. -/
def inheritable (space uid : Text) (base : Draft) : Draft :=
  inheritedSections.foldl
    (fun d map =>
      match Table.get? base map.field with
      | some node => Table.insert d (Text.ofString "namespace_" ++ map.field) node
      | none => d)
    [("namespace", .ofText space), ("namespace_uid", .ofText uid)]

def forNamespaces (store : Option Store) (projector : Projector) : Generator where
  kind := .namespace
  store := store
  projector := projector
  build r options := do
    let base ← projector.native Kind.namespace.field r options
    return inheritable (← r.name) (← r.uid) base

def forNodes (store : Option Store) (projector : Projector) : Generator where
  kind := .node
  store := store
  projector := projector
  build r options := do
    let d ← projector.native Kind.node.field r options
    d.putText [Kind.node.field, "hostname"] (← r.hostname)

/-- The generator of a kind that needs nothing but the projector and its namespace. -/
def forControllers (kind : Kind) (store : Option Store) (projector : Projector)
    (space : Option Peer) : Generator where
  kind := kind
  store := store
  projector := projector
  build r options := projector.nativeInSpace space kind.field r options

def forControllerNamed (name : String) (store : Option Store) (projector : Projector)
    (space : Option Peer) : Except Fault Generator :=
  match Kind.ofName? name with
  | some kind => .ok (forControllers kind store projector space)
  | none => .error (.unsupportedKind name)

def describe (g : Generator) : String :=
  "ControllerMetadataGenerator(kind=" ++ Text.quoted g.kind.name ++ ")"

end ClusterMetadata.Generator
