import ClusterMetadata.Generator.Kinds

/-! The generator of pods, which follows the chains of owners.

A pod names its replica set or job, not the deployment or cron job above it. A hop takes the name of
the controller in between from the pod's own document, asks the peer of that kind, and takes the
owner's name over from the answer. What cannot be resolved is left out. -/
namespace ClusterMetadata

open Json (Value)

/-- The parts of a pod generator, with the hops that it tries. -/
structure PodParts where
  store : Option Store := none
  node : Option Peer := none
  space : Option Peer := none
  replicaSet : Option Peer := none
  job : Option Peer := none
  projector : Projector := {}
  hops : List Hop := []

namespace PodParts

def peerFor (parts : PodParts) : Hop → Option Peer
  | .deployment => parts.replicaSet
  | .cronJob => parts.job

end PodParts

namespace Draft

/-- The name under a kind's field, when it is text and not empty. -/
def ownerName? (shelf : Shelf) (d : Draft) (kind : Kind) : Option Text :=
  match d.at? shelf [kind.field, nameField] with
  | some (.leaf (.string name)) => if name = "" then none else some name
  | _ => none

/-- Asks a peer for the owner behind the controller that the draft names. -/
def resolve (d : Draft) (hop : Hop) (peer : Peer) : Drafting Draft := do
  match d.ownerName? (← Drafting.shelf) hop.via with
  | none => return d
  | some viaName => do
    let answer ← peer.ask viaName []
    let shelf ← Drafting.shelf
    match answer.bind (ownerName? shelf · hop.owner) with
    | some name =>
      Traced.report (.ownerFound hop)
      d.putName hop.owner.field name
    | none =>
      Traced.report (.ownerUnresolved hop viaName answer.isSome)
      return d

/-- Takes a hop when it is among those tried and has a peer. -/
def takeHop (parts : PodParts) (d : Draft) (hop : Hop) : Drafting Draft :=
  match parts.peerFor hop with
  | some peer => if hop ∈ parts.hops then d.resolve hop peer else pure d
  | none => pure d

/-- Writes the node section: what the node's generator says under `node`, its name otherwise. -/
def addNode (node : Option Peer) (d : Draft) (nodeName : Text) : Drafting Draft :=
  if nodeName = "" then pure d
  else
    match node with
    | none => d.putName Kind.node.field nodeName
    | some peer => do
      match (← peer.ask nodeName [.nest Kind.node.field]).bind (Table.get? · Kind.node.field) with
      | none | some (.leaf _) => d.putName Kind.node.field nodeName
      | some node => return Table.insert d Kind.node.field node

end Draft

def Generator.forPods (parts : PodParts) : Generator where
  kind := .pod
  store := parts.store
  projector := parts.projector
  build r options := do
    let d ← parts.projector.nativeInSpace parts.space Kind.pod.field r options
    let d ← d.takeHop parts .deployment
    let d ← d.takeHop parts .cronJob
    let d ← d.addNode parts.node (← r.nodeName)
    d.putText [Kind.pod.field, "ip"] (← r.podAddress)

end ClusterMetadata
