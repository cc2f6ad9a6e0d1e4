import ClusterMetadata.Cluster
import ClusterMetadata.Generator.Pod
import ClusterMetadata.Settings

/-! Pod generators put together from settings and stores: namespaces and nodes first, then the
controllers in between, then the pods. A peer exists when its part is switched on; a kind without a
store has a generator all the same, whose look-ups find nothing. -/
namespace ClusterMetadata

namespace OwnerChain

def hops (owners : OwnerChain) : List Hop :=
  (if owners.deployment then [.deployment] else []) ++ (if owners.cronJob then [.cronJob] else [])

end OwnerChain

namespace Settings

def spacePeer (s : Settings) (stores : Stores) : Option Peer :=
  if s.owners.space.enabled then
    some (Generator.forNamespaces (Table.get? stores .namespace)
      ⟨s.owners.space.selection, s.cluster⟩).peer
  else none

def nodePeer (s : Settings) (stores : Stores) : Option Peer :=
  if s.owners.node.enabled then
    some (Generator.forNodes (Table.get? stores .node) ⟨s.owners.node.selection, s.cluster⟩).peer
  else none

/-- The projector of pods and controllers. -/
def projector (s : Settings) : Projector := ⟨s.selection, s.cluster⟩

/-- The generator of the controllers that a hop asks, when the hop is switched on. -/
def hopPeer (s : Settings) (stores : Stores) (hop : Hop) : Option Peer :=
  if hop ∈ s.owners.hops then
    some (Generator.forControllers hop.via (Table.get? stores hop.via) s.projector
      (s.spacePeer stores)).peer
  else none

def podGenerator (s : Settings) (stores : Stores) : Generator :=
  Generator.forPods {
    store := Table.get? stores .pod
    node := s.nodePeer stores
    space := s.spacePeer stores
    replicaSet := s.hopPeer stores .deployment
    job := s.hopPeer stores .cronJob
    projector := s.projector
    hops := s.owners.hops }

/-- Builds the pod generator and reports its parts. -/
def buildPodGenerator (s : Settings) (stores : Stores) : Traced Generator := do
  Traced.report (.generatorBuilt s.owners.node.enabled s.owners.space.enabled
    s.owners.deployment s.owners.cronJob)
  return s.podGenerator stores

end Settings

end ClusterMetadata
