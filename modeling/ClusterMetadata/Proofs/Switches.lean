import ClusterMetadata.Proofs.AssembledPods

/-!
# Switches that do not disturb each other

Each switch decides about fields of its own. The other fields of a pod's document are the same
whether it is on or off, whatever the namespace, the node and the controllers have to say, and
whatever the order of the hops. That is about the first document that is made from a cluster, before
any of its maps is shared.

* `Switch.fields`: the fields that a switch decides about;
* `native_switches_apart`: two documents of a pod agree in the fields of no other switch.
-/
namespace ClusterMetadata

open Json (Value)

/-- What can be switched on to be added to the documents of pods. -/
inductive Switch where
  | node
  | space
  | deployment
  | cronJob
deriving DecidableEq, Repr

namespace Switch

/-- The fields that a switch decides about. -/
def fields : Switch → List Text
  | node => [Kind.node.field]
  | space => namespaceFields
  | deployment => [Kind.deployment.field]
  | cronJob => [Kind.cronJob.field]

end Switch

def Hop.switch : Hop → Switch
  | deployment => .deployment
  | cronJob => .cronJob

theorem Hop.owner_mem_fields (hop : Hop) : Text.ofString hop.owner.field ∈ hop.switch.fields := by
  cases hop <;> decide

namespace Settings

def switched (s : Settings) (on : Switch → Bool) : Settings :=
  { s with owners := {
      node := { s.owners.node with enabled := on .node }
      space := { s.owners.space with enabled := on .space }
      deployment := on .deployment
      cronJob := on .cronJob } }

variable (s : Settings) (on : Switch → Bool)

theorem nodePeer_switched (stores : Stores) : (s.switched on).nodePeer stores =
    if on .node then some (Generator.forNodes (Table.get? stores .node)
      ⟨s.owners.node.selection, s.cluster⟩).peer else none := rfl

theorem spacePeer_switched (stores : Stores) : (s.switched on).spacePeer stores =
    if on .space then some (Generator.forNamespaces (Table.get? stores .namespace)
      ⟨s.owners.space.selection, s.cluster⟩).peer else none := rfl

theorem mem_hops_switched (hop : Hop) : hop ∈ (s.switched on).owners.hops ↔ on hop.switch := by
  have both : (s.switched on).owners.hops = (if on .deployment then [.deployment] else []) ++
      (if on .cronJob then [.cronJob] else []) := rfl
  rw [both]
  cases hop <;> simp [Hop.switch]

variable {s on} {on' : Switch → Bool} {c c' : Cluster} {space : Text} {pod : Resource}

/-- A switch makes no difference: it is off in both settings, or the same in both for one cluster.
-/
def Indifferent (on on' : Switch → Bool) (c c' : Cluster) (switch : Switch) : Prop :=
  (on switch = false ∧ on' switch = false) ∨ (on switch = on' switch ∧ c = c')

section

variable {say say' : OwnersSay} (told : (s.switched on).Says c space pod say)
  (told' : (s.switched on').Says c' space pod say')
include told told'

/-- What the owners of a pod say when a switch makes no difference. -/
theorem inherited_congr (alike : Indifferent on on' c c' .space) : say.space = say'.space := by
  have same : (s.switched on).spacePeer (c.storesFor space) =
      (s.switched on').spacePeer (c'.storesFor space) := by
    rw [spacePeer_switched, spacePeer_switched]
    rcases alike with ⟨off, off'⟩ | ⟨same, rfl⟩
    · rw [off, off']
      rfl
    · rw [same]
  obtain ⟨home, inSpace, said⟩ := told.inherited
  obtain ⟨home', inSpace', said'⟩ := told'.inherited
  cases Except.ok.inj (inSpace.symm.trans inSpace')
  rw [same, said'] at said
  exact (Except.ok.inj said).symm

theorem runsOn_congr : say.nodeName = say'.nodeName :=
  Except.ok.inj (told.runsOn.symm.trans told'.runsOn)

theorem node_congr (alike : Indifferent on on' c c' .node) : say.node = say'.node := by
  have same : (s.switched on).nodePeer (c.storesFor space) =
      (s.switched on').nodePeer (c'.storesFor space) := by
    rw [nodePeer_switched, nodePeer_switched]
    rcases alike with ⟨off, off'⟩ | ⟨same, rfl⟩
    · rw [off, off']
      rfl
    · rw [same]
  have said := told.node
  rw [same, runsOn_congr told told', told'.node] at said
  exact (Except.ok.inj said).symm

theorem owner_congr {hop : Hop} (alike : Indifferent on on' c c' hop.switch) :
    say.owner hop = say'.owner hop := by
  rw [told.owners, told'.owners]
  funext via
  simp only [ownerSaid, mem_hops_switched]
  rcases alike with ⟨off, off'⟩ | ⟨same, rfl⟩
  · rw [off, off']
    rfl
  · rw [same]

end

end Settings

/-- Two native documents of a pod agree in a field when every switch that decides about the field is
off for both, or is the same for both in one cluster. So in one cluster they agree in all fields but
those of the switches that differ, and the pod's own fields are the same whatever the clusters hold
besides the pod. The first document is that of the pod generator; the second may take the hops in
any order. Each is the first that is made from its cluster: no map of the manifests was shared
before. -/
theorem native_switches_apart {s : Settings} {on on' : Switch → Bool} {manifests manifests' : List Value}
    (proper : ∀ manifest ∈ manifests, manifest.Proper)
    (proper' : ∀ manifest ∈ manifests', manifest.Proper) {c c' : Cluster}
    (loaded : (Cluster.load manifests).result = .ok c)
    (loaded' : (Cluster.load manifests').result = .ok c') {space name : Text} {pod : Resource}
    (filed : c.find? ⟨.pod, space, name⟩ = some pod)
    (filed' : c'.find? ⟨.pod, space, name⟩ = some pod) {order : List Hop}
    (all : order.Perm Hop.all) {document document' : Document}
    (made : (((s.switched on).podGenerator (c.storesFor space)).native (some pod)
      []).fromStart.result = .ok (some document))
    (made' : (((s.switched on').podGeneratorBy order (c'.storesFor space)).native (some pod)
      []).fromStart.result = .ok (some document')) {key : Text}
    (indifferent : ∀ switch : Switch, key ∈ switch.fields →
      Settings.Indifferent on on' c c' switch) :
    Table.get? document key = Table.get? document' key := by
  rw [Settings.podGenerator_eq_inOrder] at made
  obtain ⟨_, base, say, address, ⟨⟩, here⟩ := Settings.native_assembled
    (Cluster.filed_of_load loaded) (Cluster.proper_of_load proper loaded) filed Hop.all made
  obtain ⟨_, base', say', address', ⟨⟩, there⟩ := Settings.native_assembled
    (Cluster.filed_of_load loaded') (Cluster.proper_of_load proper' loaded') filed' order made'
  have own : (s.switched on).ownDocument pod = (s.switched on').ownDocument pod := rfl
  cases Except.ok.inj (here.own.symm.trans (own.trans there.own))
  cases Except.ok.inj (here.reached.symm.trans there.reached)
  rw [here.whole, there.whole]
  refine Document.get?_ofPod here.inherits there.inherits (.refl _) all
    (Settings.runsOn_congr here.told there.told) address (fun inside => ?_) (fun hop same => ?_)
    fun same => ?_
  · exact Settings.inherited_congr here.told there.told (indifferent .space inside)
  · exact Settings.owner_congr here.told there.told
      (indifferent hop.switch (same ▸ hop.owner_mem_fields))
  · exact Settings.node_congr here.told there.told
      (indifferent .node (same ▸ List.mem_singleton_self _))

theorem proper_webManifests : ∀ manifest ∈ webManifests, manifest.Proper := by
  intro manifest mem
  simp only [webManifests, List.mem_cons, List.not_mem_nil, or_false] at mem
  rcases mem with rfl | rfl <;>
  · simp only [webPod, managedManifest, Value.Proper, Json.ProperFields, Json.ProperItems,
      Table.Distinct]
    decide

def lonePodCluster : Cluster := (Cluster.load [webPod.manifest]).result.toOption.getD {}

/-- The pod names its replica set, with deployments switched on beside the replica set, and with
nothing switched on and no replica set there. -/
theorem native_switches_apart_web : ∃ document document',
    ((((({} : Settings).switched (· = .deployment)).podGenerator
      (webCluster.storesFor "shop")).native (some webPod) []).fromStart).result =
        .ok (some document) ∧
    ((((({} : Settings).switched fun _ => false).podGeneratorBy [.cronJob, .deployment]
      (lonePodCluster.storesFor "shop")).native (some webPod) []).fromStart).result =
        .ok (some document') ∧
    Table.get? document "replicaset" = Table.get? document' "replicaset" := by
  have finishes : ((((({} : Settings).switched (· = .deployment)).podGenerator
      (webCluster.storesFor "shop")).native (some webPod) []).fromStart.result.toOption.bind
        id).isSome := by decide +kernel
  have finishes' : ((((({} : Settings).switched fun _ => false).podGeneratorBy
      [.cronJob, .deployment] (lonePodCluster.storesFor "shop")).native (some webPod)
        []).fromStart.result.toOption.bind id).isSome := by decide +kernel
  have some_of_finishes {result : Except Fault (Option Document)}
      (h : (result.toOption.bind id).isSome) : ∃ document, result = .ok (some document) := by
    cases result with
    | error fault => cases h
    | ok answer =>
      cases answer with
      | none => cases h
      | some document => exact ⟨document, rfl⟩
  obtain ⟨document, made⟩ := some_of_finishes finishes
  obtain ⟨document', made'⟩ := some_of_finishes finishes'
  have loaded : (Cluster.load webManifests).result = .ok webCluster := rfl
  have loaded' : (Cluster.load [webPod.manifest]).result = .ok lonePodCluster := rfl
  have filed : webCluster.find? ⟨.pod, "shop", "web-1"⟩ = some webPod := rfl
  have filed' : lonePodCluster.find? ⟨.pod, "shop", "web-1"⟩ = some webPod := rfl
  have proper' : ∀ manifest ∈ [webPod.manifest], manifest.Proper := fun manifest mem =>
    proper_webManifests manifest (List.mem_cons.mpr (.inl (List.mem_singleton.mp mem)))
  have order : [Hop.cronJob, .deployment].Perm Hop.all := List.Perm.swap ..
  refine ⟨document, document', made, made', ?_⟩
  exact native_switches_apart proper_webManifests proper' loaded loaded' filed filed' order made made'
    fun switch mem => by
      cases switch <;> exact absurd mem (by decide)

end ClusterMetadata
