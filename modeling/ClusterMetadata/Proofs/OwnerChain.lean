import ClusterMetadata.Enricher
import ClusterMetadata.Proofs.Hops
import ClusterMetadata.Proofs.Loading

/-!
# The owners of a pod, from the manifests to the document

* `chainOwner?`: the owner that manifests give a pod, through the controller in between or else by
  a reference of its own;
* `ensures_pod`: the draft that a generator of a namespace makes names this owner;
* `native_names_chainOwner`: so does the document, which has no field for an owner that is not
  there.
-/
namespace ClusterMetadata

open Json (Value)

/-- The owner of a pod of a namespace at the end of a hop: the one that the last manifest of the
controller in between names, and otherwise the one that the pod names itself. -/
def chainOwner? (manifests : List Value) (space : Text) (pod : Resource) (hop : Hop) :
    Option Text :=
  let behind := do
    let via ← pod.controller? hop.via
    let controller ← last? manifests ⟨hop.via, space, via⟩
    controller.controller? hop.owner
  behind.or (pod.controller? hop.owner)

/-- The owner of a hop that the controller filed under a name names. -/
def Cluster.ownerOf? (c : Cluster) (space : Text) (hop : Hop) (name : Text) : Option Text :=
  (c.find? ⟨hop.via, space, name⟩).bind (·.controller? hop.owner)

namespace Settings

def podParts (s : Settings) (stores : Stores) : PodParts where
  store := Table.get? stores .pod
  node := s.nodePeer stores
  space := s.spacePeer stores
  replicaSet := s.hopPeer stores .deployment
  job := s.hopPeer stores .cronJob
  projector := s.projector
  hops := s.owners.hops

theorem podGenerator_eq (s : Settings) (stores : Stores) :
    s.podGenerator stores = Generator.forPods (s.podParts stores) := rfl

theorem peerFor_podParts (s : Settings) (stores : Stores) (hop : Hop) :
    (s.podParts stores).peerFor hop = s.hopPeer stores hop := by
  cases hop <;> rfl

/-! A peer is there when its part is switched on. -/

theorem of_spacePeer {s : Settings} {stores : Stores} {p : Peer} (h : p ∈ s.spacePeer stores) :
    s.owners.space.enabled = true ∧ p = (Generator.forNamespaces (Table.get? stores .namespace)
      ⟨s.owners.space.selection, s.cluster⟩).peer := by
  rw [spacePeer, Option.mem_def] at h
  split at h
  · next on => exact ⟨on, (Option.some.inj h).symm⟩
  · cases h

theorem of_nodePeer {s : Settings} {stores : Stores} {p : Peer} (h : p ∈ s.nodePeer stores) :
    s.owners.node.enabled = true ∧ p = (Generator.forNodes (Table.get? stores .node)
      ⟨s.owners.node.selection, s.cluster⟩).peer := by
  rw [nodePeer, Option.mem_def] at h
  split at h
  · next on => exact ⟨on, (Option.some.inj h).symm⟩
  · cases h

theorem of_hopPeer {s : Settings} {stores : Stores} {hop : Hop} {p : Peer}
    (h : p ∈ s.hopPeer stores hop) :
    hop ∈ s.owners.hops ∧ p = (Generator.forControllers hop.via (Table.get? stores hop.via)
      s.projector (s.spacePeer stores)).peer := by
  rw [hopPeer, Option.mem_def] at h
  split at h
  · next on => exact ⟨on, (Option.some.inj h).symm⟩
  · cases h

theorem inheriting_spacePeer (s : Settings) (stores : Stores) (p : Peer)
    (h : s.spacePeer stores = some p) : p.Inheriting := by
  obtain ⟨-, rfl⟩ := of_spacePeer h
  exact Generator.inheriting_forNamespaces _ _

/-- A controller's generator answers with the owner that the filed controller names. -/
theorem ensures_hopPeer (s : Settings) {c : Cluster} (filed : c.Filed) (space : Text) {hop : Hop}
    {peer : Peer} (h : s.hopPeer (c.storesFor space) hop = some peer) {name : Text}
    (nonempty : name ≠ "") :
    (peer.ask name []).Ensures (Draft.Answers hop (c.ownerOf? space hop name)) := by
  have namespaced : hop.via.scope space = space := by cases hop <;> rfl
  have controller : hop.owner.isController := by cases hop <;> rfl
  have apart : hop.owner ≠ hop.via := by cases hop <;> decide
  obtain ⟨-, rfl⟩ := of_hopPeer h
  have stored : (Generator.forControllers hop.via (Table.get? (c.storesFor space) hop.via)
      s.projector (s.spacePeer (c.storesFor space))).stored name =
      c.find? ⟨hop.via, space, name⟩ := by
    rw [Generator.stored, Generator.forControllers, Cluster.lookup_storesFor filed,
      if_neg nonempty, namespaced]
  refine Generator.ensures_ask (fun missing => ?_) fun r found => ?_ <;>
    unfold Cluster.ownerOf?
  · rw [← stored, missing]
    exact fun _ => rfl
  · have kind : r.kind = hop.via := Generator.kind_of_stored found
    rw [← stored, found]
    rw [Generator.forControllers, ← kind]
    refine (s.projector.ensures_nativeInSpace (s.inheriting_spacePeer _) r).mono
      fun d names shelf => ?_
    exact Draft.ownerName?_of_names names controller (kind ▸ apart)
      (fun _ => Resource.controller?_ne_empty) shelf

/-- The draft of a pod names the owner of every hop that is switched on. -/
theorem ensures_pod (s : Settings) {c : Cluster} (filed : c.Filed) (space : Text) {pod : Resource}
    (kind : pod.kind = .pod) {hop : Hop} (on : hop ∈ s.owners.hops) :
    ((s.podGenerator (c.storesFor space)).build pod []).Ensures fun d =>
      Table.get? d hop.owner.field =
        (((pod.controller? hop.via).bind (c.ownerOf? space hop)).or
          (pod.controller? hop.owner)).map Draft.Node.named := by
  have answers (hop : Hop) (peer : Peer)
      (h : (s.podParts (c.storesFor space)).peerFor hop = some peer) (name : Text)
      (named : pod.controller? hop.via = some name) : (peer.ask name []).Ensures
        (Draft.Answers hop (c.ownerOf? space hop name)) := by
    rw [peerFor_podParts] at h
    exact s.ensures_hopPeer filed space h (Resource.controller?_ne_empty named)
  have nonempty (kind : Kind) (name : Text) (h : pod.controller? kind = some name) : name ≠ "" :=
    Resource.controller?_ne_empty h
  have base := s.projector.ensures_nativeInSpace (s.inheriting_spacePeer (c.storesFor space)) pod
  rw [kind] at base
  rw [podGenerator_eq, Generator.forPods]
  refine base.bind fun d names => ?_
  refine (Draft.ensures_takeHop names .deployment (by decide) (by decide)
    (nonempty _) (answers .deployment)).bind fun d names => ?_
  refine (Draft.ensures_takeHop names .cronJob (by decide) (by decide)
    (nonempty _) (answers .cronJob)).bind fun d names => ?_
  refine (Drafting.ensures_true _).bind fun nodeName _ => ?_
  refine (Draft.ensures_addNode _ d nodeName).bind fun d' same => ?_
  have names' := Draft.names_sameBut names same (by intro kind; cases kind <;> decide)
  refine (Drafting.ensures_true _).bind fun address _ => ?_
  refine (Draft.ensures_putText d' _ _ address).mono fun d'' same' => ?_
  have names'' := Draft.names_sameBut names' same' (by intro kind; cases kind <;> decide)
  have found (via : Option Text) (said : Text → Option Text) :
      Draft.foundBy (s.podParts (c.storesFor space)) hop said via = via.bind said := by
    have peer : (s.hopPeer (c.storesFor space) hop).isSome := by
      rw [hopPeer, if_pos on]
      rfl
    rw [Draft.foundBy, peerFor_podParts, if_pos ⟨on, peer⟩]
  -- The two hops write under fields of their own, so what one found the other leaves.
  rw [← found (pod.controller? hop.via) (c.ownerOf? space hop)]
  cases hop with
  | deployment => exact names'' .deployment rfl (by decide)
  | cronJob => exact names'' .cronJob rfl (by decide)

end Settings

namespace Generator

/-- The native document of a resource of the kind is what its draft shows. -/
theorem native_of_kind {g : Generator} {r : Resource} (kind : r.kind = g.kind)
    (options : List FieldOption) : g.native (some r) options = (do
      let d ← g.build r options
      let document ← d.document
      return some document) := by
  rw [native, draft, if_pos kind, map_eq_pure_bind, bind_assoc]
  simp only [LawfulMonad.pure_bind, Draft.documentOf, map_eq_pure_bind]

/-- The native document of a resource shows the fields of its draft. -/
theorem ensures_native {g : Generator} {r : Resource} (kind : r.kind = g.kind) {name : Text}
    {owner : Option Text} (built : (g.build r []).Ensures fun d =>
      Table.get? d name = owner.map Draft.Node.named) :
    (g.native (some r) []).Ensures fun answer => ∃ document, answer = some document ∧
      Table.get? document name = owner.map Value.named := by
  rw [native_of_kind kind]
  refine built.bind fun d field => ?_
  rw [Draft.document, bind_assoc]
  refine (Drafting.ensures_true _).bind fun shelf _ => ?_
  cases shown : d.shown shelf with
  | none =>
    have nothing : (Drafting.fail .circular : Drafting Document).Ensures fun _ => False :=
      Drafting.ensures_fail
    exact nothing.bind fun _ h => h.elim
  | some document =>
    refine Drafting.ensures_pure ⟨document, rfl, ?_⟩
    rw [Draft.get?_shownFields shown, field]
    cases owner with
    | none => rfl
    | some owner => exact Draft.shown_ofValue shelf.shown (.named owner)

end Generator

namespace Settings

/-- Builds the pod generator over a set of stores and uses it. -/
def withPods {α : Type} (s : Settings) (stores : Stores) (use : Generator → Drafting α) :
    Drafting α := do
  let g ← s.buildPodGenerator stores
  use g

/-- What is reported when a pod generator is built depends on the settings only. -/
theorem withPods_eq {α : Type} (s : Settings) (stores : Stores) (use : Generator → Drafting α) :
    s.withPods stores use = (do
      Traced.report (.generatorBuilt s.owners.node.enabled s.owners.space.enabled
        s.owners.deployment s.owners.cronJob)
      use (s.podGenerator stores)) := rfl

theorem withPods_congr {α : Type} (s : Settings) {stores stores' : Stores}
    {use : Generator → Drafting α}
    (same : use (s.podGenerator stores) = use (s.podGenerator stores')) :
    s.withPods stores use = s.withPods stores' use := by
  rw [withPods_eq, withPods_eq, same]

theorem ensures_withPods {α : Type} {s : Settings} {stores : Stores} {use : Generator → Drafting α}
    {post : α → Prop} (used : (use (s.podGenerator stores)).Ensures post) :
    (s.withPods stores use).Ensures post := by
  refine (Drafting.ensures_lift _).bind fun g built => ?_
  have same : g = s.podGenerator stores := by
    cases built
    rfl
  rw [same]
  exact used

end Settings

/-- The native document of a pod that is filed in a namespace has, for every hop that is switched
on, the owner that the manifests give it and nothing else, and no field for an owner that they
do not give. -/
theorem native_names_chainOwner (s : Settings) {manifests : List Value} {c : Cluster}
    (loaded : (Cluster.load manifests).result = .ok c) {space name : Text} {pod : Resource}
    (filed : (c.storesOf space).find? .pod name = some pod) {hop : Hop}
    (on : hop ∈ s.owners.hops) {shelf : Shelf} {answer : Option Document}
    (made : (s.withPods (c.storesFor space) (fun g => g.native (some pod) []) shelf).1.result =
      .ok answer) :
    ∃ document, answer = some document ∧
      Table.get? document hop.owner.field =
        (chainOwner? manifests space pod hop).map Value.named ∧
      ∀ owner ∈ chainOwner? manifests space pod hop, owner ≠ "" := by
  have inOrder := Cluster.filed_of_load loaded
  have identity := (inOrder.spaces space).identities filed
  have kind : pod.kind = .pod := (Resource.identity_eq_ok.mp identity).1
  have owner : ((pod.controller? hop.via).bind (c.ownerOf? space hop)).or
      (pod.controller? hop.owner) = chainOwner? manifests space pod hop := by
    have said : c.ownerOf? space hop = fun via =>
        (last? manifests ⟨hop.via, space, via⟩).bind (·.controller? hop.owner) := by
      funext via
      rw [Cluster.ownerOf?, Cluster.find?_load loaded]
    rw [said]
    rfl
  have built := s.ensures_pod inOrder space kind on
  rw [owner] at built
  have native : (s.withPods (c.storesFor space) fun g => g.native (some pod) []).Ensures _ :=
    Settings.ensures_withPods (Generator.ensures_native kind built)
  obtain ⟨document, found, field⟩ := native shelf answer made
  refine ⟨document, found, field, fun name given => ?_⟩
  rw [← owner, Option.mem_def, Option.or_eq_some_iff] at given
  rcases given with behind | ⟨-, own⟩
  · obtain ⟨via, -, said⟩ := Option.bind_eq_some_iff.mp behind
    obtain ⟨controller, -, named⟩ := Option.bind_eq_some_iff.mp said
    exact Resource.controller?_ne_empty named
  · exact Resource.controller?_ne_empty own

def managedManifest (kind space name ownerKind owner : Text) : Value :=
  .object [
    ("kind", .string kind),
    ("metadata", .object [
      ("namespace", .string space),
      ("name", .string name),
      ("ownerReferences", .array [.object [
        ("kind", .string ownerKind),
        ("name", .string owner),
        ("controller", .bool true)]])])]

def webPod : Resource := ⟨.pod, 0, managedManifest "Pod" "shop" "web-1" "ReplicaSet" "web-a"⟩

def webManifests : List Value :=
  [webPod.manifest, managedManifest "ReplicaSet" "shop" "web-a" "Deployment" "web"]

def webCluster : Cluster := (Cluster.load webManifests).result.toOption.getD {}

/-- With deployments switched on, the pod has the deployment of its replica set. -/
theorem native_names_deployment :
    ∃ answer document, (Cluster.load webManifests).result = .ok webCluster ∧
      (webCluster.storesOf "shop").find? .pod "web-1" = some webPod ∧
      (Settings.withPods { owners := { deployment := true } } (webCluster.storesFor "shop")
        (fun g => g.native (some webPod) []) {}).1.result = .ok answer ∧
      answer = some document ∧ Table.get? document "deployment" = some (.named "web") := by
  have finishes : (Settings.withPods { owners := { deployment := true } }
      (webCluster.storesFor "shop") (fun g => g.native (some webPod) []) {}).1.result.toBool := by
    decide +kernel
  cases made : (Settings.withPods { owners := { deployment := true } }
      (webCluster.storesFor "shop") (fun g => g.native (some webPod) []) {}).1.result with
  | error fault =>
    rw [made] at finishes
    cases finishes
  | ok answer =>
    have loaded : (Cluster.load webManifests).result = .ok webCluster := rfl
    have filed : (webCluster.storesOf "shop").find? .pod "web-1" = some webPod := rfl
    have on : Hop.deployment ∈ OwnerChain.hops { deployment := true } := by decide
    obtain ⟨document, found, field, -⟩ := native_names_chainOwner _ loaded filed on made
    exact ⟨answer, document, loaded, filed, rfl, found, field⟩

end ClusterMetadata
