import ClusterMetadata.Proofs.OwnerChain

/-!
# What the document of a pod depends on

A generator of a namespace asks for few of the resources that are filed. Clusters that have the
same under the identities that are asked for give the same answers, shelves and reports included.

* `Peer.Alike`: two peers answer some names alike;
* `build_congr`: the draft of a pod in two clusters that agree around it;
* `AgreeAround`: the five identities that matter for a pod;
* `pod_answers_congr`: the answers for a pod in two loaded clusters that agree on them, or whose
  manifests differ in other namespaces only.
-/
namespace ClusterMetadata

open Json (Value)

/-- Two peers, or two absences of one, that answer some names alike. -/
def Peer.Alike (asked : Text → Prop) : Option Peer → Option Peer → Prop
  | none, none => True
  | some peer, some peer' => ∀ name, asked name → peer.ask name = peer'.ask name
  | _, _ => False

theorem Peer.Alike.mono {asked asked' : Text → Prop} {peer peer' : Option Peer}
    (alike : Alike asked peer peer') (fewer : ∀ name, asked' name → asked name) :
    Alike asked' peer peer' := by
  match peer, peer', alike with
  | none, none, _ => trivial
  | some _, some _, alike => exact fun name h => alike name (fewer name h)

namespace Generator

/-- Generators that find the same under a name and build it alike answer the name alike. -/
theorem ask_congr {g g' : Generator} {name : Text} (kind : g.kind = g'.kind)
    (stored : g.stored name = g'.stored name)
    (build : ∀ r, g.stored name = some r → g.build r = g'.build r) :
    g.peer.ask name = g'.peer.ask name := by
  funext options
  change g.draft (g.stored name) options = g'.draft (g'.stored name) options
  rw [← stored]
  cases found : g.stored name with
  | none => rfl
  | some r => rw [draft, draft, kind, build r found]

theorem native_congr {g g' : Generator} {r : Resource} {options : List FieldOption}
    (kind : g.kind = g'.kind) (build : g.build r options = g'.build r options) :
    g.native (some r) options = g'.native (some r) options := by
  rw [native, native, draft, draft, kind, build]

theorem generate_congr {g g' : Generator} {r : Resource} {options : List FieldOption}
    (kind : g.kind = g'.kind) (projector : g.projector = g'.projector)
    (build : g.build r options = g'.build r options) :
    g.generate (some r) options = g'.generate (some r) options := by
  rw [generate, generate, native_congr kind build, orchestrator, orchestrator, projector]

end Generator

namespace Projector

/-- What a namespace adds depends on the answer for the resource's namespace only. -/
theorem mergeSpace_congr {peer peer' : Option Peer} {r : Resource}
    (alike : Peer.Alike (fun space => r.space = .ok space) peer peer') (d : Draft) :
    mergeSpace peer r d = mergeSpace peer' r d := by
  match peer, peer', alike with
  | none, none, _ => rfl
  | some peer, some peer', alike =>
    rw [mergeSpace, mergeSpace]
    refine Drafting.bind_congr_of_ensures (Drafting.ensures_lift_except r.space) fun space h => ?_
    rw [alike space h]

theorem nativeInSpace_congr (p : Projector) {peer peer' : Option Peer} {r : Resource}
    (alike : Peer.Alike (fun space => r.space = .ok space) peer peer') (field : Text)
    (options : List FieldOption) :
    p.nativeInSpace peer field r options = p.nativeInSpace peer' field r options := by
  rw [nativeInSpace, nativeInSpace]
  exact bind_congr fun d => mergeSpace_congr alike d

end Projector

namespace Draft

/-- A hop depends on the answer for the controller that the draft names. -/
theorem takeHop_congr {parts parts' : PodParts} (hops : parts.hops = parts'.hops) {d : Draft}
    {hop : Hop} {via : Option Text} (start : ∀ shelf, d.ownerName? shelf hop.via = via)
    (alike : Peer.Alike (fun name => via = some name) (parts.peerFor hop) (parts'.peerFor hop)) :
    d.takeHop parts hop = d.takeHop parts' hop := by
  rw [takeHop, takeHop, hops]
  revert alike
  cases parts.peerFor hop <;> cases parts'.peerFor hop <;> intro alike
  · rfl
  · exact alike.elim
  · exact alike.elim
  · next peer peer' =>
    have same : d.resolve hop peer = d.resolve hop peer' := by
      rw [resolve, resolve]
      refine bind_congr fun shelf => ?_
      rw [start shelf]
      cases via with
      | none => rfl
      | some name => simp only [alike name rfl]
    simp only [same]

/-- The node section depends on the answer for the node. -/
theorem addNode_congr {peer peer' : Option Peer} {nodeName : Text}
    (alike : Peer.Alike (· = nodeName) peer peer') (d : Draft) :
    addNode peer d nodeName = addNode peer' d nodeName := by
  match peer, peer', alike with
  | none, none, _ => rfl
  | some peer, some peer', alike => rw [addNode, addNode, alike nodeName rfl]

end Draft

namespace Cluster

/-- A generator of a namespace finds the same in clusters that have the same filed. -/
theorem lookup_congr {c c' : Cluster} (filed : c.Filed) (filed' : c'.Filed) {space : Text}
    {kind : Kind} {name : Text}
    (same : c.find? ⟨kind, kind.scope space, name⟩ = c'.find? ⟨kind, kind.scope space, name⟩) :
    lookup (Table.get? (c.storesFor space) kind) name (some kind) =
      lookup (Table.get? (c'.storesFor space) kind) name (some kind) := by
  rw [lookup_storesFor filed, lookup_storesFor filed', same]

end Cluster

/-- Two ways to find resources agree on a pod and on what its document is made from: its namespace,
its node, and the controllers in between that it names. -/
structure AgreeAround (find find' : Identity → Option Resource) (space name : Text) : Prop where
  pod : find ⟨.pod, space, name⟩ = find' ⟨.pod, space, name⟩
  home : find ⟨.namespace, "", space⟩ = find' ⟨.namespace, "", space⟩
  node : ∀ pod node, find ⟨.pod, space, name⟩ = some pod → pod.nodeName = .ok node →
    find ⟨.node, "", node⟩ = find' ⟨.node, "", node⟩
  controllers : ∀ pod (hop : Hop) via, find ⟨.pod, space, name⟩ = some pod →
    pod.controller? hop.via = some via → find ⟨hop.via, space, via⟩ = find' ⟨hop.via, space, via⟩

namespace Settings

variable {c c' : Cluster} (filed : c.Filed) (filed' : c'.Filed) {space : Text}
include filed filed'

theorem alike_spacePeer (s : Settings) :
    Peer.Alike (fun name => c.find? ⟨.namespace, "", name⟩ = c'.find? ⟨.namespace, "", name⟩)
      (s.spacePeer (c.storesFor space)) (s.spacePeer (c'.storesFor space)) := by
  rw [spacePeer, spacePeer]
  split
  · intro name same
    exact Generator.ask_congr rfl (Cluster.lookup_congr filed filed' same) fun _ _ => rfl
  · trivial

theorem alike_nodePeer (s : Settings) :
    Peer.Alike (fun name => c.find? ⟨.node, "", name⟩ = c'.find? ⟨.node, "", name⟩)
      (s.nodePeer (c.storesFor space)) (s.nodePeer (c'.storesFor space)) := by
  rw [nodePeer, nodePeer]
  split
  · intro name same
    exact Generator.ask_congr rfl (Cluster.lookup_congr filed filed' same) fun _ _ => rfl
  · trivial

/-- The controllers of a namespace are in it, so what they have from theirs is what they have from
this one. -/
theorem alike_hopPeer (s : Settings) (hop : Hop)
    (home : c.find? ⟨.namespace, "", space⟩ = c'.find? ⟨.namespace, "", space⟩) :
    Peer.Alike (fun name => c.find? ⟨hop.via, space, name⟩ = c'.find? ⟨hop.via, space, name⟩)
      (s.hopPeer (c.storesFor space) hop) (s.hopPeer (c'.storesFor space) hop) := by
  have scope : hop.via.scope space = space := by cases hop <;> rfl
  rw [hopPeer, hopPeer]
  split
  · intro name same
    refine Generator.ask_congr rfl (Cluster.lookup_congr filed filed' (by rwa [scope]))
      fun r found => ?_
    have inSpace : r.space = .ok space := by
      have found : lookup (Table.get? (c.storesFor space) hop.via) name (some hop.via) = some r :=
        found
      rw [Cluster.lookup_storesFor filed, scope] at found
      split at found
      · cases found
      · exact (Resource.identity_eq_ok.mp (Cluster.find?_identity filed found)).2.1
    funext options
    refine Projector.nativeInSpace_congr _ ?_ _ options
    refine (s.alike_spacePeer filed filed').mono fun other own => ?_
    rw [inSpace] at own
    exact Except.ok.inj own ▸ home
  · trivial

/-- The draft of a pod depends on what its document is made from. -/
theorem build_congr (s : Settings) {pod : Resource} {name : Text}
    (agree : AgreeAround c.find? c'.find? space name)
    (found : c.find? ⟨.pod, space, name⟩ = some pod) :
    (s.podGenerator (c.storesFor space)).build pod [] =
      (s.podGenerator (c'.storesFor space)).build pod [] := by
  have identity := Resource.identity_eq_ok.mp (Cluster.find?_identity filed found)
  have kind : pod.kind = .pod := identity.1
  have inSpace : pod.space = .ok space := identity.2.1
  have nonempty (kind : Kind) (name : Text) (h : pod.controller? kind = some name) : name ≠ "" :=
    Resource.controller?_ne_empty h
  have hops (hop : Hop) : Peer.Alike (fun via => pod.controller? hop.via = some via)
      ((s.podParts (c.storesFor space)).peerFor hop)
      ((s.podParts (c'.storesFor space)).peerFor hop) := by
    rw [peerFor_podParts, peerFor_podParts]
    exact (s.alike_hopPeer filed filed' hop agree.home).mono fun via named =>
      agree.controllers pod hop via found named
  have base := s.projector.ensures_nativeInSpace (s.inheriting_spacePeer (c.storesFor space)) pod
  have sameBase : s.projector.nativeInSpace (s.spacePeer (c.storesFor space)) Kind.pod.field pod [] =
      s.projector.nativeInSpace (s.spacePeer (c'.storesFor space)) Kind.pod.field pod [] := by
    refine Projector.nativeInSpace_congr _ ?_ _ []
    refine (s.alike_spacePeer filed filed').mono fun other own => ?_
    rw [inSpace] at own
    exact Except.ok.inj own ▸ agree.home
  have firstHop {d : Draft} (names : d.Names pod.kind pod.controller?) :
      d.takeHop (s.podParts (c.storesFor space)) .deployment =
        d.takeHop (s.podParts (c'.storesFor space)) .deployment := by
    refine Draft.takeHop_congr (by rfl) (fun shelf => ?_) (hops .deployment)
    exact Draft.ownerName?_of_names names rfl (by rw [kind]; decide) (nonempty _) shelf
  have secondHop {d d' : Draft} (names : d.Names pod.kind pod.controller?)
      (same : Draft.SameBut (· = Text.ofString Kind.deployment.field) d d') :
      d'.takeHop (s.podParts (c.storesFor space)) .cronJob =
        d'.takeHop (s.podParts (c'.storesFor space)) .cronJob := by
    refine Draft.takeHop_congr (by rfl) (fun shelf => ?_) (hops .cronJob)
    refine Draft.ownerName?_named ?_ (nonempty _) shelf
    rw [same _ (by decide)]
    exact names .job rfl (by rw [kind]; decide)
  rw [kind] at base firstHop secondHop
  rw [podGenerator_eq, podGenerator_eq, Generator.forPods, Generator.forPods]
  change (s.projector.nativeInSpace (s.spacePeer (c.storesFor space)) Kind.pod.field pod [] >>= _) =
    (s.projector.nativeInSpace (s.spacePeer (c'.storesFor space)) Kind.pod.field pod [] >>= _)
  rw [← sameBase]
  refine Drafting.bind_congr_of_ensures base fun d names => ?_
  rw [firstHop names]
  refine Drafting.bind_congr_of_ensures (Draft.sameBut_takeHop _ d .deployment) fun d' same => ?_
  rw [secondHop names same]
  refine bind_congr fun d'' => ?_
  refine Drafting.bind_congr_of_ensures (Drafting.ensures_lift_except pod.nodeName)
    fun nodeName named => ?_
  have node : Draft.addNode (s.nodePeer (c.storesFor space)) d'' nodeName =
      Draft.addNode (s.nodePeer (c'.storesFor space)) d'' nodeName := by
    refine Draft.addNode_congr ((s.alike_nodePeer filed filed').mono fun other own => ?_) d''
    exact own ▸ agree.node pod nodeName found named
  exact congrArg (· >>= _) node

/-- What is stored under a pod's name, and so the answer for the name. -/
theorem fromName_congr (s : Settings) {name : Text}
    (agree : AgreeAround c.find? c'.find? space name) :
    (s.podGenerator (c.storesFor space)).fromName name [] =
      (s.podGenerator (c'.storesFor space)).fromName name [] := by
  have stored : (s.podGenerator (c.storesFor space)).stored name =
      (s.podGenerator (c'.storesFor space)).stored name :=
    Cluster.lookup_congr filed filed' agree.pod
  rw [Generator.fromName, Generator.fromName, ← stored]
  cases found : (s.podGenerator (c.storesFor space)).stored name with
  | none => rfl
  | some pod =>
    have found : lookup (Table.get? (c.storesFor space) .pod) name (some .pod) = some pod := found
    rw [Cluster.lookup_storesFor filed] at found
    split at found
    · cases found
    · exact Generator.native_congr rfl (s.build_congr filed filed' agree found)

end Settings

/-- Two clusters answer alike for a pod of a namespace: for its name, and for the pod itself when it
is there. The answers are the same on every shelf, with all that is reported on the way. -/
def AnswerAlike (s : Settings) (c c' : Cluster) (space name : Text) : Prop :=
  s.withPods (c.storesFor space) (·.fromName name []) =
      s.withPods (c'.storesFor space) (·.fromName name []) ∧
    ∀ pod, c.find? ⟨.pod, space, name⟩ = some pod →
      s.withPods (c.storesFor space) (·.generate (some pod) []) =
        s.withPods (c'.storesFor space) (·.generate (some pod) [])

theorem answerAlike_of_agree (s : Settings) {c c' : Cluster} (filed : c.Filed) (filed' : c'.Filed)
    {space name : Text} (agree : AgreeAround c.find? c'.find? space name) :
    AnswerAlike s c c' space name := by
  constructor
  · exact s.withPods_congr (s.fromName_congr filed filed' agree)
  · intro pod found
    apply s.withPods_congr
    exact Generator.generate_congr rfl rfl (s.build_congr filed filed' agree found)

/-- The manifests without those of other namespaces. -/
def within (space : Text) (manifests : List Value) : List Value :=
  manifests.filter fun manifest =>
    (Resource.seen? manifest).all fun r => r.space.toOption = some (r.kind.scope space)

/-- Manifests of other namespaces are not found from a namespace. -/
theorem last?_within (space : Text) (manifests : List Value) (kind : Kind) (name : Text) :
    last? (within space manifests) ⟨kind, kind.scope space, name⟩ =
      last? manifests ⟨kind, kind.scope space, name⟩ := by
  induction manifests with
  | nil => rfl
  | cons manifest rest ih =>
    rw [within, List.filter_cons]
    cases seen : Resource.seen? manifest with
    | none =>
      simp only [Option.all_none, if_true]
      rw [last?_of_unseen seen, last?_of_unseen seen]
      exact ih
    | some r =>
      rw [last?_of_seen seen, ← ih]
      split
      · rw [last?_of_seen seen]
        rfl
      · next other =>
        have notOwn : ¬ r.has ⟨kind, kind.scope space, name⟩ := by
          intro own
          obtain ⟨rfl, home, -⟩ := Resource.identity_eq_ok.mp (Resource.has_iff.mp own)
          apply other
          simp [home, Except.toOption]
        rw [if_neg notOwn, Option.or_none]
        rfl

theorem agreeAround_of_within {manifests manifests' : List Value} {space : Text}
    (same : within space manifests = within space manifests') (name : Text) :
    AgreeAround (last? manifests) (last? manifests') space name := by
  have found (kind : Kind) (name : Text) : last? manifests ⟨kind, kind.scope space, name⟩ =
      last? manifests' ⟨kind, kind.scope space, name⟩ := by
    rw [← last?_within, same, last?_within]
  refine ⟨found .pod name, found .namespace space, fun _ node _ _ => found .node node,
    fun _ hop via _ _ => ?_⟩
  cases hop
  · exact found .replicaSet via
  · exact found .job via

/-- What a generator of a namespace says of a pod depends on the last manifests of five identities,
and manifests of other namespaces do not change it. -/
theorem pod_answers_congr (s : Settings) {manifests manifests' : List Value} {c c' : Cluster}
    (loaded : (Cluster.load manifests).result = .ok c)
    (loaded' : (Cluster.load manifests').result = .ok c') (space name : Text) :
    (AgreeAround (last? manifests) (last? manifests') space name → AnswerAlike s c c' space name) ∧
      (within space manifests = within space manifests' → AnswerAlike s c c' space name) := by
  have filed := Cluster.filed_of_load loaded
  have filed' := Cluster.filed_of_load loaded'
  have found : c.find? = last? manifests := funext (Cluster.find?_load loaded)
  have found' : c'.find? = last? manifests' := funext (Cluster.find?_load loaded')
  constructor
  · intro agree
    rw [← found, ← found'] at agree
    exact answerAlike_of_agree s filed filed' agree
  · intro same
    have agree := agreeAround_of_within same name
    rw [← found, ← found'] at agree
    exact answerAlike_of_agree s filed filed' agree

/-- A replica set of another namespace, under the name that the pod's own one has here. -/
def twinManifest : Value := managedManifest "ReplicaSet" "attic" "web-a" "Deployment" "old"

/-- The twin changes nothing for the pod, wherever it stands among the manifests. -/
theorem pod_answers_congr_twin :
    ∃ c c', (Cluster.load (twinManifest :: webManifests)).result = .ok c ∧
      (Cluster.load webManifests).result = .ok c' ∧
      within "shop" (twinManifest :: webManifests) = within "shop" webManifests ∧
      AnswerAlike { owners := { deployment := true } } c c' "shop" "web-1" := by
  have same : within "shop" (twinManifest :: webManifests) = within "shop" webManifests := by
    decide +kernel
  have alike := pod_answers_congr { owners := { deployment := true } }
    (show (Cluster.load (twinManifest :: webManifests)).result = .ok _ from rfl)
    (show (Cluster.load webManifests).result = .ok _ from rfl) "shop" "web-1"
  exact ⟨_, _, rfl, rfl, same, alike.2 same⟩

end ClusterMetadata
