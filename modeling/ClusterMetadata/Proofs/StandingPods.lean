import ClusterMetadata.Proofs.StandingAnswers

/-!
# Making the document of a pod where pods have had their way

Whatever the options of this call or of earlier ones did to the maps of pods, each step of a pod's
draft fails only for what is wrong with a resource that is read.

* `stays_podNative`, `stays_podInSpace`: the draft of a pod, with what its namespace adds;
* `stays_takeHop`, `stays_addNode`: the steps that ask other peers;
* `stays_forPods`: the whole draft.
-/
namespace ClusterMetadata

open Json (Value Fields)
open Drafting (Stays stays_pure stays_read)

variable {terms : Terms} {reads : Resource → Prop} {shelf : Shelf} {i : Inventory}

namespace Draft

theorem Only.assembled {own : SharedMap → Prop} {labels annotations : Draft}
    (onlyLabels : Only own labels) (onlyAnnotations : Only own annotations)
    (field name uid space : Text) (refs : List OwnerReference) :
    Only own (Draft.assembled field name uid space refs labels annotations) := by
  have sectioned {d : Draft} (h : Only own d) (map : MetadataMap) {fields : Draft}
      (only : Only own fields) : Only own (d.insertSection map fields) := by
    rw [insertSection]
    split
    · exact h
    · exact h.insert _ only
  exact sectioned (sectioned (only_ofFields own _) .labels onlyLabels) .annotations onlyAnnotations

end Draft

namespace Projector

variable (p : Projector) (standing : Standing terms shelf i) {pod : Resource} (read : reads pod)
  {metadata : Fields} (known : pod.metadata = .ok metadata) (kind : pod.kind = .pod)
include standing read known kind

/-- The section of a pod is made in sight of pods only. -/
theorem stays_podSection (map : MetadataMap) :
    Stays terms (Faulty terms reads) shelf i (p.sectionOf pod map) fun _ i' d =>
      Draft.Only i'.PodMap d := by
  refine p.stays_chosen standing read known map fun chosen _ => ?_
  have seen : ¬ i.othersVeiled.lenders ⟨map, pod⟩ := fun other => other kind
  exact Drafting.stays_pods standing (Veil.works_ofMap standing.pods.twins seen _ _)
    fun left i' d _ _ pods only => only.mono pods

/-- The draft of a pod holds maps of pods only, whatever is asked for besides. -/
theorem stays_podNative (field : Text) (options : List FieldOption) :
    Stays terms (Faulty terms reads) shelf i (p.native field pod options) fun _ i' d =>
      Draft.Only i'.PodMap d := by
  rw [native_eq]
  refine (p.stays_podSection standing read known kind .labels).bind ?_
  intro _ i₁ labels standing _ onlyLabels
  refine (p.stays_podSection standing read known kind .annotations).bind ?_
  intro _ i₂ annotations standing changes onlyAnnotations
  refine stays_identifying standing read known fun name uid space refs => ?_
  have only := (onlyLabels.mono fun m own => own.of_changes changes).assembled onlyAnnotations
    field name uid space refs
  have seen := only.mono fun m => standing.sees_others.mpr
  exact Drafting.stays_pods standing (Veil.works_adjustAll standing.pods.twins options seen)
    fun left i' d _ _ pods only => only.mono pods

/-- What a namespace answers is merged into maps of pods. -/
theorem stays_podInSpace {peer : Option Peer} (asked : ∀ p ∈ peer, ∀ space, pod.space = .ok space →
      ∀ shelf i, Standing terms shelf i → Stays terms (Faulty terms reads) shelf i (p.ask space [])
        fun left i' answer => ∀ d ∈ answer, d.Inheritable terms reads left i')
    (field : Text) (options : List FieldOption) :
    Stays terms (Faulty terms reads) shelf i (p.nativeInSpace peer field pod options)
      fun _ _ d => d.Rooted := by
  have stays : Stays terms (Faulty terms reads) shelf i (p.nativeInSpace peer field pod options)
      fun _ _ _ => True := by
    refine (p.stays_podNative standing read known kind field options).bind ?_
    intro left i' d standing _ only
    refine stays_mergeSpace standing known asked (fun _ _ _ _ => trivial) ?_
    rintro left i'' other standing changes ⟨source, shows, unseen, -, deep⟩
    have seen : i''.othersVeiled.SeesDraft left d :=
      only.mono fun m own => standing.sees_others.mpr (own.of_changes changes)
    have ends := Draft.ends_merge standing.closed ⟨standing.pods, .refl _ left⟩ seen unseen shows
    refine Drafting.stays_since standing (ends.mono ?_ fun _ _ _ made => made)
      fun _ _ _ _ _ _ _ => trivial
    rintro fault ⟨rfl, tight⟩
    exact deep tight
  exact (stays.and (p.ensures_nativeInSpace_rooted peer field pod options)).mono (fun _ => id)
    fun _ _ _ _ _ made => made.2

end Projector

namespace Draft

variable (standing : Standing terms shelf i) {d : Draft} (rooted : d.Rooted)
include standing rooted

theorem stays_putName {may : Fault → Prop} (field name : Text) :
    Stays terms may shelf i (liftM (d.putName field name) : Drafting Draft)
      fun _ _ d' => d'.Rooted := by
  rw [putName_of_rooted rooted]
  exact stays_pure standing (rooted_withName rooted field name)

/-- A hop asks for the controller that the draft names. -/
theorem stays_takeHop {may : Fault → Prop} {parts : PodParts} {hop : Hop}
    (asked : ∀ peer ∈ parts.peerFor hop, ∀ via, d.ownerName? shelf hop.via = some via →
      Stays terms may shelf i (peer.ask via []) fun _ _ _ => True) :
    Stays terms may shelf i (takeHop parts d hop) fun _ _ d' => d'.Rooted := by
  rw [takeHop]
  split
  · next peer found =>
    split
    · rw [resolve]
      refine Drafting.stays_shelf ?_
      split
      · exact stays_pure standing rooted
      · next via named =>
        refine (asked peer found via named).bind fun left i' answer standing _ _ => ?_
        refine Drafting.stays_shelf ?_
        split
        · exact Drafting.stays_report _ (stays_putName standing rooted _ _)
        · exact Drafting.stays_report _ (stays_pure standing rooted)
    · exact stays_pure standing rooted
  · exact stays_pure standing rooted

theorem stays_addNode {may : Fault → Prop} {node : Option Peer} {nodeName : Text}
    (asked : ∀ peer ∈ node, Stays terms may shelf i (peer.ask nodeName [.nest Kind.node.field])
      fun _ _ _ => True) :
    Stays terms may shelf i (addNode node d nodeName) fun _ _ _ => True := by
  have answered {left : Shelf} {i' : Inventory} (standing : Standing terms left i')
      (answer : Option Draft) : Stays terms may left i'
        (liftM (d.withNode nodeName answer) : Drafting Draft) fun _ _ _ => True := by
    have named : Stays terms may left i'
        (liftM (d.putName Kind.node.field nodeName) : Drafting Draft) fun _ _ _ => True :=
      (stays_putName standing rooted _ _).mono (fun _ => id) fun _ _ _ _ _ _ => trivial
    rw [withNode]
    split
    · exact named
    · exact named
    · exact stays_pure standing trivial
  rw [addNode_eq]
  split
  · exact stays_pure standing trivial
  · cases node with
    | none => exact answered standing none
    | some peer =>
      exact (asked peer rfl).bind fun left i' answer standing _ _ => answered standing answer

end Draft

/-- The controller that a hop asks for: the one that the draft of the pod names before any hop is
taken, when the draft comes that far. -/
def PodParts.viaNamed (parts : PodParts) (pod : Resource) (options : List FieldOption)
    (shelf : Shelf) (hop : Hop) : Option Text :=
  let made := parts.projector.nativeInSpace parts.space Kind.pod.field pod options shelf
  made.1.result.toOption.bind (Draft.ownerName? made.2 · hop.via)

namespace Generator

/-- The draft of a pod, given how its peers stay. Its hops ask for the controllers that the draft
names before any hop is taken. -/
theorem stays_forPods {parts : PodParts} (standing : Standing terms shelf i) {pod : Resource}
    (read : reads pod) {metadata : Fields} (known : pod.metadata = .ok metadata)
    (kind : pod.kind = .pod) (options : List FieldOption)
    (space : ∀ p ∈ parts.space, ∀ space, pod.space = .ok space → ∀ shelf i,
      Standing terms shelf i → Stays terms (Faulty terms reads) shelf i (p.ask space [])
        fun left i' answer => ∀ d ∈ answer, d.Inheritable terms reads left i')
    (node : ∀ p ∈ parts.node, ∀ name, pod.nodeName = .ok name → ∀ shelf i,
      Standing terms shelf i → Stays terms (Faulty terms reads) shelf i
        (p.ask name [.nest Kind.node.field]) fun _ _ _ => True)
    (hops : ∀ hop, ∀ p ∈ parts.peerFor hop, ∀ via,
      parts.viaNamed pod options shelf hop = some via → ∀ shelf i, Standing terms shelf i →
      Stays terms (Faulty terms reads) shelf i (p.ask via []) fun _ _ _ => True) :
    Stays terms (Faulty terms reads) shelf i ((forPods parts).build pod options)
      fun _ _ _ => True := by
  have based := (parts.projector.stays_podInSpace standing read known kind space Kind.pod.field
    options).known
  refine based.bind ?_
  rintro left i' base standing - ⟨rooted, made, here⟩
  have asked (d : Draft) (rooted : d.Rooted) (hop : Hop)
      (same : Table.get? d hop.via.field = Table.get? base hop.via.field) {shelf : Shelf}
      {i : Inventory} (standing : Standing terms shelf i) : ∀ p ∈ parts.peerFor hop, ∀ via,
      d.ownerName? shelf hop.via = some via →
        Stays terms (Faulty terms reads) shelf i (p.ask via []) fun _ _ _ => True := by
    intro p mem via named
    refine hops hop p mem via ?_ shelf i standing
    rw [Draft.ownerName?_of_rooted rooted shelf left, Draft.ownerName?, Draft.at?, same] at named
    rw [PodParts.viaNamed, made, here]
    exact named
  refine ((Draft.stays_takeHop standing rooted (asked base rooted .deployment rfl standing)).and
    (Draft.sameBut_takeHop parts base .deployment)).bind ?_
  rintro _ _ d standing - ⟨rooted, same⟩
  refine (Draft.stays_takeHop standing rooted
    (asked d rooted .cronJob (same _ (by decide)) standing)).bind ?_
  rintro _ _ d standing - rooted
  refine stays_read standing (faulty_of_error read (Resource.exists_nodeName known)) ?_
  intro nodeName runsOn
  refine ((Draft.stays_addNode standing rooted fun p mem =>
    node p mem nodeName runsOn _ _ standing).and (Draft.ensures_addNode parts.node d nodeName)).bind ?_
  rintro _ _ d' standing - ⟨-, same⟩
  refine stays_read standing (faulty_of_error read (Resource.exists_podAddress known)) ?_
  intro address _
  have own (m : SharedMap) : Table.get? d' Kind.pod.field ≠ some (.shared m) := by
    rw [same _ (by decide)]
    exact rooted _ m
  rw [Draft.putText]
  split
  · exact stays_pure standing trivial
  · rw [Draft.put_below own]
    exact stays_pure standing trivial

end Generator

end ClusterMetadata
