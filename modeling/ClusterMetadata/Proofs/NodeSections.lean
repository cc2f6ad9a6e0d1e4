import ClusterMetadata.Proofs.FirstSections
import ClusterMetadata.Proofs.Locality
import ClusterMetadata.Proofs.StandingAnswers

/-!
# The node section of a pod's document

* `hostname_eq`: the host name of a node is the first that one of its addresses gives;
* `nodeSection`: what a node says of itself;
* `get?_nested`: its document says so under the node's own field, once its sections are moved there;
* `node_absent`, `node_described`: the answer for a node that is not there, and for one that is;
* `exists_native_of_missing`: a pod has a document without its node too;
* `get?_other_congr`: what a node says shows nowhere else in the document of a pod;
* `native_node_section`: the section in the document of a pod, and what does not depend on it, for
  the first document that is made from the cluster.
-/
namespace ClusterMetadata

open Json (Value Fields)
open Drafting (Goes)

/-! ## The host name -/

def Json.Value.hostName? (address : Value) : Option Text :=
  if address.member "type" = .string "Hostname" ∧ !(address.member "address").isBlank then
    some (address.member "address").plain
  else none

theorem Json.Value.member_of_fieldsOf {v : Value} {fields : Fields} (read : v.fieldsOf = .ok fields)
    (name : Text) : v.member name = fields.value name := by
  cases v with
  | object own =>
    cases read
    rfl
  | _ => cases read

namespace Resource

theorem member_of_part {r : Resource} {name : Text} {part : Fields} (read : r.part name = .ok part)
    (field : Text) : (r.manifest.member name).member field = part.value field := by
  obtain ⟨all, whole, read⟩ := Json.bind_eq_ok.mp read
  rw [Value.member_of_fieldsOf whole]
  rw [Fields.part] at read
  split at read
  · next blank =>
    cases read
    generalize all.value name = v at blank
    cases v with
    | object own =>
      rw [Value.isBlank, List.isEmpty_iff] at blank
      rw [blank]
      rfl
    | _ => rfl
  · exact Value.member_of_fieldsOf read field

/-- The host name is the first that an address gives. -/
theorem firstHostname_eq {addresses : List Value} {hostname : Text}
    (read : firstHostname addresses = .ok hostname) :
    hostname = (addresses.findSome? Value.hostName?).getD "" := by
  induction addresses with
  | nil =>
    cases read
    rfl
  | cons address rest ih =>
    rw [firstHostname] at read
    obtain ⟨fields, whole, read⟩ := Json.bind_eq_ok.mp read
    have member := Value.member_of_fieldsOf whole
    rw [List.findSome?_cons, Value.hostName?, member, member]
    split at read
    · next gives =>
      cases read
      rw [if_pos gives]
      rfl
    · next other =>
      rw [if_neg other]
      exact ih read

def addresses (r : Resource) : Except Fault (List Value) :=
  ((r.manifest.member "status").member "addresses").itemsOf

theorem hostname_eq {r : Resource} {hostname : Text} (read : r.hostname = .ok hostname) :
    ∃ addresses, r.addresses = .ok addresses ∧
      hostname = (addresses.findSome? Value.hostName?).getD "" := by
  obtain ⟨status, part, read⟩ := Json.bind_eq_ok.mp read
  obtain ⟨addresses, listed, read⟩ := Json.bind_eq_ok.mp read
  rw [← member_of_part part] at listed
  exact ⟨addresses, listed, firstHostname_eq read⟩

end Resource

/-! ## What a node says of itself -/

namespace Document

/-- The section that a node has in the documents of the pods on it. -/
def nodeSection (name uid hostname : Text) (labels annotations : Document) : Fields :=
  let own : Document := [(nameField, .string name), ("uid", .string uid)]
  ((own.insertSection .labels labels).insertSection .annotations annotations).putText ["hostname"]
    hostname

/-- Moving a section under a map puts it beside the other fields of the map. -/
theorem get?_nestSection {d own : Document} {field : Text}
    (there : Table.get? d field = some (.object own)) {map : MetadataMap} {fields : Document}
    (held : Table.get? d map.field = if fields.isEmpty then none else some (.object fields))
    (path : nestedPath field map.field = [field, map.field]) (apart : map.field ≠ field) :
    Table.get? (d.nestSection field map.field) field =
      some (.object (own.insertSection map fields)) := by
  have kept : Table.get? (Table.erase d map.field) field = some (.object own) := by
    rw [Table.get?_erase, if_neg apart, there]
  rw [nestSection, insertSection, held]
  by_cases empty : fields.isEmpty
  · rw [if_pos empty, if_pos empty]
    exact kept
  · have opens : opened (Table.erase d map.field) field = own := by rw [opened, kept]
    rw [if_neg empty, if_neg empty]
    show Table.get? (safePut (Table.erase d map.field) (nestedPath field map.field)
      (.object fields)) field = _
    rw [path, safePut, safePut, opens, safePutHere_of_map _ _ rfl, Table.get?_insert_self]

/-- Moving a section leaves the other sections where they are. -/
theorem get?_nestSection_other {d : Document} {field name other : Text} (apart : name ≠ other)
    (aside : field ≠ other) (path : nestedPath field name = [field, name]) :
    Table.get? (d.nestSection field name) other = Table.get? d other := by
  have kept : Table.get? (Table.erase d name) other = Table.get? d other := by
    rw [Table.get?_erase, if_neg apart]
  rw [nestSection]
  split
  · exact kept
  · exact kept
  · rw [path, safePut, Table.get?_insert, if_neg aside, kept]

/-- The sections of a document are moved beside the other fields of a map. -/
theorem get?_applyAll_nest {d own : Document} {field : Text}
    (there : Table.get? d field = some (.object own))
    (plain : ∀ map : MetadataMap, Table.get? d map.field = none)
    (apart : ∀ map : MetadataMap, map.field ≠ field)
    (path : ∀ map : MetadataMap, nestedPath field map.field = [field, map.field])
    (labels annotations : Document) :
    Table.get? (FieldOption.applyAll [.nest field]
      ((d.insertSection .labels labels).insertSection .annotations annotations)) field =
        some (.object ((own.insertSection .labels labels).insertSection .annotations
          annotations)) := by
  have both (d : Document) : FieldOption.applyAll [.nest field] d =
      (d.nestSection field MetadataMap.labels.field).nestSection field
        MetadataMap.annotations.field := rfl
  have distinct : MetadataMap.labels.field ≠ MetadataMap.annotations.field := by decide
  obtain ⟨labelled, annotated⟩ := get?_sections plain labels annotations
  have start : Table.get? ((d.insertSection .labels labels).insertSection .annotations
      annotations) field = some (.object own) := by
    rw [get?_sections_other apart, there]
  rw [both]
  -- The labels move first, and the annotations are still beside the map then.
  refine get?_nestSection (get?_nestSection start labelled (path _) (apart _)) ?_ (path _) (apart _)
  rw [get?_nestSection_other distinct (apart _).symm (path _), annotated]

theorem field_ne_node (kind : Kind) (controller : kind.isController) :
    Text.ofString kind.field ≠ Kind.node.field := by
  revert controller
  cases kind <;> decide

/-- The document of a node, with its sections under the node's own field and its host name beside
them. -/
theorem get?_nested (name uid space hostname : Text) (refs : List OwnerReference)
    (labels annotations : Document) :
    Table.get? ((FieldOption.applyAll [.nest Kind.node.field]
      (((identifying Kind.node.field name uid space refs).insertSection .labels
        labels).insertSection .annotations annotations)).putText [Kind.node.field, "hostname"]
          hostname) Kind.node.field =
      some (.object (nodeSection name uid hostname labels annotations)) := by
  have own : Table.get? (identifying Kind.node.field name uid space refs) Kind.node.field =
      some (.object [(nameField, .string name), ("uid", .string uid)]) :=
    get?_identifying_kind (fun space => by cases space) name uid refs
  have moved := get?_applyAll_nest own
    (get?_identifying_section (by decide) name uid space refs) (fun map => by cases map <;> decide)
    (fun map => by cases map <;> decide) labels annotations
  rw [putText, nodeSection, putText]
  split
  · exact moved
  · rw [put, put, Table.get?_insert_self, below, moved]
    rfl

end Document

/-! ## The answer of a node -/

/-- What a node has to say of itself besides its name. -/
structure Selection.Describes (s : Selection) (node : Resource) (uid : Text)
    (addresses : List Value) (labels annotations : Document) : Prop where
  uid : node.uid = .ok uid
  addresses : node.addresses = .ok addresses
  labels : s.sectionOf node .labels = .ok labels
  annotations : s.sectionOf node .annotations = .ok annotations

/-- The section that is made of what a node says of itself: its host name is the first that one of
its addresses gives. -/
def Document.describedNode (name uid : Text) (addresses : List Value)
    (labels annotations : Document) : Fields :=
  nodeSection name uid ((addresses.findSome? Value.hostName?).getD "") labels annotations

namespace Generator

section

variable {terms : Terms} (store : Option Store) (p : Projector) {node : Resource}
  (settled : p.selection.Settled terms node) (proper : node.manifest.Proper)
include settled proper

/-- The draft of a node, with its sections moved under the node's own field. -/
theorem goes_forNodes : Goes terms (·.owner = node) .bare
    ((forNodes store p).build node [.nest Kind.node.field]) fun left d =>
      ∃ doc name uid addresses labels annotations, Draft.ShowsFields left.shelf doc d ∧
        node.name = .ok name ∧ p.selection.Describes node uid addresses labels annotations ∧
        Table.get? doc Kind.node.field =
          some (.object (Document.describedNode name uid addresses labels annotations)) := by
  change Goes _ _ _ (p.native Kind.node.field node [.nest Kind.node.field] >>= _) _
  rw [Projector.native_adjusted, bind_assoc]
  refine (p.goes_plain settled proper Kind.node.field).bind fun i d _ made => ?_
  obtain ⟨_, plain, drawn⟩ := made
  obtain ⟨labels, annotations, name, uid, space, refs, reads, rfl⟩ := Projector.plain_eq_ok.mp plain
  obtain ⟨moved, run, shows, free⟩ := Draft.nodeSection_run drawn
  refine Drafting.goes_still_bind run ?_
  apply Drafting.goes_read
  intro hostname found
  obtain ⟨addresses, listed, rfl⟩ := Resource.hostname_eq found
  obtain ⟨whole, run, shows⟩ := Draft.putText_run shows free "hostname"
    ((addresses.findSome? Value.hostName?).getD "")
  exact Drafting.goes_still run ⟨_, name, uid, addresses, labels, annotations, shows, reads.name,
    ⟨reads.uid, listed, reads.labels, reads.annotations⟩, Document.get?_nested ..⟩

end

section

variable {g : Generator} {name : Text} {options : List FieldOption} {said : Option Document}
  (told : g.peer.told name options = .ok said)
include told

theorem told_of_missing (missing : g.stored name = none) : said = none := by
  change (g.native (g.stored name) options).fromStart.result = _ at told
  rw [missing] at told
  exact (Except.ok.inj told).symm

/-- What is said of a resource that is there is what its draft shows. -/
theorem told_of_stored {r : Resource} (found : g.stored name = some r) {terms : Terms}
    {touched : Lender → Prop} {shown : Document → Prop}
    (built : Goes terms touched .bare (g.build r options) fun left d =>
      ∃ doc, Draft.ShowsFields left.shelf doc d ∧ shown doc) :
    ∃ doc, said = some doc ∧ shown doc := by
  change (g.native (g.stored name) options).fromStart.result = _ at told
  rw [found] at told
  exact of_native built (kind_of_stored found) told

end

end Generator

namespace Settings

variable {s : Settings} (on : s.owners.node.enabled = true) {c : Cluster} (filed : c.Filed)
  {space name : Text} (named : name ≠ "") {said : Option Document}
  (answered : Peer.said (s.nodePeer (c.storesFor space)) name [.nest Kind.node.field] = .ok said)
include on named answered

theorem told_of_nodePeer : (Generator.forNodes (Table.get? (c.storesFor space) .node)
    ⟨s.owners.node.selection, s.cluster⟩).peer.told name [.nest Kind.node.field] = .ok said := by
  rw [nodePeer, if_pos on, Peer.said, if_neg named] at answered
  exact answered

include filed

/-- Nothing is said of a node that is not there. -/
theorem node_absent (missing : c.find? ⟨.node, "", name⟩ = none) : said = none := by
  refine Generator.told_of_missing (told_of_nodePeer on named answered) ?_
  exact (Cluster.lookup_storesFor filed space .node name).trans ((if_neg named).trans missing)

/-- A node that is there is described. -/
theorem node_described (proper : c.Proper) {node : Resource}
    (found : c.find? ⟨.node, "", name⟩ = some node) :
    ∃ doc, said = some doc ∧ ∃ uid addresses labels annotations,
      s.owners.node.selection.Describes node uid addresses labels annotations ∧
      Table.get? doc Kind.node.field =
        some (.object (Document.describedNode name uid addresses labels annotations)) := by
  obtain ⟨kind, -, named'⟩ := Resource.identity_eq_ok.mp (Cluster.find?_identity filed found)
  have settled := s.settled (proper _ node found)
  rw [kind] at settled
  have stored := (Cluster.lookup_storesFor filed space .node name).trans
    ((if_neg named).trans found)
  have built := Generator.goes_forNodes (Table.get? (c.storesFor space) .node) ⟨_, s.cluster⟩
    settled (proper _ node found)
  refine Generator.told_of_stored (told_of_nodePeer on named answered) stored
    (built.mono (fun _ => id) ?_)
  rintro left d - ⟨doc, name', uid, addresses, labels, annotations, shows, said, describes, there⟩
  rw [named'] at said
  cases said
  exact ⟨doc, shows, uid, addresses, labels, annotations, describes, there⟩

end Settings

/-! ## The document of a pod -/

/-- The section that a pod has for its node: what the node says of itself, or its name. -/
def OwnersSay.nodeFields (say : OwnersSay) : Fields :=
  match say.node.bind (Table.get? · Kind.node.field) with
  | some (.object fields) => fields
  | _ => [(nameField, .string say.nodeName)]

/-- A pod that has no node section by itself has the one for its node, if it runs on one. -/
theorem Document.get?_ofPod_node {base : Document}
    (absent : Table.get? base Kind.node.field = none) {say : OwnersSay}
    (inherits : ∀ other ∈ say.space, Inherits base other) (order : List Hop) (address : Text) :
    Table.get? (ofPod base say order address) Kind.node.field =
      if say.nodeName = "" then none else some (.object say.nodeFields) := by
  have hops : Table.get? (order.foldl (takeHop say.owner) (base.inheriting say.space))
      Kind.node.field = none := by
    rw [get?_takeHops_other fun hop _ => by cases hop <;> decide,
      get?_inheriting_other inherits (by decide), absent]
  have nameOnly : Table.get? (Document.put (order.foldl (takeHop say.owner)
      (base.inheriting say.space)) [Kind.node.field, nameField] (.string say.nodeName))
        Kind.node.field = some (.named say.nodeName) := by
    rw [put_named (show _ = (none : Option Text).map Value.named from hops),
      Table.get?_insert_self]
  rw [ofPod, get?_putText_other (by decide), addNode]
  by_cases unnamed : say.nodeName = ""
  · rw [if_pos unnamed, if_pos unnamed]
    exact hops
  · rw [if_neg unnamed, if_neg unnamed, OwnersSay.nodeFields]
    cases say.node.bind (Table.get? · Kind.node.field) with
    | none => exact nameOnly
    | some v =>
      cases v with
      | object fields => rw [Table.get?_insert_self]
      | _ => exact nameOnly

namespace Settings

variable {s : Settings} {c : Cluster} {space : Text} {pod : Resource} {order : List Hop}
  {document base : Document} {say : OwnersSay} {address : Text}

/-- A pod by itself has no node section. -/
theorem get?_ownDocument_node (kind : pod.kind = .pod) (proper : pod.manifest.Proper)
    (own : s.ownDocument pod = .ok base) : Table.get? base Kind.node.field = none := by
  have settled := s.settled proper
  rw [kind] at settled
  obtain ⟨labels, annotations, name, uid, home, refs, -, rfl⟩ :=
    Projector.plain_eq_ok.mp (s.projector.plain_of_document settled proper own)
  have apart (map : MetadataMap) : map.field ≠ Text.ofString Kind.node.field := by
    cases map <;> decide
  rw [Document.get?_sections_other apart, Document.identifying,
    Document.get?_foldl_putOwner_other Document.field_ne_node]
  have notSpace : ("namespace" : Text) ≠ Kind.node.field := by decide
  have notPod : Text.ofString Kind.pod.field ≠ Kind.node.field := by decide
  split <;> simp [Table.get?_insert, Table.get?, notSpace, notPod]

end Settings

/-! ## What does not depend on the node -/

/-- Peers that answer every name alike are the same. -/
theorem Peer.Alike.eq {peer peer' : Option Peer} (alike : Alike (fun _ => True) peer peer') :
    peer = peer' := by
  cases peer with
  | none =>
    cases peer' with
    | none => rfl
    | some peer' => exact alike.elim
  | some peer =>
    cases peer' with
    | none => exact alike.elim
    | some peer' =>
      have same : peer.ask = peer'.ask := funext fun name => alike name trivial
      cases peer
      cases peer'
      cases same
      rfl

namespace Settings

/-- Where the node is not there its name is written, and nothing can fail. -/
theorem addNode_of_missing {s : Settings} {c : Cluster} (filed : c.Filed) {nodeName : Text}
    (missing : c.find? ⟨.node, "", nodeName⟩ = none) (space : Text) (d : Draft) (shelf : Shelf) :
    ∃ d', (d.addNode (s.nodePeer (c.storesFor space)) nodeName shelf).1.result = .ok d' := by
  rw [Draft.addNode_eq]
  split
  · exact ⟨d, rfl⟩
  · next named =>
    cases there : s.nodePeer (c.storesFor space) with
    | none => exact ⟨_, rfl⟩
    | some peer =>
      obtain ⟨-, rfl⟩ := of_nodePeer there
      have absent : lookup (Table.get? (c.storesFor space) .node) nodeName (some .node) = none :=
        (Cluster.lookup_storesFor filed space .node nodeName).trans ((if_neg named).trans missing)
      have nothing : (Generator.forNodes (Table.get? (c.storesFor space) .node)
          ⟨s.owners.node.selection, s.cluster⟩).peer.ask nodeName [.nest Kind.node.field] =
            pure none := by
        change Generator.draft _ (lookup _ _ _) _ = _
        rw [Generator.forNodes, absent, Generator.draft]
      dsimp only
      rw [nothing, LawfulMonad.pure_bind]
      exact ⟨_, rfl⟩

variable (s : Settings) {c c' : Cluster} (filed : c.Filed) (filed' : c'.Filed)
  (agree : ∀ id : Identity, id.kind ≠ .node → c'.find? id = c.find? id)
include filed filed' agree

/-- Clusters that have the same but for nodes have the same namespaces and controllers to ask. -/
theorem spacePeer_congr (space : Text) :
    s.spacePeer (c'.storesFor space) = s.spacePeer (c.storesFor space) :=
  ((s.alike_spacePeer filed' filed).mono fun _ _ => agree _ fun same => by cases same).eq

theorem hopPeer_congr (space : Text) (hop : Hop) :
    s.hopPeer (c'.storesFor space) hop = s.hopPeer (c.storesFor space) hop := by
  have other : hop.via ≠ .node := by cases hop <;> decide
  have home := agree ⟨.namespace, "", space⟩ fun same => by cases same
  exact ((s.alike_hopPeer filed' filed hop home).mono fun _ _ => agree _ other).eq

theorem takeHop_congr (space : Text) : Draft.takeHop (s.podParts (c'.storesFor space)) =
    Draft.takeHop (s.podParts (c.storesFor space)) := by
  funext d hop
  rw [Draft.takeHop, Draft.takeHop, peerFor_podParts, peerFor_podParts,
    s.hopPeer_congr filed filed' agree]
  rfl

variable {space : Text} {pod : Resource} {order : List Hop}

/-- Where the node of a pod is missing, a draft is made if one was made with the node. -/
theorem exists_build_of_missing {d : Draft}
    (built : ((s.podGeneratorBy order (c.storesFor space)).build pod []).fromStart.result = .ok d)
    (missing : ∀ nodeName, pod.nodeName = .ok nodeName → c'.find? ⟨.node, "", nodeName⟩ = none) :
    ∃ d', ((s.podGeneratorBy order (c'.storesFor space)).build pod []).fromStart.result =
      .ok d' := by
  have unfolded (stores : Stores) : (s.podGeneratorBy order stores).build pod [] = (do
      let d ← s.projector.nativeInSpace (s.spacePeer stores) Kind.pod.field pod []
      let d ← order.foldlM (Draft.takeHop (s.podParts stores)) d
      let nodeName ← pod.nodeName
      let d ← d.addNode (s.nodePeer stores) nodeName
      let address ← pod.podAddress
      d.putText [Kind.pod.field, "ip"] address) := rfl
  rw [unfolded] at built ⊢
  -- Up to the node both drafts are made by the same steps, which leave the same shelf.
  rw [s.spacePeer_congr filed filed' agree, s.takeHop_congr filed filed' agree]
  obtain ⟨d₀, first, built⟩ := Drafting.result_bind_eq_ok.mp built
  obtain ⟨d₁, hops, built⟩ := Drafting.result_bind_eq_ok.mp built
  obtain ⟨nodeName, runsOn, built⟩ := Drafting.result_bind_eq_ok.mp built
  obtain ⟨d₂, -, built⟩ := Drafting.result_bind_eq_ok.mp built
  obtain ⟨address, reached, -⟩ := Drafting.result_bind_eq_ok.mp built
  have named : pod.nodeName = .ok nodeName := Drafting.ensures_lift_except _ _ _ runsOn
  have found : pod.podAddress = .ok address := Drafting.ensures_lift_except _ _ _ reached
  rw [named, found]
  obtain ⟨d₂', added⟩ := addNode_of_missing filed' (missing nodeName named) space d₁ _
  exact ⟨_, Drafting.result_bind_eq_ok.mpr ⟨d₀, first, Drafting.result_bind_eq_ok.mpr
    ⟨d₁, hops, Drafting.result_bind_eq_ok.mpr ⟨nodeName, rfl, Drafting.result_bind_eq_ok.mpr
      ⟨d₂', added, Drafting.result_bind_eq_ok.mpr ⟨address, rfl, rfl⟩⟩⟩⟩⟩⟩

/-- A pod that has a document has one where its node is missing. -/
theorem exists_native_of_missing (proper' : c'.Proper) (kind : pod.kind = .pod)
    (own : pod.manifest.Proper) {answer : Option Document}
    (made : ((s.podGeneratorBy order (c.storesFor space)).native (some pod) []).fromStart.result =
      .ok answer)
    (missing : ∀ nodeName, pod.nodeName = .ok nodeName → c'.find? ⟨.node, "", nodeName⟩ = none) :
    ∃ document, ((s.podGeneratorBy order (c'.storesFor space)).native (some pod)
      []).fromStart.result = .ok (some document) := by
  have handled : pod.kind = (s.podGeneratorBy order (c.storesFor space)).kind := kind
  rw [Generator.native_of_kind handled] at made
  obtain ⟨d, built, -⟩ := Drafting.result_bind_eq_ok.mp made
  obtain ⟨d', built'⟩ := s.exists_build_of_missing filed filed' agree built missing
  obtain ⟨document, made', -⟩ :=
    Generator.exists_native (goes_podGeneratorBy filed' proper' kind own order) kind built'
  exact ⟨document, made'⟩

/-- What a node says shows under the node's field only. -/
theorem get?_other_congr {document document' base base' : Document} {say say' : OwnersSay}
    {address address' : Text} (here : s.Assembles c space pod order document base say address)
    (there : s.Assembles c' space pod order document' base' say' address')
    (all : order.Perm Hop.all) {key : Text} (other : key ≠ Kind.node.field) :
    Table.get? document' key = Table.get? document key := by
  cases Except.ok.inj (here.own.symm.trans there.own)
  cases Except.ok.inj (here.reached.symm.trans there.reached)
  have runsOn := Except.ok.inj (there.told.runsOn.symm.trans here.told.runsOn)
  have inherited : say'.space = say.space := by
    obtain ⟨home, inSpace, said⟩ := here.told.inherited
    obtain ⟨home', inSpace', said'⟩ := there.told.inherited
    cases Except.ok.inj (inSpace.symm.trans inSpace')
    rw [s.spacePeer_congr filed filed' agree, said] at said'
    exact (Except.ok.inj said').symm
  have owners : say'.owner = say.owner := by
    rw [here.told.owners, there.told.owners]
    funext hop via
    have same := agree ⟨hop.via, space, via⟩ (by cases hop <;> exact fun same => by cases same)
    rw [ownerSaid, ownerSaid, Cluster.ownerOf?, Cluster.ownerOf?, same]
  rw [here.whole, there.whole]
  exact Document.get?_ofPod there.inherits here.inherits all all runsOn _ (fun _ => inherited)
    (fun hop _ => congrFun owners hop) fun same => absurd same other

end Settings

/-- With nodes switched on, the section for the node that a pod runs on is what the last manifest of
that node makes of its name, its uid, its first host name, its labels and its annotations, the
selection of nodes taken. It is the name alone when there is no such manifest, and there is no
section when the pod names no node. Nothing else in the document depends on the node: the pod has a
document without the node too, and all documents that it has with other manifests of the node, or
without one, are the same in the other fields. All of them are first documents, made before any map
of their manifests is shared. -/
theorem native_node_section {s : Settings} (on : s.owners.node.enabled = true)
    {manifests : List Value} (proper : ∀ manifest ∈ manifests, manifest.Proper) {c : Cluster}
    (loaded : (Cluster.load manifests).result = .ok c) {space : Text} {pod : Resource}
    (kind : pod.kind = .pod) (own : pod.manifest.Proper) {answer : Option Document}
    (made : ((s.podGenerator (c.storesFor space)).native (some pod) []).fromStart.result =
      .ok answer) :
    ∃ document nodeName, answer = some document ∧ pod.nodeName = .ok nodeName ∧
      (nodeName = "" → Table.get? document "node" = none) ∧
      (nodeName ≠ "" → last? manifests ⟨.node, "", nodeName⟩ = none →
        Table.get? document "node" = some (.object [("name", .string nodeName)])) ∧
      (nodeName ≠ "" → ∀ node, last? manifests ⟨.node, "", nodeName⟩ = some node →
        ∃ uid addresses labels annotations,
          s.owners.node.selection.Describes node uid addresses labels annotations ∧
          Table.get? document "node" =
            some (.object (Document.describedNode nodeName uid addresses labels annotations))) ∧
      ∀ manifests' : List Value, (∀ manifest ∈ manifests', manifest.Proper) →
        ∀ c', (Cluster.load manifests').result = .ok c' →
        (∀ id : Identity, id ≠ ⟨.node, "", nodeName⟩ → last? manifests' id = last? manifests id) →
        (last? manifests' ⟨.node, "", nodeName⟩ = none → ∃ document',
          ((s.podGenerator (c'.storesFor space)).native (some pod) []).fromStart.result =
            .ok (some document')) ∧
        ∀ document', ((s.podGenerator (c'.storesFor space)).native (some pod) []).fromStart.result =
          .ok (some document') →
        ∀ key : Text, key ≠ "node" → Table.get? document' key = Table.get? document key := by
  have filed := Cluster.filed_of_load loaded
  rw [Settings.podGenerator_eq_inOrder] at made
  obtain ⟨document, base, say, address, rfl, here⟩ := Settings.native_assembled_of_proper filed
    (Cluster.proper_of_load proper loaded) kind own Hop.all made
  have section_ := Document.get?_ofPod_node (Settings.get?_ownDocument_node kind own here.own)
    here.inherits Hop.all address
  rw [← here.whole] at section_
  refine ⟨document, say.nodeName, rfl, here.told.runsOn, fun unnamed => ?_, fun named missing => ?_,
    fun named node found => ?_, fun manifests' proper' c' loaded' agree => ?_⟩
  · exact section_.trans (if_pos unnamed)
  · rw [← Cluster.find?_load loaded] at missing
    have silent := Settings.node_absent on filed named here.told.node missing
    rw [if_neg named, OwnersSay.nodeFields, silent] at section_
    exact section_
  · rw [← Cluster.find?_load loaded] at found
    obtain ⟨doc, said, uid, addresses, labels, annotations, describes, there⟩ :=
      Settings.node_described on filed named here.told.node (Cluster.proper_of_load proper loaded)
        found
    rw [if_neg named, OwnersSay.nodeFields, said, Option.bind_some, there] at section_
    exact ⟨uid, addresses, labels, annotations, describes, section_⟩
  · have filed' := Cluster.filed_of_load loaded'
    have proper' := Cluster.proper_of_load proper' loaded'
    have agree : ∀ id : Identity, id.kind ≠ .node → c'.find? id = c.find? id := fun id other => by
      rw [Cluster.find?_load loaded, Cluster.find?_load loaded',
        agree id fun same => other (same ▸ rfl)]
    rw [Settings.podGenerator_eq_inOrder]
    refine ⟨fun missing => ?_, fun document' made' key other => ?_⟩
    · refine s.exists_native_of_missing filed filed' agree proper' kind own made fun name same => ?_
      cases Except.ok.inj (here.told.runsOn.symm.trans same)
      rw [Cluster.find?_load loaded', missing]
    · obtain ⟨_, base', say', address', ⟨⟩, there⟩ := Settings.native_assembled_of_proper filed'
        proper' kind own Hop.all made'
      exact s.get?_other_congr filed filed' agree here there (.refl _) other

def placedPod : Resource :=
  ⟨.pod, 0, .object [
    ("kind", .string "Pod"),
    ("metadata", .object [("namespace", .string "shop"), ("name", .string "web-1")]),
    ("spec", .object [("nodeName", .string "edge-1")])]⟩

def edgeNode : Resource :=
  ⟨.node, 0, .object [
    ("kind", .string "Node"),
    ("metadata", .object [("name", .string "edge-1"), ("uid", .string "n1")]),
    ("status", .object [
      ("addresses", .array [
        .object [("type", .string "InternalIP"), ("address", .string "10.0.0.7")],
        .object [("type", .string "Hostname"), ("address", .string "edge-1.local")]])])]⟩

def placedManifests : List Value := [placedPod.manifest, edgeNode.manifest]

def placedCluster : Cluster := (Cluster.load placedManifests).result.toOption.getD {}

theorem proper_placedManifests : ∀ manifest ∈ placedManifests, manifest.Proper := by
  intro manifest mem
  simp only [placedManifests, List.mem_cons, List.not_mem_nil, or_false] at mem
  rcases mem with rfl | rfl <;>
  · simp only [placedPod, edgeNode, Value.Proper, Json.ProperFields, Json.ProperItems,
      Table.Distinct]
    decide

/-- The pod on the node has the node's uid and host name. -/
theorem native_node_section_placed : ∃ document,
    ((({} : Settings).podGenerator (placedCluster.storesFor "shop")).native (some placedPod)
      []).fromStart.result = .ok (some document) ∧
    Table.get? document "node" = some (.object [("name", .string "edge-1"), ("uid", .string "n1"),
      ("hostname", .string "edge-1.local")]) := by
  have finishes : ((({} : Settings).podGenerator (placedCluster.storesFor "shop")).native
      (some placedPod) []).fromStart.result.toBool := by decide +kernel
  have loaded : (Cluster.load placedManifests).result = .ok placedCluster := rfl
  have found : last? placedManifests ⟨.node, "", "edge-1"⟩ = some edgeNode := rfl
  have proper := proper_placedManifests
  have plain (map : MetadataMap) :
      (({} : Selection).sectionOf edgeNode map).toOption = some [] := by
    cases map <;> decide +kernel
  cases made : ((({} : Settings).podGenerator (placedCluster.storesFor "shop")).native
      (some placedPod) []).fromStart.result with
  | error fault =>
    rw [made] at finishes
    cases finishes
  | ok answer =>
    obtain ⟨document, nodeName, rfl, runsOn, -, -, described, -⟩ := native_node_section
      (show ({} : Settings).owners.node.enabled = true from rfl) proper loaded
      (show placedPod.kind = .pod from rfl) (proper placedPod.manifest (List.mem_cons_self ..)) made
    cases Except.ok.inj ((show placedPod.nodeName = .ok "edge-1" from rfl).symm.trans runsOn)
    obtain ⟨uid, addresses, labels, annotations, describes, there⟩ :=
      described (by decide) edgeNode found
    have labelled := plain .labels
    have annotated := plain .annotations
    rw [describes.labels] at labelled
    rw [describes.annotations] at annotated
    cases labelled
    cases annotated
    cases describes.uid
    cases describes.addresses
    exact ⟨document, rfl, there⟩
end ClusterMetadata
