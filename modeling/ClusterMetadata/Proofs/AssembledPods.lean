import ClusterMetadata.Proofs.FreshAnswers
import ClusterMetadata.Proofs.PodDocuments

/-!
# Pods whose hops are taken in any order

The document of a pod is put together of documents that each of its parts makes on its own: the pod
without its owners, the namespace, the controllers and the node. None of them is touched by what is
made for the others.

* `Generator.forPodsBy`: the generator of pods that takes its hops in an order;
* `Settings.Says`: what the owners of a pod say, each asked where nothing was made before;
* `goes_inSpace`, `goes_takeHop`, `goes_addNode`: the steps of the draft, as steps of the document;
* `native_assembled_of_proper`: the whole of it.
-/
namespace ClusterMetadata

open Json (Value Fields)
open Drafting (Goes)
open Inventory (Moves)

namespace Generator

def forPodsBy (order : List Hop) (parts : PodParts) : Generator where
  kind := .pod
  store := parts.store
  projector := parts.projector
  build r options := do
    let d ← parts.projector.nativeInSpace parts.space Kind.pod.field r options
    let d ← order.foldlM (Draft.takeHop parts) d
    let d ← d.addNode parts.node (← r.nodeName)
    d.putText [Kind.pod.field, "ip"] (← r.podAddress)

theorem forPods_eq (parts : PodParts) : forPods parts = forPodsBy Hop.all parts := by
  have both (d : Draft) : Hop.all.foldlM (Draft.takeHop parts) d =
      (d.takeHop parts .deployment >>= fun d => d.takeHop parts .cronJob) := by
    simp only [Hop.all, List.foldlM_cons, List.foldlM_nil, bind_pure]
  unfold forPods forPodsBy
  simp only [both, bind_assoc]

end Generator

namespace Settings

def podGeneratorBy (s : Settings) (order : List Hop) (stores : Stores) : Generator :=
  Generator.forPodsBy order (s.podParts stores)

theorem podGenerator_eq_inOrder (s : Settings) (stores : Stores) :
    s.podGenerator stores = s.podGeneratorBy Hop.all stores :=
  Generator.forPods_eq _

/-- The owner that the controller under a name has, when the hop to it is switched on. -/
def ownerSaid (s : Settings) (c : Cluster) (space : Text) (hop : Hop) (via : Text) : Option Text :=
  if hop ∈ s.owners.hops then c.ownerOf? space hop via else none

def ownDocument (s : Settings) (pod : Resource) : Except Fault Document :=
  (s.projector.document none Kind.pod.field pod []).fromStart.result

/-- The owners of a pod say so, each where nothing was made before. The pod's own namespace is
asked, whichever namespace the generator is for. -/
structure Says (s : Settings) (c : Cluster) (space : Text) (pod : Resource) (say : OwnersSay) :
    Prop where
  inherited : ∃ home, pod.space = .ok home ∧
    Peer.said (s.spacePeer (c.storesFor space)) home [] = .ok say.space
  owners : say.owner = s.ownerSaid c space
  runsOn : pod.nodeName = .ok say.nodeName
  node : Peer.said (s.nodePeer (c.storesFor space)) say.nodeName [.nest Kind.node.field] =
    .ok say.node

end Settings

/-! ## The pod without its owners -/

namespace Draft

variable {names : List Text} {r : Resource} {doc : Document} {d : Draft}

/-- Sections of other resources leave a draft as it is. -/
theorem Drawn.of_moves {terms : Terms} {touched : Lender → Prop} {i left : Inventory}
    (h : Drawn names r i doc d) (moves : Moves terms touched i left)
    (apart : ∀ lender, touched lender → lender.owner ≠ r) : Drawn names r left doc d :=
  ⟨h.presents.of_changes moves.changes (fun _ _ => id) fun _ own mem => apart _ mem own, h.plain⟩

/-- A field without shared maps names the owner that the document names. -/
theorem Drawn.ownerName? {i : Inventory} (h : Drawn sectionFields r i doc d) (shelf : Shelf)
    (kind : Kind) : d.ownerName? shelf kind = doc.ownerName? kind := by
  have outside : Text.ofString kind.field ∉ sectionFields := by cases kind <;> decide
  rw [Draft.ownerName?, at?, h.plain _ outside, Document.ownerName?, Document.get?_cons]
  cases Table.get? doc kind.field with
  | none => rfl
  | some v =>
    cases v with
    | object fields =>
      have inner : (Value.object fields).at? [nameField] = Table.get? fields nameField := by
        rw [Value.at?_object_cons]
        cases Table.get? fields nameField <;> simp [Value.at?]
      rw [Option.bind_some, inner, Option.map_some, Node.ofValue]
      dsimp only
      rw [at?, get?_ofFields]
      cases Table.get? fields nameField with
      | none => rfl
      | some v => cases v <;> rfl
    | _ => rfl

end Draft

namespace Projector

variable {terms : Terms}

theorem document_alone (p : Projector) (field : Text) (r : Resource) (options : List FieldOption) :
    p.document none field r options = (do (← p.native field r options).document) := by
  unfold document nativeInSpace
  simp only [mergeSpace, bind_pure]

/-- The draft of a resource without its owners shows its document. -/
theorem goes_native (p : Projector) {r : Resource} (settled : p.selection.Settled terms r)
    (field : Text) :
    Goes terms (·.owner = r) .bare (p.native field r []) fun left d => ∃ doc,
      (p.document none field r []).fromStart.result = .ok doc ∧
        Draft.Drawn sectionFields r left doc d := by
  have steady : (p.native field r []).Steady terms (·.owner = r) (fun _ => False)
      (Draft.Same (fun _ => False) sectionFields r) := p.steady_native settled field
  intro d made
  obtain ⟨left, here, moves, _, _, doc, -, drawn, -, -⟩ :=
    steady.goes_self (Inventory.due_bare terms) d made
  refine ⟨left, here, moves, doc, ?_, drawn⟩
  have shown : ((do (← p.native field r []).document : Drafting Document)
      Inventory.bare.shelf).1.result = .ok doc := by
    rw [Drafting.bind_of_result made, here, Draft.document_of_shows drawn.presents.shows]
    rfl
  rw [document_alone]
  exact shown

/-- A draft says the namespace of its resource, if there is one. -/
theorem ensures_native_space (p : Projector) {kind : Kind} (other : kind ≠ .namespace)
    (r : Resource) :
    (p.native kind.field r []).Ensures fun d => ∃ home, r.space = .ok home ∧
      (home ≠ "" → Table.get? d "namespace" = some (.ofText home)) := by
  have apart : Text.ofString kind.field ≠ "namespace" := by
    revert other
    cases kind <;> decide
  have controllers (kind : Kind) (controller : kind.isController) :
      Text.ofString kind.field ≠ "namespace" := by
    revert controller
    cases kind <;> decide
  refine (p.ensures_assembled kind.field r).mono ?_
  rintro _ ⟨labels, annotations, name, uid, home, refs, -, -, known, -, rfl⟩
  refine ⟨home, known, fun inside => ?_⟩
  rw [Draft.get?_assembled fun map => by cases map <;> decide, Document.identifying,
    Document.get?_foldl_putOwner_other controllers, if_neg inside, Table.get?_insert_self]
  rfl

end Projector

/-! ## What the owners say -/

namespace Draft

/-- What is inherited from a namespace, told of it by name. -/
structure Announces (space : Text) (d : Draft) : Prop where
  names : ∀ name ∈ Table.keys d, name ∈ inheritedFields
  distinct : Table.Distinct d
  space : Table.get? d "namespace" = some (.ofText space)

theorem announces_inheritable (space uid : Text) (base : Draft) :
    Announces space (Generator.inheritable space uid base) := by
  have start : Table.Distinct ([("namespace", .ofText space), ("namespace_uid", .ofText uid)] :
      Draft) ∧ Table.get? ([("namespace", .ofText space), ("namespace_uid", .ofText uid)] : Draft)
        "namespace" = some (.ofText space) := by
    have names : List.Nodup (["namespace", "namespace_uid"] : List Text) := by decide
    exact ⟨names, rfl⟩
  have step (map : MetadataMap) {d : Draft}
      (h : Table.Distinct d ∧ Table.get? d "namespace" = some (.ofText space)) :
      Table.Distinct (base.inheritSection d map) ∧
        Table.get? (base.inheritSection d map) "namespace" = some (.ofText space) := by
    have apart : Text.ofString "namespace_" ++ map.field ≠ "namespace" := by cases map <;> decide
    unfold inheritSection
    split
    · refine ⟨Table.distinct_insert h.1 _ _, ?_⟩
      rw [Table.get?_insert, if_neg apart]
      exact h.2
    · exact h
  obtain ⟨distinct, there⟩ := step .annotations (step .labels start)
  exact ⟨keys_inheritable space uid base, distinct, there⟩

/-- What a namespace announces is inherited by what says that it is there. -/
theorem inherits_of_shows {shelf : Shelf} {space : Text} {d : Draft} {base other : Document}
    (announces : d.Announces space) (shows : ShowsFields shelf other d)
    (home : Table.get? base "namespace" = some (.string space)) : Document.Inherits base other := by
  have keys := keys_of_shows shows
  have distinct : Table.Distinct other := by
    rw [Table.Distinct, ← keys]
    exact announces.distinct
  refine ⟨keys ▸ announces.names, fun v mem => ?_⟩
  rcases get?_of_shows shows "namespace" with ⟨hd, -⟩ | ⟨node, w, hd, hf, own⟩
  · rw [announces.space] at hd
    cases hd
  · rw [announces.space] at hd
    cases hd
    rw [Table.get?_of_mem distinct mem] at hf
    cases hf
    cases v with
    | string t =>
      cases own
      exact ⟨rfl, home⟩
    | _ => cases own

/-- Inherited fields are merged over the document of a resource. -/
theorem goes_inherit {terms : Terms} {touched : Lender → Prop} {r : Resource} {i : Inventory}
    {doc : Document} {d : Draft} (drawn : Drawn sectionFields r i doc d) {source : Document}
    {other : Draft} (shows : ShowsFields i.shelf source other)
    (inherits : Document.Inherits doc source) :
    Goes terms touched i (d.merge other) fun left d' =>
      Drawn sectionFields r left (doc.merge source) d' := by
  have apart : ∀ name ∈ inheritedFields, name ∉ sectionFields := by decide
  have quiet := merge_quiet
    (fun name mem => drawn.plain name (apart name (inherits.names name mem))) shows
  refine Drafting.goes_quiet quiet fun merged fits => ?_
  rw [Document.mergedIn] at fits
  split at fits
  · cases fits
    exact drawn.overlay source
  · cases fits

end Draft

namespace Generator

theorem ensures_forNamespaces_announces {store : Option Store} {projector : Projector} {r : Resource}
    {name : Text} (named : r.name = .ok name) :
    ((forNamespaces store projector).build r []).Ensures (Draft.Announces name) := by
  refine (Drafting.ensures_true _).bind fun base _ => ?_
  refine (Drafting.ensures_lift_except r.name).bind fun found same => ?_
  rw [named] at same
  cases same
  refine (Drafting.ensures_true _).bind fun uid _ => ?_
  exact Drafting.ensures_pure (Draft.announces_inheritable name uid base)

end Generator

namespace Settings

variable {s : Settings} {c : Cluster} (filed : c.Filed) {space : Text}
include filed

/-- The namespace that is found under a name announces this name. -/
theorem ensures_spacePeer_announces (home : Text) : ∀ p ∈ s.spacePeer (c.storesFor space),
    (p.ask home []).Ensures fun answer => ∀ d ∈ answer, d.Announces home := by
  intro p mem
  obtain ⟨-, rfl⟩ := of_spacePeer mem
  refine Generator.ensures_ask (fun _ => nofun) fun r stored => ?_
  obtain ⟨-, found⟩ := Cluster.find?_of_lookup filed stored
  have named := (Resource.identity_eq_ok.mp (Cluster.find?_identity filed found)).2.2
  refine (Generator.ensures_forNamespaces_announces named).mono ?_
  rintro _ announces d ⟨⟩
  exact announces

variable (proper : c.Proper) {needed : Resource → Prop}
include proper

/-- The answer of a namespace is made of its own sections. -/
theorem steady_spaceAnswer (need : ∀ r : Resource, r.kind = .namespace → needed r) (home : Text) :
    ∀ p ∈ s.spacePeer (c.storesFor space), p.Steady s.terms (·.owner.kind = .namespace) needed
      Draft.SameInherited [] home :=
  steady_spaceUnder filed proper fun r _ _ found =>
    have kind : r.kind = .namespace := Cluster.kind_of_find? filed found
    ⟨need r kind, fun _ same => same ▸ kind⟩

/-- The answer of a node is made of its own sections. -/
theorem steady_nodeAnswer (need : ∀ r : Resource, r.kind = .node → needed r) {name : Text} :
    ∀ p ∈ s.nodePeer (c.storesFor space), p.Steady s.terms (·.owner.kind = .node) needed
      Draft.SameShown [.nest Kind.node.field] name :=
  steady_nodeUnder filed proper fun r _ _ found =>
    have kind : r.kind = .node := Cluster.kind_of_find? filed found
    ⟨need r kind, fun _ same => same ▸ kind⟩

/-- The answer of a controller is made of its own sections and those of its namespace. -/
theorem steady_hopAnswer (hop : Hop) (via : Text) : ∀ p ∈ s.hopPeer (c.storesFor space) hop,
    p.Steady s.terms (fun lender => lender.owner.kind ≠ .node ∧ lender.owner.kind ≠ .pod)
      (·.kind = .namespace) Draft.SameOwners [] via := by
  have answers (home : Text) : ∀ p ∈ s.spacePeer (c.storesFor space), p.Steady s.terms
      (·.owner.kind = .namespace) (·.kind = .namespace) Draft.SameInherited [] home :=
    steady_spaceAnswer filed proper (fun _ => id) home
  refine steady_controllerUnder filed proper hop (fun lender used => ?_) (fun lender same => ?_)
    (fun lender used => ?_) fun r _ home _ => answers home
  · rw [used]
    cases hop <;> decide
  · rw [same]
    cases hop <;> decide
  · rw [used]
    decide

/-! ## The steps of the draft -/

variable {pod : Resource} {i : Inventory} {doc : Document} {d : Draft}
  (drawn : Draft.Drawn sectionFields pod i doc d) (due : i.Due s.terms)
include drawn due

/-- What the namespace says is merged over the pod's own document. -/
theorem goes_inSpace (kind : pod.kind = .pod) {home : Text} (inSpace : pod.space = .ok home)
    (stated : home ≠ "" → Table.get? doc "namespace" = some (.string home))
    (first : ∀ lender : Lender, lender.owner.kind = .namespace →
      i.Gives s.terms lender (s.terms.first lender)) :
    Goes s.terms (·.owner.kind = .namespace) i
      (Projector.mergeSpace (s.spacePeer (c.storesFor space)) pod d) fun left d' => ∃ other,
        Peer.said (s.spacePeer (c.storesFor space)) home [] = .ok other ∧
          (∀ o ∈ other, Document.Inherits doc o) ∧
          Draft.Drawn sectionFields pod left (doc.inheriting other) d' := by
  have steady : ∀ p ∈ s.spacePeer (c.storesFor space), p.Steady s.terms
      (·.owner.kind = .namespace) (·.kind = .namespace) Draft.SameInherited [] home :=
    steady_spaceAnswer filed proper (fun _ => id) home
  have announced : ∀ p ∈ s.spacePeer (c.storesFor space),
      (p.ask home []).Ensures fun answer => ∀ d ∈ answer, d.Announces home :=
    ensures_spacePeer_announces filed home
  generalize s.spacePeer (c.storesFor space) = peer at steady announced
  have absent : ∀ o ∈ (none : Option Document), Document.Inherits doc o := by simp
  cases peer with
  | none => exact Drafting.goes_pure ⟨none, rfl, absent, drawn⟩
  | some peer =>
    rw [Projector.mergeSpace]
    apply Drafting.goes_read
    intro found same
    rw [inSpace] at same
    cases same
    rw [Peer.said]
    split
    · exact Drafting.goes_pure ⟨none, rfl, absent, drawn⟩
    · next named =>
      have asked := Peer.goes_ask (steady peer rfl) (fun _ _ _ _ same => by
        obtain ⟨document, shows, shows', -⟩ := same
        exact ⟨document, shows, shows'⟩) due first
      refine (asked.and (announced peer rfl)).bind fun left answer moves shown => ?_
      obtain ⟨⟨other, told, shows⟩, announces⟩ := shown
      have drawn := drawn.of_moves moves fun lender touched same => by
        rw [same, kind] at touched
        cases touched
      rw [told]
      obtain ⟨rfl, rfl⟩ | ⟨nodes, other, rfl, rfl, shows⟩ := Draft.answerShows_cases shows
      · exact Drafting.goes_pure ⟨none, rfl, absent, drawn⟩
      · have inherits := Draft.inherits_of_shows (announces nodes rfl) shows (stated named)
        exact (Draft.goes_inherit drawn shows inherits).mono (fun _ => id)
          fun left d' _ inherited =>
            ⟨some other, rfl, fun o mem => Option.some.inj mem ▸ inherits, inherited⟩

/-- A hop writes the owner behind the controller that the document names. -/
theorem goes_takeHop (kind : pod.kind = .pod) (hop : Hop) :
    Goes s.terms (fun lender => lender.owner.kind ≠ .node ∧ lender.owner.kind ≠ .pod) i
      (d.takeHop (s.podParts (c.storesFor space)) hop) fun left d' =>
        Draft.Drawn sectionFields pod left (doc.takeHop (s.ownerSaid c space) hop) d' := by
  rw [Draft.takeHop, peerFor_podParts]
  have outside : Text.ofString hop.owner.field ∉ sectionFields := by cases hop <;> decide
  by_cases on : hop ∈ s.owners.hops
  · obtain ⟨peer, there⟩ : ∃ peer, s.hopPeer (c.storesFor space) hop = some peer := by
      rw [hopPeer, if_pos on]
      exact ⟨_, rfl⟩
    have tried : hop ∈ (s.podParts (c.storesFor space)).hops := on
    simp only [there, if_pos tried, Draft.resolve]
    refine Drafting.goes_shelf ?_
    have said : s.ownerSaid c space hop = c.ownerOf? space hop := funext fun via => if_pos on
    rw [drawn.ownerName?, Document.takeHop, said]
    cases named : doc.ownerName? hop.via with
    | none => exact Drafting.goes_pure drawn
    | some via =>
      have asked := (steady_hopAnswer filed proper hop via peer there).goes_self due
      have answers := s.ensures_hopPeer filed space there (Document.ownerName?_ne_empty named)
      refine (asked.and answers).bind fun left answer moves shown => ?_
      have drawn := drawn.of_moves moves fun lender touched same => touched.2 (same ▸ kind)
      refine Drafting.goes_shelf ?_
      rw [shown.2 left.shelf]
      simp only [Option.bind_some]
      cases c.ownerOf? space hop via with
      | none => exact Drafting.goes_report _ (Drafting.goes_pure drawn)
      | some owner =>
        obtain ⟨d', run, written⟩ := Draft.drawn_putName drawn outside owner
        exact Drafting.goes_report _ (Drafting.goes_still run written)
  · have off : s.ownerSaid c space hop = fun _ => none := funext fun via => if_neg on
    have nobody : (doc.ownerName? hop.via).bind (fun _ => (none : Option Text)) = none := by
      cases doc.ownerName? hop.via <;> rfl
    rw [hopPeer, if_neg on, Document.takeHop, off, nobody]
    exact Drafting.goes_pure drawn

/-- Hops that are taken one after the other. -/
theorem goes_takeHops (kind : pod.kind = .pod) (order : List Hop) :
    Goes s.terms (fun lender => lender.owner.kind ≠ .node ∧ lender.owner.kind ≠ .pod) i
      (order.foldlM (Draft.takeHop (s.podParts (c.storesFor space))) d) fun left d' =>
        Draft.Drawn sectionFields pod left (order.foldl (Document.takeHop (s.ownerSaid c space)) doc)
          d' := by
  induction order generalizing i doc d with
  | nil => exact Drafting.goes_pure drawn
  | cons hop rest ih =>
    rw [List.foldlM_cons, List.foldl_cons]
    exact (goes_takeHop filed proper drawn due kind hop).bind
      fun left d' moves drawn => ih drawn (moves.due due)

/-- The node section is what the node says, or the node's name when it says nothing. -/
theorem goes_addNode (kind : pod.kind = .pod) (nodeName : Text)
    (first : ∀ lender : Lender, lender.owner.kind = .node →
      i.Gives s.terms lender (s.terms.first lender)) :
    Goes s.terms (·.owner.kind = .node) i
      (d.addNode (s.nodePeer (c.storesFor space)) nodeName) fun left d' => ∃ node,
        Peer.said (s.nodePeer (c.storesFor space)) nodeName [.nest Kind.node.field] = .ok node ∧
          Draft.ShowsFields left.shelf (doc.addNode nodeName node) d' ∧
          Draft.Free [Text.ofString Kind.pod.field] d' := by
  have steady : ∀ p ∈ s.nodePeer (c.storesFor space), p.Steady s.terms (·.owner.kind = .node)
      (·.kind = .node) Draft.SameShown [.nest Kind.node.field] nodeName :=
    steady_nodeAnswer filed proper fun _ => id
  generalize s.nodePeer (c.storesFor space) = peer at steady
  rw [Draft.addNode_eq]
  split
  · next unnamed =>
    refine Drafting.goes_pure ⟨none, ?_, ?_, drawn.free (by decide)⟩
    · rw [unnamed, Peer.said_unnamed]
    · rw [Document.addNode, if_pos unnamed]
      exact drawn.presents.shows
  · next named =>
    have answered {left : Inventory} (drawn : Draft.Drawn sectionFields pod left doc d)
        {answer : Option Draft} {node : Option Document}
        (shows : Draft.AnswerShows left answer node)
        (told : Peer.said peer nodeName [.nest Kind.node.field] = .ok node) :
        Goes s.terms (·.owner.kind = .node) left
          (liftM (d.withNode nodeName answer) : Drafting Draft) fun left d' => ∃ node,
            Peer.said peer nodeName [.nest Kind.node.field] = .ok node ∧
              Draft.ShowsFields left.shelf (doc.addNode nodeName node) d' ∧
              Draft.Free [Text.ofString Kind.pod.field] d' := by
      obtain ⟨d', run, written, free⟩ := Draft.drawn_withNode drawn nodeName shows
      rw [← Document.addNode_of_named named] at written
      exact Drafting.goes_still run ⟨node, told, written, free⟩
    cases peer with
    | none => exact answered drawn (show Draft.AnswerShows i none none from trivial) rfl
    | some peer =>
      have asked := Peer.goes_ask (steady peer rfl) (fun _ _ _ _ => id) due first
      refine asked.bind fun left answer moves shown => ?_
      obtain ⟨node, told, shows⟩ := shown
      have drawn := drawn.of_moves moves fun lender touched same => by
        rw [same, kind] at touched
        cases touched
      refine answered drawn shows ?_
      rw [Peer.said, if_neg named]
      exact told

end Settings

/-! ## The whole document -/

namespace Draft

/-- Writing text into a map of the draft's own. -/
theorem putText_run {shelf : Shelf} {doc : Document} {d : Draft} {name : Text}
    (shows : ShowsFields shelf doc d) (free : Free [name] d) (field text : Text) :
    ∃ d', (d.putText [name, field] text).run shelf = (d', shelf) ∧
      ShowsFields shelf (doc.putText [name, field] text) d' := by
  rw [putText, Document.putText]
  split
  · exact ⟨d, rfl, shows⟩
  · have leaf : Node.Shows shelf (.string text) (.ofText text) := rfl
    have path : [name, field].dropLast = [name] := rfl
    exact shows_put shows (path ▸ free) leaf

end Draft

/-- How the document of a pod comes about: from the pod's own, from what its owners say, each on its
own, and from its address. -/
structure Settings.Assembles (s : Settings) (c : Cluster) (space : Text) (pod : Resource)
    (order : List Hop) (document : Document) (base : Document) (say : OwnersSay) (address : Text) :
    Prop where
  own : s.ownDocument pod = .ok base
  told : s.Says c space pod say
  inherits : ∀ other ∈ say.space, Document.Inherits base other
  reached : pod.podAddress = .ok address
  whole : document = Document.ofPod base say order address

namespace Settings

variable {s : Settings} {c : Cluster} (filed : c.Filed) (proper : c.Proper) {space : Text}
  {pod : Resource}
include filed proper

section

variable (kind : pod.kind = .pod) (own : pod.manifest.Proper)
include kind own

theorem goes_podGeneratorBy (order : List Hop) :
    Goes s.terms (fun _ => True) .bare
      ((s.podGeneratorBy order (c.storesFor space)).build pod []) fun left d =>
        ∃ document, Draft.ShowsFields left.shelf document d ∧
          ∃ base say address, s.Assembles c space pod order document base say address := by
  have settled := s.settled own
  rw [kind] at settled
  have more {touched : Lender → Prop} {α : Type} {x : Drafting α} {i : Inventory}
      {post : Inventory → α → Prop} (h : Goes s.terms touched i x post) :
      Goes s.terms (fun _ => True) i x fun left a => Moves s.terms touched i left ∧ post left a :=
    h.moving fun _ _ => trivial
  change Goes _ _ _ (s.projector.nativeInSpace (s.spacePeer (c.storesFor space)) Kind.pod.field pod
    [] >>= _) _
  rw [Projector.nativeInSpace, bind_assoc]
  have said := s.projector.ensures_native_space (show Kind.pod ≠ .namespace by decide) pod
  refine (more ((s.projector.goes_native settled Kind.pod.field).and said)).bind
    fun i₀ d₀ _ made₀ => ?_
  obtain ⟨moves₀, ⟨base, alone, drawn₀⟩, home, inSpace, announced⟩ := made₀
  have due₀ := moves₀.due (Inventory.due_bare s.terms)
  have first₀ (lender : Lender) (other : lender.owner.kind ≠ .pod) :
      i₀.Gives s.terms lender (s.terms.first lender) :=
    moves₀.apart (fun same => other (same ▸ kind)) (Inventory.gives_bare s.terms lender)
  have stated (inside : home ≠ "") : Table.get? base "namespace" = some (.string home) := by
    have said := announced inside
    rw [drawn₀.plain "namespace" (by decide)] at said
    obtain ⟨v, there, same⟩ := Option.map_eq_some_iff.mp said
    cases v with
    | string t =>
      cases same
      exact there
    | _ => cases same
  refine (more (goes_inSpace filed proper drawn₀ due₀ kind inSpace stated fun lender same =>
    first₀ lender (by rw [same]; decide))).bind fun i₁ d₁ _ made₁ => ?_
  obtain ⟨moves₁, other, inherited, inherits, drawn₁⟩ := made₁
  have due₁ := moves₁.due due₀
  refine (more (goes_takeHops filed proper drawn₁ due₁ kind order)).bind fun i₂ d₂ _ made₂ => ?_
  obtain ⟨moves₂, drawn₂⟩ := made₂
  have first₂ (lender : Lender) (same : lender.owner.kind = .node) :
      i₂.Gives s.terms lender (s.terms.first lender) := by
    refine moves₂.apart (fun used => used.1 same) (moves₁.apart (fun used => ?_) (first₀ lender ?_))
    · rw [same] at used
      cases used
    · rw [same]
      decide
  apply Drafting.goes_read
  intro nodeName runsOn
  refine (more (goes_addNode filed proper drawn₂ (moves₂.due due₁) kind nodeName first₂)).bind
    fun i₃ d₃ _ made₃ => ?_
  obtain ⟨-, node, said, shows, free⟩ := made₃
  apply Drafting.goes_read
  intro address found
  obtain ⟨d₄, run, shown⟩ := Draft.putText_run shows free "ip" address
  exact Drafting.goes_still run ⟨_, shown, base, ⟨other, s.ownerSaid c space, nodeName, node⟩,
    address, ⟨alone, ⟨⟨home, inSpace, inherited⟩, rfl, runsOn, said⟩, inherits, found, rfl⟩⟩

/-- The native document of a pod is put together of its own and of what its owners say, each asked
where nothing was made before. The pod need not be filed. -/
theorem native_assembled_of_proper (order : List Hop) {answer : Option Document}
    (ran : ((s.podGeneratorBy order (c.storesFor space)).native (some pod) []).fromStart.result =
      .ok answer) :
    ∃ document base say address, answer = some document ∧
      s.Assembles c space pod order document base say address := by
  obtain ⟨document, made, base, say, address, assembles⟩ :=
    Generator.of_native (goes_podGeneratorBy filed proper kind own order) kind ran
  exact ⟨document, base, say, address, made, assembles⟩

end

theorem native_assembled {name : Text} (isFiled : c.find? ⟨.pod, space, name⟩ = some pod)
    (order : List Hop) {answer : Option Document}
    (ran : ((s.podGeneratorBy order (c.storesFor space)).native (some pod) []).fromStart.result =
      .ok answer) :
    ∃ document base say address, answer = some document ∧
      s.Assembles c space pod order document base say address :=
  native_assembled_of_proper filed proper (Cluster.kind_of_find? filed isFiled)
    (proper _ pod isFiled) order ran

end Settings

end ClusterMetadata
