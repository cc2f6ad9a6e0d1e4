import ClusterMetadata.Proofs.OwnerChain
import ClusterMetadata.Proofs.SameDrafts

/-!
# The drafts of pods in two inventories

A pod shows its own sections, those of its namespace and those of its node. In two inventories in
which the same of these are due, the draft of the pod shows the same, whatever is due of the
controllers between a pod and its owners.

* `Peer.Steady`: a peer answers alike in all inventories that are alike;
* `steady_forNamespaces`, `steady_nativeInSpace`, `steady_forNodes`: the owners' answers;
* `together_takeHop`, `drawn_withNode`, `together_addNode`: the steps of a pod's draft;
* `steady_forPods`: the whole of it.
-/
namespace ClusterMetadata

open Json (Value Fields)
open Drafting (Together)
open Inventory (Alike)

/-- Two answers to one question: none on both sides, or drafts that are related. -/
def Draft.SameAnswer (related : Inventory → Draft → Inventory → Draft → Prop) (i : Inventory)
    (answer : Option Draft) (i' : Inventory) (answer' : Option Draft) : Prop :=
  match answer, answer' with
  | none, none => True
  | some d, some d' => related i d i' d'
  | _, _ => False

theorem Draft.sameAnswer_cases {related : Inventory → Draft → Inventory → Draft → Prop}
    {i i' : Inventory} {answer answer' : Option Draft} (h : SameAnswer related i answer i' answer') :
    (answer = none ∧ answer' = none) ∨
      ∃ d d', answer = some d ∧ answer' = some d' ∧ related i d i' d' := by
  cases answer with
  | none =>
    cases answer' with
    | none => exact .inl ⟨rfl, rfl⟩
    | some d' => exact False.elim h
  | some d =>
    cases answer' with
    | none => exact False.elim h
    | some d' => exact .inr ⟨d, d', rfl, rfl, h⟩

variable {terms : Terms} {touched others : Lender → Prop} {needed : Resource → Prop}
  {related : Inventory → Draft → Inventory → Draft → Prop}

/-- A peer that is asked for a name answers alike in all inventories that are alike. -/
def Peer.Steady (terms : Terms) (touched : Lender → Prop) (needed : Resource → Prop)
    (related : Inventory → Draft → Inventory → Draft → Prop) (options : List FieldOption)
    (peer : Peer) (name : Text) : Prop :=
  (peer.ask name options).Steady terms touched needed (Draft.SameAnswer related)

theorem Generator.steady_peer {g : Generator} {options : List FieldOption} {name : Text}
    (built : ∀ r, g.stored name = some r → (g.build r options).Steady terms touched needed related) :
    g.peer.Steady terms touched needed related options name := by
  intro i i' alike
  change Together terms touched needed _ i (g.draft (g.stored name) options) i'
    (g.draft (g.stored name) options)
  cases hr : g.stored name with
  | none => exact Drafting.together_pure alike trivial
  | some r =>
    rw [draft, if_pos (kind_of_stored hr), map_eq_pure_bind]
    apply (built r hr alike).bind fun _ => id
    intro left d left' d' apace same
    exact Drafting.together_pure apace.alike same

/-! ## What a namespace adds -/

namespace Document

/-- A namespace's document in the form that is merged into the documents of what it holds. -/
def inheritable (space uid : Text) (base : Document) : Document :=
  Generator.inheritedSections.foldl
    (fun d map =>
      match Table.get? base map.field with
      | some v => Table.insert d (Text.ofString "namespace_" ++ map.field) v
      | none => d)
    [("namespace", .string space), ("namespace_uid", .string uid)]

def inheritSection (base d : Document) (map : MetadataMap) : Document :=
  match Table.get? base map.field with
  | some v => Table.insert d (Text.ofString "namespace_" ++ map.field) v
  | none => d

end Document

namespace Draft

theorem keys_of_shows {shelf : Shelf} {fields : Document} {d : Draft}
    (h : ShowsFields shelf fields d) : Table.keys d = Table.keys fields := by
  induction fields generalizing d with
  | nil =>
    cases h
    rfl
  | cons field rest ih =>
    obtain ⟨name, v⟩ := field
    match d, h with
    | (name', node) :: nodes, h =>
      obtain ⟨rfl, -, there⟩ := h
      exact congrArg (name' :: ·) (ih there)

theorem shows_inheritable {shelf : Shelf} {doc : Document} {base : Draft}
    (h : ShowsFields shelf doc base) (space uid : Text) :
    ShowsFields shelf (Document.inheritable space uid doc)
      (Generator.inheritable space uid base) := by
  have start : ShowsFields shelf [("namespace", .string space), ("namespace_uid", .string uid)]
      [("namespace", .ofText space), ("namespace_uid", .ofText uid)] :=
    ⟨rfl, rfl, rfl, rfl, rfl⟩
  have step (map : MetadataMap) {fields : Document} {d : Draft} (shows : ShowsFields shelf fields d) :
      ShowsFields shelf (Document.inheritSection doc fields map) (base.inheritSection d map) := by
    unfold Document.inheritSection inheritSection
    rcases get?_of_shows h map.field with ⟨hb, hd⟩ | ⟨node, v, hb, hd, own⟩
    · rw [hb, hd]
      exact shows
    · rw [hb, hd]
      exact shows_insert shows _ own
  exact step .annotations (step .labels start)

/-- Two drafts show one document, which has inherited fields only. -/
def SameInherited (i : Inventory) (d : Draft) (i' : Inventory) (d' : Draft) : Prop :=
  ∃ doc, ShowsFields i.shelf doc d ∧ ShowsFields i'.shelf doc d' ∧
    ∀ name ∈ Table.keys doc, name ∈ inheritedFields

end Draft

namespace Generator

theorem steady_forNamespaces {store : Option Store} {projector : Projector} {r : Resource}
    (settled : projector.selection.Settled terms r) (need : needed r) :
    ((forNamespaces store projector).build r []).Steady terms (·.owner = r) needed
      Draft.SameInherited := by
  intro i i' alike
  apply (projector.steady_native settled _ alike).bind fun _ => id
  intro left d left' d' apace same
  apply Drafting.together_read
  intro space _
  apply Drafting.together_read
  intro uid _
  obtain ⟨doc, shows, shows'⟩ := same.shown need
  have inherited := Draft.keys_inheritable space uid d
  have showing := Draft.shows_inheritable shows space uid
  rw [Draft.keys_of_shows showing] at inherited
  exact Drafting.together_pure apace.alike
    ⟨_, showing, Draft.shows_inheritable shows' space uid, inherited⟩

/-- The draft of a node that matters, as pods ask for it. -/
theorem steady_forNodes {store : Option Store} {projector : Projector} {r : Resource}
    (settled : projector.selection.Settled terms r) (need : needed r) :
    ((forNodes store projector).build r [.nest Kind.node.field]).Steady terms (·.owner = r) needed
      Draft.SameShown := by
  intro i i' alike
  apply (projector.steady_nested settled need alike).bind fun _ => id
  intro left d left' d' apace same
  apply Drafting.together_read
  intro hostname _
  exact Draft.together_putText apace.alike same "hostname" hostname

end Generator

namespace Drafting

/-- Merging what shows one document over drafts that agree. -/
theorem together_merge {i i' : Inventory} (alike : Alike terms needed i i') {r : Resource}
    {d d' other other' : Draft} (same : Draft.Same needed sectionFields r i d i' d')
    (inherited : Draft.SameInherited i other i' other') :
    Together terms touched needed (Draft.Same needed sectionFields r) i (d.merge other) i'
      (d'.merge other') := by
  obtain ⟨doc, doc', drawn, drawn', agree⟩ := same
  obtain ⟨source, shows, shows', names⟩ := inherited
  have apart : ∀ name ∈ Table.keys source, name ∉ sectionFields := by
    intro name mem
    have other : ∀ name ∈ inheritedFields, name ∉ sectionFields := by decide
    exact other name (names name mem)
  have quiet := Draft.merge_quiet (fun name mem => drawn.plain name (apart name mem)) shows
  have quiet' := Draft.merge_quiet (fun name mem => drawn'.plain name (apart name mem)) shows'
  refine together_quiet quiet quiet' alike fun merged fits => ?_
  rw [Document.mergedIn] at fits
  split at fits
  · next room =>
    cases fits
    refine ⟨Draft.Map.overlay d' doc' source, by rw [Document.mergedIn, if_pos room], ?_⟩
    exact ⟨_, _, drawn.overlay source, drawn'.overlay source, agree.merge apart⟩
  · cases fits

end Drafting

namespace Projector

/-- The draft of a resource with what its namespace adds. -/
theorem steady_nativeInSpace (p : Projector) {r : Resource}
    (settled : p.selection.Settled terms r) (apart : ∀ lender, others lender → lender.owner ≠ r)
    {peer : Option Peer}
    (steady : ∀ p ∈ peer, ∀ space, r.space = .ok space →
      p.Steady terms others needed Draft.SameInherited [] space) (field : Text) :
    (p.nativeInSpace peer field r []).Steady terms
      (fun lender => lender.owner = r ∨ others lender) needed
      (Draft.Same needed sectionFields r) := by
  intro i i' alike
  unfold nativeInSpace
  apply (p.steady_native settled field alike).bind fun _ => .inl
  intro left d left' d' apace same
  cases peer with
  | none => exact Drafting.together_pure apace.alike same
  | some peer =>
    rw [mergeSpace, mergeSpace]
    apply Drafting.together_read
    intro space named
    split
    · exact Drafting.together_pure apace.alike same
    · apply (steady peer rfl space named apace.alike).bind fun _ => .inr
      intro next answer next' answer' further answers
      replace same := same.of_apace further apart
      obtain ⟨rfl, rfl⟩ | ⟨other, other', rfl, rfl, answers⟩ := Draft.sameAnswer_cases answers
      · exact Drafting.together_pure further.alike same
      · exact Drafting.together_merge further.alike same answers

end Projector

/-! ## The steps of a pod's draft -/

def Document.withNode (d : Document) (nodeName : Text) (node : Option Document) : Document :=
  match node.bind (Table.get? · Kind.node.field) with
  | some (.object fields) => Table.insert d Kind.node.field (.object fields)
  | _ => Document.put d [Kind.node.field, nameField] (.string nodeName)

theorem Document.withNode_of_plain {node : Option Document}
    (plain : ∀ v, node.bind (Table.get? · Kind.node.field) = some v → v.isObject = false)
    (d : Document) (nodeName : Text) :
    d.withNode nodeName node = Document.put d [Kind.node.field, nameField] (.string nodeName) := by
  rw [withNode]
  split
  · next fields there => cases plain _ there
  · rfl

namespace Draft

variable {names : List Text} {r : Resource} {i i' : Inventory} {d d' : Draft}

/-- The name under a field without shared maps is read alike everywhere. -/
theorem ownerName?_of_same (same : Same needed names r i d i' d') {kind : Kind}
    (outside : Text.ofString kind.field ∉ names) (now now' : Shelf) :
    d.ownerName? now kind = d'.ownerName? now' kind := by
  obtain ⟨doc, doc', drawn, drawn', agree⟩ := same
  have here := drawn.plain _ outside
  have there := drawn'.plain _ outside
  rw [← agree.outside _ outside] at there
  rw [ownerName?, ownerName?, at?, at?, here, there]
  cases Table.get? doc kind.field with
  | none => rfl
  | some v => cases v <;> rfl

/-- Two drafts name the same owners. -/
def SameOwners (i : Inventory) (d : Draft) (i' : Inventory) (d' : Draft) : Prop :=
  ∀ kind, d.ownerName? i.shelf kind = d'.ownerName? i'.shelf kind

theorem Same.owners (same : Same needed sectionFields r i d i' d') : SameOwners i d i' d' := by
  intro kind
  have outside : Text.ofString kind.field ∉ sectionFields := by
    cases kind <;> decide
  exact ownerName?_of_same same outside i.shelf i'.shelf

theorem drawn_putName {doc : Document} (h : Drawn names r i doc d) {field : Text}
    (outside : field ∉ names) (name : Text) :
    ∃ d', (d.putName field name).run i.shelf = (d', i.shelf) ∧
      Drawn names r i (Table.insert doc field
        (.object (Table.insert (Document.below doc field) nameField (.string name)))) d' := by
  refine ⟨_, ?_, h.insert field _⟩
  have own (fields : Document) : ((do
      return Table.insert d field (.map (← put (ofFields fields) [nameField] (.ofText name))) :
      OnShelf Draft)).run i.shelf =
      (Table.insert d field (.ofValue (.object (Table.insert fields nameField (.string name)))),
        i.shelf) := by
    rw [Node.ofValue, ← insert_ofFields]
    rfl
  rw [putName, put, within, h.plain field outside, Document.below]
  cases Table.get? doc field with
  | none => exact own []
  | some v =>
    cases v with
    | object fields => exact own fields
    | _ => exact own []

/-- An answer shows a document, or there is neither. -/
def AnswerShows (i : Inventory) (answer : Option Draft) (said : Option Document) : Prop :=
  match answer, said with
  | none, none => True
  | some d, some document => ShowsFields i.shelf document d
  | _, _ => False

theorem answerShows_cases {i : Inventory} {answer : Option Draft} {said : Option Document}
    (h : AnswerShows i answer said) :
    (answer = none ∧ said = none) ∨
      ∃ d document, answer = some d ∧ said = some document ∧ ShowsFields i.shelf document d := by
  cases answer with
  | none =>
    cases said with
    | none => exact .inl ⟨rfl, rfl⟩
    | some document => exact False.elim h
  | some d =>
    cases said with
    | none => exact False.elim h
    | some document => exact .inr ⟨d, document, rfl, rfl, h⟩

/-- The node section shows what the node's answer shows, and holds no shared map beside it. -/
theorem drawn_withNode {doc : Document} (h : Drawn sectionFields r i doc d) (nodeName : Text)
    {answer : Option Draft} {node : Option Document}
    (shows : AnswerShows i answer node) :
    ∃ d', (d.withNode nodeName answer).run i.shelf = (d', i.shelf) ∧
      ShowsFields i.shelf (doc.withNode nodeName node) d' ∧
      Free [Text.ofString Kind.pod.field] d' := by
  have outside : Text.ofString Kind.node.field ∉ sectionFields := by decide
  have kept : Text.ofString Kind.pod.field ∉ sectionFields := by decide
  obtain ⟨named, run, written⟩ := drawn_putName h outside nodeName
  obtain ⟨rfl, rfl⟩ | ⟨other, source, rfl, rfl, shows⟩ := answerShows_cases shows
  · exact ⟨named, run, written.presents.shows, written.free kept⟩
  · rcases map_of_shows shows Kind.node.field with ⟨node, fields, hd, map, hf, own⟩ | ⟨hd, hf⟩
    · rw [@withNode_of_map (some other) _ hd map, Document.withNode, Option.bind_some, hf]
      have apart : Text.ofString Kind.node.field ≠ Text.ofString Kind.pod.field := by decide
      have free := h.free kept
      refine ⟨_, rfl, shows_insert h.presents.shows _ own, ?_⟩
      rw [Free] at free ⊢
      rw [Table.get?_insert, if_neg apart]
      exact free
    · rw [@withNode_of_plain (some other) hd, @Document.withNode_of_plain (some source) hf]
      exact ⟨named, run, written.presents.shows, written.free kept⟩

theorem together_putName (alike : Alike terms needed i i') (same : Same needed names r i d i' d')
    {field : Text} (outside : field ∉ names) (name : Text) :
    Together terms touched needed (Same needed names r) i
      (liftM (d.putName field name) : Drafting Draft) i'
      (liftM (d'.putName field name) : Drafting Draft) := by
  obtain ⟨doc, doc', drawn, drawn', agree⟩ := same
  obtain ⟨next, run, drawn⟩ := drawn_putName drawn outside name
  obtain ⟨next', run', drawn'⟩ := drawn_putName drawn' outside name
  have below : Document.below doc field = Document.below doc' field := by
    rw [Document.below, Document.below, agree.outside field outside]
  rw [← below] at drawn'
  exact Drafting.together_run run run' (.refl alike) ⟨_, _, drawn, drawn', agree.insert field _⟩

variable (apart : ∀ lender, others lender → lender.owner ≠ r)
include apart

/-- A hop asks for the same name and takes over the same owner. -/
theorem together_resolve (alike : Alike terms needed i i')
    (same : Same needed sectionFields r i d i' d') (hop : Hop) {peer : Peer}
    (steady : ∀ via, peer.Steady terms others needed SameOwners [] via) :
    Together terms others needed (Same needed sectionFields r) i (d.resolve hop peer) i'
      (d'.resolve hop peer) := by
  have outside : Text.ofString hop.owner.field ∉ sectionFields := by
    cases hop <;> decide
  rw [resolve, resolve]
  refine Drafting.together_shelf ?_
  rw [same.owners hop.via]
  split
  · exact Drafting.together_pure alike same
  · next via _ =>
    apply (steady via alike).bind fun _ => id
    intro left answer left' answer' apace answers
    replace same := same.of_apace apace apart
    refine Drafting.together_shelf ?_
    have said : (answer.bind fun d => d.ownerName? left.shelf hop.owner) =
        answer'.bind fun d => d.ownerName? left'.shelf hop.owner := by
      obtain ⟨rfl, rfl⟩ | ⟨other, other', rfl, rfl, answers⟩ := sameAnswer_cases answers
      · rfl
      · exact answers hop.owner
    rw [said]
    split
    · next name _ =>
      refine Drafting.together_report _ _ ?_
      exact together_putName apace.alike same outside name
    · refine Drafting.together_report _ _ ?_
      exact Drafting.together_pure apace.alike same

theorem together_takeHop (alike : Alike terms needed i i')
    (same : Same needed sectionFields r i d i' d') {parts : PodParts} {hop : Hop}
    (steady : ∀ peer ∈ parts.peerFor hop, ∀ via,
      peer.Steady terms others needed SameOwners [] via) :
    Together terms others needed (Same needed sectionFields r) i (takeHop parts d hop) i'
      (takeHop parts d' hop) := by
  rw [takeHop, takeHop]
  split
  · next peer found =>
    split
    · exact together_resolve apart alike same hop (steady peer found)
    · exact Drafting.together_pure alike same
  · exact Drafting.together_pure alike same

/-- The node section is what the peer says, or the node's name when the peer says nothing. -/
theorem together_addNode (alike : Alike terms needed i i')
    (same : Same needed sectionFields r i d i' d') (need : needed r) {peer : Option Peer}
    {nodeName : Text}
    (steady : ∀ p ∈ peer, p.Steady terms others needed SameShown [.nest Kind.node.field] nodeName) :
    Together terms others needed (SameFree Kind.pod.field) i (addNode peer d nodeName) i'
      (addNode peer d' nodeName) := by
  have answered {left left' : Inventory} {answer answer' : Option Draft}
      (alike : Alike terms needed left left')
      (same : Same needed sectionFields r left d left' d')
      (answers : SameAnswer SameShown left answer left' answer') :
      Together terms others needed (SameFree Kind.pod.field) left
        (liftM (d.withNode nodeName answer) : Drafting Draft) left'
        (liftM (d'.withNode nodeName answer') : Drafting Draft) := by
    obtain ⟨doc, doc', drawn, drawn', agree⟩ := same
    cases agree.exact need
    obtain ⟨node, here, there⟩ :
        ∃ node, AnswerShows left answer node ∧ AnswerShows left' answer' node := by
      obtain ⟨rfl, rfl⟩ | ⟨other, other', rfl, rfl, source, here, there⟩ := sameAnswer_cases answers
      · exact ⟨none, trivial, trivial⟩
      · exact ⟨some source, here, there⟩
    obtain ⟨next, run, shows, free⟩ := drawn_withNode drawn nodeName here
    obtain ⟨next', run', shows', free'⟩ := drawn_withNode drawn' nodeName there
    exact Drafting.together_run run run' (.refl alike) ⟨⟨_, shows, shows'⟩, free, free'⟩
  rw [addNode_eq, addNode_eq]
  split
  · obtain ⟨doc, doc', drawn, drawn', agree⟩ := same
    have outside : Text.ofString Kind.pod.field ∉ sectionFields := by decide
    cases agree.exact need
    exact Drafting.together_pure alike ⟨⟨doc, drawn.presents.shows, drawn'.presents.shows⟩,
      drawn.free outside, drawn'.free outside⟩
  · cases peer with
    | none => exact answered alike same trivial
    | some peer =>
      apply (steady peer rfl alike).bind fun _ => id
      intro left answer left' answer' apace answers
      exact answered apace.alike (same.of_apace apace apart) answers

end Draft

namespace Generator

/-- The draft of a pod that matters and whose peers are steady. -/
theorem steady_forPods {parts : PodParts} {pod : Resource}
    (settled : parts.projector.selection.Settled terms pod) (need : needed pod)
    (apart : ∀ lender, others lender → lender.owner ≠ pod)
    (space : ∀ p ∈ parts.space, ∀ space, pod.space = .ok space →
      p.Steady terms others needed Draft.SameInherited [] space)
    (node : ∀ p ∈ parts.node, ∀ name, pod.nodeName = .ok name →
      p.Steady terms others needed Draft.SameShown [.nest Kind.node.field] name)
    (hops : ∀ hop, ∀ p ∈ parts.peerFor hop, ∀ via,
      p.Steady terms others needed Draft.SameOwners [] via) :
    ((forPods parts).build pod []).Steady terms
      (fun lender => lender.owner = pod ∨ others lender) needed Draft.SameShown := by
  intro i i' alike
  apply (parts.projector.steady_nativeInSpace settled apart space Kind.pod.field alike).bind
    fun _ => id
  intro _ d _ d' apace same
  apply (Draft.together_takeHop apart apace.alike same (hops .deployment)).bind fun _ => .inr
  intro _ d _ d' apace same
  apply (Draft.together_takeHop apart apace.alike same (hops .cronJob)).bind fun _ => .inr
  intro _ d _ d' apace same
  apply Drafting.together_read
  intro nodeName named
  apply (Draft.together_addNode apart apace.alike same need fun p mem =>
    node p mem nodeName named).bind fun _ => .inr
  intro left d left' d' apace same
  apply Drafting.together_read
  intro address _
  exact Draft.together_putText apace.alike same "ip" address

end Generator

end ClusterMetadata
