import ClusterMetadata.Generator.Pod
import ClusterMetadata.Proofs.Inheritance

/-!
# What the steps of a pod's draft change

After the namespace is merged, a pod's draft is worked on by two hops, by the node section and by
the address. Each writes under one field.

* `ownerName?_of_names`: the name that a hop starts from is the one that the draft holds;
* `ensures_takeHop`: a hop puts the name it finds in place of its owner's, and leaves all others;
* `withNode`, `addNode_eq`: the node section, once the node has answered;
* `names_sameBut`, `ensures_addNode`, `ensures_putText`: the other steps leave all of them.
-/
namespace ClusterMetadata.Draft

/-- The name under a kind's field is read alike on every shelf. -/
theorem ownerName?_named {d : Draft} {kind : Kind} {owner : Option Text}
    (h : Table.get? d kind.field = owner.map Node.named)
    (nonempty : ∀ name, owner = some name → name ≠ "") (shelf : Shelf) :
    d.ownerName? shelf kind = owner := by
  rw [ownerName?, at?, h]
  cases owner with
  | none => rfl
  | some name => simp [Node.named, Json.Value.named, Node.ofValue, ofFields, at?, Table.get?,
      nonempty name rfl]

theorem ownerName?_of_names {d : Draft} {own : Kind} {owners : Kind → Option Text}
    (names : d.Names own owners) {kind : Kind} (controller : kind.isController) (other : kind ≠ own)
    (nonempty : ∀ name, owners kind = some name → name ≠ "") (shelf : Shelf) :
    d.ownerName? shelf kind = owners kind :=
  ownerName?_named (names kind controller other) nonempty shelf

theorem putName_named {d : Draft} {field : Text} {owner : Option Text}
    (h : Table.get? d field = owner.map Node.named) (name : Text) :
    d.putName field name = pure (Table.insert d field (.named name)) := by
  rw [putName, put, within, h]
  cases owner with
  | none => rfl
  | some old => simp [Node.named, Json.Value.named, Node.ofValue, ofFields, put, Table.insert,
      Node.ofText]

/-- A draft that differs from another in fields of no controller names the same controllers. -/
theorem names_sameBut {d d' : Draft} {own : Kind} {owners : Kind → Option Text}
    (names : d.Names own owners) {changed : Text → Prop} (same : SameBut changed d d')
    (apart : ∀ kind : Kind, kind.isController → ¬ changed kind.field) : d'.Names own owners := by
  intro kind controller other
  rw [same kind.field (apart kind controller)]
  exact names kind controller other

theorem names_insert {d : Draft} {own : Kind} {owners : Kind → Option Text}
    (names : d.Names own owners) (kind : Kind) (name : Text) :
    Names (Table.insert d kind.field (.named name)) own
      fun k => if k = kind then some name else owners k := by
  intro k controller other
  rw [Table.get?_insert]
  by_cases hk : k = kind
  · subst hk
    simp
  · have apart : Text.ofString kind.field ≠ k.field :=
      fun same => hk (Kind.textField_injective same).symm
    simp only [if_neg apart, if_neg hk]
    exact names k controller other

/-- What the controllers are after a hop that found `found`. -/
def afterHop (hop : Hop) (found : Option Text) (owners : Kind → Option Text) :
    Kind → Option Text :=
  fun kind => if kind = hop.owner then found.or (owners kind) else owners kind

theorem names_afterHop {d : Draft} {own : Kind} {owners : Kind → Option Text}
    (names : d.Names own owners) (hop : Hop) : d.Names own (afterHop hop none owners) := by
  intro kind controller other
  rw [names kind controller other, afterHop]
  split <;> rfl

/-- What a peer's answer says of a hop's owner, on every shelf. -/
def Answers (hop : Hop) (found : Option Text) (answer : Option Draft) : Prop :=
  ∀ shelf, (answer.bind fun d => d.ownerName? shelf hop.owner) = found

/-- A hop writes the name that the peer's answer holds, and nothing without one. -/
theorem ensures_resolve {d : Draft} {own : Kind} {owners : Kind → Option Text}
    (names : d.Names own owners) {hop : Hop} (other : hop.owner ≠ own) {via found : Option Text}
    (start : ∀ shelf, d.ownerName? shelf hop.via = via) {peer : Peer}
    (answers : ∀ name, via = some name → (peer.ask name []).Ensures (Answers hop found))
    (unasked : via = none → found = none) :
    (d.resolve hop peer).Ensures fun d' => d'.Names own (afterHop hop found owners) := by
  unfold resolve
  refine (Drafting.ensures_true _).bind fun shelf _ => ?_
  rw [start shelf]
  cases via with
  | none =>
    rw [unasked rfl]
    exact Drafting.ensures_pure (names_afterHop names hop)
  | some name =>
    refine (answers name rfl).bind fun answer said => ?_
    refine (Drafting.ensures_true _).bind fun shelf' _ => ?_
    rw [said shelf']
    cases found with
    | none =>
      refine (Drafting.ensures_true _).bind fun _ _ => ?_
      exact Drafting.ensures_pure (names_afterHop names hop)
    | some ownerName =>
      refine (Drafting.ensures_true _).bind fun _ _ => ?_
      have controller : hop.owner.isController := by cases hop <;> rfl
      rw [putName_named (names hop.owner controller other)]
      refine Drafting.ensures_lift_shelf _ fun _ => ?_
      exact names_insert names hop.owner ownerName

/-- The name that a hop finds when it is taken, given what its peer says of each name. -/
def foundBy (parts : PodParts) (hop : Hop) (said : Text → Option Text) (via : Option Text) :
    Option Text :=
  if hop ∈ parts.hops ∧ (parts.peerFor hop).isSome then via.bind said else none

/-- A hop changes what the draft says of its owner, and nothing else of any controller. -/
theorem ensures_takeHop {parts : PodParts} {d : Draft} {own : Kind} {owners : Kind → Option Text}
    (names : d.Names own owners) (hop : Hop) (other : hop.owner ≠ own) (otherVia : hop.via ≠ own)
    (nonempty : ∀ name, owners hop.via = some name → name ≠ "") {said : Text → Option Text}
    (answers : ∀ peer, parts.peerFor hop = some peer → ∀ name, owners hop.via = some name →
      (peer.ask name []).Ensures (Answers hop (said name))) :
    (takeHop parts d hop).Ensures fun d' =>
      d'.Names own (afterHop hop (foundBy parts hop said (owners hop.via)) owners) := by
  have controller : hop.via.isController := by cases hop <;> rfl
  unfold takeHop
  cases hp : parts.peerFor hop with
  | none =>
    rw [foundBy, hp, if_neg (by simp)]
    exact Drafting.ensures_pure (names_afterHop names hop)
  | some peer =>
    by_cases taken : hop ∈ parts.hops
    · rw [foundBy, hp, if_pos ⟨taken, rfl⟩]
      simp only [if_pos taken]
      refine ensures_resolve names other (ownerName?_of_names names controller otherVia nonempty)
        (fun name h => ?_) fun h => by rw [h]; rfl
      rw [h]
      exact answers peer hp name h
    · rw [foundBy, if_neg (fun h => taken h.1)]
      simp only [if_neg taken]
      exact Drafting.ensures_pure (names_afterHop names hop)

/-- Writing at a path changes nothing but the field that the path starts with. -/
theorem sameBut_put (d : Draft) (name : Text) (rest : Path) (node : Node) (shelf : Shelf) :
    SameBut (· = name) d (((d.put (name :: rest) node).run shelf).1) := by
  have own : SameBut (· = name) d d := fun _ _ => rfl
  cases rest with
  | nil => exact sameBut_insert own rfl node
  | cons next rest =>
    rw [put, within]
    split
    · exact own
    · exact sameBut_insert own rfl _
    · exact sameBut_insert own rfl _

theorem ensures_putText (d : Draft) (name : Text) (rest : Path) (text : Text) :
    Drafting.Ensures (liftM (d.putText (name :: rest) text) : Drafting Draft)
      (SameBut (· = name) d) := by
  refine Drafting.ensures_lift_shelf _ fun shelf => ?_
  unfold putText
  split
  · exact fun _ _ => rfl
  · exact sameBut_put d name rest _ shelf

/-- A hop writes its owner's field only. -/
theorem sameBut_takeHop (parts : PodParts) (d : Draft) (hop : Hop) :
    (takeHop parts d hop).Ensures (SameBut (· = Text.ofString hop.owner.field) d) := by
  have kept : SameBut (· = Text.ofString hop.owner.field) d d := fun _ _ => rfl
  unfold takeHop
  split
  · split
    · unfold resolve
      refine (Drafting.ensures_true _).bind fun shelf _ => ?_
      split
      · exact Drafting.ensures_pure kept
      · refine (Drafting.ensures_true _).bind fun answer _ => ?_
        refine (Drafting.ensures_true _).bind fun shelf _ => ?_
        split
        · refine (Drafting.ensures_true _).bind fun _ _ => ?_
          exact Drafting.ensures_lift_shelf _ fun shelf => sameBut_put d _ _ _ shelf
        · refine (Drafting.ensures_true _).bind fun _ _ => ?_
          exact Drafting.ensures_pure kept
    · exact Drafting.ensures_pure kept
  · exact Drafting.ensures_pure kept

/-! ## The node section -/

/-- The node section that goes with an answer: the one that the answer has, or the node's name. -/
def withNode (d : Draft) (nodeName : Text) (answer : Option Draft) : OnShelf Draft :=
  match answer.bind (Table.get? · Kind.node.field) with
  | none | some (.leaf _) => d.putName Kind.node.field nodeName
  | some node => return Table.insert d Kind.node.field node

/-- A node that has a name is asked for what its section says. -/
theorem addNode_eq (node : Option Peer) (d : Draft) (nodeName : Text) :
    addNode node d nodeName =
      if nodeName = "" then pure d
      else match node with
        | none => liftM (d.withNode nodeName none)
        | some peer => peer.ask nodeName [.nest Kind.node.field] >>= fun answer =>
          liftM (d.withNode nodeName answer) := by
  unfold addNode
  split
  · rfl
  · cases node with
    | none => rfl
    | some peer =>
      refine bind_congr fun answer => ?_
      rw [withNode]
      cases answer.bind (Table.get? · Kind.node.field) with
      | none => rfl
      | some node => cases node <;> rfl

theorem withNode_of_map {answer : Option Draft} {node : Node}
    (there : answer.bind (Table.get? · Kind.node.field) = some node) (map : node.isMap = true)
    (d : Draft) (nodeName : Text) :
    d.withNode nodeName answer = pure (Table.insert d Kind.node.field node) := by
  rw [withNode, there]
  cases node with
  | leaf v => cases map
  | _ => rfl

theorem withNode_of_plain {answer : Option Draft}
    (plain : ∀ node, answer.bind (Table.get? · Kind.node.field) = some node → node.isMap = false)
    (d : Draft) (nodeName : Text) :
    d.withNode nodeName answer = d.putName Kind.node.field nodeName := by
  rw [withNode]
  split
  · rfl
  · rfl
  · next node leafless there =>
    cases node with
    | leaf v => exact absurd rfl (leafless v)
    | _ => cases plain _ there

/-- The node section is one field. -/
theorem sameBut_withNode (d : Draft) (nodeName : Text) (answer : Option Draft) (shelf : Shelf) :
    SameBut (· = Text.ofString Kind.node.field) d ((d.withNode nodeName answer).run shelf).1 := by
  have own : SameBut (· = Text.ofString Kind.node.field) d d := fun _ _ => rfl
  rw [withNode]
  split
  · exact sameBut_put d _ _ _ shelf
  · exact sameBut_put d _ _ _ shelf
  · exact sameBut_insert own rfl _

theorem ensures_addNode (node : Option Peer) (d : Draft) (nodeName : Text) :
    (addNode node d nodeName).Ensures (SameBut (· = Text.ofString Kind.node.field) d) := by
  rw [addNode_eq]
  split
  · exact Drafting.ensures_pure fun _ _ => rfl
  · cases node with
    | none => exact Drafting.ensures_lift_shelf _ (sameBut_withNode d nodeName none)
    | some peer =>
      refine (Drafting.ensures_true _).bind fun answer _ => ?_
      exact Drafting.ensures_lift_shelf _ (sameBut_withNode d nodeName answer)

end ClusterMetadata.Draft
