import ClusterMetadata.Proofs.SameAnswers

/-!
# What the document of a pod is put together of

A pod's own document takes over what its namespace, the controllers above it and its node say. Each
of them writes under fields of its own, and a hop reads a field that none of them writes.

* `Document.ofPod`: the document, given the pod's own and what the others say;
* `get?_takeHops`: hops do not disturb each other, whatever their order;
* `get?_ofPod`: what one part says shows in the fields of this part only.
-/
namespace ClusterMetadata

open Json (Value Fields)

/-- What a pod's owners say of themselves: its namespace, the owner behind a controller with a name,
and its node, the sections moved under `node`. -/
structure OwnersSay where
  space : Option Document
  owner : Hop → Text → Option Text
  nodeName : Text
  node : Option Document

namespace Hop

def all : List Hop := [deployment, cronJob]

theorem mem_all (hop : Hop) : hop ∈ all := by cases hop <;> decide

end Hop

def namespaceFields : List Text := ["namespace_uid", "namespace_labels", "namespace_annotations"]

namespace Document

/-- The name under a kind's field, when it is text and not empty. -/
def ownerName? (d : Document) (kind : Kind) : Option Text :=
  match d.get? [kind.field, nameField] with
  | some (.string name) => if name = "" then none else some name
  | _ => none

theorem ownerName?_ne_empty {d : Document} {kind : Kind} {name : Text}
    (named : d.ownerName? kind = some name) : name ≠ "" := by
  rintro rfl
  rw [ownerName?] at named
  split at named
  · split at named
    · cases named
    · next other => exact other (Option.some.inj named)
  · cases named

def inheriting (d : Document) : Option Document → Document
  | some other => d.merge other
  | none => d

/-- The document with the owner of a hop, when the controller that it names has one. -/
def takeHop (owner : Hop → Text → Option Text) (d : Document) (hop : Hop) : Document :=
  match (d.ownerName? hop.via).bind (owner hop) with
  | some name => Document.put d [hop.owner.field, nameField] (.string name)
  | none => d

/-- The document with its node: the section that the node's document has, or else the name. -/
def addNode (d : Document) (nodeName : Text) (node : Option Document) : Document :=
  if nodeName = "" then d
  else
    match node.bind (Table.get? · Kind.node.field) with
    | some (.object fields) => Table.insert d Kind.node.field (.object fields)
    | _ => Document.put d [Kind.node.field, nameField] (.string nodeName)

/-- The document of a pod: its own with what its owners say, hops taken in an order, and with its
address. -/
def ofPod (base : Document) (say : OwnersSay) (order : List Hop) (address : Text) : Document :=
  ((order.foldl (takeHop say.owner) (base.inheriting say.space)).addNode say.nodeName
    say.node).putText [Kind.pod.field, "ip"] address

/-! ## Single fields -/

section

variable {d d' : Document} {name key : Text}

theorem get?_put_other (other : name ≠ key) (rest : Path) (v : Value) :
    Table.get? (put d (name :: rest) v) key = Table.get? d key := by
  cases rest <;> rw [put, Table.get?_insert, if_neg other]

/-- What a write makes of a field depends on that field alone. -/
theorem get?_put_congr (same : Table.get? d name = Table.get? d' name) (rest : Path) (v : Value) :
    Table.get? (put d (name :: rest) v) name = Table.get? (put d' (name :: rest) v) name := by
  cases rest with
  | nil => rw [put, put, Table.get?_insert_self, Table.get?_insert_self]
  | cons next rest =>
    rw [put, put, Table.get?_insert_self, Table.get?_insert_self, below, below, same]

theorem get?_putText_other (other : name ≠ key) (rest : Path) (text : Text) :
    Table.get? (d.putText (name :: rest) text) key = Table.get? d key := by
  rw [putText]
  split
  · rfl
  · exact get?_put_other other rest _

theorem get?_putText_congr (same : Table.get? d key = Table.get? d' key) (name : Text) (rest : Path)
    (text : Text) :
    Table.get? (d.putText (name :: rest) text) key =
      Table.get? (d'.putText (name :: rest) text) key := by
  by_cases here : name = key
  · subst here
    rw [putText, putText]
    split
    · exact same
    · exact get?_put_congr same rest _
  · rw [get?_putText_other here, get?_putText_other here, same]

theorem addNode_of_named {nodeName : Text} (named : nodeName ≠ "") (d : Document)
    (node : Option Document) : d.addNode nodeName node = d.withNode nodeName node :=
  if_neg named

theorem get?_addNode_other (other : Text.ofString Kind.node.field ≠ key) (nodeName : Text)
    (node : Option Document) : Table.get? (d.addNode nodeName node) key = Table.get? d key := by
  rw [addNode.eq_def]
  split
  · rfl
  · split
    · rw [Table.get?_insert, if_neg other]
    · exact get?_put_other other _ _

theorem get?_addNode_congr (same : Table.get? d Kind.node.field = Table.get? d' Kind.node.field)
    (nodeName : Text) (node : Option Document) :
    Table.get? (d.addNode nodeName node) Kind.node.field =
      Table.get? (d'.addNode nodeName node) Kind.node.field := by
  rw [addNode.eq_def, addNode.eq_def]
  split
  · exact same
  · split
    · rw [Table.get?_insert_self, Table.get?_insert_self]
    · exact get?_put_congr same _ _

/-- Merging leaves a field that the other document does not have, or has with the same leaf. -/
theorem get?_mergeFields_of_same {source : Fields}
    (same : ∀ v, (key, v) ∈ source → v.isObject = false ∧ Table.get? d key = some v) :
    Table.get? (mergeFields d source) key = Table.get? d key := by
  induction source generalizing d with
  | nil => rfl
  | cons field rest ih =>
    obtain ⟨name, v⟩ := field
    have kept : Table.get? (Table.insert d name (mergeOver (Table.get? d name) v)) key =
        Table.get? d key := by
      rw [Table.get?_insert]
      split
      · next here =>
        subst here
        obtain ⟨leaf, there⟩ := same v List.mem_cons_self
        rw [there]
        cases v with
        | object fields => cases leaf
        | _ => rfl
      · rfl
    rw [mergeFields, ih fun v mem => ?_, kept]
    rw [kept]
    exact same v (List.mem_cons_of_mem _ mem)

end

/-! ## Hops -/

section

variable {owner : Hop → Text → Option Text} {d d' : Document} {key : Text}

theorem ownerName?_congr {kind : Kind}
    (same : Table.get? d kind.field = Table.get? d' kind.field) :
    d.ownerName? kind = d'.ownerName? kind := by
  rw [ownerName?, ownerName?, get?_cons, get?_cons, same]

theorem get?_takeHop_other {hop : Hop} (other : Text.ofString hop.owner.field ≠ key) :
    Table.get? (takeHop owner d hop) key = Table.get? d key := by
  rw [takeHop]
  split
  · exact get?_put_other other _ _
  · rfl

/-- What a hop makes of its owner's field depends on that field and on the one that names the
controller in between. -/
theorem get?_takeHop_congr {owner' : Hop → Text → Option Text} {hop : Hop}
    (said : owner hop = owner' hop)
    (via : Table.get? d hop.via.field = Table.get? d' hop.via.field)
    (own : Table.get? d hop.owner.field = Table.get? d' hop.owner.field) :
    Table.get? (takeHop owner d hop) hop.owner.field =
      Table.get? (takeHop owner' d' hop) hop.owner.field := by
  rw [takeHop, takeHop, ownerName?_congr via, said]
  split
  · exact get?_put_congr own _ _
  · exact own

/-- No hop writes the field that another reads, nor the one that another writes. -/
theorem owner_apart {hop hop' : Hop} (other : hop ≠ hop') :
    Text.ofString hop.owner.field ≠ hop'.owner.field ∧
      Text.ofString hop.owner.field ≠ hop'.via.field := by
  cases hop <;> cases hop' <;> first | exact absurd rfl other | decide

theorem get?_takeHops_other {order : List Hop}
    (other : ∀ hop ∈ order, Text.ofString hop.owner.field ≠ key) :
    Table.get? (order.foldl (takeHop owner) d) key = Table.get? d key := by
  induction order generalizing d with
  | nil => rfl
  | cons hop rest ih =>
    rw [List.foldl_cons, ih fun hop mem => other hop (List.mem_cons_of_mem _ mem)]
    exact get?_takeHop_other (other hop List.mem_cons_self)

/-- Where every hop is taken once, the field of an owner is what its own hop makes of it. -/
theorem get?_takeHops {order : List Hop} (once : order.Nodup) {hop : Hop} (mem : hop ∈ order) :
    Table.get? (order.foldl (takeHop owner) d) hop.owner.field =
      Table.get? (takeHop owner d hop) hop.owner.field := by
  induction order generalizing d with
  | nil => cases mem
  | cons first rest ih =>
    obtain ⟨notMem, once⟩ := List.nodup_cons.mp once
    rw [List.foldl_cons]
    rcases List.mem_cons.mp mem with rfl | mem
    · refine get?_takeHops_other fun later mem => (owner_apart fun same => ?_).1
      exact notMem (same ▸ mem)
    · have apart := owner_apart (show first ≠ hop from fun same => notMem (same ▸ mem))
      rw [ih once mem]
      exact get?_takeHop_congr rfl (get?_takeHop_other apart.2) (get?_takeHop_other apart.1)

end

/-! ## The whole document -/

/-- What a namespace says: inherited fields, of which `namespace` says again what the document
says. -/
structure Inherits (base other : Document) : Prop where
  names : ∀ name ∈ Table.keys other, name ∈ inheritedFields
  space : ∀ v, (("namespace" : Text), v) ∈ other →
    v.isObject = false ∧ Table.get? base "namespace" = some v

theorem get?_inheriting_other {base : Document} {space : Option Document}
    (inherits : ∀ other ∈ space, Inherits base other) {key : Text} (outside : key ∉ namespaceFields) :
    Table.get? (base.inheriting space) key = Table.get? base key := by
  cases space with
  | none => rfl
  | some other =>
    have inherits := inherits other rfl
    refine get?_mergeFields_of_same fun v mem => ?_
    have inherited := inherits.names key (List.mem_map_of_mem mem)
    rcases List.mem_cons.mp inherited with rfl | inside
    · exact inherits.space v mem
    · exact absurd inside outside

/-- Two documents of a pod with the same own document agree in a field when those of its owners that
write the field say the same, whatever the order of the hops. -/
theorem get?_ofPod {base : Document} {say say' : OwnersSay}
    (inherits : ∀ other ∈ say.space, Inherits base other)
    (inherits' : ∀ other ∈ say'.space, Inherits base other)
    {order order' : List Hop} (all : order.Perm Hop.all) (all' : order'.Perm Hop.all)
    (runsOn : say.nodeName = say'.nodeName) (address : Text) {key : Text}
    (space : key ∈ namespaceFields → say.space = say'.space)
    (owner : ∀ hop : Hop, key = hop.owner.field → say.owner hop = say'.owner hop)
    (node : key = Kind.node.field → say.node = say'.node) :
    Table.get? (ofPod base say order address) key =
      Table.get? (ofPod base say' order' address) key := by
  have kept {name : Text} (outside : name ∉ namespaceFields) :
      Table.get? (base.inheriting say.space) name = Table.get? (base.inheriting say'.space) name := by
    rw [get?_inheriting_other inherits outside, get?_inheriting_other inherits' outside]
  have hops : Table.get? (order.foldl (takeHop say.owner) (base.inheriting say.space)) key =
      Table.get? (order'.foldl (takeHop say'.owner) (base.inheriting say'.space)) key := by
    by_cases owned : ∃ hop : Hop, key = hop.owner.field
    · obtain ⟨hop, rfl⟩ := owned
      have once : Hop.all.Nodup := by decide
      have outside (kind : Kind) : Text.ofString kind.field ∉ namespaceFields := by
        cases kind <;> decide
      rw [get?_takeHops (all.nodup_iff.mpr once) (all.mem_iff.mpr hop.mem_all),
        get?_takeHops (all'.nodup_iff.mpr once) (all'.mem_iff.mpr hop.mem_all)]
      exact get?_takeHop_congr (owner hop rfl) (kept (outside _)) (kept (outside _))
    · have other (hop : Hop) : Text.ofString hop.owner.field ≠ key := fun same =>
        owned ⟨hop, same.symm⟩
      rw [get?_takeHops_other fun hop _ => other hop, get?_takeHops_other fun hop _ => other hop]
      by_cases inside : key ∈ namespaceFields
      · rw [space inside]
      · exact kept inside
  refine get?_putText_congr ?_ Kind.pod.field ["ip"] address
  by_cases here : Text.ofString Kind.node.field = key
  · subst here
    rw [node rfl, runsOn]
    exact get?_addNode_congr hops _ _
  · rw [get?_addNode_other here, get?_addNode_other here, hops]

end Document

end ClusterMetadata
