import ClusterMetadata.Proofs.FlatSections
import ClusterMetadata.Proofs.Identities

/-!
# What references say in a document

Of the references of a resource those count that name a controller: a document has the name of the
last controller of each kind. Other references leave no trace, and of references of different kinds
the order does not matter.

* `OwnerReference.ofObject`, `ownerReferences_eq`: the references that a list of objects stands for;
* `Resource.withReferences`: a resource with other references in its manifest;
* `plainWith`: a document is made of the references and of what they do not touch;
* `sorted_plainWith`: it is the same as long as the last controllers are;
* `owner_references`: what a projector's document has from the references of a resource.
-/
namespace ClusterMetadata

open Json (Value Fields)

/-! ## References and the last controllers -/

namespace OwnerReference

def ofObject (v : Value) : OwnerReference where
  kind := (v.member "kind").text
  name := (v.member "name").text
  uid := (v.member "uid").text
  controller := !(v.member "controller").isBlank

theorem ofValue_eq {v : Value} (object : v.isObject = true) : ofValue v = .ok (ofObject v) := by
  cases v with
  | object fields => rfl
  | _ => cases object

theorem mapM_ofValue {items : List Value} (objects : ∀ item ∈ items, item.isObject = true) :
    items.mapM ofValue = .ok (items.map ofObject) := by
  induction items with
  | nil => rfl
  | cons item rest ih =>
    rw [List.mapM_cons, ofValue_eq (objects item List.mem_cons_self),
      ih fun other mem => objects other (List.mem_cons_of_mem _ mem)]
    rfl

end OwnerReference

/-- Whether an object is a reference that names a controller of a kind. -/
def Json.Value.namesController (v : Value) (kind : Kind) : Bool :=
  (OwnerReference.ofObject v).names kind

theorem lastController_eq_none {refs : List OwnerReference} {kind : Kind} :
    lastController refs kind = none ↔ ∀ ref ∈ refs, ¬ ref.names kind := by
  simp [lastController]

theorem lastController_isSome {refs : List OwnerReference} {kind : Kind} :
    (lastController refs kind).isSome ↔ ∃ ref ∈ refs, ref.names kind := by
  simp [lastController]

theorem lastController_of_last {before after : List OwnerReference} {ref : OwnerReference}
    {kind : Kind} (names : ref.names kind) (last : ∀ later ∈ after, ¬ later.names kind) :
    lastController (before ++ ref :: after) kind = some ref.name := by
  induction before with
  | nil =>
    rw [List.nil_append, lastController_cons, lastController_eq_none.mpr last, if_pos names]
    rfl
  | cons first rest ih =>
    rw [List.cons_append, lastController_cons, ih]
    rfl

/-- Only the references to a kind decide which of its controllers is the last. -/
theorem lastController_filter (refs : List OwnerReference) (kind : Kind) :
    lastController (refs.filter fun ref => ref.kind = Text.ofString kind.name) kind =
      lastController refs kind := by
  induction refs with
  | nil => rfl
  | cons ref rest ih =>
    rw [List.filter_cons, lastController_cons]
    split
    · rw [lastController_cons, ih]
    · next other =>
      have silent : ¬ ref.names kind := by
        intro names
        simp only [OwnerReference.names, Bool.and_eq_true] at names
        exact other names.1.1
      rw [ih, if_neg silent, Option.or_none]

namespace Document

/-- A reference that names no controller leaves a document as it is. -/
theorem putOwner_of_silent {ref : OwnerReference}
    (silent : ∀ kind : Kind, kind.isController → ¬ ref.names kind) (d : Document) :
    d.putOwner ref = d := by
  unfold putOwner
  cases named : ref.controllerName? with
  | none => rfl
  | some owner =>
    obtain ⟨controller, names, -⟩ := OwnerReference.controllerName?_eq_some.mp named
    exact absurd names (silent _ controller)

theorem distinct_foldl_putOwner {d : Document} (distinct : Table.Distinct d)
    (refs : List OwnerReference) : Table.Distinct (refs.foldl putOwner d) := by
  refine List.foldlRecOn refs _ distinct fun d distinct ref _ => ?_
  unfold putOwner
  split
  · exact Table.distinct_insert distinct _ _
  · exact distinct

theorem distinct_identifying (field name uid space : Text) (refs : List OwnerReference) :
    Table.Distinct (identifying field name uid space refs) := by
  have single (v : Value) : Table.Distinct [(field, v)] := by simp [Table.Distinct, Table.keys]
  refine distinct_foldl_putOwner ?_ refs
  split
  · exact single _
  · exact Table.distinct_insert (single _) _ _

theorem distinct_insertSection {d : Document} (distinct : Table.Distinct d) (map : MetadataMap)
    (fields : Fields) : Table.Distinct (d.insertSection map fields) := by
  rw [insertSection]
  split
  · exact distinct
  · exact Table.distinct_insert distinct _ _

/-- What identifies a resource is read alike as long as the last controllers are the same. -/
theorem get?_identifying_congr {kind : Kind} {space : Text} {refs refs' : List OwnerReference}
    (same : ∀ kind : Kind, kind.isController → lastController refs' kind = lastController refs kind)
    (name uid key : Text) :
    Table.get? (identifying kind.field name uid space refs') key =
      Table.get? (identifying kind.field name uid space refs) key := by
  by_cases field : ∃ owner : Kind, owner.isController ∧ Text.ofString owner.field = key
  · obtain ⟨owner, controller, rfl⟩ := field
    by_cases own : owner = kind
    · subst own
      have settled : owner = .namespace → space = "" := by
        rintro rfl
        cases controller
      rw [get?_identifying_kind settled, get?_identifying_kind settled, namesake, namesake,
        same owner controller]
    · have apart : Text.ofString owner.field ≠ kind.field := fun field =>
        own (Kind.textField_injective field)
      rw [get?_identifying controller apart, get?_identifying controller apart,
        same owner controller]
  · have apart (owner : Kind) (controller : owner.isController) :
        Text.ofString owner.field ≠ key := fun here => field ⟨owner, controller, here⟩
    rw [identifying, identifying, get?_foldl_putOwner_other apart, get?_foldl_putOwner_other apart]

end Document

/-- Two lists have the same references to every kind, in the same order. -/
def SameByKind (items' items : List Value) : Prop :=
  ∀ kind : Text, (items'.filter fun item => (OwnerReference.ofObject item).kind = kind) =
    items.filter fun item => (OwnerReference.ofObject item).kind = kind

theorem SameByKind.mem {items items' : List Value} (same : SameByKind items' items) :
    ∀ item ∈ items', item ∈ items := by
  intro item mem
  have own : item ∈ items'.filter fun other =>
      (OwnerReference.ofObject other).kind = (OwnerReference.ofObject item).kind := by
    simp [mem]
  rw [same] at own
  exact (List.mem_filter.mp own).1

theorem SameByKind.last_eq {items items' : List Value} (same : SameByKind items' items)
    (kind : Kind) : lastController (items'.map OwnerReference.ofObject) kind =
      lastController (items.map OwnerReference.ofObject) kind := by
  have kept (items : List Value) : lastController (items.map OwnerReference.ofObject) kind =
      lastController ((items.filter fun item =>
        (OwnerReference.ofObject item).kind = Text.ofString kind.name).map
          OwnerReference.ofObject) kind := by
    rw [← lastController_filter, List.filter_map]
    rfl
  rw [kept items', same, ← kept items]

/-! ## Resources with other references -/

namespace Resource

variable {r : Resource} {items : List Value}

def withReferences (r : Resource) (items : List Value) : Resource :=
  { r with
    manifest := .object (Document.put (r.manifest.fields?.getD []) ["metadata", "ownerReferences"]
      (.array items)) }

theorem ownerReferences_eq {metadata : Fields} (known : r.metadata = .ok metadata)
    (listed : metadata.value "ownerReferences" = .array items)
    (objects : ∀ item ∈ items, item.isObject = true) :
    r.ownerReferences = .ok (items.map OwnerReference.ofObject) := by
  have read : (Value.array items).itemsOf = .ok items := by
    cases items <;> rfl
  rw [ownerReferences, known]
  refine Json.bind_eq_ok.mpr ⟨metadata, rfl, Json.bind_eq_ok.mpr ⟨items, ?_, ?_⟩⟩
  · rw [listed]
    exact read
  · exact OwnerReference.mapM_ofValue objects

variable (listed : (r.manifest.member "metadata").member "ownerReferences" = .array items)
include listed

/-- Where references are listed, a manifest and its metadata are objects. -/
theorem exists_listing : ∃ all metadata : Fields, r.manifest = .object all ∧
    Table.get? all "metadata" = some (.object metadata) ∧
    metadata.value "ownerReferences" = .array items := by
  cases manifest : r.manifest with
  | object all =>
    rw [manifest] at listed
    have read : (Value.object all).member "metadata" = (Table.get? all "metadata").getD .null := rfl
    rw [read] at listed
    cases there : Table.get? all "metadata" with
    | none =>
      rw [there] at listed
      cases listed
    | some v =>
      rw [there] at listed
      cases v with
      | object metadata => exact ⟨all, metadata, rfl, there, listed⟩
      | _ => cases listed
  | _ =>
    rw [manifest] at listed
    cases listed

theorem exists_metadata_withReferences (items' : List Value) : ∃ metadata : Fields,
    r.metadata = .ok metadata ∧ metadata.value "ownerReferences" = .array items ∧
    (r.withReferences items').metadata =
      .ok (Table.insert metadata "ownerReferences" (.array items')) := by
  obtain ⟨all, metadata, manifest, there, owners⟩ := exists_listing listed
  have read {all metadata : Fields} (there : Table.get? all "metadata" = some (.object metadata)) :
      Fields.part all "metadata" = .ok metadata := by
    have value : Fields.value all "metadata" = .object metadata := by rw [Fields.value, there]; rfl
    have isPart : (Fields.value all "metadata").IsPart := .inr (by rw [value]; rfl)
    rw [Json.part_eq_ok isPart, value]
    rfl
  have below : Document.below all "metadata" = metadata := by rw [Document.below, there]
  refine ⟨metadata, ?_, owners, ?_⟩
  · rw [Resource.metadata, part, manifest]
    exact read there
  · rw [Resource.metadata, part, withReferences, manifest]
    refine read ?_
    rw [Value.fields?, Option.getD_some, Document.put, Document.put, below,
      Table.get?_insert_self]

theorem proper_withReferences (proper : r.manifest.Proper) {items' : List Value}
    (own : ∀ item ∈ items', item.Proper) :
    (r.withReferences items').manifest.Proper := by
  obtain ⟨all, metadata, manifest, there, -⟩ := exists_listing listed
  have below : Document.below all "metadata" = metadata := by rw [Document.below, there]
  have array : (Value.array items').Proper := Json.properItems_iff.mpr own
  rw [manifest] at proper
  have inner : (Value.object metadata).Proper :=
    Json.proper_of_get? proper.2 there
  rw [withReferences, manifest, Value.fields?, Option.getD_some, Document.put, Document.put, below]
  exact proper.insert _ (inner.insert _ array)

/-- Nothing but the references is read anew. -/
theorem reads_withReferences (items' : List Value) : (r.withReferences items').name = r.name ∧
    (r.withReferences items').uid = r.uid ∧ (r.withReferences items').space = r.space ∧
    ∀ map, (r.withReferences items').entries map = r.entries map := by
  obtain ⟨metadata, known, -, anew⟩ := exists_metadata_withReferences listed items'
  have value {name : Text} (other : "ownerReferences" ≠ name) :
      Fields.value (Table.insert metadata "ownerReferences" (.array items')) name =
        metadata.value name := by
    rw [Fields.value, Fields.value, Table.get?_insert, if_neg other]
  have text {name : Text} (other : "ownerReferences" ≠ name) :
      Fields.text (Table.insert metadata "ownerReferences" (.array items')) name =
        metadata.text name := congrArg Value.text (value other)
  refine ⟨?_, ?_, ?_, fun map => ?_⟩
  · rw [Resource.name, Resource.name, known, anew]
    exact congrArg Except.ok (text (by decide))
  · rw [uid, uid, known, anew]
    exact congrArg Except.ok (text (by decide))
  · rw [space, space, known, anew]
    have home := text (show ("ownerReferences" : Text) ≠ "namespace" by decide)
    exact congrArg (fun home : Text =>
      if r.kind.isNamespaced then (Except.ok home : Except Fault Text) else .ok "") home
  · rw [entries, entries, known, anew]
    have other : ("ownerReferences" : Text) ≠ map.field := by cases map <;> decide
    exact congrArg Entries.ofValue (value other)

end Resource

namespace Projector

variable {p : Projector} {r : Resource} {field : Text} {refs refs' : List OwnerReference}

/-- The native document of a resource with some references for its own. -/
def plainWith (p : Projector) (field : Text) (r : Resource) (refs : List OwnerReference) :
    Except Fault Document := do
  let labels ← p.selection.sectionOf r .labels
  let annotations ← p.selection.sectionOf r .annotations
  let own := Document.identifying field (← r.name) (← r.uid) (← r.space) refs
  return (own.insertSection .labels labels).insertSection .annotations annotations

theorem plain_eq_plainWith (owners : r.ownerReferences = .ok refs) :
    p.plain field r = p.plainWith field r refs := by
  unfold plain plainWith
  rw [owners]
  rfl

theorem plainWith_withReferences {items items' : List Value}
    (listed : (r.manifest.member "metadata").member "ownerReferences" = .array items) :
    p.plainWith field (r.withReferences items') refs = p.plainWith field r refs := by
  obtain ⟨name, uid, space, entries⟩ := Resource.reads_withReferences listed items'
  simp only [plainWith, Selection.sectionOf, name, uid, space, entries]

/-- References that name no controller may be there or not. -/
theorem plainWith_silent {before after : List OwnerReference} {ref : OwnerReference}
    (silent : ∀ kind : Kind, kind.isController → ¬ ref.names kind) :
    p.plainWith field r (before ++ ref :: after) = p.plainWith field r (before ++ after) := by
  simp only [plainWith, Document.identifying, List.foldl_append, List.foldl_cons,
    Document.putOwner_of_silent silent]

/-- As long as the last controllers are the same, so is the document, but for the order of keys. -/
theorem sorted_plainWith {kind : Kind}
    (same : ∀ kind : Kind, kind.isController → lastController refs' kind = lastController refs kind)
    {doc : Document} (made : p.plainWith kind.field r refs = .ok doc) :
    ∃ doc', p.plainWith kind.field r refs' = .ok doc' ∧
      (Value.object doc').sorted = (Value.object doc).sorted := by
  obtain ⟨labels, labelled, made⟩ := Json.bind_eq_ok.mp made
  obtain ⟨annotations, annotated, made⟩ := Json.bind_eq_ok.mp made
  obtain ⟨name, named, made⟩ := Json.bind_eq_ok.mp made
  obtain ⟨uid, marked, made⟩ := Json.bind_eq_ok.mp made
  obtain ⟨space, home, made⟩ := Json.bind_eq_ok.mp made
  cases made
  refine ⟨((Document.identifying kind.field name uid space refs').insertSection .labels
    labels).insertSection .annotations annotations, ?_, ?_⟩
  · rw [plainWith, labelled, annotated, named, marked, home]
    rfl
  · have distinct (refs : List OwnerReference) : Table.Distinct
        (((Document.identifying kind.field name uid space refs).insertSection .labels
          labels).insertSection .annotations annotations) :=
      Document.distinct_insertSection (Document.distinct_insertSection
        (Document.distinct_identifying kind.field name uid space refs) _ _) _ _
    refine (Value.sorted_object_iff (distinct refs') (distinct refs)).mpr fun key => ?_
    simp only [Document.get?_insertSection, Document.get?_identifying_congr same]

/-- Of every controller kind but its own the document of a resource names the last controller. -/
theorem get?_plainWith {own kind : Kind} (controller : kind.isController) (other : kind ≠ own)
    {doc : Document} (made : p.plainWith own.field r refs = .ok doc) :
    Table.get? doc kind.field = (lastController refs kind).map Value.named := by
  obtain ⟨labels, -, made⟩ := Json.bind_eq_ok.mp made
  obtain ⟨annotations, -, made⟩ := Json.bind_eq_ok.mp made
  obtain ⟨name, -, made⟩ := Json.bind_eq_ok.mp made
  obtain ⟨uid, -, made⟩ := Json.bind_eq_ok.mp made
  obtain ⟨space, -, made⟩ := Json.bind_eq_ok.mp made
  cases made
  have outside (map : MetadataMap) : map.field ≠ Text.ofString kind.field := by
    cases kind <;> cases map <;> decide
  have apart : Text.ofString kind.field ≠ own.field := fun field =>
    other (Kind.textField_injective field)
  rw [Document.get?_sections_other outside, Document.get?_identifying controller apart]

variable {items items' : List Value} {doc : Document}

theorem makes_eq_plainWith {kind : Kind} (proper : r.manifest.Proper) {metadata : Fields}
    (known : r.metadata = .ok metadata) (owners : metadata.value "ownerReferences" = .array items)
    (objects : ∀ item ∈ items, item.isObject = true) :
    p.makes kind r = .ok doc ↔
      p.plainWith kind.field r (items.map OwnerReference.ofObject) = .ok doc := by
  rw [← plain_eq_plainWith (Resource.ownerReferences_eq known owners objects)]
  exact document_eq_ok proper

variable (proper : r.manifest.Proper)
  (listed : (r.manifest.member "metadata").member "ownerReferences" = .array items)
  (objects : ∀ item ∈ items, item.isObject = true)
include proper listed objects

theorem makes_iff {kind : Kind} : p.makes kind r = .ok doc ↔
    p.plainWith kind.field r (items.map OwnerReference.ofObject) = .ok doc := by
  obtain ⟨metadata, known, owners, -⟩ := Resource.exists_metadata_withReferences listed []
  exact makes_eq_plainWith proper known owners objects

/-- With some of its references in any order, a resource has the document that they make. -/
theorem makes_withReferences_iff {kind : Kind} (among : ∀ item ∈ items', item ∈ items) :
    p.makes kind (r.withReferences items') = .ok doc ↔
      p.plainWith kind.field r (items'.map OwnerReference.ofObject) = .ok doc := by
  obtain ⟨metadata, -, -, anew⟩ := Resource.exists_metadata_withReferences listed items'
  have values : (Value.array items).Proper := by
    rw [← listed]
    exact Value.proper_member (Value.proper_member proper _) _
  have proper' := Resource.proper_withReferences listed proper fun item mem =>
    Json.properItems_iff.mp values item (among item mem)
  have owners : Fields.value (Table.insert metadata "ownerReferences" (.array items'))
      "ownerReferences" = .array items' := by
    rw [Fields.value, Table.get?_insert_self]
    rfl
  rw [makes_eq_plainWith proper' anew owners fun item mem => objects item (among item mem),
    plainWith_withReferences listed]

/-- The document of a resource that lists objects as its references has a field for a controller
kind that is not the resource's own just when one of them is a controller of the kind with a name,
and then the field is a map of the name of the last of them and nothing else. A reference that is no
such thing for any controller kind may be deleted without a change, and references of different
kinds may change places. -/
theorem owner_references : (r.HasMaps → ∃ doc, p.makes r.kind r = .ok doc) ∧
    (∀ doc, p.makes r.kind r = .ok doc → ∀ kind : Kind, kind.isController → kind ≠ r.kind →
      ((Table.get? doc kind.field).isSome ↔ ∃ item ∈ items, item.namesController kind) ∧
      ∀ before item after, items = before ++ item :: after → item.namesController kind →
        (∀ later ∈ after, ¬ later.namesController kind) →
        Table.get? doc kind.field = some (.named (OwnerReference.ofObject item).name)) ∧
    (∀ before item after, items = before ++ item :: after →
      (∀ kind : Kind, kind.isController → ¬ item.namesController kind) → ∀ doc,
        p.makes r.kind (r.withReferences (before ++ after)) = .ok doc ↔
          p.makes r.kind r = .ok doc) ∧
    ∀ items', SameByKind items' items → ∀ doc, p.makes r.kind r = .ok doc →
      ∃ doc', p.makes r.kind (r.withReferences items') = .ok doc' ∧
        (Value.object doc').sorted = (Value.object doc).sorted := by
  refine ⟨fun maps => ?_, fun doc made kind controller other => ⟨?_, ?_⟩, ?_, ?_⟩
  · obtain ⟨metadata, known, owners, -⟩ :=
      Resource.exists_metadata_withReferences listed []
    exact exists_made proper maps ⟨_, Resource.ownerReferences_eq known owners objects⟩
  · rw [get?_plainWith controller other ((makes_iff proper listed objects).mp made),
      Option.isSome_map, lastController_isSome]
    simp only [List.mem_map, exists_exists_and_eq_and]
    rfl
  · rintro before item after rfl names last
    rw [get?_plainWith controller other ((makes_iff proper listed objects).mp made),
      List.map_append, List.map_cons, lastController_of_last names]
    · rfl
    · intro ref mem
      obtain ⟨later, among, rfl⟩ := List.mem_map.mp mem
      exact last later among
  · rintro before item after rfl silent doc
    have among : ∀ other ∈ before ++ after, other ∈ before ++ item :: after := by
      intro other mem
      rcases List.mem_append.mp mem with mem | mem <;> simp [mem]
    rw [makes_withReferences_iff proper listed objects among, makes_iff proper listed objects,
      List.map_append, List.map_append, List.map_cons, plainWith_silent silent]
  · intro items' same doc made
    have last (kind : Kind) (_ : kind.isController) :
        lastController (items'.map OwnerReference.ofObject) kind =
          lastController (items.map OwnerReference.ofObject) kind := same.last_eq kind
    obtain ⟨doc', made', sorted⟩ :=
      sorted_plainWith last ((makes_iff proper listed objects).mp made)
    exact ⟨doc', (makes_withReferences_iff proper listed objects same.mem).mpr made', sorted⟩

end Projector

def managedBy (kind name : Text) : Value :=
  .object [("kind", .string kind), ("name", .string name), ("controller", .bool true)]

def sharedPod : Resource :=
  ⟨.pod, 0, .object [("metadata", .object [("name", .string "web-1"),
    ("ownerReferences", .array [managedBy "ReplicaSet" "a", managedBy "Rollout" "x",
      managedBy "ReplicaSet" "b", managedBy "Job" "j"])])]⟩

/-- The document names the later of the two. The reference without documents may be deleted, and the
job may come first. -/
theorem owner_references_shared : ∃ doc doc',
    ({} : Projector).makes .pod sharedPod = .ok doc ∧
      Table.get? doc Kind.replicaSet.field = some (.named "b") ∧
      ({} : Projector).makes .pod (sharedPod.withReferences [managedBy "ReplicaSet" "a",
        managedBy "ReplicaSet" "b", managedBy "Job" "j"]) = .ok doc ∧
      ({} : Projector).makes .pod (sharedPod.withReferences [managedBy "Job" "j",
        managedBy "ReplicaSet" "a", managedBy "Rollout" "x", managedBy "ReplicaSet" "b"]) =
          .ok doc' ∧
      (Value.object doc').sorted = (Value.object doc).sorted := by
  have proper : sharedPod.manifest.Proper := by
    simp only [sharedPod, managedBy, Value.Proper, Json.ProperFields, Json.ProperItems,
      Table.Distinct]
    decide
  have maps : sharedPod.HasMaps := fun map => .inl (by cases map <;> rfl)
  have reordered : SameByKind [managedBy "Job" "j", managedBy "ReplicaSet" "a",
      managedBy "Rollout" "x", managedBy "ReplicaSet" "b"] [managedBy "ReplicaSet" "a",
      managedBy "Rollout" "x", managedBy "ReplicaSet" "b", managedBy "Job" "j"] := by
    intro kind
    by_cases job : kind = "Job"
    · subst job
      decide
    · have other : ¬ (OwnerReference.ofObject (managedBy "Job" "j")).kind = kind := fun same =>
        job same.symm
      simp [List.filter_cons, other]
  obtain ⟨exists_doc, names, deleted, moved⟩ := Projector.owner_references (p := {}) proper
    (show (sharedPod.manifest.member "metadata").member "ownerReferences" = .array _ from rfl)
    (by decide)
  obtain ⟨doc, made⟩ := exists_doc maps
  obtain ⟨doc', made', sorted⟩ := moved _ reordered doc made
  refine ⟨doc, doc', made, ?_, ?_, made', sorted⟩
  · exact (names doc made .replicaSet rfl (by decide)).2 [_, _] _ [_] rfl (by decide) (by decide)
  · exact (deleted [_] _ [_, _] rfl (fun kind _ => by cases kind <;> decide) doc).mpr made

end ClusterMetadata
