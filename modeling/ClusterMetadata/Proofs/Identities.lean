import ClusterMetadata.Proofs.AddedFields
import ClusterMetadata.Proofs.OwnerChain
import ClusterMetadata.Proofs.RootedDrafts

/-!
# Whom a document identifies

A native document has the uid of its own resource under the resource's kind, and the resource's
name, unless a reference names a controller of the same kind: then the controller's name takes its
place.

* `namesake?`: the controller that takes the name over;
* `IdentifiedBy`: what a document then says under the kind;
* `Draft.Identifies`: a draft that holds such a map, and what is written into it beside;
* `native_identifies`: projectors and the generators of nodes, controllers and pods identify so.
-/
namespace ClusterMetadata

open Json (Value Fields)

/-- The controller of its own kind that takes a resource's name over. -/
def Resource.namesake? (r : Resource) : Option Text :=
  if r.kind.isController then r.controller? r.kind else none

/-- A document has the uid of a resource under the resource's kind, and its name or the name that
takes its place. -/
def Resource.IdentifiedBy (r : Resource) (doc : Document) : Prop :=
  ∃ name uid, r.name = .ok name ∧ r.uid = .ok uid ∧
    doc.get? [r.kind.field, nameField] = some (.string (r.namesake?.getD name)) ∧
    doc.get? [r.kind.field, "uid"] = some (.string uid)

/-! ## Drafts -/

namespace Draft

/-- A draft has a map of its own under a kind, with the uid of a resource and its name or the name
that takes its place. -/
def Identifies (d : Draft) (r : Resource) : Prop :=
  ∃ name uid own, r.name = .ok name ∧ r.uid = .ok uid ∧
    Table.get? d r.kind.field = some (.ofValue (.object own)) ∧
    Table.get? own nameField = some (.string (r.namesake?.getD name)) ∧
    Table.get? own "uid" = some (.string uid)

variable {r : Resource} {d : Draft}

theorem Identifies.of_sameBut (h : d.Identifies r) {changed : Text → Prop} {d' : Draft}
    (same : SameBut changed d d') (apart : ¬ changed r.kind.field) : d'.Identifies r := by
  obtain ⟨name, uid, own, named, marked, there, parts⟩ := h
  exact ⟨name, uid, own, named, marked, (same _ apart).trans there, parts⟩

/-- What is put beside the name and the uid leaves both. -/
theorem Identifies.ensures_putText (h : d.Identifies r) {kind : Kind} (own : r.kind = kind)
    {field : Text} (notName : field ≠ nameField) (notUid : field ≠ "uid") (text : Text) :
    Drafting.Ensures (liftM (d.putText [kind.field, field] text) : Drafting Draft)
      fun d' => d'.Identifies r := by
  subst own
  obtain ⟨name, uid, own, named, marked, there, identity⟩ := h
  have plain (m : SharedMap) : Table.get? d r.kind.field ≠ some (.shared m) := by
    rw [there]
    nofun
  have below : d.ownBelow r.kind.field = ofFields own := by
    rw [ownBelow, there]
    rfl
  rw [putText]
  split
  · exact Drafting.ensures_pure ⟨name, uid, own, named, marked, there, identity⟩
  · rw [put_below plain, below]
    refine Drafting.ensures_lift_shelf _ fun _ => ?_
    refine ⟨name, uid, Table.insert own field (.string text), named, marked, ?_, ?_, ?_⟩
    · have inserted : Table.insert (ofFields own) field (.ofText text) =
          ofFields (Table.insert own field (.string text)) :=
        insert_ofFields own field (.string text)
      rw [inserted]
      exact Table.get?_insert_self ..
    · rw [Table.get?_insert, if_neg notName]
      exact identity.1
    · rw [Table.get?_insert, if_neg notUid]
      exact identity.2

/-- What a draft shows identifies whom the draft identifies. -/
theorem Identifies.ensures_document (h : d.Identifies r) :
    d.document.Ensures r.IdentifiedBy := by
  obtain ⟨name, uid, own, named, marked, there, identity⟩ := h
  rw [document]
  refine (Drafting.ensures_true _).bind fun shelf _ => ?_
  cases shown : d.shown shelf with
  | none => exact Drafting.ensures_fail
  | some doc =>
    have field : Table.get? doc r.kind.field = some (.object own) := by
      rw [get?_shownFields shown, there]
      exact shown_ofValue shelf.shown (.object own)
    have part (name : Text) : doc.get? [r.kind.field, name] = Table.get? own name := by
      rw [Document.get?_cons, field, Option.bind_some, Value.at?_object_cons]
      cases Table.get? own name <;> simp [Value.at?]
    refine Drafting.ensures_pure ⟨name, uid, named, marked, ?_, ?_⟩
    · rw [part]
      exact identity.1
    · rw [part]
      exact identity.2

end Draft

namespace Projector

/-- A native draft that is not adjusted identifies its resource. -/
theorem ensures_native_identifies (p : Projector) (r : Resource) :
    (p.native r.kind.field r []).Ensures fun d => d.Identifies r := by
  have outside (map : MetadataMap) : Text.ofString r.kind.field ≠ map.field := by
    cases r.kind <;> cases map <;> decide
  refine (p.ensures_assembled r.kind.field r).mono ?_
  rintro _ ⟨labels, annotations, name, uid, space, refs, named, marked, home, owners, rfl⟩
  have settled (kind : r.kind = .namespace) : space = "" := by
    rw [Resource.space, kind] at home
    cases home
    rfl
  have taken : r.namesake? = namesake refs r.kind := by
    rw [Resource.namesake?, namesake, Resource.controller?, owners]
  have there := Document.get?_identifying_kind settled name uid refs
  refine ⟨name, uid, [(nameField, .string ((namesake refs r.kind).getD name)),
    ("uid", .string uid)], named, marked, ?_, ?_, ?_⟩
  · rw [Draft.get?_assembled outside, there]
    rfl
  · rw [taken]
    rfl
  · rfl

variable {space : Option Peer} (inheriting : ∀ p, space = some p → p.Inheriting)
include inheriting

/-- What a namespace adds leaves whom a draft identifies; a namespace is in none. -/
theorem ensures_nativeInSpace_identifies (p : Projector) (r : Resource) :
    (p.nativeInSpace space r.kind.field r []).Ensures fun d => d.Identifies r := by
  unfold nativeInSpace
  refine (p.ensures_native_identifies r).bind fun d identifies => ?_
  by_cases kind : r.kind = .namespace
  · cases space with
    | none => exact Drafting.ensures_pure identifies
    | some peer =>
      rw [mergeSpace]
      refine (Drafting.ensures_lift_except r.space).bind fun home here => ?_
      rw [Resource.space, kind] at here
      cases here
      exact Drafting.ensures_pure identifies
  · refine (ensures_mergeSpace inheriting r d).mono fun d' same => identifies.of_sameBut same ?_
    revert kind
    cases r.kind <;> decide

end Projector

namespace Generator

variable {r : Resource}

/-- Where every draft identifies its resource, so does every document. -/
theorem ensures_native_identified {g : Generator} (kind : r.kind = g.kind)
    (built : (g.build r []).Ensures fun d => d.Identifies r) :
    (g.native (some r) []).Ensures fun answer => ∃ doc, answer = some doc ∧ r.IdentifiedBy doc := by
  rw [native_of_kind kind]
  refine built.bind fun d identifies => ?_
  exact identifies.ensures_document.bind fun doc identified =>
    Drafting.ensures_pure ⟨doc, rfl, identified⟩

theorem ensures_forNodes_identifies (store : Option Store) (p : Projector) (kind : r.kind = .node) :
    ((forNodes store p).build r []).Ensures fun d => d.Identifies r := by
  have start := p.ensures_native_identifies r
  rw [kind] at start
  refine start.bind fun d identifies => ?_
  refine (Drafting.ensures_true _).bind fun hostname _ => ?_
  exact identifies.ensures_putText kind (by decide) (by decide) hostname

theorem ensures_forPods_identifies {parts : PodParts}
    (inheriting : ∀ p, parts.space = some p → p.Inheriting) (kind : r.kind = .pod) :
    ((forPods parts).build r []).Ensures fun d => d.Identifies r := by
  have start := parts.projector.ensures_nativeInSpace_identifies inheriting r
  have owner (hop : Hop) : ¬ Text.ofString r.kind.field = Text.ofString hop.owner.field := by
    rw [kind]
    cases hop <;> decide
  have node : ¬ Text.ofString r.kind.field = Text.ofString Kind.node.field := by
    rw [kind]
    decide
  rw [kind] at start
  refine start.bind fun d identifies => ?_
  refine (Draft.sameBut_takeHop parts d .deployment).bind fun d same => ?_
  replace identifies := identifies.of_sameBut same (owner .deployment)
  refine (Draft.sameBut_takeHop parts d .cronJob).bind fun d same => ?_
  replace identifies := identifies.of_sameBut same (owner .cronJob)
  refine (Drafting.ensures_true _).bind fun nodeName _ => ?_
  refine (Draft.ensures_addNode _ d nodeName).bind fun d same => ?_
  replace identifies := identifies.of_sameBut same node
  refine (Drafting.ensures_true _).bind fun address _ => ?_
  exact identifies.ensures_putText kind (by decide) (by decide) address

end Generator

/-- Whatever was shared before, the documents that projectors and the generators of nodes,
controllers and pods make of a resource have its uid under its kind, and its name there unless a
reference names a controller of the same kind, whose name is there instead. -/
theorem native_identifies {space : Option Peer}
    (genuine : ∀ peer ∈ space, ∃ store projector,
      peer = (Generator.forNamespaces store projector).peer) (r : Resource) :
    (∀ p : Projector, (p.document space r.kind.field r []).Ensures r.IdentifiedBy) ∧
      (∀ store p, ((Generator.forControllers r.kind store p space).native (some r) []).Ensures
        fun answer => ∃ doc, answer = some doc ∧ r.IdentifiedBy doc) ∧
      (r.kind = .node → ∀ store p, ((Generator.forNodes store p).native (some r) []).Ensures
        fun answer => ∃ doc, answer = some doc ∧ r.IdentifiedBy doc) ∧
      (r.kind = .pod → ∀ parts : PodParts,
        ((Generator.forPods { parts with space }).native (some r) []).Ensures
          fun answer => ∃ doc, answer = some doc ∧ r.IdentifiedBy doc) := by
  have inheriting : ∀ peer, space = some peer → peer.Inheriting := by
    rintro peer here
    obtain ⟨store, projector, rfl⟩ := genuine peer here
    exact Generator.inheriting_forNamespaces store projector
  refine ⟨fun p => ?_, fun store p => ?_, fun kind store p => ?_, fun kind parts => ?_⟩
  · exact (p.ensures_nativeInSpace_identifies inheriting r).bind fun d identifies =>
      identifies.ensures_document
  · exact Generator.ensures_native_identified rfl (p.ensures_nativeInSpace_identifies inheriting r)
  · exact Generator.ensures_native_identified kind
      (Generator.ensures_forNodes_identifies store p kind)
  · exact Generator.ensures_native_identified kind
      (Generator.ensures_forPods_identifies inheriting kind)

def jobOfJob : Resource :=
  ⟨.job, 0, .object [("metadata", .object [("name", .string "a"), ("uid", .string "u"),
    ("ownerReferences", .array [.object [("kind", .string "Job"), ("name", .string "b"),
      ("controller", .bool true)]])])]⟩

/-- The document of the job has its own uid, but the name of the other. -/
theorem native_identifies_jobOfJob : ∃ doc,
    ((Generator.forControllers .job none {} (some (Generator.forNamespaces none {}).peer)).native
      (some jobOfJob) [] {}).1.result = .ok (some doc) ∧
      doc.get? ["job", "name"] = some (.string "b") ∧
      doc.get? ["job", "uid"] = some (.string "u") := by
  have genuine : ∀ peer ∈ some (Generator.forNamespaces none {}).peer, ∃ store projector,
      peer = (Generator.forNamespaces store projector).peer := by
    rintro _ ⟨⟩
    exact ⟨_, _, rfl⟩
  have finishes : ((Generator.forControllers .job none {}
      (some (Generator.forNamespaces none {}).peer)).native (some jobOfJob) []
        {}).1.result.toBool := by decide +kernel
  cases made : ((Generator.forControllers .job none {}
      (some (Generator.forNamespaces none {}).peer)).native (some jobOfJob) [] {}).1.result with
  | error fault =>
    rw [made] at finishes
    cases finishes
  | ok answer =>
    obtain ⟨doc, rfl, name, uid, named, marked, first, second⟩ :=
      (native_identifies genuine jobOfJob).2.1 none {} {} answer made
    cases marked
    exact ⟨doc, rfl, first, second⟩

end ClusterMetadata
