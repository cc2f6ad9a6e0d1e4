import ClusterMetadata.Json.Reader
import ClusterMetadata.Proofs.Filing
import ClusterMetadata.Proofs.NativeDraft

/-!
# Manifests whose parts have the right form

* `Resource.WellShaped`: every part that is read is blank or of the form that it should have;
* `Resource.PlainTexts`: every value that is read as text is blank or a scalar;
* `exists_entries`, `exists_references`, `exists_hostname` and the others: nothing that is read off
  such a resource is a fault, once it has an identity.
-/
namespace ClusterMetadata

open Json (Value Fields)

namespace Json.Value

def member (v : Value) (name : Text) : Value := Fields.value (v.fields?.getD []) name

/-- A value is blank or an object. -/
def IsPart (v : Value) : Prop := v.isBlank = true ∨ v.isObject = true

/-- A value is blank or an array of objects. -/
def IsRecords (v : Value) : Prop :=
  v.isBlank = true ∨ ∃ items, v = .array items ∧ ∀ item ∈ items, item.isObject = true

/-- A value is blank or has a text of one piece, with a number's digits no more than are read. -/
def IsScalar : Value → Prop
  | array items => items = []
  | object fields => fields = []
  | int n => (Nat.toDigits 10 n.natAbs).length ≤ maxIntegerDigits
  | _ => True

end Json.Value

namespace Resource

/-- The parts of a manifest that are looked into are blank or objects, and what lists owners, or the
addresses of a node, is blank or an array of objects. -/
structure WellShaped (r : Resource) : Prop where
  spec : (r.manifest.member "spec").IsPart
  status : (r.manifest.member "status").IsPart
  maps : ∀ map : MetadataMap, ((r.manifest.member "metadata").member map.field).IsPart
  owners : ((r.manifest.member "metadata").member "ownerReferences").IsRecords
  addresses : r.kind = .node → ((r.manifest.member "status").member "addresses").IsRecords

/-- Nothing is read as text but scalars. The text of a list or an object may be too deep to be
written, and that of a number too long. -/
structure PlainTexts (r : Resource) : Prop where
  identity : ∀ name ∈ (["name", "namespace", "uid"] : List Text),
    ((r.manifest.member "metadata").member name).IsScalar
  nodeName : ((r.manifest.member "spec").member "nodeName").IsScalar
  podAddress : ((r.manifest.member "status").member "podIP").IsScalar
  owners : ∀ items, (r.manifest.member "metadata").member "ownerReferences" = .array items →
    ∀ item ∈ items, ∀ name ∈ (["kind", "name", "uid"] : List Text), (item.member name).IsScalar
  addresses : ∀ items, (r.manifest.member "status").member "addresses" = .array items →
    ∀ item ∈ items, (item.member "address").IsScalar

end Resource

theorem exists_mapM {α β : Type} (read : α → Except Fault β) {items : List α}
    (each : ∀ item ∈ items, ∃ b, read item = .ok b) : ∃ bs, items.mapM read = .ok bs := by
  induction items with
  | nil => exact ⟨[], rfl⟩
  | cons item rest ih =>
    obtain ⟨b, first⟩ := each item List.mem_cons_self
    obtain ⟨bs, others⟩ := ih fun item mem => each item (List.mem_cons_of_mem _ mem)
    exact ⟨b :: bs, by rw [List.mapM_cons, first, others]; rfl⟩

namespace Json

theorem part_eq_ok {fields : Fields} {name : Text} (h : (fields.value name).IsPart) :
    fields.part name = .ok ((fields.value name).fields?.getD []) := by
  unfold Fields.part
  cases v : fields.value name with
  | object inner =>
    split
    · next blank =>
      rw [Value.isBlank, List.isEmpty_iff] at blank
      rw [blank]
      rfl
    · rfl
  | _ =>
    rw [v] at h
    rw [if_pos (h.resolve_right nofun)]
    rfl

/-- The items of records are objects. -/
theorem exists_items {v : Value} (h : v.IsRecords) :
    ∃ items, v.itemsOf = .ok items ∧ ∀ item ∈ items, ∃ fields, item = .object fields := by
  unfold Value.itemsOf
  split
  · exact ⟨[], rfl, nofun⟩
  · next filled =>
    obtain ⟨items, rfl, objects⟩ := h.resolve_left filled
    refine ⟨items, rfl, fun item mem => ?_⟩
    have isObject := objects item mem
    cases item with
    | object fields => exact ⟨fields, rfl⟩
    | _ => cases isObject

end Json

theorem Entries.exists_ofValue {v : Value} (h : v.IsPart) :
    ∃ entries, Entries.ofValue v = .ok entries ∧
      ∀ entry ∈ entries, (Entries.textKey? entry).isSome = true := by
  unfold Entries.ofValue
  split
  · exact ⟨[], rfl, nofun⟩
  · next filled =>
    cases v with
    | object fields =>
      refine ⟨_, rfl, fun entry mem => ?_⟩
      obtain ⟨field, -, rfl⟩ := List.mem_map.mp mem
      rfl
    | _ => exact absurd (h.resolve_left filled) nofun

/-- Entries with text for keys can be chosen from. -/
theorem Selection.exists_chosen (s : Selection) (map : MetadataMap) {entries : Entries}
    (text : ∀ entry ∈ entries, (Entries.textKey? entry).isSome = true) :
    ∃ chosen, s.chosen map entries = .ok chosen := by
  cases map with
  | annotations => exact ⟨_, rfl⟩
  | labels =>
    rw [Selection.chosen, Selection.chosenLabels]
    split
    · rw [Entries.named, if_pos]
      · exact ⟨_, rfl⟩
      · exact List.all_eq_true.mpr fun entry mem => text entry (List.mem_filter.mp mem).1
    · exact ⟨_, rfl⟩

namespace Resource

variable {r : Resource}

theorem exists_metadata {id : Identity} (h : r.identity = .ok id) :
    ∃ metadata, r.metadata = .ok metadata := by
  have named := (identity_eq_ok.mp h).2.2
  unfold name at named
  cases read : r.metadata with
  | error fault =>
    rw [read] at named
    cases named
  | ok metadata => exact ⟨metadata, rfl⟩

section

variable {metadata : Fields} (known : r.metadata = .ok metadata)
include known

theorem exists_manifest : ∃ all, r.manifest = .object all := by
  unfold Resource.metadata part at known
  cases manifest : r.manifest with
  | object all => exact ⟨all, rfl⟩
  | _ =>
    rw [manifest] at known
    cases known

/-- The metadata that is read is what stands under its name. -/
theorem member_metadata (name : Text) :
    (r.manifest.member "metadata").member name = metadata.value name := by
  obtain ⟨all, manifest⟩ := exists_manifest known
  unfold Resource.metadata part at known
  rw [manifest] at known ⊢
  have read : Fields.part all "metadata" = .ok metadata := known
  unfold Fields.part at read
  have there : (Value.object all).member "metadata" = Fields.value all "metadata" := rfl
  rw [there, Value.member]
  cases v : Fields.value all "metadata" with
  | object inner =>
    rw [v] at read
    split at read
    · next blank =>
      rw [Value.isBlank, List.isEmpty_iff] at blank
      cases read
      rw [blank]
      rfl
    · cases read
      rfl
  | _ =>
    rw [v] at read
    split at read
    · cases read
      rfl
    · cases read

/-- A part of the manifest that has the right form. -/
theorem part_eq_ok {name : Text} (h : (r.manifest.member name).IsPart) : ∃ fields,
    r.part name = .ok fields ∧ ∀ inner, (r.manifest.member name).member inner = fields.value inner := by
  obtain ⟨all, manifest⟩ := exists_manifest known
  rw [manifest] at h ⊢
  refine ⟨_, ?_, fun _ => rfl⟩
  rw [part, manifest]
  exact Json.part_eq_ok h

theorem exists_name : ∃ name, r.name = .ok name := ⟨metadata.text "name", by rw [name, known]; rfl⟩

theorem exists_uid : ∃ uid, r.uid = .ok uid := ⟨metadata.text "uid", by rw [uid, known]; rfl⟩

theorem exists_space : ∃ space, r.space = .ok space := by
  unfold space
  split
  · exact ⟨metadata.text "namespace", by rw [known]; rfl⟩
  · exact ⟨"", rfl⟩

variable (shaped : r.WellShaped)
include shaped

theorem exists_entries (map : MetadataMap) : ∃ entries, r.entries map = .ok entries ∧
    ∀ entry ∈ entries, (Entries.textKey? entry).isSome = true := by
  have isPart := shaped.maps map
  rw [member_metadata known] at isPart
  obtain ⟨entries, read, text⟩ := Entries.exists_ofValue isPart
  exact ⟨entries, by rw [Resource.entries, known]; exact read, text⟩

theorem exists_references : ∃ refs, r.ownerReferences = .ok refs := by
  have records := shaped.owners
  rw [member_metadata known] at records
  obtain ⟨items, read, objects⟩ := Json.exists_items records
  obtain ⟨refs, all⟩ := exists_mapM OwnerReference.ofValue fun item mem => by
    obtain ⟨fields, rfl⟩ := objects item mem
    exact ⟨_, rfl⟩
  refine ⟨refs, ?_⟩
  rw [ownerReferences, known]
  exact (congrArg (· >>= List.mapM OwnerReference.ofValue) read).trans all

theorem exists_nodeName : ∃ name, r.nodeName = .ok name := by
  obtain ⟨fields, read, -⟩ := part_eq_ok known shaped.spec
  exact ⟨fields.text "nodeName", by rw [nodeName, read]; rfl⟩

theorem exists_podAddress : ∃ address, r.podAddress = .ok address := by
  obtain ⟨fields, read, -⟩ := part_eq_ok known shaped.status
  exact ⟨fields.text "podIP", by rw [podAddress, read]; rfl⟩

theorem exists_hostname (node : r.kind = .node) : ∃ hostname, r.hostname = .ok hostname := by
  obtain ⟨fields, read, there⟩ := part_eq_ok known shaped.status
  have records := shaped.addresses node
  rw [there] at records
  obtain ⟨items, listed, objects⟩ := Json.exists_items records
  have found : ∃ hostname, firstHostname items = .ok hostname := by
    clear listed
    induction items with
    | nil => exact ⟨"", rfl⟩
    | cons item rest ih =>
      obtain ⟨fields, rfl⟩ := objects item List.mem_cons_self
      have others := ih fun item mem => objects item (List.mem_cons_of_mem _ mem)
      by_cases here : Json.Fields.value fields "type" = .string "Hostname" ∧
          !(Json.Fields.value fields "address").isBlank
      · exact ⟨_, if_pos here⟩
      · exact others.imp fun hostname found => (if_neg here).trans found
  obtain ⟨hostname, found⟩ := found
  refine ⟨hostname, ?_⟩
  rw [Resource.hostname, read]
  exact (congrArg (· >>= firstHostname) listed).trans found

end

/-- The orchestrator document of a resource with an identity can be made. -/
theorem exists_orchestrator (p : Projector) {metadata : Fields} (known : r.metadata = .ok metadata) :
    ∃ document, p.orchestrator (some r) = .ok document := by
  obtain ⟨name, named⟩ := exists_name known
  obtain ⟨uid, identified⟩ := exists_uid known
  obtain ⟨space, home⟩ := exists_space known
  simp only [Projector.orchestrator, named, identified, home]
  exact ⟨_, rfl⟩

end Resource

end ClusterMetadata
