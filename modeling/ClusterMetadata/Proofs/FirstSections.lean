import ClusterMetadata.Proofs.AssembledPods

/-!
# Sections that are made first

The section of a resource that is made before any other is the one that a document has of the chosen
entries: the maps among them are lent as the manifest has them.

* `distinct_chosen`: no key comes twice among the chosen entries;
* `Selection.sectionOf`: the section of a resource, without a shelf;
* `first_eq`: the first section is this one;
* `Projector.plain`: the native document of a resource, without a shelf;
* `goes_plain`, `plain_of_document`: what the native draft shows where nothing was made before;
* `document_eq_ok`: the document of a resource by itself is made just when the manifest makes one.
-/
namespace ClusterMetadata

open Json (Value Fields)
open Drafting (Goes)
open Inventory (Moves)

/-! ## Keys of entries -/

namespace Entries

def ofFields (fields : Fields) : Entries := fields.map fun field => (.string field.1, field.2)

theorem textFields_ofFields (fields : Fields) : (ofFields fields).textFields = fields := by
  rw [ofFields, textFields, List.filterMap_map]
  exact List.filterMap_some

theorem textKey?_eq_some {entry : Value × Value} {field : Text × Value} :
    textKey? entry = some field ↔ entry = (.string field.1, field.2) := by
  obtain ⟨key, value⟩ := entry
  obtain ⟨text, v⟩ := field
  cases key <;> simp [textKey?]

/-- Of two keys that are the same both are one text, or neither is text. -/
theorem sameKey_cases {k key : Value} (same : sameKey k key = true) :
    (∃ text, k = .string text ∧ key = .string text) ∨
      ∀ v, textKey? (k, v) = none ∧ textKey? (key, v) = none := by
  cases k <;> cases key <;> simp_all [sameKey, integer?, textKey?]

/-- Inserting an entry inserts its text, or leaves the texts as they are. -/
theorem textFields_insert (entries : Entries) (key value : Value) :
    (insert entries key value).textFields =
      (textKey? (key, value)).elim entries.textFields fun field =>
        Table.insert entries.textFields field.1 field.2 := by
  induction entries with
  | nil => cases key <;> rfl
  | cons entry rest ih =>
    obtain ⟨k, v⟩ := entry
    rw [textFields] at ih
    rw [insert]
    split
    · next same =>
      rcases sameKey_cases same with ⟨text, rfl, rfl⟩ | plain
      · simp [textFields, textKey?, Table.insert]
      · rw [textFields, textFields, List.filterMap_cons, List.filterMap_cons, (plain v).1,
          (plain value).1, (plain value).2, Option.elim_none]
    · next differ =>
      rw [textFields, textFields, List.filterMap_cons, List.filterMap_cons, ih]
      cases first : textKey? (k, v) with
      | none => rfl
      | some field =>
        cases taken : textKey? (key, value) with
        | none => rfl
        | some field' =>
          have apart : field.1 ≠ field'.1 := by
            intro same
            cases textKey?_eq_some.mp first
            cases textKey?_eq_some.mp taken
            simp [sameKey, integer?, same] at differ
          simp only [Option.elim_some, Table.insert, if_neg apart]
          rfl

theorem distinct_textFields_insert {entries : Entries}
    (distinct : Table.Distinct entries.textFields) (key value : Value) :
    Table.Distinct (insert entries key value).textFields := by
  rw [textFields_insert]
  cases textKey? (key, value) with
  | none => exact distinct
  | some field => exact Table.distinct_insert distinct field.1 field.2

/-- No text comes twice among the entries of a value. -/
theorem distinct_ofValue {v : Value} (proper : v.Proper) {entries : Entries}
    (read : ofValue v = .ok entries) : Table.Distinct entries.textFields := by
  refine ofValue_keeps (motive := fun entries => Table.Distinct entries.textFields) ?_ ?_ ?_ read
  · simp [textFields, Table.Distinct, Table.keys]
  · rintro fields rfl
    have own : textFields (fields.map fun field => (.string field.1, field.2)) = fields :=
      textFields_ofFields fields
    rw [own]
    exact proper.1
  · exact fun _ _ _ _ key value _ others distinct => distinct_textFields_insert distinct key value

end Entries

theorem Resource.distinct_entries {r : Resource} (proper : r.manifest.Proper) {map : MetadataMap}
    {entries : Entries} (read : r.entries map = .ok entries) :
    Table.Distinct entries.textFields := by
  obtain ⟨metadata, found, read⟩ := Json.bind_eq_ok.mp read
  obtain ⟨fields, whole, part⟩ := Json.bind_eq_ok.mp found
  have own := Json.proper_part (Json.proper_fieldsOf proper whole) part
  exact Entries.distinct_ofValue (Json.proper_value own map.field) read

namespace Selection

theorem distinct_chosen {s : Selection} {map : MetadataMap} {entries : Entries}
    (distinct : Table.Distinct entries.textFields) {chosen : Fields}
    (taken : s.chosen map entries = .ok chosen) : Table.Distinct chosen := by
  obtain ⟨among, part, rfl | ⟨names, rfl⟩⟩ := chosen_cases taken
  · have texts : among.textFields.Sublist entries.textFields := part.filterMap _
    exact (texts.map Prod.fst).nodup distinct
  · exact Table.distinct_ofEntries _

def sectionOf (s : Selection) (r : Resource) (map : MetadataMap) : Except Fault Document := do
  return Document.ofMap (s.dedot map) (← s.chosen map (← r.entries map))

/-- What goes into the sections of resources that are all read with one selection. -/
def terms (s : Selection) : Terms where
  entries lender := s.entriesOf lender.owner lender.map
  dedot lender := s.dedot lender.map

theorem settled_terms (s : Selection) {r : Resource} (proper : r.manifest.Proper) :
    s.Settled s.terms r :=
  ⟨fun _ => rfl, fun _ => rfl, s.proper_entriesOf proper⟩

end Selection

/-! ## The first section -/

namespace Draft

/-- Where no key comes twice, the map that is lent under a key is the value of its entry. -/
theorem lentMap?_of_mem {entries : Fields} (distinct : Table.Distinct entries)
    {entry : Text × Value} (mem : entry ∈ entries) :
    lentMap? entries entry.1 = entry.2.fields? := by
  induction entries with
  | nil => cases mem
  | cons first rest ih =>
    obtain ⟨apart, distinct⟩ := List.nodup_cons.mp distinct
    rw [lentMap?, List.findSome?_cons, ← lentMap?]
    rcases List.mem_cons.mp mem with rfl | later
    · have unlent : lentMap? rest entry.1 = none := by
        rw [lentMap?, List.findSome?_eq_none_iff]
        intro other mem
        have differ : other.1 ≠ entry.1 := fun same => apart (same ▸ List.mem_map_of_mem mem)
        exact if_neg differ
      rw [if_pos rfl, unlent]
      cases entry.2.fields? <;> rfl
    · have other : first.1 ≠ entry.1 := fun same => apart (same ▸ List.mem_map_of_mem later)
      rw [if_neg other]
      exact ih distinct later

/-- Maps that hold what the manifest has make the section that a document has. -/
theorem sectionWith_lentMap? {entries : Fields} (distinct : Table.Distinct entries) (dedot : Bool) :
    sectionWith dedot entries (lentMap? entries) = entries.foldl (Document.addEntry dedot) [] := by
  have held : entries.map (fun entry => (entry.1, heldValue (lentMap? entries) entry)) =
      entries := by
    refine (List.map_congr_left fun entry mem => ?_).trans (List.map_id entries)
    rw [heldValue, lentMap?_of_mem distinct mem]
    obtain ⟨key, v⟩ := entry
    cases v <;> rfl
  rw [sectionWith, ← List.foldl_map, held]

end Draft

/-- The section that is made first is the one that a document has of the chosen entries. -/
theorem Selection.Settled.first_eq {terms : Terms} {selection : Selection} {r : Resource}
    (settled : selection.Settled terms r) (proper : r.manifest.Proper) {map : MetadataMap}
    {entries : Entries} (read : r.entries map = .ok entries) {chosen : Fields}
    (taken : selection.chosen map entries = .ok chosen) :
    terms.first ⟨map, r⟩ = Document.ofMap (selection.dedot map) chosen := by
  have distinct : Table.Distinct (Json.sortFields chosen) := by
    have own := Selection.distinct_chosen (Resource.distinct_entries proper read) taken
    exact ((Json.sortFields_perm chosen).map Prod.fst).nodup_iff.mpr own
  rw [Terms.first, settled.entries, settled.dedot, Selection.entriesOf_eq read taken,
    Draft.sectionWith_lentMap? distinct]
  rfl

namespace Projector

/-- The native document of a resource, made of what its manifest has. -/
def plain (p : Projector) (field : Text) (r : Resource) : Except Fault Document := do
  let labels ← p.selection.sectionOf r .labels
  let annotations ← p.selection.sectionOf r .annotations
  let own := Document.identifying field (← r.name) (← r.uid) (← r.space) (← r.ownerReferences)
  return (own.insertSection .labels labels).insertSection .annotations annotations

/-- The parts of which the native document of a resource is made. -/
structure Reads (p : Projector) (r : Resource) (labels annotations : Document)
    (name uid space : Text) (refs : List OwnerReference) : Prop where
  labels : p.selection.sectionOf r .labels = .ok labels
  annotations : p.selection.sectionOf r .annotations = .ok annotations
  name : r.name = .ok name
  uid : r.uid = .ok uid
  space : r.space = .ok space
  refs : r.ownerReferences = .ok refs

theorem plain_eq_ok {p : Projector} {field : Text} {r : Resource} {doc : Document} :
    p.plain field r = .ok doc ↔ ∃ labels annotations name uid space refs,
      p.Reads r labels annotations name uid space refs ∧
        doc = ((Document.identifying field name uid space refs).insertSection .labels
          labels).insertSection .annotations annotations := by
  constructor
  · intro made
    obtain ⟨labels, labelled, made⟩ := Json.bind_eq_ok.mp made
    obtain ⟨annotations, annotated, made⟩ := Json.bind_eq_ok.mp made
    obtain ⟨name, named, made⟩ := Json.bind_eq_ok.mp made
    obtain ⟨uid, known, made⟩ := Json.bind_eq_ok.mp made
    obtain ⟨space, home, made⟩ := Json.bind_eq_ok.mp made
    obtain ⟨refs, owners, made⟩ := Json.bind_eq_ok.mp made
    cases made
    exact ⟨labels, annotations, name, uid, space, refs,
      ⟨labelled, annotated, named, known, home, owners⟩, rfl⟩
  · rintro ⟨labels, annotations, name, uid, space, refs, reads, rfl⟩
    rw [plain, reads.labels, reads.annotations, reads.name, reads.uid, reads.space, reads.refs]
    rfl

variable {terms : Terms} (p : Projector) {r : Resource} (settled : p.selection.Settled terms r)
  (proper : r.manifest.Proper)
include settled proper

/-- A section that was not made yet is the one of the manifest. -/
theorem goes_sectionOf (map : MetadataMap) {i : Inventory}
    (first : i.Gives terms ⟨map, r⟩ (terms.first ⟨map, r⟩)) :
    Goes terms (· = ⟨map, r⟩) i (p.sectionOf r map) fun left d => ∃ shown,
      p.selection.sectionOf r map = .ok shown ∧
        Draft.Presents left (·.lender = ⟨map, r⟩) shown d := by
  unfold sectionOf
  apply Drafting.goes_read
  intro entries read
  apply Drafting.goes_read
  intro chosen taken
  have made : p.selection.sectionOf r map =
      .ok (Document.ofMap (p.selection.dedot map) chosen) :=
    Json.bind_eq_ok.mpr ⟨entries, read, Json.bind_eq_ok.mpr ⟨chosen, taken, rfl⟩⟩
  have own : terms.entries ⟨map, r⟩ = Json.sortFields chosen :=
    (settled.entries map).trans (Selection.entriesOf_eq read taken)
  have values : ∀ entry ∈ terms.entries ⟨map, r⟩, entry.2.Proper := by
    rw [settled.entries]
    exact settled.proper map
  obtain ⟨d, left, run, touches, presents, after⟩ := Draft.ofMap_gives own values first
  rw [settled.dedot] at run
  rw [settled.first_eq proper read taken] at presents
  exact Drafting.goes_run run (.of_touches touches first after) ⟨_, made, presents⟩

/-- What the native draft of a resource shows when none of its sections was made yet. -/
theorem goes_plain (field : Text) :
    Goes terms (·.owner = r) .bare (p.native field r []) fun left d => ∃ doc,
      p.plain field r = .ok doc ∧ Draft.Drawn sectionFields r left doc d := by
  have owned {map : MetadataMap} {lender : Lender} (same : lender = ⟨map, r⟩) :
      lender.owner = r := by
    rw [same]
  have start (map : MetadataMap) := Inventory.gives_bare terms ⟨map, r⟩
  rw [native_eq]
  refine ((p.goes_sectionOf settled proper .labels (start .labels)).moving fun _ => owned).bind
    fun i₁ labels _ made₁ => ?_
  obtain ⟨moves₁, shown, labelled, presents⟩ := made₁
  -- Labels and annotations are lent apart, so the annotations were not made with the labels.
  have due : i₁.Gives terms ⟨.annotations, r⟩ (terms.first ⟨.annotations, r⟩) :=
    moves₁.apart (by simp) (start .annotations)
  refine ((p.goes_sectionOf settled proper .annotations due).moving fun _ => owned).bind
    fun i₂ annotations _ made₂ => ?_
  obtain ⟨moves₂, shown', annotated, presents'⟩ := made₂
  have kept : Draft.Presents i₂ (·.lender = ⟨.labels, r⟩) shown labels :=
    presents.of_changes moves₂.changes (fun _ _ => id) fun p own used => by
      rw [own] at used
      cases used
  apply Drafting.goes_read
  intro name named
  apply Drafting.goes_read
  intro uid known
  apply Drafting.goes_read
  intro space home
  apply Drafting.goes_read
  intro refs owners
  have owned {map : MetadataMap} (p : Place) (same : p.lender = ⟨map, r⟩) : p.lender.owner = r :=
    owned same
  exact Drafting.goes_pure ⟨_, plain_eq_ok.mpr ⟨shown, shown', name, uid, space, refs,
    ⟨labelled, annotated, named, known, home, owners⟩, rfl⟩,
    Draft.drawn_assembled (kept.mono owned) (presents'.mono owned) field name uid space refs⟩

/-- The document of a resource by itself is the one that its manifest makes. -/
theorem plain_of_document {field : Text} {doc : Document}
    (made : (p.document none field r []).fromStart.result = .ok doc) :
    p.plain field r = .ok doc := by
  rw [document_alone] at made
  obtain ⟨d, built, rest⟩ := Drafting.result_bind_eq_ok.mp made
  obtain ⟨left, here, -, doc', plain, drawn⟩ := p.goes_plain settled proper field d built
  have shelf : (p.native field r [] {}).2 = left.shelf := here
  rw [shelf, Draft.document_of_shows drawn.presents.shows] at rest
  cases rest
  exact plain

end Projector

/-! ## Documents without a shelf -/

namespace Projector

variable {p : Projector} {r : Resource}

/-- A section that the manifest makes is made on every shelf. -/
theorem exists_section {map : MetadataMap} {shown : Document}
    (made : p.selection.sectionOf r map = .ok shown) (shelf : Shelf) :
    ∃ d, (p.sectionOf r map shelf).1.result = .ok d := by
  obtain ⟨entries, read, made⟩ := Json.bind_eq_ok.mp made
  obtain ⟨chosen, taken, -⟩ := Json.bind_eq_ok.mp made
  refine Drafting.exists_result_bind (a := entries) read ?_
  exact Drafting.exists_result_bind (a := chosen) taken ⟨_, rfl⟩

/-- A native draft is made on every shelf where the manifest makes a document. -/
theorem exists_native {field : Text} {doc : Document} (plain : p.plain field r = .ok doc)
    (shelf : Shelf) : ∃ d, (p.native field r [] shelf).1.result = .ok d := by
  obtain ⟨labels, annotations, name, uid, space, refs, reads, -⟩ := plain_eq_ok.mp plain
  obtain ⟨own, labelled⟩ := exists_section reads.labels shelf
  obtain ⟨further, annotated⟩ := exists_section reads.annotations (p.sectionOf r .labels shelf).2
  rw [native_eq]
  refine Drafting.exists_result_bind labelled ?_
  refine Drafting.exists_result_bind annotated ?_
  refine Drafting.exists_result_bind (a := name) reads.name ?_
  refine Drafting.exists_result_bind (a := uid) reads.uid ?_
  refine Drafting.exists_result_bind (a := space) reads.space ?_
  exact Drafting.exists_result_bind (a := refs) reads.refs ⟨_, rfl⟩

/-- The document of a resource by itself is made when its manifest makes one, and is that one. -/
theorem document_eq_ok (proper : r.manifest.Proper) {field : Text} {doc : Document} :
    (p.document none field r []).fromStart.result = .ok doc ↔ p.plain field r = .ok doc := by
  have settled := p.selection.settled_terms proper
  refine ⟨p.plain_of_document settled proper, fun plain => ?_⟩
  obtain ⟨d, built⟩ := exists_native plain {}
  obtain ⟨left, here, -, doc', plain', drawn⟩ := p.goes_plain settled proper field d built
  rw [plain] at plain'
  cases plain'
  have shelf : (p.native field r [] {}).2 = left.shelf := here
  rw [document_alone]
  refine Drafting.result_bind_eq_ok.mpr ⟨d, built, ?_⟩
  rw [shelf, Draft.document_of_shows drawn.presents.shows]
  rfl

end Projector

end ClusterMetadata
