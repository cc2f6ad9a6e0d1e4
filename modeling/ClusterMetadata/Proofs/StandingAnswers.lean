import ClusterMetadata.Proofs.AssembledPods
import ClusterMetadata.Proofs.RootedDrafts
import ClusterMetadata.Proofs.StandingShelves
import ClusterMetadata.Proofs.WellShaped

/-!
# What peers answer where pods have had their way

Namespaces, nodes and controllers answer with sections of their own, whatever pods have written into
theirs. A question fails only for what is wrong with a resource that is read.

* `Faulty`: what can be wrong with resources that are read;
* `stays_identifying`: what is read off a resource besides its sections;
* `stays_sectionOf`, `stays_native`: the sections and the draft of a resource that is no pod;
* `stays_forNamespaces`, `stays_forNodes`, `stays_forControllers`: the answers.
-/
namespace ClusterMetadata

open Json (Value Fields)
open Inventory (Touches)
open Drafting (Stays stays_pure stays_read)

/-- What is wrong with a resource that is read: a part of it has not the right form, or a section of
a namespace goes deeper than a merge does. -/
inductive Faulty (terms : Terms) (reads : Resource → Prop) : Fault → Prop
  | misshapen {r : Resource} {fault : Fault} : reads r → ¬ r.WellShaped → Faulty terms reads fault
  | tooDeep {r : Resource} {map : MetadataMap} {shown : Document} : reads r →
      r.kind = .namespace → terms.Turn ⟨map, r⟩ shown →
      Document.mergingRoom < Document.valueRoom (.object shown) → Faulty terms reads .tooDeep

variable {terms : Terms} {reads : Resource → Prop} {r : Resource}

/-- What can be read off a resource of the right form. -/
theorem faulty_of_error {α : Type} {x : Except Fault α} (read : reads r)
    (fine : r.WellShaped → ∃ a, x = .ok a) (fault : Fault) (raised : x = .error fault) :
    Faulty terms reads fault := by
  refine .misshapen read fun shaped => ?_
  obtain ⟨a, made⟩ := fine shaped
  rw [made] at raised
  cases raised

/-- What can always be read. -/
theorem faulty_of_made {α : Type} {x : Except Fault α} (made : ∃ a, x = .ok a) (fault : Fault)
    (raised : x = .error fault) : Faulty terms reads fault := by
  obtain ⟨a, made⟩ := made
  rw [made] at raised
  cases raised

namespace Document

theorem get?_insertSection (d : Document) (map : MetadataMap) (fields : Fields) (name : Text) :
    Table.get? (d.insertSection map fields) name =
      if map.field = name ∧ fields.isEmpty = false then some (.object fields)
      else Table.get? d name := by
  unfold insertSection
  cases fields.isEmpty with
  | true => simp
  | false => simp [Table.get?_insert]

/-- A field that is no section is as it was before the sections were put in. -/
theorem get?_sections_other {name : Text} (outside : ∀ map : MetadataMap, map.field ≠ name)
    (d : Document) (labels annotations : Fields) :
    Table.get? ((d.insertSection .labels labels).insertSection .annotations annotations) name =
      Table.get? d name := by
  rw [get?_insertSection, if_neg fun h => outside _ h.1, get?_insertSection,
    if_neg fun h => outside _ h.1]

/-- What identifies a resource is no section. -/
theorem get?_identifying_section {field : Text} (outside : field ∉ sectionFields)
    (name uid space : Text) (refs : List OwnerReference) (map : MetadataMap) :
    Table.get? (identifying field name uid space refs) map.field = none := by
  have controllers (kind : Kind) (controller : kind.isController) :
      Text.ofString kind.field ≠ map.field := by
    revert controller
    cases kind <;> cases map <;> decide
  have own : field ≠ map.field := fun same => outside (same ▸ field_mem_sectionFields map)
  have apart : ("namespace" : Text) ≠ map.field := by cases map <;> decide
  rw [identifying, get?_foldl_putOwner_other controllers]
  split <;> simp [Table.get?_insert, Table.get?, own, apart]

/-- The sections of a document are the ones that were put in. -/
theorem get?_sections {d : Document} (plain : ∀ map : MetadataMap, Table.get? d map.field = none)
    (labels annotations : Fields) :
    Table.get? ((d.insertSection .labels labels).insertSection .annotations annotations)
        MetadataMap.labels.field = (if labels.isEmpty then none else some (.object labels)) ∧
      Table.get? ((d.insertSection .labels labels).insertSection .annotations annotations)
        MetadataMap.annotations.field =
          if annotations.isEmpty then none else some (.object annotations) := by
  have distinct : MetadataMap.labels.field ≠ MetadataMap.annotations.field := by decide
  rw [get?_insertSection, get?_insertSection, get?_insertSection, get?_insertSection, plain, plain]
  constructor
  · rw [if_neg fun h => distinct h.1.symm]
    cases labels.isEmpty <;> simp
  · rw [if_neg (c := MetadataMap.labels.field = MetadataMap.annotations.field ∧ _)
      fun h => distinct h.1]
    cases annotations.isEmpty <;> simp

end Document

namespace Projector

variable (p : Projector) {shelf : Shelf} {i : Inventory} (standing : Standing terms shelf i)
  (read : reads r) {metadata : Fields} (known : r.metadata = .ok metadata)
include standing read known

/-- A section is what becomes of entries that were chosen, when they can be read. -/
theorem stays_chosen (map : MetadataMap) {post : Shelf → Inventory → Draft → Prop}
    (made : ∀ chosen, (r.entries map >>= p.selection.chosen map) = .ok chosen →
      Stays terms (Faulty terms reads) shelf i
        (liftM (Draft.ofMap ⟨map, r⟩ (p.selection.dedot map) chosen) : Drafting Draft) post) :
    Stays terms (Faulty terms reads) shelf i (p.sectionOf r map) post := by
  unfold sectionOf
  refine stays_read standing (faulty_of_error read fun shaped => ?_) fun entries here => ?_
  · obtain ⟨entries, here, -⟩ := Resource.exists_entries known shaped map
    exact ⟨entries, here⟩
  · refine stays_read standing (faulty_of_error read fun shaped => ?_) fun chosen taken => ?_
    · obtain ⟨same, here', text⟩ := Resource.exists_entries known shaped map
      rw [here] at here'
      cases here'
      exact p.selection.exists_chosen map text
    · refine made chosen ?_
      rw [here]
      exact taken

omit p in
/-- What a draft says of a resource besides its sections is read off it in turn. -/
theorem stays_identifying {α : Type} {f : Text → Text → Text → List OwnerReference → Drafting α}
    {post : Shelf → Inventory → α → Prop} (made : ∀ name uid space refs,
      Stays terms (Faulty terms reads) shelf i (f name uid space refs) post) :
    Stays terms (Faulty terms reads) shelf i (do
      let name ← r.name
      let uid ← r.uid
      let space ← r.space
      let refs ← r.ownerReferences
      f name uid space refs) post := by
  refine stays_read standing (faulty_of_made (Resource.exists_name known)) fun name _ => ?_
  refine stays_read standing (faulty_of_made (Resource.exists_uid known)) fun uid _ => ?_
  refine stays_read standing (faulty_of_made (Resource.exists_space known)) fun space _ => ?_
  exact stays_read standing (faulty_of_error read (Resource.exists_references known))
    fun refs _ => made name uid space refs

variable (settled : p.selection.Settled terms r) (other : r.kind ≠ .pod)
include settled other

/-- The section of a resource that is no pod shows what is due. -/
theorem stays_sectionOf (map : MetadataMap) :
    Stays terms (Faulty terms reads) shelf i (p.sectionOf r map) fun _ i' d =>
      Touches ⟨map, r⟩ i i' ∧ ∃ shown, terms.Turn ⟨map, r⟩ shown ∧
        Draft.Presents i' (·.lender = ⟨map, r⟩) shown d := by
  refine p.stays_chosen standing read known map fun chosen taken => ?_
  have own : terms.entries ⟨map, r⟩ = Json.sortFields chosen := by
    rw [settled.entries, Selection.entriesOf, taken]
  have proper : ∀ entry ∈ terms.entries ⟨map, r⟩, entry.2.Proper := by
    rw [settled.entries]
    exact settled.proper map
  have notPod : ¬ Lender.OfPod ⟨map, r⟩ := other
  obtain ⟨shown, turn, gives⟩ := standing.due _ notPod
  obtain ⟨d, i', run, touches, presents, next⟩ := Draft.ofMap_gives own proper gives
  rw [settled.dedot] at run
  refine Drafting.stays_others standing (Veil.works_ofMap standing.twins notPod _ _) run
    touches.changes (fun lender apart => ?_) fun _ _ => ⟨touches, shown, turn, presents⟩
  by_cases same : lender = ⟨map, r⟩
  · subst same
    exact ⟨_, .next turn, next⟩
  · obtain ⟨shown, turn, gives⟩ := standing.due lender apart
    exact ⟨shown, turn, touches.gives same gives⟩

/-- The draft of a resource that is no pod shows sections that are due. -/
theorem stays_native {field : Text} (outside : field ∉ sectionFields) :
    Stays terms (Faulty terms reads) shelf i (p.native field r []) fun _ i' d =>
      ∃ doc, Draft.Drawn sectionFields r i' doc d ∧ ∀ (map : MetadataMap) v,
        Table.get? doc map.field = some v →
          ∃ shown, terms.Turn ⟨map, r⟩ shown ∧ v = .object shown := by
  rw [native_eq]
  refine (p.stays_sectionOf standing read known settled other .labels).bind ?_
  rintro _ i₁ labels standing - ⟨-, shown, turn, presents⟩
  refine (p.stays_sectionOf standing read known settled other .annotations).bind ?_
  rintro _ i₂ annotations standing - ⟨touches, shown', turn', presents'⟩
  refine stays_identifying standing read known fun name uid space refs => ?_
  have later : Draft.Presents i₂ (·.lender = ⟨.labels, r⟩) shown labels :=
    presents.of_changes touches.changes (fun _ _ => id) fun p here there => by
      rw [here] at there
      cases there
  have owned (map : MetadataMap) (p : Place) (same : p.lender = ⟨map, r⟩) : p.lender.owner = r := by
    rw [same]
  have drawn := Draft.drawn_assembled (later.mono (owned .labels))
    (presents'.mono (owned .annotations)) field name uid space refs
  have sections := Document.get?_sections
    (Document.get?_identifying_section outside name uid space refs) shown shown'
  refine stays_pure standing ⟨_, drawn, fun map v there => ?_⟩
  cases map with
  | labels =>
    rw [sections.1] at there
    split at there
    · cases there
    · exact ⟨shown, turn, (Option.some.inj there).symm⟩
  | annotations =>
    rw [sections.2] at there
    split at there
    · cases there
    · exact ⟨shown', turn', (Option.some.inj there).symm⟩

end Projector

/-! ## Namespaces -/

namespace Document

theorem fieldsRoom_insert (d : Document) (name : Text) (v : Value) :
    fieldsRoom (Table.insert d name v) ≤ max (fieldsRoom d) (valueRoom v) := by
  induction d with
  | nil => simp only [Table.insert, fieldsRoom]; omega
  | cons field rest ih =>
    obtain ⟨key, w⟩ := field
    rw [Table.insert]
    split <;> simp only [fieldsRoom] at ih ⊢ <;> omega

/-- What is inherited is as deep as a section is, or hardly deep at all. -/
theorem exists_deep {space uid : Text} {base : Document}
    (deep : mergingRoom < fieldsRoom (inheritable space uid base)) : ∃ (map : MetadataMap) (v : Value),
      Table.get? base map.field = some v ∧ mergingRoom < valueRoom v := by
  have start : fieldsRoom [("namespace", .string space), ("namespace_uid", .string uid)] ≤
      mergingRoom := by
    simp [fieldsRoom, valueRoom, putSteps, mergingRoom, Value.copySteps]
  have step (map : MetadataMap) {d : Document}
      (deep : mergingRoom < fieldsRoom (base.inheritSection d map)) :
      mergingRoom < fieldsRoom d ∨
        ∃ v, Table.get? base map.field = some v ∧ mergingRoom < valueRoom v := by
    unfold inheritSection at deep
    split at deep
    · next v there =>
      have := fieldsRoom_insert d (Text.ofString "namespace_" ++ map.field) v
      rcases Nat.lt_or_ge mergingRoom (valueRoom v) with further | fits
      · exact .inr ⟨v, there, further⟩
      · exact .inl (by omega)
    · exact .inl deep
  rcases step .annotations deep with deep | ⟨v, there, further⟩
  · rcases step .labels deep with deep | ⟨v, there, further⟩
    · exact absurd start (Nat.not_le_of_lt deep)
    · exact ⟨.labels, v, there, further⟩
  · exact ⟨.annotations, v, there, further⟩

end Document

theorem Draft.only_inheritable {own : SharedMap → Prop} {base : Draft} (h : Only own base)
    (space uid : Text) : Only own (Generator.inheritable space uid base) := by
  have start : Only own ([("namespace", .ofText space), ("namespace_uid", .ofText uid)] : Draft) :=
    ⟨trivial, trivial, trivial⟩
  have step (map : MetadataMap) {d : Draft} (only : Only own d) :
      Only own (base.inheritSection d map) := by
    unfold inheritSection
    split
    · next node there => exact only.insert _ (h.get? there)
    · exact only
  exact step .annotations (step .labels start)

/-- A draft has inherited fields, with maps of resources that are no pods. When it goes too deep to
be merged, a section of a namespace does. -/
def Draft.Inheritable (terms : Terms) (reads : Resource → Prop) (shelf : Shelf) (i : Inventory)
    (d : Draft) : Prop :=
  ∃ doc, ShowsFields shelf doc d ∧ Only i.OtherMap d ∧
    (∀ name ∈ Table.keys doc, name ∈ inheritedFields) ∧
    (Document.mergingRoom < Document.fieldsRoom doc → Faulty terms reads .tooDeep)

namespace Generator

variable {shelf : Shelf} {i : Inventory} {metadata : Fields}

theorem stays_ask {g : Generator} {may : Fault → Prop} {name : Text} {options : List FieldOption}
    (standing : Standing terms shelf i) {post : Shelf → Inventory → Draft → Prop}
    (built : ∀ r, g.stored name = some r → Stays terms may shelf i (g.build r options) post) :
    Stays terms may shelf i (g.peer.ask name options) fun left i' answer =>
      ∀ d ∈ answer, post left i' d := by
  change Stays terms may shelf i (g.draft (g.stored name) options) _
  cases stored : g.stored name with
  | none => exact stays_pure standing nofun
  | some r =>
    rw [draft, if_pos (kind_of_stored stored), map_eq_pure_bind]
    refine (built r stored).bind fun left i' d standing _ made => stays_pure standing ?_
    rintro _ ⟨⟩
    exact made

theorem stays_asked {g : Generator} {may : Fault → Prop} {name : Text} {options : List FieldOption}
    (standing : Standing terms shelf i) (built : ∀ r, g.stored name = some r →
      Stays terms may shelf i (g.build r options) fun _ _ _ => True) :
    Stays terms may shelf i (g.peer.ask name options) fun _ _ _ => True :=
  (stays_ask standing built).mono (fun _ => id) fun _ _ _ _ _ _ => trivial

variable {store : Option Store} {p : Projector} (standing : Standing terms shelf i)
  (read : reads r) (known : r.metadata = .ok metadata) (settled : p.selection.Settled terms r)
include standing read known settled

theorem stays_forNamespaces (kind : r.kind = .namespace) :
    Stays terms (Faulty terms reads) shelf i ((forNamespaces store p).build r [])
      fun left i' d => d.Inheritable terms reads left i' := by
  have other : r.kind ≠ .pod := by rw [kind]; decide
  refine (p.stays_native standing read known settled other (by decide)).bind ?_
  rintro left i' base standing - ⟨doc, drawn, sections⟩
  refine stays_read standing (faulty_of_made (Resource.exists_name known)) fun space _ => ?_
  refine stays_read standing (faulty_of_made (Resource.exists_uid known)) fun uid _ => ?_
  obtain ⟨shows, only⟩ := standing.presents drawn.presents fun p own => by
    rw [Lender.OfPod, own]
    exact other
  have inherited := Draft.keys_inheritable space uid base
  have showing := Draft.shows_inheritable shows space uid
  rw [Draft.keys_of_shows showing] at inherited
  refine stays_pure standing ⟨_, showing, ?_, inherited, fun deep => ?_⟩
  · exact Draft.only_inheritable only space uid
  · obtain ⟨map, v, there, further⟩ := Document.exists_deep deep
    obtain ⟨shown, turn, rfl⟩ := sections map v there
    exact .tooDeep read kind turn further

theorem stays_forNodes (kind : r.kind = .node) :
    Stays terms (Faulty terms reads) shelf i
      ((forNodes store p).build r [.nest Kind.node.field]) fun _ _ _ => True := by
  have other : r.kind ≠ .pod := by rw [kind]; decide
  have nested : Stays terms (Faulty terms reads) shelf i
      (p.native Kind.node.field r [.nest Kind.node.field])
      fun _ _ d => Draft.Free [Text.ofString Kind.node.field] d := by
    rw [Projector.native_adjusted]
    refine (p.stays_native standing read known settled other (by decide)).bind ?_
    rintro left i' d standing - ⟨doc, drawn, -⟩
    obtain ⟨-, only⟩ := standing.presents drawn.presents fun p own => by
      rw [Lender.OfPod, own]
      exact other
    obtain ⟨d', run, -, free⟩ := Draft.nodeSection_run drawn
    have seen : i'.podsVeiled.SeesDraft left d := only.mono fun m => standing.sees_pods.mpr
    exact Drafting.stays_others standing (Veil.works_adjustAll standing.twins _ seen) run
      (.refl (fun _ => True) i') standing.due fun _ _ => free
  refine nested.bind fun left i' d standing _ free => ?_
  refine stays_read standing (faulty_of_error read fun shaped =>
    Resource.exists_hostname known shaped kind) fun hostname _ => ?_
  have own (m : SharedMap) : Table.get? d Kind.node.field ≠ some (.shared m) := by
    intro there
    rw [Draft.Free, there] at free
    exact free
  rw [Draft.putText]
  split
  · exact stays_pure standing trivial
  · rw [Draft.put_below own]
    exact stays_pure standing trivial

end Generator

/-! ## Controllers -/

namespace Projector

variable {shelf : Shelf} {i : Inventory} {metadata : Fields}

/-- What a namespace answers is merged, if it answers. -/
theorem stays_mergeSpace (standing : Standing terms shelf i) (known : r.metadata = .ok metadata)
    {peer : Option Peer} (asked : ∀ p ∈ peer, ∀ space, r.space = .ok space →
      ∀ shelf i, Standing terms shelf i → Stays terms (Faulty terms reads) shelf i (p.ask space [])
        fun left i' answer => ∀ d ∈ answer, d.Inheritable terms reads left i')
    {d : Draft} {post : Shelf → Inventory → Draft → Prop}
    (same : ∀ left i', Standing terms left i' → Inventory.Changes (fun _ => True) i i' →
      post left i' d)
    (merged : ∀ left i' other, Standing terms left i' → Inventory.Changes (fun _ => True) i i' →
      other.Inheritable terms reads left i' →
      Stays terms (Faulty terms reads) left i' (d.merge other) post) :
    Stays terms (Faulty terms reads) shelf i (mergeSpace peer r d) post := by
  have unchanged := same shelf i standing (.refl _ i)
  cases peer with
  | none => exact stays_pure standing unchanged
  | some peer =>
    rw [mergeSpace]
    refine stays_read standing (faulty_of_made (Resource.exists_space known)) fun space home => ?_
    split
    · exact stays_pure standing unchanged
    · refine (asked peer rfl space home shelf i standing).bind ?_
      intro left i' answer standing changes answers
      cases answer with
      | none => exact stays_pure standing (same left i' standing changes)
      | some other => exact merged left i' other standing changes (answers other rfl)

end Projector

namespace Generator

/-- The answer of a controller is made of its own sections and those of its namespace. -/
theorem stays_forControllers {shelf : Shelf} {i : Inventory} (standing : Standing terms shelf i)
    (read : reads r) {metadata : Fields} (known : r.metadata = .ok metadata) {p : Projector}
    (settled : p.selection.Settled terms r) (other : r.kind ≠ .pod) {kind : Kind}
    {store : Option Store} {space : Option Peer}
    (asked : ∀ p ∈ space, ∀ name, r.space = .ok name →
      ∀ shelf i, Standing terms shelf i → Stays terms (Faulty terms reads) shelf i (p.ask name [])
        fun left i' answer => ∀ d ∈ answer, d.Inheritable terms reads left i') :
    Stays terms (Faulty terms reads) shelf i ((forControllers kind store p space).build r [])
      fun _ _ _ => True := by
  have outside : Text.ofString kind.field ∉ sectionFields := by cases kind <;> decide
  refine (p.stays_native standing read known settled other outside).bind ?_
  rintro left i' d standing - ⟨doc, drawn, -⟩
  refine Projector.stays_mergeSpace standing known asked (fun _ _ _ _ => trivial) ?_
  rintro left i' inherited standing - ⟨source, shows, -, names, deep⟩
  have apart : ∀ name ∈ Table.keys source, name ∉ sectionFields := by
    intro name mem
    have other : ∀ name ∈ inheritedFields, name ∉ sectionFields := by decide
    exact other name (names name mem)
  have quiet := Draft.merge_quiet (fun name mem => drawn.plain name (apart name mem)) shows
  refine Drafting.stays_quiet standing quiet (fun fault raised => ?_) fun _ _ => trivial
  rw [Document.mergedIn] at raised
  split at raised
  · cases raised
  · next full =>
    cases raised
    exact deep (Nat.lt_of_not_le full)

end Generator

end ClusterMetadata
