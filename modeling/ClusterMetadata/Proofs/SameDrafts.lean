import ClusterMetadata.Proofs.Hops
import ClusterMetadata.Proofs.Together

/-!
# Native drafts in two inventories

The native draft of a resource shows the sections that are due. In two inventories that are alike
the drafts agree outside the sections, and in them too when the same sections are due.

* `Selection.Settled`: what a resource lends is known;
* `Draft.Same`: two drafts of a resource show documents that agree;
* `steady_native`, `steady_nested`: native drafts, plain and with their sections moved.
-/
namespace ClusterMetadata

open Json (Value Fields)
open Inventory (Alike Apace)

namespace Selection

/-- The entries of a resource's section in their order, none when they cannot be read. -/
def entriesOf (s : Selection) (r : Resource) (map : MetadataMap) : Fields :=
  match r.entries map >>= s.chosen map with
  | .ok chosen => Json.sortFields chosen
  | .error _ => []

theorem entriesOf_eq {s : Selection} {r : Resource} {map : MetadataMap} {entries : Entries}
    {chosen : Fields} (read : r.entries map = .ok entries) (taken : s.chosen map entries = .ok chosen) :
    s.entriesOf r map = Json.sortFields chosen := by
  have both : r.entries map >>= s.chosen map = .ok chosen := by
    rw [read]
    exact taken
  rw [entriesOf, both]

/-- What goes into the sections of a resource is what this selection takes, in the form that it
gives them, and no key comes twice in a map that is taken. -/
structure Settled (terms : Terms) (s : Selection) (r : Resource) : Prop where
  entries : ∀ map, terms.entries ⟨map, r⟩ = s.entriesOf r map
  dedot : ∀ map, terms.dedot ⟨map, r⟩ = s.dedot map
  proper : ∀ map, ∀ entry ∈ s.entriesOf r map, entry.2.Proper

end Selection

namespace Document

def insertSection (d : Document) (map : MetadataMap) (fields : Fields) : Document :=
  if fields.isEmpty then d else Table.insert d map.field (.object fields)

/-- Two documents have the same fields but for some names, and in some cases all of them. -/
structure Agree (names : List Text) (exact : Prop) (doc doc' : Document) : Prop where
  outside : ∀ name, name ∉ names → Table.get? doc name = Table.get? doc' name
  exact : exact → doc = doc'

namespace Agree

variable {names : List Text} {exact : Prop} {doc doc' : Document}

theorem refl (names : List Text) (exact : Prop) (doc : Document) : Agree names exact doc doc :=
  ⟨fun _ _ => rfl, fun _ => rfl⟩

theorem insert (h : Agree names exact doc doc') (name : Text) (v : Value) :
    Agree names exact (Table.insert doc name v) (Table.insert doc' name v) := by
  refine ⟨fun other apart => ?_, fun whole => by rw [h.exact whole]⟩
  rw [Table.get?_insert, Table.get?_insert, h.outside other apart]

/-- A section may be another one where its name does not count. -/
theorem insertSection (h : Agree names exact doc doc') {map : MetadataMap} (mem : map.field ∈ names)
    {fields fields' : Fields} (same : exact → fields = fields') :
    Agree names exact (doc.insertSection map fields) (doc'.insertSection map fields') := by
  have kept (d : Document) (fields : Fields) (name : Text) (apart : name ∉ names) :
      Table.get? (d.insertSection map fields) name = Table.get? d name := by
    rw [Document.insertSection]
    split
    · rfl
    · have other : map.field ≠ name := fun here => apart (here ▸ mem)
      rw [Table.get?_insert, if_neg other]
  refine ⟨fun name apart => ?_, fun whole => by rw [h.exact whole, same whole]⟩
  rw [kept _ _ _ apart, kept _ _ _ apart, h.outside name apart]

theorem merge (h : Agree names exact doc doc') {source : Fields}
    (apart : ∀ name ∈ Table.keys source, name ∉ names) :
    Agree names exact (doc.merge source) (doc'.merge source) := by
  unfold Document.merge
  induction source generalizing doc doc' with
  | nil => exact h
  | cons field rest ih =>
    obtain ⟨name, v⟩ := field
    have merged : Agree names exact
        (Table.insert doc name (mergeOver (Table.get? doc name) v))
        (Table.insert doc' name (mergeOver (Table.get? doc' name) v)) := by
      rw [h.outside name (apart name List.mem_cons_self)]
      exact h.insert name _
    exact ih merged fun name mem => apart name (List.mem_cons_of_mem _ mem)

end Agree

end Document

/-- The fields in which a native draft may hold shared maps. -/
def sectionFields : List Text := [MetadataMap.labels.field, MetadataMap.annotations.field]

theorem field_mem_sectionFields (map : MetadataMap) : map.field ∈ sectionFields := by
  cases map <;> decide

namespace Draft

variable {needed : Resource → Prop} {names : List Text} {r : Resource} {i i' : Inventory}

/-- A draft of a resource shows a document, with the resource's own shared maps under some names
only. -/
structure Drawn (names : List Text) (r : Resource) (i : Inventory) (doc : Document) (d : Draft) :
    Prop where
  presents : Presents i (·.lender.owner = r) doc d
  plain : Map.PlainAt (· ∉ names) doc d

theorem drawn_ofFields (names : List Text) (r : Resource) (i : Inventory) (doc : Document) :
    Drawn names r i doc (ofFields doc) :=
  ⟨⟨showsFields_ofFields i.shelf doc, amongFields_ofFields ..⟩, fun name _ => get?_ofFields doc name⟩

/-- A value of the draft's own in any field. -/
theorem Drawn.insert {doc : Document} {d : Draft} (h : Drawn names r i doc d) (name : Text)
    (v : Value) : Drawn names r i (Table.insert doc name v) (Table.insert d name (.ofValue v)) :=
  ⟨⟨shows_insert h.presents.shows name (shows_ofValue i.shelf v),
    among_insert h.presents.among name (among_ofValue ..)⟩, Map.plainAt_insert h.plain name v⟩

/-- Fields of the draft's own merged over it. -/
theorem Drawn.overlay {doc : Document} {d : Draft} (h : Drawn names r i doc d) (source : Fields) :
    Drawn names r i (doc.merge source) (Map.overlay d doc source) := by
  unfold Document.merge
  induction source generalizing doc d with
  | nil => exact h
  | cons field rest ih =>
    obtain ⟨name, v⟩ := field
    exact ih (h.insert name _)

/-- A node under a name where shared maps may stand. -/
theorem plainAt_insertAt {doc : Document} {d : Draft} (h : Map.PlainAt (· ∉ names) doc d)
    {name : Text} (mem : name ∈ names) (v : Value) (node : Node) :
    Map.PlainAt (· ∉ names) (Table.insert doc name v) (Table.insert d name node) := by
  intro other notMem
  have apart : name ≠ other := fun same => notMem (same ▸ mem)
  rw [Table.get?_insert, Table.get?_insert, if_neg apart, if_neg apart]
  exact h other notMem

theorem isEmpty_of_shows {shelf : Shelf} {fields : Fields} {d : Draft}
    (h : ShowsFields shelf fields d) : d.isEmpty = fields.isEmpty := by
  cases fields with
  | nil =>
    cases h
    rfl
  | cons field rest =>
    cases d with
    | nil => exact h.elim
    | cons field rest => rfl

theorem Drawn.insertSection {doc : Document} {d : Draft} (h : Drawn sectionFields r i doc d)
    (map : MetadataMap) {fields : Fields} {nodes : Draft}
    (presents : Presents i (·.lender.owner = r) fields nodes) :
    Drawn sectionFields r i (doc.insertSection map fields) (d.insertSection map nodes) := by
  rw [Draft.insertSection, Document.insertSection, isEmpty_of_shows presents.shows]
  split
  · exact h
  · have shows : Node.Shows i.shelf (.object fields) (.map nodes) := presents.shows
    have among : (Node.map nodes).Among i.ledger (·.lender.owner = r) := presents.among
    exact ⟨⟨shows_insert h.presents.shows _ shows, among_insert h.presents.among _ among⟩,
      plainAt_insertAt h.plain (field_mem_sectionFields map) _ _⟩

/-- A draft that is put together stands for what is put together of documents. -/
theorem drawn_assembled {labels annotations : Draft} {shown shown' : Fields}
    (presents : Presents i (·.lender.owner = r) shown labels)
    (presents' : Presents i (·.lender.owner = r) shown' annotations) (field name uid space : Text)
    (refs : List OwnerReference) :
    Drawn sectionFields r i
      (((Document.identifying field name uid space refs).insertSection .labels shown).insertSection
        .annotations shown')
      (assembled field name uid space refs labels annotations) := by
  have base := drawn_ofFields sectionFields r i (Document.identifying field name uid space refs)
  exact (base.insertSection .labels presents).insertSection .annotations presents'

/-! ## Two drafts -/

def SameShown (i : Inventory) (d : Draft) (i' : Inventory) (d' : Draft) : Prop :=
  ∃ doc, ShowsFields i.shelf doc d ∧ ShowsFields i'.shelf doc d'

/-- Two sections of a lender show documents, one and the same if its resource matters. -/
def SameSection (needed : Resource → Prop) (lender : Lender) (i : Inventory) (d : Draft)
    (i' : Inventory) (d' : Draft) : Prop :=
  ∃ shown shown', Presents i (·.lender = lender) shown d ∧
    Presents i' (·.lender = lender) shown' d' ∧ (needed lender.owner → shown = shown')

/-- Two drafts of a resource show documents that agree, in all when the resource matters, with
shared maps under some names only. -/
def Same (needed : Resource → Prop) (names : List Text) (r : Resource) (i : Inventory) (d : Draft)
    (i' : Inventory) (d' : Draft) : Prop :=
  ∃ doc doc', Drawn names r i doc d ∧ Drawn names r i' doc' d' ∧
    Document.Agree names (needed r) doc doc'

theorem Same.shown {d d' : Draft} (h : Same needed names r i d i' d') (need : needed r) :
    SameShown i d i' d' := by
  obtain ⟨doc, doc', drawn, drawn', agree⟩ := h
  cases agree.exact need
  exact ⟨doc, drawn.presents.shows, drawn'.presents.shows⟩

section

variable {terms : Terms} {touched : Lender → Prop} {left left' : Inventory}
  (apace : Apace terms touched needed i i' left left')
include apace

theorem SameSection.of_apace {lender : Lender} {d d' : Draft}
    (h : SameSection needed lender i d i' d') (apart : ¬ touched lender) :
    SameSection needed lender left d left' d' := by
  obtain ⟨shown, shown', presents, presents', same⟩ := h
  have other : ∀ p : Place, p.lender = lender → ¬ touched p.lender := fun p own => own ▸ apart
  exact ⟨shown, shown', presents.of_changes apace.moves.changes (fun _ _ => id) other,
    presents'.of_changes apace.moves'.changes (fun _ _ => id) other, same⟩

/-- Sections of other resources leave a draft as it is. -/
theorem Same.of_apace {d d' : Draft} (h : Same needed names r i d i' d')
    (apart : ∀ lender, touched lender → lender.owner ≠ r) : Same needed names r left d left' d' := by
  obtain ⟨doc, doc', drawn, drawn', agree⟩ := h
  have other : ∀ p : Place, p.lender.owner = r → ¬ touched p.lender := fun p own mem =>
    apart _ mem own
  exact ⟨doc, doc',
    ⟨drawn.presents.of_changes apace.moves.changes (fun _ _ => id) other, drawn.plain⟩,
    ⟨drawn'.presents.of_changes apace.moves'.changes (fun _ _ => id) other, drawn'.plain⟩, agree⟩

end

end Draft

namespace Projector

open Drafting (Together)

variable {terms : Terms} {needed : Resource → Prop}

/-- A section shows what is due. -/
theorem steady_sectionOf (p : Projector) {r : Resource} (settled : p.selection.Settled terms r)
    (map : MetadataMap) :
    (p.sectionOf r map).Steady terms (· = ⟨map, r⟩) needed (Draft.SameSection needed ⟨map, r⟩) := by
  intro i i' alike
  unfold sectionOf
  apply Drafting.together_read
  intro entries read
  apply Drafting.together_read
  intro chosen taken
  have own : terms.entries ⟨map, r⟩ = Json.sortFields chosen :=
    (settled.entries map).trans (Selection.entriesOf_eq read taken)
  have proper : ∀ entry ∈ terms.entries ⟨map, r⟩, entry.2.Proper := by
    rw [settled.entries]
    exact settled.proper map
  obtain ⟨d, left, d', left', shown, shown', run, run', -, -, apace, presents, presents', same⟩ :=
    Draft.ofMap_apace own proper alike
  rw [settled.dedot] at run run'
  exact Drafting.together_run run run' apace ⟨shown, shown', presents, presents', same⟩

/-- The native draft of a resource shows the sections that are due. -/
theorem steady_native (p : Projector) {r : Resource} (settled : p.selection.Settled terms r)
    (field : Text) :
    (p.native field r []).Steady terms (·.owner = r) needed (Draft.Same needed sectionFields r) := by
  intro i i' alike
  rw [native_eq]
  have own (map : MetadataMap) (lender : Lender) (same : lender = ⟨map, r⟩) : lender.owner = r := by
    rw [same]
  apply (p.steady_sectionOf settled .labels alike).bind (own .labels)
  intro _ labels _ labels' apace sameLabels
  apply (p.steady_sectionOf settled .annotations apace.alike).bind (own .annotations)
  intro left annotations left' annotations' apace sameAnnotations
  apply Drafting.together_read
  intro name _
  apply Drafting.together_read
  intro uid _
  apply Drafting.together_read
  intro space _
  apply Drafting.together_read
  intro refs _
  obtain ⟨labelsShown, labelsShown', labelsHere, labelsThere, labelsSame⟩ :=
    sameLabels.of_apace apace (by simp)
  obtain ⟨shown, shown', here, there, same⟩ := sameAnnotations
  have owned (map : MetadataMap) (p : Place) (same : p.lender = ⟨map, r⟩) : p.lender.owner = r := by
    rw [same]
  have drawn := Draft.drawn_assembled (labelsHere.mono (owned .labels))
    (here.mono (owned .annotations)) field name uid space refs
  have drawn' := Draft.drawn_assembled (labelsThere.mono (owned .labels))
    (there.mono (owned .annotations)) field name uid space refs
  have agree := ((Document.Agree.refl sectionFields (needed r)
    (Document.identifying field name uid space refs)).insertSection (field_mem_sectionFields .labels)
    labelsSame).insertSection (field_mem_sectionFields .annotations) same
  exact Drafting.together_pure apace.alike ⟨_, _, drawn, drawn', agree⟩

end Projector

namespace Draft

/-! ## Moving the sections of a node -/

/-- No shared map stands below a field that shared maps are kept out of. -/
theorem Drawn.not_sharedAt {doc : Document} {d : Draft} (h : Drawn names r i doc d) {name : Text}
    (notMem : name ∉ names) (rest : Path) : ¬ (Node.map d).SharedAt (name :: rest) := by
  rintro ⟨fields, inner, same, there, shared⟩
  cases same
  rw [h.plain name notMem] at there
  obtain ⟨v, -, rfl⟩ := Option.map_eq_some_iff.mp there
  exact not_sharedAt_ofValue rest v shared

theorem Drawn.free {doc : Document} {d : Draft} (h : Drawn names r i doc d) {name : Text}
    (notMem : name ∉ names) : Free [name] d := by
  refine free_of_not_sharedAt fun part isPrefix shared => ?_
  cases part with
  | nil =>
    obtain ⟨m, same⟩ := shared
    cases same
  | cons key rest =>
    obtain ⟨rfl, -⟩ := List.cons_prefix_cons.mp isPrefix
    exact h.not_sharedAt notMem rest shared

theorem sharedAt_of_erase {d : Draft} {name : Text} {part : Path}
    (h : (Node.map (Table.erase d name)).SharedAt part) : (Node.map d).SharedAt part := by
  cases part with
  | nil =>
    obtain ⟨m, h⟩ := h
    cases h
  | cons key rest =>
    obtain ⟨fields, inner, same, there, shared⟩ := h
    cases same
    rw [Table.get?_erase] at there
    split at there
    · cases there
    · exact ⟨d, inner, rfl, there, shared⟩

/-- Moving one section to a place on whose way no shared map stands. -/
theorem nestSection_run {shelf : Shelf} {doc : Document} {d : Draft} (h : ShowsFields shelf doc d)
    (under name : Text)
    (apart : ∀ part, part <+: nestedPath under name → ¬ (Node.map d).SharedAt part) :
    ∃ d', (nestSection under d name).run shelf = (d', shelf) ∧
      ShowsFields shelf (doc.nestSection under name) d' ∧
      ∀ part, (Node.map d').SharedAt part →
        (Node.map d).SharedAt part ∨ nestedPath under name <+: part := by
  have rest := shows_erase h name
  have erased : ∃ d', (pure (Table.erase d name) : OnShelf Draft).run shelf = (d', shelf) ∧
      ShowsFields shelf (Table.erase doc name) d' ∧ ∀ part, (Node.map d').SharedAt part →
        (Node.map d).SharedAt part ∨ nestedPath under name <+: part :=
    ⟨_, rfl, rest, fun part shared => .inl (sharedAt_of_erase shared)⟩
  have moved {node : Node} {v : Value} (shows : Node.Shows shelf v node) :
      ∃ d', (safePut (Table.erase d name) (nestedPath under name) node).run shelf = (d', shelf) ∧
        ShowsFields shelf (Document.safePut (Table.erase doc name) (nestedPath under name) v) d' ∧
        ∀ part, (Node.map d').SharedAt part →
          (Node.map d).SharedAt part ∨ nestedPath under name <+: part := by
    have free : Free (nestedPath under name) (Table.erase d name) :=
      free_of_not_sharedAt fun part isPrefix shared => apart part isPrefix (sharedAt_of_erase shared)
    obtain ⟨d', run, written⟩ := written_safePut rest free shows
    refine ⟨d', run, written.shows, fun part shared => ?_⟩
    rcases written.shared part shared with before | ⟨-, inside⟩
    · exact .inl (sharedAt_of_erase before)
    · exact .inr inside
  rw [nestSection, Document.nestSection]
  rcases get?_of_shows h name with ⟨hd, hf⟩ | ⟨node, v, hd, hf, shows⟩
  · rw [hd, hf]
    exact erased
  · rw [hd, hf]
    cases v with
    | null =>
      cases node with
      | leaf w =>
        cases shows
        exact erased
      | _ => exact shows.elim
    | object fields =>
      cases node with
      | leaf w => exact shows.elim
      | _ => exact moved shows
    | _ =>
      cases node with
      | leaf w =>
        cases shows
        exact moved (v := _) rfl
      | _ => exact shows.elim

/-- The sections of a node's draft are moved without touching a shared map, and nothing that is
shared stands under the node's own field afterwards but the sections. -/
theorem nodeSection_run {doc : Document} {d : Draft} (h : Drawn sectionFields r i doc d) :
    ∃ d', (adjustAll [.nest Kind.node.field] d).run i.shelf = (d', i.shelf) ∧
      ShowsFields i.shelf (FieldOption.applyAll [.nest Kind.node.field] doc) d' ∧
      Free [Text.ofString Kind.node.field] d' := by
  have outside : Text.ofString Kind.node.field ∉ sectionFields := by decide
  have inside {part path : Path} (isPrefix : part <+: Text.ofString Kind.node.field :: path) :
      ¬ (Node.map d).SharedAt part := by
    cases part with
    | nil =>
      rintro ⟨m, same⟩
      cases same
    | cons name rest =>
      obtain ⟨rfl, -⟩ := List.cons_prefix_cons.mp isPrefix
      exact h.not_sharedAt outside rest
  have labels : nestedPath Kind.node.field "labels" = [Text.ofString Kind.node.field, "labels"] := by
    decide
  have annotations : nestedPath Kind.node.field "annotations" =
      [Text.ofString Kind.node.field, "annotations"] := by decide
  obtain ⟨d₁, run₁, shows₁, shared₁⟩ := nestSection_run h.presents.shows Kind.node.field "labels"
    fun part isPrefix => inside (labels ▸ isPrefix)
  obtain ⟨d₂, run₂, shows₂, shared₂⟩ := nestSection_run shows₁ Kind.node.field "annotations"
    fun part isPrefix shared => by
      rcases shared₁ part shared with before | below
      · exact inside (annotations ▸ isPrefix) before
      · exact absurd (below.trans isPrefix) (by decide)
  refine ⟨d₂, ?_, shows₂, free_of_not_sharedAt fun part isPrefix shared => ?_⟩
  · have both : adjustAll [.nest Kind.node.field] d =
        nestSection Kind.node.field d "labels" >>= (nestSection Kind.node.field · "annotations") :=
      rfl
    rw [both, OnShelf.run_bind run₁, run₂]
  · rcases shared₂ part shared with before | below
    · rcases shared₁ part before with start | below
      · exact inside isPrefix start
      · exact absurd (below.trans isPrefix) (by decide)
    · exact absurd (below.trans isPrefix) (by decide)

/-- Two drafts show one document, and hold no shared map under a field. -/
def SameFree (field : Text) (i : Inventory) (d : Draft) (i' : Inventory) (d' : Draft) : Prop :=
  SameShown i d i' d' ∧ Free [field] d ∧ Free [field] d'

/-- Writing text into a map that is not shared. -/
theorem together_putText {terms : Terms} {touched : Lender → Prop} {needed : Resource → Prop}
    {i i' : Inventory} (alike : Alike terms needed i i') {d d' : Draft} {name : Text}
    (same : SameFree name i d i' d') (field text : Text) :
    Drafting.Together terms touched needed SameShown i
      (liftM (d.putText [name, field] text) : Drafting Draft) i'
      (liftM (d'.putText [name, field] text) : Drafting Draft) := by
  obtain ⟨shown, free, free'⟩ := same
  rw [putText, putText]
  split
  · exact Drafting.together_pure alike shown
  · obtain ⟨doc, shows, shows'⟩ := shown
    have leaf (shelf : Shelf) : Node.Shows shelf (.string text) (.ofText text) := rfl
    have path : [name, field].dropLast = [name] := rfl
    obtain ⟨next, run, shows⟩ := shows_put shows (path ▸ free) (leaf i.shelf)
    obtain ⟨next', run', shows'⟩ := shows_put shows' (path ▸ free') (leaf i'.shelf)
    exact Drafting.together_run run run' (.refl alike) ⟨_, shows, shows'⟩

end Draft

/-- The native draft of a node that matters, with its sections moved under it. -/
theorem Projector.steady_nested {terms : Terms} {needed : Resource → Prop} (p : Projector)
    {r : Resource} (settled : p.selection.Settled terms r) (need : needed r) :
    (p.native Kind.node.field r [.nest Kind.node.field]).Steady terms (·.owner = r) needed
      (Draft.SameFree Kind.node.field) := by
  intro i i' alike
  rw [native_adjusted]
  apply (p.steady_native settled _ alike).bind fun _ => id
  intro left d left' d' apace same
  obtain ⟨doc, doc', drawn, drawn', agree⟩ := same
  cases agree.exact need
  obtain ⟨next, run, shows, free⟩ := Draft.nodeSection_run drawn
  obtain ⟨next', run', shows', free'⟩ := Draft.nodeSection_run drawn'
  exact Drafting.together_run run run' (.refl apace.alike) ⟨⟨_, shows, shows'⟩, free, free'⟩

end ClusterMetadata
