import Mathlib.Data.List.Forall2
import Mathlib.Data.List.Induction
import ClusterMetadata.Proofs.FirstSections
import ClusterMetadata.Proofs.SortedValues
import ClusterMetadata.Proofs.StandingAnswers

/-!
# Flat sections

A flat section has a field for every key that is taken, with underscores for the dots. Of the keys
that become one field the greatest gives the value.

* `Selection.taken`: the labels or annotations that go into a section;
* `sectionOf_eq`: a section is made of what is taken, whichever filter comes first;
* `Underscored`: the field that a key becomes, point by point;
* `Wins`, `get?_ofMap_flat`: the entry that gives a field its value;
* `Flat`: what a flat section is, as a field of a document;
* `flat_sections`: the sections of every document that a projector makes are so.
-/
namespace ClusterMetadata

open Json (Value Fields)

/-! ## What is taken -/

namespace Table

variable {κ ν : Type} [DecidableEq κ]

theorem get?_filter (t : Table κ ν) (keep : κ → Bool) (key : κ) :
    get? (t.filter fun entry => keep entry.1) key = if keep key then get? t key else none := by
  induction t with
  | nil => simp
  | cons entry rest ih =>
    obtain ⟨k, v⟩ := entry
    rw [List.filter_cons]
    by_cases same : k = key
    · subst same
      cases kept : keep k <;> simp [get?, ih, kept]
    · cases keep k <;> simp [get?, ih, same]

omit [DecidableEq κ] in
theorem distinct_filter {t : Table κ ν} (distinct : Distinct t) (keep : κ × ν → Bool) :
    Distinct (t.filter keep) :=
  (List.filter_sublist.map Prod.fst).nodup distinct

end Table

theorem get?_pick (source : Fields) (names : List Text) (key : Text) :
    Table.get? (pick source names) key = if key ∈ names then Table.get? source key else none := by
  have laid (base : Fields) : Table.get? ((names.filterMap fun name =>
      (Table.get? source name).map ((name, ·))).foldl
        (fun t entry => Table.insert t entry.1 entry.2) base) key =
      if key ∈ names then (Table.get? source key).or (Table.get? base key)
      else Table.get? base key := by
    induction names generalizing base with
    | nil => rfl
    | cons name rest ih =>
      rw [List.filterMap_cons]
      cases there : Table.get? source name with
      | none =>
        rw [Option.map_none, ih base]
        by_cases same : key = name
        · subst same
          simp [there]
        · simp [same]
      | some v =>
        rw [Option.map_some, List.foldl_cons, ih, Table.get?_insert]
        by_cases same : key = name
        · subst same
          simp [there]
        · simp [same, Ne.symm same]
  rw [pick, Table.ofEntries, laid]
  simp

def Resource.fieldsOf (r : Resource) (map : MetadataMap) : Fields :=
  ((r.manifest.member "metadata").member map.field).fields?.getD []

namespace Selection

/-- Whether a key goes into a section when it is there. -/
def takes (s : Selection) : MetadataMap → Text → Bool
  | .labels, key => key ∉ s.excludeLabels && (s.includeLabels.isEmpty || key ∈ s.includeLabels)
  | .annotations, key => key ∈ s.includeAnnotations

def taken (s : Selection) (map : MetadataMap) (source : Fields) : Fields :=
  source.filter fun field => s.takes map field.1

/-- The labels that go into a section, when those to exclude are dropped last. -/
def excludedLast (s : Selection) (labels : Fields) : Fields :=
  (if s.includeLabels.isEmpty then labels else pick labels s.includeLabels).filter
    fun field => field.1 ∉ s.excludeLabels

theorem get?_taken (s : Selection) (map : MetadataMap) (source : Fields) (key : Text) :
    Table.get? (s.taken map source) key =
      if s.takes map key then Table.get? source key else none :=
  Table.get?_filter source (s.takes map) key

theorem distinct_taken (s : Selection) (map : MetadataMap) {source : Fields}
    (distinct : Table.Distinct source) : Table.Distinct (s.taken map source) :=
  Table.distinct_filter distinct _

theorem kept_ofFields (s : Selection) (source : Fields) : s.kept (Entries.ofFields source) =
    Entries.ofFields (source.filter fun field => field.1 ∉ s.excludeLabels) :=
  List.filter_map

/-- What is chosen of the entries of an object is what is taken, but for the order. -/
theorem exists_chosen_taken (s : Selection) (map : MetadataMap) {source : Fields}
    (distinct : Table.Distinct source) :
    ∃ chosen, s.chosen map (.ofFields source) = .ok chosen ∧
      Json.sortFields chosen = Json.sortFields (s.taken map source) := by
  have whole := s.distinct_taken map distinct
  cases map with
  | annotations =>
    refine ⟨_, rfl, Json.sortFields_congr (Table.distinct_ofEntries _) whole fun key => ?_⟩
    rw [chosenAnnotations, Entries.textFields_ofFields, get?_pick, get?_taken]
    simp [takes]
  | labels =>
    rw [chosen, chosenLabels, kept_ofFields]
    split
    · next all =>
      refine ⟨source.filter fun field => field.1 ∉ s.excludeLabels, ?_, ?_⟩
      · rw [Entries.named, if_pos, Entries.textFields_ofFields]
        exact List.all_eq_true.mpr fun entry mem => by
          obtain ⟨field, -, rfl⟩ := List.mem_map.mp mem
          rfl
      · simp [taken, takes, all]
    · next some =>
      refine ⟨_, rfl, Json.sortFields_congr (Table.distinct_ofEntries _) whole fun key => ?_⟩
      rw [Entries.textFields_ofFields, get?_pick, get?_taken,
        Table.get?_filter source fun key => key ∉ s.excludeLabels]
      by_cases listed : key ∈ s.includeLabels <;> simp [takes, some, listed]

/-- Excluding labels last takes the same. -/
theorem sortFields_excludedLast (s : Selection) {source : Fields}
    (distinct : Table.Distinct source) :
    Json.sortFields (s.excludedLast source) = Json.sortFields (s.taken .labels source) := by
  rw [excludedLast]
  split
  · next all => simp [taken, takes, all]
  · next some =>
    refine Json.sortFields_congr (Table.distinct_filter (Table.distinct_ofEntries _) _)
      (s.distinct_taken .labels distinct) fun key => ?_
    rw [Table.get?_filter _ fun key => key ∉ s.excludeLabels, get?_pick, get?_taken]
    by_cases listed : key ∈ s.includeLabels <;> simp [takes, some, listed]

/-- Two selections name the same labels and annotations, in whatever order and however often. -/
structure SameLists (s s' : Selection) : Prop where
  includeLabels : ∀ key, key ∈ s.includeLabels ↔ key ∈ s'.includeLabels
  excludeLabels : ∀ key, key ∈ s.excludeLabels ↔ key ∈ s'.excludeLabels
  includeAnnotations : ∀ key, key ∈ s.includeAnnotations ↔ key ∈ s'.includeAnnotations

theorem SameLists.takes {s s' : Selection} (same : s.SameLists s') (map : MetadataMap)
    (key : Text) : s.takes map key = s'.takes map key := by
  cases map with
  | annotations => simp only [Selection.takes, same.includeAnnotations]
  | labels =>
    have all : s.includeLabels.isEmpty = s'.includeLabels.isEmpty := by
      rw [Bool.eq_iff_iff, List.isEmpty_iff, List.isEmpty_iff, List.eq_nil_iff_forall_not_mem,
        List.eq_nil_iff_forall_not_mem]
      simp only [same.includeLabels]
    simp only [Selection.takes, same.includeLabels, same.excludeLabels, all]

end Selection

/-! ## Flat sections -/

/-- A name has an underscore where a key has a dot, and elsewhere the points of the key. -/
def Underscored (key name : Text) : Prop :=
  List.Forall₂ (fun point point' => point = .ofChar '.' ∧ point' = .ofChar '_' ∨
    point ≠ .ofChar '.' ∧ point' = point) key.points name.points

theorem underscored_iff {key name : Text} : Underscored key name ↔ dedotted key = name := by
  obtain ⟨points⟩ := key
  obtain ⟨points'⟩ := name
  have pointwise : (fun point point' : CodePoint => point = .ofChar '.' ∧ point' = .ofChar '_' ∨
      point ≠ .ofChar '.' ∧ point' = point) =
      fun point point' => (if point = .ofChar '.' then .ofChar '_' else point) = point' := by
    funext point point'
    by_cases dot : point = .ofChar '.' <;> simp [dot, eq_comm]
  rw [Underscored, pointwise, ← List.forall₂_map_left_iff, List.forall₂_eq_eq_eq, dedotted,
    Text.mk.injEq]

instance (key name : Text) : Decidable (Underscored key name) :=
  decidable_of_iff _ underscored_iff.symm

/-- An entry whose key is the greatest of those that become a field. -/
structure Wins (source : Fields) (name : Text) (entry : Text × Value) : Prop where
  there : entry ∈ source
  same : Underscored entry.1 name
  last : ∀ other ∈ source, Underscored other.1 name → other.1.le entry.1

theorem Wins.of_perm {source source' : Fields} {name : Text} {entry : Text × Value}
    (wins : Wins source name entry) (perm : source.Perm source') : Wins source' name entry :=
  ⟨perm.mem_iff.mp wins.there, wins.same, fun other mem => wins.last other (perm.mem_iff.mpr mem)⟩

/-- The last of ascending entries wins its field, and of the others wins who has won before. -/
theorem wins_append {before : Fields} {e : Text × Value} (distinct : Table.Distinct (before ++ [e]))
    (ascending : ∀ earlier ∈ before, earlier.1.le e.1) (name key : Text) (v : Value) :
    Wins (before ++ [e]) name (key, v) ↔
      if dedotted e.1 = name then (key, v) = e else Wins before name (key, v) := by
  simp only [← underscored_iff]
  split
  · next own =>
    constructor
    · intro wins
      rcases List.mem_append.mp wins.there with mem | mem
      · have same := Text.le_antisymm (ascending _ mem) (wins.last e (by simp) own)
        rw [Table.Distinct, Table.keys, List.map_append, List.nodup_append] at distinct
        exact absurd same (distinct.2.2 _ (List.mem_map_of_mem mem) _ (by simp))
      · exact List.mem_singleton.mp mem
    · rintro rfl
      refine ⟨by simp, own, fun other mem _ => ?_⟩
      rcases List.mem_append.mp mem with mem | mem
      · exact ascending other mem
      · rw [List.mem_singleton.mp mem]
        simpa using Text.le_total key key
  · next other =>
    constructor
    · intro wins
      rcases List.mem_append.mp wins.there with mem | mem
      · exact ⟨mem, wins.same, fun entry mem => wins.last entry (by simp [mem])⟩
      · rw [← List.mem_singleton.mp mem] at other
        exact absurd wins.same other
    · intro wins
      refine ⟨by simp [wins.there], wins.same, fun entry mem same => ?_⟩
      rcases List.mem_append.mp mem with mem | mem
      · exact wins.last entry mem same
      · rw [← List.mem_singleton.mp mem] at other
        exact absurd same other

namespace Document

/-- Of ascending entries that become one field the last gives the value. -/
theorem get?_foldl_addEntry {entries : Fields} (distinct : Table.Distinct entries)
    (ascending : entries.Pairwise fun a b => a.1.le b.1) (name : Text) (v : Value) :
    Table.get? (entries.foldl (addEntry true) []) name = some v ↔
      ∃ key, Wins entries name (key, v) := by
  induction entries using List.reverseRecOn with
  | nil =>
    refine ⟨nofun, ?_⟩
    rintro ⟨key, wins⟩
    cases wins.there
  | append_singleton before e ih =>
    have earlier := List.pairwise_append.mp ascending
    have distinct' : Table.Distinct before := by
      rw [Table.Distinct, Table.keys, List.map_append, List.nodup_append] at distinct
      exact distinct.1
    have step (key : Text) := wins_append distinct
      (fun entry mem => earlier.2.2 entry mem e (by simp)) name key v
    simp only [step]
    rw [List.foldl_append, List.foldl_cons, List.foldl_nil, addEntry, if_pos rfl,
      Table.get?_insert]
    split
    · constructor
      · intro same
        exact ⟨e.1, Prod.ext rfl (Option.some.inj same).symm⟩
      · rintro ⟨key, rfl⟩
        rfl
    · exact ih distinct' earlier.1

/-- A field of a flat section has the value of the greatest key that becomes it. -/
theorem get?_ofMap_flat {source : Fields} (distinct : Table.Distinct source) (name : Text)
    (v : Value) :
    Table.get? (ofMap true source) name = some v ↔ ∃ key, Wins source name (key, v) := by
  have perm := Json.sortFields_perm source
  have distinct' : Table.Distinct (Json.sortFields source) :=
    (perm.map Prod.fst).nodup_iff.mpr distinct
  rw [ofMap, get?_foldl_addEntry distinct' (Json.pairwise_sortFields source)]
  exact exists_congr fun key => ⟨fun wins => wins.of_perm perm, fun wins => wins.of_perm perm.symm⟩

theorem mem_keys_ofMap_flat (source : Fields) (name : Text) :
    name ∈ Table.keys (ofMap true source) ↔ ∃ entry ∈ source, Underscored entry.1 name := by
  have written (entries : Fields) : name ∈ Table.keys (entries.foldl (addEntry true) []) ↔
      ∃ entry ∈ entries, dedotted entry.1 = name := by
    induction entries using List.reverseRecOn with
    | nil => simp [Table.keys]
    | append_singleton before e ih =>
      rw [List.foldl_append, List.foldl_cons, List.foldl_nil, addEntry, if_pos rfl,
        Table.mem_keys_insert, ih]
      simp only [List.mem_append, List.mem_singleton, or_and_right, exists_or, exists_eq_left]
      rw [or_comm, eq_comm]
  rw [ofMap, written]
  simp only [(Json.sortFields_perm source).mem_iff, underscored_iff]

theorem distinct_ofMap_flat (source : Fields) : Table.Distinct (ofMap true source) :=
  List.foldlRecOn _ _ (by simp [Table.Distinct, Table.keys]) fun _ h entry _ =>
    Table.distinct_insert h (dedotted entry.1) entry.2

/-- A section as a field of a document: there is none of an empty one. -/
def shownSection (fields : Fields) : Option Value :=
  if fields.isEmpty then none else some (.object fields)

/-- What the flat section of some fields is, as a field of a document. -/
structure Flat (taken : Fields) (shown : Option Value) : Prop where
  none_iff : shown = none ↔ taken = []
  fields : ∀ v, shown = some v → ∃ fields, v = .object fields ∧ Table.Distinct fields ∧
    (∀ name, name ∈ Table.keys fields ↔ ∃ entry ∈ taken, Underscored entry.1 name) ∧
    ∀ name w, Table.get? fields name = some w ↔ ∃ key, Wins taken name (key, w)

theorem flat_shownSection {taken : Fields} (distinct : Table.Distinct taken) :
    Flat taken (shownSection (ofMap true taken)) where
  none_iff := by
    have keys := mem_keys_ofMap_flat taken
    have empty : (ofMap true taken).isEmpty = true ↔ taken = [] := by
      rw [List.isEmpty_iff]
      constructor
      · intro none
        rw [none] at keys
        refine List.eq_nil_iff_forall_not_mem.mpr fun entry mem => ?_
        exact absurd ((keys _).mpr ⟨entry, mem, underscored_iff.mpr rfl⟩) List.not_mem_nil
      · intro none
        refine List.eq_nil_iff_forall_not_mem.mpr fun field mem => ?_
        obtain ⟨entry, there, -⟩ := (keys field.1).mp (List.mem_map_of_mem mem)
        rw [none] at there
        exact absurd there List.not_mem_nil
    rw [← empty, shownSection]
    simp
  fields := by
    intro v shown
    rw [shownSection] at shown
    split at shown
    · cases shown
    · cases shown
      exact ⟨_, rfl, distinct_ofMap_flat taken, mem_keys_ofMap_flat taken, get?_ofMap_flat distinct⟩

end Document

/-! ## Manifests with their keys in another order -/

namespace Json.Value

theorem proper_member {v : Value} (proper : v.Proper) (name : Text) : (v.member name).Proper := by
  cases v with
  | object fields => exact proper_value proper.2 name
  | _ => trivial

/-- A member of a sorted value is the member of the value, sorted. -/
theorem member_sorted {v : Value} (proper : v.Proper) (name : Text) :
    v.sorted.member name = (v.member name).sorted := by
  cases v with
  | object fields =>
    have there : Table.get? (sortFields (sortedFields fields)) name =
        (Table.get? fields name).map sorted := by
      rw [get?_sortFields (distinct_sortedFields proper.1), get?_sortedFields]
    rw [sorted, member, member, fields?, fields?, Option.getD_some, Option.getD_some, Fields.value,
      Fields.value, there]
    cases Table.get? fields name <;> rfl
  | _ => rfl

theorem member_congr {v v' : Value} (proper : v.Proper) (proper' : v'.Proper)
    (same : v.sorted = v'.sorted) (name : Text) :
    (v.member name).sorted = (v'.member name).sorted := by
  rw [← member_sorted proper, same, member_sorted proper']

theorem isPart_sorted (v : Value) : v.sorted.IsPart ↔ v.IsPart := by
  cases v with
  | object fields => simp [IsPart, sorted, isObject]
  | array items => cases items <;> simp [IsPart, sorted, sortedItems, isObject, isBlank]
  | _ => rfl

/-- The fields of values that are the same but for the order of keys are read alike. -/
theorem fields_congr {v v' : Value} (proper : v.Proper) (proper' : v'.Proper)
    (same : v.sorted = v'.sorted) (key : Text) :
    (Table.get? (v.fields?.getD []) key).map sorted =
      (Table.get? (v'.fields?.getD []) key).map sorted := by
  have read {v : Value} (proper : v.Proper) : (Table.get? (v.fields?.getD []) key).map sorted =
      Table.get? (v.sorted.fields?.getD []) key := by
    cases v with
    | object fields =>
      rw [sorted, fields?, fields?, Option.getD_some, Option.getD_some,
        get?_sortFields (distinct_sortedFields proper.1), get?_sortedFields]
    | _ => rfl
  rw [read proper, read proper', same]

end Json.Value

/-- Who wins a field wins it among fields that are read alike. -/
theorem Wins.congr {source source' : Fields} (distinct : Table.Distinct source)
    (distinct' : Table.Distinct source')
    (same : ∀ key, (Table.get? source key).map Value.sorted =
      (Table.get? source' key).map Value.sorted)
    {name key : Text} {v : Value} (wins : Wins source name (key, v)) :
    ∃ w, Wins source' name (key, w) ∧ v.sorted = w.sorted := by
  have found := Table.get?_of_mem distinct wins.there
  have here := same key
  rw [found, Option.map_some] at here
  obtain ⟨w, there, alike⟩ := Option.map_eq_some_iff.mp here.symm
  refine ⟨w, ⟨Table.mem_of_get? there, wins.same, fun other mem => ?_⟩, alike.symm⟩
  have present := same other.1
  rw [Table.get?_of_mem distinct' mem] at present
  obtain ⟨v, listed, -⟩ := Option.map_eq_some_iff.mp present
  exact wins.last (other.1, v) (Table.mem_of_get? listed)

/-- Flat sections of fields that are read alike are the same but for the order of keys. -/
theorem Document.Flat.congr {taken taken' : Fields} {shown shown' : Option Value}
    (flat : Flat taken shown) (flat' : Flat taken' shown') (distinct : Table.Distinct taken)
    (distinct' : Table.Distinct taken')
    (same : ∀ key, (Table.get? taken key).map Value.sorted =
      (Table.get? taken' key).map Value.sorted) :
    shown.map Value.sorted = shown'.map Value.sorted := by
  have none_of {taken taken' : Fields} (same : ∀ key, (Table.get? taken key).map Value.sorted =
      (Table.get? taken' key).map Value.sorted) (distinct' : Table.Distinct taken')
      (none : taken = []) : taken' = [] := by
    refine List.eq_nil_iff_forall_not_mem.mpr fun entry mem => ?_
    have here := same entry.1
    rw [none, Table.get?_of_mem distinct' mem] at here
    cases here
  cases shown with
  | none =>
    have empty := none_of same distinct' (flat.none_iff.mp rfl)
    rw [flat'.none_iff.mpr empty]
  | some v =>
    cases shown' with
    | none =>
      have empty := none_of (fun key => (same key).symm) distinct (flat'.none_iff.mp rfl)
      rw [flat.none_iff.mpr empty]
    | some v' =>
      obtain ⟨fields, rfl, once, -, holds⟩ := flat.fields v rfl
      obtain ⟨fields', rfl, once', -, holds'⟩ := flat'.fields v' rfl
      refine congrArg some ((Value.sorted_object_iff once once').mpr fun name => ?_)
      cases found : Table.get? fields name with
      | some w =>
        obtain ⟨key, wins⟩ := (holds name w).mp found
        obtain ⟨w', wins', alike⟩ := wins.congr distinct distinct' same
        rw [(holds' name w').mpr ⟨key, wins'⟩]
        exact congrArg some alike
      | none =>
        cases found' : Table.get? fields' name with
        | none => rfl
        | some w' =>
          obtain ⟨key, wins'⟩ := (holds' name w').mp found'
          obtain ⟨w, wins, -⟩ := wins'.congr distinct' distinct fun key => (same key).symm
          rw [(holds name w).mpr ⟨key, wins⟩] at found
          cases found

/-! ## The sections of a resource -/

namespace Resource

variable {r : Resource}

theorem distinct_fieldsOf (proper : r.manifest.Proper) (map : MetadataMap) :
    Table.Distinct (r.fieldsOf map) := by
  have own := Value.proper_member (Value.proper_member proper "metadata") map.field
  rw [fieldsOf]
  cases v : (r.manifest.member "metadata").member map.field with
  | object fields =>
    rw [v] at own
    exact own.1
  | _ => exact List.nodup_nil

/-- The entries of labels or annotations that are an object, or blank. -/
theorem entries_eq {metadata : Fields} (known : r.metadata = .ok metadata) {map : MetadataMap}
    (isPart : ((r.manifest.member "metadata").member map.field).IsPart) :
    r.entries map = .ok (.ofFields (r.fieldsOf map)) := by
  rw [entries, known, fieldsOf, member_metadata known]
  rw [member_metadata known] at isPart
  have read : Entries.ofValue (metadata.value map.field) =
      .ok (.ofFields ((metadata.value map.field).fields?.getD [])) := by
    unfold Entries.ofValue
    cases v : metadata.value map.field with
    | object fields =>
      split
      · next blank =>
        rw [Value.isBlank, List.isEmpty_iff] at blank
        rw [blank]
        rfl
      · rfl
    | _ =>
      rw [v] at isPart
      have blank := isPart.resolve_right fun object => by cases object
      rw [if_pos blank]
      rfl
  exact read

end Resource

/-- A section is made of what is taken. -/
theorem Selection.sectionOf_eq (s : Selection) {r : Resource} (proper : r.manifest.Proper)
    {metadata : Fields} (known : r.metadata = .ok metadata) {map : MetadataMap}
    (isPart : ((r.manifest.member "metadata").member map.field).IsPart) :
    s.sectionOf r map = .ok (Document.ofMap (s.dedot map) (s.taken map (r.fieldsOf map))) := by
  obtain ⟨chosen, read, same⟩ := s.exists_chosen_taken map (Resource.distinct_fieldsOf proper map)
  rw [sectionOf, Resource.entries_eq known isPart]
  refine Json.bind_eq_ok.mpr ⟨_, rfl, Json.bind_eq_ok.mpr ⟨chosen, read, ?_⟩⟩
  rw [Document.ofMap, Document.ofMap, same]
  rfl

def Resource.HasMaps (r : Resource) : Prop :=
  ∀ map : MetadataMap, ((r.manifest.member "metadata").member map.field).IsPart

/-- What is taken of manifests that are the same but for the order of keys is read alike. -/
theorem Selection.SameLists.taken_congr {s s' : Selection} (same : s.SameLists s') {r r' : Resource}
    (proper : r.manifest.Proper) (proper' : r'.manifest.Proper)
    (sorted : r'.manifest.sorted = r.manifest.sorted) (map : MetadataMap) (key : Text) :
    (Table.get? (s'.taken map (r'.fieldsOf map)) key).map Value.sorted =
      (Table.get? (s.taken map (r.fieldsOf map)) key).map Value.sorted := by
  have own := Value.proper_member proper "metadata"
  have own' := Value.proper_member proper' "metadata"
  have inner := Value.member_congr own' own (Value.member_congr proper' proper sorted "metadata")
    map.field
  have alike := Value.fields_congr (Value.proper_member own' map.field)
    (Value.proper_member own map.field) inner key
  rw [Selection.get?_taken, Selection.get?_taken, same.takes]
  split
  · exact alike
  · rfl

theorem Resource.HasMaps.of_sorted {r r' : Resource} (maps : r.HasMaps) (proper : r.manifest.Proper)
    (proper' : r'.manifest.Proper) (sorted : r'.manifest.sorted = r.manifest.sorted) :
    r'.HasMaps := by
  intro map
  have inner := Value.member_congr (Value.proper_member proper' "metadata")
    (Value.proper_member proper "metadata") (Value.member_congr proper' proper sorted "metadata")
    map.field
  rw [← Value.isPart_sorted, inner, Value.isPart_sorted]
  exact maps map

namespace Projector

variable {p : Projector} {r : Resource} {kind : Kind}

/-- The document that a projector makes of a resource alone, under the field of a kind. -/
def makes (p : Projector) (kind : Kind) (r : Resource) : Except Fault Document :=
  (p.document none kind.field r []).fromStart.result

theorem exists_made (proper : r.manifest.Proper) (maps : r.HasMaps)
    (owners : ∃ refs, r.ownerReferences = .ok refs) : ∃ doc, p.makes kind r = .ok doc := by
  obtain ⟨refs, owners⟩ := owners
  obtain ⟨metadata, known, -⟩ := Json.bind_eq_ok.mp owners
  obtain ⟨name, named⟩ := Resource.exists_name known
  obtain ⟨uid, marked⟩ := Resource.exists_uid known
  obtain ⟨space, home⟩ := Resource.exists_space known
  have reads : p.Reads r _ _ name uid space refs :=
    ⟨p.selection.sectionOf_eq proper known (maps .labels),
      p.selection.sectionOf_eq proper known (maps .annotations), named, marked, home, owners⟩
  exact ⟨_, (document_eq_ok proper).mpr (plain_eq_ok.mpr ⟨_, _, _, _, _, _, reads, rfl⟩)⟩

/-- The sections of a document are made of what is taken. -/
theorem get?_section (proper : r.manifest.Proper) (maps : r.HasMaps) {doc : Document}
    (made : p.makes kind r = .ok doc) (map : MetadataMap) :
    Table.get? doc map.field = Document.shownSection
      (Document.ofMap (p.selection.dedot map) (p.selection.taken map (r.fieldsOf map))) := by
  obtain ⟨labels, annotations, name, uid, space, refs, reads, rfl⟩ :=
    plain_eq_ok.mp ((document_eq_ok proper).mp made)
  obtain ⟨metadata, known, -⟩ := Json.bind_eq_ok.mp reads.name
  have labelled := p.selection.sectionOf_eq proper known (maps .labels)
  have annotated := p.selection.sectionOf_eq proper known (maps .annotations)
  rw [reads.labels] at labelled
  rw [reads.annotations] at annotated
  cases labelled
  cases annotated
  have outside : Text.ofString kind.field ∉ sectionFields := by cases kind <;> decide
  have sections := Document.get?_sections
    (Document.get?_identifying_section outside name uid space refs)
    (Document.ofMap (p.selection.dedot .labels) (p.selection.taken .labels (r.fieldsOf .labels)))
    (Document.ofMap (p.selection.dedot .annotations)
      (p.selection.taken .annotations (r.fieldsOf .annotations)))
  cases map with
  | labels => exact sections.1
  | annotations => exact sections.2

theorem flat_section (proper : r.manifest.Proper) (maps : r.HasMaps) {doc : Document}
    (made : p.makes kind r = .ok doc) {map : MetadataMap} (flat : p.selection.dedot map = true) :
    Document.Flat (p.selection.taken map (r.fieldsOf map)) (Table.get? doc map.field) := by
  rw [get?_section proper maps made map, flat]
  exact Document.flat_shownSection (p.selection.distinct_taken map (r.distinct_fieldsOf proper map))

/-- A document is made of every resource whose labels and annotations are objects and whose owners
can be read. A section that is flat is that of what is taken. It is the same when labels to exclude
are dropped after the others are chosen, when the keys of the manifest come in another order, and
when the lists of what to take are in another order or repeat. -/
theorem flat_sections (proper : r.manifest.Proper) (maps : r.HasMaps) :
    ((∃ refs, r.ownerReferences = .ok refs) → ∃ doc, p.makes kind r = .ok doc) ∧
      ∀ doc, p.makes kind r = .ok doc →
        (∀ map : MetadataMap, p.selection.dedot map = true →
          Document.Flat (p.selection.taken map (r.fieldsOf map)) (Table.get? doc map.field)) ∧
        Table.get? doc MetadataMap.labels.field = Document.shownSection
          (Document.ofMap p.selection.dedotLabels
            (p.selection.excludedLast (r.fieldsOf .labels))) ∧
        ∀ (p' : Projector) (kind' : Kind) (r' : Resource) (doc' : Document),
          p.selection.SameLists p'.selection → r'.manifest.Proper →
          r'.manifest.sorted = r.manifest.sorted → p'.makes kind' r' = .ok doc' →
          ∀ map : MetadataMap, p.selection.dedot map = true → p'.selection.dedot map = true →
            (Table.get? doc' map.field).map Value.sorted =
              (Table.get? doc map.field).map Value.sorted := by
  refine ⟨exists_made proper maps, fun doc made =>
    ⟨fun map => flat_section proper maps made, ?_, ?_⟩⟩
  · have late := p.selection.sortFields_excludedLast (r.distinct_fieldsOf proper .labels)
    rw [get?_section proper maps made, Document.ofMap, Document.ofMap, late]
    rfl
  · intro p' kind' r' doc' same proper' sorted made' map flat flat'
    have shown := flat_section proper maps made flat
    have shown' := flat_section proper' (maps.of_sorted proper proper' sorted) made' flat'
    exact shown'.congr shown (Selection.distinct_taken _ map (r'.distinct_fieldsOf proper' map))
      (Selection.distinct_taken _ map (r.distinct_fieldsOf proper map))
      (same.taken_congr proper proper' sorted map)

def labelledPod : Resource :=
  ⟨.pod, 0, .object [("metadata", .object [("name", .string "web-1"),
    ("labels", .object [("c", .string "3"), ("x_y", .string "2"), ("x.y", .string "1"),
      ("a.b", .string "0")])])]⟩

def choosy : Projector := { selection := { excludeLabels := ["c"] } }

/-- A field has a name that no label has, and the greater of two labels gives the value. -/
theorem flat_sections_labelled : ∃ doc fields, choosy.makes .pod labelledPod = .ok doc ∧
    Table.get? doc MetadataMap.labels.field = some (.object fields) ∧
    Table.get? fields "a_b" = some (.string "0") ∧ Table.get? fields "a.b" = none ∧
    Table.get? fields "x_y" = some (.string "2") := by
  have proper : labelledPod.manifest.Proper := by
    simp only [labelledPod, Value.Proper, Json.ProperFields, Table.Distinct]
    decide
  have maps : labelledPod.HasMaps := fun map => by
    cases map
    · exact .inr rfl
    · exact .inl rfl
  have made : ∃ doc, choosy.makes .pod labelledPod = .ok doc :=
    (flat_sections proper maps).1 ⟨[], rfl⟩
  obtain ⟨doc, made⟩ := made
  have flat := ((flat_sections proper maps).2 doc made).1 .labels rfl
  cases shown : Table.get? doc MetadataMap.labels.field with
  | none => exact absurd (flat.none_iff.mp shown) (by decide)
  | some v =>
    obtain ⟨fields, rfl, -, keys, holds⟩ := flat.fields v shown
    have dotted : ¬ ("a.b" : Text) ∈ Table.keys fields :=
      fun mem => absurd ((keys "a.b").mp mem) (by decide)
    refine ⟨doc, fields, made, shown, (holds "a_b" _).mpr ⟨"a.b", by decide, by decide, by decide⟩,
      ?_, (holds "x_y" _).mpr ⟨"x_y", by decide, by decide, by decide⟩⟩
    rwa [Table.mem_keys_iff, Option.not_isSome_iff_eq_none] at dotted

end Projector

end ClusterMetadata
