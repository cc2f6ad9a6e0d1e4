import ClusterMetadata.Proofs.Runs
import ClusterMetadata.Proofs.SameDrafts

/-!
# Manifests without repeated keys

The manifests that a source holds are read from a text, so no key comes twice in what is read off
them.

* `proper_entries`: the labels and annotations of a resource;
* `proper_entriesOf`: what goes into its sections;
* `proper_last`: the resources of a source.
-/
namespace ClusterMetadata

open Json (Value Fields ProperFields properItems_iff properFields_iff proper_of_get?)

namespace Json

theorem proper_value {fields : Fields} (h : ProperFields fields) (name : Text) :
    (fields.value name).Proper := by
  rw [Fields.value]
  cases found : Table.get? fields name with
  | none => trivial
  | some v => exact proper_of_get? h found

theorem proper_fieldsOf {v : Value} (h : v.Proper) {fields : Fields}
    (read : v.fieldsOf = .ok fields) : ProperFields fields := by
  cases v with
  | object own =>
    cases read
    exact h.2
  | _ => cases read

theorem proper_part {fields part : Fields} (h : ProperFields fields) {name : Text}
    (read : fields.part name = .ok part) : ProperFields part := by
  rw [Fields.part] at read
  split at read
  · cases read
    trivial
  · exact proper_fieldsOf (proper_value h name) read

end Json

namespace Entries

/-- No key comes twice in the values of entries. -/
def Proper (entries : Entries) : Prop := ∀ entry ∈ entries, entry.2.Proper

theorem proper_insert {entries : Entries} (h : entries.Proper) (key : Value) {value : Value}
    (proper : value.Proper) : (entries.insert key value).Proper := by
  induction entries with
  | nil =>
    intro entry mem
    cases List.mem_singleton.mp mem
    exact proper
  | cons first rest ih =>
    have others : Proper rest := fun entry mem => h entry (List.mem_cons_of_mem _ mem)
    rw [insert]
    split
    · intro entry mem
      rcases List.mem_cons.mp mem with rfl | mem
      · exact proper
      · exact others entry mem
    · intro entry mem
      rcases List.mem_cons.mp mem with rfl | mem
      · exact h _ List.mem_cons_self
      · exact ih others entry mem

theorem proper_signs (t : Text) : ∀ v ∈ signs t, v.Proper := by
  intro v mem
  obtain ⟨point, -, rfl⟩ := List.mem_map.mp mem
  trivial

theorem proper_parts {v : Value} (h : v.Proper) {parts : List Value} (read : parts? v = some parts) :
    ∀ part ∈ parts, part.Proper := by
  cases v with
  | array items =>
    cases read
    exact properItems_iff.mp h
  | string s =>
    cases read
    exact proper_signs s
  | object fields =>
    cases read
    intro part mem
    obtain ⟨field, -, rfl⟩ := List.mem_map.mp mem
    trivial
  | _ => cases read

/-- What every entry that is inserted keeps holds of the entries that pairs become. -/
theorem addPairs_keeps {motive : Entries → Prop} {items : List Value}
    (keeps : ∀ item ∈ items, ∀ key value, parts? item = some [key, value] →
      ∀ entries : Entries, motive entries → motive (entries.insert key value))
    {entries : Entries} (h : motive entries) {index : Nat} {result : Entries}
    (added : addPairs entries index items = .ok result) : motive result := by
  induction items generalizing entries index with
  | nil =>
    cases added
    exact h
  | cons item rest ih =>
    rw [addPairs] at added
    split at added
    · cases added
    · cases added
    · cases added
    · next key value _ _ read =>
      have inserted := keeps item List.mem_cons_self key value read entries h
      exact ih (fun other mem => keeps other (List.mem_cons_of_mem _ mem)) inserted added
    · cases added

/-- The entries of a value are the fields of an object, or are inserted one after the other. -/
theorem ofValue_keeps {motive : Entries → Prop} {v : Value} (nothing : motive [])
    (whole : ∀ fields, v = .object fields →
      motive (fields.map fun field => (.string field.1, field.2)))
    (keeps : ∀ items, parts? v = some items → ∀ item ∈ items, ∀ key value,
      parts? item = some [key, value] →
        ∀ entries : Entries, motive entries → motive (entries.insert key value))
    {entries : Entries} (read : ofValue v = .ok entries) : motive entries := by
  unfold ofValue at read
  split at read
  · cases read
    exact nothing
  · split at read
    · cases read
      exact whole _ rfl
    · exact addPairs_keeps (keeps _ rfl) nothing read
    · exact addPairs_keeps (keeps _ rfl) nothing read
    · cases read

theorem proper_ofValue {v : Value} (h : v.Proper) {entries : Entries}
    (read : ofValue v = .ok entries) : entries.Proper := by
  refine ofValue_keeps (motive := Proper) nofun ?_ ?_ read
  · rintro fields rfl entry mem
    obtain ⟨field, own, rfl⟩ := List.mem_map.mp mem
    exact properFields_iff.mp h.2 field own
  · intro items taken item mem key value pair others proper
    have own := proper_parts (proper_parts h taken item mem) pair value (by simp)
    exact proper_insert proper key own

theorem proper_textFields {entries : Entries} (h : entries.Proper) :
    ProperFields entries.textFields := by
  refine properFields_iff.mpr fun field mem => ?_
  obtain ⟨⟨key, value⟩, taken, named⟩ := List.mem_filterMap.mp mem
  cases key with
  | string text =>
    cases named
    exact h _ taken
  | _ => cases named

end Entries

namespace Resource

theorem proper_entries {r : Resource} (proper : r.manifest.Proper) {map : MetadataMap}
    {entries : Entries} (read : r.entries map = .ok entries) : entries.Proper := by
  obtain ⟨metadata, found, read⟩ := Json.bind_eq_ok.mp read
  obtain ⟨fields, whole, part⟩ := Json.bind_eq_ok.mp found
  have own := Json.proper_part (Json.proper_fieldsOf proper whole) part
  exact Entries.proper_ofValue (Json.proper_value own map.field) read

end Resource

namespace Selection

theorem proper_pick {source : Fields} (h : ProperFields source) (names : List Text) :
    ProperFields (pick source names) := by
  have inserted (taken : List (Text × Value)) (proper : ProperFields taken) (start : Fields)
      (own : ProperFields start) :
      ProperFields (taken.foldl (fun t entry => Table.insert t entry.1 entry.2) start) := by
    induction taken generalizing start with
    | nil => exact own
    | cons entry rest ih => exact ih proper.2 _ (Json.properFields_insert own entry.1 proper.1)
  refine inserted _ (properFields_iff.mpr fun field mem => ?_) [] trivial
  obtain ⟨name, -, found⟩ := List.mem_filterMap.mp mem
  obtain ⟨v, there, rfl⟩ := Option.map_eq_some_iff.mp found
  exact proper_of_get? h there

/-- What is chosen are the texts of some entries, or those that are picked among them by name. -/
theorem chosen_cases {s : Selection} {map : MetadataMap} {entries : Entries} {chosen : Fields}
    (taken : s.chosen map entries = .ok chosen) : ∃ among : Entries, among.Sublist entries ∧
      (chosen = among.textFields ∨ ∃ names, chosen = pick among.textFields names) := by
  cases map with
  | annotations =>
    cases taken
    exact ⟨entries, .refl _, .inr ⟨_, rfl⟩⟩
  | labels =>
    have part : (s.kept entries).Sublist entries := List.filter_sublist
    rw [Selection.chosen, chosenLabels] at taken
    split at taken
    · rw [Entries.named] at taken
      split at taken
      · cases taken
        exact ⟨_, part, .inl rfl⟩
      · split at taken <;> cases taken
    · cases taken
      exact ⟨_, part, .inr ⟨_, rfl⟩⟩

theorem proper_chosen {s : Selection} {map : MetadataMap} {entries : Entries}
    (h : entries.Proper) {chosen : Fields} (taken : s.chosen map entries = .ok chosen) :
    ProperFields chosen := by
  obtain ⟨among, part, same⟩ := chosen_cases taken
  have texts : ProperFields among.textFields :=
    Entries.proper_textFields fun entry mem => h entry (part.subset mem)
  rcases same with rfl | ⟨names, rfl⟩
  · exact texts
  · exact proper_pick texts names

/-- No key comes twice in what goes into a section. -/
theorem proper_entriesOf (s : Selection) {r : Resource} (proper : r.manifest.Proper)
    (map : MetadataMap) : ∀ entry ∈ s.entriesOf r map, entry.2.Proper := by
  intro entry mem
  rw [entriesOf] at mem
  split at mem
  · next chosen read =>
    obtain ⟨entries, read, taken⟩ := Json.bind_eq_ok.mp read
    have own := proper_chosen (Resource.proper_entries proper read) taken
    rw [Json.sortFields, List.mem_mergeSort] at mem
    exact properFields_iff.mp own entry mem
  · cases mem

end Selection

namespace CommandLine

/-- No key comes twice in the manifests of a source. -/
theorem World.proper_holds {world : World} {source : Source} {manifests : List Value}
    (held : world.holds source manifests) : ∀ manifest ∈ manifests, manifest.Proper := by
  obtain ⟨text, v, -, parsed, found⟩ := held
  have proper := Json.proper_parse parsed
  unfold manifestsOf? at found
  obtain ⟨all, taken, rfl⟩ := Option.map_eq_some_iff.mp found
  intro manifest mem
  have mem := (List.mem_filter.mp mem).1
  cases v with
  | array items =>
    cases taken
    exact properItems_iff.mp proper manifest mem
  | object fields =>
    dsimp only at taken
    split at taken
    · next items there =>
      cases taken
      have own := proper_of_get? proper.2 there
      exact properItems_iff.mp own manifest mem
    · cases taken
      cases List.mem_singleton.mp mem
      exact proper
  | _ => cases taken

end CommandLine

theorem manifest_mem_of_last? {manifests : List Value} {id : Identity} {r : Resource}
    (found : last? manifests id = some r) : r.manifest ∈ manifests := by
  have mem := List.mem_of_find?_eq_some found
  obtain ⟨manifest, mem, seen⟩ := List.mem_filterMap.mp (List.mem_reverse.mp mem)
  have own : r.manifest = manifest := by
    unfold Resource.seen? at seen
    split at seen
    · next view read =>
      subst seen
      obtain ⟨name, -, viewed⟩ := Json.bind_eq_ok.mp read
      obtain ⟨kind, -, rfl⟩ := Option.map_eq_some_iff.mp (Except.ok.inj viewed)
      rfl
    · cases seen
  exact own ▸ mem

theorem proper_last {manifests : List Value} (proper : ∀ manifest ∈ manifests, manifest.Proper)
    {id : Identity} {r : Resource} (found : last? manifests id = some r) : r.manifest.Proper :=
  proper r.manifest (manifest_mem_of_last? found)

end ClusterMetadata
