import Mathlib.Data.List.Induction
import ClusterMetadata.Selection
import ClusterMetadata.Proofs.NewLeaves
import ClusterMetadata.Proofs.Sections
import ClusterMetadata.Proofs.SortedValues

/-!
# Nested sections

A nested section reads a dotted key as a path and writes the entries one after the other. What it
says does not depend on the order, as long as no path goes on through the field `value` of another.

* `SameLeaves.sorted`: documents with the same leaves are the same but for the order of keys;
* `Path.spot`: a value stands at its path, or under `value` there when another path goes on;
* `Spells`: the leaves of a document are the values of some entries, each at its spot;
* `spells_append`, `spells_written`: one entry more, and all of them;
* `nested_section`: a section spells its entries, in whatever order they are written.
-/
namespace ClusterMetadata

open Json (Value Fields)

/-- Every value holds a leaf, if it is not one itself. -/
theorem Json.Value.exists_leaf : (v : Value) → ∃ p leaf, v.at? p = some leaf ∧ leaf.branches = false
  | .object ((name, w) :: rest) => by
    obtain ⟨p, leaf, there, plain⟩ := exists_leaf w
    refine ⟨name :: p, leaf, ?_, plain⟩
    rw [at?_object_cons, Table.get?, if_pos rfl]
    exact there
  | .object [] | .null | .bool _ | .int _ | .float _ | .string _ | .array _ =>
    ⟨[], _, by rw [at?], rfl⟩

namespace Document

/-- Two documents have the same leaves at the same paths. -/
def SameLeaves (d d' : Document) : Prop :=
  ∀ p leaf, p ≠ [] → leaf.branches = false → (get? d p = some leaf ↔ get? d' p = some leaf)

theorem SameLeaves.symm {d d' : Document} (same : SameLeaves d d') : SameLeaves d' d :=
  fun p leaf on plain => (same p leaf on plain).symm

/-- A field that leads to a leaf is there with the same leaf. -/
theorem SameLeaves.field {d d' : Document} (same : SameLeaves d d') {name : Text} {v : Value}
    (found : Table.get? d name = some v) {p : Path} {leaf : Value} (there : v.at? p = some leaf)
    (plain : leaf.branches = false) :
    ∃ w, Table.get? d' name = some w ∧ w.at? p = some leaf := by
  rw [← get?_of_field found, same _ _ (List.cons_ne_nil name p) plain, get?_cons] at there
  exact Option.bind_eq_some_iff.mp there

theorem SameLeaves.below {d d' : Document} (same : SameLeaves d d') {name : Text}
    {fields fields' : Fields} (found : Table.get? d name = some (.object fields))
    (found' : Table.get? d' name = some (.object fields')) : SameLeaves fields fields' := by
  intro p leaf _ plain
  have whole := same (name :: p) leaf (List.cons_ne_nil name p) plain
  rw [get?_of_field found, get?_of_field found'] at whole
  exact whole

/-- Documents with the same leaves are the same but for the order of keys. -/
theorem SameLeaves.sorted {d d' : Document} (same : SameLeaves d d')
    (proper : (Value.object d).Proper) (proper' : (Value.object d').Proper) :
    (Value.object d).sorted = (Value.object d').sorted := by
  refine (Value.sorted_object_iff proper.1 proper'.1).mpr fun name => ?_
  cases found : Table.get? d name with
  | none =>
    cases found' : Table.get? d' name with
    | none => rfl
    | some w =>
      obtain ⟨p, leaf, there, plain⟩ := w.exists_leaf
      obtain ⟨v, other, -⟩ := same.symm.field found' there plain
      rw [found] at other
      cases other
  | some v =>
    obtain ⟨p, leaf, there, plain⟩ := v.exists_leaf
    obtain ⟨w, found', there'⟩ := same.field found there plain
    rw [found']
    cases p with
    | nil =>
      rw [Value.at?] at there there'
      cases there
      cases there'
      rfl
    | cons next p =>
      -- Both are maps, as the leaf is inside.
      cases v with
      | object fields =>
        cases w with
        | object fields' =>
          have inside := Table.mem_of_get? found
          have own := Json.proper_of_get? proper.2 found
          have own' := Json.proper_of_get? proper'.2 found'
          exact congrArg some ((same.below found found').sorted own own')
        | _ => cases there'
      | _ => cases there
termination_by sizeOf d
decreasing_by
  have := List.sizeOf_lt_of_mem inside
  simp at this
  omega

/-! ## Where the values stand -/

end Document

/-- Where the value of a path stands among those of other paths: under `value` in the map at the
path when one of them goes on from it. -/
def Path.spot (paths : List Path) (p : Path) : Path :=
  if ∃ q ∈ paths, p <+: q ∧ p ≠ q then p ++ [Document.valueField] else p

namespace Path

theorem isPrefix_spot (paths : List Path) (p : Path) : p <+: p.spot paths := by
  rw [spot]
  split
  · exact List.prefix_append ..
  · exact List.prefix_refl p

theorem spot_ne_nil (paths : List Path) {p : Path} (rooted : p ≠ []) : p.spot paths ≠ [] := by
  intro none
  have short := isPrefix_spot paths p
  rw [none] at short
  exact rooted (List.prefix_nil.mp short)

/-- Only which paths there are matters. -/
theorem spot_congr {paths paths' : List Path} (same : ∀ q, q ∈ paths ↔ q ∈ paths') (p : Path) :
    p.spot paths = p.spot paths' := by
  simp only [spot, same]

/-- What is on the way to a spot is on the way to its path, when it does not go through the field
`value` there. -/
theorem isPrefix_of_spot {paths : List Path} {p q : Path}
    (clear : ¬ q ++ [Document.valueField] <+: p) (on : p <+: q.spot paths) : p <+: q := by
  rw [spot] at on
  split at on
  · rcases List.prefix_concat_iff.mp on with same | on
    · exact absurd (same ▸ List.prefix_refl p) clear
    · exact on
  · exact on

/-- A path that is on the way to another stands at its own end, when that other does not go through
its field `value`. -/
theorem spot_of_on {paths : List Path} {p k : Path} (clear : ¬ p ++ [Document.valueField] <+: k)
    (on : p.spot paths <+: k) : p.spot paths = p := by
  rw [spot] at on ⊢
  split
  · next more =>
    rw [if_pos more] at on
    exact absurd on clear
  · rfl

/-- A new path moves the values of those that it goes on from. -/
theorem spot_append_of_on {paths : List Path} {p k : Path} (on : p <+: k) (apart : p ≠ k) :
    p.spot (paths ++ [k]) = p ++ [Document.valueField] :=
  if_pos ⟨k, by simp, on, apart⟩

theorem spot_append_of_off {paths : List Path} {p k : Path} (off : ¬ p.spot paths <+: k) :
    p.spot (paths ++ [k]) = p.spot paths := by
  by_cases more : ∃ q ∈ paths, p <+: q ∧ p ≠ q
  · obtain ⟨q, mem, on, apart⟩ := more
    rw [spot, if_pos ⟨q, by simp [mem], on, apart⟩, spot, if_pos ⟨q, mem, on, apart⟩]
  · have own : p.spot paths = p := if_neg more
    rw [own] at off ⊢
    refine if_neg ?_
    rintro ⟨q, mem, on, apart⟩
    rcases List.mem_append.mp mem with mem | mem
    · exact more ⟨q, mem, on, apart⟩
    · rw [List.mem_singleton] at mem
      exact off (mem ▸ on)

end Path

namespace Document

/-- Texts at paths of which none comes twice and none goes on through the field `value` of
another. -/
structure Separate (entries : List (Path × Text)) : Prop where
  rooted : ∀ e ∈ entries, e.1 ≠ []
  once : (entries.map Prod.fst).Nodup
  clear : ∀ e ∈ entries, ∀ e' ∈ entries, ¬ e.1 ++ [valueField] <+: e'.1

/-- The leaves of a document are the texts of some entries, each at its spot. -/
def Spells (entries : List (Path × Text)) (d : Document) : Prop :=
  ∀ q leaf, q ≠ [] → leaf.branches = false →
    (get? d q = some leaf ↔
      ∃ e ∈ entries, q = e.1.spot (entries.map Prod.fst) ∧ leaf = .string e.2)

/-- The document that entries become when they are written carefully, one after the other. -/
def written (entries : List (Path × Text)) : Document :=
  entries.foldl (fun d e => safePut d e.1 (.string e.2)) []

theorem Spells.at {entries : List (Path × Text)} {d : Document} (spells : Spells entries d)
    (separate : Separate entries) {e : Path × Text} (mem : e ∈ entries) :
    get? d (e.1.spot (entries.map Prod.fst)) = some (.string e.2) :=
  (spells _ _ (Path.spot_ne_nil _ (separate.rooted e mem)) rfl).mpr ⟨e, mem, rfl, rfl⟩

theorem Spells.of_perm {entries entries' : List (Path × Text)} {d : Document}
    (spells : Spells entries d) (perm : entries.Perm entries') : Spells entries' d := by
  intro q leaf on plain
  have paths (p : Path) : p.spot (entries.map Prod.fst) = p.spot (entries'.map Prod.fst) :=
    Path.spot_congr (fun q => (perm.map Prod.fst).mem_iff) p
  simp only [spells q leaf on plain, paths, perm.mem_iff]

theorem Separate.of_perm {entries entries' : List (Path × Text)} (separate : Separate entries)
    (perm : entries.Perm entries') : Separate entries' where
  rooted e mem := separate.rooted e (perm.mem_iff.mpr mem)
  once := (perm.map Prod.fst).nodup_iff.mp separate.once
  clear e mem e' mem' := separate.clear e (perm.mem_iff.mpr mem) e' (perm.mem_iff.mpr mem')

theorem Separate.of_append {entries : List (Path × Text)} {e : Path × Text}
    (separate : Separate (entries ++ [e])) : Separate entries where
  rooted e mem := separate.rooted e (by simp [mem])
  once := by
    have once := separate.once
    rw [List.map_append] at once
    exact (List.nodup_append.mp once).1
  clear e mem e' mem' := separate.clear e (by simp [mem]) e' (by simp [mem'])

section

variable {entries : List (Path × Text)} {k : Path} {text : Text} {d : Document}

theorem Separate.apart (separate : Separate (entries ++ [(k, text)])) {e : Path × Text}
    (mem : e ∈ entries) : e.1 ≠ k := by
  rintro rfl
  have once := separate.once
  rw [List.map_append, List.nodup_append] at once
  exact once.2.2 e.1 (List.mem_map_of_mem mem) e.1 (by simp) rfl

/-- There is a map at a new path when one of the others goes on from it. -/
theorem Spells.map_iff (spells : Spells entries d) (separate : Separate (entries ++ [(k, text)])) :
    (get? d k).any (·.isObject) = true ↔ ∃ q ∈ entries.map Prod.fst, k <+: q ∧ k ≠ q := by
  have rooted : k ≠ [] := separate.rooted (k, text) (by simp)
  constructor
  · intro map
    obtain ⟨v, there, -⟩ := (Option.any_eq_true _ _).mp map
    obtain ⟨p, leaf, inside, plain⟩ := v.exists_leaf
    have found : get? d (k ++ p) = some leaf := by
      rw [get?, Value.at?_append, ← get?, there]
      exact inside
    obtain ⟨e, mem, at_, -⟩ := (spells _ _ (by simp [rooted]) plain).mp found
    have on : k <+: e.1.spot (entries.map Prod.fst) := at_ ▸ List.prefix_append k p
    have clear := separate.clear e (by simp [mem]) (k, text) (by simp)
    exact ⟨e.1, List.mem_map_of_mem mem, Path.isPrefix_of_spot clear on,
      (separate.apart mem).symm⟩
  · rintro ⟨q, listed, on, apart⟩
    obtain ⟨e, mem, rfl⟩ := List.mem_map.mp listed
    obtain ⟨rest, far⟩ := on.trans (Path.isPrefix_spot (entries.map Prod.fst) e.1)
    have there := spells.at separate.of_append mem
    rw [← far, get?, Value.at?_append, ← get?] at there
    obtain ⟨v, here, leads⟩ := Option.bind_eq_some_iff.mp there
    have further : rest ≠ [] := by
      rintro rfl
      rw [List.append_nil] at far
      exact apart (on.eq_of_length_le (far ▸ (Path.isPrefix_spot _ e.1).length_le))
    cases isMap : v.isObject with
    | true => simp [here, isMap]
    | false => exact absurd (at?_of_not_object isMap leads).1 further

/-- A new text lands at its spot. -/
theorem Spells.landing_eq (spells : Spells entries d)
    (separate : Separate (entries ++ [(k, text)])) :
    landing d k (.string text) = k.spot ((entries ++ [(k, text)]).map Prod.fst) := by
  have own (q : Path) : (q ∈ (entries ++ [(k, text)]).map Prod.fst ∧ k <+: q ∧ k ≠ q) ↔
      (q ∈ entries.map Prod.fst ∧ k <+: q ∧ k ≠ q) := by
    rw [List.map_append, List.mem_append, List.map_singleton, List.mem_singleton]
    constructor
    · rintro ⟨mem | rfl, on, apart⟩
      · exact ⟨mem, on, apart⟩
      · exact absurd rfl apart
    · rintro ⟨mem, on, apart⟩
      exact ⟨.inl mem, on, apart⟩
  refine if_congr ?_ rfl rfl
  simp only [own]
  rw [← spells.map_iff separate]
  exact and_iff_right rfl

/-- No entry stands where a new text lands. -/
theorem Separate.off_landing (separate : Separate (entries ++ [(k, text)]))
    (spells : Spells entries d) {e : Path × Text} (mem : e ∈ entries) :
    ¬ landing d k (.string text) <+: e.1.spot (entries.map Prod.fst) := by
  have new : (k, text) ∈ entries ++ [(k, text)] := by simp
  have old : e ∈ entries ++ [(k, text)] := by simp [mem]
  have clear := separate.clear e old _ new
  have apart := separate.apart mem
  intro on
  have toward := Path.isPrefix_of_spot clear ((prefix_landing d k _).trans on)
  rw [spells.landing_eq separate, Path.spot,
    if_pos ⟨e.1, List.mem_map_of_mem old, toward, apart.symm⟩] at on
  refine separate.clear _ new e old (Path.isPrefix_of_spot (fun far => ?_) on)
  rcases List.prefix_concat_iff.mp far with same | far
  · exact apart (List.append_cancel_right same)
  · exact clear far

/-- A path goes on from an entry that is on the way to it, but not through the field `value`. -/
theorem Separate.room_eq (separate : Separate (entries ++ [(k, text)])) {e : Path × Text}
    (mem : e ∈ entries) {rest : Path} (along : k = e.1 ++ rest) :
    room rest = some [valueField] := by
  cases rest with
  | nil =>
    rw [List.append_nil] at along
    exact absurd along.symm (separate.apart mem)
  | cons name rest =>
    refine if_neg ?_
    rintro rfl
    refine separate.clear e (by simp [mem]) (k, text) (by simp) ⟨rest, ?_⟩
    rw [List.append_assoc]
    exact along.symm

/-- The text of an entry stands at its spot among the paths, the new one included. -/
theorem Spells.kept (spells : Spells entries d) (separate : Separate (entries ++ [(k, text)]))
    {e : Path × Text} (mem : e ∈ entries) :
    get? (safePut d k (.string text)) (e.1.spot (entries.map Prod.fst ++ [k])) =
      some (.string e.2) := by
  have rooted : k ≠ [] := separate.rooted (k, text) (by simp)
  have clear := separate.clear e (by simp [mem]) (k, text) (by simp)
  have there := spells.at separate.of_append mem
  cases fate_of_leaf rooted (.string text) there rfl with
  | stays off _ found =>
    rw [Path.spot_append_of_off off]
    exact found
  | moves rest free along _ room found =>
    have own := Path.spot_of_on clear (along ▸ List.prefix_append _ rest)
    rw [own] at along found
    rw [separate.room_eq mem along, Option.some.injEq] at room
    rw [Path.spot_append_of_on (along ▸ List.prefix_append ..) (separate.apart mem), room]
    exact found
  | replaced rest below _ =>
    exact absurd (below ▸ List.prefix_append ..) (separate.off_landing spells mem)
  | dropped rest along lost _ =>
    have own := Path.spot_of_on clear (along ▸ List.prefix_append _ rest)
    rw [own] at along
    rw [separate.room_eq mem along] at lost
    rcases lost with lost | lost <;> cases lost

/-- One entry more: its text lands at its spot, and the texts on the way move to theirs. -/
theorem Spells.append (spells : Spells entries d) (separate : Separate (entries ++ [(k, text)])) :
    Spells (entries ++ [(k, text)]) (safePut d k (.string text)) := by
  have rooted : k ≠ [] := separate.rooted (k, text) (by simp)
  have lands := spells.landing_eq separate
  have paths : (entries ++ [(k, text)]).map Prod.fst = entries.map Prod.fst ++ [k] := by simp
  intro q leaf on plain
  constructor
  · intro found
    cases origin_of_leaf rooted rfl plain found with
    | landed here same => exact ⟨(k, text), by simp, here.trans lands, same⟩
    | stood there off =>
      obtain ⟨e, mem, rfl, rfl⟩ := (spells q leaf on plain).mp there
      refine ⟨e, by simp [mem], ?_, rfl⟩
      rw [paths, Path.spot_append_of_off off]
    | moved p rest free along there leafy room now =>
      have fore : p ≠ [] := by
        rintro rfl
        cases there
        cases leafy
      obtain ⟨e, mem, rfl, rfl⟩ := (spells p leaf fore plain).mp there
      have clear := separate.clear e (by simp [mem]) (k, text) (by simp)
      have own := Path.spot_of_on clear (along ▸ List.prefix_append _ rest)
      rw [own] at along now
      rw [separate.room_eq mem along, Option.some.injEq] at room
      refine ⟨e, by simp [mem], ?_, rfl⟩
      rw [paths, Path.spot_append_of_on (along ▸ List.prefix_append ..) (separate.apart mem), now,
        room]
  · rintro ⟨e, mem, rfl, rfl⟩
    rcases List.mem_append.mp mem with mem | mem
    · rw [paths]
      exact spells.kept separate mem
    · rw [List.mem_singleton] at mem
      subst mem
      rw [← lands]
      exact get?_safePut_landing d rooted _

end

/-- What is written carefully is spelled. -/
theorem spells_written {entries : List (Path × Text)} (separate : Separate entries) :
    Spells entries (written entries) := by
  induction entries using List.reverseRecOn with
  | nil =>
    intro q leaf on _
    obtain ⟨name, rest, rfl⟩ := List.exists_cons_of_ne_nil on
    simp [written, get?_cons]
  | append_singleton entries e ih =>
    rw [written, List.foldl_append]
    exact (ih separate.of_append).append separate

theorem proper_written (entries : List (Path × Text)) :
    (Value.object (written entries)).Proper := by
  induction entries using List.reverseRecOn with
  | nil => exact ⟨List.nodup_nil, trivial⟩
  | append_singleton entries e ih =>
    rw [written, List.foldl_append]
    exact proper_safePut ih e.1 trivial

/-- Documents that spell the same entries have the same leaves. -/
theorem Spells.sameLeaves {entries : List (Path × Text)} {d d' : Document}
    (spells : Spells entries d) (spells' : Spells entries d') : SameLeaves d d' :=
  fun q leaf on plain => (spells q leaf on plain).trans (spells' q leaf on plain).symm

/-- In whatever order separate entries are written, the document is the same but for the order of
keys. -/
theorem sorted_written {entries entries' : List (Path × Text)} (separate : Separate entries)
    (perm : entries'.Perm entries) :
    (Value.object (written entries')).sorted = (Value.object (written entries)).sorted :=
  (((spells_written (separate.of_perm perm.symm)).of_perm perm).sameLeaves
    (spells_written separate)).sorted (proper_written _) (proper_written _)

/-! ## Sections of texts -/

/-- The entries of a map from keys to texts, each at the path of its key. -/
def pathEntries (source : Table Text Text) : List (Path × Text) :=
  source.map fun entry => (.ofKey entry.1, entry.2)

def textFields (source : Table Text Text) : Fields :=
  source.map fun entry => (entry.1, .string entry.2)

theorem ofKey_injective {key key' : Text} (same : Path.ofKey key = Path.ofKey key') : key = key' :=
  Text.le_antisymm (Path.le_of_isPrefix (same ▸ List.prefix_refl _))
    (Path.le_of_isPrefix (same ▸ List.prefix_refl _))

theorem separate_pathEntries {source : Table Text Text} (distinct : Table.Distinct source)
    (clear : ∀ e ∈ source, ∀ e' ∈ source,
      ¬ Path.ofKey e.1 ++ [valueField] <+: Path.ofKey e'.1) : Separate (pathEntries source) where
  rooted := by
    intro e mem
    obtain ⟨entry, -, rfl⟩ := List.mem_map.mp mem
    exact Path.ofKey_ne_nil entry.1
  once := by
    have paths : (pathEntries source).map Prod.fst = (Table.keys source).map Path.ofKey := by
      simp [pathEntries, Table.keys]
    rw [paths]
    exact List.pairwise_map.mpr (distinct.imp fun apart same => apart (ofKey_injective same))
  clear := by
    intro e mem e' mem'
    obtain ⟨entry, among, rfl⟩ := List.mem_map.mp mem
    obtain ⟨entry', among', rfl⟩ := List.mem_map.mp mem'
    exact clear entry among entry' among'

/-- A nested section of texts is written carefully by ascending key. -/
theorem ofMap_textFields (source : Table Text Text) :
    ofMap false (textFields source) =
      written (pathEntries (source.mergeSort fun a b => a.1.le b.1)) := by
  have sorted : Json.sortFields (textFields source) =
      textFields (source.mergeSort fun a b => a.1.le b.1) :=
    (List.map_mergeSort (f := fun entry : Text × Text => (entry.1, Value.string entry.2))
      fun _ _ _ _ => rfl).symm
  rw [ofMap, sorted, written, textFields, pathEntries, List.foldl_map, List.foldl_map]
  rfl

/-- In whatever order the texts of a map are put at the paths of their keys, the document is the
nested section of the map, but for the order of keys. Each text is at the path of its key, or under
`value` there when another key goes on from it, and there are no other leaves. -/
theorem nested_section {source : Table Text Text} (distinct : Table.Distinct source)
    (clear : ∀ e ∈ source, ∀ e' ∈ source,
      ¬ Path.ofKey e.1 ++ [valueField] <+: Path.ofKey e'.1) :
    (∀ entries : Table Text Text, entries.Perm source →
      (Value.object (written (pathEntries entries))).sorted =
        (Value.object (ofMap false (textFields source))).sorted) ∧
      Spells (pathEntries source) (ofMap false (textFields source)) := by
  have separate := separate_pathEntries distinct clear
  have sorted : (pathEntries (source.mergeSort fun a b => a.1.le b.1)).Perm (pathEntries source) :=
    (List.mergeSort_perm source _).map _
  rw [ofMap_textFields]
  constructor
  · intro entries perm
    exact (sorted_written separate (perm.map _)).trans (sorted_written separate sorted).symm
  · exact (spells_written (separate.of_perm sorted.symm)).of_perm sorted

def appLabels : Table Text Text := [("app", "x"), ("app.kubernetes.io/name", "y")]

def appSection : Fields :=
  [("app", .object [("value", .string "x"), ("kubernetes", .object [("io/name", .string "y")])])]

theorem nested_app_section :
    (Value.object (ofMap false (textFields appLabels))).sorted = (Value.object appSection).sorted ∧
      (Value.object (written (pathEntries appLabels.reverse))).sorted =
        (Value.object (ofMap false (textFields appLabels))).sorted ∧
      Spells (pathEntries appLabels) (ofMap false (textFields appLabels)) := by
  have distinct : Table.Distinct appLabels := show List.Nodup _ by decide
  have whole := nested_section distinct (by decide)
  have same : written (pathEntries appLabels) = appSection := by decide +kernel
  refine ⟨?_, whole.1 _ (List.reverse_perm _), whole.2⟩
  rw [← same]
  exact (whole.1 _ (List.Perm.refl _)).symm

end Document
end ClusterMetadata
