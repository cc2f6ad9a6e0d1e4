import ClusterMetadata.Proofs.Deletions

/-!
# What a merge writes, path by path

A merge goes through the fields of the other document and writes each over what stands under its
name.

* `get?_mergeFields`: what stands under a name afterwards;
* `get?_merge`: what stands at a path at which the other document has something;
* `Mentions`, `get?_merge_aside`: all other paths, but for those behind a leaf of the other
  document;
* `Overlays`: what a merge has to leave at a path;
* `Trimmed`, `trimmed_part`: a document that is merged as far as there is room;
* `merge_overlays`: all of it for every document, and for the steps of a session.
-/
namespace ClusterMetadata.Document

open Json (Value Fields)

/-! ## One level -/

/-- What stands under a name after fields were merged: what the field of that name makes of what
stood there. -/
theorem get?_mergeFields {source : Fields} (distinct : Table.Distinct source) (d : Document)
    (name : Text) :
    Table.get? (mergeFields d source) name =
      ((Table.get? source name).map (mergeOver (Table.get? d name))).or (Table.get? d name) := by
  induction source generalizing d with
  | nil => rfl
  | cons field rest ih =>
    obtain ⟨first, v⟩ := field
    have once := Table.get?_of_distinct_cons distinct
    rw [mergeFields, ih (List.nodup_cons.mp distinct).2, Table.get?_insert, Table.get?]
    by_cases same : first = name
    · subst same
      rw [if_pos rfl, if_pos rfl, once]
      rfl
    · rw [if_neg same, if_neg same]

/-- The fields of the map that is there; none when something else or nothing is there. -/
def fieldsOf : Option Value → Document
  | some (.object fields) => fields
  | _ => []

theorem fieldsOf_get? (d : Document) (name : Text) :
    fieldsOf (Table.get? d name) = below d name := by
  rw [below]
  cases Table.get? d name with
  | none => rfl
  | some v => cases v <;> rfl

theorem fieldsOf_leaf {leaf : Value} (plain : leaf.isObject = false) :
    fieldsOf (some leaf) = [] := by
  cases leaf with
  | object fields => cases plain
  | _ => rfl

/-- A map is merged with the map that is there. -/
theorem mergeOver_object (existing : Option Value) (source : Fields) :
    mergeOver existing (.object source) = .object (merge (fieldsOf existing) source) := by
  cases existing with
  | none => rfl
  | some v => cases v <;> rfl

/-- A value that is not a map is left as it is. -/
theorem mergeOver_leaf {leaf : Value} (plain : leaf.isObject = false) (existing : Option Value) :
    mergeOver existing leaf = leaf := by
  cases leaf with
  | object fields => cases plain
  | _ => rfl

/-! ## Along a path -/

/-- A field of the other document is merged over the field of the same name. -/
theorem get?_merge_field {o : Document} (distinct : Table.Distinct o) {name : Text} {w : Value}
    (there : Table.get? o name = some w) (d : Document) (rest : Path) :
    get? (merge d o) (name :: rest) = (mergeOver (Table.get? d name) w).at? rest := by
  rw [get?_cons, merge, get?_mergeFields distinct, there, Option.map_some, Option.some_or,
    Option.bind_some]

/-- Under a name that the other document does not have everything stays. -/
theorem get?_merge_missing {o : Document} (distinct : Table.Distinct o) {name : Text}
    (missing : Table.get? o name = none) (d : Document) (rest : Path) :
    get? (merge d o) (name :: rest) = get? d (name :: rest) := by
  rw [get?_cons, get?_cons, merge, get?_mergeFields distinct, missing, Option.map_none,
    Option.none_or]

/-- What the other document has at a path is merged over what stands there. -/
theorem get?_merge {o : Document} (proper : (Value.object o).Proper) {p : Path} {w : Value}
    (there : get? o p = some w) (d : Document) :
    get? (merge d o) p = some (mergeOver (get? d p) w) := by
  induction p generalizing d o with
  | nil =>
    cases there
    rfl
  | cons name rest ih =>
    cases rest with
    | nil =>
      rw [get?_cons] at there
      obtain ⟨v, field, there⟩ := Option.bind_eq_some_iff.mp there
      cases there
      rw [get?_merge_field proper.1 field, get?_cons]
      cases Table.get? d name <;> rfl
    | cons next rest =>
      obtain ⟨fields, field, there⟩ := exists_fields_of_get? there
      rw [get?_merge_field proper.1 field, mergeOver_object, fieldsOf_get?, ← get?_below]
      exact ih (Json.proper_of_get? proper.2 field) there (below d name)

/-- A document says something about a path: something stands there, or a leaf stands on the way. -/
def Mentions (o : Document) (p : Path) : Prop :=
  has o p = true ∨ ∃ q leaf, q <+: p ∧ get? o q = some leaf ∧ leaf.isObject = false

theorem leafOnTheWay_iff {o : Document} {p : Path} : leafOnTheWay o p = true ↔
    ∃ q leaf, q <+: p ∧ get? o q = some leaf ∧ leaf.isObject = false := by
  induction p generalizing o with
  | nil =>
    constructor
    · intro on
      cases on
    · rintro ⟨q, leaf, on, found, plain⟩
      rw [List.prefix_nil.mp on] at found
      cases found
      cases plain
  | cons name rest ih =>
    constructor
    · intro on
      rw [leafOnTheWay] at on
      split at on
      · cases on
      · next fields there =>
        obtain ⟨q, leaf, on, found, plain⟩ := ih.mp on
        refine ⟨name :: q, leaf, List.cons_prefix_cons.mpr ⟨rfl, on⟩, ?_, plain⟩
        rw [get?_of_field there]
        exact found
      · next leaf other there =>
        refine ⟨[name], leaf, List.prefix_append [name] rest, get?_of_field there [], ?_⟩
        cases leaf with
        | object fields => exact absurd rfl (other fields)
        | _ => rfl
    · rintro ⟨q, leaf, on, found, plain⟩
      cases q with
      | nil =>
        cases found
        cases plain
      | cons first q =>
        obtain ⟨rfl, tail⟩ := List.cons_prefix_cons.mp on
        rw [get?_cons] at found
        obtain ⟨v, there, found⟩ := Option.bind_eq_some_iff.mp found
        rw [leafOnTheWay, there]
        cases v with
        | object fields => exact ih.mpr ⟨q, leaf, tail, found, plain⟩
        | _ => rfl

theorem mentions_iff {o : Document} {p : Path} :
    Mentions o p ↔ (has o p || leafOnTheWay o p) = true := by
  rw [Mentions, ← leafOnTheWay_iff, Bool.or_eq_true]

instance (o : Document) (p : Path) : Decidable (Mentions o p) :=
  decidable_of_iff _ mentions_iff.symm

theorem mentions_nil (o : Document) : Mentions o [] := .inl rfl

/-- Nothing is said about a path below a name that is there only when the name has a map, and the
map says nothing about what is left of the path. -/
theorem map_of_not_mentions {o : Document} {name : Text} {w : Value}
    (there : Table.get? o name = some w) {rest : Path} (unsaid : ¬ Mentions o (name :: rest)) :
    ∃ fields, w = .object fields ∧ ¬ Mentions fields rest := by
  rw [mentions_iff, has, get?_of_field there, leafOnTheWay, there] at unsaid
  cases w with
  | object fields => exact ⟨fields, rfl, fun said => unsaid (mentions_iff.mp said)⟩
  | _ => exact absurd (Bool.or_true _) unsaid

/-- Where the other document says nothing everything stays. -/
theorem get?_merge_aside {o : Document} (proper : (Value.object o).Proper) {p : Path}
    (unsaid : ¬ Mentions o p) (d : Document) : get? (merge d o) p = get? d p := by
  induction p generalizing d o with
  | nil => exact absurd (mentions_nil o) unsaid
  | cons name rest ih =>
    cases there : Table.get? o name with
    | none => exact get?_merge_missing proper.1 there d rest
    | some w =>
      obtain ⟨fields, rfl, unsaid⟩ := map_of_not_mentions there unsaid
      cases rest with
      | nil => exact absurd (mentions_nil fields) unsaid
      | cons next rest =>
        rw [get?_merge_field proper.1 there, mergeOver_object, fieldsOf_get?, ← get?, ← get?_below]
        exact ih (Json.proper_of_get? proper.2 there) unsaid (below d name)

/-- What a merge of another document has to leave at a path: a leaf of the other document stands
there, and nothing behind it; where it has a map there is a map; all else stays. -/
structure Overlays (d o after : Document) (p : Path) : Prop where
  leaf : ∀ v, get? o p = some v → v.isObject = false → get? after p = some v
  beyond : ∀ q v, q <+: p → q ≠ p → get? o q = some v → v.isObject = false → get? after p = none
  map : ∀ fields, get? o p = some (.object fields) → ∃ merged, get? after p = some (.object merged)
  aside : ¬ Mentions o p → get? after p = get? d p

theorem overlays_merge {o : Document} (proper : (Value.object o).Proper) (d : Document) (p : Path) :
    Overlays d o (merge d o) p where
  leaf v there plain := by rw [get?_merge proper there, mergeOver_leaf plain]
  beyond q v on before there plain := by
    obtain ⟨rest, rfl⟩ := on
    obtain ⟨name, rest, rfl⟩ : ∃ name more, rest = name :: more :=
      List.exists_cons_of_ne_nil fun none => before (by rw [none, List.append_nil])
    rw [get?, Value.at?_append, ← get?, get?_merge proper there, mergeOver_leaf plain,
      Option.bind_some, Value.at?_leaf plain]
  map fields there := by
    rw [get?_merge proper there]
    exact ⟨_, rfl⟩
  aside unsaid := get?_merge_aside proper unsaid d

/-! ## As far as there is room -/

/-- A document of which fields at the end are left out, and of the last map that is left as well. -/
inductive Trimmed : Document → Document → Prop where
  | out (o : Document) : Trimmed [] o
  | whole {t o : Document} (name : Text) (v : Value) (later : Trimmed t o) :
      Trimmed ((name, v) :: t) ((name, v) :: o)
  | within {t fields : Document} (name : Text) (o : Document) (inside : Trimmed t fields) :
      Trimmed [(name, .object t)] ((name, .object fields) :: o)

theorem get?_head (name : Text) (v : Value) (o : Document) (rest : Path) :
    get? ((name, v) :: o) (name :: rest) = v.at? rest :=
  get?_of_field (by rw [Table.get?, if_pos rfl]) rest

theorem get?_tail {name first : Text} (differ : name ≠ first) {v : Value} {o : Document}
    {rest : Path} : get? ((name, v) :: o) (first :: rest) = get? o (first :: rest) := by
  rw [get?_cons, Table.get?, if_neg differ, get?_cons]

mutual
theorem trimmed_partOver (room : Nat) (name : Text) (existing : Option Value) (o : Document) :
    (v : Value) → Trimmed (partOver room name existing v) ((name, v) :: o)
  | .object source => by
    cases existing with
    | none => exact .out _
    | some w =>
      cases w with
      | object fields => exact .within name o (trimmed_part (room - 1) fields source)
      | _ => exact .out _
  | .null | .bool _ | .int _ | .float _ | .string _ | .array _ => .out _
termination_by structural v => v

/-- What is merged before the room ends is a trimmed document. -/
theorem trimmed_part (room : Nat) (d : Document) :
    (o : List (Text × Value)) → Trimmed (part room d o) o
  | [] => .out []
  | (name, v) :: rest => by
    rw [part]
    split
    · exact .whole name v (trimmed_part room d rest)
    · exact trimmed_partOver room name _ rest v
termination_by structural o => o
end

namespace Trimmed

variable {t o : Document}

theorem keys (h : Trimmed t o) : Table.keys t <+: Table.keys o := by
  induction h with
  | out => exact List.nil_prefix
  | whole name v later ih => exact List.cons_prefix_cons.mpr ⟨rfl, ih⟩
  | within name o inside ih => exact List.cons_prefix_cons.mpr ⟨rfl, List.nil_prefix⟩

theorem proper (h : Trimmed t o) (own : (Value.object o).Proper) : (Value.object t).Proper := by
  refine ⟨h.keys.sublist.nodup own.1, ?_⟩
  induction h with
  | out => trivial
  | whole name v later ih => exact ⟨own.2.1, ih ⟨(List.nodup_cons.mp own.1).2, own.2.2⟩⟩
  | within name o inside ih =>
    exact ⟨⟨inside.keys.sublist.nodup own.2.1.1, ih own.2.1⟩, trivial⟩

/-- Where a trimmed document has something the whole one has too, a map for a map and a leaf for a
leaf. -/
theorem get? (h : Trimmed t o) {p : Path} {w : Value} (found : Document.get? t p = some w) :
    ∃ v, Document.get? o p = some v ∧ v.isObject = w.isObject := by
  cases p with
  | nil =>
    cases found
    exact ⟨.object o, rfl, rfl⟩
  | cons first rest =>
    induction h generalizing first rest w with
    | out => cases found
    | @whole t o name v later ih =>
      by_cases same : name = first
      · subst same
        rw [get?_head] at found ⊢
        exact ⟨w, found, rfl⟩
      · rw [get?_tail same] at found ⊢
        exact ih first rest found
    | @within t fields name o inside ih =>
      by_cases same : name = first
      · subst same
        rw [get?_head] at found ⊢
        cases rest with
        | nil =>
          cases found
          exact ⟨.object fields, rfl, rfl⟩
        | cons next rest => exact ih next rest found
      · rw [get?_tail same] at found
        cases found

/-- A trimmed document says nothing that the whole one does not. -/
theorem mentions (h : Trimmed t o) {p : Path} (said : Mentions t p) : Mentions o p := by
  rcases said with here | ⟨q, leaf, on, found, plain⟩
  · obtain ⟨w, found⟩ := Option.isSome_iff_exists.mp here
    obtain ⟨v, there, -⟩ := h.get? found
    exact .inl (Option.isSome_iff_exists.mpr ⟨v, there⟩)
  · obtain ⟨v, there, same⟩ := h.get? found
    exact .inr ⟨q, v, on, there, same.trans plain⟩

end Trimmed

/-- After a merge a leaf of the other document stands where it stood there, with nothing behind it;
where the other document has a map there is a map; and where it says nothing everything is as it
was. A step of a session that merges does so when there is room for the other document, and where
there is not it still leaves alone what the other document does not mention. -/
theorem merge_overlays {o : Document} (proper : (Value.object o).Proper) :
    (∀ d p, Overlays d o (merge d o) p) ∧
      ∀ (s : Session) (name : Text),
        (fits o = true → (s.merge name o).1 = Session.done ∧
          ∀ p, Overlays (s.document name) o ((s.merge name o).2.document name) p) ∧
        ∀ p, ¬ Mentions o p →
          get? ((s.merge name o).2.document name) p = get? (s.document name) p := by
  refine ⟨overlays_merge proper, fun s name => ⟨fun room => ⟨if_pos room, fun p => ?_⟩,
    fun p unsaid => ?_⟩⟩
  · rw [Session.document_merge room]
    exact overlays_merge proper (s.document name) p
  · have trimmed := trimmed_part mergingRoom (s.document name) o
    rw [Session.merge, Session.document_edit]
    exact get?_merge_aside (trimmed.proper proper) (fun said => unsaid (trimmed.mentions said)) _

def labelledPod : Document :=
  [("node", .string "n1"), ("pod", .object [("name", .string "web"),
    ("labels", .object [("app", .string "x")])])]

def unlabelled : Document :=
  [("node", .object [("name", .string "n1")]), ("pod", .object [("labels", .null)])]

/-- The node's leaf gives way to a map, the labels to a null; the pod keeps its name. -/
theorem merge_overlays_labelledPod :
    get? (merge labelledPod unlabelled) ["node", "name"] = some (.string "n1") ∧
      get? (merge labelledPod unlabelled) ["pod", "labels"] = some .null ∧
      get? (merge labelledPod unlabelled) ["pod", "labels", "app"] = none ∧
      (∃ pod, get? (merge labelledPod unlabelled) ["pod"] = some (.object pod)) ∧
      get? (merge labelledPod unlabelled) ["pod", "name"] = some (.string "web") ∧
      ((Session.start [(Session.mainDocument, labelledPod)]).merge Session.mainDocument
        unlabelled).1 = Session.done := by
  have proper : (Value.object unlabelled).Proper := by decide
  obtain ⟨overlays, steps⟩ := merge_overlays proper
  refine ⟨(overlays _ _).leaf _ (by decide) rfl, (overlays _ _).leaf _ (by decide) rfl,
    (overlays _ _).beyond ["pod", "labels"] .null (by decide) (by decide) (by decide) rfl,
    (overlays _ _).map [("labels", .null)] (by decide), ?_, ((steps _ _).1 (by decide)).1⟩
  rw [(overlays labelledPod _).aside (by decide)]
  decide

end ClusterMetadata.Document
