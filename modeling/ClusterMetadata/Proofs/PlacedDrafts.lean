import ClusterMetadata.Proofs.SharedWrites
import ClusterMetadata.Proofs.ShownDrafts

/-!
# Writing into the drafts of sections

In the draft of a section every shared map stands at its place. Writing there is writing into the
document that the draft shows, whether the path leads into maps of the draft's own or into shared
ones.

* `Seated`: a node shows a value, and the shared maps in it are where they belong;
* `Put`: what a write leaves of a draft and of the shelf;
* `put_safePut`: writing at a path is writing into the document.
-/
namespace ClusterMetadata.Draft

open Json (Value Fields)
open Inventory (Changes)

def nodeAt? (shelf : Shelf) : Node → Path → Option Node
  | node, [] => some node
  | .leaf _, _ :: _ => none
  | .map fields, name :: rest => at? shelf fields (name :: rest)
  | .shared m, name :: rest => (shelf.at? m (name :: rest)).map Node.ofSlot

theorem at?_cons (shelf : Shelf) (d : Draft) (name : Text) (rest : Path) :
    d.at? shelf (name :: rest) = (Table.get? d name).bind (nodeAt? shelf · rest) := by
  cases rest with
  | nil =>
    rw [at?]
    cases Table.get? d name with
    | none => rfl
    | some node => cases node <;> rfl
  | cons next rest =>
    rw [at?]
    cases Table.get? d name with
    | none => rfl
    | some node => cases node <;> rfl

/-! ## Shared maps at their places -/

mutual
/-- The shared maps in a node are where they belong below a place, and no name comes twice. -/
def Node.Placed (ledger : Ledger) : Place → Node → Prop
  | _, .leaf _ => True
  | place, .map fields => Table.Distinct fields ∧ PlacedFields ledger place fields
  | place, .shared m => ledger m = place
termination_by structural _ node => node

def PlacedFields (ledger : Ledger) : Place → List (Text × Node) → Prop
  | _, [] => True
  | place, (name, node) :: rest =>
    Node.Placed ledger (place.along [name]) node ∧ PlacedFields ledger place rest
termination_by structural _ fields => fields
end

theorem placed_get? {ledger : Ledger} {place : Place} {d : Draft} (h : PlacedFields ledger place d)
    {name : Text} {node : Node} (there : Table.get? d name = some node) :
    node.Placed ledger (place.along [name]) := by
  induction d with
  | nil => cases there
  | cons field rest ih =>
    obtain ⟨key, node'⟩ := field
    rw [Table.get?] at there
    split at there
    · next same =>
      cases there
      rw [← same]
      exact h.1
    · exact ih h.2 there

theorem placed_insert {ledger : Ledger} {place : Place} {d : Draft}
    (h : PlacedFields ledger place d) {name : Text} {node : Node}
    (own : node.Placed ledger (place.along [name])) :
    PlacedFields ledger place (Table.insert d name node) := by
  induction d with
  | nil => exact ⟨own, trivial⟩
  | cons field rest ih =>
    obtain ⟨key, node'⟩ := field
    rw [Table.insert]
    split
    · next same =>
      refine ⟨?_, h.2⟩
      rw [same]
      exact own
    · exact ⟨h.1, ih h.2⟩

/-- The places below another, itself among them. -/
def Below (place p : Place) : Prop := ∃ rest, p = place.along rest

mutual
theorem among_of_placed {ledger : Ledger} {place : Place} (node : Node)
    (h : node.Placed ledger place) : node.Among ledger (Below place) := by
  cases node with
  | leaf v => trivial
  | map fields => exact amongFields_of_placed fields h.2
  | shared m => exact ⟨[], h.trans (Place.along_nil place).symm⟩

theorem amongFields_of_placed {ledger : Ledger} {place : Place} (d : List (Text × Node))
    (h : PlacedFields ledger place d) : AmongFields ledger (Below place) d := by
  match d, h with
  | [], _ => trivial
  | (name, node) :: rest, h =>
    refine ⟨among_mono ?_ node (among_of_placed node h.1), amongFields_of_placed rest h.2⟩
    rintro p ⟨path, rfl⟩
    exact ⟨name :: path, Place.along_along ..⟩
end

mutual
/-- Maps that are on the shelf stay at their places. -/
theorem placed_of_changes {places : Place → Prop} {i i' : Inventory} (changes : Changes places i i')
    {place : Place} (v : Value) {node : Node} (shows : Node.Shows i.shelf v node)
    (h : node.Placed i.ledger place) : node.Placed i'.ledger place := by
  cases v with
  | object fields =>
    cases node with
    | leaf w => trivial
    | map own => exact ⟨h.1, placedFields_of_changes changes fields shows h.2⟩
    | shared m => exact (changes.ledger m shows.1).trans h
  | _ =>
    cases node with
    | leaf w => trivial
    | _ => exact shows.elim

theorem placedFields_of_changes {places : Place → Prop} {i i' : Inventory}
    (changes : Changes places i i') {place : Place} (fields : List (Text × Value))
    {nodes : List (Text × Node)} (shows : ShowsFields i.shelf fields nodes)
    (h : PlacedFields i.ledger place nodes) : PlacedFields i'.ledger place nodes := by
  match fields, nodes, shows with
  | [], _, shows =>
    cases shows
    trivial
  | (name, v) :: rest, (name', node) :: nodes, shows =>
    exact ⟨placed_of_changes changes v shows.2.1 h.1,
      placedFields_of_changes changes rest shows.2.2 h.2⟩
end

/-- A node shows a value, and the shared maps in it are where they belong below a place. -/
structure Seated (i : Inventory) (place : Place) (v : Value) (node : Node) : Prop where
  shows : node.Shows i.shelf v
  placed : node.Placed i.ledger place

section

variable {i i' : Inventory} {place : Place} {v : Value} {node : Node}

/-- What is seated apart from the way to a place stays so when only maps on the way change. -/
theorem Seated.of_changes (h : Seated i place v node) {target : Place}
    (changes : Changes (Place.Around target) i i') (apart : ¬ Place.Around target place) :
    Seated i' place v node := by
  refine ⟨?_, placed_of_changes changes v h.shows h.placed⟩
  refine (shows_of_changes changes (Place.closed_around target) ?_ v
    (among_of_placed node h.placed) h.shows).1
  rintro p ⟨rest, rfl⟩ around
  exact apart ⟨around.1, (List.prefix_append _ rest).trans around.2⟩

/-- What is seated apart from the way to a place leads where it led. -/
theorem Seated.nodeAt? (h : Seated i place v node) {target : Place}
    (changes : Changes (Place.Around target) i i') (apart : ¬ Place.Around target place)
    (path : Path) : nodeAt? i'.shelf node path = nodeAt? i.shelf node path := by
  induction path generalizing place v node with
  | nil => cases node <;> rfl
  | cons name rest ih =>
    cases node with
    | leaf w => rfl
    | shared m =>
      have apart : ¬ Place.Around target (i.ledger m) := by
        rw [show i.ledger m = place from h.placed]
        exact apart
      rw [Draft.nodeAt?, Draft.nodeAt?]
      cases v with
      | object fields =>
        rw [changes.at? (Place.closed_around target) h.shows.1 apart]
      | _ => exact h.shows.elim
    | map fields =>
      rw [Draft.nodeAt?, Draft.nodeAt?, at?_cons, at?_cons]
      cases there : Table.get? fields name with
      | none => rfl
      | some inner =>
        cases v with
        | object doc =>
          rcases get?_of_shows h.shows name with ⟨hd, -⟩ | ⟨_, w, hd, -, shows⟩
          · rw [there] at hd
            cases hd
          · rw [there] at hd
            cases hd
            refine ih ⟨shows, placed_get? h.placed.2 there⟩ fun around => apart ?_
            exact Place.closed_around target place name around
        | _ => exact h.shows.elim

end

theorem showsFields_mono {shelf shelf' : Shelf} {fields : Document} {d : Draft}
    (own : ShowsFields shelf fields d)
    (each : ∀ field ∈ d, ∀ w, Node.Shows shelf w field.2 → Node.Shows shelf' w field.2) :
    ShowsFields shelf' fields d := by
  induction fields generalizing d with
  | nil => exact own
  | cons field rest ih =>
    match d, own with
    | (key, node) :: nodes, own =>
      exact ⟨own.1, each _ List.mem_cons_self _ own.2.1,
        ih own.2.2 fun field mem => each field (List.mem_cons_of_mem _ mem)⟩

/-- A draft of which one field is written shows the others as before. -/
theorem showsFields_insert {shelf shelf' : Shelf} {fields : Document} {d : Draft}
    (own : ShowsFields shelf fields d) (distinct : Table.Distinct d) {name : Text}
    (others : ∀ field ∈ d, field.1 ≠ name → ∀ w, Node.Shows shelf w field.2 →
      Node.Shows shelf' w field.2) {v : Value} {node : Node} (new : Node.Shows shelf' v node) :
    ShowsFields shelf' (Table.insert fields name v) (Table.insert d name node) := by
  induction fields generalizing d with
  | nil =>
    cases own
    exact ⟨rfl, new, rfl⟩
  | cons field rest ih =>
    obtain ⟨key, w⟩ := field
    match d, own with
    | (key', node') :: nodes, own =>
      obtain ⟨rfl, here, there⟩ := own
      have distinct := List.nodup_cons.mp distinct
      have later := fun field mem => others field (List.mem_cons_of_mem (key', node') mem)
      by_cases same : key' = name
      · subst same
        simp only [Table.insert, if_true]
        refine ⟨rfl, new, showsFields_mono there fun field mem => later field mem fun same => ?_⟩
        exact distinct.1 (List.mem_map.mpr ⟨field, mem, same⟩)
      · simp only [Table.insert, same, if_false]
        exact ⟨rfl, others _ List.mem_cons_self same _ here, ih there distinct.2 later⟩

section

variable {i i' : Inventory} {place : Place} {doc : Document} {d : Draft} {name : Text}

/-- A field of a seated draft is there on both sides, seated, or on neither. -/
theorem Seated.get? (h : Seated i place (.object doc) (.map d)) (name : Text) :
    (Table.get? d name = none ∧ Table.get? doc name = none) ∨
      ∃ node v, Table.get? d name = some node ∧ Table.get? doc name = some v ∧
        Seated i (place.along [name]) v node := by
  rcases get?_of_shows h.shows name with none | ⟨node, v, hd, hf, shows⟩
  · exact .inl none
  · exact .inr ⟨node, v, hd, hf, shows, placed_get? h.placed.2 hd⟩

/-- A map stands under a name on both sides, seated, or on neither. -/
theorem Seated.map_or_plain (h : Seated i place (.object doc) (.map d)) (name : Text) :
    (∃ node fields, Table.get? d name = some node ∧ node.isMap = true ∧
        Table.get? doc name = some (.object fields) ∧
        Seated i (place.along [name]) (.object fields) node) ∨
      ((∀ node, Table.get? d name = some node → node.isMap = false) ∧
        ∀ v, Table.get? doc name = some v → v.isObject = false) := by
  rcases map_of_shows h.shows name with ⟨node, fields, hd, map, hf, shows⟩ | plain
  · exact .inl ⟨node, fields, hd, map, hf, shows, placed_get? h.placed.2 hd⟩
  · exact .inr plain

/-- What is no map leads to no shared map. -/
theorem at?_of_plain (plain : ∀ node, Table.get? d name = some node → node.isMap = false)
    (shelf : Shelf) (rest : Path) (m : SharedMap) :
    d.at? shelf (name :: rest) ≠ some (.shared m) := by
  intro leads
  rw [at?_cons] at leads
  obtain ⟨node, there, leads⟩ := Option.bind_eq_some_iff.mp leads
  have leaf := plain node there
  cases node with
  | leaf w => cases rest <;> cases leads
  | _ => cases leaf

/-- A seated draft with one field written. -/
theorem Seated.insert (h : Seated i place (.object doc) (.map d)) {rest : Path}
    (changes : Changes (Place.Around (place.along (name :: rest))) i i') {v : Value} {node : Node}
    (new : Seated i' (place.along [name]) v node) :
    Seated i' place (.object (Table.insert doc name v)) (.map (Table.insert d name node)) := by
  have stays := placedFields_of_changes changes doc h.shows h.placed.2
  refine ⟨showsFields_insert h.shows h.placed.1 (fun field mem other w shows => ?_) new.shows,
    Table.distinct_insert h.placed.1 name node, placed_insert stays new.placed⟩
  obtain ⟨name', node'⟩ := field
  have seated : Seated i (place.along [name']) w node' :=
    ⟨shows, placed_get? h.placed.2 (Table.get?_of_mem h.placed.1 mem)⟩
  exact (seated.of_changes changes (Place.not_around_apart place other rest)).shows

/-- What writing at a path into a seated draft leaves of it and of the shelf. -/
structure Put (i : Inventory) (place : Place) (d : Draft) (path : Path) (slot : Slot)
    (doc : Document) (i' : Inventory) (d' : Draft) : Prop where
  changes : Changes (Place.Between place (Inventory.way path slot)) i i'
  lent : i'.shelf.lent = i.shelf.lent
  seated : Seated i' place (.object doc) (.map d')
  kept : ∀ part m, ¬ path <+: part → d.at? i.shelf part = some (.shared m) →
    d'.at? i'.shelf part = some (.shared m)
  there : ∀ m, slot = .map m → d'.at? i'.shelf path = some (.shared m)

theorem at?_insert (shelf : Shelf) (d : Draft) (name : Text) (node : Node) (rest : Path) :
    at? shelf (Table.insert d name node) (name :: rest) = Draft.nodeAt? shelf node rest := by
  rw [at?_cons, Table.get?_insert_self]
  rfl

/-- A draft in which a path was written below a name, given what the write leaves there. -/
theorem put_of_insert (h : Seated i place (.object doc) (.map d)) {rest : Path} {slot : Slot}
    (changes : Changes (Place.Between place (Inventory.way (name :: rest) slot)) i i')
    (lent : i'.shelf.lent = i.shelf.lent) {w : Value} {node : Node}
    (new : Seated i' (place.along [name]) w node)
    (kept : ∀ part m, ¬ rest <+: part → d.at? i.shelf (name :: part) = some (.shared m) →
      Draft.nodeAt? i'.shelf node part = some (.shared m))
    (there : ∀ m, slot = .map m → Draft.nodeAt? i'.shelf node rest = some (.shared m)) :
    Put i place d (name :: rest) slot (Table.insert doc name w) i' (Table.insert d name node) := by
  have around : Changes (Place.Around (place.along (name :: rest))) i i' := by
    refine changes.mono fun p between => ?_
    have around := Place.around_of_between between
    have upTo := (List.prefix_append_right_inj place.path).mpr
      (Inventory.way_isPrefix (name :: rest) slot)
    exact ⟨around.1, around.2.trans upTo⟩
  refine ⟨changes, lent, h.insert around new, fun part m apart leads => ?_, fun m same => ?_⟩
  · cases part with
    | nil => cases leads
    | cons name' part =>
      by_cases same : name' = name
      · subst same
        rw [at?_insert]
        refine kept part m (fun isPrefix => apart ?_) leads
        exact List.cons_prefix_cons.mpr ⟨rfl, isPrefix⟩
      · rw [at?_cons] at leads ⊢
        rw [Table.get?_insert, if_neg (Ne.symm same)]
        rcases h.get? name' with ⟨hd, -⟩ | ⟨node', v, hd, -, seated⟩
        · rw [hd] at leads
          cases leads
        · rw [hd] at leads ⊢
          exact (seated.nodeAt? around (Place.not_around_apart place same rest) part).trans leads
  · rw [at?_insert]
    exact there m same

theorem seated_ofSlot {v : Value} {slot : Slot} (holds : i.shelf.Holds v slot)
    (fits : i.shelf.Fits i.ledger place slot) : Seated i place v (.ofSlot slot) := by
  cases slot with
  | leaf w =>
    refine ⟨?_, trivial⟩
    cases v with
    | object fields => exact holds.elim
    | _ => exact holds
  | map m =>
    refine ⟨?_, fits.2⟩
    cases v with
    | object fields => exact holds
    | _ => exact holds.elim

theorem share_ofSlot (slot : Slot) : (Node.ofSlot slot).share = (pure slot : OnShelf Slot) := by
  cases slot <;> rfl

/-- Writing a field takes the place of what is there. -/
theorem put_insert (h : Seated i place (.object doc) (.map d)) {v : Value} {slot : Slot}
    (new : Seated i (place.along [name]) v (.ofSlot slot)) :
    Put i place d [name] slot (Table.insert doc name v) i
      (Table.insert d name (.ofSlot slot)) := by
  refine put_of_insert h (.refl _ i) rfl new (fun part m apart _ => ?_) ?_
  · exact absurd List.nil_prefix apart
  · rintro m rfl
    rfl

/-- Writing under a name; a leaf goes into the map that is there. -/
theorem put_safePutHere (h : Seated i place (.object doc) (.map d)) {v : Value} {slot : Slot}
    (holds : i.shelf.Holds v slot) (fits : i.shelf.Fits i.ledger (place.along [name]) slot) :
    ∃ d' i', (d.safePutHere name (.ofSlot slot)).run i.shelf = (d', i'.shelf) ∧
      Put i place d [name] slot (Document.safePutHere doc name v) i' d' := by
  have new := seated_ofSlot holds fits
  have inserted := put_insert h new
  have isMap := Shelf.isMap_of_holds holds
  cases slot with
  | map m =>
    have map : (Node.ofSlot (.map m)).isMap = true := rfl
    rw [safePutHere_of_map d name map, Document.safePutHere_of_map doc name isMap.symm]
    exact ⟨_, i, rfl, inserted⟩
  | leaf u =>
    have leaf : (Node.ofSlot (.leaf u)).isMap = false := rfl
    rcases h.map_or_plain name with ⟨existing, fields, hd, map, hf, seated⟩ | ⟨hd, hf⟩
    · rw [safePutHere_below hd map leaf, Document.safePutHere_below hf isMap.symm]
      cases existing with
      | leaf x => cases map
      | map nodes =>
        rw [within_of_map hd]
        have new : Seated i ((place.along [name]).along [Document.valueField]) v
          (.ofSlot (.leaf u)) := seated_ofSlot holds trivial
        have filled := (put_insert seated new).seated
        refine ⟨_, i, rfl, put_of_insert h (.refl _ i) rfl filled (fun part m apart _ => ?_)
          fun m same => by cases same⟩
        exact absurd List.nil_prefix apart
      | shared m =>
        rw [within_of_shared hd]
        have here : i.ledger m = place.along [name] := seated.placed
        obtain ⟨i', run, changes, lent, filled⟩ := Inventory.insertLeaf_run seated.shows holds
        have total : Changes (Place.Between place (Inventory.way [name] (.leaf u))) i i' := by
          refine changes.mono ?_
          rintro p rfl
          rw [here]
          exact ⟨[name], List.prefix_refl _, rfl⟩
        have new : Seated i' (place.along [name])
            (.object (Table.insert fields Document.valueField v)) (.shared m) :=
          ⟨filled, (changes.ledger m seated.shows.1).trans here⟩
        have put := put_of_insert h total lent new
          (fun part m apart _ => absurd List.nil_prefix apart) fun m same => by cases same
        rw [Table.insert_get? hd] at put
        refine ⟨d, i', ?_, put⟩
        show (m.insert Document.valueField (.leaf u) >>= fun _ => pure d).run i.shelf = _
        rw [OnShelf.run_bind run]
        rfl
    · rw [safePutHere_of_plain hd, Document.safePutHere_of_plain hf]
      exact ⟨_, i, rfl, inserted⟩

theorem nodeAt?_shared (shelf : Shelf) (m : SharedMap) (path : Path) :
    Draft.nodeAt? shelf (.shared m) path = (shelf.at? m path).map Node.ofSlot := by
  cases path <;> rfl

theorem ofSlot_eq_shared {found : Option Slot} {m : SharedMap} :
    found.map Node.ofSlot = some (.shared m) ↔ found = some (.map m) := by
  cases found with
  | none => simp
  | some slot => cases slot <;> simp [Node.ofSlot]

/-- A write that goes on below a name, seen from the draft around it. -/
theorem between_below {next : Text} {rest : Path} {slot : Slot}
    (changes : Changes (Place.Between (place.along [name]) (Inventory.way (next :: rest) slot)) i i') :
    Changes (Place.Between place (Inventory.way (name :: next :: rest) slot)) i i' := by
  rw [Inventory.way_cons]
  exact changes.mono fun p => Place.between_cons

/-- A write into a shared map under a name, seen from the draft around it. -/
theorem put_of_written (h : Seated i place (.object doc) (.map d)) {m : SharedMap}
    (hd : Table.get? d name = some (.shared m)) {fields after : Document}
    (seated : Seated i (place.along [name]) (.object fields) (.shared m)) {next : Text}
    {rest : Path} {slot : Slot} (written : Inventory.Written i m (next :: rest) slot after i') :
    Put i place d (name :: next :: rest) slot (Table.insert doc name (.object after)) i' d := by
  have here : i.ledger m = place.along [name] := seated.placed
  have total := written.changes
  rw [here] at total
  have new : Seated i' (place.along [name]) (.object after) (.shared m) :=
    ⟨written.holds, (written.changes.ledger m seated.shows.1).trans here⟩
  have put := put_of_insert h (between_below total) written.lent new
    (fun part m' apart there => ?_) fun m' same => ?_
  · rwa [Table.insert_get? hd] at put
  · rw [at?_cons, hd] at there
    rw [nodeAt?_shared, ofSlot_eq_shared]
    refine written.kept part m' apart ?_
    rwa [← ofSlot_eq_shared, ← nodeAt?_shared]
  · rw [nodeAt?_shared, ofSlot_eq_shared, written.there m' same, same]

/-- What a map of a draft's own starts with that takes the place of a leaf. -/
theorem seated_opened (h : Seated i place (.object doc) (.map d)) (name : Text) (below : Place)
    (noMap : ∀ node, Table.get? d name = some node → node.isMap = false) :
    Seated i below (.object (Document.opened doc name)) (.map (opened (Table.get? d name))) := by
  have nothing : Seated i below (.object []) (.map []) :=
    ⟨rfl, by simp [Table.Distinct, Table.keys], trivial⟩
  rcases h.get? name with ⟨hd, hf⟩ | ⟨existing, w, hd, hf, seated⟩
  · rw [Document.opened, hd, hf]
    exact nothing
  · have leaf := noMap existing hd
    rw [Document.opened, hd, hf]
    cases existing with
    | leaf u =>
      have kept {w : Value} (shows : Node.Shows i.shelf w (.leaf u)) :
          Seated i below (.object [(Document.valueField, w)])
            (.map [(Document.valueField, .leaf u)]) :=
        ⟨⟨rfl, shows, rfl⟩, by simp [Table.Distinct, Table.keys], trivial, trivial⟩
      cases w with
      | object fields => cases seated.shows
      | null =>
        cases seated.shows
        exact nothing
      | _ =>
        cases seated.shows
        exact kept rfl
    | _ => cases leaf

/-- Writing at a path is writing into the document that the draft shows. -/
theorem put_safePut (h : Seated i place (.object doc) (.map d)) {rest : Path} {v : Value}
    {slot : Slot} (holds : i.shelf.Holds v slot)
    (fits : i.shelf.Fits i.ledger (place.along (name :: rest)) slot) :
    ∃ d' i', (d.safePut (name :: rest) (.ofSlot slot)).run i.shelf = (d', i'.shelf) ∧
      Put i place d (name :: rest) slot (Document.safePut doc (name :: rest) v) i' d' := by
  induction rest generalizing name place doc d with
  | nil => exact put_safePutHere h holds fits
  | cons next rest ih =>
    have below : i.shelf.Fits i.ledger ((place.along [name]).along (next :: rest)) slot := by
      rwa [Place.along_along]
    -- Writing goes on in a map of the draft's own, one that is there or a new one.
    have own {fields : Document} {nodes : Draft}
        (seated : Seated i (place.along [name]) (.object fields) (.map nodes))
        (leads : ∀ part m, d.at? i.shelf (name :: part) = some (.shared m) →
          nodes.at? i.shelf part = some (.shared m)) :
        ∃ d' i', (nodes.safePut (next :: rest) (.ofSlot slot) >>= fun nodes =>
            return Table.insert d name (.map nodes)).run i.shelf = (d', i'.shelf) ∧
          Put i place d (name :: next :: rest) slot
            (Table.insert doc name (.object (Document.safePut fields (next :: rest) v))) i' d' := by
      obtain ⟨nodes', i', run, put⟩ := ih seated below
      refine ⟨Table.insert d name (.map nodes'), i', ?_, put_of_insert h (between_below put.changes)
        put.lent put.seated (fun part m apart there => ?_) fun m same => put.there m same⟩
      · rw [OnShelf.run_bind run]
        rfl
      · have kept := put.kept part m apart (leads part m there)
        cases part with
        | nil => cases kept
        | cons _ _ => exact kept
    rw [safePut, Document.safePut]
    rcases h.map_or_plain name with ⟨existing, fields, hd, map, hf, seated⟩ | ⟨plain, -⟩
    · rw [Document.opened, hf]
      cases existing with
      | leaf u => cases map
      | map nodes =>
        rw [within_of_map hd]
        refine own seated fun part m there => ?_
        rw [at?_cons, hd] at there
        cases part with
        | nil => cases there
        | cons _ _ => exact there
      | shared m =>
        have here : i.ledger m = place.along [name] := seated.placed
        obtain ⟨i', run, written⟩ := Inventory.written_safePut seated.shows (here ▸ below) holds
        refine ⟨d, i', ?_, put_of_written h hd seated written⟩
        rw [within_of_shared hd, share_ofSlot, LawfulMonad.pure_bind, OnShelf.run_bind run]
        rfl
    · rw [within_of_plain plain]
      exact own (seated_opened h name _ plain) fun part m there =>
        absurd there (at?_of_plain plain i.shelf part m)

end

end ClusterMetadata.Draft
