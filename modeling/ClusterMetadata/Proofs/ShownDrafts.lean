import ClusterMetadata.Draft.Own
import ClusterMetadata.Proofs.Shelves

/-!
# What drafts show

A draft shows a document when each of its nodes shows the value there: a leaf the value that it is,
a map of the draft's own what its fields show, and a shared map what it holds.

* `Node.Shows`, `ShowsFields`: a node shows a value, a draft a document;
* `shown_of_shows`: what a draft shows is the document that is read off it;
* `get?_of_shows`, `shows_insert`, `shows_erase`: single fields;
* `shows_safePut`, `shows_put`: writing where no shared map is in the way.
-/
namespace ClusterMetadata.Draft

open Json (Value Fields)

mutual
def Node.Shows (shelf : Shelf) : Value → Node → Prop
  | .object fields, node =>
    match node with
    | .map own => ShowsFields shelf fields own
    | .shared m => shelf.HoldsMap m fields
    | .leaf _ => False
  | v, node =>
    match node with
    | .leaf w => w = v
    | _ => False
termination_by structural v => v

/-- The nodes of a draft show the values of fields, name by name. -/
def ShowsFields (shelf : Shelf) : List (Text × Value) → List (Text × Node) → Prop
  | [], nodes => nodes = []
  | (name, v) :: rest, nodes =>
    match nodes with
    | (name', node) :: nodes => name' = name ∧ Node.Shows shelf v node ∧ ShowsFields shelf rest nodes
    | [] => False
termination_by structural fields => fields
end

mutual
theorem shows_ofValue (shelf : Shelf) (v : Value) : Node.Shows shelf v (.ofValue v) := by
  cases v with
  | object fields =>
    unfold Node.ofValue
    exact showsFields_ofFields shelf fields
  | _ => exact rfl

theorem showsFields_ofFields (shelf : Shelf) (fields : List (Text × Value)) :
    ShowsFields shelf fields (ofFields fields) := by
  match fields with
  | [] => exact rfl
  | (name, v) :: rest => exact ⟨rfl, shows_ofValue shelf v, showsFields_ofFields shelf rest⟩
end

mutual
/-- The shared maps in a node are at certain places. -/
def Node.Among (ledger : Ledger) (places : Place → Prop) : Node → Prop
  | .leaf _ => True
  | .map fields => AmongFields ledger places fields
  | .shared m => places (ledger m)
termination_by structural node => node

def AmongFields (ledger : Ledger) (places : Place → Prop) : List (Text × Node) → Prop
  | [] => True
  | (_, node) :: rest => Node.Among ledger places node ∧ AmongFields ledger places rest
termination_by structural fields => fields
end

mutual
/-- What a node shows it still shows when only maps at other places change, and its maps stay where
they are. -/
theorem shows_of_changes {places : Place → Prop} {i i' : Inventory}
    (changes : Inventory.Changes places i i') (closed : Place.Closed places) {kept : Place → Prop}
    (apart : ∀ p, kept p → ¬ places p) (v : Value) {node : Node}
    (among : node.Among i.ledger kept) (h : Node.Shows i.shelf v node) :
    Node.Shows i'.shelf v node ∧ node.Among i'.ledger kept := by
  cases v with
  | object fields =>
    cases node with
    | leaf w => exact h.elim
    | map own => exact showsFields_of_changes changes closed apart fields among h
    | shared m =>
      have held : i.shelf.HoldsMap m fields := h
      refine ⟨changes.holds closed (.object fields) (fun inner same => ?_) held, ?_⟩
      · cases same
        exact apart _ among
      · rw [Node.Among, changes.ledger m h.1]
        exact among
  | _ =>
    cases node with
    | leaf w => exact ⟨h, trivial⟩
    | _ => exact h.elim

theorem showsFields_of_changes {places : Place → Prop} {i i' : Inventory}
    (changes : Inventory.Changes places i i') (closed : Place.Closed places) {kept : Place → Prop}
    (apart : ∀ p, kept p → ¬ places p) (fields : List (Text × Value)) {nodes : List (Text × Node)}
    (among : AmongFields i.ledger kept nodes) (h : ShowsFields i.shelf fields nodes) :
    ShowsFields i'.shelf fields nodes ∧ AmongFields i'.ledger kept nodes := by
  match fields, nodes, h with
  | [], _, h =>
    cases h
    exact ⟨rfl, trivial⟩
  | (name, v) :: rest, (name', node) :: nodes, h =>
    obtain ⟨here, amongHere⟩ := shows_of_changes changes closed apart v among.1 h.2.1
    obtain ⟨there, amongThere⟩ := showsFields_of_changes changes closed apart rest among.2 h.2.2
    exact ⟨⟨h.1, here, there⟩, amongHere, amongThere⟩
end

mutual
/-- The value that is read off a node is the one that it shows. -/
theorem nodeShown_of_shows (i : Inventory) (v : Value) {node : Node}
    (h : Node.Shows i.shelf v node) : node.shown i.shelf.shown = some v := by
  cases v with
  | object fields =>
    cases node with
    | leaf w => exact h.elim
    | map own =>
      have inner := shown_of_shows i fields (show ShowsFields i.shelf fields own from h)
      rw [shown] at inner
      rw [Node.shown, inner]
      rfl
    | shared m => exact i.shown_of_holds h
  | _ =>
    cases node with
    | leaf w => exact congrArg some h
    | _ => exact h.elim

theorem shown_of_shows (i : Inventory) (fields : List (Text × Value)) {d : List (Text × Node)}
    (h : ShowsFields i.shelf fields d) : shown i.shelf d = some fields := by
  match fields, d, h with
  | [], _, h =>
    cases h
    rfl
  | (name, v) :: rest, (name', node) :: nodes, h =>
    have here := nodeShown_of_shows i v h.2.1
    have there := shown_of_shows i rest h.2.2
    rw [shown] at there
    rw [shown, shownFields, here, there, h.1]
    rfl
end

/-- A field is there on both sides, showing the value, or on neither. -/
theorem get?_of_shows {shelf : Shelf} {fields : Document} {d : Draft}
    (h : ShowsFields shelf fields d) (name : Text) :
    (Table.get? d name = none ∧ Table.get? fields name = none) ∨
      ∃ node v, Table.get? d name = some node ∧ Table.get? fields name = some v ∧
        Node.Shows shelf v node := by
  induction fields generalizing d with
  | nil =>
    cases h
    exact .inl ⟨rfl, rfl⟩
  | cons field rest ih =>
    obtain ⟨key, v⟩ := field
    match d, h with
    | (key', node) :: nodes, h =>
      obtain ⟨rfl, here, there⟩ := h
      by_cases same : key' = name
      · exact .inr ⟨node, v, by simp [Table.get?, same], by simp [Table.get?, same], here⟩
      · simpa [Table.get?, same] using ih there

theorem shows_insert {shelf : Shelf} {fields : Document} {d : Draft}
    (h : ShowsFields shelf fields d) (name : Text) {v : Value} {node : Node}
    (own : Node.Shows shelf v node) :
    ShowsFields shelf (Table.insert fields name v) (Table.insert d name node) := by
  induction fields generalizing d with
  | nil =>
    cases h
    exact ⟨rfl, own, rfl⟩
  | cons field rest ih =>
    obtain ⟨key, w⟩ := field
    match d, h with
    | (key', node') :: nodes, h =>
      obtain ⟨rfl, here, there⟩ := h
      by_cases same : key' = name
      · simp only [Table.insert, same, if_true]
        exact ⟨rfl, own, there⟩
      · simp only [Table.insert, same, if_false]
        exact ⟨rfl, here, ih there⟩

theorem shows_erase {shelf : Shelf} {fields : Document} {d : Draft}
    (h : ShowsFields shelf fields d) (name : Text) :
    ShowsFields shelf (Table.erase fields name) (Table.erase d name) := by
  induction fields generalizing d with
  | nil =>
    cases h
    exact rfl
  | cons field rest ih =>
    obtain ⟨key, w⟩ := field
    match d, h with
    | (key', node') :: nodes, h =>
      obtain ⟨rfl, here, there⟩ := h
      by_cases same : key' = name
      · simp only [Table.erase, same, if_true]
        exact ih there
      · simp only [Table.erase, same, if_false]
        exact ⟨rfl, here, ih there⟩

/-! ## Where the shared maps of a draft are -/

section

variable {ledger : Ledger} {places places' : Place → Prop}

mutual
theorem among_mono (le : ∀ p, places p → places' p) (node : Node) (h : node.Among ledger places) :
    node.Among ledger places' := by
  cases node with
  | leaf v => trivial
  | map fields => exact amongFields_mono le fields h
  | shared m => exact le _ h

theorem amongFields_mono (le : ∀ p, places p → places' p) (d : List (Text × Node))
    (h : AmongFields ledger places d) : AmongFields ledger places' d := by
  match d, h with
  | [], _ => trivial
  | (name, node) :: rest, h => exact ⟨among_mono le node h.1, amongFields_mono le rest h.2⟩
end

mutual
/-- There is no shared map in a draft of its own maps. -/
theorem among_ofValue (ledger : Ledger) (places : Place → Prop) (v : Value) :
    (Node.ofValue v).Among ledger places := by
  cases v with
  | object fields =>
    unfold Node.ofValue
    exact amongFields_ofFields ledger places fields
  | _ => trivial

theorem amongFields_ofFields (ledger : Ledger) (places : Place → Prop)
    (fields : List (Text × Value)) : AmongFields ledger places (ofFields fields) := by
  match fields with
  | [] => trivial
  | (name, v) :: rest =>
    exact ⟨among_ofValue ledger places v, amongFields_ofFields ledger places rest⟩
end

theorem among_insert {d : Draft} (h : AmongFields ledger places d) (name : Text) {node : Node}
    (own : node.Among ledger places) : AmongFields ledger places (Table.insert d name node) := by
  induction d with
  | nil => exact ⟨own, trivial⟩
  | cons field rest ih =>
    obtain ⟨key, node'⟩ := field
    rw [Table.insert]
    split
    · exact ⟨own, h.2⟩
    · exact ⟨h.1, ih h.2⟩

end

/-- A draft shows a document, with shared maps at certain places only. -/
structure Presents (i : Inventory) (kept : Place → Prop) (doc : Document) (d : Draft) : Prop where
  shows : ShowsFields i.shelf doc d
  among : AmongFields i.ledger kept d

theorem Presents.of_changes {i i' : Inventory} {kept places : Place → Prop} {doc : Document}
    {d : Draft} (h : Presents i kept doc d) (changes : Inventory.Changes places i i')
    (closed : Place.Closed places) (apart : ∀ p, kept p → ¬ places p) : Presents i' kept doc d := by
  obtain ⟨shows, among⟩ := showsFields_of_changes changes closed apart doc h.among h.shows
  exact ⟨shows, among⟩

theorem Presents.mono {i : Inventory} {kept kept' : Place → Prop} {doc : Document} {d : Draft}
    (h : Presents i kept doc d) (le : ∀ p, kept p → kept' p) : Presents i kept' doc d :=
  ⟨h.shows, amongFields_mono le d h.among⟩

/-! ## Writing past shared maps -/

/-- No shared map stands on a path into a draft, its end included. -/
def Free : Path → Draft → Prop
  | [], _ => True
  | name :: rest, d =>
    match Table.get? d name with
    | some (.shared _) => False
    | some (.map fields) => Free rest fields
    | _ => True

/-- A shared map stands at the end of a path into a node. -/
def Node.SharedAt : Path → Node → Prop
  | [], node => ∃ m, node = .shared m
  | name :: rest, node => ∃ fields inner, node = .map fields ∧
      Table.get? fields name = some inner ∧ Node.SharedAt rest inner

/-- A path on which no part ends at a shared map is free. -/
theorem free_of_not_sharedAt {d : Draft} {path : Path}
    (h : ∀ part, part <+: path → ¬ (Node.map d).SharedAt part) : Free path d := by
  induction path generalizing d with
  | nil => trivial
  | cons name rest ih =>
    unfold Free
    split
    · next m there =>
      exact h [name] (List.prefix_append [name] rest) ⟨d, _, rfl, there, m, rfl⟩
    · next fields there =>
      refine ih fun part isPrefix shared => ?_
      exact h (name :: part) (List.cons_prefix_cons.mpr ⟨rfl, isPrefix⟩)
        ⟨d, _, rfl, there, shared⟩
    · trivial

/-- A draft of its own maps has no shared one anywhere. -/
theorem not_sharedAt_ofValue (path : Path) (v : Value) : ¬ (Node.ofValue v).SharedAt path := by
  induction path generalizing v with
  | nil =>
    rintro ⟨m, h⟩
    cases v <;> cases h
  | cons name rest ih =>
    rintro ⟨fields, inner, h, there, shared⟩
    cases v with
    | object own =>
      cases h
      rw [get?_ofFields] at there
      obtain ⟨w, -, rfl⟩ := Option.map_eq_some_iff.mp there
      exact ih w shared
    | _ => cases h

theorem free_ofFields (path : Path) (fields : Document) : Free path (ofFields fields) :=
  free_of_not_sharedAt fun part _ => not_sharedAt_ofValue part (.object fields)

theorem isMap_of_sharedAt {path : Path} {node : Node} (h : node.SharedAt path) :
    node.isMap = true := by
  cases path with
  | nil =>
    obtain ⟨m, rfl⟩ := h
    rfl
  | cons name rest =>
    obtain ⟨fields, inner, rfl, -⟩ := h
    rfl

/-- Where the shared maps are after a field is written: in the new node, or where they were. -/
theorem sharedAt_insert {d : Draft} {name : Text} {node : Node} {path : Path}
    (h : (Node.map (Table.insert d name node)).SharedAt path) :
    (∃ rest, path = name :: rest ∧ node.SharedAt rest) ∨ (Node.map d).SharedAt path := by
  cases path with
  | nil =>
    obtain ⟨m, h⟩ := h
    cases h
  | cons key rest =>
    obtain ⟨fields, inner, same, there, shared⟩ := h
    cases same
    rw [Table.get?_insert] at there
    split at there
    · next here =>
      cases there
      exact .inl ⟨rest, by rw [here], shared⟩
    · exact .inr ⟨d, inner, rfl, there, shared⟩

theorem isMap_of_shows {shelf : Shelf} {v : Value} {node : Node} (h : Node.Shows shelf v node) :
    node.isMap = v.isObject := by
  cases v with
  | object fields =>
    cases node with
    | leaf w => exact h.elim
    | _ => rfl
  | _ =>
    cases node with
    | leaf w => rfl
    | _ => exact h.elim

/-- A draft has a map under a name where the document that it shows has one, and nowhere else. -/
theorem map_of_shows {shelf : Shelf} {fields : Document} {d : Draft}
    (h : ShowsFields shelf fields d) (name : Text) :
    (∃ node inner, Table.get? d name = some node ∧ node.isMap = true ∧
        Table.get? fields name = some (.object inner) ∧ Node.Shows shelf (.object inner) node) ∨
      ((∀ node, Table.get? d name = some node → node.isMap = false) ∧
        ∀ v, Table.get? fields name = some v → v.isObject = false) := by
  rcases get?_of_shows h name with ⟨hd, hf⟩ | ⟨node, v, hd, hf, own⟩
  · exact .inr ⟨by simp [hd], by simp [hf]⟩
  · have same := isMap_of_shows own
    cases v with
    | object inner => exact .inl ⟨node, inner, hd, same, hf, own⟩
    | _ =>
      have plain : node.isMap = false := same
      exact .inr ⟨by simp [hd, plain], by simp [hf, Value.isObject]⟩

/-- A new draft that takes the place of what is no map keeps what the new map keeps of it. -/
theorem opened_of_plain {shelf : Shelf} {fields : Document} {d : Draft} {name : Text}
    (h : ShowsFields shelf fields d)
    (plain : ∀ node, Table.get? d name = some node → node.isMap = false) :
    opened (Table.get? d name) = ofFields (Document.opened fields name) := by
  rw [Document.opened]
  rcases get?_of_shows h name with ⟨hd, hf⟩ | ⟨node, v, hd, hf, own⟩
  · rw [hd, hf]
    rfl
  · have leaf := plain node hd
    rw [hd, hf]
    cases node with
    | leaf u =>
      cases v with
      | object inner => exact own.elim
      | _ =>
        cases own
        rfl
    | _ => cases leaf

/-- What writing a node at a path leaves: a draft that shows the document, with its shared maps
where they were or in what was written. -/
structure Written (shelf : Shelf) (d : Draft) (path : Path) (node : Node) (fields : Document)
    (d' : Draft) : Prop where
  shows : ShowsFields shelf fields d'
  shared : ∀ part, (Node.map d').SharedAt part →
    (Node.map d).SharedAt part ∨ (node.isMap = true ∧ path <+: part)

theorem written_insert {shelf : Shelf} {fields : Document} {d : Draft}
    (h : ShowsFields shelf fields d) (name : Text) {v : Value} {node : Node}
    (own : Node.Shows shelf v node) :
    Written shelf d [name] node (Table.insert fields name v) (Table.insert d name node) := by
  refine ⟨shows_insert h name own, fun part shared => ?_⟩
  rcases sharedAt_insert shared with ⟨rest, rfl, inside⟩ | before
  · exact .inr ⟨isMap_of_sharedAt inside, List.prefix_append [name] rest⟩
  · exact .inl before

/-- Writing into the map under a name. -/
theorem written_below {shelf : Shelf} {fields below : Document} {d nodes nodes' : Draft}
    (h : ShowsFields shelf fields d) {name : Text} {path : Path} {node : Node}
    (start : ∀ part, (Node.map nodes).SharedAt part → (Node.map d).SharedAt (name :: part))
    (written : Written shelf nodes path node below nodes') :
    Written shelf d (name :: path) node (Table.insert fields name (.object below))
      (Table.insert d name (.map nodes')) := by
  refine ⟨shows_insert h name written.shows, fun part shared => ?_⟩
  rcases sharedAt_insert shared with ⟨rest, rfl, inside⟩ | before
  · rcases written.shared rest inside with before | ⟨isMap, isPrefix⟩
    · exact .inl (start rest before)
    · exact .inr ⟨isMap, List.cons_prefix_cons.mpr ⟨rfl, isPrefix⟩⟩
  · exact .inl before

/-- The shared maps of a map under a name are shared maps of the whole. -/
theorem sharedAt_below {d nodes : Draft} {name : Text}
    (there : Table.get? d name = some (.map nodes)) (part : Path)
    (shared : (Node.map nodes).SharedAt part) : (Node.map d).SharedAt (name :: part) :=
  ⟨d, _, rfl, there, shared⟩

theorem written_safePutHere {shelf : Shelf} {fields : Document} {d : Draft} {name : Text}
    (h : ShowsFields shelf fields d) (free : Free [name] d) {v : Value} {node : Node}
    (own : Node.Shows shelf v node) :
    ∃ d', (d.safePutHere name node).run shelf = (d', shelf) ∧
      Written shelf d [name] node (Document.safePutHere fields name v) d' := by
  have inserted := written_insert h name own
  have isMap := isMap_of_shows own
  cases object : v.isObject with
  | true =>
    rw [safePutHere_of_map d name (isMap.trans object),
      Document.safePutHere_of_map fields name object]
    exact ⟨_, rfl, inserted⟩
  | false =>
    have leaf := isMap.trans object
    rcases map_of_shows h name with ⟨existing, inner, hd, map, hf, shows⟩ | ⟨hd, hf⟩
    · rw [Free, hd] at free
      cases existing with
      | shared m => exact free.elim
      | leaf u => cases map
      | map nodes =>
        rw [safePutHere_below hd rfl leaf, Document.safePutHere_below hf object, within, hd]
        have below : ShowsFields shelf inner nodes := shows
        have kept := written_below h (sharedAt_below hd)
          (written_insert below Document.valueField own)
        refine ⟨Table.insert d name (.map (Table.insert nodes Document.valueField node)), rfl,
          kept.shows, fun part shared => ?_⟩
        -- A leaf brings no shared map along.
        rcases kept.shared part shared with before | ⟨brought, -⟩
        · exact .inl before
        · rw [leaf] at brought
          cases brought
    · rw [safePutHere_of_plain hd, Document.safePutHere_of_plain hf]
      exact ⟨_, rfl, inserted⟩

/-- Writing at a path that is free leaves the shelf alone and is writing into the document. -/
theorem written_safePut {shelf : Shelf} {fields : Document} {d : Draft} {path : Path}
    (h : ShowsFields shelf fields d) (free : Free path d) {v : Value} {node : Node}
    (own : Node.Shows shelf v node) :
    ∃ d', (d.safePut path node).run shelf = (d', shelf) ∧
      Written shelf d path node (Document.safePut fields path v) d' := by
  induction path generalizing fields d with
  | nil => exact ⟨d, rfl, h, fun part shared => .inl shared⟩
  | cons name rest ih =>
    cases rest with
    | nil => exact written_safePutHere h free own
    | cons next rest =>
      have put (below : Document) (nodes : Draft) (shows : ShowsFields shelf below nodes)
          (free : Free (next :: rest) nodes)
          (start : ∀ part, (Node.map nodes).SharedAt part → (Node.map d).SharedAt (name :: part)) :
          ∃ d', ((do return Table.insert d name (.map (← nodes.safePut (next :: rest) node)) :
              OnShelf Draft)).run shelf = (d', shelf) ∧
            Written shelf d (name :: next :: rest) node
              (Table.insert fields name (.object (Document.safePut below (next :: rest) v))) d' := by
        obtain ⟨nodes', run, written⟩ := ih shows free
        refine ⟨Table.insert d name (.map nodes'), ?_, written_below h start written⟩
        rw [OnShelf.run_bind run]
        rfl
      rw [safePut, Document.safePut]
      rcases map_of_shows h name with ⟨existing, inner, hd, map, hf, shows⟩ | ⟨plain, -⟩
      · rw [Free, hd] at free
        cases existing with
        | shared m => exact free.elim
        | leaf u => cases map
        | map nodes =>
          rw [within_of_map hd, Document.opened, hf]
          exact put inner nodes shows free (sharedAt_below hd)
      · rw [within_of_plain plain, opened_of_plain h plain]
        exact put _ _ (showsFields_ofFields shelf _) (free_ofFields _ _)
          fun part shared => absurd shared (not_sharedAt_ofValue part (.object _))

/-- Writing at a path on whose way no shared map stands. -/
theorem shows_put {shelf : Shelf} {fields : Document} {d : Draft} {path : Path}
    (h : ShowsFields shelf fields d) (free : Free path.dropLast d) {v : Value} {node : Node}
    (own : Node.Shows shelf v node) :
    ∃ d', (d.put path node).run shelf = (d', shelf) ∧
      ShowsFields shelf (Document.put fields path v) d' := by
  induction path generalizing fields d with
  | nil => exact ⟨d, rfl, h⟩
  | cons name rest ih =>
    cases rest with
    | nil => exact ⟨_, rfl, shows_insert h name own⟩
    | cons next rest =>
      have put (below : Document) (nodes : Draft) (shows : ShowsFields shelf below nodes)
          (free : Free (next :: rest).dropLast nodes) :
          ∃ d', ((do return Table.insert d name (.map (← nodes.put (next :: rest) node)) :
              OnShelf Draft)).run shelf = (d', shelf) ∧
            ShowsFields shelf
              (Table.insert fields name (.object (Document.put below (next :: rest) v))) d' := by
        obtain ⟨nodes', run, shows'⟩ := ih shows free
        refine ⟨Table.insert d name (.map nodes'), ?_, shows_insert h name shows'⟩
        rw [OnShelf.run_bind run]
        rfl
      rw [Draft.put, Document.put]
      rw [List.dropLast_cons_cons, Free] at free
      rcases map_of_shows h name with ⟨existing, inner, hd, map, hf, shows⟩ | ⟨plain, leafy⟩
      · rw [hd] at free
        cases existing with
        | shared m => exact free.elim
        | leaf u => cases map
        | map nodes =>
          rw [within_of_map hd, Document.below, hf]
          exact put inner nodes shows free
      · rw [within_of_plain plain, Document.below_of_plain leafy]
        exact put [] [] rfl (free_ofFields _ [])

end ClusterMetadata.Draft
