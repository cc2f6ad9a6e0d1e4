import ClusterMetadata.Proofs.Shelves

/-!
# Writing into shared maps

Writing into shared maps is writing into the document that they hold: maps that are met stand where
the path says, so a write goes through the maps on its way and through no others.

* `Place.Around`, `Place.Between`: the places on the way to a place;
* `Inventory.Rewrites`: a map is changed under one name only;
* `Inventory.Written`: what a write into a shared map leaves;
* `written_safePut`: writing at a path is writing into the document.
-/
namespace ClusterMetadata

open Json (Value Fields)

namespace Place

/-- The places on the way to a place, itself among them. -/
def Around (target p : Place) : Prop := p.lender = target.lender ∧ p.path <+: target.path

/-- The places from one on, along a path. -/
def Between (base : Place) (path : Path) (p : Place) : Prop :=
  ∃ part, part <+: path ∧ p = base.along part

theorem closed_around (target : Place) : Closed (Around target) := fun _ name around =>
  ⟨around.1, (List.prefix_append _ [name]).trans around.2⟩

theorem around_of_between {base p : Place} {path : Path} (h : Between base path p) :
    Around (base.along path) p := by
  obtain ⟨part, isPrefix, rfl⟩ := h
  exact ⟨rfl, (List.prefix_append_right_inj base.path).mpr isPrefix⟩

theorem around_along {target : Place} (path : Path) {p : Place} (h : Around target p) :
    Around (target.along path) p :=
  ⟨h.1, h.2.trans (List.prefix_append _ _)⟩

/-- What stands below a place under another name is not on the way. -/
theorem not_around_apart (p : Place) {name name' : Text} (apart : name' ≠ name) (rest : Path) :
    ¬ Around (p.along (name :: rest)) (p.along [name']) := by
  rintro ⟨-, isPrefix⟩
  have step := (List.prefix_append_right_inj p.path).mp isPrefix
  exact apart (List.cons_prefix_cons.mp step).1

/-- What stands below a place is not on the way to it. -/
theorem not_around_below (p : Place) (name : Text) (rest : Path) :
    ¬ Around p (p.along (name :: rest)) := by
  rintro ⟨-, isPrefix⟩
  have short := isPrefix.length_le
  rw [along, List.length_append, List.length_cons] at short
  omega

theorem not_between_above (p : Place) (name : Text) (rest path : Path) :
    ¬ Between (p.along (name :: rest)) path p := by
  rintro ⟨part, -, same⟩
  have := congrArg (fun p => p.path.length) same
  simp [along] at this

theorem between_start (base : Place) (path : Path) : Between base path base :=
  ⟨[], List.nil_prefix, (along_nil base).symm⟩

theorem between_cons {base p : Place} {name : Text} {path : Path}
    (h : Between (base.along [name]) path p) : Between base (name :: path) p := by
  obtain ⟨part, isPrefix, rfl⟩ := h
  exact ⟨name :: part, List.cons_prefix_cons.mpr ⟨rfl, isPrefix⟩, along_along ..⟩

end Place

namespace Shelf

theorem holdsFields_mono {shelf shelf' : Shelf} {fields : Fields} {slots : Table Text Slot}
    (own : shelf.HoldsFields fields slots)
    (each : ∀ field ∈ slots, ∀ w, shelf.Holds w field.2 → shelf'.Holds w field.2) :
    shelf'.HoldsFields fields slots := by
  induction fields generalizing slots with
  | nil => exact own
  | cons field rest ih =>
    match slots, own with
    | (key, slot) :: slots, own =>
      exact ⟨own.1, each _ List.mem_cons_self _ own.2.1,
        ih own.2.2 fun field mem => each field (List.mem_cons_of_mem _ mem)⟩

/-- Fields of which one is written are held when the others are held as before. -/
theorem holdsFields_insert {shelf shelf' : Shelf} {fields : Fields} {slots : Table Text Slot}
    (own : shelf.HoldsFields fields slots) (distinct : Table.Distinct slots) {name : Text}
    (others : ∀ field ∈ slots, field.1 ≠ name → ∀ w, shelf.Holds w field.2 →
      shelf'.Holds w field.2) {v : Value} {slot : Slot} (new : shelf'.Holds v slot) :
    shelf'.HoldsFields (Table.insert fields name v) (Table.insert slots name slot) := by
  induction fields generalizing slots with
  | nil =>
    cases own
    exact ⟨rfl, new, rfl⟩
  | cons field rest ih =>
    obtain ⟨key, w⟩ := field
    match slots, own with
    | (key', slot') :: slots, own =>
      obtain ⟨rfl, here, there⟩ := own
      have distinct := List.nodup_cons.mp distinct
      have later := fun field mem => others field (List.mem_cons_of_mem (key', slot') mem)
      by_cases same : key' = name
      · subst same
        simp only [Table.insert, if_true]
        refine ⟨rfl, new, ?_⟩
        -- The name does not come again, so the rest is held as before.
        refine holdsFields_mono there fun field mem => later field mem fun same => ?_
        exact distinct.1 (List.mem_map.mpr ⟨field, mem, same⟩)
      · simp only [Table.insert, same, if_false]
        exact ⟨rfl, others _ List.mem_cons_self same _ here, ih there distinct.2 later⟩

end Shelf

namespace Inventory

variable {i i' i'' : Inventory} {m : SharedMap} {name : Text}

/-- A map has changed under one name, and what is apart from the way to a place below that name is
as it was. -/
structure Rewrites (i : Inventory) (m : SharedMap) (name : Text) (slot : Slot) (i' : Inventory) :
    Prop where
  changes : ∃ rest, Changes (Place.Around ((i.ledger m).along (name :: rest))) i i'
  fields : i'.shelf.fields m = Table.insert (i.shelf.fields m) name slot

namespace Rewrites

variable {slot : Slot}

theorem holds (h : Rewrites i m name slot i') {fields : Fields}
    (own : i.shelf.HoldsMap m fields) {v : Value} (new : i'.shelf.Holds v slot) :
    i'.shelf.HoldsMap m (Table.insert fields name v) := by
  obtain ⟨rest, changes⟩ := h.changes
  refine ⟨changes.has own.1, ?_⟩
  rw [h.fields]
  refine Shelf.holdsFields_insert own.2 (i.tidy.inner m).distinct (fun field mem apart w => ?_) new
  refine changes.holds (Place.closed_around _) w fun inner same => ?_
  obtain ⟨name', slot'⟩ := field
  cases same
  rw [(i.fits_inner mem).2]
  exact Place.not_around_apart _ apart rest

theorem at?_apart (h : Rewrites i m name slot i') {name' : Text} (apart : name' ≠ name)
    (rest : Path) : i'.shelf.at? m (name' :: rest) = i.shelf.at? m (name' :: rest) := by
  obtain ⟨further, changes⟩ := h.changes
  rw [Shelf.at?_cons, Shelf.at?_cons, h.fields, Table.get?_insert, if_neg (Ne.symm apart)]
  cases there : Table.get? (i.shelf.fields m) name' with
  | none => rfl
  | some slot' =>
    cases slot' with
    | leaf v => cases rest <;> rfl
    | map inner =>
      obtain ⟨inside, place⟩ := (i.tidy.inner m).fits name' _ there
      refine changes.at? (Place.closed_around _) inside ?_ rest
      rw [place]
      exact Place.not_around_apart _ apart further

theorem kept (h : Rewrites i m name slot i') {part : Path} (apart : ¬ [name] <+: part) :
    i'.shelf.at? m part = i.shelf.at? m part := by
  cases part with
  | nil => rfl
  | cons name' rest =>
    refine h.at?_apart ?_ rest
    rintro rfl
    exact apart (List.cons_prefix_cons.mpr ⟨rfl, List.nil_prefix⟩)

theorem at?_here (h : Rewrites i m name slot i') (rest : Path) :
    i'.shelf.at? m (name :: rest) = i'.shelf.slotAt? slot rest := by
  rw [Shelf.at?_cons, h.fields, Table.get?_insert_self]
  rfl

end Rewrites

theorem rewrites_of_insert {slot : Slot} (changes : Changes (· = i.ledger m) i i')
    (fields : i'.shelf.fields m = Table.insert (i.shelf.fields m) name slot) :
    Rewrites i m name slot i' := by
  refine ⟨⟨[], changes.mono ?_⟩, fields⟩
  rintro p rfl
  exact Place.around_along [name] ⟨rfl, List.prefix_refl _⟩

/-- A map is rewritten where the map under the name was changed. -/
theorem rewrites_inner {inner : SharedMap} (inside : i.shelf.Has m)
    (there : Table.get? (i.shelf.fields m) name = some (.map inner)) {path : Path}
    (changes : Changes (Place.Between (i.ledger inner) path) i i') :
    Rewrites i m name (.map inner) i' := by
  obtain ⟨-, place⟩ := (i.tidy.inner m).fits name _ there
  refine ⟨⟨path, changes.mono fun p between => ?_⟩, ?_⟩
  · have around := Place.around_of_between between
    rwa [place, Place.along_along] at around
  · rw [Table.insert_get? there]
    refine changes.fields m inside ?_
    rw [place]
    exact Place.not_between_above _ name [] path

/-- The way that a write goes: a leaf may go on into a map at its end. -/
def way (path : Path) (slot : Slot) : Path := if slot.isMap then path.dropLast else path

/-- What writing at a path into a shared map leaves. -/
structure Written (i : Inventory) (m : SharedMap) (path : Path) (slot : Slot) (doc : Document)
    (i' : Inventory) : Prop where
  changes : Changes (Place.Between (i.ledger m) (way path slot)) i i'
  lent : i'.shelf.lent = i.shelf.lent
  holds : i'.shelf.HoldsMap m doc
  kept : ∀ part inner, ¬ path <+: part → i.shelf.at? m part = some (.map inner) →
    i'.shelf.at? m part = some (.map inner)
  there : ∀ inner, slot = .map inner → i'.shelf.at? m path = some slot

/-- A slot below a map holds what it held after a write into the map. -/
theorem holds_of_insert (changes : Changes (· = i.ledger m) i i') {slot : Slot} {rest : Path}
    (below : i.shelf.Fits i.ledger ((i.ledger m).along (name :: rest)) slot) {v : Value}
    (own : i.shelf.Holds v slot) : i'.shelf.Holds v slot := by
  have around : ∀ p, p = i.ledger m → Place.Around (i.ledger m) p := by
    rintro p rfl
    exact ⟨rfl, List.prefix_refl _⟩
  refine (changes.mono around).holds (Place.closed_around _) v (fun inner same => ?_) own
  cases same
  rw [below.2]
  exact Place.not_around_below _ name rest

theorem between_of_insert {base : Place} (changes : Changes (· = base) i i') (path : Path) :
    Changes (Place.Between base path) i i' := by
  refine changes.mono ?_
  rintro p rfl
  exact Place.between_start ..

/-- Writing a field takes the place of what is there. -/
theorem written_insert {slot : Slot} {fields : Fields} (own : i.shelf.HoldsMap m fields)
    (fits : i.shelf.Fits i.ledger ((i.ledger m).along [name]) slot) {v : Value}
    (holds : i.shelf.Holds v slot) :
    ∃ i', (m.insert name slot).run i.shelf = ((), i'.shelf) ∧
      Written i m [name] slot (Table.insert fields name v) i' := by
  obtain ⟨i', run, changes, lent, inserted⟩ := insert_run own.1 fits
  have rewrites := rewrites_of_insert changes inserted
  refine ⟨i', run, between_of_insert changes _, lent,
    rewrites.holds own (holds_of_insert changes fits holds), fun part inner apart there => ?_, ?_⟩
  · rw [rewrites.kept apart]
    exact there
  · rintro inner rfl
    exact rewrites.at?_here []

/-- A leaf that goes into a map. -/
theorem insertLeaf_run {fields : Fields} (own : i.shelf.HoldsMap m fields) {v w : Value}
    (holds : i.shelf.Holds v (.leaf w)) :
    ∃ i', (m.insert name (.leaf w)).run i.shelf = ((), i'.shelf) ∧ Changes (· = i.ledger m) i i' ∧
      i'.shelf.lent = i.shelf.lent ∧ i'.shelf.HoldsMap m (Table.insert fields name v) := by
  have leaf : i.shelf.Fits i.ledger ((i.ledger m).along [name]) (.leaf w) := trivial
  obtain ⟨i', run, changes, lent, inserted⟩ := insert_run own.1 leaf
  have rewrites := rewrites_of_insert changes inserted
  exact ⟨i', run, changes, lent, rewrites.holds own (holds_of_insert changes leaf holds)⟩

theorem way_isPrefix (path : Path) (slot : Slot) : way path slot <+: path := by
  rw [way]
  split
  · exact List.dropLast_prefix path
  · exact List.prefix_refl path

/-- Writing under a name; a leaf goes into the map that is there. -/
theorem written_safePutHere {slot : Slot} {fields : Fields} (own : i.shelf.HoldsMap m fields)
    (fits : i.shelf.Fits i.ledger ((i.ledger m).along [name]) slot) {v : Value}
    (holds : i.shelf.Holds v slot) :
    ∃ i', (m.safePutHere name slot).run i.shelf = ((), i'.shelf) ∧
      Written i m [name] slot (Document.safePutHere fields name v) i' := by
  have inserted := written_insert own fits holds
  have isMap := Shelf.isMap_of_holds holds
  cases slot with
  | map m' =>
    rw [SharedMap.run_safePutHere_of_map m name rfl,
      Document.safePutHere_of_map fields name isMap.symm]
    exact inserted
  | leaf u =>
    rcases Shelf.map_of_holds own.2 name with ⟨inner, below, hs, hf, held⟩ | ⟨hs, hf⟩
    · rw [SharedMap.run_safePutHere_below hs rfl, Document.safePutHere_below hf isMap.symm]
      obtain ⟨-, place⟩ := (i.tidy.inner m).fits name _ hs
      obtain ⟨i', run, changes, lent, filled⟩ := insertLeaf_run held holds
      have changes := between_of_insert changes []
      have rewrites := rewrites_inner own.1 hs changes
      refine ⟨i', run, ?_, lent, rewrites.holds own filled, ?_, fun inner same => by cases same⟩
      · refine changes.mono fun p between => ?_
        rw [place] at between
        exact Place.between_cons between
      · intro part inner apart there
        rw [rewrites.kept apart]
        exact there
    · rw [SharedMap.run_safePutHere_of_plain hs, Document.safePutHere_of_plain hf]
      exact inserted

/-- What a map starts with that takes the place of a leaf. -/
theorem holdsFields_opened {shelf : Shelf} {fields : Fields} {slots : Table Text Slot}
    (own : shelf.HoldsFields fields slots) {name : Text}
    (plain : ∀ slot, Table.get? slots name = some slot → slot.isMap = false) (shelf' : Shelf) :
    shelf'.HoldsFields (Document.opened fields name)
      (SharedMap.opened (Table.get? slots name)) := by
  rw [Document.opened]
  rcases Shelf.get?_of_holds own name with ⟨hs, hf⟩ | ⟨existing, w, hs, hf, held⟩
  · rw [hs, hf]
    rfl
  · rw [hs, hf]
    cases existing with
    | map inner => cases plain _ hs
    | leaf u =>
      cases w with
      | object innerFields => exact held.elim
      | null =>
        cases held
        rfl
      | _ =>
        cases held
        exact ⟨rfl, rfl, rfl⟩

theorem fits_opened (shelf : Shelf) (ledger : Ledger) (place : Place) {existing : Option Slot}
    (plain : ∀ slot, existing = some slot → slot.isMap = false) :
    shelf.FitsAll ledger place (SharedMap.opened existing) := by
  have kept (v : Value) : shelf.FitsAll ledger place [(Document.valueField, .leaf v)] := by
    refine ⟨by simp [Table.Distinct, Table.keys], fun name slot there => ?_⟩
    rw [Table.get?] at there
    split at there
    · cases there
      trivial
    · cases there
  cases existing with
  | none => exact fits_nothing ..
  | some slot =>
    cases slot with
    | map inner => cases plain _ rfl
    | leaf v =>
      cases v with
      | null => exact fits_nothing ..
      | _ => exact kept _

/-- A map that takes the place of a leaf, or of nothing, is a new one where the leaf was. -/
theorem opened_run {fields : Fields} (own : i.shelf.HoldsMap m fields)
    (plain : ∀ slot, Table.get? (i.shelf.fields m) name = some slot → slot.isMap = false) :
    ∃ inner i', (m.inner name SharedMap.opened).run i.shelf = (inner, i'.shelf) ∧
      Changes (· = i.ledger m) i i' ∧ i'.shelf.lent = i.shelf.lent ∧
      i'.ledger inner = (i.ledger m).along [name] ∧
      i'.shelf.fields m = Table.insert (i.shelf.fields m) name (.map inner) ∧
      i'.shelf.HoldsMap inner (Document.opened fields name) := by
  obtain ⟨inner, i₁, made, pushed, lent₁, fresh, inside, place, filled⟩ :=
    i.make_run (fits_opened i.shelf i.ledger ((i.ledger m).along [name]) plain)
  have fits : i₁.shelf.Fits i₁.ledger ((i₁.ledger m).along [name]) (.map inner) := by
    rw [pushed.ledger m own.1]
    exact ⟨inside, place⟩
  obtain ⟨i₂, linked, changes, lent₂, inserted⟩ := insert_run (pushed.has own.1) fits
  have old : i₁.ledger m = i.ledger m := pushed.ledger m own.1
  have apart : i₁.ledger inner ≠ i₁.ledger m := by
    rw [place, old]
    exact fun same => by simpa [Place.along] using congrArg (·.path.length) same
  rw [old] at changes apart
  refine ⟨inner, i₂, ?_, (pushed.mono fun _ => False.elim).trans changes, lent₂.trans lent₁, ?_, ?_,
    changes.has inside, ?_⟩
  · rw [SharedMap.run_inner_of_plain plain, OnShelf.run_bind made, OnShelf.run_bind linked]
    rfl
  · rw [changes.ledger inner inside, place]
  · rw [inserted, pushed.fields m own.1 id]
  · rw [changes.fields inner inside apart, filled]
    exact holdsFields_opened own.2 plain i₂.shelf

theorem way_cons (name next : Text) (rest : Path) (slot : Slot) :
    way (name :: next :: rest) slot = name :: way (next :: rest) slot := by
  cases slot <;> rfl

/-- A write below a map under a name, seen from the map. -/
theorem written_of_inner {fields doc : Fields} (own : i.shelf.HoldsMap m fields)
    {inner : SharedMap} (rewrites : Rewrites i m name (.map inner) i') {next : Text} {rest : Path}
    {slot : Slot}
    (changes : Changes (Place.Between (i.ledger m) (way (name :: next :: rest) slot)) i i')
    (lent : i'.shelf.lent = i.shelf.lent) (holds : i'.shelf.HoldsMap inner doc)
    (kept : ∀ part found, ¬ next :: rest <+: part →
      i.shelf.at? m (name :: part) = some (.map found) →
      i'.shelf.at? inner part = some (.map found))
    (there : ∀ found, slot = .map found → i'.shelf.at? inner (next :: rest) = some slot) :
    Written i m (name :: next :: rest) slot (Table.insert fields name (.object doc)) i' := by
  refine ⟨changes, lent, rewrites.holds own holds, fun part found apart leads => ?_,
    fun found same => ?_⟩
  · cases part with
    | nil => exact leads
    | cons name' part =>
      by_cases same : name' = name
      · subst same
        rw [rewrites.at?_here]
        refine kept part found (fun isPrefix => apart ?_) leads
        exact List.cons_prefix_cons.mpr ⟨rfl, isPrefix⟩
      · rw [rewrites.at?_apart same]
        exact leads
  · rw [rewrites.at?_here]
    exact there found same

/-- Writing at a path is writing into the document that the map holds. -/
theorem written_safePut {fields : Fields} (own : i.shelf.HoldsMap m fields) {rest : Path}
    {slot : Slot} (fits : i.shelf.Fits i.ledger ((i.ledger m).along (name :: rest)) slot) {v : Value}
    (holds : i.shelf.Holds v slot) :
    ∃ i', (m.safePut (name :: rest) slot).run i.shelf = ((), i'.shelf) ∧
      Written i m (name :: rest) slot (Document.safePut fields (name :: rest) v) i' := by
  induction rest generalizing i m name fields with
  | nil => exact written_safePutHere own fits holds
  | cons next rest ih =>
    rw [SharedMap.safePut, Document.safePut]
    rcases Shelf.map_of_holds own.2 name with ⟨inner, below, there, hf, held⟩ | ⟨plain, -⟩
    · obtain ⟨-, place⟩ := (i.tidy.inner m).fits name _ there
      have fits : i.shelf.Fits i.ledger ((i.ledger inner).along (next :: rest)) slot := by
        rwa [place, Place.along_along]
      obtain ⟨i', run, written⟩ := ih held fits holds
      have rewrites := rewrites_inner own.1 there written.changes
      rw [Document.opened, hf, OnShelf.run_bind (SharedMap.run_inner_of_map there _)]
      refine ⟨i', run, written_of_inner own rewrites ?_ written.lent written.holds ?_
        written.there⟩
      · refine written.changes.mono fun p between => ?_
        rw [place] at between
        rw [way_cons]
        exact Place.between_cons between
      · intro part found apart leads
        refine written.kept part found apart ?_
        rw [Shelf.at?_cons, there] at leads
        exact leads
    · obtain ⟨inner, i₁, opened, changes, lent, place, linked, held⟩ := opened_run own plain
      have fits₁ : i₁.shelf.Fits i₁.ledger ((i₁.ledger inner).along (next :: rest)) slot := by
        rw [place, Place.along_along]
        exact changes.fits fits
      obtain ⟨i', run, written⟩ := ih held fits₁ (holds_of_insert changes fits holds)
      have before : i₁.ledger m = i.ledger m := changes.ledger m own.1
      have below := written.changes
      rw [place] at below
      have total : Changes (Place.Between (i.ledger m) (name :: way (next :: rest) slot)) i i' :=
        (between_of_insert changes _).trans (below.mono fun p => Place.between_cons)
      have rewrites : Rewrites i m name (.map inner) i' := by
        refine ⟨⟨_, total.mono fun p => Place.around_of_between⟩, ?_⟩
        rw [below.fields m (changes.has own.1), linked]
        rw [before]
        exact Place.not_between_above _ name [] _
      rw [← way_cons] at total
      rw [OnShelf.run_bind opened]
      -- Where there is no map nothing leads to one.
      exact ⟨i', run, written_of_inner own rewrites total (written.lent.trans lent) written.holds
        (fun part found _ leads => absurd leads (Shelf.at?_of_plain plain part found))
        written.there⟩

end Inventory

end ClusterMetadata
