import ClusterMetadata.Draft.Section

/-!
# What shared maps hold

Every shared map has a place: whose it is, and the path at which it stands in the section of that
lender. A map in a map stands one name further on, so no map is inside itself, and what is written
at a path reaches the maps on the way to it and no others.

* `Inventory`: a shelf with the places of its maps, each of them where it belongs;
* `Shelf.Holds`: a slot holds a value, map by map;
* `shown_of_holds`: a map shows what it holds;
* `Changes`, `holds_of_changes`: what is apart from the places that change holds what it held.
-/
namespace ClusterMetadata

open Json (Value Fields)

/-- Working with a shelf in two parts. -/
theorem OnShelf.run_bind {α β : Type} {x : OnShelf α} {a : α} {shelf shelf' : Shelf}
    (h : x.run shelf = (a, shelf')) (f : α → OnShelf β) :
    (x >>= f).run shelf = (f a).run shelf' := by
  rw [StateT.run_bind, h]
  rfl

/-- Whose a shared map is, and the path at which it stands in the section of that lender. -/
structure Place where
  lender : Lender
  path : Path

namespace Place

def along (p : Place) (path : Path) : Place := ⟨p.lender, p.path ++ path⟩

@[simp] theorem along_nil (p : Place) : p.along [] = p := by simp [along]

@[simp] theorem along_along (p : Place) (path rest : Path) :
    (p.along path).along rest = p.along (path ++ rest) := by
  simp [along]

/-- A set of places with all places around those that are in it. -/
def Closed (places : Place → Prop) : Prop := ∀ p name, places (p.along [name]) → places p

end Place

/-- The places of shared maps. -/
abbrev Ledger := SharedMap → Place

namespace Shelf

def Has (shelf : Shelf) (m : SharedMap) : Prop := m.number < shelf.maps.size

/-- A slot that holds a map has one from the shelf, which belongs to a place. -/
def Fits (shelf : Shelf) (ledger : Ledger) (place : Place) : Slot → Prop
  | .leaf _ => True
  | .map m => shelf.Has m ∧ ledger m = place

/-- Slots whose maps belong right below a place, no two of them under one name. -/
structure FitsAll (shelf : Shelf) (ledger : Ledger) (place : Place) (slots : Table Text Slot) :
    Prop where
  distinct : Table.Distinct slots
  fits : ∀ name slot, Table.get? slots name = some slot →
    shelf.Fits ledger (place.along [name]) slot

/-- Every map is in its place, the lent ones where the keys say that they were lent for. -/
structure Tidy (shelf : Shelf) (ledger : Ledger) : Prop where
  inner : ∀ m, shelf.FitsAll ledger (ledger m) (shelf.fields m)
  lent : ∀ lender key m, (shelf.lent.getD lender {})[key]? = some m →
    shelf.Fits ledger ⟨lender, Path.ofKey key⟩ (.map m)

mutual
def Holds (shelf : Shelf) : Value → Slot → Prop
  | .object fields, slot =>
    match slot with
    | .map m => shelf.Has m ∧ HoldsFields shelf fields (shelf.fields m)
    | .leaf _ => False
  | v, slot =>
    match slot with
    | .leaf w => w = v
    | .map _ => False
termination_by structural v => v

/-- Slots hold the values of fields, name by name. -/
def HoldsFields (shelf : Shelf) : List (Text × Value) → List (Text × Slot) → Prop
  | [], slots => slots = []
  | (name, v) :: rest, slots =>
    match slots with
    | (name', slot) :: slots => name' = name ∧ Holds shelf v slot ∧ HoldsFields shelf rest slots
    | [] => False
termination_by structural fields => fields
end

def HoldsMap (shelf : Shelf) (m : SharedMap) (fields : Fields) : Prop :=
  Holds shelf (.object fields) (.map m)

theorem isMap_of_holds {shelf : Shelf} {v : Value} {slot : Slot} (h : shelf.Holds v slot) :
    slot.isMap = v.isObject := by
  cases v with
  | object fields =>
    cases slot with
    | map m => rfl
    | leaf w => exact h.elim
  | _ =>
    cases slot with
    | leaf w => rfl
    | map m => exact h.elim

/-- A field is there on both sides, the slot holding the value, or on neither. -/
theorem get?_of_holds {shelf : Shelf} {fields : Fields} {slots : Table Text Slot}
    (h : shelf.HoldsFields fields slots) (name : Text) :
    (Table.get? slots name = none ∧ Table.get? fields name = none) ∨
      ∃ slot v, Table.get? slots name = some slot ∧ Table.get? fields name = some v ∧
        shelf.Holds v slot := by
  induction fields generalizing slots with
  | nil =>
    cases h
    exact .inl ⟨rfl, rfl⟩
  | cons field rest ih =>
    obtain ⟨key, v⟩ := field
    match slots, h with
    | (key', slot) :: slots, h =>
      obtain ⟨rfl, here, there⟩ := h
      by_cases same : key' = name
      · exact .inr ⟨slot, v, by simp [Table.get?, same], by simp [Table.get?, same], here⟩
      · simpa [Table.get?, same] using ih there

/-- A map stands under a name on both sides, the one holding the other, or on neither. -/
theorem map_of_holds {shelf : Shelf} {fields : Fields} {slots : Table Text Slot}
    (h : shelf.HoldsFields fields slots) (name : Text) :
    (∃ inner below, Table.get? slots name = some (.map inner) ∧
        Table.get? fields name = some (.object below) ∧ shelf.HoldsMap inner below) ∨
      ((∀ slot, Table.get? slots name = some slot → slot.isMap = false) ∧
        ∀ v, Table.get? fields name = some v → v.isObject = false) := by
  rcases get?_of_holds h name with ⟨hs, hf⟩ | ⟨slot, v, hs, hf, held⟩
  · exact .inr ⟨by simp [hs], by simp [hf]⟩
  · have same := isMap_of_holds held
    cases slot with
    | leaf w =>
      have plain : v.isObject = false := same.symm
      exact .inr ⟨by simp [hs, Slot.isMap], by simp [hf, plain]⟩
    | map inner =>
      cases v with
      | object below => exact .inl ⟨inner, below, hs, hf, held⟩
      | _ => cases same

/-- What a slot shows, with the maps in it to a depth. -/
def slotShown (shelf : Shelf) (depth : Nat) : Slot → Option Value
  | .leaf v => some v
  | .map m => shelf.shownTo depth m

theorem shownTo_succ (shelf : Shelf) (depth : Nat) (m : SharedMap) :
    shelf.shownTo (depth + 1) m = ((shelf.fields m).mapM fun field =>
      (shelf.slotShown depth field.2).map ((field.1, ·))).map .object := by
  rw [shownTo, Option.map_eq_bind]
  congr 2
  funext ⟨name, slot⟩
  cases slot <;> rfl

/-- What stands at a path in a slot. -/
def slotAt? (shelf : Shelf) : Slot → Path → Option Slot
  | .map m, path => shelf.at? m path
  | .leaf v, [] => some (.leaf v)
  | .leaf _, _ :: _ => none

theorem at?_cons (shelf : Shelf) (m : SharedMap) (name : Text) (rest : Path) :
    shelf.at? m (name :: rest) = (Table.get? (shelf.fields m) name).bind (shelf.slotAt? · rest) := by
  rw [at?.eq_def]
  dsimp only
  cases Table.get? (shelf.fields m) name with
  | none => rfl
  | some slot => cases slot <;> cases rest <;> rfl

/-- What is no map leads to no map. -/
theorem at?_of_plain {shelf : Shelf} {m : SharedMap} {name : Text}
    (plain : ∀ slot, Table.get? (shelf.fields m) name = some slot → slot.isMap = false)
    (rest : Path) (inner : SharedMap) : shelf.at? m (name :: rest) ≠ some (.map inner) := by
  intro leads
  rw [at?_cons] at leads
  obtain ⟨slot, there, leads⟩ := Option.bind_eq_some_iff.mp leads
  have leaf := plain slot there
  cases slot with
  | map inner => cases leaf
  | leaf w => cases rest <;> cases leads

def pushed (shelf : Shelf) (slots : Table Text Slot) : Shelf :=
  { shelf with maps := shelf.maps.push slots }

/-- The fields on a shelf with one more map. -/
theorem fields_pushed (shelf : Shelf) (slots : Table Text Slot) (m : SharedMap) :
    (shelf.pushed slots).fields m = if m = ⟨shelf.maps.size⟩ then slots else shelf.fields m := by
  obtain ⟨n⟩ := m
  rw [pushed, fields, fields, Array.getD_eq_getD_getElem?, Array.getD_eq_getD_getElem?,
    Array.getElem?_push]
  by_cases same : n = shelf.maps.size <;> simp [same]

def rewritten (shelf : Shelf) (m : SharedMap) (slots : Table Text Slot) : Shelf :=
  { shelf with maps := shelf.maps.setIfInBounds m.number slots }

theorem fields_rewritten (shelf : Shelf) {m : SharedMap} (inside : shelf.Has m)
    (slots : Table Text Slot) (m' : SharedMap) :
    (shelf.rewritten m slots).fields m' = if m' = m then slots else shelf.fields m' := by
  obtain ⟨n⟩ := m
  obtain ⟨n'⟩ := m'
  have inside : n < shelf.maps.size := inside
  rw [rewritten, fields, fields, Array.getD_eq_getD_getElem?, Array.getD_eq_getD_getElem?,
    Array.getElem?_setIfInBounds]
  by_cases same : n' = n
  · subst same
    simp [inside]
  · simp [same, Ne.symm same]

end Shelf

/-- A shelf with the places of its maps, each of them where it belongs. -/
structure Inventory where
  shelf : Shelf
  ledger : Ledger
  tidy : shelf.Tidy ledger

namespace Inventory

variable {i i' : Inventory}

/-- The maps in a map belong right below it. -/
theorem fits_inner (i : Inventory) {m inner : SharedMap} {name : Text}
    (h : (name, Slot.map inner) ∈ i.shelf.fields m) :
    i.shelf.Has inner ∧ i.ledger inner = (i.ledger m).along [name] :=
  (i.tidy.inner m).fits name _ (Table.get?_of_mem (i.tidy.inner m).distinct h)

/-! ## What maps show -/

/-- How many maps stand at so many names or more. -/
def mapsFrom (i : Inventory) (length : Nat) : Nat :=
  ((List.range i.shelf.maps.size).filter fun n => length ≤ (i.ledger ⟨n⟩).path.length).length

theorem mapsFrom_le (i : Inventory) (length : Nat) : i.mapsFrom length ≤ i.shelf.maps.size := by
  have := List.length_filter_le (fun n => decide (length ≤ (i.ledger ⟨n⟩).path.length))
    (List.range i.shelf.maps.size)
  rwa [List.length_range] at this

/-- A map is one of those that stand where it does, and none of those further on. -/
theorem mapsFrom_succ_lt {m : SharedMap} (inside : i.shelf.Has m) :
    i.mapsFrom ((i.ledger m).path.length + 1) < i.mapsFrom (i.ledger m).path.length := by
  have further : (List.range i.shelf.maps.size).filter
        (fun n => (i.ledger m).path.length + 1 ≤ (i.ledger ⟨n⟩).path.length) =
      ((List.range i.shelf.maps.size).filter
        (fun n => (i.ledger m).path.length ≤ (i.ledger ⟨n⟩).path.length)).filter
        (fun n => (i.ledger m).path.length + 1 ≤ (i.ledger ⟨n⟩).path.length) := by
    rw [List.filter_filter]
    refine List.filter_congr fun n _ => ?_
    rw [← Bool.decide_and, decide_eq_decide]
    omega
  rw [mapsFrom, mapsFrom, further, List.length_filter_lt_length_iff_exists]
  refine ⟨m.number, ?_, by simp⟩
  rw [List.mem_filter, List.mem_range]
  exact ⟨inside, decide_eq_true (Nat.le_refl _)⟩


mutual
/-- A slot shows what it holds, as the maps further on are fewer and fewer. -/
theorem slotShown_of_holds (i : Inventory) (v : Value) {slot : Slot} (h : i.shelf.Holds v slot)
    {depth : Nat} (room : ∀ m, slot = .map m → i.mapsFrom (i.ledger m).path.length ≤ depth) :
    i.shelf.slotShown depth slot = some v := by
  cases v with
  | object fields =>
    cases slot with
    | leaf w => exact h.elim
    | map m =>
      obtain ⟨inside, holds⟩ := h
      have further := Nat.lt_of_lt_of_le (mapsFrom_succ_lt inside) (room m rfl)
      obtain ⟨depth, rfl⟩ := Nat.exists_eq_succ_of_ne_zero (Nat.ne_of_gt (Nat.zero_lt_of_lt further))
      have inner := fieldsShown_of_holds i fields holds fun field mem inner same => by
        obtain ⟨name, slot⟩ := field
        cases same
        rw [(i.fits_inner mem).2]
        simpa [Place.along] using Nat.le_of_lt_succ further
      rw [Shelf.slotShown, Shelf.shownTo_succ, inner]
      rfl
  | _ =>
    cases slot with
    | leaf w => exact congrArg some h
    | map m => exact h.elim

theorem fieldsShown_of_holds (i : Inventory) (fields : List (Text × Value))
    {slots : List (Text × Slot)} (h : i.shelf.HoldsFields fields slots) {depth : Nat}
    (room : ∀ field ∈ slots, ∀ m, field.2 = .map m →
      i.mapsFrom (i.ledger m).path.length ≤ depth) :
    slots.mapM (fun field => (i.shelf.slotShown depth field.2).map ((field.1, ·))) = some fields := by
  match fields, slots, h with
  | [], _, h =>
    cases h
    rfl
  | (name, v) :: rest, (name', slot) :: slots, h =>
    obtain ⟨rfl, holds, others⟩ := h
    have here := slotShown_of_holds i v holds fun m => room _ List.mem_cons_self m
    have there := fieldsShown_of_holds i rest others fun field mem =>
      room field (List.mem_cons_of_mem _ mem)
    rw [List.mapM_cons, here, there]
    rfl
end

/-- A map shows what it holds. -/
theorem shown_of_holds (i : Inventory) {m : SharedMap} {fields : Fields}
    (h : i.shelf.HoldsMap m fields) : i.shelf.shown m = some (.object fields) :=
  i.slotShown_of_holds (.object fields) h fun _ _ => i.mapsFrom_le _

/-! ## What changes -/

/-- One inventory has become another, where only maps at certain places were written into. -/
structure Changes (places : Place → Prop) (i i' : Inventory) : Prop where
  size : i.shelf.maps.size ≤ i'.shelf.maps.size
  ledger : ∀ m, i.shelf.Has m → i'.ledger m = i.ledger m
  fields : ∀ m, i.shelf.Has m → ¬ places (i.ledger m) → i'.shelf.fields m = i.shelf.fields m

namespace Changes

variable {places places' : Place → Prop}

theorem refl (places : Place → Prop) (i : Inventory) : Changes places i i :=
  ⟨Nat.le_refl _, fun _ _ => rfl, fun _ _ _ => rfl⟩

theorem has (h : Changes places i i') {m : SharedMap} (inside : i.shelf.Has m) : i'.shelf.Has m :=
  Nat.lt_of_lt_of_le inside h.size

theorem trans {i'' : Inventory} (h : Changes places i i') (h' : Changes places i' i'') :
    Changes places i i'' := by
  refine ⟨Nat.le_trans h.size h'.size, fun m inside => ?_, fun m inside apart => ?_⟩
  · rw [h'.ledger m (h.has inside), h.ledger m inside]
  · have apart' : ¬ places (i'.ledger m) := by rwa [h.ledger m inside]
    rw [h'.fields m (h.has inside) apart', h.fields m inside apart]

theorem mono (h : Changes places i i') (le : ∀ p, places p → places' p) : Changes places' i i' :=
  ⟨h.size, h.ledger, fun m inside apart => h.fields m inside fun at_ => apart (le _ at_)⟩

theorem fits (h : Changes places i i') {p : Place} {slot : Slot}
    (own : i.shelf.Fits i.ledger p slot) : i'.shelf.Fits i'.ledger p slot := by
  cases slot with
  | leaf v => trivial
  | map m => exact ⟨h.has own.1, by rw [h.ledger m own.1]; exact own.2⟩

mutual
/-- What is apart from the places that change holds what it held. -/
theorem holds (h : Changes places i i') (closed : Place.Closed places) (v : Value) {slot : Slot}
    (apart : ∀ m, slot = .map m → ¬ places (i.ledger m)) (own : i.shelf.Holds v slot) :
    i'.shelf.Holds v slot := by
  cases v with
  | object fields =>
    cases slot with
    | leaf w => exact own
    | map m =>
      refine ⟨h.has own.1, ?_⟩
      rw [h.fields m own.1 (apart m rfl)]
      refine holdsFields h closed fields (fun field mem inner same => ?_) own.2
      obtain ⟨name, slot⟩ := field
      cases same
      rw [(i.fits_inner mem).2]
      exact fun at_ => apart m rfl (closed _ _ at_)
  | _ => exact own

theorem holdsFields (h : Changes places i i') (closed : Place.Closed places)
    (fields : List (Text × Value)) {slots : List (Text × Slot)}
    (apart : ∀ field ∈ slots, ∀ m, field.2 = .map m → ¬ places (i.ledger m))
    (own : i.shelf.HoldsFields fields slots) : i'.shelf.HoldsFields fields slots := by
  match fields, slots, own with
  | [], _, own => exact own
  | (name, v) :: rest, (name', slot) :: slots, own =>
    have others := fun field mem => apart field (List.mem_cons_of_mem (name', slot) mem)
    exact ⟨own.1, holds h closed v (apart _ List.mem_cons_self) own.2.1,
      holdsFields h closed rest others own.2.2⟩
end

/-- What is apart from the places that change leads where it led. -/
theorem at? (h : Changes places i i') (closed : Place.Closed places) {m : SharedMap}
    (inside : i.shelf.Has m) (apart : ¬ places (i.ledger m)) (path : Path) :
    i'.shelf.at? m path = i.shelf.at? m path := by
  induction path generalizing m with
  | nil => rfl
  | cons name rest ih =>
    rw [Shelf.at?_cons, Shelf.at?_cons, h.fields m inside apart]
    cases there : Table.get? (i.shelf.fields m) name with
    | none => rfl
    | some slot =>
      cases slot with
      | leaf v => cases rest <;> rfl
      | map inner =>
        obtain ⟨inside', place⟩ := (i.tidy.inner m).fits name _ there
        exact ih inside' (by rw [place]; exact fun at_ => apart (closed _ _ at_))

end Changes

/-! ## Single changes -/

theorem fits_nothing (shelf : Shelf) (ledger : Ledger) (place : Place) :
    shelf.FitsAll ledger place [] :=
  ⟨by simp [Table.Distinct, Table.keys], fun _ _ there => by cases there⟩

def push (i : Inventory) (place : Place) (slots : Table Text Slot)
    (fits : i.shelf.FitsAll i.ledger place slots) : Inventory where
  shelf := i.shelf.pushed slots
  ledger := fun m => if m = ⟨i.shelf.maps.size⟩ then place else i.ledger m
  tidy := by
    have more {p : Place} {slot : Slot} (own : i.shelf.Fits i.ledger p slot) :
        (i.shelf.pushed slots).Fits
          (fun m => if m = ⟨i.shelf.maps.size⟩ then place else i.ledger m) p slot := by
      cases slot with
      | leaf v => trivial
      | map m =>
        have old : m ≠ ⟨i.shelf.maps.size⟩ := by
          rintro rfl
          exact Nat.lt_irrefl _ own.1
        refine ⟨?_, (if_neg old).trans own.2⟩
        rw [Shelf.Has, Shelf.pushed, Array.size_push]
        exact Nat.lt_succ_of_lt own.1
    constructor
    · intro m
      rw [Shelf.fields_pushed]
      split
      · exact ⟨fits.distinct, fun name slot there => more (fits.fits name slot there)⟩
      · have own := i.tidy.inner m
        exact ⟨own.distinct, fun name slot there => more (own.fits name slot there)⟩
    · intro lender key m there
      exact more (i.tidy.lent lender key m there)

section

variable {place : Place} {slots : Table Text Slot}
  {fits : i.shelf.FitsAll i.ledger place slots}

theorem has_push : (i.push place slots fits).shelf.Has ⟨i.shelf.maps.size⟩ := by
  simp [push, Shelf.pushed, Shelf.Has]

theorem changes_push : Changes (fun _ => False) i (i.push place slots fits) := by
  have old {m : SharedMap} (inside : i.shelf.Has m) : m ≠ ⟨i.shelf.maps.size⟩ := by
    rintro rfl
    exact Nat.lt_irrefl _ inside
  refine ⟨by simp [push, Shelf.pushed], fun m inside => ?_, fun m inside _ => ?_⟩
  · simp [push, old inside]
  · exact (Shelf.fields_pushed _ _ m).trans (if_neg (old inside))

end

/-- Putting a new map on a shelf, with a place for it. -/
theorem make_run (i : Inventory) {place : Place} {slots : Table Text Slot}
    (fits : i.shelf.FitsAll i.ledger place slots) :
    ∃ m i', (SharedMap.make slots).run i.shelf = (m, i'.shelf) ∧ Changes (fun _ => False) i i' ∧
      i'.shelf.lent = i.shelf.lent ∧ ¬ i.shelf.Has m ∧ i'.shelf.Has m ∧ i'.ledger m = place ∧
      i'.shelf.fields m = slots :=
  ⟨⟨i.shelf.maps.size⟩, i.push place slots fits, rfl, changes_push, rfl, Nat.lt_irrefl _, has_push,
    if_pos rfl, (Shelf.fields_pushed _ _ _).trans (if_pos rfl)⟩

def write (i : Inventory) (m : SharedMap) (name : Text) (slot : Slot) (inside : i.shelf.Has m)
    (fits : i.shelf.Fits i.ledger ((i.ledger m).along [name]) slot) : Inventory where
  shelf := i.shelf.rewritten m (Table.insert (i.shelf.fields m) name slot)
  ledger := i.ledger
  tidy := by
    have same {p : Place} {slot' : Slot} (own : i.shelf.Fits i.ledger p slot') :
        (i.shelf.rewritten m (Table.insert (i.shelf.fields m) name slot)).Fits i.ledger p
          slot' := by
      cases slot' with
      | leaf v => trivial
      | map m' => simpa [Shelf.Fits, Shelf.Has, Shelf.rewritten] using own
    constructor
    · intro m'
      rw [Shelf.fields_rewritten i.shelf inside]
      split
      · next here =>
        subst here
        have own := i.tidy.inner m'
        refine ⟨Table.distinct_insert own.distinct name slot, fun name' slot' there => ?_⟩
        rw [Table.get?_insert] at there
        split at there
        · next here =>
          cases here
          cases there
          exact same fits
        · exact same (own.fits name' slot' there)
      · have own := i.tidy.inner m'
        exact ⟨own.distinct, fun name' slot' there => same (own.fits name' slot' there)⟩
    · intro lender key m' there
      exact same (i.tidy.lent lender key m' there)

section

variable {m : SharedMap} {name : Text} {slot : Slot} {inside : i.shelf.Has m}
  {fits : i.shelf.Fits i.ledger ((i.ledger m).along [name]) slot}

theorem fields_write_self :
    (i.write m name slot inside fits).shelf.fields m =
      Table.insert (i.shelf.fields m) name slot := by
  rw [write, Shelf.fields_rewritten i.shelf inside, if_pos rfl]

theorem changes_write : Changes (· = i.ledger m) i (i.write m name slot inside fits) := by
  refine ⟨by simp [write, Shelf.rewritten], fun _ _ => rfl, fun m' _ apart => ?_⟩
  have other : m' ≠ m := fun same => apart (same ▸ rfl)
  rw [write, Shelf.fields_rewritten i.shelf inside, if_neg other]

end

/-- Writing a field of a map. -/
theorem insert_run {m : SharedMap} (inside : i.shelf.Has m) {name : Text} {slot : Slot}
    (fits : i.shelf.Fits i.ledger ((i.ledger m).along [name]) slot) :
    ∃ i', (m.insert name slot).run i.shelf = ((), i'.shelf) ∧ Changes (· = i.ledger m) i i' ∧
      i'.shelf.lent = i.shelf.lent ∧
      i'.shelf.fields m = Table.insert (i.shelf.fields m) name slot :=
  ⟨i.write m name slot inside fits, rfl, changes_write, rfl, fields_write_self⟩

end Inventory

end ClusterMetadata
