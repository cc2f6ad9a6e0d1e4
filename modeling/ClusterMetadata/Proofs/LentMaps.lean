import ClusterMetadata.Proofs.PlacedDrafts
import ClusterMetadata.Proofs.ProperValues

/-!
# Lending the maps of a resource

The maps among a resource's labels or annotations are lent once, and every section of the resource
is made with the same ones, holding by then what the sections before have written into them.

* `share_run`, `holdsMap_make`: putting the maps of a value on the shelf;
* `Inventory.Lends`: what the maps of a lender hold, by the keys that they were lent for;
* `lendAll_run`: lending all the maps of a lender changes none of those that are there.
-/
namespace ClusterMetadata

open Json (Value Fields ProperFields)
open Inventory (Changes)

namespace Draft

mutual
/-- Sharing a value makes maps that hold it, at a place and below it. -/
theorem share_run (v : Value) (proper : v.Proper) (i : Inventory) (place : Place) :
    ∃ slot i', ((Node.ofValue v).share).run i.shelf = (slot, i'.shelf) ∧
      Changes (fun _ => False) i i' ∧ i'.shelf.lent = i.shelf.lent ∧ i'.shelf.Holds v slot ∧
      i'.shelf.Fits i'.ledger place slot := by
  cases v with
  | object fields =>
    obtain ⟨slots, i₁, run, changes, lent, holds, keys, fits⟩ :=
      shareFields_run fields proper.2 i place
    have fitsAll : i₁.shelf.FitsAll i₁.ledger place slots := by
      have distinct : Table.Distinct slots := by
        rw [Table.Distinct, keys]
        exact proper.1
      exact ⟨distinct, fun name slot there => fits (name, slot) (Table.mem_of_get? there)⟩
    obtain ⟨m, i₂, made, changes', lent', -, inside, here, filled⟩ := i₁.make_run fitsAll
    refine ⟨.map m, i₂, ?_, changes.trans changes', lent'.trans lent, ⟨inside, ?_⟩, inside, here⟩
    · rw [Node.ofValue, Node.share, OnShelf.run_bind run, OnShelf.run_bind made]
      rfl
    · rw [filled]
      exact changes'.holdsFields (fun _ _ => id) fields (fun _ _ _ _ => id) holds
  | _ => exact ⟨_, i, rfl, .refl _ i, rfl, rfl, trivial⟩

theorem shareFields_run (fields : List (Text × Value)) (proper : ProperFields fields)
    (i : Inventory) (place : Place) :
    ∃ slots i', (shareFields (ofFields fields)).run i.shelf = (slots, i'.shelf) ∧
      Changes (fun _ => False) i i' ∧ i'.shelf.lent = i.shelf.lent ∧
      i'.shelf.HoldsFields fields slots ∧ Table.keys slots = Table.keys fields ∧
      ∀ field ∈ slots, i'.shelf.Fits i'.ledger (place.along [field.1]) field.2 := by
  match fields with
  | [] => exact ⟨[], i, rfl, .refl _ i, rfl, rfl, rfl, nofun⟩
  | (name, v) :: rest =>
    obtain ⟨slot, i₁, run, changes, lent, holds, fits⟩ := share_run v proper.1 i (place.along [name])
    obtain ⟨slots, i₂, run', changes', lent', holds', keys, fits'⟩ :=
      shareFields_run rest proper.2 i₁ place
    refine ⟨(name, slot) :: slots, i₂, ?_, changes.trans changes', lent'.trans lent,
      ⟨rfl, changes'.holds (fun _ _ => id) v (fun _ _ => id) holds, holds'⟩,
      congrArg (name :: ·) keys, fun field mem => ?_⟩
    · rw [ofFields, shareFields, OnShelf.run_bind run, OnShelf.run_bind run']
      rfl
    · rcases List.mem_cons.mp mem with rfl | mem
      · exact changes'.fits fits
      · exact fits' field mem
end

/-- A new map that fields are shared in holds them. -/
theorem holdsMap_make {fields : Fields} (proper : (Value.object fields).Proper) (i : Inventory)
    (place : Place) :
    ∃ m i', (shareFields (ofFields fields) >>= SharedMap.make).run i.shelf = (m, i'.shelf) ∧
      Changes (fun _ => False) i i' ∧ i'.shelf.lent = i.shelf.lent ∧ i'.shelf.HoldsMap m fields ∧
      i'.ledger m = place := by
  obtain ⟨slot, i', run, changes, lent, holds, fits⟩ := share_run (.object fields) proper i place
  obtain ⟨m, shelf, made⟩ : ∃ m shelf,
      (shareFields (ofFields fields) >>= SharedMap.make).run i.shelf = (m, shelf) := ⟨_, _, rfl⟩
  have shared : ((Node.ofValue (.object fields)).share).run i.shelf = (.map m, shelf) := by
    rw [Node.ofValue, Node.share, ← bind_assoc, OnShelf.run_bind made]
    rfl
  rw [shared] at run
  cases run
  exact ⟨m, i', made, changes, lent, holds, fits.2⟩

/-- The map that is lent under a key: the first one among the entries with the key. -/
def lentMap? (entries : Fields) (key : Text) : Option Fields :=
  entries.findSome? fun entry => if entry.1 = key then entry.2.fields? else none

theorem lentMap?_of_leaves {entries : Fields} (leaves : ∀ entry ∈ entries, entry.2.isObject = false)
    (key : Text) : lentMap? entries key = none := by
  rw [lentMap?, List.findSome?_eq_none_iff]
  intro entry mem
  split
  · cases isMap : entry.2 with
    | object inner =>
      have leaf := leaves entry mem
      rw [isMap] at leaf
      cases leaf
    | _ => rfl
  · rfl

/-- The value that the node of an entry shows, given what the maps that were lent hold. -/
def heldValue (held : Text → Option Fields) (entry : Text × Value) : Value :=
  match held entry.1 with
  | some fields => .object fields
  | none => entry.2

/-- Maps that were lent hold what is said, and what is not lent yet is as the manifest has it. -/
structure Lent (i : Inventory) (lender : Lender) (entries : Fields) (held : Text → Option Fields)
    (loans : Loans) : Prop where
  lent : ∀ key m, loans[key]? = some m → i.ledger m = ⟨lender, Path.ofKey key⟩ ∧
    (lentMap? entries key).isSome ∧ ∃ fields, held key = some fields ∧ i.shelf.HoldsMap m fields
  unlent : ∀ key, loans[key]? = none → held key = lentMap? entries key

theorem Lent.of_changes {places : Place → Prop} {i i' : Inventory} (changes : Changes places i i')
    (closed : Place.Closed places) {lender : Lender} (apart : ∀ path, ¬ places ⟨lender, path⟩)
    {entries : Fields} {held : Text → Option Fields} {loans : Loans}
    (h : Lent i lender entries held loans) : Lent i' lender entries held loans := by
  refine ⟨fun key m found => ?_, h.unlent⟩
  obtain ⟨place, owed, fields, same, holds⟩ := h.lent key m found
  refine ⟨(changes.ledger m holds.1).trans place, owed, fields, same, ?_⟩
  refine changes.holds closed (.object fields) (fun inner here => ?_) holds
  cases here
  rw [place]
  exact apart _

def AllLent (entries : Fields) (loans : Loans) : Prop :=
  ∀ entry ∈ entries, entry.2.isObject = true → loans.contains entry.1 = true

theorem AllLent.insert {entries : Fields} {loans : Loans} (all : AllLent entries loans)
    (key : Text) (m : SharedMap) : AllLent entries (loans.insert key m) := by
  intro entry mem isMap
  rw [Std.HashMap.contains_insert, all entry mem isMap, Bool.or_true]

/-- One entry more, whose map is lent if it is one. -/
theorem AllLent.append {entries : Fields} {entry : Text × Value} {loans : Loans}
    (all : AllLent entries loans)
    (last : entry.2.isObject = true → loans.contains entry.1 = true) :
    AllLent (entries ++ [entry]) loans := by
  intro other mem isMap
  rcases List.mem_append.mp mem with mem | mem
  · exact all other mem isMap
  · rw [List.mem_singleton] at mem
    subst mem
    exact last isMap

/-- A map that is lent for a key for the first time holds what the manifest has. -/
theorem Lent.insert {i : Inventory} {lender : Lender} {entries : Fields}
    {held : Text → Option Fields} {loans : Loans} (h : Lent i lender entries held loans)
    {key : Text} (missing : ¬ loans.contains key = true) {m : SharedMap}
    (place : i.ledger m = ⟨lender, Path.ofKey key⟩) {fields : Fields}
    (first : lentMap? entries key = some fields) (holds : i.shelf.HoldsMap m fields) :
    Lent i lender entries held (loans.insert key m) := by
  refine ⟨fun other m' found => ?_, fun other absent => ?_⟩
  · rw [Std.HashMap.getElem?_insert] at found
    split at found
    · next same =>
      rw [beq_iff_eq] at same
      cases found
      subst same
      have absent : loans[key]? = none := by
        rw [Std.HashMap.contains_eq_isSome_getElem?] at missing
        simpa using missing
      exact ⟨place, by rw [first]; rfl, fields, (h.unlent key absent).trans first, holds⟩
    · exact h.lent other m' found
  · rw [Std.HashMap.getElem?_insert] at absent
    split at absent
    · cases absent
    · exact h.unlent other absent

/-- Nothing before a map that is not lent is a map under its key, so it is the first. -/
theorem lentMap?_first {before rest : Fields} {key : Text} {fields : Fields} {loans : Loans}
    (all : AllLent before loans) (missing : ¬ loans.contains key = true) :
    lentMap? (before ++ (key, .object fields) :: rest) key = some fields := by
  have nothing : lentMap? before key = none := by
    rw [lentMap?, List.findSome?_eq_none_iff]
    intro entry mem
    split
    · next same =>
      cases isMap : entry.2 with
      | object inner =>
        have lent := all entry mem (by rw [isMap]; rfl)
        exact absurd (same ▸ lent) missing
      | _ => rfl
    · rfl
  rw [lentMap?] at nothing ⊢
  rw [List.findSome?_append, nothing, List.findSome?_cons]
  simp [Value.fields?]

section

variable {lender : Lender} {held : Text → Option Fields}

/-- Lending the map of one more entry. -/
theorem lend_run {i : Inventory} {before rest : Fields} {entry : Text × Value} {loans : Loans}
    (proper : entry.2.Proper) (lent : Lent i lender (before ++ entry :: rest) held loans)
    (all : AllLent before loans) :
    ∃ loans' i', (lend loans entry).run i.shelf = (loans', i'.shelf) ∧
      Changes (fun _ => False) i i' ∧ i'.shelf.lent = i.shelf.lent ∧
      Lent i' lender (before ++ entry :: rest) held loans' ∧ AllLent (before ++ [entry]) loans' := by
  obtain ⟨key, v⟩ := entry
  cases v with
  | object fields =>
    rw [lend]
    split
    · next contained =>
      exact ⟨loans, i, rfl, .refl _ i, rfl, lent, all.append fun _ => contained⟩
    · next missing =>
      obtain ⟨m, i', made, changes, lentSame, holds, place⟩ :=
        holdsMap_make proper i ⟨lender, Path.ofKey key⟩
      have first : lentMap? (before ++ (key, .object fields) :: rest) key = some fields :=
        lentMap?_first all missing
      have kept := lent.of_changes changes (fun _ _ => id) fun _ => id
      refine ⟨loans.insert key m, i', ?_, changes, lentSame, kept.insert missing place first holds,
        (all.insert key m).append fun _ => by simp⟩
      rw [← bind_assoc, OnShelf.run_bind made]
      rfl
  | _ => exact ⟨loans, i, rfl, .refl _ i, rfl, lent, all.append (by rintro ⟨⟩)⟩

theorem lendMany_run {rest before : Fields} {i : Inventory} {loans : Loans}
    (proper : ∀ entry ∈ rest, entry.2.Proper) (lent : Lent i lender (before ++ rest) held loans)
    (all : AllLent before loans) :
    ∃ loans' i', (rest.foldlM lend loans).run i.shelf = (loans', i'.shelf) ∧
      Changes (fun _ => False) i i' ∧ i'.shelf.lent = i.shelf.lent ∧
      Lent i' lender (before ++ rest) held loans' ∧ AllLent (before ++ rest) loans' := by
  induction rest generalizing before i loans with
  | nil =>
    rw [List.append_nil] at lent ⊢
    exact ⟨loans, i, rfl, .refl _ i, rfl, lent, all⟩
  | cons entry rest ih =>
    obtain ⟨loans₁, i₁, run₁, changes₁, same₁, lent₁, all₁⟩ :=
      lend_run (proper entry List.mem_cons_self) lent all
    rw [List.append_cons] at lent₁
    obtain ⟨loans₂, i₂, run₂, changes₂, same₂, lent₂, all₂⟩ :=
      ih (fun entry mem => proper entry (List.mem_cons_of_mem _ mem)) lent₁ all₁
    rw [← List.append_cons] at lent₂ all₂
    refine ⟨loans₂, i₂, ?_, changes₁.trans changes₂, same₂.trans same₁, lent₂, all₂⟩
    rw [List.foldlM_cons, OnShelf.run_bind run₁, run₂]

end

end Draft

namespace Inventory

/-- What the maps of a lender hold, by the keys that they are lent for. -/
def Lends (i : Inventory) (lender : Lender) (entries : Fields) (held : Text → Option Fields) : Prop :=
  Draft.Lent i lender entries held (i.shelf.lent.getD lender {})

/-- One inventory has become another, where only maps of one lender were written into or lent. -/
structure Touches (lender : Lender) (i i' : Inventory) : Prop where
  changes : Changes (·.lender = lender) i i'
  lent : ∀ other, other ≠ lender → i'.shelf.lent.getD other {} = i.shelf.lent.getD other {}

theorem Touches.trans {lender : Lender} {i i' i'' : Inventory} (h : Touches lender i i')
    (h' : Touches lender i' i'') : Touches lender i i'' :=
  ⟨h.changes.trans h'.changes, fun other apart => (h'.lent other apart).trans (h.lent other apart)⟩

theorem Touches.lends {lender other : Lender} {i i' : Inventory} (h : Touches lender i i')
    (apart : other ≠ lender) {entries : Fields} {held : Text → Option Fields}
    (lends : i.Lends other entries held) : i'.Lends other entries held := by
  rw [Lends, h.lent other apart]
  exact Draft.Lent.of_changes h.changes (fun _ _ => id) (fun _ => apart) lends

def note (i : Inventory) (lender : Lender) (loans : Loans)
    (fits : ∀ key m, loans[key]? = some m →
      i.shelf.Fits i.ledger ⟨lender, Path.ofKey key⟩ (.map m)) : Inventory where
  shelf := { i.shelf with lent := i.shelf.lent.insert lender loans }
  ledger := i.ledger
  tidy := by
    have same {p : Place} {slot : Slot} (own : i.shelf.Fits i.ledger p slot) :
        Shelf.Fits { i.shelf with lent := i.shelf.lent.insert lender loans } i.ledger p slot := by
      cases slot <;> exact own
    constructor
    · intro m
      have own := i.tidy.inner m
      exact ⟨own.distinct, fun name slot there => same (own.fits name slot there)⟩
    · intro other key m found
      rw [Std.HashMap.getD_insert] at found
      split at found
      · next here =>
        rw [beq_iff_eq] at here
        exact same (here ▸ fits key m found)
      · exact same (i.tidy.lent other key m found)

end Inventory

namespace Draft

/-- A lender lends all its maps; those that were lent before stay as they are. -/
theorem lendAll_run {i : Inventory} {lender : Lender} {entries : Fields}
    {held : Text → Option Fields} (proper : ∀ entry ∈ entries, entry.2.Proper)
    (lends : i.Lends lender entries held) :
    ∃ loans i', (lendAll lender entries).run i.shelf = (loans, i'.shelf) ∧
      Inventory.Touches lender i i' ∧ Lent i' lender entries held loans ∧ AllLent entries loans ∧
      ∀ key : Text, (i'.shelf.lent.getD lender {})[key]? = loans[key]? := by
  unfold lendAll
  split
  · next plain =>
    have noMap : ∀ entry ∈ entries, entry.2.isObject = false := fun entry mem => by
      simpa using List.all_eq_true.mp plain entry mem
    have nothing := lentMap?_of_leaves noMap
    have absent (key : Text) : (i.shelf.lent.getD lender {})[key]? = none := by
      cases found : (i.shelf.lent.getD lender {})[key]? with
      | none => rfl
      | some m =>
        have owed := (lends.lent key m found).2.1
        rw [nothing] at owed
        cases owed
    refine ⟨{}, i, rfl, ⟨.refl _ i, fun _ _ => rfl⟩, ⟨fun key m found => ?_, fun key _ => ?_⟩,
      fun entry mem isMap => ?_, fun key => ?_⟩
    · simp at found
    · exact lends.unlent key (absent key)
    · rw [noMap entry mem] at isMap
      cases isMap
    · rw [absent key, Std.HashMap.getElem?_empty]
  · have start : Lent i lender ([] ++ entries) held (i.shelf.lent.getD lender {}) := lends
    have none : AllLent [] (i.shelf.lent.getD lender {}) := fun entry mem => by cases mem
    obtain ⟨loans, i₁, run, changes, same, lent, all⟩ := lendMany_run proper start none
    have fits : ∀ key m, loans[key]? = some m →
        i₁.shelf.Fits i₁.ledger ⟨lender, Path.ofKey key⟩ (.map m) := fun key m found => by
      obtain ⟨place, -, fields, -, holds⟩ := lent.lent key m found
      exact ⟨holds.1, place⟩
    have noted : Changes (fun _ => False) i₁ (i₁.note lender loans fits) :=
      ⟨Nat.le_refl _, fun _ _ => rfl, fun _ _ _ => rfl⟩
    have lent' := lent.of_changes noted (fun _ _ => id) fun _ => id
    refine ⟨loans, i₁.note lender loans fits, ?_, ⟨?_, fun other apart => ?_⟩, lent', all,
      fun key => ?_⟩
    · have start : (get : OnShelf Shelf).run i.shelf = (i.shelf, i.shelf) := rfl
      rw [OnShelf.run_bind start, OnShelf.run_bind run]
      rfl
    · exact (changes.trans noted).mono fun _ => False.elim
    · rw [Inventory.note, Std.HashMap.getD_insert, if_neg (by simpa using Ne.symm apart), same]
    · rw [Inventory.note, Std.HashMap.getD_insert, if_pos (by simp)]

end Draft

end ClusterMetadata
