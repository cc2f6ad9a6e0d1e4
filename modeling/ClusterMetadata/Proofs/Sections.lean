import ClusterMetadata.Proofs.LentMaps
import ClusterMetadata.Proofs.SortedValues

/-!
# Making sections with lent maps

A section is made of the entries of a lender, with the maps that were lent as they are by then. What
it writes into those maps stays in them, so a section that is made again may show something else.

* `sectionWith`: the section that entries become, given what the lent maps hold;
* `heldIn`: what the lent maps hold once it is made;
* `ofMap_run`: making a section shows the one and leaves the other, and touches no other lender.
-/
namespace ClusterMetadata

open Json (Value Fields)
open Inventory (Changes)

/-! ## Keys and paths -/

namespace Text

theorem pointsLe_append (ps qs : List CodePoint) : pointsLe ps (ps ++ qs) := by
  induction ps with
  | nil => rfl
  | cons p ps ih => simp [pointsLe, ih]

theorem intercalate_isPrefix {α : Type} (separator : List α) {pieces pieces' : List (List α)}
    (h : pieces <+: pieces') : separator.intercalate pieces <+: separator.intercalate pieces' := by
  induction pieces generalizing pieces' with
  | nil => exact List.nil_prefix
  | cons piece rest ih =>
    obtain ⟨more, rfl⟩ := h
    cases rest with
    | nil =>
      cases more with
      | nil => exact List.prefix_refl _
      | cons next more =>
        rw [List.cons_append, List.nil_append, List.intercalate_singleton,
          List.intercalate_cons_cons, List.append_assoc]
        exact List.prefix_append ..
    | cons next rest =>
      have further := ih (List.prefix_append (next :: rest) more)
      rw [List.cons_append, List.cons_append, List.intercalate_cons_cons,
        List.intercalate_cons_cons]
      exact (List.prefix_append_right_inj _).mpr further

end Text

/-- A key whose path another one goes on from does not come after it. -/
theorem Path.le_of_isPrefix {key key' : Text} (h : Path.ofKey key <+: Path.ofKey key') :
    key.le key' := by
  have pieces : Text.pieces (CodePoint.ofChar '.') key.points <+:
      Text.pieces (CodePoint.ofChar '.') key'.points := by
    have points := h.map Text.points
    simpa [Path.ofKey, Text.cut, Function.comp_def] using points
  have texts := Text.intercalate_isPrefix [CodePoint.ofChar '.'] pieces
  rw [Text.intercalate_pieces, Text.intercalate_pieces] at texts
  obtain ⟨more, same⟩ := texts
  rw [Text.le, ← same]
  exact Text.pointsLe_append ..

/-! ## What stands at a path of what is shown -/

namespace Shelf

theorem slotAt?_of_holds {shelf : Shelf} {path : Path} {v : Value} {slot found : Slot}
    (holds : shelf.Holds v slot) (h : shelf.slotAt? slot path = some found) :
    ∃ w, v.at? path = some w ∧ shelf.Holds w found := by
  induction path generalizing v slot with
  | nil =>
    cases slot with
    | leaf u =>
      cases h
      exact ⟨v, by rw [Value.at?], holds⟩
    | map m =>
      rw [slotAt?, at?] at h
      cases h
      exact ⟨v, by rw [Value.at?], holds⟩
  | cons name rest ih =>
    cases slot with
    | leaf u => cases h
    | map m =>
      cases v with
      | object fields =>
        rw [slotAt?, at?_cons] at h
        rcases get?_of_holds holds.2 name with ⟨hs, -⟩ | ⟨slot, w, hs, hf, held⟩
        · rw [hs] at h
          cases h
        · rw [hs] at h
          rw [Value.at?_object_cons, hf]
          exact ih held h
      | _ => exact holds.elim

end Shelf

namespace Draft

theorem nodeAt?_of_shows {shelf : Shelf} {path : Path} {v : Value} {node : Node} {m : SharedMap}
    (shows : Node.Shows shelf v node) (h : nodeAt? shelf node path = some (.shared m)) :
    ∃ fields, v.at? path = some (.object fields) ∧ shelf.HoldsMap m fields := by
  induction path generalizing v node with
  | nil =>
    cases h
    cases v with
    | object fields => exact ⟨fields, by rw [Value.at?], shows⟩
    | _ => exact shows.elim
  | cons name rest ih =>
    cases node with
    | leaf w => cases h
    | shared m' =>
      cases v with
      | object fields =>
        have held : shelf.Holds (.object fields) (.map m') := shows
        rw [nodeAt?_shared, ofSlot_eq_shared] at h
        obtain ⟨w, there, holds⟩ := Shelf.slotAt?_of_holds held (show shelf.slotAt? _ _ = _ from h)
        cases w with
        | object fields => exact ⟨fields, there, holds⟩
        | _ => exact holds.elim
      | _ => exact shows.elim
    | map nodes =>
      cases v with
      | object fields =>
        rw [nodeAt?, at?_cons] at h
        rcases get?_of_shows shows name with ⟨hd, -⟩ | ⟨node, w, hd, hf, below⟩
        · rw [hd] at h
          cases h
        · rw [hd] at h
          rw [Value.at?_object_cons, hf]
          exact ih below h
      | _ => exact shows.elim

/-! ## The entries of a section -/

/-- What the node of an entry is made of. -/
def lentSlot (loans : Loans) (entry : Text × Value) : Slot :=
  match loans[entry.1]? with
  | some m => .map m
  | none => .leaf entry.2

/-- An entry whose map, if it has one, is as it was when the section was begun. -/
structure Ready (i : Inventory) (lender : Lender) (held : Text → Option Fields) (loans : Loans)
    (entry : Text × Value) : Prop where
  node : lentNode loans entry = .ofSlot (lentSlot loans entry)
  holds : i.shelf.Holds (heldValue held entry) (lentSlot loans entry)
  fits : i.shelf.Fits i.ledger ⟨lender, Path.ofKey entry.1⟩ (lentSlot loans entry)

section

variable {i i' : Inventory} {lender : Lender} {entries : Fields} {held : Text → Option Fields}
  {loans : Loans}

/-- A key that is not lent has no map. -/
theorem lentMap?_of_unlent (all : AllLent entries loans) {key : Text} (missing : loans[key]? = none) :
    lentMap? entries key = none := by
  rw [lentMap?, List.findSome?_eq_none_iff]
  intro entry mem
  split
  · next same =>
    cases isMap : entry.2 with
    | object inner =>
      have contained := all entry mem (by rw [isMap]; rfl)
      rw [Std.HashMap.contains_eq_isSome_getElem?, same, missing] at contained
      cases contained
    | _ => rfl
  · rfl

theorem ready_of_lent (lent : Lent i lender entries held loans) (all : AllLent entries loans)
    {entry : Text × Value} (mem : entry ∈ entries) : Ready i lender held loans entry := by
  cases found : loans[entry.1]? with
  | some m =>
    obtain ⟨place, -, fields, same, holds⟩ := lent.lent _ m found
    refine ⟨by rw [lentNode, lentSlot, found]; rfl, ?_, ?_⟩
    · rw [heldValue, lentSlot, found, same]
      exact holds
    · rw [lentSlot, found]
      exact ⟨holds.1, place⟩
  | none =>
    have leaf : entry.2.isObject = false := by
      cases isMap : entry.2.isObject with
      | false => rfl
      | true =>
        have contained := all entry mem isMap
        rw [Std.HashMap.contains_eq_isSome_getElem?, found] at contained
        cases contained
    have nothing : held entry.1 = none := by
      rw [lent.unlent _ found, lentMap?_of_unlent all found]
    refine ⟨?_, ?_, by rw [lentSlot, found]; trivial⟩
    · rw [lentNode, lentSlot, found]
      cases isMap : entry.2 with
      | object fields =>
        rw [isMap] at leaf
        cases leaf
      | _ => rfl
    · rw [heldValue, lentSlot, found, nothing]
      cases isMap : entry.2 with
      | object fields =>
        rw [isMap] at leaf
        cases leaf
      | _ => rfl

theorem Ready.of_changes {entry : Text × Value} (h : Ready i lender held loans entry)
    {target : Place} (changes : Changes (Place.Around target) i i')
    (apart : ∀ m, loans[entry.1]? = some m →
      ¬ Place.Around target ⟨lender, Path.ofKey entry.1⟩) : Ready i' lender held loans entry := by
  refine ⟨h.node, ?_, changes.fits h.fits⟩
  refine changes.holds (Place.closed_around target) _ (fun m same => ?_) h.holds
  have fits := h.fits
  rw [same] at fits
  rw [fits.2]
  refine apart m ?_
  rw [lentSlot] at same
  cases found : loans[entry.1]? with
  | some m' =>
    rw [found] at same
    cases same
    rfl
  | none =>
    rw [found] at same
    cases same

/-- The section that entries become, given what the maps that were lent hold. -/
def sectionWith (dedot : Bool) (entries : Fields) (held : Text → Option Fields) : Document :=
  entries.foldl (fun d entry => d.addEntry dedot (entry.1, heldValue held entry)) []

/-- What the lent maps hold when a nested section shows a document. -/
def heldIn (entries : Fields) (shown : Document) (key : Text) : Option Fields :=
  (lentMap? entries key).bind fun _ => (shown.get? (Path.ofKey key)).bind Value.fields?

/-- A nested section of which some entries are made: it is seated, and the maps that were lent stand
in it under their keys. -/
structure Made (i : Inventory) (lender : Lender) (loans : Loans) (entries : Fields) (doc : Document)
    (d : Draft) : Prop where
  seated : Seated i ⟨lender, []⟩ (.object doc) (.map d)
  there : ∀ entry ∈ entries, ∀ m, loans[entry.1]? = some m →
    d.at? i.shelf (Path.ofKey entry.1) = some (.shared m)

def Ascending (entries : Fields) : Prop := entries.Pairwise fun a b => a.1.le b.1

/-- Adding an entry writes on the way to it, which leaves the maps of later entries alone and the
maps of earlier ones where they stand. -/
theorem made_addEntry {before rest : Fields} {entry : Text × Value} {doc : Document} {d : Draft}
    (made : Made i lender loans before doc d)
    (ready : ∀ later ∈ entry :: rest, Ready i lender held loans later)
    (ascending : Ascending (before ++ entry :: rest)) :
    ∃ d' i', (addEntry false d entry.1 (lentNode loans entry)).run i.shelf = (d', i'.shelf) ∧
      Changes (·.lender = lender) i i' ∧ i'.shelf.lent = i.shelf.lent ∧
      Made i' lender loans (before ++ [entry])
        (doc.addEntry false (entry.1, heldValue held entry)) d' ∧
      ∀ later ∈ rest, Ready i' lender held loans later := by
  obtain ⟨node, holds, fits⟩ := ready entry List.mem_cons_self
  obtain ⟨name, path, key⟩ : ∃ name path, Path.ofKey entry.1 = name :: path :=
    List.exists_cons_of_ne_nil (Path.ofKey_ne_nil entry.1)
  have fits : i.shelf.Fits i.ledger (Place.along ⟨lender, []⟩ (name :: path))
      (lentSlot loans entry) := by
    rw [← key]
    exact fits
  obtain ⟨d', i', run, put⟩ := put_safePut made.seated holds fits
  rw [← key] at put
  have lentEntry {m : SharedMap} (found : loans[entry.1]? = some m) :
      lentSlot loans entry = .map m := by
    rw [lentSlot, found]
  refine ⟨d', i', ?_, ?_, put.lent, ⟨?_, fun earlier mem m found => ?_⟩, fun later mem => ?_⟩
  · rw [addEntry, if_neg (by simp), node, key]
    exact run
  · refine put.changes.mono ?_
    rintro p ⟨part, -, rfl⟩
    rfl
  · rw [Document.addEntry, if_neg (by simp)]
    rw [← key] at *
    exact put.seated
  · rcases List.mem_append.mp mem with mem | mem
    · by_cases through : Path.ofKey entry.1 <+: Path.ofKey earlier.1
      · -- An earlier key that goes on from this one is this one.
        have before := (List.pairwise_append.mp ascending).2.2 earlier mem entry List.mem_cons_self
        have same := Text.le_antisymm before (Path.le_of_isPrefix through)
        rw [same] at found ⊢
        exact put.there m (lentEntry found)
      · exact put.kept _ m through (made.there earlier mem m found)
    · rw [List.mem_singleton] at mem
      subst mem
      exact put.there m (lentEntry found)
  · have changes : Changes (Place.Around (Place.along ⟨lender, []⟩
        (Inventory.way (Path.ofKey entry.1) (lentSlot loans entry)))) i i' :=
      put.changes.mono fun p => Place.around_of_between
    refine (ready later (List.mem_cons_of_mem _ mem)).of_changes changes fun m found around => ?_
    have through : Path.ofKey later.1 <+:
        Inventory.way (Path.ofKey entry.1) (lentSlot loans entry) := by
      simpa [Place.along] using around.2
    -- A later key that is met on the way to this one is this one, whose map is put in its place.
    have ordered := (List.pairwise_cons.mp (List.pairwise_append.mp ascending).2.1).1 later mem
    have same := Text.le_antisymm ordered
      (Path.le_of_isPrefix (through.trans (Inventory.way_isPrefix ..)))
    rw [← same] at found through
    rw [Inventory.way, lentEntry found, key] at through
    have short := through.length_le
    simp only [Slot.isMap, if_true, List.length_dropLast, List.length_cons] at short
    omega

theorem made_ofEntries {before rest : Fields} {doc : Document} {d : Draft}
    (made : Made i lender loans before doc d)
    (ready : ∀ entry ∈ rest, Ready i lender held loans entry)
    (ascending : Ascending (before ++ rest)) :
    ∃ d' i', (rest.foldlM (fun d entry => addEntry false d entry.1 (lentNode loans entry)) d).run
        i.shelf = (d', i'.shelf) ∧
      Changes (·.lender = lender) i i' ∧ i'.shelf.lent = i.shelf.lent ∧
      Made i' lender loans (before ++ rest)
        (rest.foldl (fun d entry => d.addEntry false (entry.1, heldValue held entry)) doc) d' := by
  induction rest generalizing i before doc d with
  | nil =>
    rw [List.append_nil]
    exact ⟨d, i, rfl, .refl _ i, rfl, made⟩
  | cons entry rest ih =>
    obtain ⟨d₁, i₁, run₁, changes₁, lent₁, made₁, ready₁⟩ := made_addEntry made ready ascending
    rw [List.append_cons] at ascending
    obtain ⟨d₂, i₂, run₂, changes₂, lent₂, made₂⟩ := ih made₁ ready₁ ascending
    rw [← List.append_cons] at made₂
    refine ⟨d₂, i₂, ?_, changes₁.trans changes₂, lent₂.trans lent₁, made₂⟩
    rw [List.foldlM_cons, OnShelf.run_bind run₁]
    exact run₂

theorem among_lentNode (lent : Lent i lender entries held loans) (entry : Text × Value) :
    (lentNode loans entry).Among i.ledger (·.lender = lender) := by
  unfold lentNode
  split
  · next m found =>
    rw [Node.Among, (lent.lent _ m found).1]
  · exact among_ofValue ..

/-- A flat section has a field for every entry, and leaves shared maps alone. -/
theorem shows_flat {shelf : Shelf} {ledger : Ledger} {kept : Place → Prop} {rest : Fields}
    (shows : ∀ entry ∈ rest, (lentNode loans entry).Shows shelf (heldValue held entry) ∧
      (lentNode loans entry).Among ledger kept)
    {fields : Document} {d : Draft} (h : ShowsFields shelf fields d)
    (among : AmongFields ledger kept d) :
    ∃ d', (rest.foldlM (fun d entry => addEntry true d entry.1 (lentNode loans entry)) d).run
        shelf = (d', shelf) ∧
      ShowsFields shelf
        (rest.foldl (fun d entry => Document.addEntry true d (entry.1, heldValue held entry))
          fields) d' ∧
      AmongFields ledger kept d' := by
  induction rest generalizing fields d with
  | nil => exact ⟨d, rfl, h, among⟩
  | cons entry rest ih =>
    obtain ⟨here, amongHere⟩ := shows entry List.mem_cons_self
    rw [List.foldlM_cons, List.foldl_cons]
    exact ih (fun entry mem => shows entry (List.mem_cons_of_mem _ mem))
      (shows_insert h (dedotted entry.1) here) (among_insert among (dedotted entry.1) amongHere)

/-- What the lent maps hold after a section. -/
def heldAfter (dedot : Bool) (entries : Fields) (held : Text → Option Fields) :
    Text → Option Fields :=
  if dedot then held else heldIn entries (sectionWith false entries held)

theorem lends_of_made {i : Inventory} {doc : Document} {d : Draft}
    (lent : ∀ key m, loans[key]? = some m → i.ledger m = ⟨lender, Path.ofKey key⟩ ∧
      (lentMap? entries key).isSome)
    (all : AllLent entries loans) (made : Made i lender loans entries doc d) :
    Lent i lender entries (heldIn entries doc) loans := by
  constructor
  · intro key m found
    obtain ⟨place, owed⟩ := lent key m found
    obtain ⟨fields, first⟩ := Option.isSome_iff_exists.mp owed
    obtain ⟨entry, mem, here⟩ := List.exists_of_findSome?_eq_some first
    split at here
    · next same =>
      subst same
      have there := made.there entry mem m found
      obtain ⟨name, path, key⟩ : ∃ name path, Path.ofKey entry.1 = name :: path :=
        List.exists_cons_of_ne_nil (Path.ofKey_ne_nil entry.1)
      rw [key] at there
      have leads : nodeAt? i.shelf (.map d) (name :: path) = some (.shared m) := there
      obtain ⟨shown, at_, holds⟩ := nodeAt?_of_shows made.seated.shows leads
      refine ⟨place, owed, shown, ?_, holds⟩
      rw [heldIn, first, key]
      exact congrArg (·.bind Value.fields?) at_
    · cases here
  · intro key missing
    rw [heldIn, lentMap?_of_unlent all missing]
    rfl

end

theorem Lent.congr {i : Inventory} {lender : Lender} {entries : Fields}
    {held : Text → Option Fields} {loans loans' : Loans}
    (h : Lent i lender entries held loans)
    (same : ∀ key : Text, loans'[key]? = loans[key]?) : Lent i lender entries held loans' :=
  ⟨fun key m found => h.lent key m (by rw [← same, found]),
    fun key missing => h.unlent key (by rw [← same, missing])⟩

/-- Making a section shows the entries with the lent maps as they are, leaves in them what it has
written there, and touches no other lender. -/
theorem ofMap_run {i : Inventory} {lender : Lender} {source entries : Fields}
    (own : entries = Json.sortFields source) (proper : ∀ entry ∈ entries, entry.2.Proper)
    {held : Text → Option Fields} (lends : i.Lends lender entries held) (dedot : Bool) :
    ∃ d i', (ofMap lender dedot source).run i.shelf = (d, i'.shelf) ∧
      Inventory.Touches lender i i' ∧ ShowsFields i'.shelf (sectionWith dedot entries held) d ∧
      AmongFields i'.ledger (·.lender = lender) d ∧
      i'.Lends lender entries (heldAfter dedot entries held) := by
  obtain ⟨loans, i₁, run₁, touches₁, lent, all, noted⟩ := lendAll_run proper lends
  have ready : ∀ entry ∈ entries, Ready i₁ lender held loans entry := fun entry mem =>
    ready_of_lent lent all mem
  have whole {d : Draft} {i' : Inventory}
      (run : (ofEntries loans dedot entries).run i₁.shelf = (d, i'.shelf)) :
      (ofMap lender dedot source).run i.shelf = (d, i'.shelf) := by
    rw [ofMap, ← own, OnShelf.run_bind run₁, run]
  cases dedot with
  | true =>
    have shows : ∀ entry ∈ entries,
        (lentNode loans entry).Shows i₁.shelf (heldValue held entry) ∧
          (lentNode loans entry).Among i₁.ledger (·.lender = lender) := by
      intro entry mem
      have ready := ready entry mem
      refine ⟨?_, among_lentNode lent entry⟩
      rw [ready.node]
      exact (seated_ofSlot ready.holds ready.fits).shows
    obtain ⟨d, run, shown, among⟩ := shows_flat shows (show ShowsFields i₁.shelf [] [] from rfl) trivial
    exact ⟨d, i₁, whole run, touches₁, shown, among, lent.congr noted⟩
  | false =>
    have start : Made i₁ lender loans [] [] [] :=
      ⟨⟨rfl, by simp [Table.Distinct, Table.keys], trivial⟩, by simp⟩
    have ascending : Ascending ([] ++ entries) := own ▸ Json.pairwise_sortFields source
    obtain ⟨d, i₂, run₂, changes₂, lent₂, made⟩ := made_ofEntries start ready ascending
    refine ⟨d, i₂, whole run₂, touches₁.trans ⟨changes₂, fun _ _ => by rw [lent₂]⟩,
      made.seated.shows, ?_, ?_⟩
    · refine amongFields_mono ?_ d (amongFields_of_placed d made.seated.placed.2)
      rintro p ⟨path, rfl⟩
      rfl
    · have lent' := lends_of_made (fun key m found => ?_) all made
      · refine lent'.congr fun key => ?_
        rw [lent₂, noted]
      · obtain ⟨place, owed, fields, -, holds⟩ := lent.lent key m found
        exact ⟨(changes₂.ledger m holds.1).trans place, owed⟩

end Draft

end ClusterMetadata
