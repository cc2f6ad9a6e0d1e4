import ClusterMetadata.Proofs.Sections

/-!
# Sections made turn after turn

What a section shows depends only on how often the sections of its lender were made before it.

* `Terms`: which entries go into the sections of lenders, and in which form;
* `Terms.first`, `Terms.next`: the section that is made first, and the one after another;
* `Inventory.Gives`, `ofMap_gives`: making the section that is due makes the next one due;
* `Moves`: an inventory goes on where only sections of certain lenders are made;
* `Alike`: two inventories in which the sections of certain resources are equally due;
* `Alike.still`, `Apace.alike_others`: they stay so when one goes on alone, or both side by side.
-/
namespace ClusterMetadata

open Json (Value Fields)

/-- Which entries go into the sections of lenders, in their order, and whether the sections are
flat. -/
structure Terms where
  entries : Lender → Fields
  dedot : Lender → Bool

namespace Terms

/-- The section of a lender while its maps are as the manifest has them. -/
def first (terms : Terms) (lender : Lender) : Document :=
  Draft.sectionWith (terms.dedot lender) (terms.entries lender)
    (Draft.lentMap? (terms.entries lender))

/-- The section of a lender after one that shows a document. -/
def next (terms : Terms) (lender : Lender) (shown : Document) : Document :=
  if terms.dedot lender then shown
  else Draft.sectionWith false (terms.entries lender) (Draft.heldIn (terms.entries lender) shown)

/-- The sections of a resource that are made again show the same. -/
def Lasting (terms : Terms) (r : Resource) : Prop :=
  ∀ map, terms.next ⟨map, r⟩ (terms.first ⟨map, r⟩) = terms.first ⟨map, r⟩

/-- Nothing changes where keys are not read as paths, or where no value is a map. -/
theorem lasting_of_plain {terms : Terms} {r : Resource}
    (plain : ∀ map, terms.dedot ⟨map, r⟩ = true ∨
      ∀ entry ∈ terms.entries ⟨map, r⟩, entry.2.isObject = false) : terms.Lasting r := by
  intro map
  rw [next]
  split
  · rfl
  · next nested =>
    have leaves := (plain map).resolve_left nested
    have nothing : Draft.lentMap? (terms.entries ⟨map, r⟩) = fun _ => none :=
      funext (Draft.lentMap?_of_leaves leaves)
    have held (shown : Document) : Draft.heldIn (terms.entries ⟨map, r⟩) shown = fun _ => none := by
      funext key
      rw [Draft.heldIn, nothing]
      rfl
    rw [Bool.not_eq_true] at nested
    rw [held, first, nested, nothing]

end Terms

/-- What the maps of a lender hold is told by the maps. -/
theorem Draft.Lent.unique {i : Inventory} {lender : Lender} {entries : Fields}
    {held held' : Text → Option Fields} {loans : Loans} (h : Lent i lender entries held loans)
    (h' : Lent i lender entries held' loans) : held = held' := by
  funext key
  cases found : loans[key]? with
  | none => rw [h.unlent key found, h'.unlent key found]
  | some m =>
    obtain ⟨-, -, fields, same, holds⟩ := h.lent key m found
    obtain ⟨-, -, fields', same', holds'⟩ := h'.lent key m found
    have shown := (i.shown_of_holds holds).symm.trans (i.shown_of_holds holds')
    cases shown
    rw [same, same']

namespace Inventory

/-- The section of a lender that is due. -/
def Gives (terms : Terms) (i : Inventory) (lender : Lender) (shown : Document) : Prop :=
  ∃ held, i.Lends lender (terms.entries lender) held ∧
    Draft.sectionWith (terms.dedot lender) (terms.entries lender) held = shown

def bare : Inventory where
  shelf := {}
  ledger := fun _ => ⟨⟨.labels, ⟨.pod, 0, .null⟩⟩, []⟩
  tidy := by
    constructor
    · intro m
      have empty : Shelf.fields {} m = [] := by simp [Shelf.fields]
      rw [empty]
      exact fits_nothing _ _ _
    · intro lender key m found
      simp at found

variable {terms : Terms} {i i' : Inventory} {lender : Lender}

theorem gives_bare (terms : Terms) (lender : Lender) :
    bare.Gives terms lender (terms.first lender) := by
  refine ⟨_, ⟨fun key m found => ?_, fun _ _ => rfl⟩, rfl⟩
  simp [bare] at found

/-- One section is due at a time. -/
theorem Gives.unique {shown shown' : Document} (h : i.Gives terms lender shown)
    (h' : i.Gives terms lender shown') : shown = shown' := by
  obtain ⟨held, lends, rfl⟩ := h
  obtain ⟨held', lends', rfl⟩ := h'
  rw [lends.unique lends']

theorem Touches.gives {other : Lender} (h : Touches lender i i') (apart : other ≠ lender)
    {shown : Document} (gives : i.Gives terms other shown) : i'.Gives terms other shown := by
  obtain ⟨held, lends, same⟩ := gives
  exact ⟨held, h.lends apart lends, same⟩

/-- One inventory has become another, where only sections of certain lenders were made: what is due
of the others is still due, as are sections that do not change from turn to turn. -/
structure Moves (terms : Terms) (touched : Lender → Prop) (i i' : Inventory) : Prop where
  changes : Changes (fun p => touched p.lender) i i'
  gives : ∀ lender shown, i.Gives terms lender shown → ∃ shown', i'.Gives terms lender shown' ∧
    (¬ touched lender ∨ terms.next lender shown = shown → shown' = shown)

namespace Moves

variable {touched touched' : Lender → Prop}

theorem refl (terms : Terms) (touched : Lender → Prop) (i : Inventory) :
    Moves terms touched i i :=
  ⟨.refl _ i, fun _ shown gives => ⟨shown, gives, fun _ => rfl⟩⟩

theorem trans {i'' : Inventory} (h : Moves terms touched i i') (h' : Moves terms touched i' i'') :
    Moves terms touched i i'' := by
  refine ⟨h.changes.trans h'.changes, fun lender shown gives => ?_⟩
  obtain ⟨between, gives, same⟩ := h.gives lender shown gives
  obtain ⟨shown', gives, same'⟩ := h'.gives lender between gives
  refine ⟨shown', gives, fun stays => ?_⟩
  cases same stays
  exact same' stays

theorem mono (h : Moves terms touched i i') (more : ∀ lender, touched lender → touched' lender) :
    Moves terms touched' i i' := by
  refine ⟨h.changes.mono fun p => more _, fun lender shown gives => ?_⟩
  obtain ⟨shown', gives, same⟩ := h.gives lender shown gives
  exact ⟨shown', gives, fun stays => same (stays.imp_left fun apart mem => apart (more _ mem))⟩

/-- The first section of a lasting resource stays due. -/
theorem first (h : Moves terms touched i i') (lasting : terms.Lasting lender.owner)
    (first : i.Gives terms lender (terms.first lender)) :
    i'.Gives terms lender (terms.first lender) := by
  obtain ⟨shown, gives, same⟩ := h.gives lender _ first
  rw [same (.inr (lasting lender.map))] at gives
  exact gives

/-- What no section was made of stays due. -/
theorem apart (h : Moves terms touched i i') (apart : ¬ touched lender) {shown : Document}
    (gives : i.Gives terms lender shown) : i'.Gives terms lender shown := by
  obtain ⟨shown', gives', same⟩ := h.gives lender _ gives
  rw [same (.inl apart)] at gives'
  exact gives'

/-- Making a section moves its lender only. -/
theorem of_touches (h : Touches lender i i') {shown : Document} (before : i.Gives terms lender shown)
    (after : i'.Gives terms lender (terms.next lender shown)) :
    Moves terms (· = lender) i i' := by
  refine ⟨h.changes, fun other shown' gives => ?_⟩
  by_cases own : other = lender
  · subst own
    cases before.unique gives
    refine ⟨_, after, fun stays => ?_⟩
    rcases stays with apart | same
    · exact absurd rfl apart
    · exact same
  · exact ⟨shown', h.gives own gives, fun _ => rfl⟩

end Moves

/-- Two inventories in which some section of every lender is due, and the same one of those of
certain resources. -/
structure Alike (terms : Terms) (needed : Resource → Prop) (i i' : Inventory) : Prop where
  due : ∀ lender, ∃ shown, i.Gives terms lender shown
  due' : ∀ lender, ∃ shown, i'.Gives terms lender shown
  same : ∀ lender, needed lender.owner → ∃ shown, i.Gives terms lender shown ∧
    i'.Gives terms lender shown

namespace Alike

variable {needed needed' : Resource → Prop}

/-- An inventory in which some section of every lender is due is like itself. -/
theorem refl (due : ∀ lender, ∃ shown, i.Gives terms lender shown) : Alike terms needed i i :=
  ⟨due, due, fun lender _ => (due lender).imp fun _ gives => ⟨gives, gives⟩⟩

theorem mono (h : Alike terms needed i i') (fewer : ∀ r, needed' r → needed r) :
    Alike terms needed' i i' :=
  ⟨h.due, h.due', fun lender need => h.same lender (fewer _ need)⟩

/-- An inventory that goes on alone stays like the other when the sections that are made are
lasting. -/
theorem still {touched : Lender → Prop} {left : Inventory} (h : Alike terms needed i i')
    (moves : Moves terms touched i left)
    (lasting : ∀ lender, needed lender.owner → touched lender →
      terms.Lasting lender.owner ∧ i.Gives terms lender (terms.first lender)) :
    Alike terms needed left i' := by
  refine ⟨fun lender => ?_, h.due', fun lender need => ?_⟩
  · obtain ⟨shown, gives⟩ := h.due lender
    obtain ⟨shown', gives', -⟩ := moves.gives lender shown gives
    exact ⟨shown', gives'⟩
  · obtain ⟨shown, gives, gives'⟩ := h.same lender need
    by_cases used : touched lender
    · obtain ⟨lasts, first⟩ := lasting lender need used
      cases gives.unique first
      exact ⟨_, moves.first lasts first, gives'⟩
    · exact ⟨shown, moves.apart used gives, gives'⟩

end Alike

/-- Two inventories have become two others, which are alike. -/
structure Apace (terms : Terms) (touched : Lender → Prop) (needed : Resource → Prop)
    (i i' left left' : Inventory) : Prop where
  moves : Moves terms touched i left
  moves' : Moves terms touched i' left'
  alike : Alike terms needed left left'

namespace Apace

variable {touched touched' : Lender → Prop} {needed needed' : Resource → Prop}
  {left left' next next' : Inventory}

theorem refl (alike : Alike terms needed i i') : Apace terms touched needed i i' i i' :=
  ⟨.refl .., .refl .., alike⟩

theorem trans (h : Apace terms touched needed i i' left left')
    (h' : Apace terms touched needed left left' next next') :
    Apace terms touched needed i i' next next' :=
  ⟨h.moves.trans h'.moves, h.moves'.trans h'.moves', h'.alike⟩

theorem mono (h : Apace terms touched needed i i' left left')
    (more : ∀ lender, touched lender → touched' lender) : Apace terms touched' needed i i' left left' :=
  ⟨h.moves.mono more, h.moves'.mono more, h.alike⟩

/-- Two inventories that go on side by side stay alike in what neither made a section of. -/
theorem alike_others (h : Apace terms touched needed i i' left left')
    (alike : Alike terms needed' i i')
    (own : ∀ lender, needed' lender.owner → touched lender → needed lender.owner) :
    Alike terms needed' left left' := by
  refine ⟨h.alike.due, h.alike.due', fun lender need => ?_⟩
  by_cases used : touched lender
  · exact h.alike.same lender (own lender need used)
  · obtain ⟨shown, gives, gives'⟩ := alike.same lender need
    exact ⟨shown, h.moves.apart used gives, h.moves'.apart used gives'⟩

end Apace

end Inventory

namespace Draft

open Inventory (Touches Moves Alike Apace)

variable {terms : Terms} {i i' : Inventory} {lender : Lender} {source : Fields}

/-- Making the section of a lender that is due makes the next one due. -/
theorem ofMap_gives (own : terms.entries lender = Json.sortFields source)
    (proper : ∀ entry ∈ terms.entries lender, entry.2.Proper) {shown : Document}
    (gives : i.Gives terms lender shown) :
    ∃ d i', (ofMap lender (terms.dedot lender) source).run i.shelf = (d, i'.shelf) ∧
      Touches lender i i' ∧ Presents i' (·.lender = lender) shown d ∧
      i'.Gives terms lender (terms.next lender shown) := by
  obtain ⟨held, lends, rfl⟩ := gives
  obtain ⟨d, i', run, touches, shows, among, after⟩ := ofMap_run own proper lends (terms.dedot lender)
  refine ⟨d, i', run, touches, ⟨shows, among⟩, _, after, ?_⟩
  rw [heldAfter, Terms.next]
  cases terms.dedot lender <;> rfl

/-- Making a section in two inventories that are alike. -/
theorem ofMap_apace {needed : Resource → Prop}
    (own : terms.entries lender = Json.sortFields source)
    (proper : ∀ entry ∈ terms.entries lender, entry.2.Proper) (alike : Alike terms needed i i') :
    ∃ d left d' left' shown shown',
      (ofMap lender (terms.dedot lender) source).run i.shelf = (d, left.shelf) ∧
      (ofMap lender (terms.dedot lender) source).run i'.shelf = (d', left'.shelf) ∧
      Touches lender i left ∧ Touches lender i' left' ∧
      Apace terms (· = lender) needed i i' left left' ∧
      Presents left (·.lender = lender) shown d ∧ Presents left' (·.lender = lender) shown' d' ∧
      (needed lender.owner → shown = shown') := by
  obtain ⟨shown, gives⟩ := alike.due lender
  obtain ⟨shown', gives'⟩ := alike.due' lender
  obtain ⟨d, left, run, touches, shows, after⟩ := ofMap_gives own proper gives
  obtain ⟨d', left', run', touches', shows', after'⟩ := ofMap_gives own proper gives'
  have same : needed lender.owner → shown = shown' := fun need => by
    obtain ⟨both, here, there⟩ := alike.same lender need
    rw [gives.unique here, gives'.unique there]
  have due {i left : Inventory} {shown : Document} (touches : Touches lender i left)
      (before : ∀ lender, ∃ shown, i.Gives terms lender shown)
      (after : left.Gives terms lender shown) (other : Lender) :
      ∃ shown, left.Gives terms other shown := by
    by_cases here : other = lender
    · exact ⟨shown, here ▸ after⟩
    · obtain ⟨shown, gives⟩ := before other
      exact ⟨shown, touches.gives here gives⟩
  refine ⟨d, left, d', left', shown, shown', run, run', touches, touches',
    ⟨.of_touches touches gives after, .of_touches touches' gives' after',
      ⟨due touches alike.due after, due touches' alike.due' after', fun other need => ?_⟩⟩,
    shows, shows', same⟩
  by_cases here : other = lender
  · subst here
    exact ⟨_, after, by rw [same need]; exact after'⟩
  · obtain ⟨both, here', there'⟩ := alike.same other need
    exact ⟨both, touches.gives here here', touches'.gives here there'⟩

end Draft

end ClusterMetadata
