import ClusterMetadata.Proofs.Turns
import ClusterMetadata.Proofs.UnseenSources

/-!
# Shelves on which pods have had their way

Options may write anything into the maps that a pod lends. An inventory of such a shelf is kept
without these maps: they hold only each other, so what is made of other resources is made as if they
were not there.

* `Terms.Turn`: the sections of a lender, each after the one before;
* `Standing`: a shelf beside an inventory of all that is not lent by pods;
* `standing_of_others`, `Standing.of_pods`: after work for other resources, and for pods;
* `Standing.shows`: what the inventory shows, the shelf shows;
* `Stays`: how a computation ends on such a shelf.
-/
namespace ClusterMetadata

open Json (Value Fields)
open Inventory (Changes Touches)
open Drafting (Ends)

/-- The sections that a lender shows one after the other. -/
inductive Terms.Turn (terms : Terms) (lender : Lender) : Document → Prop
  | first : Turn terms lender (terms.first lender)
  | next {shown : Document} : Turn terms lender shown → Turn terms lender (terms.next lender shown)

def Lender.OfPod (lender : Lender) : Prop := lender.owner.kind = .pod

namespace Inventory

/-- A map on the shelf that a pod lends, or that stands below one. -/
def PodMap (i : Inventory) (m : SharedMap) : Prop := i.shelf.Has m ∧ (i.ledger m).lender.OfPod

/-- A map on the shelf that is lent by another resource. -/
def OtherMap (i : Inventory) (m : SharedMap) : Prop := i.shelf.Has m ∧ ¬ (i.ledger m).lender.OfPod

def podsVeiled (i : Inventory) : Veil := ⟨i.PodMap, Lender.OfPod⟩

def othersVeiled (i : Inventory) : Veil := ⟨i.OtherMap, (¬ Lender.OfPod ·)⟩

end Inventory

/-- A shelf looks like an inventory but for what pods lend. Their maps hold only each other. -/
structure Standing (terms : Terms) (shelf : Shelf) (i : Inventory) : Prop where
  twins : i.podsVeiled.Twins shelf i.shelf
  pods : i.othersVeiled.Clear shelf
  due : ∀ lender : Lender, ¬ lender.OfPod → ∃ shown, terms.Turn lender shown ∧
    i.Gives terms lender shown

theorem Shelf.fields_of_not_has {shelf : Shelf} {m : SharedMap} (h : ¬ shelf.Has m) :
    shelf.fields m = [] := by
  have out : shelf.maps.size ≤ m.number := Nat.le_of_not_lt h
  simp [Shelf.fields, Array.getD_eq_getD_getElem?, out]

/-- Where nothing was lent. -/
theorem standing_bare (terms : Terms) : Standing terms {} .bare := by
  have none (m : SharedMap) : ¬ Inventory.bare.shelf.Has m := Nat.not_lt_zero _
  have clear (veil : Veil) (nothing : ∀ m, ¬ veil.maps m) : veil.Clear {} := by
    refine ⟨fun m out => absurd out (nothing m), fun m _ => ?_, fun lender _ key m found => ?_⟩
    · rw [show ({} : Shelf).fields m = [] from Shelf.fields_of_not_has (none m)]
      exact fun field mem => absurd mem List.not_mem_nil
    · simp at found
  have pods : Inventory.bare.podsVeiled.Clear {} := clear _ fun m pod => none m pod.1
  exact ⟨pods.twins, clear _ fun m other => none m other.1,
    fun lender _ => ⟨_, .first, Inventory.gives_bare terms lender⟩⟩

namespace Standing

variable {terms : Terms} {shelf : Shelf} {i : Inventory} (standing : Standing terms shelf i)
include standing

theorem has_iff (m : SharedMap) : shelf.Has m ↔ i.shelf.Has m := by
  rw [Shelf.Has, Shelf.Has, standing.twins.size]

theorem fields {m : SharedMap} (other : ¬ i.PodMap m) : i.shelf.fields m = shelf.fields m :=
  standing.twins.fields m other

/-- What pods lend is told from the rest. -/
theorem sees_others {m : SharedMap} : i.othersVeiled.Sees shelf m ↔ i.PodMap m := by
  constructor
  · intro sees
    have has := (standing.has_iff m).mp sees.1
    exact ⟨has, Classical.byContradiction fun other => sees.2 ⟨has, other⟩⟩
  · exact fun pod => ⟨(standing.has_iff m).mpr pod.1, fun other => other.2 pod.2⟩

theorem sees_pods {m : SharedMap} : i.podsVeiled.Sees shelf m ↔ i.OtherMap m := by
  constructor
  · intro sees
    have has := (standing.has_iff m).mp sees.1
    exact ⟨has, fun pod => sees.2 ⟨has, pod⟩⟩
  · exact fun other => ⟨(standing.has_iff m).mpr other.1, fun pod => other.2 pod.2⟩

/-- The maps of other resources hold no map of a pod. -/
theorem closed : i.othersVeiled.Closed shelf := by
  intro m other name inner mem
  have seen : ¬ i.PodMap m := fun pod => other.2 pod.2
  exact standing.sees_pods.mp (standing.twins.clear.inner m seen _ mem)

end Standing

namespace Inventory

variable {i i' : Inventory} {terms : Terms}

/-- The maps in a map are lent by the one that lends it. -/
theorem lender_inner (i : Inventory) {m inner : SharedMap} {name : Text}
    (mem : (name, Slot.map inner) ∈ i.shelf.fields m) :
    i.shelf.Has m ∧ i.shelf.Has inner ∧ (i.ledger inner).lender = (i.ledger m).lender := by
  obtain ⟨has, place⟩ := i.fits_inner mem
  refine ⟨Classical.byContradiction fun out => ?_, has, by rw [place]; rfl⟩
  rw [Shelf.fields_of_not_has out] at mem
  cases mem

theorem PodMap.of_changes {places : Place → Prop} (changes : Changes places i i') {m : SharedMap}
    (h : i.PodMap m) : i'.PodMap m :=
  ⟨changes.has h.1, by rw [changes.ledger m h.1]; exact h.2⟩

theorem OtherMap.of_changes {places : Place → Prop} (changes : Changes places i i') {m : SharedMap}
    (h : i.OtherMap m) : i'.OtherMap m :=
  ⟨changes.has h.1, by rw [changes.ledger m h.1]; exact h.2⟩

end Inventory

open Inventory (PodMap OtherMap)

/-- After work for resources that are not pods. -/
theorem standing_of_others {terms : Terms} {shelf after : Shelf} {i i' : Inventory}
    (standing : Standing terms shelf i) {places : Place → Prop} (changes : Changes places i i')
    (twins : i.podsVeiled.Twins after i'.shelf) (keeps : i.podsVeiled.Keeps shelf after)
    (due : ∀ lender : Lender, ¬ lender.OfPod → ∃ shown, terms.Turn lender shown ∧
      i'.Gives terms lender shown) : Standing terms after i' := by
  have has (m : SharedMap) : after.Has m ↔ i'.shelf.Has m := by
    rw [Shelf.Has, Shelf.Has, twins.size]
  have fields {m : SharedMap} (other : ¬ i'.PodMap m) : i'.shelf.fields m = after.fields m :=
    twins.fields m fun pod => other (pod.of_changes changes)
  have seen {m : SharedMap} (own : i.PodMap m) : i'.othersVeiled.Sees after m :=
    ⟨(has m).mpr (changes.has own.1), fun other => other.2 (own.of_changes changes).2⟩
  refine ⟨⟨⟨fun m pod => (has m).mpr pod.1, fun m apart => ?_, fun lender apart key m found => ?_⟩,
    twins.size, fun m => fields, twins.lent⟩,
    ⟨fun m other => (has m).mpr other.1, fun m apart => ?_, fun lender pods => ?_⟩, due⟩
  · rw [← fields apart]
    refine Veil.seesSlots_of_inner fun name inner mem => ?_
    obtain ⟨here, inside, same⟩ := i'.lender_inner mem
    exact ⟨(has inner).mpr inside, fun pod => apart ⟨here, same ▸ pod.2⟩⟩
  · rw [← twins.lent lender apart] at found
    obtain ⟨inside, place⟩ := i'.tidy.lent lender key m found
    refine ⟨(has m).mpr inside, fun pod => apart ?_⟩
    have own := pod.2
    rw [place] at own
    exact own
  · by_cases old : i.PodMap m
    · -- Maps that pods had before are as they were.
      rw [keeps.fields m old]
      exact (standing.pods.inner m fun other => other.2 old.2).mono fun inner sees =>
        seen (standing.sees_others.mp sees)
    · rw [← twins.fields m old]
      refine Veil.seesSlots_of_inner fun name inner mem => ?_
      obtain ⟨here, inside, same⟩ := i'.lender_inner mem
      exact ⟨(has inner).mpr inside, fun other => apart ⟨here, same ▸ other.2⟩⟩
  · rw [keeps.lent lender (Classical.not_not.mp pods)]
    exact (standing.pods.lent lender pods).mono fun m sees => seen (standing.sees_others.mp sees)

namespace Inventory

/-- An inventory with room for more maps of pods, which hold nothing in it. -/
theorem exists_grown (terms : Terms) (i : Inventory) (more : Nat) : ∃ i' : Inventory,
    i'.shelf.maps.size = i.shelf.maps.size + more ∧
    Changes (fun _ => False) i i' ∧ (∀ m, i'.shelf.fields m = i.shelf.fields m) ∧
    i'.shelf.lent = i.shelf.lent ∧ (∀ m, i'.OtherMap m → i.OtherMap m) ∧
    ∀ lender shown, i.Gives terms lender shown → i'.Gives terms lender shown := by
  induction more with
  | zero => exact ⟨i, rfl, .refl _ i, fun _ => rfl, rfl, fun _ => id, fun _ _ => id⟩
  | succ more ih =>
    obtain ⟨i₁, size, changes, fields, lent, others, gives⟩ := ih
    let place : Place := ⟨⟨.labels, ⟨.pod, 0, .null⟩⟩, []⟩
    have fits := fits_nothing i₁.shelf i₁.ledger place
    have pushed : Changes (fun _ => False) i₁ (i₁.push place [] fits) := changes_push
    refine ⟨i₁.push place [] fits, ?_, changes.trans pushed, fun m => ?_, lent, fun m other => ?_,
      fun lender shown given => ?_⟩
    · simp [push, Shelf.pushed, size, Nat.add_assoc]
    · rw [← fields]
      refine (Shelf.fields_pushed _ _ _).trans ?_
      split
      · next last =>
        exact (Shelf.fields_of_not_has (last ▸ Nat.lt_irrefl _)).symm
      · rfl
    · by_cases last : m = ⟨i₁.shelf.maps.size⟩
      · refine absurd ?_ other.2
        have here : (i₁.push place [] fits).ledger m = place := if_pos last
        rw [here]
        rfl
      · have inside : i₁.shelf.Has m := by
          have here := other.1
          have number : m.number ≠ i₁.shelf.maps.size := fun same =>
          last (congrArg SharedMap.mk same)
          simp only [Shelf.Has, push, Shelf.pushed, Array.size_push] at here ⊢
          omega
        exact others m ⟨inside, by rw [← pushed.ledger m inside]; exact other.2⟩
    · obtain ⟨held, lends, same⟩ := gives lender shown given
      exact ⟨held, Draft.Lent.of_changes pushed (fun _ _ => id) (fun _ => id) lends, same⟩

end Inventory

namespace Standing

variable {terms : Terms} {shelf after : Shelf} {i : Inventory} (standing : Standing terms shelf i)
include standing

/-- After work for pods. -/
theorem of_pods (since : i.othersVeiled.Since shelf after) : ∃ i', Standing terms after i' ∧
    Changes (fun _ => False) i i' ∧ ∀ m, i.othersVeiled.Sees after m → i'.PodMap m := by
  obtain ⟨i', size, changes, fields, lent, others, gives⟩ :=
    i.exists_grown terms (after.maps.size - shelf.maps.size)
  have grown := since.keeps.size
  have same : i'.shelf.maps.size = after.maps.size := by
    rw [size, standing.twins.size]
    omega
  have has (m : SharedMap) : after.Has m ↔ i'.shelf.Has m := by rw [Shelf.Has, Shelf.Has, same]
  have pod {m : SharedMap} (sees : i.othersVeiled.Sees after m) : i'.PodMap m := by
    refine ⟨(has m).mp sees.1, Classical.byContradiction fun other => ?_⟩
    exact sees.2 (others m ⟨(has m).mp sees.1, other⟩)
  -- What is not a pod's now was there before, and is as it was.
  have kept {m : SharedMap} (seen : ¬ i'.PodMap m) :
      after.fields m = shelf.fields m ∧ ¬ i.PodMap m := by
    refine ⟨?_, fun own => seen (own.of_changes changes)⟩
    by_cases inside : after.Has m
    · have here := (has m).mp inside
      exact since.keeps.fields m (others m ⟨here, fun own => seen ⟨here, own⟩⟩)
    · have before : ¬ shelf.Has m := fun here => inside (Nat.lt_of_lt_of_le here grown)
      rw [Shelf.fields_of_not_has inside, Shelf.fields_of_not_has before]
  have out {m : SharedMap} (other : i.podsVeiled.Sees shelf m) : i'.podsVeiled.Sees after m := by
    have own := (standing.sees_pods.mp other).of_changes changes
    exact ⟨(has m).mpr own.1, fun pod => own.2 pod.2⟩
  have still {m : SharedMap} (sees : i.othersVeiled.Sees after m) : i'.othersVeiled.Sees after m :=
    ⟨sees.1, fun other => other.2 (pod sees).2⟩
  refine ⟨i', ⟨⟨⟨fun m own => (has m).mpr own.1, fun m seen => ?_, fun lender seen => ?_⟩, same,
    fun m seen => ?_, fun lender seen => ?_⟩,
    ⟨fun m other => (has m).mpr other.1, fun m seen => ?_, fun lender seen => ?_⟩,
    fun lender other => ?_⟩, changes, fun m => pod⟩
  · rw [(kept seen).1]
    exact (standing.twins.clear.inner m (kept seen).2).mono fun _ => out
  · rw [since.keeps.lent lender seen]
    exact (standing.twins.clear.lent lender seen).mono fun _ => out
  · rw [fields, (kept seen).1]
    exact standing.fields (kept seen).2
  · rw [lent, since.keeps.lent lender seen]
    exact standing.twins.lent lender seen
  · exact (since.clear.inner m fun other => seen (other.of_changes changes)).mono fun _ => still
  · exact (since.clear.lent lender seen).mono fun _ => still
  · obtain ⟨shown, turn, given⟩ := standing.due lender other
    exact ⟨shown, turn, gives lender shown given⟩

end Standing

/-! ## What is shown -/

namespace Standing

open Draft (Node ShowsFields Only)

variable {terms : Terms} {shelf : Shelf} {i : Inventory}

mutual
/-- What a slot of another resource holds in the inventory, it holds on the shelf. -/
theorem holds (standing : Standing terms shelf i) (v : Value) {slot : Slot}
    (other : ∀ m, slot = .map m → ¬ (i.ledger m).lender.OfPod) (h : i.shelf.Holds v slot) :
    shelf.Holds v slot := by
  cases v with
  | object fields =>
    cases slot with
    | leaf w => exact h.elim
    | map m =>
      have apart : ¬ i.PodMap m := fun pod => other m rfl pod.2
      refine ⟨(standing.has_iff m).mpr h.1, ?_⟩
      rw [← standing.fields apart]
      refine holdsFields standing fields (fun field mem inner same => ?_) h.2
      obtain ⟨name, slot⟩ := field
      cases same
      rw [(i.lender_inner mem).2.2]
      exact other m rfl
  | _ => exact h

theorem holdsFields (standing : Standing terms shelf i) (fields : List (Text × Value))
    {slots : List (Text × Slot)}
    (other : ∀ field ∈ slots, ∀ m, field.2 = .map m → ¬ (i.ledger m).lender.OfPod)
    (h : i.shelf.HoldsFields fields slots) : shelf.HoldsFields fields slots := by
  match fields, slots, h with
  | [], _, h => exact h
  | (name, v) :: rest, (name', slot) :: slots, h =>
    exact ⟨h.1, holds standing v (other _ List.mem_cons_self) h.2.1,
      holdsFields standing rest (fun field mem => other field (List.mem_cons_of_mem _ mem)) h.2.2⟩
end

mutual
/-- What a node shows in the inventory without maps of pods, it shows on the shelf. -/
theorem shows (standing : Standing terms shelf i) (v : Value) {node : Node}
    (among : node.Among i.ledger (¬ ·.lender.OfPod)) (h : Node.Shows i.shelf v node) :
    Node.Shows shelf v node ∧ node.Only i.OtherMap := by
  cases v with
  | object fields =>
    cases node with
    | leaf w => exact h.elim
    | map own => exact showsFields standing fields among h
    | shared m =>
      have own : i.OtherMap m := ⟨h.1, among⟩
      have held : i.shelf.Holds (.object fields) (.map m) := h
      refine ⟨standing.holds _ (fun inner same => ?_) held, own⟩
      cases same
      exact among
  | _ =>
    cases node with
    | leaf w => exact ⟨h, trivial⟩
    | _ => exact h.elim

theorem showsFields (standing : Standing terms shelf i) (fields : List (Text × Value))
    {nodes : List (Text × Node)} (among : Draft.AmongFields i.ledger (¬ ·.lender.OfPod) nodes)
    (h : ShowsFields i.shelf fields nodes) :
    ShowsFields shelf fields nodes ∧ Only i.OtherMap nodes := by
  match fields, nodes, h with
  | [], _, h =>
    cases h
    exact ⟨rfl, trivial⟩
  | (name, v) :: rest, (name', node) :: nodes, h =>
    obtain ⟨here, onlyHere⟩ := shows standing v among.1 h.2.1
    obtain ⟨there, onlyThere⟩ := showsFields standing rest among.2 h.2.2
    exact ⟨⟨h.1, here, there⟩, onlyHere, onlyThere⟩
end

/-- What a draft of another resource shows in the inventory, it shows on the shelf. -/
theorem presents (standing : Standing terms shelf i) {kept : Place → Prop} {doc : Document}
    {d : Draft} (h : Draft.Presents i kept doc d) (other : ∀ p, kept p → ¬ p.lender.OfPod) :
    ShowsFields shelf doc d ∧ Only i.OtherMap d :=
  standing.showsFields doc (Draft.amongFields_mono other d h.among) h.shows

end Standing

/-! ## How computations end -/

namespace Drafting

variable {α β : Type}

/-- From a standing shelf a computation leaves a standing one, whether it has a result or not; a
result has a property there, and a fault is one that it may have. -/
def Stays (terms : Terms) (may : Fault → Prop) (shelf : Shelf) (i : Inventory) (x : Drafting α)
    (post : Shelf → Inventory → α → Prop) : Prop :=
  Ends (fun left => ∃ i', Standing terms left i') may shelf x fun left a =>
    ∃ i', Standing terms left i' ∧ Changes (fun _ => True) i i' ∧ post left i' a

variable {terms : Terms} {may may' : Fault → Prop} {shelf : Shelf} {i : Inventory}

theorem Stays.mono {x : Drafting α} {post post' : Shelf → Inventory → α → Prop}
    (h : Stays terms may shelf i x post) (more : ∀ fault, may fault → may' fault)
    (weaker : ∀ left i' a, Standing terms left i' → Changes (fun _ => True) i i' →
      post left i' a → post' left i' a) : Stays terms may' shelf i x post' :=
  Ends.mono h more fun left a _ made => by
    obtain ⟨i', standing, changes, made⟩ := made
    exact ⟨i', standing, changes, weaker left i' a standing changes made⟩

theorem Stays.bind {x : Drafting α} {f : α → Drafting β} {post : Shelf → Inventory → α → Prop}
    {post' : Shelf → Inventory → β → Prop} (hx : Stays terms may shelf i x post)
    (hf : ∀ left i' a, Standing terms left i' → Changes (fun _ => True) i i' → post left i' a →
      Stays terms may left i' (f a) post') : Stays terms may shelf i (x >>= f) post' := by
  refine Ends.bind hx ?_
  rintro left a - ⟨i', standing, changes, made⟩
  refine Ends.mono (hf left i' a standing changes made) (fun _ => id) ?_
  rintro last b - ⟨i'', standing, further, made⟩
  exact ⟨i'', standing, changes.trans further, made⟩

theorem Stays.and {x : Drafting α} {post : Shelf → Inventory → α → Prop}
    (h : Stays terms may shelf i x post) {post' : α → Prop} (every : x.Ensures post') :
    Stays terms may shelf i x fun left i' a => post left i' a ∧ post' a :=
  ⟨h.leaves, fun a made => by
    obtain ⟨i', standing, changes, has⟩ := h.result a made
    exact ⟨i', standing, changes, has, every shelf a made⟩, h.fault⟩

/-- The result is the one that the computation has. -/
theorem Stays.known {x : Drafting α} {post : Shelf → Inventory → α → Prop}
    (h : Stays terms may shelf i x post) : Stays terms may shelf i x fun left i' a =>
      post left i' a ∧ (x shelf).1.result = .ok a ∧ (x shelf).2 = left :=
  ⟨h.leaves, fun a made => by
    obtain ⟨i', standing, changes, has⟩ := h.result a made
    exact ⟨i', standing, changes, has, made, rfl⟩, h.fault⟩

theorem stays_shelf {f : Shelf → Drafting β} {post : Shelf → Inventory → β → Prop}
    (h : Stays terms may shelf i (f shelf) post) :
    Stays terms may shelf i (Drafting.shelf >>= f) post := ends_shelf h

theorem stays_report (o : Occurrence) {x : Drafting β} {post : Shelf → Inventory → β → Prop}
    (h : Stays terms may shelf i x post) :
    Stays terms may shelf i ((liftM (Traced.report o) : Drafting Unit) >>= fun _ => x) post :=
  ends_report o h

variable (standing : Standing terms shelf i)
include standing

theorem stays_pure {a : α} {post : Shelf → Inventory → α → Prop} (h : post shelf i a) :
    Stays terms may shelf i (Pure.pure a) post :=
  ends_pure ⟨i, standing⟩ ⟨i, standing, .refl _ i, h⟩

theorem stays_read {x : Except Fault α} {f : α → Drafting β}
    {post : Shelf → Inventory → β → Prop} (known : ∀ fault, x = .error fault → may fault)
    (hf : ∀ a, x = .ok a → Stays terms may shelf i (f a) post) :
    Stays terms may shelf i (liftM x >>= f) post := ends_read ⟨i, standing⟩ known hf

theorem stays_quiet {x : Drafting α} {outcome : Except Fault α} (quiet : Quiet shelf x outcome)
    (known : ∀ fault, outcome = .error fault → may fault)
    {post : Shelf → Inventory → α → Prop} (h : ∀ a, outcome = .ok a → post shelf i a) :
    Stays terms may shelf i x post := by
  rw [Quiet] at quiet
  refine ⟨by rw [quiet]; exact ⟨i, standing⟩, fun a made => ?_, fun fault raised => ?_⟩
  · rw [quiet] at made ⊢
    exact ⟨i, standing, .refl _ i, h a made⟩
  · rw [quiet] at raised
    exact known fault raised

/-- Work for resources that are not pods goes as in the inventory. -/
theorem stays_others {x : OnShelf α} {sees : Shelf → α → Prop}
    (works : i.podsVeiled.Works shelf i.shelf x sees) {a : α} {i' : Inventory}
    (run : x.run i.shelf = (a, i'.shelf)) {places : Place → Prop} (changes : Changes places i i')
    (due : ∀ lender : Lender, ¬ lender.OfPod → ∃ shown, terms.Turn lender shown ∧
      i'.Gives terms lender shown) {post : Shelf → Inventory → α → Prop}
    (h : ∀ left, Standing terms left i' → post left i' a) :
    Stays terms may shelf i (liftM x : Drafting α) post := by
  obtain ⟨b, after, after', here, there, twins, keeps, -, -⟩ := works
  rw [run] at there
  cases there
  have stands := standing_of_others standing changes twins keeps due
  exact ends_lift here ⟨i', stands⟩ ⟨i', stands, changes.mono fun _ _ => trivial, h after stands⟩

/-- What is done in sight of pods only. -/
theorem stays_since {x : Drafting α} {made : Shelf → α → Prop}
    (ends : Ends (i.othersVeiled.Since shelf) may shelf x made)
    {post : Shelf → Inventory → α → Prop}
    (h : ∀ left i' a, Standing terms left i' → Changes (fun _ => True) i i' →
      (∀ m, i.othersVeiled.Sees left m → i'.PodMap m) → made left a → post left i' a) :
    Stays terms may shelf i x post := by
  obtain ⟨i', stands, changes, pods⟩ := standing.of_pods ends.leaves
  have changes := changes.mono fun _ _ => trivial
  exact ⟨⟨i', stands⟩,
    fun a result => ⟨i', stands, changes, h _ i' a stands changes pods (ends.result a result)⟩,
    ends.fault⟩

/-- Work for pods. -/
theorem stays_pods {x : OnShelf α} {sees : Shelf → α → Prop}
    (works : i.othersVeiled.Works shelf shelf x sees) {post : Shelf → Inventory → α → Prop}
    (h : ∀ left i' a, Standing terms left i' → Changes (fun _ => True) i i' →
      (∀ m, i.othersVeiled.Sees left m → i'.PodMap m) → sees left a → post left i' a) :
    Stays terms may shelf i (liftM x : Drafting α) post :=
  stays_since standing (works.ends ⟨standing.pods, .refl _ shelf⟩) h

end Drafting

end ClusterMetadata
