import ClusterMetadata.Proofs.MergedDrafts
import ClusterMetadata.Proofs.Outcomes
import ClusterMetadata.Proofs.Veils

/-!
# Merging what is out of sight

A merge copies what it takes over. Where the maps that are read are out of sight, and those that
are written into are in sight, a field is read as it was at the start whatever was written before,
so no map changes its size while it is read.

* `Veil.Since`: what a shelf may become by work in sight;
* `ends_visit`: visiting a map out of sight;
* `ends_merge`: merging a draft whose maps are out of sight fails where the room ends, and nowhere
  else.
-/
namespace ClusterMetadata

open Json (Value Fields)
open Drafting (Ends)

namespace Veil

variable {veil : Veil}

/-- A shelf has become another by work in sight. -/
structure Since (veil : Veil) (start shelf : Shelf) : Prop where
  clear : veil.Clear shelf
  keeps : veil.Keeps start shelf

/-- The maps out of sight hold no maps in sight. -/
def Closed (veil : Veil) (shelf : Shelf) : Prop :=
  ∀ m, veil.maps m → ∀ name inner, (name, Slot.map inner) ∈ shelf.fields m → veil.maps inner

theorem Works.ends {α : Type} {start shelf : Shelf} (since : veil.Since start shelf)
    {x : OnShelf α} {post : Shelf → α → Prop} (works : veil.Works shelf shelf x post)
    {may : Fault → Prop} : Ends (veil.Since start) may shelf (liftM x : Drafting α) post := by
  obtain ⟨a, after, _, run, _, twins, keeps, _, made⟩ := works
  exact Drafting.ends_lift run ⟨twins.clear, since.keeps.trans keeps⟩ made

end Veil

namespace Document

theorem valueRoom_le {fields : Fields} {field : Text × Value} (mem : field ∈ fields) :
    valueRoom field.2 ≤ fieldsRoom fields := by
  induction fields with
  | nil => cases mem
  | cons first rest ih =>
    rw [fieldsRoom]
    rcases List.mem_cons.mp mem with rfl | mem
    · exact Nat.le_max_left _ _
    · exact Nat.le_trans (ih mem) (Nat.le_max_right _ _)

end Document

namespace Draft.Map

variable {veil : Veil} {start : Shelf} {source : Map} {name : Text} {node : Node}

/-- The shared maps in a map have a property. -/
def Only (own : SharedMap → Prop) : Map → Prop
  | .own fields => Draft.Only own fields
  | .shared m => own m

theorem only_node {own : SharedMap → Prop} {map : Map} (h : map.Only own) : map.node.Only own := by
  cases map <;> exact h

theorem only_map {own : SharedMap → Prop} {map : Map} (h : node.Only own)
    (isMap : node.map? = some map) : map.Only own := by
  cases node <;> cases isMap <;> exact h

def HasField (shelf : Shelf) (name : Text) (node : Node) : Map → Prop
  | .own fields => (name, node) ∈ fields
  | .shared m => ∃ slot, (name, slot) ∈ shelf.fields m ∧ node = .ofSlot slot

/-- The fields of a map out of sight are out of sight. -/
theorem only_of_hasField (closed : veil.Closed start) (unseen : source.Only veil.maps)
    (field : source.HasField start name node) : node.Only veil.maps := by
  cases source with
  | own fields =>
    induction fields with
    | nil => cases field
    | cons first rest ih =>
      rcases List.mem_cons.mp field with rfl | mem
      · exact unseen.1
      · exact ih unseen.2 mem
  | shared m =>
    obtain ⟨slot, mem, rfl⟩ := field
    cases slot with
    | leaf v => trivial
    | map inner => exact closed m unseen name inner mem

/-- A field of a map shows a value that takes no more room than the whole. -/
theorem exists_shown {fields : Fields} (shows : source.Shows start fields)
    (field : source.HasField start name node) :
    ∃ v, Document.valueRoom v ≤ Document.fieldsRoom fields ∧ Node.Shows start v node := by
  have among {fields : Fields} {nodes : Draft} (shows : ShowsFields start fields nodes)
      (mem : (name, node) ∈ nodes) : ∃ field ∈ fields, Node.Shows start field.2 node := by
    induction fields generalizing nodes with
    | nil =>
      cases shows
      cases mem
    | cons first rest ih =>
      match nodes, shows with
      | (name', node') :: nodes, shows =>
        rcases List.mem_cons.mp mem with same | mem
        · cases same
          exact ⟨first, List.mem_cons_self, shows.2.1⟩
        · obtain ⟨field, mem, shown⟩ := ih shows.2.2 mem
          exact ⟨field, List.mem_cons_of_mem _ mem, shown⟩
  have shown : ∃ field ∈ fields, Node.Shows start field.2 node := by
    cases source with
    | own nodes => exact among shows field
    | shared m =>
      obtain ⟨slot, mem, rfl⟩ := field
      exact among (showsFields_of_holds shows.2) (List.mem_map_of_mem mem)
  obtain ⟨field, mem, shown⟩ := shown
  exact ⟨field.2, Document.valueRoom_le mem, shown⟩

theorem shows_leaf {v w : Value} (h : Node.Shows start v (.leaf w)) : w = v ∧ w.isObject = false := by
  cases v with
  | object fields => exact h.elim
  | _ =>
    cases h
    exact ⟨rfl, rfl⟩

theorem shows_map {v : Value} {map : Map} (isMap : node.map? = some map)
    (h : Node.Shows start v node) : ∃ fields, v = .object fields ∧ map.Shows start fields := by
  cases v with
  | object fields =>
    refine ⟨fields, rfl, ?_⟩
    cases node <;> cases isMap <;> exact h
  | _ =>
    cases node with
    | leaf w => cases isMap
    | _ => exact h.elim

/-- A map in a map in sight is in sight. -/
theorem only_get? (clear : veil.Clear start) {target : Map} (seen : target.Only (veil.Sees start))
    {map : Map} (there : (target.get? start name).bind Node.map? = some map) :
    map.Only (veil.Sees start) := by
  obtain ⟨node, found, isMap⟩ := Option.bind_eq_some_iff.mp there
  refine only_map ?_ isMap
  cases target with
  | own fields => exact Draft.Only.get? seen found
  | shared m =>
    obtain ⟨slot, there, rfl⟩ := Option.map_eq_some_iff.mp found
    have sees := clear.get? seen there
    cases slot with
    | leaf v => trivial
    | map inner => exact sees

/-- A map out of sight is visited as it was at the start. -/
theorem ends_visit {α : Type} (unseen : source.Only veil.maps) {step : α → Text → Node → Drafting α}
    {may : Fault → Prop} {inv : Shelf → α → Prop}
    (keeps : ∀ left a name node, source.HasField start name node → veil.Since start left →
      inv left a → Ends (veil.Since start) may left (step a name node) inv)
    {shelf : Shelf} (since : veil.Since start shelf) {first : α} (h : inv shelf first) :
    Ends (veil.Since start) may shelf (source.visit step first) inv := by
  cases source with
  | own fields =>
    exact Drafting.ends_foldlM inv (fun left a field mem => keeps left a field.1 field.2 mem) since h
  | shared m =>
    have same {left : Shelf} (since : veil.Since start left) : left.fields m = start.fields m :=
      since.keeps.fields m unseen
    have sized {left : Shelf} (since : veil.Since start left) {a : α} (h : inv left a) :
        Ends (veil.Since start) may left (fieldsOfSize m (start.fields m).length)
          fun left fields => fields = start.fields m ∧ inv left a := by
      refine Drafting.ends_shelf ?_
      rw [same since, if_pos rfl]
      exact Drafting.ends_pure since ⟨rfl, h⟩
    refine Drafting.ends_shelf ?_
    rw [same since]
    refine (Drafting.ends_foldlM inv (fun left a i _ since h => ?_) since h).bind
      fun left last since h => ?_
    · refine (sized since h).bind ?_
      rintro left _ since ⟨rfl, h⟩
      split
      · next name slot there =>
        exact keeps left a name (.ofSlot slot) ⟨slot, List.mem_of_getElem? there, rfl⟩ since h
      · exact Drafting.ends_pure since h
    · exact (sized since h).bind fun left _ since h => Drafting.ends_pure since h.2

theorem Only.grown {shelf left : Shelf} {map : Map} (h : map.Only (veil.Sees shelf))
    (size : shelf.maps.size ≤ left.maps.size) : map.Only (veil.Sees left) := by
  cases map with
  | own fields => exact Veil.only_grown h size
  | shared m => exact Veil.Sees.grown h size

/-- Writing into a map in sight. -/
theorem ends_insert {shelf : Shelf} (since : veil.Since start shelf) {target : Map}
    (seen : target.Only (veil.Sees shelf)) (name : Text) {node : Node}
    (only : node.Only (veil.Sees shelf)) {may : Fault → Prop} :
    Ends (veil.Since start) may shelf (liftM (target.insert name node) : Drafting Map)
      fun left map => shelf.maps.size ≤ left.maps.size ∧ map.Only (veil.Sees left) := by
  refine Veil.Works.ends since ?_
  have twins := since.clear.twins
  cases target with
  | own nodes => exact Veil.works_pure twins ⟨Nat.le_refl _, Draft.Only.insert seen name only⟩
  | shared m =>
    refine (Veil.works_share twins node only).bind fun after after' slot twins size sees => ?_
    refine (Veil.works_insert twins (seen.grown size) name sees).bind ?_
    exact fun last last' _ twins size' _ =>
      Veil.works_pure twins ⟨Nat.le_trans size size', (seen.grown size).grown size'⟩

/-- Merging a map out of sight into one in sight. -/
theorem ends_mergeTo (closed : veil.Closed start) (room : Nat) {shelf : Shelf}
    (since : veil.Since start shelf) {target : Map} (seen : target.Only (veil.Sees shelf))
    (unseen : source.Only veil.maps) {fields : Fields} (shows : source.Shows start fields) :
    Ends (veil.Since start)
      (fun fault => fault = .tooDeep ∧ room < Document.fieldsRoom fields) shelf
      (mergeTo room target source) fun left map =>
        shelf.maps.size ≤ left.maps.size ∧ map.Only (veil.Sees left) := by
  induction room generalizing shelf target source fields with
  | zero => exact Drafting.ends_fail since ⟨rfl, Document.fieldsRoom_pos fields⟩
  | succ room ih =>
    rw [mergeTo_succ]
    refine ends_visit unseen ?_ since ⟨Nat.le_refl _, seen⟩
    rintro left target name node field since ⟨size, seen⟩
    obtain ⟨v, fits, shown⟩ := exists_shown shows field
    have only := only_of_hasField closed unseen field
    -- What is written is a copy, so it is in sight.
    have written {last : Shelf} (since : veil.Since start last)
        (size' : left.maps.size ≤ last.maps.size) {copy : Node}
        (copied : copy.Only (veil.Sees last)) :
        Ends (veil.Since start)
          (fun fault => fault = .tooDeep ∧ room + 1 < Document.fieldsRoom fields) last
          (liftM (target.insert name copy) : Drafting Map) fun last map =>
            shelf.maps.size ≤ last.maps.size ∧ map.Only (veil.Sees last) :=
      (ends_insert since (seen.grown size') name copied).mono (fun _ => id)
        fun after map _ made => ⟨Nat.le_trans size (Nat.le_trans size' made.1), made.2⟩
    cases isMap : node.map? with
    | none =>
      cases node with
      | leaf w =>
        obtain ⟨rfl, leaf⟩ := shows_leaf shown
        rw [Document.valueRoom_leaf leaf] at fits
        rw [mergeField_leaf]
        split
        · exact written since (Nat.le_refl _) trivial
        · next full =>
          exact Drafting.ends_fail since ⟨rfl, Nat.lt_of_lt_of_le (Nat.lt_of_not_le full) fits⟩
      | _ => cases isMap
    | some other =>
      obtain ⟨inner, rfl, showsInner⟩ := shows_map isMap shown
      rw [Document.valueRoom] at fits
      have merged {target : Map} (seen : target.Only (veil.Sees left)) :=
        (ih since seen (only_map only isMap) showsInner).mono
          (fun fault tight => show fault = .tooDeep ∧ room + 1 < Document.fieldsRoom fields from
            ⟨tight.1, Nat.lt_of_lt_of_le (Nat.succ_lt_succ tight.2) fits⟩) fun _ _ _ made => made
      rw [mergeField_map room target name isMap]
      refine Drafting.ends_shelf ?_
      split
      · next m there =>
        refine (merged (only_get? since.clear seen there)).bind fun last map since made => ?_
        exact Drafting.ends_pure since ⟨Nat.le_trans size made.1, seen.grown made.1⟩
      · next nodes there =>
        refine (merged (only_get? since.clear seen there)).bind fun last map since made => ?_
        exact written since made.1 (only_node made.2)
      · have nothing : (own []).Only (veil.Sees left) := trivial
        refine (merged nothing).bind fun last map since made => ?_
        exact written since made.1 (only_node made.2)

end Draft.Map

/-- Merging a draft whose maps are out of sight. -/
theorem Draft.ends_merge {veil : Veil} {start : Shelf} (closed : veil.Closed start) {shelf : Shelf}
    (since : veil.Since start shelf) {d other : Draft} (seen : veil.SeesDraft shelf d)
    (unseen : Only veil.maps other) {fields : Fields} (shows : ShowsFields start fields other) :
    Ends (veil.Since start)
      (fun fault => fault = .tooDeep ∧ Document.mergingRoom < Document.fieldsRoom fields) shelf
      (d.merge other) fun left merged => veil.SeesDraft left merged := by
  have whole : (Map.own d).Only (veil.Sees shelf) := seen
  have hidden : (Map.own other).Only veil.maps := unseen
  refine (Map.ends_mergeTo closed Document.mergingRoom since whole hidden shows).bind ?_
  rintro left map since ⟨size, only⟩
  cases map with
  | own nodes => exact Drafting.ends_pure since only
  | shared m => exact Drafting.ends_pure since (Veil.only_grown seen size)

end ClusterMetadata
