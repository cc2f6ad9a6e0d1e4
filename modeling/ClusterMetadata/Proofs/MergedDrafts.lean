import ClusterMetadata.Draft.Merge
import ClusterMetadata.Proofs.Ensures
import ClusterMetadata.Proofs.ShownDrafts

/-!
# Merging drafts is merging documents

What is merged is copied. Where the draft below has no shared maps, a merge reads the shelf and
leaves it alone, and its result depends only on what the other draft shows.

* `valueRoom`, `fieldsRoom`: the room that a merge takes;
* `mergeTo_plain`: merging into maps of a draft's own;
* `merge_quiet`: merging a draft into another that has shared maps in other fields only.
-/
namespace ClusterMetadata

open Json (Value Fields)

namespace Document

mutual
/-- The room that merging a value takes. -/
def valueRoom : Value → Nat
  | .object source => fieldsRoom source + 1
  | leaf => max putSteps leaf.copySteps
termination_by structural v => v

/-- The room that merging fields takes, none of them included. -/
def fieldsRoom : List (Text × Value) → Nat
  | [] => 1
  | (_, v) :: rest => max (valueRoom v) (fieldsRoom rest)
termination_by structural fields => fields
end

theorem fieldsRoom_pos (fields : List (Text × Value)) : 1 ≤ fieldsRoom fields := by
  induction fields with
  | nil => exact Nat.le_refl 1
  | cons field rest ih =>
    obtain ⟨name, v⟩ := field
    exact Nat.le_trans ih (Nat.le_max_right _ _)

theorem valueRoom_leaf {v : Value} (leaf : v.isObject = false) :
    valueRoom v = max putSteps v.copySteps := by
  cases v with
  | object fields => cases leaf
  | _ => rfl

/-- What merging fields gives in so much room. -/
def mergedIn {α : Type} (room : Nat) (fields : Fields) (result : α) : Except Fault α :=
  if fieldsRoom fields ≤ room then .ok result else .error .tooDeep

end Document

namespace Drafting

variable {α β : Type}

/-- A computation has an outcome on a shelf, reports nothing and leaves the shelf as it is. -/
def Quiet (shelf : Shelf) (x : Drafting α) (outcome : Except Fault α) : Prop :=
  x shelf = (Traced.ofExcept outcome, shelf)

theorem Quiet.bind {shelf : Shelf} {x : Drafting α} {a : α} {f : α → Drafting β}
    {outcome : Except Fault β} (hx : Quiet shelf x (.ok a)) (hf : Quiet shelf (f a) outcome) :
    Quiet shelf (x >>= f) outcome := by
  rw [Quiet] at hx hf
  rw [Quiet, bind_apply, hx]
  simp only [Traced.ofExcept, hf]
  rfl

theorem Quiet.bind_error {shelf : Shelf} {x : Drafting α} {fault : Fault} {f : α → Drafting β}
    (hx : Quiet shelf x (.error fault)) : Quiet shelf (x >>= f) (.error fault) := by
  rw [Quiet] at hx
  rw [Quiet, bind_apply, hx]
  rfl

end Drafting

namespace Draft.Map

def Shows (shelf : Shelf) (fields : Fields) : Map → Prop
  | own nodes => ShowsFields shelf fields nodes
  | shared m => shelf.HoldsMap m fields

theorem showsFields_of_holds {shelf : Shelf} {fields : Fields} {slots : Table Text Slot}
    (h : shelf.HoldsFields fields slots) :
    ShowsFields shelf fields (slots.map fun field => (field.1, Node.ofSlot field.2)) := by
  induction fields generalizing slots with
  | nil =>
    cases h
    rfl
  | cons field rest ih =>
    obtain ⟨name, v⟩ := field
    match slots, h with
    | (name', slot) :: slots, h =>
      refine ⟨h.1, ?_, ih h.2.2⟩
      have holds := h.2.1
      cases v with
      | object inner =>
        cases slot with
        | leaf w => exact holds.elim
        | map m => exact holds
      | _ =>
        cases slot with
        | leaf w => exact holds
        | map m => exact holds.elim

/-- One step of a visit to a shared map: the field that is there when its turn comes. -/
def visitAt {α : Type} (m : SharedMap) (size : Nat) (step : α → Text → Node → Drafting α) (a : α)
    (turn : Nat) : Drafting α := do
  match (← fieldsOfSize m size)[turn]? with
  | some (name, slot) => step a name (.ofSlot slot)
  | none => return a

section

variable {α : Type} {shelf : Shelf} (m : SharedMap) {step : α → Text → Node → Drafting α}
  {inv : α → Prop}

theorem quiet_fieldsOfSize : Drafting.Quiet shelf (fieldsOfSize m (shelf.fields m).length)
    (.ok (shelf.fields m)) := by
  rw [Drafting.Quiet, fieldsOfSize, Drafting.bind_apply]
  simp only [Drafting.shelf, Traced.pure, if_pos]
  rfl

variable (quiet : ∀ a, inv a → ∀ field ∈ shelf.fields m, ∃ outcome,
  Drafting.Quiet shelf (step a field.1 (.ofSlot field.2)) outcome ∧
    ∀ b, outcome = .ok b → inv b) {start : α} (h : inv start)
include quiet h

/-- The first turns of a visit do what visiting the first fields does. -/
theorem visitAt_upTo (k : Nat) (le : k ≤ (shelf.fields m).length) : ∃ outcome,
    Drafting.Quiet shelf
      ((List.range k).foldlM (visitAt m (shelf.fields m).length step) start) outcome ∧
    Drafting.Quiet shelf (((shelf.fields m).take k).foldlM
      (fun a field => step a field.1 (.ofSlot field.2)) start) outcome ∧
    ∀ b, outcome = .ok b → inv b := by
  induction k with
  | zero => exact ⟨.ok start, rfl, rfl, fun b same => Except.ok.inj same ▸ h⟩
  | succ k ih =>
    obtain ⟨outcome, range, taken, kept⟩ := ih (Nat.le_of_succ_le le)
    rw [List.range_succ, List.take_succ_eq_append_getElem le, List.foldlM_append,
      List.foldlM_append]
    cases outcome with
    | error fault =>
      exact ⟨.error fault, range.bind_error, taken.bind_error, fun b made => by cases made⟩
    | ok a =>
      obtain ⟨next, stepped, kept'⟩ := quiet a (kept a rfl) _ (List.getElem_mem le)
      have visited : Drafting.Quiet shelf (visitAt m (shelf.fields m).length step a k) next := by
        refine (quiet_fieldsOfSize m).bind ?_
        rw [List.getElem?_eq_getElem le]
        exact stepped
      refine ⟨next, range.bind ?_, taken.bind ?_, kept'⟩
      · rw [List.foldlM_cons]
        simp only [List.foldlM_nil, bind_pure]
        exact visited
      · rw [List.foldlM_cons]
        simp only [List.foldlM_nil, bind_pure]
        exact stepped

/-- Visiting a shared map is visiting its fields, as long as no step touches the shelf. -/
theorem visit_shared :
    ((shared m).visit step start) shelf =
      ((shelf.fields m).foldlM (fun a field => step a field.1 (.ofSlot field.2)) start) shelf := by
  obtain ⟨outcome, range, whole, -⟩ :=
    visitAt_upTo m quiet h (shelf.fields m).length (Nat.le_refl _)
  rw [List.take_length] at whole
  rw [whole, visit]
  cases outcome with
  | error fault => exact range.bind_error
  | ok last =>
    -- As many fields are visited as there were.
    refine range.bind ?_
    have done : Drafting.Quiet shelf (Pure.pure last) (.ok last) := rfl
    exact (quiet_fieldsOfSize m).bind (f := fun _ => Pure.pure last) done

end

def mergeField (room : Nat) (target : Map) (name : Text) (node : Node) : Drafting Map := do
  match node, node.map? with
  | .leaf v, _ =>
    if max Document.putSteps v.copySteps ≤ room + 1 then target.insert name node
    else Drafting.fail .tooDeep
  | _, none => return target
  | _, some other =>
    match (target.get? (← Drafting.shelf) name).bind Node.map? with
    | some (.shared m) =>
      let _ ← mergeTo room (.shared m) other
      return target
    | some (.own fields) => do
      target.insert name (← mergeTo room (.own fields) other).node
    | none => do target.insert name (← mergeTo room (.own []) other).node

theorem mergeTo_succ (room : Nat) (target source : Map) :
    mergeTo (room + 1) target source = source.visit (mergeField room) target := rfl

theorem mergeField_leaf (room : Nat) (target : Map) (name : Text) (w : Value) :
    mergeField room target name (.leaf w) =
      if max Document.putSteps w.copySteps ≤ room + 1 then
        (liftM (target.insert name (.leaf w)) : Drafting Map)
      else Drafting.fail .tooDeep := rfl

theorem mergeField_map (room : Nat) (target : Map) (name : Text) {node : Node} {other : Map}
    (isMap : node.map? = some other) :
    mergeField room target name node = (do
      match (target.get? (← Drafting.shelf) name).bind Node.map? with
      | some (.shared m) =>
        let _ ← mergeTo room (.shared m) other
        return target
      | some (.own fields) => do
        target.insert name (← mergeTo room (.own fields) other).node
      | none => do target.insert name (← mergeTo room (.own []) other).node) := by
  cases node <;> cases isMap <;> rfl

/-- What merging one field gives in so much room. -/
def mergedField {α : Type} (room : Nat) (v : Value) (result : α) : Except Fault α :=
  if Document.valueRoom v ≤ room then .ok result else .error .tooDeep

/-- The fields of the map under a name, as they are merged over. -/
def fieldsAt (existing : Option Value) : Fields :=
  match existing with
  | some (.object fields) => fields
  | _ => []

/-- Merging one field into a draft that holds no shared map under its name. -/
theorem mergeField_plain {shelf : Shelf} {room : Nat}
    (inner : ∀ (doc : Document) (source : Fields) (other : Map), other.Shows shelf source →
      Drafting.Quiet shelf (mergeTo room (.own (ofFields doc)) other)
        (Document.mergedIn room source (.own (ofFields (Document.mergeFields doc source)))))
    {d : Draft} {name : Text} {existing : Option Value}
    (plain : Table.get? d name = existing.map Node.ofValue) {v : Value} {node : Node}
    (shows : Node.Shows shelf v node) :
    Drafting.Quiet shelf (mergeField room (.own d) name node)
      (mergedField (room + 1) v
        (.own (Table.insert d name (.ofValue (Document.mergeOver existing v))))) := by
  cases v with
  | object source =>
    have copied (other : Map) (shown : other.Shows shelf source) :
        Drafting.Quiet shelf (do
          (own d).insert name (← mergeTo room (.own (ofFields (fieldsAt existing))) other).node)
          (mergedField (room + 1) (.object source)
            (.own (Table.insert d name (.ofValue (Document.mergeOver existing (.object source)))))) := by
      have merged := inner (fieldsAt existing) source other shown
      rw [Document.mergedIn] at merged
      rw [mergedField, Document.valueRoom]
      by_cases fits : Document.fieldsRoom source ≤ room
      · rw [if_pos fits] at merged
        rw [if_pos (Nat.succ_le_succ fits)]
        exact merged.bind rfl
      · rw [if_neg fits] at merged
        rw [if_neg fun h => fits (Nat.le_of_succ_le_succ h)]
        exact merged.bind_error
    have written (other : Map) (isMap : node.map? = some other) (shown : other.Shows shelf source) :
        Drafting.Quiet shelf (mergeField room (.own d) name node)
          (mergedField (room + 1) (.object source)
            (.own (Table.insert d name (.ofValue (Document.mergeOver existing (.object source)))))) := by
      rw [mergeField_map room _ name isMap]
      have here : Drafting.Quiet shelf Drafting.shelf (.ok shelf) := rfl
      refine here.bind ?_
      rw [Map.get?, plain]
      have result := copied other shown
      cases existing with
      | none => exact result
      | some w => cases w <;> exact result
    cases node with
    | leaf w => exact shows.elim
    | map nodes => exact written (.own nodes) rfl shows
    | shared m => exact written (.shared m) rfl shows
  | _ =>
    cases node with
    | leaf w =>
      cases shows
      rw [mergeField_leaf, mergedField, Document.valueRoom_leaf rfl]
      split
      · rfl
      · rfl
    | _ => exact shows.elim

/-- A draft with fields merged over it, given the document that it shows. -/
def overlay (d : Draft) (doc : Document) : List (Text × Value) → Draft
  | [] => d
  | (name, v) :: rest =>
    let merged := Document.mergeOver (Table.get? doc name) v
    overlay (Table.insert d name (.ofValue merged)) (Table.insert doc name merged) rest

theorem overlay_ofFields (doc : Document) (source : Fields) :
    overlay (ofFields doc) doc source = ofFields (Document.mergeFields doc source) := by
  induction source generalizing doc with
  | nil => rfl
  | cons field rest ih =>
    obtain ⟨name, v⟩ := field
    rw [overlay, insert_ofFields, ih]
    rfl

/-- A draft has the fields of a document under some names, in maps of its own. -/
def PlainAt (names : Text → Prop) (doc : Document) (d : Draft) : Prop :=
  ∀ name, names name → Table.get? d name = (Table.get? doc name).map Node.ofValue

theorem plainAt_insert {names : Text → Prop} {doc : Document} {d : Draft}
    (h : PlainAt names doc d) (name : Text) (v : Value) :
    PlainAt names (Table.insert doc name v) (Table.insert d name (.ofValue v)) := by
  intro other mem
  rw [Table.get?_insert, Table.get?_insert]
  split
  · rfl
  · exact h other mem

/-- Merging fields one after the other, each into a map of the draft's own. -/
theorem mergeFields_plain {shelf : Shelf} {room : Nat}
    (inner : ∀ (doc : Document) (source : Fields) (other : Map), other.Shows shelf source →
      Drafting.Quiet shelf (mergeTo room (.own (ofFields doc)) other)
        (Document.mergedIn room source (.own (ofFields (Document.mergeFields doc source)))))
    {source : Fields} {nodes : Draft} (shows : ShowsFields shelf source nodes) {doc : Document}
    {d : Draft} (plain : PlainAt (· ∈ Table.keys source) doc d) :
    Drafting.Quiet shelf
      (nodes.foldlM (fun target field => mergeField room target field.1 field.2) (.own d))
      (Document.mergedIn (room + 1) source (.own (overlay d doc source))) := by
  induction source generalizing nodes doc d with
  | nil =>
    cases shows
    have fits : Document.fieldsRoom [] ≤ room + 1 := Nat.le_add_left 1 room
    rw [Document.mergedIn, if_pos fits]
    rfl
  | cons field rest ih =>
    obtain ⟨name, v⟩ := field
    match nodes, shows with
    | (name', node) :: nodes, shows =>
      obtain ⟨rfl, here, there⟩ := shows
      have first := mergeField_plain inner (plain name' List.mem_cons_self) here
      rw [List.foldlM_cons, Document.mergedIn, Document.fieldsRoom]
      rw [mergedField] at first
      by_cases fits : Document.valueRoom v ≤ room + 1
      · rw [if_pos fits] at first
        have others := ih there
          (plainAt_insert (fun key mem => plain key (List.mem_cons_of_mem _ mem)) name'
            (Document.mergeOver (Table.get? doc name') v))
        rw [Document.mergedIn] at others
        have same : max (Document.valueRoom v) (Document.fieldsRoom rest) ≤ room + 1 ↔
            Document.fieldsRoom rest ≤ room + 1 := by
          omega
        simp only [same]
        exact first.bind others
      · rw [if_neg fits] at first
        rw [if_neg fun h => fits (Nat.le_trans (Nat.le_max_left _ _) h)]
        exact first.bind_error

theorem exists_shows {shelf : Shelf} {fields : Fields} {nodes : Draft}
    (h : ShowsFields shelf fields nodes) {field : Text × Node} (mem : field ∈ nodes) :
    ∃ v, Node.Shows shelf v field.2 := by
  induction fields generalizing nodes with
  | nil =>
    cases h
    cases mem
  | cons first rest ih =>
    obtain ⟨name, v⟩ := first
    match nodes, h with
    | (name', node) :: nodes, h =>
      rcases List.mem_cons.mp mem with rfl | mem
      · exact ⟨v, h.2.1⟩
      · exact ih h.2.2 mem

/-- Merging into maps of a draft's own copies what the other map shows. -/
theorem mergeTo_plain {shelf : Shelf} (room : Nat) (doc : Document) (source : Fields)
    (other : Map) (shows : other.Shows shelf source) :
    Drafting.Quiet shelf (mergeTo room (.own (ofFields doc)) other)
      (Document.mergedIn room source (.own (ofFields (Document.mergeFields doc source)))) := by
  induction room generalizing doc source other with
  | zero =>
    have full : ¬ Document.fieldsRoom source ≤ 0 := by
      have := Document.fieldsRoom_pos source
      omega
    rw [Document.mergedIn, if_neg full]
    rfl
  | succ room ih =>
    have plain : PlainAt (· ∈ Table.keys source) doc (ofFields doc) := fun name _ =>
      get?_ofFields doc name
    rw [mergeTo_succ, ← overlay_ofFields]
    cases other with
    | own nodes => exact mergeFields_plain ih shows plain
    | shared m =>
      have nodes := showsFields_of_holds shows.2
      have merged := mergeFields_plain ih nodes plain
      have quiet (target : Map) (own : ∃ doc, target = .own (ofFields doc))
          (field : Text × Slot) (mem : field ∈ shelf.fields m) : ∃ outcome,
            Drafting.Quiet shelf (mergeField room target field.1 (.ofSlot field.2)) outcome ∧
              ∀ b, outcome = .ok b → ∃ doc, b = .own (ofFields doc) := by
        obtain ⟨doc', rfl⟩ := own
        obtain ⟨v, shown⟩ := exists_shows nodes (List.mem_map_of_mem mem)
        refine ⟨_, mergeField_plain ih (get?_ofFields doc' field.1) shown, fun b same => ?_⟩
        rw [mergedField] at same
        split at same
        · rw [insert_ofFields] at same
          exact ⟨_, (Except.ok.inj same).symm⟩
        · cases same
      have visited := visit_shared m quiet ⟨doc, rfl⟩
      rw [List.foldlM_map] at merged
      exact visited.trans merged

end Draft.Map

/-- Merging a draft over another leaves the shelf alone when it has no field under whose name the
other has shared maps. -/
theorem Draft.merge_quiet {shelf : Shelf} {doc source : Document} {d other : Draft}
    (plain : Map.PlainAt (· ∈ Table.keys source) doc d) (shows : ShowsFields shelf source other) :
    Drafting.Quiet shelf (d.merge other)
      (Document.mergedIn Document.mergingRoom source (Map.overlay d doc source)) := by
  have merged : Drafting.Quiet shelf (Map.mergeTo Document.mergingRoom (.own d) (.own other))
      (Document.mergedIn Document.mergingRoom source (.own (Map.overlay d doc source))) :=
    Map.mergeFields_plain (Map.mergeTo_plain 983) shows plain
  unfold merge
  rw [Document.mergedIn] at merged ⊢
  split
  · next fits =>
    rw [if_pos fits] at merged
    exact merged.bind rfl
  · next tight =>
    rw [if_neg tight] at merged
    exact merged.bind_error

end ClusterMetadata
