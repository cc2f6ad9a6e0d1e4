import ClusterMetadata.Proofs.Hops

/-!
# Drafts whose fields are their own

The fields of a native draft are values or maps of its own; shared maps stand below them only,
whatever the options are and whatever a namespace adds. So names are read off such a draft, and
written into it, without looking at the shelf.

* `Draft.Rooted`: no field of a draft is a shared map;
* `ownerName?_of_rooted`, `putName_of_rooted`: names are read and written on every shelf alike;
* `ensures_nativeInSpace_rooted`: the draft of a resource with what its namespace adds is rooted.
-/
namespace ClusterMetadata

open Json (Value)

namespace Draft

/-- No field of a draft is a shared map. -/
def Rooted (d : Draft) : Prop := ∀ name m, Table.get? d name ≠ some (.shared m)

variable {d : Draft}

theorem rooted_insert (h : Rooted d) (name : Text) {node : Node} (own : ∀ m, node ≠ .shared m) :
    Rooted (Table.insert d name node) := by
  intro other m there
  rw [Table.get?_insert] at there
  split at there
  · exact own m (Option.some.inj there)
  · exact h other m there

theorem rooted_erase (h : Rooted d) (name : Text) : Rooted (Table.erase d name) := by
  intro other m there
  rw [Table.get?_erase] at there
  split at there
  · cases there
  · exact h other m there

theorem ofValue_ne_shared (v : Value) (m : SharedMap) : Node.ofValue v ≠ .shared m := by
  cases v <;> exact nofun

theorem rooted_ofFields (fields : Document) : Rooted (ofFields fields) := by
  intro name m there
  rw [get?_ofFields] at there
  obtain ⟨v, -, same⟩ := Option.map_eq_some_iff.mp there
  exact ofValue_ne_shared v m same

/-! ## Reading and writing names -/

theorem ownerName?_of_rooted (h : Rooted d) (shelf now : Shelf) (kind : Kind) :
    d.ownerName? shelf kind = d.ownerName? now kind := by
  rw [ownerName?, ownerName?, at?, at?]
  cases there : Table.get? d kind.field with
  | none => rfl
  | some node =>
    cases node with
    | shared m => exact absurd there (h _ m)
    | _ => rfl

/-- The fields of the map of a draft's own under a name; none when something else stands there. -/
def ownBelow (d : Draft) (name : Text) : Draft :=
  match Table.get? d name with
  | some (.map fields) => fields
  | _ => []

/-- The draft with the name of a resource in the field of its kind. -/
def withName (d : Draft) (field name : Text) : Draft :=
  Table.insert d field (.map (Table.insert (d.ownBelow field) nameField (.ofText name)))

/-- Where no shared map stands under a name, writing below it leaves the shelf alone. -/
theorem put_below {name : Text} (own : ∀ m, Table.get? d name ≠ some (.shared m)) (field : Text)
    (node : Node) : d.put [name, field] node =
      pure (Table.insert d name (.map (Table.insert (d.ownBelow name) field node))) := by
  rw [put, within, ownBelow]
  cases there : Table.get? d name with
  | none => rfl
  | some existing =>
    cases existing with
    | shared m => exact absurd there (own m)
    | _ => rfl

theorem putName_of_rooted (h : Rooted d) (field name : Text) :
    d.putName field name = pure (d.withName field name) := put_below (h field) nameField _

theorem rooted_withName (h : Rooted d) (field name : Text) : Rooted (d.withName field name) :=
  rooted_insert h field nofun

/-! ## Options -/

theorem rooted_within {fresh : Option Node → Draft} {own : Draft → OnShelf Draft}
    {shared : SharedMap → OnShelf Unit} (h : Rooted d) (name : Text) (shelf : Shelf) :
    Rooted ((d.within name fresh own shared).run shelf).1 := by
  rw [within.eq_def]
  split
  · exact h
  · exact rooted_insert h name nofun
  · exact rooted_insert h name nofun

theorem rooted_safePut (h : Rooted d) (path : Path) {node : Node} (own : ∀ m, node ≠ .shared m)
    (shelf : Shelf) : Rooted ((d.safePut path node).run shelf).1 := by
  match path with
  | [] => exact h
  | [name] =>
    rw [safePut, safePutHere]
    split
    · split
      · exact rooted_within h name shelf
      · exact rooted_insert h name own
    · exact rooted_insert h name own
  | name :: next :: rest => exact rooted_within h name shelf

theorem rooted_nestSection (h : Rooted d) (under name : Text) (shelf : Shelf) :
    Rooted ((nestSection under d name).run shelf).1 := by
  have rest := rooted_erase h name
  rw [nestSection.eq_def]
  split
  · exact rest
  · exact rest
  · next node _ there =>
    refine rooted_safePut rest _ (fun m same => ?_) shelf
    exact h name m (there.trans (congrArg some same))

theorem rooted_adjust (h : Rooted d) (option : FieldOption) (shelf : Shelf) :
    Rooted ((adjust d option).run shelf).1 := by
  cases option with
  | field key value => exact rooted_safePut h _ (ofValue_ne_shared value) shelf
  | nest under =>
    have labels := rooted_nestSection h under "labels" shelf
    exact rooted_nestSection labels under "annotations" _

theorem rooted_adjustAll (h : Rooted d) (options : List FieldOption) (shelf : Shelf) :
    Rooted ((adjustAll options d).run shelf).1 := by
  induction options generalizing d shelf with
  | nil => exact h
  | cons option rest ih => exact ih (rooted_adjust h option shelf) _

theorem rooted_assembled (field name uid space : Text) (refs : List OwnerReference)
    (labels annotations : Draft) :
    Rooted (assembled field name uid space refs labels annotations) := by
  have sectioned {d : Draft} (h : Rooted d) (map : MetadataMap) (fields : Draft) :
      Rooted (d.insertSection map fields) := by
    rw [insertSection]
    split
    · exact h
    · exact rooted_insert h _ fun m same => by cases same
  exact sectioned (sectioned (rooted_ofFields _) _ _) _ _

/-! ## What a namespace adds -/

namespace Map

/-- What every visit of a field keeps, visiting a map keeps. -/
theorem ensures_visit {α : Type} (source : Map) {step : α → Text → Node → Drafting α}
    {inv : α → Prop} (keeps : ∀ a, inv a → ∀ name node, (step a name node).Ensures inv) {start : α}
    (h : inv start) : (source.visit step start).Ensures inv := by
  cases source with
  | own fields => exact Drafting.ensures_foldlM (fun a ha field _ => keeps a ha field.1 field.2) h
  | shared m =>
    refine (Drafting.ensures_true _).bind fun shelf _ => ?_
    refine (Drafting.ensures_foldlM (fun a ha i _ => ?_) h).bind fun last kept => ?_
    · refine (Drafting.ensures_true _).bind fun fields _ => ?_
      split
      · exact keeps a ha _ _
      · exact Drafting.ensures_pure ha
    · exact (Drafting.ensures_true _).bind fun _ _ => Drafting.ensures_pure kept

/-- A map of a draft's own, which is rooted if another draft is. -/
def OwnAfter (d : Draft) (map : Map) : Prop := ∃ d', map = .own d' ∧ (Rooted d → Rooted d')

theorem ensures_mergeTo_own (room : Nat) (d : Draft) (source : Map) :
    (mergeTo room (.own d) source).Ensures (OwnAfter d) := by
  induction room generalizing d source with
  | zero => exact Drafting.ensures_fail
  | succ room ih =>
    have written {d' : Draft} (kept : Rooted d → Rooted d') (name : Text) {node : Node}
        (own : ∀ m, node ≠ .shared m) :
        Drafting.Ensures (liftM (Map.insert (.own d') name node) : Drafting Map) (OwnAfter d) :=
      Drafting.ensures_lift_shelf _ fun _ =>
        ⟨_, rfl, fun rooted => rooted_insert (kept rooted) name own⟩
    rw [mergeTo]
    refine ensures_visit source ?_ ⟨d, rfl, id⟩
    rintro _ ⟨d', rfl, kept⟩ name node
    split
    · split
      · exact written kept name fun m same => by cases same
      · exact Drafting.ensures_fail
    · exact Drafting.ensures_pure ⟨d', rfl, kept⟩
    · refine (Drafting.ensures_true _).bind fun shelf _ => ?_
      split
      · refine (Drafting.ensures_true _).bind fun _ _ => ?_
        exact Drafting.ensures_pure ⟨d', rfl, kept⟩
      · refine (ih _ _).bind ?_
        rintro _ ⟨merged, rfl, -⟩
        exact written kept name fun m same => by cases same
      · refine (ih _ _).bind ?_
        rintro _ ⟨merged, rfl, -⟩
        exact written kept name fun m same => by cases same

end Map

theorem ensures_merge_rooted (h : Rooted d) (other : Draft) : (d.merge other).Ensures Rooted := by
  unfold merge
  refine (Map.ensures_mergeTo_own _ d _).bind ?_
  rintro _ ⟨d', rfl, kept⟩
  exact Drafting.ensures_pure (kept h)

end Draft

namespace Projector

theorem ensures_native_rooted (p : Projector) (field : Text) (r : Resource)
    (options : List FieldOption) : (p.native field r options).Ensures Draft.Rooted := by
  rw [native_adjusted]
  refine (p.ensures_assembled field r).bind ?_
  rintro _ ⟨labels, annotations, name, uid, space, refs, -, -, -, -, rfl⟩
  have rooted := Draft.rooted_assembled field name uid space refs labels annotations
  exact Drafting.ensures_lift_shelf _ fun shelf => Draft.rooted_adjustAll rooted options shelf

/-- Whatever a peer answers for the namespace, the draft keeps its fields to itself. -/
theorem ensures_nativeInSpace_rooted (p : Projector) (peer : Option Peer) (field : Text)
    (r : Resource) (options : List FieldOption) :
    (p.nativeInSpace peer field r options).Ensures Draft.Rooted := by
  refine (p.ensures_native_rooted field r options).bind fun d rooted => ?_
  cases peer with
  | none => exact Drafting.ensures_pure rooted
  | some peer =>
    refine (Drafting.ensures_true _).bind fun space _ => ?_
    split
    · exact Drafting.ensures_pure rooted
    · refine (Drafting.ensures_true _).bind fun answer _ => ?_
      cases answer with
      | none => exact Drafting.ensures_pure rooted
      | some other => exact Draft.ensures_merge_rooted rooted other

end Projector

end ClusterMetadata
