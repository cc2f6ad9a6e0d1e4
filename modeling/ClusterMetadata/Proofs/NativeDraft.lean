import ClusterMetadata.Draft.Own
import ClusterMetadata.Generator.Kinds
import ClusterMetadata.Proofs.Ensures

/-!
# What native drafts name

A native draft is a part of its own maps, which says who the resource and its controllers are, with
the sections of labels and annotations put beside it.

* `lastController`: the controller of a kind that counts, of all that references name;
* `get?_identifying`: the first part names that controller, and nothing else of the kind;
* `get?_identifying_kind`: under the resource's own kind it has the uid of the resource, with its
  name or that of a controller of the same kind;
* `native_eq`: a draft is this part and the two sections;
* `ensures_native`: so every native draft names the controllers that count.
-/
namespace ClusterMetadata

open Json (Value Fields)

def Json.Value.named (name : Text) : Value := .object [(nameField, .string name)]

def Json.Value.identity (name uid : Text) : Value :=
  .object [(nameField, .string name), ("uid", .string uid)]

def OwnerReference.names (ref : OwnerReference) (kind : Kind) : Bool :=
  ref.kind = Text.ofString kind.name && ref.controller && ref.name != ""

/-- The last controller of a kind that references name. -/
def lastController (refs : List OwnerReference) (kind : Kind) : Option Text :=
  (refs.reverse.find? (·.names kind)).map (·.name)

/-- The controller of a resource's own kind that counts among its references. -/
def namesake (refs : List OwnerReference) (kind : Kind) : Option Text :=
  if kind.isController then lastController refs kind else none

namespace Kind

theorem ofName?_eq_some {name : Text} {kind : Kind} :
    ofName? name = some kind ↔ name = Text.ofString kind.name := by
  constructor
  · intro h
    have found := List.find?_some h
    exact (of_decide_eq_true found).symm
  · rintro rfl
    cases kind <;> rfl

theorem field_injective {k l : Kind} (h : k.field = l.field) : k = l := by
  revert h
  cases k <;> cases l <;> decide

theorem textField_injective {k l : Kind} (h : Text.ofString k.field = Text.ofString l.field) :
    k = l :=
  field_injective (Text.ofString_injective h)

end Kind

theorem OwnerReference.names_iff {ref : OwnerReference} {kind : Kind} :
    ref.names kind ↔ Kind.ofName? ref.kind = some kind ∧ ref.controller ∧ ref.name ≠ "" := by
  simp [names, Kind.ofName?_eq_some, and_assoc]

theorem OwnerReference.controllerName?_eq_some {ref : OwnerReference} {kind : Kind} {name : Text} :
    ref.controllerName? = some (kind, name) ↔
      kind.isController ∧ ref.names kind ∧ ref.name = name := by
  rw [names_iff, controllerName?]
  cases hk : Kind.ofName? ref.kind with
  | none => simp
  | some k =>
    simp only [Option.bind_eq_bind, Option.bind_some, Option.ite_none_right_eq_some,
      Option.some.injEq, Prod.mk.injEq, Bool.and_eq_true, bne_iff_ne, ne_eq]
    constructor
    · rintro ⟨⟨⟨hc, hk⟩, hn⟩, rfl, rfl⟩
      exact ⟨hk, ⟨rfl, hc, hn⟩, rfl⟩
    · rintro ⟨hk, ⟨rfl, hc, hn⟩, rfl⟩
      exact ⟨⟨⟨hc, hk⟩, hn⟩, rfl, rfl⟩

theorem lastController_cons (ref : OwnerReference) (rest : List OwnerReference) (kind : Kind) :
    lastController (ref :: rest) kind =
      (lastController rest kind).or (if ref.names kind then some ref.name else none) := by
  simp only [lastController, List.reverse_cons, List.find?_append, List.find?_cons,
    List.find?_nil]
  cases rest.reverse.find? (·.names kind) <;> cases ref.names kind <;> rfl

theorem lastController_ne_empty {refs : List OwnerReference} {kind : Kind} {name : Text}
    (h : lastController refs kind = some name) : name ≠ "" := by
  obtain ⟨ref, found, rfl⟩ := Option.map_eq_some_iff.mp h
  have names := List.find?_some found
  exact (OwnerReference.names_iff.mp names).2.2

namespace Document

def putOwner (d : Document) (ref : OwnerReference) : Document :=
  match ref.controllerName? with
  | some (kind, name) => Document.put d [kind.field, nameField] (.string name)
  | none => d

/-- What a native document says of the resource itself and of its controllers. -/
def identifying (field name uid space : Text) (refs : List OwnerReference) : Document :=
  let own : Document := [(field, .object [(nameField, .string name), ("uid", .string uid)])]
  refs.foldl putOwner (if space = "" then own else Table.insert own "namespace" (.string space))

theorem put_named {d : Document} {field : Text} {prev : Option Text}
    (h : Table.get? d field = prev.map Value.named) (name : Text) :
    Document.put d [field, nameField] (.string name) = Table.insert d field (.named name) := by
  have below : Document.below d field = [] ∨ ∃ old, Document.below d field =
      [(nameField, .string old)] := by
    rw [Document.below, h]
    cases prev with
    | none => exact .inl rfl
    | some old => exact .inr ⟨old, rfl⟩
  rcases below with below | ⟨old, below⟩ <;>
    simp [Document.put, below, Table.insert, Value.named]

theorem putOwner_of_names {ref : OwnerReference} {kind : Kind} (controller : kind.isController)
    (names : ref.names kind) (d : Document) :
    d.putOwner ref = Document.put d [kind.field, nameField] (.string ref.name) := by
  rw [putOwner, OwnerReference.controllerName?_eq_some.mpr ⟨controller, names, rfl⟩]

/-- A reference that names no controller of a kind writes nothing there. -/
theorem get?_putOwner_of_silent {ref : OwnerReference} {kind : Kind} (silent : ¬ ref.names kind)
    (d : Document) : Table.get? (d.putOwner ref) kind.field = Table.get? d kind.field := by
  unfold putOwner
  cases named : ref.controllerName? with
  | none => rfl
  | some owner =>
    obtain ⟨k, name⟩ := owner
    obtain ⟨-, names, rfl⟩ := OwnerReference.controllerName?_eq_some.mp named
    have apart : Text.ofString k.field ≠ kind.field := fun same =>
      silent (Kind.textField_injective same ▸ names)
    simp [Document.put, Table.get?_insert, apart]

/-- A reference that names a controller of a kind takes the place of the name before it, and any
other leaves it. -/
theorem get?_putOwner {d : Document} {kind : Kind} (controller : kind.isController)
    {prev : Option Text} (h : Table.get? d kind.field = prev.map Value.named)
    (ref : OwnerReference) :
    Table.get? (d.putOwner ref) kind.field =
      (if ref.names kind then some ref.name else prev).map Value.named := by
  by_cases names : ref.names kind
  · rw [putOwner_of_names controller names, put_named h, Table.get?_insert_self, if_pos names,
      Option.map_some]
  · rw [get?_putOwner_of_silent names, h, if_neg names]

theorem get?_foldl_putOwner {d : Document} {kind : Kind} (controller : kind.isController)
    {prev : Option Text} (h : Table.get? d kind.field = prev.map Value.named)
    (refs : List OwnerReference) :
    Table.get? (refs.foldl putOwner d) kind.field =
      ((lastController refs kind).or prev).map Value.named := by
  induction refs generalizing d prev with
  | nil => exact h
  | cons ref rest ih =>
    rw [List.foldl_cons, ih (get?_putOwner controller h ref), lastController_cons]
    cases lastController rest kind <;> cases ref.names kind <;> rfl

/-- References are written under the fields of controllers. -/
theorem get?_foldl_putOwner_other {name : Text}
    (apart : ∀ kind : Kind, kind.isController → Text.ofString kind.field ≠ name)
    (refs : List OwnerReference) (d : Document) :
    Table.get? (refs.foldl putOwner d) name = Table.get? d name := by
  induction refs generalizing d with
  | nil => rfl
  | cons ref rest ih =>
    rw [List.foldl_cons, ih, putOwner]
    split
    · next kind owner names =>
      have controller := (OwnerReference.controllerName?_eq_some.mp names).1
      rw [put, Table.get?_insert, if_neg (apart kind controller)]
    · rfl

/-- Of every controller kind but the resource's own a document names the last controller, and
has nothing when there is none. -/
theorem get?_identifying {kind : Kind} (controller : kind.isController) {field : Text}
    (other : Text.ofString kind.field ≠ field) (name uid space : Text)
    (refs : List OwnerReference) :
    Table.get? (identifying field name uid space refs) kind.field =
      (lastController refs kind).map Value.named := by
  have notSpace : Text.ofString kind.field ≠ "namespace" := by
    revert controller
    cases kind <;> decide
  have absent : Table.get? (if space = "" then
      [(field, Value.object [(nameField, .string name), ("uid", .string uid)])]
      else Table.insert [(field, Value.object [(nameField, .string name), ("uid", .string uid)])]
        "namespace" (.string space)) (kind.field : Text) = (none : Option Text).map Value.named := by
    split <;> simp [Table.get?_insert, Table.get?, Ne.symm other, Ne.symm notSpace]
  rw [identifying, get?_foldl_putOwner controller absent, Option.or_none]

/-- A controller of the same kind takes the name over and leaves the uid. -/
theorem get?_putOwner_own {d : Document} {kind : Kind} (controller : kind.isController)
    {name uid : Text} (own : Table.get? d kind.field = some (.identity name uid))
    (ref : OwnerReference) :
    Table.get? (d.putOwner ref) kind.field =
      some (.identity (if ref.names kind then ref.name else name) uid) := by
  by_cases names : ref.names kind
  · rw [putOwner_of_names controller names, if_pos names]
    simp [put, below, own, Value.identity, Table.insert]
  · rw [get?_putOwner_of_silent names, own, if_neg names]

theorem get?_foldl_putOwner_own {d : Document} {kind : Kind} (controller : kind.isController)
    {name uid : Text} (own : Table.get? d kind.field = some (.identity name uid))
    (refs : List OwnerReference) :
    Table.get? (refs.foldl putOwner d) kind.field =
      some (.identity ((lastController refs kind).getD name) uid) := by
  induction refs generalizing d name with
  | nil => exact own
  | cons ref rest ih =>
    rw [List.foldl_cons, ih (get?_putOwner_own controller own ref), lastController_cons]
    cases lastController rest kind <;> cases ref.names kind <;> rfl

/-- Under its own kind a document has the uid of the resource, and its name or that of a controller
of the same kind. -/
theorem get?_identifying_kind {kind : Kind} {space : Text}
    (settled : kind = .namespace → space = "") (name uid : Text) (refs : List OwnerReference) :
    Table.get? (identifying kind.field name uid space refs) kind.field =
      some (.identity ((namesake refs kind).getD name) uid) := by
  have start : Table.get? (if space = "" then
      [(Text.ofString kind.field, Value.object [(nameField, .string name), ("uid", .string uid)])]
      else Table.insert [(Text.ofString kind.field,
        Value.object [(nameField, .string name), ("uid", .string uid)])]
        "namespace" (.string space)) kind.field = some (.identity name uid) := by
    split
    · simp [Table.get?, Value.identity]
    · next inSpace =>
      have apart : ("namespace" : Text) ≠ Text.ofString kind.field := fun same =>
        inSpace (settled (Kind.textField_injective same.symm))
      rw [Table.get?_insert, if_neg apart]
      simp [Table.get?, Value.identity]
  rw [identifying, namesake]
  by_cases controller : kind.isController
  · rw [if_pos controller]
    exact get?_foldl_putOwner_own controller start refs
  · rw [if_neg controller, get?_foldl_putOwner_other]
    · exact start
    · intro other isController same
      rw [Kind.textField_injective same] at isController
      exact controller isController

end Document

namespace Draft

/-- Naming controllers in a draft of its own maps is naming them in the document it shows. -/
theorem putOwners_ofFields (refs : List OwnerReference) (d : Document) :
    putOwners refs (ofFields d) = pure (ofFields (refs.foldl Document.putOwner d)) := by
  induction refs generalizing d with
  | nil => rfl
  | cons ref rest ih =>
    have step : putOwner (ofFields d) ref = pure (ofFields (d.putOwner ref)) := by
      rw [putOwner, Document.putOwner]
      cases ref.controllerName? with
      | none => rfl
      | some owner => exact put_ofFields d [owner.1.field, nameField] (.string owner.2)
    rw [putOwners, List.foldlM_cons, step, LawfulMonad.pure_bind]
    exact ih (d.putOwner ref)

theorem insertText_ofFields (d : Document) (field text : Text) :
    insertText (ofFields d) field text =
      ofFields (if text = "" then d else Table.insert d field (.string text)) := by
  unfold insertText
  split
  · rfl
  · exact insert_ofFields d field (.string text)

/-- A section is put beside the other fields. -/
theorem get?_insertSection (d : Draft) (map : MetadataMap) (fields : Draft) {name : Text}
    (other : name ≠ map.field) : Table.get? (d.insertSection map fields) name = Table.get? d name := by
  rw [insertSection]
  split
  · rfl
  · rw [Table.get?_insert, if_neg (Ne.symm other)]

end Draft

/-- The native draft of a resource whose parts were read: what it says of the resource itself, with
the two sections beside it. -/
def Draft.assembled (field name uid space : Text) (refs : List OwnerReference)
    (labels annotations : Draft) : Draft :=
  (Draft.insertSection (ofFields (Document.identifying field name uid space refs)) .labels
    labels).insertSection .annotations annotations

/-- Beside its sections such a draft has the fields that it says of the resource itself. -/
theorem Draft.get?_assembled {key : Text} (outside : ∀ map : MetadataMap, key ≠ map.field)
    (field name uid space : Text) (refs : List OwnerReference) (labels annotations : Draft) :
    Table.get? (assembled field name uid space refs labels annotations) key =
      (Table.get? (Document.identifying field name uid space refs) key).map Node.ofValue := by
  rw [assembled, get?_insertSection _ _ _ (outside .annotations),
    get?_insertSection _ _ _ (outside .labels), get?_ofFields]

namespace Selection

def chosen (s : Selection) (map : MetadataMap) (entries : Entries) : Except Fault Fields :=
  match map with
  | .labels => s.chosenLabels entries
  | .annotations => .ok (s.chosenAnnotations entries)

def dedot (s : Selection) : MetadataMap → Bool
  | .labels => s.dedotLabels
  | .annotations => s.dedotAnnotations

end Selection

namespace Projector

def sectionOf (p : Projector) (r : Resource) (map : MetadataMap) : Drafting Draft := do
  let chosen ← p.selection.chosen map (← r.entries map)
  Draft.ofMap ⟨map, r⟩ (p.selection.dedot map) chosen

/-- The native draft is put together from its two sections and from what is read off the resource,
one after the other; what is asked for besides is adjusted at the end. -/
theorem native_eq (p : Projector) (field : Text) (r : Resource) (options : List FieldOption) :
    p.native field r options = (do
      let labels ← p.sectionOf r .labels
      let annotations ← p.sectionOf r .annotations
      let name ← r.name
      let uid ← r.uid
      let space ← r.space
      let refs ← r.ownerReferences
      Draft.adjustAll options
        (Draft.assembled field name uid space refs labels annotations)) := by
  -- Annotations are chosen without a fault.
  have ready (chosen : Fields) :
      (liftM (Except.ok chosen : Except Fault Fields) : Drafting Fields) = pure chosen := rfl
  unfold native
  simp only [sectionOf, Selection.chosen, ready, pure_bind, bind_assoc]
  refine bind_congr fun _ => bind_congr fun _ => bind_congr fun labels => bind_congr fun _ =>
    bind_congr fun annotations => bind_congr fun name => bind_congr fun uid =>
    bind_congr fun space => bind_congr fun refs => ?_
  have start := Draft.insertText_ofFields
    [(field, .object [(nameField, .string name), ("uid", .string uid)])] "namespace" space
  have whole := Draft.putOwners_ofFields refs (if space = "" then
    [(field, Value.object [(nameField, .string name), ("uid", .string uid)])]
    else Table.insert [(field, Value.object [(nameField, .string name), ("uid", .string uid)])]
      "namespace" (.string space))
  rw [← start] at whole
  exact congrArg (fun x => (liftM x : Drafting Draft) >>= _) whole

/-- A native draft that is not adjusted is put together from what is read off its resource. -/
theorem ensures_assembled (p : Projector) (field : Text) (r : Resource) :
    (p.native field r []).Ensures fun d => ∃ labels annotations name uid space refs,
      r.name = .ok name ∧ r.uid = .ok uid ∧ r.space = .ok space ∧ r.ownerReferences = .ok refs ∧
        d = Draft.assembled field name uid space refs labels annotations := by
  rw [native_eq]
  refine (Drafting.ensures_true _).bind fun labels _ => ?_
  refine (Drafting.ensures_true _).bind fun annotations _ => ?_
  refine (Drafting.ensures_lift_except r.name).bind fun name named => ?_
  refine (Drafting.ensures_lift_except r.uid).bind fun uid marked => ?_
  refine (Drafting.ensures_lift_except r.space).bind fun space home => ?_
  refine (Drafting.ensures_lift_except r.ownerReferences).bind fun refs owners => ?_
  exact Drafting.ensures_pure
    ⟨labels, annotations, name, uid, space, refs, named, marked, home, owners, rfl⟩

/-- What is asked for besides is adjusted at the end. -/
theorem native_adjusted (p : Projector) (field : Text) (r : Resource)
    (options : List FieldOption) :
    p.native field r options = (do Draft.adjustAll options (← p.native field r [])) := by
  rw [native_eq, native_eq]
  simp only [bind_assoc]
  rfl

end Projector

/-- The controller of a kind that counts among a resource's references, if they can be read. -/
def Resource.controller? (r : Resource) (kind : Kind) : Option Text :=
  match r.ownerReferences with
  | .ok refs => lastController refs kind
  | .error _ => none

theorem Resource.controller?_ne_empty {r : Resource} {kind : Kind} {name : Text}
    (h : r.controller? kind = some name) : name ≠ "" := by
  rw [controller?] at h
  cases hr : r.ownerReferences with
  | error fault =>
    rw [hr] at h
    cases h
  | ok refs =>
    rw [hr] at h
    exact lastController_ne_empty h

namespace Draft

def Node.named (name : Text) : Node := .ofValue (.named name)

/-- Of every controller kind but the resource's own a draft holds the name that `owners` gives and
nothing else, and has no field of the kind when it gives none. -/
def Names (d : Draft) (own : Kind) (owners : Kind → Option Text) : Prop :=
  ∀ kind : Kind, kind.isController → kind ≠ own →
    Table.get? d kind.field = (owners kind).map Node.named

theorem assembled_names {r : Resource} {refs : List OwnerReference}
    (hrefs : r.ownerReferences = .ok refs) (name uid space : Text) (labels annotations : Draft) :
    Names (assembled r.kind.field name uid space refs labels annotations) r.kind
      r.controller? := by
  intro kind controller other
  have apart : Text.ofString kind.field ≠ r.kind.field :=
    fun same => other (Kind.textField_injective same)
  have outside (map : MetadataMap) : Text.ofString kind.field ≠ map.field := by
    revert controller
    cases kind <;> cases map <;> decide
  rw [get?_assembled outside, Document.get?_identifying controller apart, Resource.controller?, hrefs,
    Option.map_map]
  rfl

end Draft

/-- Every native draft that is not adjusted names the resource's controllers. -/
theorem Projector.ensures_native (p : Projector) (r : Resource) :
    (p.native r.kind.field r []).Ensures fun d => d.Names r.kind r.controller? := by
  refine (p.ensures_assembled r.kind.field r).mono ?_
  rintro _ ⟨labels, annotations, name, uid, space, refs, -, -, -, owners, rfl⟩
  exact Draft.assembled_names owners name uid space labels annotations

end ClusterMetadata
