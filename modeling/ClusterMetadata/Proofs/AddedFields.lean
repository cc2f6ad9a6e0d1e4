import ClusterMetadata.Proofs.InStep
import ClusterMetadata.Proofs.OwnerChain

/-!
# What an added field changes

An added field is in the draft before the namespace is merged, the owners are looked up and the node
and the address are written. Where nothing but the option writes under its first name, all of these
steps go as they would without the option, and the document has the field and is the same besides.

* `Table.Beside`: a table has one entry more than another;
* `Draft.safePut_fresh`: a value put where nothing stands is one entry more;
* `inStep_nativeInSpace`, `inStep_takeHop`, `inStep_addNode`: each step keeps that entry;
* `native_adds_field`: so the documents of projectors, nodes, controllers and pods have the field.
  The document of a namespace does not have it.
-/
namespace ClusterMetadata

open Json (Value Fields)
open Drafting (InStep)

namespace Table

variable {κ ν : Type} [DecidableEq κ]

/-- The second table is the first with one entry more, under a key that the first does not have. -/
inductive Beside (key : κ) (value : ν) : Table κ ν → Table κ ν → Prop where
  | here {rest : Table κ ν} (fresh : get? rest key = none) : Beside key value rest ((key, value) :: rest)
  | later {t t' : Table κ ν} {entry : κ × ν} (other : entry.1 ≠ key) (h : Beside key value t t') :
    Beside key value (entry :: t) (entry :: t')

namespace Beside

variable {key : κ} {value : ν} {t t' : Table κ ν}

theorem get?_key (h : Beside key value t t') : get? t key = none ∧ get? t' key = some value := by
  induction h with
  | here fresh => exact ⟨fresh, by simp [get?]⟩
  | later other _ ih =>
    rw [get?, get?, if_neg other, if_neg other]
    exact ih

theorem get?_other (h : Beside key value t t') {other : κ} (apart : other ≠ key) :
    get? t' other = get? t other := by
  induction h with
  | here fresh => rw [get?, if_neg (Ne.symm apart)]
  | later _ _ ih => rw [get?, get?, ih]

theorem insert (h : Beside key value t t') {other : κ} (apart : other ≠ key) (v : ν) :
    Beside key value (Table.insert t other v) (Table.insert t' other v) := by
  induction h with
  | here fresh =>
    rw [Table.insert, if_neg (Ne.symm apart)]
    exact .here (by rw [get?_insert, if_neg apart, fresh])
  | later differs h ih =>
    rw [Table.insert, Table.insert]
    split
    · next same => exact .later differs h
    · exact .later differs ih

/-- A value under a new key. -/
theorem of_insert {t : Table κ ν} {key : κ} (fresh : get? t key = none) (value : ν) :
    Beside key value t (Table.insert t key value) := by
  induction t with
  | nil => exact .here rfl
  | cons entry rest ih =>
    obtain ⟨k, v⟩ := entry
    by_cases hk : k = key
    · rw [get?, if_pos hk] at fresh
      cases fresh
    · rw [get?, if_neg hk] at fresh
      rw [Table.insert, if_neg hk]
      exact .later hk (ih fresh)

end Beside

end Table

namespace Document

/-- What stands under the first name of a path when a value is put at the path and nothing stood
there. -/
def wrapped (v : Value) : Path → Value
  | [] => v
  | name :: rest => .object (put [] (name :: rest) v)

theorem put_fresh {d : Document} {name : Text} (fresh : Table.get? d name = none) (rest : Path)
    (v : Value) : put d (name :: rest) v = Table.insert d name (wrapped v rest) := by
  cases rest with
  | nil => rfl
  | cons next rest => rw [put, below, fresh, wrapped]

/-- A document is another one with a value put at a path, under a first name that was not there. -/
structure Adds (path : Path) (v : Value) (doc doc' : Document) : Prop where
  fresh : ∀ name ∈ path.head?, Table.get? doc name = none
  fields : ∀ name, Table.get? doc' name = Table.get? (put doc path v) name

theorem adds_of_beside {name : Text} {rest : Path} {v : Value} {doc doc' : Document}
    (h : Table.Beside name (wrapped v rest) doc doc') : Adds (name :: rest) v doc doc' := by
  constructor
  · rintro _ ⟨⟩
    exact h.get?_key.1
  · intro other
    rw [put_fresh h.get?_key.1, Table.get?_insert]
    split
    · next same => rw [← same, h.get?_key.2]
    · next apart => exact h.get?_other (Ne.symm apart)

end Document

namespace Draft

variable {name : Text} {v : Value} {d d' : Draft}

/-- A draft with one field more, which is not shared. -/
abbrev Beside (name : Text) (v : Value) : Draft → Draft → Prop := Table.Beside name (Node.ofValue v)

/-- A value put where nothing stands is one field more. -/
theorem safePut_fresh {d : Draft} (fresh : Table.get? d name = none) (rest : Path) (v : Value) :
    d.safePut (name :: rest) (.ofValue v) =
      pure (Table.insert d name (.ofValue (Document.wrapped v rest))) := by
  cases rest with
  | nil => rw [safePut, safePutHere_of_plain (by simp [fresh]), Document.wrapped]
  | cons next rest =>
    have below := safePut_ofFields [] (next :: rest) v
    rw [Document.safePut_empty] at below
    rw [safePut, within, fresh]
    exact congrArg (fun x : OnShelf Draft => do
      return Table.insert d name (.map (← x))) below

/-- Two drafts show alike, but for the field that one has more. -/
theorem shown_beside (shared : SharedMap → Option Value) (h : Beside name v d d') :
    Option.Rel (Table.Beside name v) (shownFields shared d) (shownFields shared d') := by
  induction h with
  | @here rest fresh =>
    rw [shownFields, shown_ofValue]
    cases hr : shownFields shared rest with
    | none => exact .none
    | some fields =>
      have absent : Table.get? fields name = none := by
        rw [get?_shownFields hr, fresh]
        rfl
      exact .some (.here absent)
  | @later d d' entry other _ ih =>
    obtain ⟨key, node⟩ := entry
    rw [shownFields, shownFields]
    generalize shownFields shared d = fields, shownFields shared d' = fields' at ih
    cases node.shown shared with
    | none => exact .none
    | some w =>
      cases ih with
      | none => exact .none
      | some beside => exact .some (.later other beside)

theorem ownerName?_beside (h : Beside name v d d') {kind : Kind}
    (other : Text.ofString kind.field ≠ name) (shelf : Shelf) :
    d'.ownerName? shelf kind = d.ownerName? shelf kind := by
  rw [ownerName?, ownerName?, at?, at?, h.get?_other other]

/-! ## The steps of a draft -/

theorem inStep_document (h : Beside name v d d') :
    InStep (Table.Beside name v) d.document d'.document := by
  apply Drafting.InStep.after (Drafting.ensures_true _)
  intro shelf _
  have showing := shown_beside shelf.shown h
  rw [shown, shown]
  generalize shownFields shelf.shown d = doc, shownFields shelf.shown d' = doc' at showing
  cases showing with
  | none => exact Drafting.inStep_fail _
  | some beside => exact Drafting.inStep_pure beside

/-- Writing under another name. -/
theorem inStep_put (h : Beside name v d d') {first : Text} (other : first ≠ name) (rest : Path)
    (node : Node) :
    InStep (Beside name v) (liftM (d.put (first :: rest) node) : Drafting Draft)
      (liftM (d'.put (first :: rest) node) : Drafting Draft) := by
  apply Drafting.inStep_lift_shelf
  intro shelf
  cases rest with
  | nil => exact ⟨h.insert other node, rfl⟩
  | cons next rest =>
    rw [put, put, within, within, h.get?_other other]
    cases Table.get? d first with
    | none => exact ⟨h.insert other _, rfl⟩
    | some below =>
      cases below with
      | shared m => exact ⟨h, rfl⟩
      | _ => exact ⟨h.insert other _, rfl⟩

theorem inStep_putText (h : Beside name v d d') {first : Text} (other : first ≠ name) (rest : Path)
    (text : Text) :
    InStep (Beside name v) (liftM (d.putText (first :: rest) text) : Drafting Draft)
      (liftM (d'.putText (first :: rest) text) : Drafting Draft) := by
  rw [putText, putText]
  split
  · exact Drafting.inStep_pure h
  · exact inStep_put h other rest _

/-- Two maps of two drafts' own, of which the second has one field more. -/
def Map.OwnBeside (name : Text) (v : Value) (map map' : Map) : Prop :=
  ∃ d d', map = .own d ∧ map' = .own d' ∧ Beside name v d d'

theorem inStep_mergeTo (h : Beside name v d d') {source : Draft}
    (apart : ∀ field ∈ Table.keys source, field ≠ name) (room : Nat) :
    InStep (Map.OwnBeside name v) (Map.mergeTo room (.own d) (.own source))
      (Map.mergeTo room (.own d') (.own source)) := by
  have written {d d' : Draft} (h : Beside name v d d') {field : Text} (other : field ≠ name)
      (node : Node) : InStep (Map.OwnBeside name v)
        (pure (Map.own (Table.insert d field node))) (pure (Map.own (Table.insert d' field node))) :=
    Drafting.inStep_pure ⟨_, _, rfl, rfl, h.insert other node⟩
  cases room with
  | zero => exact Drafting.inStep_fail _
  | succ room =>
    rw [Map.mergeTo, Map.visit, Map.mergeTo, Map.visit]
    refine Drafting.inStep_foldlM ?_ ⟨d, d', rfl, rfl, h⟩
    rintro _ _ ⟨d, d', rfl, rfl, h⟩ ⟨field, node⟩ mem
    have other : field ≠ name := apart field (List.mem_map_of_mem mem)
    dsimp only
    split
    · split
      · exact written h other _
      · exact Drafting.inStep_fail _
    · exact Drafting.inStep_pure ⟨d, d', rfl, rfl, h⟩
    · apply Drafting.InStep.after (Drafting.ensures_true _)
      intro shelf _
      rw [Map.get?, Map.get?, h.get?_other other]
      split
      · apply Drafting.InStep.after (Drafting.ensures_true _)
        intro _ _
        exact Drafting.inStep_pure ⟨d, d', rfl, rfl, h⟩
      · apply Drafting.InStep.after (Drafting.ensures_true _)
        intro merged _
        exact written h other _
      · apply Drafting.InStep.after (Drafting.ensures_true _)
        intro merged _
        exact written h other _

theorem inStep_merge (h : Beside name v d d') {source : Draft}
    (apart : ∀ field ∈ Table.keys source, field ≠ name) :
    InStep (Beside name v) (d.merge source) (d'.merge source) := by
  apply (inStep_mergeTo h apart _).bind
  rintro _ _ ⟨d, d', rfl, rfl, h⟩
  exact Drafting.inStep_pure h

theorem inStep_takeHop (h : Beside name v d d') (parts : PodParts) {hop : Hop}
    (via : Text.ofString hop.via.field ≠ name) (owner : Text.ofString hop.owner.field ≠ name) :
    InStep (Beside name v) (takeHop parts d hop) (takeHop parts d' hop) := by
  unfold takeHop
  split
  · split
    · apply Drafting.InStep.after (Drafting.ensures_true _)
      intro shelf _
      rw [ownerName?_beside h via]
      split
      · exact Drafting.inStep_pure h
      · apply Drafting.InStep.after (Drafting.ensures_true _)
        intro answer _
        apply Drafting.InStep.after (Drafting.ensures_true _)
        intro shelf _
        split
        · apply Drafting.InStep.after (Drafting.ensures_true _)
          intro _ _
          exact inStep_put h owner _ _
        · apply Drafting.InStep.after (Drafting.ensures_true _)
          intro _ _
          exact Drafting.inStep_pure h
    · exact Drafting.inStep_pure h
  · exact Drafting.inStep_pure h

theorem inStep_addNode (h : Beside name v d d') (other : Text.ofString Kind.node.field ≠ name)
    (node : Option Peer) (nodeName : Text) :
    InStep (Beside name v) (addNode node d nodeName) (addNode node d' nodeName) := by
  have named : InStep (Beside name v) (liftM (d.putName Kind.node.field nodeName) : Drafting Draft)
      (liftM (d'.putName Kind.node.field nodeName) : Drafting Draft) := inStep_put h other _ _
  have answered (answer : Option Draft) : InStep (Beside name v)
      (liftM (d.withNode nodeName answer) : Drafting Draft)
      (liftM (d'.withNode nodeName answer) : Drafting Draft) := by
    rw [withNode, withNode]
    split
    · exact named
    · exact named
    · exact Drafting.inStep_pure (h.insert other _)
  rw [addNode_eq, addNode_eq]
  split
  · exact Drafting.inStep_pure h
  · cases node with
    | none => exact answered none
    | some peer =>
      exact Drafting.InStep.after (Drafting.ensures_true _) fun answer _ => answered answer

end Draft

/-- The fields that generators write themselves. -/
def ownFields : List Text :=
  Kind.all.map (fun kind => Text.ofString kind.field) ++
    (["labels", "annotations", "namespace_uid", "namespace_labels", "namespace_annotations"] :
      List Text)

theorem field_mem_ownFields (kind : Kind) : Text.ofString kind.field ∈ ownFields := by
  cases kind <;> decide

namespace Document

theorem get?_identifying_of_notMem {name : Text} (outside : name ∉ ownFields) (kind : Kind)
    (ownName uid space : Text) (refs : List OwnerReference) :
    Table.get? (identifying kind.field ownName uid space refs) name = none := by
  have apart (kind : Kind) : Text.ofString kind.field ≠ name := fun same =>
    outside (same ▸ field_mem_ownFields kind)
  have start : Table.get? (if space = "" then
      [(Text.ofString kind.field, Value.object [(nameField, .string ownName), ("uid", .string uid)])]
      else Table.insert [(Text.ofString kind.field,
        Value.object [(nameField, .string ownName), ("uid", .string uid)])]
        "namespace" (.string space)) name = none := by
    have notSpace : ("namespace" : Text) ≠ name := apart .namespace
    split <;> simp [Table.get?_insert, Table.get?, apart kind, notSpace]
  rw [identifying, get?_foldl_putOwner_other fun kind _ => apart kind]
  exact start

end Document

namespace Projector

/-- A draft without options has no field that generators do not write. -/
theorem ensures_native_fields (p : Projector) (kind : Kind) (r : Resource) {name : Text}
    (outside : name ∉ ownFields) :
    (p.native kind.field r []).Ensures fun d => Table.get? d name = none := by
  have apart (map : MetadataMap) : name ≠ map.field := by
    rintro rfl
    revert outside
    cases map <;> decide
  refine (p.ensures_assembled kind.field r).mono ?_
  rintro _ ⟨labels, annotations, ownName, uid, space, refs, -, -, -, -, rfl⟩
  rw [Draft.get?_assembled apart, Document.get?_identifying_of_notMem outside]
  rfl

variable {key : Text} {name : Text} {rest : Path}

/-- The option writes one field into a draft that does not have it. -/
theorem native_added (path : Path.ofKey key = name :: rest) (outside : name ∉ ownFields)
    (p : Projector) (kind : Kind) (r : Resource) (v : Value) :
    p.native kind.field r [.field key v] = (do
      return Table.insert (← p.native kind.field r []) name
        (.ofValue (Document.wrapped v rest))) := by
  rw [native_adjusted]
  refine Drafting.bind_congr_of_ensures (p.ensures_native_fields kind r outside) fun d fresh => ?_
  have added : Draft.adjustAll [.field key v] d =
      pure (Table.insert d name (.ofValue (Document.wrapped v rest))) := by
    rw [← Draft.safePut_fresh fresh, ← path]
    exact bind_pure _
  rw [added]
  rfl

/-- The native draft with a field added has one field more. -/
theorem inStep_native (path : Path.ofKey key = name :: rest) (outside : name ∉ ownFields)
    (p : Projector) (kind : Kind) (r : Resource) (v : Value) :
    InStep (Draft.Beside name (Document.wrapped v rest)) (p.native kind.field r [])
      (p.native kind.field r [.field key v]) := by
  rw [native_added path outside]
  conv => arg 2; rw [← bind_pure (p.native kind.field r [])]
  apply Drafting.InStep.after (p.ensures_native_fields kind r outside)
  intro d fresh
  exact Drafting.inStep_pure (.of_insert fresh _)

theorem inStep_nativeInSpace (path : Path.ofKey key = name :: rest) (outside : name ∉ ownFields)
    (p : Projector) {peer : Option Peer} (inheriting : ∀ p, peer = some p → p.Inheriting)
    (kind : Kind) (r : Resource) (v : Value) :
    InStep (Draft.Beside name (Document.wrapped v rest)) (p.nativeInSpace peer kind.field r [])
      (p.nativeInSpace peer kind.field r [.field key v]) := by
  apply (inStep_native path outside p kind r v).bind
  intro d d' beside
  cases peer with
  | none => exact Drafting.inStep_pure beside
  | some peer =>
    apply Drafting.InStep.after (Drafting.ensures_true _)
    intro space _
    split
    · exact Drafting.inStep_pure beside
    · apply Drafting.InStep.after (inheriting peer rfl space [])
      intro answer inherited
      split
      · next other =>
        apply Draft.inStep_merge beside
        rintro field mem rfl
        have own : ∀ field ∈ inheritedFields, field ∈ ownFields := by decide
        exact outside (own field (inherited other rfl field mem))
      · exact Drafting.inStep_pure beside

end Projector

namespace Generator

/-- Documents are shown in step when drafts are made in step. -/
theorem inStep_generator {g : Generator} {name : Text} {rest : Path} {v : Value}
    {options : List FieldOption}
    (built : ∀ r, InStep (Draft.Beside name (Document.wrapped v rest)) (g.build r [])
      (g.build r options)) (r : Option Resource) :
    InStep (Option.Rel (Document.Adds (name :: rest) v)) (g.native r []) (g.native r options) := by
  cases r with
  | none => exact Drafting.inStep_pure .none
  | some r =>
    by_cases kind : r.kind = g.kind
    · rw [native_of_kind kind, native_of_kind kind]
      apply (built r).bind
      intro d d' beside
      apply (Draft.inStep_document beside).bind
      intro doc doc' added
      exact Drafting.inStep_pure (.some (Document.adds_of_beside added))
    · rw [native, native, draft, draft, if_neg kind, if_neg kind]
      exact Drafting.inStep_pure .none

/-- Only the sections of a namespace's draft are taken over, so a field added to it is lost. -/
theorem native_forNamespaces_added {key : Text} {name : Text} {rest : Path}
    (path : Path.ofKey key = name :: rest) (outside : name ∉ ownFields) (store : Option Store)
    (p : Projector) (v : Value) (r : Option Resource) :
    (forNamespaces store p).native r [.field key v] = (forNamespaces store p).native r [] := by
  have kept (space uid : Text) (d : Draft) (node : Draft.Node) :
      inheritable space uid (Table.insert d name node) = inheritable space uid d := by
    have apart (map : MetadataMap) : name ≠ map.field := by
      rintro rfl
      revert outside
      cases map <;> decide
    simp only [inheritable, inheritedSections, List.foldl_cons, List.foldl_nil, Table.get?_insert,
      if_neg (apart _)]
  have built (r : Resource) : (forNamespaces store p).build r [.field key v] =
      (forNamespaces store p).build r [] := by
    simp only [forNamespaces, Projector.native_added path outside, bind_assoc,
      LawfulMonad.pure_bind, kept]
  cases r with
  | none => rfl
  | some r => rw [native, native, draft, draft, built]

end Generator

/-- An added field whose first name generators do not write themselves is in the documents of
projectors, nodes, controllers and pods, which fail and report as they do without it and are the
same besides. A namespace's document does not have it. -/
theorem native_adds_field {key : Text}
    (outside : ∀ name ∈ (Path.ofKey key).head?, name ∉ ownFields) (v : Value)
    {space : Option Peer}
    (genuine : ∀ peer ∈ space, ∃ store projector,
      peer = (Generator.forNamespaces store projector).peer) :
    (∀ (p : Projector) r, InStep (Document.Adds (Path.ofKey key) v)
      (p.document space r.kind.field r []) (p.document space r.kind.field r [.field key v])) ∧
    (∀ store p r, InStep (Option.Rel (Document.Adds (Path.ofKey key) v))
      ((Generator.forNodes store p).native r [])
      ((Generator.forNodes store p).native r [.field key v])) ∧
    (∀ kind store p r, InStep (Option.Rel (Document.Adds (Path.ofKey key) v))
      ((Generator.forControllers kind store p space).native r [])
      ((Generator.forControllers kind store p space).native r [.field key v])) ∧
    (∀ parts : PodParts, ∀ r, InStep (Option.Rel (Document.Adds (Path.ofKey key) v))
      ((Generator.forPods { parts with space }).native r [])
      ((Generator.forPods { parts with space }).native r [.field key v])) ∧
    ∀ store p r, (Generator.forNamespaces store p).native r [.field key v] =
      (Generator.forNamespaces store p).native r [] := by
  have inheriting : ∀ peer, space = some peer → peer.Inheriting := by
    rintro peer here
    obtain ⟨store, projector, rfl⟩ := genuine peer here
    exact Generator.inheriting_forNamespaces store projector
  cases path : Path.ofKey key with
  | nil =>
    have pieces := Text.pieces_ne_nil (.ofChar '.') key.points
    exact absurd (List.map_eq_nil_iff.mp path) pieces
  | cons name rest =>
    replace outside : name ∉ ownFields := outside name (by rw [path]; rfl)
    have apart (kind : Kind) : Text.ofString kind.field ≠ name := fun same =>
      outside (same ▸ field_mem_ownFields kind)
    have inSpace (p : Projector) (kind : Kind) (r : Resource) :=
      p.inStep_nativeInSpace path outside inheriting kind r v
    refine ⟨fun p r => ?_, fun store p r => ?_, fun kind store p r => ?_, fun parts r => ?_,
      fun store p r => ?_⟩
    · apply (inSpace p r.kind r).bind
      intro d d' beside
      exact (Draft.inStep_document beside).mono fun _ _ => Document.adds_of_beside
    · apply Generator.inStep_generator
      intro r
      apply (p.inStep_native path outside .node r v).bind
      intro d d' beside
      apply Drafting.InStep.after (Drafting.ensures_true _)
      intro hostname _
      exact Draft.inStep_putText beside (apart .node) _ hostname
    · exact Generator.inStep_generator (fun r => inSpace p kind r) r
    · apply Generator.inStep_generator
      intro r
      apply (inSpace parts.projector .pod r).bind
      intro d d' beside
      apply (Draft.inStep_takeHop beside _ (apart _) (apart _)).bind
      intro d d' beside
      apply (Draft.inStep_takeHop beside _ (apart _) (apart _)).bind
      intro d d' beside
      apply Drafting.InStep.after (Drafting.ensures_true _)
      intro nodeName _
      apply (Draft.inStep_addNode beside (apart .node) _ nodeName).bind
      intro d d' beside
      apply Drafting.InStep.after (Drafting.ensures_true _)
      intro address _
      exact Draft.inStep_putText beside (apart .pod) _ address
    · exact Generator.native_forNamespaces_added path outside store p v r

/-- The document of a pod gets the field that an option adds. -/
theorem native_adds_team :
    ∃ doc doc', ("team" : Text) ∉ ownFields ∧
      ((Generator.forPods { space := some (Generator.forNamespaces none {}).peer }).native
        (some webPod) [] {}).1.result = .ok (some doc) ∧
      ((Generator.forPods { space := some (Generator.forNamespaces none {}).peer }).native
        (some webPod) [.field "team.name" (.string "x")] {}).1.result = .ok (some doc') ∧
      Document.Adds ["team", "name"] (.string "x") doc doc' := by
  have genuine : ∀ peer ∈ some (Generator.forNamespaces none {}).peer, ∃ store projector,
      peer = (Generator.forNamespaces store projector).peer := by
    rintro _ ⟨⟩
    exact ⟨_, _, rfl⟩
  have path : Path.ofKey "team.name" = (["team", "name"] : Path) := by decide
  have outside : ∀ name ∈ (Path.ofKey "team.name").head?, name ∉ ownFields := by decide
  have made : ((Generator.forPods { space := some (Generator.forNamespaces none {}).peer }).native
      (some webPod) [] {}).1.result.toOption.join.isSome := by decide +kernel
  obtain ⟨-, -, -, pods, -⟩ := native_adds_field outside (.string "x") genuine
  have ended := pods {} (some webPod) {}
  rw [path] at ended
  generalize (Generator.forPods { space := some (Generator.forNamespaces none {}).peer }).native
    (some webPod) [] {} = run at ended made
  generalize (Generator.forPods { space := some (Generator.forNamespaces none {}).peer }).native
    (some webPod) [.field "team.name" (.string "x")] {} = run' at ended
  cases ended with
  | fault => cases made
  | results trace left same =>
    cases same with
    | none => cases made
    | some added => exact ⟨_, _, by decide, rfl, rfl, added⟩

end ClusterMetadata
