import ClusterMetadata.Proofs.NativeDraft

/-!
# What a namespace adds to the drafts of what it holds

* `ensures_merge`: merging leaves every field that the other draft does not have;
* `Peer.Inheriting`: a peer answers with nothing but the fields that are inherited;
* `ensures_nativeInSpace`: with such a peer a draft still names the resource's controllers.
-/
namespace ClusterMetadata

namespace Draft

/-- Two drafts have the same fields, but for some names. -/
def SameBut (names : Text → Prop) (d d' : Draft) : Prop :=
  ∀ name, ¬ names name → Table.get? d' name = Table.get? d name

theorem sameBut_insert {names : Text → Prop} {d d' : Draft} (h : SameBut names d d') {name : Text}
    (mem : names name) (node : Node) : SameBut names d (Table.insert d' name node) := by
  intro other notMem
  rw [Table.get?_insert]
  split
  · next same => exact absurd (same ▸ mem) notMem
  · exact h other notMem

/-- A map of a draft's own that differs from the draft in some fields at most. -/
def Map.OwnBut (names : Text → Prop) (d : Draft) (map : Map) : Prop :=
  ∃ d', map = .own d' ∧ SameBut names d d'

theorem ownBut_insert {names : Text → Prop} {d : Draft} {map : Map} (h : Map.OwnBut names d map)
    {name : Text} (mem : names name) (node : Node) :
    Drafting.Ensures (liftM (map.insert name node) : Drafting Map) (Map.OwnBut names d) := by
  obtain ⟨d', rfl, same⟩ := h
  apply Drafting.ensures_lift_shelf
  intro _
  exact ⟨_, rfl, sameBut_insert same mem node⟩

/-- Merging a map of its own over a draft keeps the fields that the map does not have. -/
theorem ensures_mergeTo (room : Nat) (d other : Draft) :
    (Map.mergeTo room (.own d) (.own other)).Ensures
      (Map.OwnBut (· ∈ Table.keys other) d) := by
  cases room with
  | zero => exact Drafting.ensures_fail
  | succ room =>
    rw [Map.mergeTo, Map.visit]
    refine Drafting.ensures_foldlM (fun target same field mem => ?_) ⟨d, rfl, fun _ _ => rfl⟩
    obtain ⟨name, node⟩ := field
    have key : name ∈ Table.keys other := List.mem_map_of_mem mem
    dsimp only
    split
    · split
      · exact ownBut_insert same key _
      · exact Drafting.ensures_fail
    · exact Drafting.ensures_pure same
    · refine (Drafting.ensures_true _).bind fun shelf _ => ?_
      split
      · refine (Drafting.ensures_true _).bind fun _ _ => ?_
        exact Drafting.ensures_pure same
      · refine (Drafting.ensures_true _).bind fun merged _ => ?_
        exact ownBut_insert same key _
      · refine (Drafting.ensures_true _).bind fun merged _ => ?_
        exact ownBut_insert same key _

theorem ensures_merge (d other : Draft) :
    (d.merge other).Ensures (SameBut (· ∈ Table.keys other) d) := by
  unfold merge
  refine (ensures_mergeTo _ d other).bind fun map same => ?_
  obtain ⟨d', rfl, same⟩ := same
  exact Drafting.ensures_pure same

end Draft

def inheritedFields : List Text :=
  ["namespace", "namespace_uid", "namespace_labels", "namespace_annotations"]

namespace Draft

def inheritSection (base d : Draft) (map : MetadataMap) : Draft :=
  match Table.get? base map.field with
  | some node => Table.insert d (Text.ofString "namespace_" ++ map.field) node
  | none => d

theorem keys_inheritable (space uid : Text) (base : Draft) :
    ∀ name ∈ Table.keys (Generator.inheritable space uid base), name ∈ inheritedFields := by
  have start : ∀ name ∈ Table.keys ([("namespace", .ofText space), ("namespace_uid", .ofText uid)] :
      Draft), name ∈ inheritedFields := by
    intro name mem
    simp only [Table.keys, List.map_cons, List.map_nil, List.mem_cons, List.not_mem_nil,
      or_false] at mem
    rcases mem with rfl | rfl <;> decide
  have step (d : Draft) (h : ∀ name ∈ Table.keys d, name ∈ inheritedFields)
      (map : MetadataMap) : ∀ name ∈ Table.keys (base.inheritSection d map),
        name ∈ inheritedFields := by
    intro name mem
    unfold inheritSection at mem
    split at mem
    · rw [Table.mem_keys_insert] at mem
      rcases mem with rfl | mem
      · cases map <;> decide
      · exact h name mem
    · exact h name mem
  exact step _ (step _ start .labels) .annotations

end Draft

/-- A peer whose answers have no fields but the inherited ones. -/
def Peer.Inheriting (peer : Peer) : Prop :=
  ∀ name options, (peer.ask name options).Ensures fun answer =>
    ∀ d, answer = some d → ∀ field ∈ Table.keys d, field ∈ inheritedFields

theorem kind_of_lookup {store : Option Store} {name : Text} {kind : Kind} {r : Resource}
    (h : lookup store name (some kind) = some r) : r.kind = kind := by
  rw [lookup] at h
  obtain ⟨s, -, h⟩ := Option.bind_eq_some_iff.mp h
  split at h
  · cases h
  · obtain ⟨r', -, h⟩ := Option.bind_eq_some_iff.mp h
    simp only [Option.ite_none_right_eq_some, Option.some.injEq] at h
    exact h.2 ▸ h.1

namespace Generator

theorem kind_of_stored {g : Generator} {name : Text} {r : Resource} (h : g.stored name = some r) :
    r.kind = g.kind := kind_of_lookup h

/-- A peer answers with the draft of the resource that is stored under the name, if one is. -/
theorem ensures_ask {g : Generator} {name : Text} {options : List FieldOption}
    {post : Option Draft → Prop} (missing : g.stored name = none → post none)
    (built : ∀ r, g.stored name = some r → (g.build r options).Ensures fun d => post (some d)) :
    (g.peer.ask name options).Ensures post := by
  change (g.draft (g.stored name) options).Ensures post
  cases hr : g.stored name with
  | none => exact Drafting.ensures_pure (missing hr)
  | some r =>
    rw [draft, if_pos (kind_of_stored hr), map_eq_pure_bind]
    exact (built r hr).bind fun _ => Drafting.ensures_pure

/-- The generator of namespaces answers with what is inherited. -/
theorem inheriting_forNamespaces (store : Option Store) (projector : Projector) :
    (forNamespaces store projector).peer.Inheriting := by
  intro name options
  refine ensures_ask (by rintro - d ⟨⟩) fun r _ => ?_
  refine (Drafting.ensures_true _).bind fun base _ => ?_
  refine (Drafting.ensures_true _).bind fun space _ => ?_
  refine (Drafting.ensures_true _).bind fun uid _ => ?_
  refine Drafting.ensures_pure ?_
  rintro d ⟨⟩
  exact Draft.keys_inheritable space uid base

end Generator

namespace Projector

/-- What a namespace adds leaves all other fields. -/
theorem ensures_mergeSpace {peer : Option Peer} (inheriting : ∀ p, peer = some p → p.Inheriting)
    (r : Resource) (d : Draft) :
    (mergeSpace peer r d).Ensures (Draft.SameBut (· ∈ inheritedFields) d) := by
  have kept : Draft.SameBut (· ∈ inheritedFields) d d := fun _ _ => rfl
  cases peer with
  | none => exact Drafting.ensures_pure kept
  | some p =>
    unfold mergeSpace
    refine (Drafting.ensures_true _).bind fun space _ => ?_
    split
    · exact Drafting.ensures_pure kept
    · refine (inheriting p rfl space []).bind fun answer fields => ?_
      split
      · next other =>
        refine (Draft.ensures_merge d other).mono fun d' same name notMem => ?_
        exact same name fun mem => notMem (fields other rfl name mem)
      · exact Drafting.ensures_pure kept

/-- A draft with what its namespace adds names the resource's controllers. -/
theorem ensures_nativeInSpace (p : Projector) {peer : Option Peer}
    (inheriting : ∀ p, peer = some p → p.Inheriting) (r : Resource) :
    (p.nativeInSpace peer r.kind.field r []).Ensures fun d => d.Names r.kind r.controller? := by
  unfold nativeInSpace
  refine (p.ensures_native r).bind fun d names => ?_
  refine (ensures_mergeSpace inheriting r d).mono fun d' same kind controller other => ?_
  have notInherited : Text.ofString kind.field ∉ inheritedFields := by
    revert controller
    cases kind <;> decide
  rw [same _ notInherited]
  exact names kind controller other

end Projector

end ClusterMetadata
