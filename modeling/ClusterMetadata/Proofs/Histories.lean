import Mathlib.Algebra.GroupWithZero.Nat
import Mathlib.Data.Finset.Card
import Mathlib.Data.Finset.Dedup
import ClusterMetadata.Proofs.Loading

/-!
# What a cluster holds of the objects that were added to it

Objects are added one after the other, and each of them may be refused.

* `addObject_refused`: a refused object leaves the cluster as it was, but for the empty store of a
  kind that belongs to the whole cluster;
* `History`: a cluster with the resources that were filed in it, in order;
* `kept_ofObjects`: the last resource of every identity stands in its place, and nothing else does;
* `holds_ofObjects`: what follows for the stores of each namespace and for their number of objects.
-/
namespace ClusterMetadata

/-- One member more is a new one or was there. -/
theorem card_append_singleton {α : Type} [DecidableEq α] (as : List α) (a : α) :
    (as ++ [a]).toFinset.card = as.toFinset.card + if a ∈ as then 0 else 1 := by
  have grown : (as ++ [a]).toFinset = insert a as.toFinset := by
    rw [List.toFinset_append, Finset.union_comm]
    rfl
  rw [grown, Finset.card_insert_eq_ite]
  simp only [List.mem_toFinset]
  split <;> rfl

/-- The last member of a list that is longer by one. -/
theorem find?_reverse_append {α : Type} (p : α → Bool) (as : List α) (a : α) :
    (as ++ [a]).reverse.find? p = if p a then some a else as.reverse.find? p := by
  rw [List.reverse_append, List.reverse_singleton, List.singleton_append, List.find?_cons]
  cases p a <;> rfl

namespace Table

variable {κ ν : Type} [DecidableEq κ]

/-- Writing changes a sum over the values by the new value less the one that it replaces. -/
theorem sum_insert (f : ν → Nat) (t : Table κ ν) (key : κ) (value : ν) :
    ((insert t key value).map fun entry => f entry.2).sum + ((get? t key).map f).getD 0 =
      (t.map fun entry => f entry.2).sum + f value := by
  induction t with
  | nil => simp [insert]
  | cons entry rest ih =>
    obtain ⟨k, v⟩ := entry
    by_cases hk : k = key
    · simp only [insert, if_pos hk, get?, List.map_cons, List.sum_cons, Option.map_some,
        Option.getD_some]
      omega
    · simp only [insert, if_neg hk, get?, List.map_cons, List.sum_cons]
      omega

/-- A new key makes the table longer by one entry. -/
theorem length_insert (t : Table κ ν) (key : κ) (value : ν) :
    (insert t key value).length = t.length + if (get? t key).isSome then 0 else 1 := by
  have counted := sum_insert (fun _ => 1) t key value
  simp only [List.map_const', List.sum_replicate_nat, Nat.mul_one] at counted
  cases h : get? t key <;> simp [h] at counted ⊢ <;> omega

end Table

namespace Stores

def size (stores : Stores) : Nat := (stores.map fun entry => entry.2.size).sum

theorem find?_eq_some {stores : Stores} {kind : Kind} {name : Text} {r : Resource} :
    stores.find? kind name = some r ↔
      ∃ store, Table.get? stores kind = some store ∧ store.get? name = some r := by
  rw [find?, store]
  cases Table.get? stores kind <;> simp [Store.get?]

theorem size_store (stores : Stores) (kind : Kind) :
    (stores.store kind).size = ((Table.get? stores kind).map Store.size).getD 0 := by
  rw [store]
  cases Table.get? stores kind <;> rfl

/-- A store that takes the place of a kind's store changes the number of resources by its own. -/
theorem size_insert (stores : Stores) (kind : Kind) (store : Store) :
    Stores.size (Table.insert stores kind store) + (stores.store kind).size =
      stores.size + store.size := by
  rw [size_store]
  exact Table.sum_insert Store.size stores kind store

/-- A name that is new makes one resource more. -/
theorem size_file (stores : Stores) {r : Resource} {name : Text} (named : r.name = .ok name) :
    Stores.size (stores.file r).2 =
      stores.size + if (stores.find? r.kind name).isSome then 0 else 1 := by
  rw [file_of_name stores named]
  have whole := size_insert stores r.kind { stores.store r.kind with
    objects := Table.insert (stores.store r.kind).objects name r }
  have own := Table.length_insert (stores.store r.kind).objects name r
  have found : Table.get? (stores.store r.kind).objects name = stores.find? r.kind name := rfl
  rw [found] at own
  simp only [Store.size] at whole
  dsimp only
  omega

theorem size_file_of_fault (stores : Stores) {r : Resource} {fault : Fault}
    (unnamed : r.name = .error fault) : Stores.size (stores.file r).2 = stores.size := by
  rw [file_of_fault stores unnamed]
  have whole := size_insert stores r.kind (stores.store r.kind)
  dsimp only
  omega

end Stores

namespace Cluster

def size (c : Cluster) : Nat :=
  c.shared.size + (c.spaces.map fun entry => Stores.size entry.2).sum

/-- Stores that take the place of a namespace's stores change the number of resources by their
own. -/
theorem size_insertSpace (c : Cluster) (space : Text) (stores : Stores) :
    Cluster.size { c with spaces := Table.insert c.spaces space stores } +
      (c.storesOf space).size = c.size + stores.size := by
  have before : (c.storesOf space).size =
      ((Table.get? c.spaces space).map Stores.size).getD 0 := by
    rw [storesOf]
    cases Table.get? c.spaces space <;> rfl
  have whole := Table.sum_insert Stores.size c.spaces space stores
  simp only [size, before]
  omega

/-- A resource with an identity is filed, and the answer says whether the identity is new. -/
theorem add_of_identity (c : Cluster) {r : Resource} {id : Identity} (h : r.identity = .ok id) :
    (c.add r).1 = .ok (c.find? id).isNone ∧
      (c.add r).2.size = c.size + if (c.find? id).isSome then 0 else 1 := by
  obtain ⟨kind, home, named⟩ := Resource.identity_eq_ok.mp h
  obtain ⟨idKind, idSpace, idName⟩ := id
  simp only at kind home named
  subst kind
  cases namespaced : r.kind.isNamespaced with
  | true =>
    have found : c.find? ⟨r.kind, idSpace, idName⟩ =
        (c.storesOf idSpace).find? r.kind idName := by simp only [find?, namespaced, if_true]
    have filed := Stores.size_file (c.storesOf idSpace) named
    have whole := c.size_insertSpace idSpace ((c.storesOf idSpace).file r).2
    rw [add_of_space c namespaced home, found]
    refine ⟨by rw [Stores.file_of_name _ named], ?_⟩
    dsimp only
    omega
  | false =>
    rw [Resource.space_of_shared namespaced] at home
    cases home
    have found : c.find? ⟨r.kind, "", idName⟩ = Stores.find? c.shared r.kind idName := by
      simp only [find?, namespaced, Bool.false_eq_true, if_false, if_true]
    have filed := Stores.size_file c.shared named
    rw [add_of_shared c namespaced, found]
    refine ⟨by rw [Stores.file_of_name _ named], ?_⟩
    simp only [size]
    omega

/-- A resource without an identity does not change the number of resources. -/
theorem size_add_of_fault (c : Cluster) {r : Resource} {fault : Fault}
    (h : r.identity = .error fault) : (c.add r).2.size = c.size := by
  rcases add_unidentified c h with ⟨fault, -, after⟩ | ⟨fault, -, unnamed, after⟩
  · rw [after]
  · have same := Stores.size_file_of_fault c.shared unnamed
    rw [Stores.file_of_fault c.shared unnamed] at same
    rw [after]
    simp only [size, same]

/-- Only a resource with an identity is filed. -/
theorem addObject_eq_ok {c : Cluster} {object : Option Resource} {isNew : Bool} :
    (c.addObject object).1 = .ok isNew ↔
      ∃ r id, object = some r ∧ r.identity = .ok id ∧ (c.find? id).isNone = isNew := by
  constructor
  · intro filed
    cases object with
    | none => cases filed
    | some r =>
      have answer : (c.add r).1 = .ok isNew := filed
      cases h : r.identity with
      | error fault =>
        obtain ⟨⟨fault', refused⟩, -⟩ := find?_add_of_fault c h
        rw [refused] at answer
        cases answer
      | ok id =>
        rw [(add_of_identity c h).1] at answer
        exact ⟨r, id, rfl, h, Except.ok.inj answer⟩
  · rintro ⟨r, id, rfl, h, rfl⟩
    exact (add_of_identity c h).1

/-- A resource that is refused has no identity. -/
theorem unidentified {c : Cluster} {r : Resource} {fault : Fault}
    (refused : (c.add r).1 = .error fault) : ∃ fault, r.identity = .error fault := by
  cases h : r.identity with
  | error fault => exact ⟨fault, rfl⟩
  | ok id =>
    rw [(add_of_identity c h).1] at refused
    cases refused

/-- A refused object takes no resource away and brings none. -/
theorem find?_refused {c : Cluster} {object : Option Resource} {fault : Fault}
    (refused : (c.addObject object).1 = .error fault) :
    (∀ id, (c.addObject object).2.find? id = c.find? id) ∧
      (c.addObject object).2.size = c.size := by
  cases object with
  | none => exact ⟨fun _ => rfl, rfl⟩
  | some r =>
    obtain ⟨fault', h⟩ := unidentified refused
    exact ⟨(find?_add_of_fault c h).2, size_add_of_fault c h⟩

theorem filed_addObject {c : Cluster} (filed : c.Filed) (object : Option Resource) :
    (c.addObject object).2.Filed := by
  cases object with
  | none => exact filed
  | some r => exact filed_add filed r

/-- What stands in a store of a namespace. -/
theorem found_inSpace {c : Cluster} (filed : c.Filed) {space : Text} {kind : Kind} {store : Store}
    (own : Table.get? (c.storesOf space) kind = some store) {name : Text} {r : Resource}
    (there : store.get? name = some r) :
    kind.isNamespaced = true ∧ c.find? ⟨kind, space, name⟩ = some r := by
  have namespaced := (filed.spaces space).kinds own
  refine ⟨namespaced, ?_⟩
  rw [find?, if_pos namespaced]
  exact Stores.find?_eq_some.mpr ⟨store, own, there⟩

/-- What stands in a store that all namespaces share. -/
theorem found_shared {c : Cluster} (filed : c.Filed) {kind : Kind} {store : Store}
    (own : Table.get? c.shared kind = some store) {name : Text} {r : Resource}
    (there : store.get? name = some r) :
    kind.isNamespaced = false ∧ c.find? ⟨kind, "", name⟩ = some r := by
  have shared := filed.shared.kinds own
  refine ⟨shared, ?_⟩
  rw [find?, if_neg (by simp [shared]), if_pos rfl]
  exact Stores.find?_eq_some.mpr ⟨store, own, there⟩

/-- What belongs to the whole cluster has no namespace and stands in a shared store. -/
theorem of_find?_shared {c : Cluster} {id : Identity} (shared : id.kind.isNamespaced = false)
    {r : Resource} (found : c.find? id = some r) :
    id.space = "" ∧ Stores.find? c.shared id.kind id.name = some r := by
  rw [find?, if_neg (by simp [shared])] at found
  split at found
  · next root => exact ⟨root, found⟩
  · cases found

/-- A generator of a namespace reads each store of the namespace and each shared one. -/
theorem storesFor_union {c : Cluster} (filed : c.Filed) (space : Text) (kind : Kind)
    (store : Store) : Table.get? (c.storesFor space) kind = some store ↔
      Table.get? (c.storesOf space) kind = some store ∨ Table.get? c.shared kind = some store := by
  rw [get?_storesFor filed]
  cases namespaced : kind.isNamespaced with
  | true => simp [filed.shared.absent (show kind.isNamespaced ≠ false by rw [namespaced]; nofun)]
  | false =>
    simp [(filed.spaces space).absent (show kind.isNamespaced ≠ true by rw [namespaced]; nofun)]

/-- A resource stands in a store that a generator of a namespace reads when it is filed in the
namespace or in the cluster as a whole. -/
theorem mem_storesFor {c : Cluster} (filed : c.Filed) (space : Text) (r : Resource) :
    (∃ kind store name, Table.get? (c.storesFor space) kind = some store ∧
        store.get? name = some r) ↔
      ∃ id, c.find? id = some r ∧ (id.kind.isNamespaced = true → id.space = space) := by
  constructor
  · rintro ⟨kind, store, name, read, there⟩
    rcases (storesFor_union filed space kind store).mp read with own | own
    · exact ⟨_, (found_inSpace filed own there).2, fun _ => rfl⟩
    · obtain ⟨shared, found⟩ := found_shared filed own there
      exact ⟨_, found, fun namespaced => absurd namespaced (by rw [shared]; nofun)⟩
  · rintro ⟨⟨kind, home, name⟩, found, same⟩
    have scope : kind.scope space = home := by
      rw [Kind.scope]
      cases namespaced : kind.isNamespaced with
      | true => exact (same namespaced).symm
      | false => exact (of_find?_shared namespaced found).1.symm
    rw [← scope, ← bind_storesFor filed] at found
    obtain ⟨store, read, there⟩ := Option.bind_eq_some_iff.mp found
    exact ⟨kind, store, name, read, there⟩

theorem storesOf_of_get? {c : Cluster} {space : Text} {stores : Stores}
    (own : Table.get? c.spaces space = some stores) : c.storesOf space = stores := by
  rw [storesOf, own]
  rfl

/-- An object that is refused leaves the cluster as it was. The one exception is a resource of a
kind that belongs to the whole cluster and has no store yet: an empty store of the kind is left. -/
theorem addObject_refused {c : Cluster} {object : Option Resource} {fault : Fault}
    (refused : (c.addObject object).1 = .error fault) :
    (c.addObject object).2 = c ∨
      ∃ r, object = some r ∧ r.kind.isNamespaced = false ∧ Table.get? c.shared r.kind = none ∧
        (c.addObject object).2 = { c with shared := c.shared ++ [(r.kind, {})] } := by
  cases object with
  | none => exact .inl rfl
  | some r =>
    obtain ⟨fault', h⟩ := unidentified refused
    rcases add_unidentified c h with ⟨_, -, after⟩ | ⟨_, shared, -, after⟩
    · exact .inl (congrArg Prod.snd after)
    · have left : (c.addObject (some r)).2 =
          { c with shared := Table.insert c.shared r.kind (Stores.store c.shared r.kind) } :=
        congrArg Prod.snd after
      rw [left]
      cases stored : Table.get? c.shared r.kind with
      | some store =>
        have own : Stores.store c.shared r.kind = store := by rw [Stores.store, stored]; rfl
        exact .inl (by rw [own, Table.insert_get? stored])
      | none =>
        have own : Stores.store c.shared r.kind = {} := by rw [Stores.store, stored]; rfl
        exact .inr ⟨r, rfl, shared, stored, by rw [own, Table.insert_of_none stored]⟩

def unreadableNode : Resource :=
  ⟨.node, 0, .object [("kind", .string "Node"), ("metadata", .int 5)]⟩

/-- A cluster without nodes is not what it was after such a node is refused. -/
theorem addObject_refused_node :
    (Cluster.addObject {} (some unreadableNode)).1 = .error .notAnObject ∧
      (Cluster.addObject {} (some unreadableNode)).2.shared = [(Kind.node, {})] := by
  have refused : (Cluster.addObject {} (some unreadableNode)).1 = .error .notAnObject := rfl
  refine ⟨refused, ?_⟩
  rcases addObject_refused refused with same | ⟨r, own, -, -, left⟩
  · exact absurd (congrArg Cluster.shared same) nofun
  · cases own
    exact congrArg Cluster.shared left

end Cluster

/-- A cluster with the resources that were filed in it and not refused, in order. -/
structure History where
  filed : List Resource := []
  cluster : Cluster := {}

namespace History

/-- Adds an object, which is noted unless it is refused. -/
def add (h : History) (object : Option Resource) : History where
  filed :=
    match (h.cluster.addObject object).1 with
    | .ok _ => h.filed ++ object.toList
    | .error _ => h.filed
  cluster := (h.cluster.addObject object).2

def ofObjects (objects : List (Option Resource)) : History := objects.foldl add {}

/-- The identities that were filed, in order and as often as they were. -/
def identities (h : History) : List Identity := h.filed.filterMap fun r => r.identity.toOption

theorem mem_identities {h : History} {id : Identity} :
    id ∈ h.identities ↔ ∃ r ∈ h.filed, r.identity = .ok id := by
  rw [identities, List.mem_filterMap]
  refine exists_congr fun r => and_congr_right fun _ => ?_
  cases r.identity <;> simp [Except.toOption]

/-- What adding one object can do: a resource with an identity is filed, and any other object is
refused. -/
theorem add_cases (h : History) (object : Option Resource) :
    (∃ r id, object = some r ∧ r.identity = .ok id ∧
      h.add object = ⟨h.filed ++ [r], (h.cluster.add r).2⟩) ∨
    ∃ fault, (h.cluster.addObject object).1 = .error fault ∧
      h.add object = ⟨h.filed, (h.cluster.addObject object).2⟩ := by
  cases answer : (h.cluster.addObject object).1 with
  | ok isNew =>
    obtain ⟨r, id, rfl, own, -⟩ := Cluster.addObject_eq_ok.mp answer
    exact .inl ⟨r, id, rfl, own, by rw [add, answer]; rfl⟩
  | error fault => exact .inr ⟨fault, rfl, by rw [add, answer]⟩

/-- Every resource stands under its own identity, the last one that has it, and each identity
stands once. -/
structure Kept (h : History) : Prop where
  filed : h.cluster.Filed
  last : ∀ id, h.cluster.find? id = h.filed.reverse.find? (·.has id)
  size : h.cluster.size = h.identities.toFinset.card

namespace Kept

variable {h : History} (kept : h.Kept)
include kept

/-- What is found is what was filed. -/
theorem isSome_find? (id : Identity) : (h.cluster.find? id).isSome ↔ id ∈ h.identities := by
  rw [kept.last, List.find?_isSome, mem_identities]
  simp only [List.mem_reverse, Resource.has_iff]

theorem isNone_find? (id : Identity) :
    (h.cluster.find? id).isNone = true ↔ ∀ r ∈ h.filed, r.identity ≠ .ok id := by
  rw [← Option.not_isSome, Bool.not_eq_true', ← Bool.not_eq_true, kept.isSome_find?,
    mem_identities]
  simp only [not_exists, not_and, ne_eq]

theorem add (object : Option Resource) : (h.add object).Kept := by
  rcases h.add_cases object with ⟨r, id, rfl, own, after⟩ | ⟨fault, refused, after⟩
  · rw [after]
    refine ⟨Cluster.filed_add kept.filed r, fun other => ?_, ?_⟩
    · have mine : r.has other = decide (id = other) := by
        rw [Bool.eq_iff_iff, Resource.has_iff, own, Except.ok.injEq, decide_eq_true_iff]
      rw [Cluster.find?_add _ own, kept.last, find?_reverse_append, mine]
      simp only [decide_eq_true_eq]
    · have more : identities ⟨h.filed ++ [r], (h.cluster.add r).2⟩ = h.identities ++ [id] := by
        simp [identities, own, Except.toOption]
      have counted := (h.cluster.add_of_identity own).2
      rw [more, card_append_singleton, counted, kept.size]
      simp only [kept.isSome_find?]
  · obtain ⟨same, size⟩ := Cluster.find?_refused refused
    rw [after]
    exact ⟨Cluster.filed_addObject kept.filed object, fun id => (same id).trans (kept.last id),
      size.trans kept.size⟩

end Kept

/-- Whatever is added, in whatever order. -/
theorem kept_ofObjects (objects : List (Option Resource)) : (ofObjects objects).Kept := by
  have start : History.Kept {} := by
    refine ⟨Cluster.filed_empty, fun id => ?_, rfl⟩
    simp [Cluster.find?, Cluster.storesOf, Stores.find?, Stores.store, Store.get?]
  exact List.foldlRecOn objects add start fun h kept object _ => kept.add object

/-- What a cluster holds when certain resources, in their order, were filed in it: each of them
under its own kind, namespace and name, the last of those with one identity, and as many as there
are identities. The next object is new exactly when it has an identity that none before it has. A
generator of a namespace reads the stores of the namespace and the shared ones, and finds in them
what is filed in the namespace or belongs to the whole cluster. -/
structure Holds (filed : List Resource) (c : Cluster) : Prop where
  spaces : ∀ {space stores kind store name r}, Table.get? c.spaces space = some stores →
    Table.get? stores kind = some store → store.get? name = some r →
    kind.isNamespaced = true ∧ r.kind = kind ∧ r.space = .ok space ∧ r.name = .ok name
  shared : ∀ {kind store name r}, Table.get? c.shared kind = some store →
    store.get? name = some r →
    kind.isNamespaced = false ∧ r.kind = kind ∧ r.name = .ok name
  last : ∀ id, c.find? id = filed.reverse.find? (·.has id)
  isNew : ∀ object, (c.addObject object).1 = .ok true ↔ ∃ r id, object = some r ∧
    r.identity = .ok id ∧ ∀ earlier ∈ filed, earlier.identity ≠ .ok id
  isKnown : ∀ object, (c.addObject object).1 = .ok false ↔ ∃ r id, object = some r ∧
    r.identity = .ok id ∧ ∃ earlier ∈ filed, earlier.identity = .ok id
  size : c.size = (filed.filterMap fun r => r.identity.toOption).toFinset.card
  union : ∀ space kind store, Table.get? (c.storesFor space) kind = some store ↔
    Table.get? (c.storesOf space) kind = some store ∨ Table.get? c.shared kind = some store
  inSpace : ∀ space r, (∃ kind store name, Table.get? (c.storesFor space) kind = some store ∧
    store.get? name = some r) ↔
    ∃ id, c.find? id = some r ∧ (id.kind.isNamespaced = true → id.space = space)

/-- Any sequence of objects that are added one after the other to an empty cluster. -/
theorem holds_ofObjects (objects : List (Option Resource)) :
    Holds (ofObjects objects).filed (ofObjects objects).cluster := by
  have kept := kept_ofObjects objects
  generalize ofObjects objects = h at kept
  have filed := kept.filed
  refine ⟨fun {space stores kind store name r} here own there => ?_,
    fun {kind store name r} own there => ?_, kept.last, fun object => ?_, fun object => ?_,
    kept.size, Cluster.storesFor_union filed, Cluster.mem_storesFor filed⟩
  · rw [← Cluster.storesOf_of_get? here] at own
    obtain ⟨namespaced, found⟩ := Cluster.found_inSpace filed own there
    exact ⟨namespaced, Resource.identity_eq_ok.mp (Cluster.find?_identity filed found)⟩
  · obtain ⟨shared, found⟩ := Cluster.found_shared filed own there
    obtain ⟨same, -, named⟩ :=
      Resource.identity_eq_ok.mp (Cluster.find?_identity filed found)
    exact ⟨shared, same, named⟩
  · simp only [Cluster.addObject_eq_ok, kept.isNone_find?]
  · simp only [Cluster.addObject_eq_ok, Option.isNone_eq_false_iff, kept.isSome_find?,
      mem_identities]

end History

end ClusterMetadata
