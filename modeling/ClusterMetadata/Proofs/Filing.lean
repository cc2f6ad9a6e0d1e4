import ClusterMetadata.Cluster

/-!
# Where resources are filed

What a cluster holds is read by identity:

* `Cluster.find?`: the resource under an identity;
* `Cluster.Filed`: every resource stands under its own identity, and nowhere else;
* `add_unidentified`: what is left of a resource that is refused;
* `filed_add`: filing keeps it so, whether it succeeds or is refused;
* `find?_add`: a resource that is filed takes the place of its own identity alone;
* `get?_storesFor`, `lookup_storesFor`: what a generator of a namespace reads and looks up is what
  is found under an identity.
-/
namespace ClusterMetadata

/-- Where resources of a kind are filed, seen from a namespace: there, or in the cluster as a
whole. -/
def Kind.scope (kind : Kind) (space : Text) : Text := if kind.isNamespaced then space else ""

namespace Resource

theorem identity_eq_ok {r : Resource} {id : Identity} :
    r.identity = .ok id ↔ r.kind = id.kind ∧ r.space = .ok id.space ∧ r.name = .ok id.name := by
  obtain ⟨kind, space, name⟩ := id
  unfold identity
  cases r.space with
  | error fault => simp [bind, Except.bind]
  | ok s => cases r.name <;> simp [bind, Except.bind, pure, Except.pure]

theorem identity_of {r : Resource} {space name : Text} (home : r.space = .ok space)
    (named : r.name = .ok name) : r.identity = .ok ⟨r.kind, space, name⟩ :=
  identity_eq_ok.mpr ⟨rfl, home, named⟩

/-- A resource whose namespace can be read has a name that can be read. -/
theorem name_of_space {r : Resource} {space : Text} (namespaced : r.kind.isNamespaced = true)
    (h : r.space = .ok space) : ∃ name, r.name = .ok name := by
  rw [Resource.space, if_pos namespaced] at h
  unfold Resource.name
  cases hm : r.metadata with
  | error fault => simp [hm, bind, Except.bind] at h
  | ok fields => exact ⟨fields.text "name", rfl⟩

theorem space_of_shared {r : Resource} (shared : r.kind.isNamespaced = false) :
    r.space = .ok "" := by
  rw [Resource.space, shared]
  rfl

end Resource

namespace Stores

def find? (stores : Stores) (kind : Kind) (name : Text) : Option Resource :=
  (stores.store kind).get? name

/-- Stores of one scope hold what belongs there: each kind has one store, each name one place in
it, and a resource stands under its own kind and name. -/
structure Filed (stores : Stores) (namespaced : Bool) (space : Text) : Prop where
  distinct : Table.Distinct stores
  kinds : ∀ {kind store}, Table.get? stores kind = some store → kind.isNamespaced = namespaced
  names : ∀ kind, Table.Distinct (stores.store kind).objects
  identities : ∀ {kind name r}, stores.find? kind name = some r →
    r.identity = .ok ⟨kind, space, name⟩

/-- There is no store of a kind that belongs elsewhere. -/
theorem Filed.absent {stores : Stores} {namespaced : Bool} {space : Text}
    (filed : stores.Filed namespaced space) {kind : Kind} (other : kind.isNamespaced ≠ namespaced) :
    Table.get? stores kind = none := by
  cases h : Table.get? stores kind with
  | none => rfl
  | some store => exact absurd (filed.kinds h) other

theorem filed_empty (namespaced : Bool) (space : Text) : Filed [] namespaced space where
  distinct := List.nodup_nil
  kinds h := by cases h
  names _ := List.nodup_nil
  identities h := by cases h

@[simp] theorem store_insert (stores : Stores) (kind other : Kind) (store : Store) :
    Stores.store (Table.insert stores kind store) other =
      if kind = other then store else stores.store other := by
  by_cases h : kind = other <;> simp [Stores.store, Table.get?_insert, h]

/-- Filing under a name that can be read. -/
theorem file_of_name (stores : Stores) {r : Resource} {name : Text} (h : r.name = .ok name) :
    stores.file r = (.ok (stores.find? r.kind name).isNone,
      Table.insert stores r.kind { stores.store r.kind with
        objects := Table.insert (stores.store r.kind).objects name r }) := by
  simp only [file, h, find?, Store.get?, Table.contains]
  cases Table.get? (stores.store r.kind).objects name <;> rfl

/-- A resource whose name cannot be read leaves nothing but a store for its kind. -/
theorem file_of_fault (stores : Stores) {r : Resource} {fault : Fault} (h : r.name = .error fault) :
    stores.file r = (.error fault, Table.insert stores r.kind (stores.store r.kind)) := by
  simp only [file, h]

/-- What a resource that is filed changes. -/
theorem find?_file (stores : Stores) {r : Resource} {name : Text} (h : r.name = .ok name)
    (kind : Kind) (other : Text) :
    (stores.file r).2.find? kind other =
      if r.kind = kind ∧ name = other then some r else stores.find? kind other := by
  rw [file_of_name stores h, find?, store_insert]
  by_cases hk : r.kind = kind
  · subst hk
    by_cases hn : name = other <;> simp [find?, Store.get?, Table.get?_insert, hn]
  · simp [hk, find?]

theorem find?_file_of_fault (stores : Stores) {r : Resource} {fault : Fault}
    (h : r.name = .error fault) (kind : Kind) (name : Text) :
    (stores.file r).2.find? kind name = stores.find? kind name := by
  rw [file_of_fault stores h, find?, store_insert]
  by_cases hk : r.kind = kind
  · rw [if_pos hk, hk, find?]
  · rw [if_neg hk, find?]

/-- Filing a resource of the scope keeps the stores in order. -/
theorem filed_file {stores : Stores} {namespaced : Bool} {space : Text}
    (filed : stores.Filed namespaced space) {r : Resource}
    (scope : r.kind.isNamespaced = namespaced) (home : r.space = .ok space) :
    (stores.file r).2.Filed namespaced space := by
  have kinds (store : Store) {kind : Kind} {found : Store}
      (h : Table.get? (Table.insert stores r.kind store) kind = some found) :
      kind.isNamespaced = namespaced := by
    rw [Table.get?_insert] at h
    by_cases hk : r.kind = kind
    · exact hk ▸ scope
    · rw [if_neg hk] at h
      exact filed.kinds h
  cases hn : r.name with
  | error fault =>
    have same := find?_file_of_fault stores hn
    rw [file_of_fault stores hn] at same ⊢
    refine ⟨Table.distinct_insert filed.distinct _ _, kinds _, fun kind => ?_, fun h => ?_⟩
    · rw [store_insert]
      split
      · exact filed.names r.kind
      · exact filed.names kind
    · exact filed.identities (same _ _ ▸ h)
  | ok name =>
    have found := find?_file stores hn
    rw [file_of_name stores hn] at found ⊢
    refine ⟨Table.distinct_insert filed.distinct _ _, kinds _, fun kind => ?_, fun h => ?_⟩
    · rw [store_insert]
      split
      · exact Table.distinct_insert (filed.names r.kind) name r
      · exact filed.names kind
    · rw [found] at h
      split at h
      · next own =>
        obtain ⟨rfl, rfl⟩ := own
        cases h
        exact Resource.identity_eq_ok.mpr ⟨rfl, home, hn⟩
      · exact filed.identities h

end Stores

namespace Cluster

def find? (c : Cluster) (id : Identity) : Option Resource :=
  if id.kind.isNamespaced then (c.storesOf id.space).find? id.kind id.name
  else if id.space = "" then c.shared.find? id.kind id.name
  else none

/-- Every resource stands under its own identity, on the side of the cluster where its kind
belongs, and a namespace is there for what it holds. -/
structure Filed (c : Cluster) : Prop where
  distinct : Table.Distinct c.spaces
  shared : c.shared.Filed false ""
  spaces : ∀ space, (c.storesOf space).Filed true space
  occupied : ∀ space, space ∈ Table.keys c.spaces ↔
    ∃ kind name, kind.isNamespaced = true ∧ (c.find? ⟨kind, space, name⟩).isSome

theorem filed_empty : Filed {} where
  distinct := List.nodup_nil
  shared := Stores.filed_empty false ""
  spaces _ := Stores.filed_empty true _
  occupied space := by simp [Table.keys, find?, storesOf, Stores.find?, Stores.store, Store.get?]

/-- What is found under an identity has it. -/
theorem find?_identity {c : Cluster} (filed : c.Filed) {id : Identity} {r : Resource}
    (h : c.find? id = some r) : r.identity = .ok id := by
  obtain ⟨kind, space, name⟩ := id
  rw [find?] at h
  split at h
  · exact (filed.spaces space).identities h
  · split at h
    · next root =>
      simp only at root
      subst root
      exact filed.shared.identities h
    · cases h

theorem storesOf_insert (c : Cluster) (space other : Text) (stores : Stores) :
    Cluster.storesOf { c with spaces := Table.insert c.spaces space stores } other =
      if space = other then stores else c.storesOf other := by
  by_cases h : space = other <;> simp [storesOf, Table.get?_insert, h]

/-- A resource that belongs to a namespace is filed in the stores of that namespace. -/
theorem add_of_space (c : Cluster) {r : Resource} (namespaced : r.kind.isNamespaced = true)
    {space : Text} (home : r.space = .ok space) :
    c.add r = (((c.storesOf space).file r).1,
      { c with spaces := Table.insert c.spaces space ((c.storesOf space).file r).2 }) := by
  simp only [add, namespaced, if_true, home]

/-- A resource whose namespace cannot be read changes nothing. -/
theorem add_of_fault (c : Cluster) {r : Resource} (namespaced : r.kind.isNamespaced = true)
    {fault : Fault} (h : r.space = .error fault) : c.add r = (.error fault, c) := by
  simp only [add, namespaced, if_true, h]

theorem add_of_shared (c : Cluster) {r : Resource} (shared : r.kind.isNamespaced = false) :
    c.add r = ((Stores.file c.shared r).1, { c with shared := (Stores.file c.shared r).2 }) := by
  simp only [add, shared, Bool.false_eq_true, if_false]

/-- A resource that has an identity is filed, and takes the place of that identity alone. -/
theorem find?_add (c : Cluster) {r : Resource} {id : Identity} (h : r.identity = .ok id)
    (other : Identity) :
    (c.add r).2.find? other = if id = other then some r else c.find? other := by
  obtain ⟨kind, home, name⟩ := Resource.identity_eq_ok.mp h
  obtain ⟨idKind, idSpace, idName⟩ := id
  obtain ⟨otherKind, otherSpace, otherName⟩ := other
  simp only at kind home name
  subst kind
  simp only [find?, Identity.mk.injEq]
  cases namespaced : r.kind.isNamespaced with
  | true =>
    rw [add_of_space c namespaced home]
    simp only [storesOf_insert]
    by_cases hs : idSpace = otherSpace
    · subst hs
      rw [if_pos rfl, Stores.find?_file _ name]
      by_cases hk : r.kind = otherKind
      · subst hk
        simp [namespaced]
      · simp [hk]
    · simp [hs]
  | false =>
    rw [add_of_shared c namespaced]
    have root : idSpace = "" := by
      rw [Resource.space_of_shared namespaced] at home
      exact (Except.ok.inj home).symm
    subst root
    rw [Stores.find?_file _ name]
    by_cases hk : r.kind = otherKind
    · subst hk
      by_cases hs : otherSpace = ""
      · simp [namespaced, hs]
      · simp [namespaced, hs, Ne.symm hs]
    · simp [hk, storesOf]

/-- What adding a resource without an identity does: one that belongs to a namespace changes
nothing, since its namespace is read first, and one that belongs to the whole cluster leaves a
store for its kind. -/
theorem add_unidentified (c : Cluster) {r : Resource} {fault : Fault}
    (h : r.identity = .error fault) :
    (∃ fault, r.kind.isNamespaced = true ∧ c.add r = (.error fault, c)) ∨
      ∃ fault, r.kind.isNamespaced = false ∧ r.name = .error fault ∧ c.add r = (.error fault,
        { c with shared := Table.insert c.shared r.kind (Stores.store c.shared r.kind) }) := by
  cases namespaced : r.kind.isNamespaced with
  | true =>
    cases home : r.space with
    | error fault => exact .inl ⟨fault, rfl, add_of_fault c namespaced home⟩
    | ok space =>
      obtain ⟨name, named⟩ := Resource.name_of_space namespaced home
      rw [Resource.identity_of home named] at h
      cases h
  | false =>
    cases named : r.name with
    | ok name =>
      rw [Resource.identity_of (Resource.space_of_shared namespaced) named] at h
      cases h
    | error fault =>
      refine .inr ⟨fault, rfl, rfl, ?_⟩
      rw [add_of_shared c namespaced, Stores.file_of_fault c.shared named]

/-- A resource without an identity is refused, and every identity keeps what it had. -/
theorem find?_add_of_fault (c : Cluster) {r : Resource} {fault : Fault}
    (h : r.identity = .error fault) :
    (∃ fault, (c.add r).1 = .error fault) ∧ ∀ id, (c.add r).2.find? id = c.find? id := by
  rcases add_unidentified c h with ⟨fault, -, after⟩ | ⟨fault, -, unnamed, after⟩
  · rw [after]
    exact ⟨⟨fault, rfl⟩, fun _ => rfl⟩
  · have same := Stores.find?_file_of_fault c.shared unnamed
    rw [Stores.file_of_fault c.shared unnamed] at same
    rw [after]
    refine ⟨⟨fault, rfl⟩, fun id => ?_⟩
    simp only [find?, same, storesOf]

/-- Filing a resource keeps every resource under its own identity, also when it is refused. -/
theorem filed_add {c : Cluster} (filed : c.Filed) (r : Resource) : (c.add r).2.Filed := by
  cases namespaced : r.kind.isNamespaced with
  | true =>
    cases home : r.space with
    | error fault =>
      rw [add_of_fault c namespaced home]
      exact filed
    | ok space =>
      obtain ⟨name, hn⟩ := Resource.name_of_space namespaced home
      have found := find?_add c (Resource.identity_of home hn)
      rw [add_of_space c namespaced home] at found ⊢
      refine ⟨Table.distinct_insert filed.distinct _ _, filed.shared, fun other => ?_,
        fun other => ?_⟩
      · rw [storesOf_insert]
        split
        · next same => exact same ▸ Stores.filed_file (filed.spaces space) namespaced home
        · exact filed.spaces other
      · rw [Table.mem_keys_insert, filed.occupied]
        constructor
        · rintro (rfl | ⟨kind, other', hk, hsome⟩)
          · exact ⟨r.kind, name, namespaced, by rw [found, if_pos rfl]; rfl⟩
          · refine ⟨kind, other', hk, ?_⟩
            rw [found]
            split
            · rfl
            · exact hsome
        · rintro ⟨kind, other', hk, hsome⟩
          rw [found] at hsome
          split at hsome
          · next same => exact .inl (Identity.mk.inj same).2.1.symm
          · exact .inr ⟨kind, other', hk, hsome⟩
  | false =>
    have home := Resource.space_of_shared namespaced
    rw [add_of_shared c namespaced]
    refine ⟨filed.distinct, Stores.filed_file filed.shared namespaced home, filed.spaces,
      fun space => ?_⟩
    rw [filed.occupied]
    refine exists_congr fun kind => exists_congr fun name => and_congr_right fun hk => ?_
    simp only [find?, hk, if_true, storesOf]

/-- A generator of a namespace reads its own store of a kind or the shared one: a kind is on one
side only, and there nothing hides it. -/
theorem get?_storesFor {c : Cluster} (filed : c.Filed) (space : Text) (kind : Kind) :
    Table.get? (c.storesFor space) kind =
      if kind.isNamespaced then Table.get? (c.storesOf space) kind
      else Table.get? c.shared kind := by
  have merged : Table.get? (c.storesFor space) kind =
      (Table.get? (c.storesOf space) kind).or (Table.get? c.shared kind) :=
    Table.get?_foldl_insert (filed.spaces space).distinct c.shared kind
  rw [merged]
  cases namespaced : kind.isNamespaced with
  | true => rw [filed.shared.absent (by rw [namespaced]; nofun), Option.or_none]; rfl
  | false => rw [(filed.spaces space).absent (by rw [namespaced]; nofun)]; rfl

/-- What stands in a store that is read is what is found under an identity. -/
theorem bind_storesFor {c : Cluster} (filed : c.Filed) (space : Text) (kind : Kind)
    (name : Text) : ((Table.get? (c.storesFor space) kind).bind fun s => s.get? name) =
      c.find? ⟨kind, kind.scope space, name⟩ := by
  have stored (stores : Stores) : ((Table.get? stores kind).bind fun s => s.get? name) =
      stores.find? kind name := by
    rw [Stores.find?, Stores.store]
    cases Table.get? stores kind <;> rfl
  rw [get?_storesFor filed, find?, Kind.scope]
  cases kind.isNamespaced with
  | true => exact stored (c.storesOf space)
  | false => exact stored c.shared

/-- A generator of a namespace finds what is filed in the namespace or in the cluster as a whole,
and nothing under the empty name. -/
theorem lookup_storesFor {c : Cluster} (filed : c.Filed) (space : Text) (kind : Kind)
    (name : Text) :
    lookup (Table.get? (c.storesFor space) kind) name (some kind) =
      if name = "" then none else c.find? ⟨kind, kind.scope space, name⟩ := by
  have own := bind_storesFor filed space kind name
  by_cases hn : name = ""
  · cases Table.get? (c.storesFor space) kind <;> simp [lookup, hn]
  · rw [if_neg hn, ← own]
    cases hs : Table.get? (c.storesFor space) kind with
    | none => rfl
    | some store =>
      have kindOf {r : Resource} (h : store.get? name = some r) : r.kind = kind := by
        have h' : c.find? ⟨kind, kind.scope space, name⟩ = some r := by
          rw [← own, hs]
          exact h
        exact (Resource.identity_eq_ok.mp (find?_identity filed h')).1
      cases hr : store.get? name with
      | none => simp [lookup, hn, hr]
      | some r => simp [lookup, hn, hr, kindOf hr]

end Cluster

end ClusterMetadata
