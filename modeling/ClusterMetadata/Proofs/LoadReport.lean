import ClusterMetadata.Log.Record
import ClusterMetadata.Proofs.Histories

/-!
# What loading says of the manifests

Each manifest is skipped, filed under a new identity, or filed in the place of an earlier one.

* `loadFrom_of_unseen`, `loadFrom_of_seen`: what is reported of one manifest;
* `repeats`, `length_repeatsAfter`: the identities of a list that come again, and their number;
* `History.Loads`, `loads_loadFrom`: loading is adding the views of the manifests, and reports those
  whose identity came before;
* `Cluster.Occupied`: no store is empty, since a manifest that cannot be filed ends the loading;
* `load_accounts`: the warnings and the final event account for every manifest.
-/
namespace ClusterMetadata

open Json (Value Fields)

theorem Traced.liftM_ok {α : Type} (a : α) :
    (liftM (Except.ok a : Except Fault α) : Traced α) = Pure.pure a := rfl

namespace Cluster

theorem loadFrom_of_unseen {manifest : Value} (unseen : Resource.ofManifest? manifest none = .ok none)
    (c : Cluster) (skipped : Nat) (rest : List Value) :
    loadFrom c skipped (manifest :: rest) = loadFrom c (skipped + 1) rest := by
  rw [loadFrom, unseen]
  rfl

theorem loadFrom_of_seen {manifest : Value} {r : Resource}
    (seen : Resource.ofManifest? manifest none = .ok (some r)) {id : Identity}
    (own : r.identity = .ok id) (c : Cluster) (skipped : Nat) (rest : List Value) :
    loadFrom c skipped (manifest :: rest) =
      ⟨(loadFrom (c.add r).2 skipped rest).result,
        (if (c.find? id).isSome then [.resourceReplaced id.kind id.space id.name] else []) ++
          (loadFrom (c.add r).2 skipped rest).trace⟩ := by
  obtain ⟨idKind, idSpace, idName⟩ := id
  obtain ⟨kind, home, named⟩ := Resource.identity_eq_ok.mp own
  simp only at kind home named
  subst kind
  have answer : c.add r = (.ok (c.find? ⟨r.kind, idSpace, idName⟩).isNone, (c.add r).2) :=
    Prod.ext (add_of_identity c own).1 rfl
  rw [loadFrom, seen]
  simp only [Traced.liftM_ok, pure_bind]
  rw [answer]
  cases c.find? ⟨r.kind, idSpace, idName⟩ with
  | none => rfl
  | some _ =>
    simp only [Traced.liftM_ok, pure_bind, home, named]
    rfl

end Cluster

def Json.Fields.kind? (manifest : Fields) : Option Kind := Kind.ofName? (manifest.text "kind")

def Json.Fields.view? (manifest : Fields) : Option Resource :=
  manifest.kind?.map fun kind => { kind, manifest := .object manifest }

theorem Resource.ofManifest?_object (manifest : Fields) :
    Resource.ofManifest? (.object manifest) none = .ok manifest.view? := rfl

/-- A manifest has a view or its kind has none. -/
theorem length_eq_unviewed_add_viewed (manifests : List Fields) :
    manifests.length = manifests.countP (·.kind?.isNone) + manifests.countP (·.view?.isSome) := by
  have parts := manifests.length_eq_countP_add_countP fun manifest : Fields => manifest.kind?.isNone
  have viewed : (manifests.countP fun manifest => ¬ manifest.kind?.isNone = true) =
      manifests.countP (·.view?.isSome) := by
    refine List.countP_congr fun manifest _ => ?_
    rw [Fields.view?, Option.isSome_map]
    cases manifest.kind? <;> simp
  rw [parts, viewed]

/-- Whether an identity at a place of a list stands in the list before that place. -/
def comesAgain (ids : List Identity) (placed : Identity × Nat) : Bool :=
  placed.1 ∈ ids.take placed.2

/-- The identities of a list that come again, each as often as it does. -/
def repeats (ids : List Identity) : List Identity :=
  (ids.zipIdx.filter (comesAgain ids)).map Prod.fst

/-- The identities of a list that come again when others come before it. -/
def repeatsAfter (before ids : List Identity) : List Identity :=
  ((ids.zipIdx before.length).filter (comesAgain (before ++ ids))).map Prod.fst

theorem repeatsAfter_cons (before : List Identity) (id : Identity) (ids : List Identity) :
    repeatsAfter before (id :: ids) =
      (if id ∈ before then [id] else []) ++ repeatsAfter (before ++ [id]) ids := by
  have here : comesAgain (before ++ id :: ids) (id, before.length) = decide (id ∈ before) := by
    rw [comesAgain, List.take_left]
  rw [repeatsAfter, repeatsAfter, List.zipIdx_cons, List.filter_cons, here, List.length_append,
    List.append_assoc]
  by_cases again : id ∈ before <;> simp [again]

/-- Each identity of a list is a new one or comes again. -/
theorem length_repeatsAfter (before ids : List Identity) :
    (repeatsAfter before ids).length + (before ++ ids).toFinset.card =
      ids.length + before.toFinset.card := by
  induction ids generalizing before with
  | nil => simp [repeatsAfter]
  | cons id rest ih =>
    have later := ih (before ++ [id])
    rw [card_append_singleton, List.append_assoc, List.singleton_append] at later
    rw [repeatsAfter_cons, List.length_append, List.length_cons]
    by_cases again : id ∈ before
    · simp only [again, if_true, List.length_singleton] at later ⊢
      omega
    · simp only [again, if_false, List.length_nil] at later ⊢
      omega

def Identity.replaced (id : Identity) : Occurrence := .resourceReplaced id.kind id.space id.name

namespace History

theorem identities_add {h : History} {r : Resource} {id : Identity} (own : r.identity = .ok id) :
    (h.add (some r)).identities = h.identities ++ [id] := by
  have filed : (h.add (some r)).filed = h.filed ++ [r] := by
    have answer : (h.cluster.addObject (some r)).1 = .ok (h.cluster.find? id).isNone :=
      (h.cluster.add_of_identity own).1
    rw [add, answer]
    rfl
  simp [identities, filed, own, Except.toOption]

def load (h : History) (manifests : List Fields) : History :=
  ((manifests.filterMap Fields.view?).map some).foldl add h

/-- What loading manifests comes to, given what was filed before: the views have identities and all
are filed, the others are counted, and a view whose identity came before is reported. -/
structure Loads (h : History) (manifests : List Fields) (ids : List Identity) (skipped : Nat)
    (c : Cluster) (trace : List Occurrence) : Prop where
  views : (manifests.filterMap Fields.view?).map Resource.identity = ids.map .ok
  cluster : c = (h.load manifests).cluster
  identities : (h.load manifests).identities = h.identities ++ ids
  skipped : skipped = manifests.countP (·.kind?.isNone)
  trace : trace = (repeatsAfter h.identities ids).map Identity.replaced

theorem loads_unseen {h : History} {manifest : Fields} {rest : List Fields} {ids : List Identity}
    {skipped : Nat} {c : Cluster} {trace : List Occurrence} (unseen : manifest.view? = none)
    (loads : h.Loads rest ids skipped c trace) :
    h.Loads (manifest :: rest) ids (skipped + 1) c trace := by
  have unknown : manifest.kind? = none := Option.map_eq_none_iff.mp unseen
  have views : (manifest :: rest).filterMap Fields.view? = rest.filterMap Fields.view? :=
    List.filterMap_cons_none unseen
  refine ⟨by rw [views, loads.views], by rw [load, views, loads.cluster, load],
    by rw [load, views, ← load, loads.identities], ?_, loads.trace⟩
  rw [List.countP_cons_of_pos (by rw [unknown]; rfl), loads.skipped]

theorem loads_seen {h : History} (kept : h.Kept) {manifest : Fields} {rest : List Fields}
    {ids : List Identity} {skipped : Nat} {c : Cluster} {trace : List Occurrence} {r : Resource}
    (seen : manifest.view? = some r) {id : Identity} (own : r.identity = .ok id)
    (loads : (h.add (some r)).Loads rest ids skipped c trace) :
    h.Loads (manifest :: rest) (id :: ids) skipped c
      ((if (h.cluster.find? id).isSome then [id.replaced] else []) ++ trace) := by
  obtain ⟨kind, known, -⟩ := Option.map_eq_some_iff.mp seen
  have views : (manifest :: rest).filterMap Fields.view? = r :: rest.filterMap Fields.view? :=
    List.filterMap_cons_some seen
  have before := identities_add (h := h) own
  have whole : h.load (manifest :: rest) = (h.add (some r)).load rest := by
    rw [load, views, load, List.map_cons, List.foldl_cons]
  refine ⟨by rw [views, List.map_cons, loads.views, own, List.map_cons], whole ▸ loads.cluster,
    by rw [whole, loads.identities, before, List.append_assoc]; rfl, ?_, ?_⟩
  · rw [List.countP_cons_of_neg (by rw [known]; nofun), loads.skipped]
  · rw [repeatsAfter_cons, ← before, List.map_append, loads.trace]
    by_cases again : id ∈ h.identities
    · rw [if_pos again, if_pos ((kept.isSome_find? id).mpr again), List.map_singleton]
    · rw [if_neg again, if_neg fun found => again ((kept.isSome_find? id).mp found), List.map_nil]

theorem loads_loadFrom {h : History} (kept : h.Kept) {manifests : List Fields} {skipped n : Nat}
    {c : Cluster}
    (loaded : (Cluster.loadFrom h.cluster skipped (manifests.map .object)).result = .ok (c, n)) :
    ∃ ids more, n = skipped + more ∧ h.Loads manifests ids more c
      (Cluster.loadFrom h.cluster skipped (manifests.map .object)).trace := by
  induction manifests generalizing h skipped with
  | nil =>
    cases loaded
    exact ⟨[], 0, rfl, rfl, rfl, (List.append_nil _).symm, rfl, rfl⟩
  | cons manifest rest ih =>
    rw [List.map_cons] at loaded ⊢
    rcases Cluster.loadFrom_cons loaded with ⟨unseen, -⟩ | ⟨r, id, seen, own, -⟩
    · have view := (Resource.ofManifest?_object manifest).trans (congrArg Except.ok unseen)
      rw [Cluster.loadFrom_of_unseen view] at loaded ⊢
      obtain ⟨ids, more, rfl, loads⟩ := ih kept loaded
      exact ⟨ids, more + 1, by omega, loads_unseen unseen loads⟩
    · have view := (Resource.ofManifest?_object manifest).trans (congrArg Except.ok seen)
      rw [Cluster.loadFrom_of_seen view own] at loaded ⊢
      obtain ⟨ids, more, rfl, loads⟩ := ih (kept.add (some r)) loaded
      exact ⟨id :: ids, more, rfl, loads_seen kept seen own loads⟩

end History

def Stores.Occupied (stores : Stores) : Prop := ∀ entry ∈ stores, entry.2.size ≠ 0

theorem Stores.occupied_file {stores : Stores} (occupied : stores.Occupied) {r : Resource}
    {name : Text} (named : r.name = .ok name) : Stores.Occupied (stores.file r).2 := by
  rw [Stores.file_of_name stores named]
  intro entry mem
  rcases Table.mem_insert mem with rfl | old
  · have there : name ∈ Table.keys (Table.insert (stores.store r.kind).objects name r) :=
      (Table.mem_keys_insert _ _ _ _).mpr (.inl rfl)
    intro empty
    rw [List.eq_nil_of_length_eq_zero (l := Table.insert (stores.store r.kind).objects name r) empty]
      at there
    cases there
  · exact occupied entry old

namespace Cluster

structure Occupied (c : Cluster) : Prop where
  shared : c.shared.Occupied
  spaces : ∀ entry ∈ c.spaces, entry.2.Occupied

theorem occupied_empty : Occupied {} := by
  refine ⟨fun entry mem => ?_, fun entry mem => ?_⟩ <;> cases mem

theorem occupied_storesOf {c : Cluster} (occupied : c.Occupied) (space : Text) :
    (c.storesOf space).Occupied := by
  rw [storesOf]
  cases own : Table.get? c.spaces space with
  | none => exact fun _ mem => absurd mem List.not_mem_nil
  | some stores => exact occupied.spaces _ (Table.mem_of_get? own)

theorem occupied_add {c : Cluster} (occupied : c.Occupied) {r : Resource} {id : Identity}
    (own : r.identity = .ok id) : (c.add r).2.Occupied := by
  obtain ⟨-, home, named⟩ := Resource.identity_eq_ok.mp own
  cases namespaced : r.kind.isNamespaced with
  | true =>
    rw [add_of_space c namespaced home]
    refine ⟨occupied.shared, fun entry mem => ?_⟩
    rcases Table.mem_insert mem with rfl | old
    · exact Stores.occupied_file (occupied_storesOf occupied id.space) named
    · exact occupied.spaces entry old
  | false =>
    rw [add_of_shared c namespaced]
    exact ⟨Stores.occupied_file occupied.shared named, occupied.spaces⟩

/-- Loading leaves no store empty: what cannot be filed ends it. -/
theorem occupied_loadFrom {manifests : List Value} {c c' : Cluster} {skipped n : Nat}
    (occupied : c.Occupied) (loaded : (loadFrom c skipped manifests).result = .ok (c', n)) :
    c'.Occupied := by
  induction manifests generalizing c skipped with
  | nil =>
    cases loaded
    exact occupied
  | cons manifest rest ih =>
    rcases loadFrom_cons loaded with ⟨-, loaded⟩ | ⟨r, id, -, own, loaded⟩
    · exact ih occupied loaded
    · exact ih (occupied_add occupied own) loaded

end Cluster

/-- The different names that resources of a kind have among some identities. -/
def namesOf (kind : Kind) (ids : List Identity) : Finset Text :=
  ((ids.filter fun id => id.kind = kind).map Identity.name).toFinset

theorem mem_namesOf {kind : Kind} {ids : List Identity} {name : Text} :
    name ∈ namesOf kind ids ↔ ∃ id ∈ ids, id.kind = kind ∧ id.name = name := by
  simp only [namesOf, List.mem_toFinset, List.mem_map, List.mem_filter, decide_eq_true_eq,
    and_assoc]

namespace History

variable {h : History} (kept : h.Kept)
include kept

/-- A shared store has one resource for each name of its kind. -/
theorem size_shared {kind : Kind} {store : Store}
    (own : Table.get? h.cluster.shared kind = some store) :
    store.size = (namesOf kind h.identities).card := by
  have distinct : (Table.keys store.objects).Nodup := by
    have names := kept.filed.shared.names kind
    rwa [Stores.store, own] at names
  have same : (Table.keys store.objects).toFinset = namesOf kind h.identities := by
    ext name
    rw [List.mem_toFinset, Table.mem_keys_iff, mem_namesOf]
    constructor
    · intro there
      obtain ⟨r, there⟩ := Option.isSome_iff_exists.mp there
      obtain ⟨-, found⟩ := Cluster.found_shared kept.filed own there
      exact ⟨_, (kept.isSome_find? _).mp (by rw [found]; rfl), rfl, rfl⟩
    · rintro ⟨id, mem, rfl, rfl⟩
      obtain ⟨r, found⟩ := Option.isSome_iff_exists.mp ((kept.isSome_find? id).mpr mem)
      obtain ⟨-, found⟩ := Cluster.of_find?_shared (kept.filed.shared.kinds own) found
      obtain ⟨store', own', there⟩ := Stores.find?_eq_some.mp found
      cases own.symm.trans own'
      exact Option.isSome_iff_exists.mpr ⟨r, there⟩
  rw [← same, List.toFinset_card_of_nodup distinct, Store.size, Table.keys, List.length_map]

/-- The kinds that belong to the whole cluster are counted when there is one of them. -/
theorem mem_sharedCounts (occupied : h.cluster.Occupied) (kind : Kind) (n : Nat) :
    (kind, n) ∈ h.cluster.sharedCounts ↔ kind.isNamespaced = false ∧
      (∃ id ∈ h.identities, id.kind = kind) ∧ n = (namesOf kind h.identities).card := by
  rw [Cluster.sharedCounts, List.mem_mergeSort, List.mem_map]
  constructor
  · rintro ⟨⟨kind', store⟩, mem, same⟩
    cases same
    have own := Table.get?_of_mem kept.filed.shared.distinct mem
    have size := size_shared kept own
    have some : (namesOf kind h.identities).card ≠ 0 := size ▸ occupied.shared _ mem
    obtain ⟨name, named⟩ := Finset.card_ne_zero.mp some
    obtain ⟨id, filed, same, -⟩ := mem_namesOf.mp named
    exact ⟨kept.filed.shared.kinds own, ⟨id, filed, same⟩, size⟩
  · rintro ⟨shared, ⟨id, filed, rfl⟩, rfl⟩
    obtain ⟨r, found⟩ := Option.isSome_iff_exists.mp ((kept.isSome_find? id).mpr filed)
    obtain ⟨-, found⟩ := Cluster.of_find?_shared shared found
    obtain ⟨store, own, -⟩ := Stores.find?_eq_some.mp found
    exact ⟨(id.kind, store), Table.mem_of_get? own, congrArg (id.kind, ·) (size_shared kept own)⟩

/-- The namespaces are those of what was filed. -/
theorem mem_spaceNames (space : Text) : space ∈ h.cluster.spaceNames ↔
    ∃ id ∈ h.identities, id.kind.isNamespaced = true ∧ id.space = space := by
  rw [Cluster.spaceNames, List.mem_mergeSort, kept.filed.occupied]
  constructor
  · rintro ⟨kind, name, namespaced, found⟩
    exact ⟨_, (kept.isSome_find? _).mp found, namespaced, rfl⟩
  · rintro ⟨⟨kind, _, name⟩, filed, namespaced, rfl⟩
    exact ⟨kind, name, namespaced, (kept.isSome_find? _).mpr filed⟩

end History

namespace Cluster

/-- No kind is counted twice. -/
theorem nodup_sharedCounts {c : Cluster} (filed : c.Filed) :
    (c.sharedCounts.map Prod.fst).Nodup := by
  rw [sharedCounts, ((List.mergeSort_perm _ _).map Prod.fst).nodup_iff, List.map_map]
  exact filed.shared.distinct

def replacedRecord (id : Identity) : Log.Record :=
  .ofApplication "duplicate resource replaced" .warning
    [("kind", .string id.kind.name), ("namespace", .string id.space), ("name", .string id.name)]

def loadedRecord (spaces : List Text) (counts : List (Kind × Nat)) (skipped : Nat) : Log.Record :=
  .ofApplication "stores loaded" .info
    [("namespaces", .array (spaces.map .string)),
      ("cluster_kinds", .object (counts.map fun (kind, n) => (kind.name, .int n))),
      ("skipped", .int skipped)]

/-- Loading that comes to its end accounts for every manifest. Those without a typed view are
counted; of the others, in their order, each one whose identity came before is warned about; and
what is not skipped and does not come again is stored, in stores of which none is empty. The last
record has the namespaces in ascending order and the number of names of each kind that belongs to
the whole cluster. -/
theorem load_accounts {manifests : List Fields} {c : Cluster}
    (loaded : (load (manifests.map .object)).result = .ok c) :
    ∃ ids : List Identity,
      (manifests.filterMap Fields.view?).map Resource.identity = ids.map .ok ∧
      Occurrence.records (load (manifests.map .object)).trace =
        (repeats ids).map replacedRecord ++
          [loadedRecord c.spaceNames c.sharedCounts (manifests.countP (·.kind?.isNone))] ∧
      manifests.length = manifests.countP (·.kind?.isNone) + (repeats ids).length + c.size ∧
      c.Occupied ∧
      c.spaceNames.Pairwise Text.Before ∧
      (∀ space, space ∈ c.spaceNames ↔
        ∃ id ∈ ids, id.kind.isNamespaced = true ∧ id.space = space) ∧
      (c.sharedCounts.map Prod.fst).Nodup ∧
      ∀ kind n, (kind, n) ∈ c.sharedCounts ↔ kind.isNamespaced = false ∧
        (∃ id ∈ ids, id.kind = kind) ∧ n = (namesOf kind ids).card := by
  obtain ⟨skipped, filed⟩ := result_load loaded
  obtain ⟨ids, more, skips, loads⟩ :=
    History.loads_loadFrom (h := {}) (History.kept_ofObjects []) filed
  have kept : (History.load {} manifests).Kept := History.kept_ofObjects _
  have same : (History.load {} manifests).identities = ids := loads.identities
  have trace : (load (manifests.map .object)).trace =
      (repeats ids).map Identity.replaced ++
        [.storesLoaded c.spaceNames c.sharedCounts skipped] := by
    rw [load, Traced.bind_of_result filed]
    exact congrArg (· ++ [.storesLoaded c.spaceNames c.sharedCounts skipped]) loads.trace
  have whole : skipped = manifests.countP (·.kind?.isNone) := by
    rw [skips, loads.skipped, Nat.zero_add]
  have stored : c.size = ids.toFinset.card := by rw [loads.cluster, kept.size, same]
  have counts := History.mem_sharedCounts kept
  have spaces := History.mem_spaceNames kept
  rw [same, ← loads.cluster] at counts spaces
  have occupied : c.Occupied := occupied_loadFrom occupied_empty filed
  have keptFiled : c.Filed := filed_of_load loaded
  refine ⟨ids, loads.views, ?_, ?_, occupied, spaceNames_ascending keptFiled, spaces, ?_,
    counts occupied⟩
  · rw [trace, whole, Occurrence.records, List.filterMap_append, List.filterMap_map]
    congr 1
    exact congrFun (List.filterMap_eq_map (f := replacedRecord)) (repeats ids)
  · have viewed : manifests.countP (·.view?.isSome) = ids.length := by
      have lengths := congrArg List.length loads.views
      rwa [List.length_map, List.length_map, List.length_filterMap_eq_countP] at lengths
    have all := length_eq_unviewed_add_viewed manifests
    have again : (repeats ids).length + ids.toFinset.card = ids.length :=
      length_repeatsAfter [] ids
    omega
  · exact nodup_sharedCounts keptFiled

def mixedManifests : List Fields :=
  let node : Fields := [("kind", .string "Node"), ("metadata", .object [("name", .string "n")])]
  let pod : Fields := [("kind", .string "Pod"),
    ("metadata", .object [("name", .string "p"), ("namespace", .string "d")])]
  [node, [("kind", .string "X")], pod, node]

theorem load_accounts_mixed : ∃ c, (load (mixedManifests.map .object)).result = .ok c ∧
    Occurrence.records (load (mixedManifests.map .object)).trace =
      [replacedRecord ⟨.node, "", "n"⟩, loadedRecord c.spaceNames c.sharedCounts 1] ∧
    mixedManifests.length = 1 + 1 + c.size ∧ ("d" : Text) ∈ c.spaceNames ∧
    (Kind.node, 1) ∈ c.sharedCounts := by
  obtain ⟨c, loaded⟩ : ∃ c, (load (mixedManifests.map .object)).result = .ok c := ⟨_, rfl⟩
  obtain ⟨ids, views, records, count, -, -, spaces, -, counts⟩ := load_accounts loaded
  have known : (mixedManifests.filterMap Fields.view?).map Resource.identity =
      [⟨.node, "", "n"⟩, ⟨.pod, "d", "p"⟩, ⟨.node, "", "n"⟩].map Except.ok := rfl
  have same : ids = [⟨.node, "", "n"⟩, ⟨.pod, "d", "p"⟩, ⟨.node, "", "n"⟩] :=
    List.map_injective_iff.mpr (fun _ _ => Except.ok.inj) (views.symm.trans known)
  subst same
  refine ⟨c, loaded, records, count, (spaces _).mpr ?_, (counts _ _).mpr ?_⟩
  · exact ⟨⟨.pod, "d", "p"⟩, .tail _ (.head _), rfl, rfl⟩
  · exact ⟨rfl, ⟨_, .head _, rfl⟩, rfl⟩

end Cluster

end ClusterMetadata
