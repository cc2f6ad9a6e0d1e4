import ClusterMetadata.Proofs.Filing

/-!
# What loading leaves

* `last?`: the last manifest with an identity, as a resource;
* `loadFrom_cons`: the two things that one manifest can do to a load that ends well;
* `find?_load`: under every identity stands its last manifest;
* `mem_spaceNames`: the namespaces are those of the manifests;
* `output_load`: loading prints nothing.
-/
namespace ClusterMetadata

open Json (Value)

namespace Resource

/-- The resource that a manifest is seen as, if its kind has a view. -/
def seen? (manifest : Value) : Option Resource :=
  match ofManifest? manifest none with
  | .ok r => r
  | .error _ => none

def has (r : Resource) (id : Identity) : Bool := r.identity.toOption = some id

theorem has_iff {r : Resource} {id : Identity} : r.has id ↔ r.identity = .ok id := by
  unfold has
  cases r.identity <;> simp [Except.toOption]

end Resource

/-- The resource of the last manifest with an identity. -/
def last? (manifests : List Value) (id : Identity) : Option Resource :=
  (manifests.filterMap Resource.seen?).reverse.find? (·.has id)

theorem last?_of_unseen {manifest : Value} (h : Resource.seen? manifest = none)
    (rest : List Value) (id : Identity) : last? (manifest :: rest) id = last? rest id := by
  rw [last?, List.filterMap_cons, h]
  rfl

theorem last?_of_seen {manifest : Value} {r : Resource} (h : Resource.seen? manifest = some r)
    (rest : List Value) (id : Identity) :
    last? (manifest :: rest) id = (last? rest id).or (if r.has id then some r else none) := by
  rw [last?, List.filterMap_cons, h]
  simp only [List.reverse_cons, List.find?_append, List.find?_cons, List.find?_nil]
  cases hr : r.has id <;> simp [last?]

/-- A manifest has a last one of its identity. -/
theorem isSome_last?_iff (manifests : List Value) (id : Identity) :
    (last? manifests id).isSome ↔
      ∃ manifest ∈ manifests, ∃ r, Resource.seen? manifest = some r ∧ r.identity = .ok id := by
  rw [last?, List.find?_isSome]
  simp only [List.mem_reverse, List.mem_filterMap, Resource.has_iff]
  constructor
  · rintro ⟨r, ⟨manifest, mem, seen⟩, h⟩
    exact ⟨manifest, mem, r, seen, h⟩
  · rintro ⟨manifest, mem, r, seen, h⟩
    exact ⟨r, ⟨manifest, mem, seen⟩, h⟩

namespace Cluster

/-- What one manifest can do to a load that ends well: it has no view and is skipped, or it has an
identity and is filed. -/
theorem loadFrom_cons {c c' : Cluster} {skipped n : Nat} {manifest : Value} {rest : List Value}
    (h : (loadFrom c skipped (manifest :: rest)).result = .ok (c', n)) :
    (Resource.seen? manifest = none ∧ (loadFrom c (skipped + 1) rest).result = .ok (c', n)) ∨
    ∃ r id, Resource.seen? manifest = some r ∧ r.identity = .ok id ∧
      (loadFrom (c.add r).2 skipped rest).result = .ok (c', n) := by
  rw [loadFrom, Traced.result_bind_eq_ok] at h
  obtain ⟨view, hview, h⟩ := h
  have seen : Resource.seen? manifest = view := by
    have hv : Resource.ofManifest? manifest none = .ok view := hview
    rw [Resource.seen?, hv]
  cases view with
  | none => exact .inl ⟨seen, h⟩
  | some r =>
    refine .inr ⟨r, ?_⟩
    simp only [Traced.result_bind_eq_ok] at h
    obtain ⟨added, hadded, h⟩ := h
    cases hid : r.identity with
    | error fault =>
      obtain ⟨⟨fault', refused⟩, -⟩ := find?_add_of_fault c hid
      have accepted : (c.add r).1 = .ok added := hadded
      rw [refused] at accepted
      cases accepted
    | ok id =>
      refine ⟨id, seen, rfl, ?_⟩
      cases added with
      | true => exact h
      | false =>
        simp only [Bool.false_eq_true, if_false, Traced.result_bind_eq_ok] at h
        obtain ⟨_, _, _, _, _, _, h⟩ := h
        exact h

/-- Loading more manifests into a cluster puts the last one of every identity in its place. -/
theorem find?_loadFrom {manifests : List Value} {c c' : Cluster} {skipped n : Nat}
    (filed : c.Filed) (h : (loadFrom c skipped manifests).result = .ok (c', n)) :
    c'.Filed ∧ ∀ id, c'.find? id = (last? manifests id).or (c.find? id) := by
  induction manifests generalizing c skipped with
  | nil =>
    cases h
    exact ⟨filed, fun _ => rfl⟩
  | cons manifest rest ih =>
    rcases loadFrom_cons h with ⟨unseen, h⟩ | ⟨r, id, seen, hid, h⟩
    · obtain ⟨filed', found⟩ := ih filed h
      refine ⟨filed', fun other => ?_⟩
      rw [found, last?_of_unseen unseen]
    · obtain ⟨filed', found⟩ := ih (filed_add filed r) h
      refine ⟨filed', fun other => ?_⟩
      rw [found, find?_add c hid, last?_of_seen seen, Option.or_assoc]
      congr 1
      by_cases same : id = other
      · have own : r.has other := Resource.has_iff.mpr (same ▸ hid)
        simp [same, own]
      · have notOwn : ¬ r.has other := fun own => same <| by
          rw [Resource.has_iff, hid] at own
          exact Except.ok.inj own
        simp [same, notOwn]

theorem result_load {manifests : List Value} {c : Cluster}
    (loaded : (load manifests).result = .ok c) :
    ∃ skipped, (loadFrom {} 0 manifests).result = .ok (c, skipped) := by
  rw [load, Traced.result_bind_eq_ok] at loaded
  obtain ⟨⟨c', skipped⟩, h, last⟩ := loaded
  simp only [Traced.result_bind_eq_ok] at last
  obtain ⟨_, _, last⟩ := last
  cases last
  exact ⟨skipped, h⟩

theorem filed_of_load {manifests : List Value} {c : Cluster}
    (loaded : (load manifests).result = .ok c) : c.Filed := by
  obtain ⟨skipped, h⟩ := result_load loaded
  exact (find?_loadFrom filed_empty h).1

/-- Under every identity stands the last manifest that has it. -/
theorem find?_load {manifests : List Value} {c : Cluster}
    (loaded : (load manifests).result = .ok c) (id : Identity) :
    c.find? id = last? manifests id := by
  obtain ⟨skipped, h⟩ := result_load loaded
  have empty : Cluster.find? {} id = none := by
    simp [find?, storesOf, Stores.find?, Stores.store, Store.get?]
  rw [(find?_loadFrom filed_empty h).2 id, empty, Option.or_none]

/-- The namespaces of a cluster are those of the manifests that belong to one. -/
theorem mem_spaceNames {manifests : List Value} {c : Cluster}
    (loaded : (load manifests).result = .ok c) (space : Text) :
    space ∈ c.spaceNames ↔
      ∃ kind name, kind.isNamespaced = true ∧ (last? manifests ⟨kind, space, name⟩).isSome := by
  rw [spaceNames, List.mem_mergeSort, (filed_of_load loaded).occupied]
  simp only [find?_load loaded]

theorem spaceNames_ascending {c : Cluster} (filed : c.Filed) :
    c.spaceNames.Pairwise Text.Before :=
  Text.pairwise_before_mergeSort filed.distinct

end Cluster

theorem Occurrence.output_append (trace trace' : List Occurrence) :
    output (trace ++ trace') = output trace ++ output trace' := List.filterMap_append

namespace Cluster

/-- All that filing manifests reports is which of them took the place of another. -/
theorem trace_loadFrom {manifests : List Value} {c : Cluster} {skipped : Nat} {o : Occurrence}
    (h : o ∈ (loadFrom c skipped manifests).trace) :
    ∃ kind space name, o = .resourceReplaced kind space name := by
  induction manifests generalizing c skipped with
  | nil => cases h
  | cons manifest rest ih =>
    rw [loadFrom] at h
    rcases Traced.mem_trace_bind h with h | ⟨view, -, h⟩
    · cases h
    · cases view with
      | none => exact ih h
      | some r =>
        rcases Traced.mem_trace_bind h with h | ⟨added, -, h⟩
        · cases h
        · cases added with
          | true => exact ih h
          | false =>
            rcases Traced.mem_trace_bind h with h | ⟨space, -, h⟩
            · cases h
            rcases Traced.mem_trace_bind h with h | ⟨name, -, h⟩
            · cases h
            rcases Traced.mem_trace_bind h with h | ⟨-, -, h⟩
            · exact ⟨r.kind, space, name, List.mem_singleton.mp h⟩
            · exact ih h

/-- Loading prints nothing. -/
theorem output_load (manifests : List Value) : Occurrence.output (load manifests).trace = [] := by
  rw [Occurrence.output, List.filterMap_eq_nil_iff]
  intro o ho
  rw [load] at ho
  rcases Traced.mem_trace_bind ho with ho | ⟨⟨c, skipped⟩, -, ho⟩
  · obtain ⟨kind, space, name, rfl⟩ := trace_loadFrom ho
    rfl
  · rcases Traced.mem_trace_bind ho with ho | ⟨-, -, ho⟩
    · rw [List.mem_singleton.mp ho]
    · cases ho

end Cluster

end ClusterMetadata
