import ClusterMetadata.Enrich
import ClusterMetadata.Proofs.OwnerChain

/-!
# The pods that are enriched

* `mem_podNames`, `podNames_ascending`: the names of a namespace's pods, in order;
* `podsIn_eq`: the pods that are chosen, read by identity;
* `enrich_eq`, `enrichSpace_eq`: what is left to do once the manifests are loaded.
-/
namespace ClusterMetadata

open Json (Value)

namespace Cluster

def podNames (c : Cluster) (space : Text) : List Text := ((c.storesOf space).store .pod).keys

theorem mem_podNames (c : Cluster) (space name : Text) :
    name ∈ c.podNames space ↔ (c.find? ⟨.pod, space, name⟩).isSome := by
  rw [podNames, Store.keys, List.mem_mergeSort, Table.mem_keys_iff]
  rfl

theorem podNames_ascending {c : Cluster} (filed : c.Filed) (space : Text) :
    (c.podNames space).Pairwise Text.Before :=
  Text.pairwise_before_mergeSort ((filed.spaces space).names .pod)

/-- The pod of a namespace that a name stands for: none for the empty name. -/
def podNamed? (c : Cluster) (space name : Text) : Option Resource :=
  if name = "" then none else c.find? ⟨.pod, space, name⟩

theorem lookup_podNamed? {c : Cluster} (filed : c.Filed) {space : Text} {store : Store}
    (own : Table.get? (c.storesOf space) .pod = some store) (name : Text) :
    lookup (some store) name (some .pod) = c.podNamed? space name := by
  have found : c.find? ⟨.pod, space, name⟩ = store.get? name := by
    change ((Table.get? (c.storesOf space) .pod).getD {}).get? name = store.get? name
    rw [own]
    rfl
  rw [lookup, podNamed?, found]
  by_cases empty : name = ""
  · simp [empty]
  · cases h : store.get? name with
    | none => simp [empty, h]
    | some r =>
      rw [h] at found
      have kind : r.kind = .pod :=
        (Resource.identity_eq_ok.mp (find?_identity filed found)).1
      simp [empty, h, kind]

/-- The chosen pods are those under the chosen names, of all names or of one. -/
theorem podsIn_eq {c : Cluster} (filed : c.Filed) (space : Text) (pod : Option Text) :
    c.podsIn space pod = (pod.elim (c.podNames space) ([·])).filterMap (c.podNamed? space) := by
  unfold podsIn
  cases own : Table.get? (c.storesOf space) .pod with
  | none =>
    have nothing (name : Text) : c.podNamed? space name = none := by
      have missing : c.find? ⟨.pod, space, name⟩ = none := by
        change ((Table.get? (c.storesOf space) .pod).getD {}).get? name = none
        rw [own]
        rfl
      rw [podNamed?, missing, ite_self]
    exact (List.filterMap_eq_nil_iff.mpr fun name _ => nothing name).symm
  | some store =>
    have names : c.podNames space = store.keys := by
      change ((Table.get? (c.storesOf space) .pod).getD {}).keys = store.keys
      rw [own]
      rfl
    have same : (fun name => lookup (some store) name (some .pod)) = c.podNamed? space :=
      funext (lookup_podNamed? filed own)
    cases pod with
    | none => rw [Option.elim_none, names, ← same]
    | some name => rw [Option.elim_some, ← same]

end Cluster

namespace Settings

/-- Prints the documents of the chosen pods of a cluster. -/
def enrichLoaded (s : Settings) (filter : PodFilter) (c : Cluster) : Drafting Nat := do
  let spaces := match filter.space with
    | none => c.spaceNames
    | some space => [space]
  let counts ← spaces.mapM (s.enrichSpace c filter)
  match filter.pod, counts.foldl (· + ·) 0 with
  | some pod, 0 =>
    Traced.report (.podNotFound pod filter.space)
    return 1
  | _, count =>
    Traced.report (.enrichmentFinished count)
    return 0

theorem enrich_eq (s : Settings) (filter : PodFilter) (manifests : List Value) :
    s.enrich filter manifests =
      liftM (Cluster.load manifests) >>= s.enrichLoaded filter := rfl

theorem enrichSpace_eq (s : Settings) (c : Cluster) (filter : PodFilter) (space : Text) :
    s.enrichSpace c filter space =
      if (c.podsIn space filter.pod).isEmpty then pure 0
      else s.withPods (c.storesFor space) fun g => do
        (c.podsIn space filter.pod).forM (g.printPod filter.nativeOnly)
        return (c.podsIn space filter.pod).length := rfl

end Settings

end ClusterMetadata
