import ClusterMetadata.Store
import ClusterMetadata.Traced

/-! The objects of a cluster, filed by namespace and kind.

Owners are looked up by bare name, so every namespace has stores of its own; what belongs to the
whole cluster is kept once. -/
namespace ClusterMetadata

open Json (Value)

abbrev Stores := Table Kind Store

/-- The stores of each namespace, and the shared ones of what belongs to the whole cluster. -/
structure Cluster where
  shared : Stores := []
  spaces : Table Text Stores := []

namespace Stores

def store (stores : Stores) (kind : Kind) : Store := (Table.get? stores kind).getD {}

/-- Files a resource under its kind and says whether its name is new. The store of the kind is there
afterwards even when the name cannot be read. -/
def file (stores : Stores) (r : Resource) : Except Fault Bool × Stores :=
  let store := stores.store r.kind
  match r.name with
  | .error fault => (.error fault, Table.insert stores r.kind store)
  | .ok name =>
    (.ok (!Table.contains store.objects name),
      Table.insert stores r.kind { store with objects := Table.insert store.objects name r })

end Stores

namespace Cluster

def storesOf (c : Cluster) (space : Text) : Stores := (Table.get? c.spaces space).getD []

/-- Files a resource and says whether its identity is new. -/
def add (c : Cluster) (r : Resource) : Except Fault Bool × Cluster :=
  if r.kind.isNamespaced then
    match r.space with
    | .error fault => (.error fault, c)
    | .ok space =>
      let (added, stores) := (c.storesOf space).file r
      (added, { c with spaces := Table.insert c.spaces space stores })
  else
    let (added, stores) := Stores.file c.shared r
    (added, { c with shared := stores })

/-- Files an object, which is refused when it is not a resource. -/
def addObject (c : Cluster) (object : Option Resource) : Except Fault Bool × Cluster :=
  match Resource.required object with
  | .ok r => c.add r
  | .error fault => (.error fault, c)

def spaceNames (c : Cluster) : List Text := (Table.keys c.spaces).mergeSort Text.le

/-- The stores that a generator of a namespace reads: the shared ones and the namespace's own. -/
def storesFor (c : Cluster) (space : Text) : Stores :=
  (c.storesOf space).foldl (fun stores (kind, store) => Table.insert stores kind store) c.shared

def sharedCounts (c : Cluster) : List (Kind × Nat) :=
  (c.shared.map fun (kind, store) => (kind, store.size)).mergeSort fun a b => a.1.name ≤ b.1.name

/-- Files manifests one after the other and counts those without a typed view. -/
def loadFrom (c : Cluster) (skipped : Nat) : List Value → Traced (Cluster × Nat)
  | [] => pure (c, skipped)
  | manifest :: rest => do
    match ← Resource.ofManifest? manifest none with
    | none => loadFrom c (skipped + 1) rest
    | some r =>
      let (added, c) := c.add r
      if ← added then loadFrom c skipped rest
      else
        Traced.report (.resourceReplaced r.kind (← r.space) (← r.name))
        loadFrom c skipped rest

def load (manifests : List Value) : Traced Cluster := do
  let (c, skipped) ← loadFrom {} 0 manifests
  Traced.report (.storesLoaded c.spaceNames c.sharedCounts skipped)
  return c

end Cluster

end ClusterMetadata
