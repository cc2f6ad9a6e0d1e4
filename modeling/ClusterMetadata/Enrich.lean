import ClusterMetadata.Enricher
import ClusterMetadata.Json.Depth
import ClusterMetadata.Json.Writer

/-! Enrichment of all pods of a list of manifests, one line of JSON for each. -/
namespace ClusterMetadata

open Json (Value)

/-- Which pods are enriched, and how much of their documents is printed. -/
structure PodFilter where
  pod : Option Text := none
  space : Option Text := none
  nativeOnly : Bool := false
deriving DecidableEq, Repr

/-- The manifests of a file: the objects of an array, of the items of an object, or one object. -/
def manifestsOf? (v : Value) : Option (List Value) :=
  let all := match v with
    | .array items => some items
    | .object fields =>
      match Table.get? fields "items" with
      | some (.array items) => some items
      | _ => some [v]
    | _ => none
  all.map (·.filter (·.isObject))

/-- The pods of a namespace by ascending name, or the one with a name. -/
def Cluster.podsIn (c : Cluster) (space : Text) (pod : Option Text) : List Resource :=
  match Table.get? (c.storesOf space) .pod with
  | none => []
  | some store =>
    let names := match pod with
      | none => store.keys
      | some name => [name]
    names.filterMap fun name => lookup (some store) name (some .pod)

/-- The line of a value, unless it is nested deeper than is written. -/
def Json.Value.line (v : Value) : Except Fault String :=
  if v.depth ≤ Json.writingRoom then .ok v.lineOf else .error .tooDeep

def Generator.printPod (g : Generator) (nativeOnly : Bool) (r : Resource) : Drafting Unit := do
  let d ← if nativeOnly then g.native (some r) [] else g.generate (some r) []
  let line ← Json.Value.line (match d with
    | some d => .object d
    | none => .null)
  Traced.report (.printed line)

/-- Prints the documents of the chosen pods of a namespace and counts them. -/
def Settings.enrichSpace (s : Settings) (c : Cluster) (filter : PodFilter) (space : Text) :
    Drafting Nat :=
  let pods := c.podsIn space filter.pod
  if pods.isEmpty then pure 0
  else do
    let g ← s.buildPodGenerator (c.storesFor space)
    pods.forM (g.printPod filter.nativeOnly)
    return pods.length

/-- Prints the documents of the chosen pods and gives the exit code: one when a pod asked for by
name is nowhere, zero otherwise. -/
def Settings.enrich (s : Settings) (filter : PodFilter) (manifests : List Value) :
    Drafting Nat := do
  let c ← Cluster.load manifests
  let spaces := match filter.space with
    | none => c.spaceNames
    | some space => [space]
  let counts ← spaces.mapM (s.enrichSpace c filter)
  match filter.pod, counts.foldl (· + ·) 0 with
  | some pod, 0 =>
    Traced.report (.podNotFound pod filter.space)
    return 1
  | _, count =>
    Traced.report (.enrichmentFinished count)
    return 0

end ClusterMetadata
