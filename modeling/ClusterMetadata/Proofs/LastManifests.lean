import Mathlib
import ClusterMetadata.Proofs.Locality
import ClusterMetadata.Proofs.Runs

/-!
# The last manifests decide

Two lists of manifests that have the same last manifest of every identity are enriched alike, in
whatever order and with whatever else they come.

* `enrichLoaded_congr`: clusters with the same under every identity are enriched alike;
* `run_congr`: so are two inputs with the same last manifests, in whatever envelope.
-/
namespace ClusterMetadata

open Json (Value)

theorem agreeAround_of_same {find find' : Identity → Option Resource} (same : find = find')
    (space name : Text) : AgreeAround find find' space name := by
  subst same
  exact ⟨rfl, rfl, fun _ _ _ _ => rfl, fun _ _ _ _ _ => rfl⟩

namespace Drafting

/-- Loops with the same steps are one loop. -/
theorem forM_congr {α : Type} {items : List α} {step step' : α → Drafting Unit}
    (same : ∀ item ∈ items, step item = step' item) : items.forM step = items.forM step' := by
  induction items with
  | nil => rfl
  | cons item rest ih =>
    change (step item >>= fun _ => rest.forM step) = (step' item >>= fun _ => rest.forM step')
    rw [same item List.mem_cons_self, ih fun other mem => same other (List.mem_cons_of_mem _ mem)]

end Drafting

namespace Cluster

variable {c c' : Cluster} (filed : c.Filed) (filed' : c'.Filed) (same : c.find? = c'.find?)
include filed filed' same

/-- The namespaces do not depend on the order in which they were first met. -/
theorem spaceNames_congr : c.spaceNames = c'.spaceNames := by
  apply Text.mergeSort_congr filed.distinct filed'.distinct
  intro space
  rw [filed.occupied, filed'.occupied, same]

theorem podNames_congr (space : Text) : c.podNames space = c'.podNames space := by
  apply Text.mergeSort_congr ((filed.spaces space).names .pod) ((filed'.spaces space).names .pod)
  intro name
  have mem := c.mem_podNames space name
  have mem' := c'.mem_podNames space name
  rw [podNames, Store.keys, List.mem_mergeSort] at mem mem'
  rw [mem, mem', same]

theorem podsIn_congr (space : Text) (pod : Option Text) :
    c.podsIn space pod = c'.podsIn space pod := by
  have named : c.podNamed? space = c'.podNamed? space := by
    funext name
    rw [podNamed?, podNamed?, same]
  rw [podsIn_eq filed, podsIn_eq filed', podNames_congr filed filed' same, named]

end Cluster

namespace Settings

variable {c c' : Cluster} (filed : c.Filed) (filed' : c'.Filed) (same : c.find? = c'.find?)
include filed filed' same

/-- The line of a pod of a namespace is the same in both clusters. -/
theorem printPod_congr (s : Settings) {space name : Text} {pod : Resource}
    (found : c.find? ⟨.pod, space, name⟩ = some pod) (nativeOnly : Bool) :
    (s.podGenerator (c.storesFor space)).printPod nativeOnly pod =
      (s.podGenerator (c'.storesFor space)).printPod nativeOnly pod := by
  have build := s.build_congr filed filed' (agreeAround_of_same same space name) found
  have native : (s.podGenerator (c.storesFor space)).native (some pod) [] =
      (s.podGenerator (c'.storesFor space)).native (some pod) [] :=
    Generator.native_congr rfl build
  have both : (s.podGenerator (c.storesFor space)).generate (some pod) [] =
      (s.podGenerator (c'.storesFor space)).generate (some pod) [] :=
    Generator.generate_congr rfl rfl build
  rw [Generator.printPod, Generator.printPod, native, both]

theorem enrichSpace_congr (s : Settings) (filter : PodFilter) (space : Text) :
    s.enrichSpace c filter space = s.enrichSpace c' filter space := by
  rw [enrichSpace_eq, enrichSpace_eq, ← Cluster.podsIn_congr filed filed' same]
  split
  · rfl
  · apply s.withPods_congr
    refine congrArg (· >>= _) (Drafting.forM_congr fun pod mem => ?_)
    rw [Cluster.podsIn_eq filed] at mem
    obtain ⟨name, -, chosen⟩ := List.mem_filterMap.mp mem
    rw [Cluster.podNamed?] at chosen
    split at chosen
    · cases chosen
    · exact s.printPod_congr filed filed' same chosen filter.nativeOnly

/-- Clusters that have the same under every identity are enriched alike. -/
theorem enrichLoaded_congr (s : Settings) (filter : PodFilter) :
    s.enrichLoaded filter c = s.enrichLoaded filter c' := by
  have spaces : s.enrichSpace c filter = s.enrichSpace c' filter :=
    funext (s.enrichSpace_congr filed filed' same filter)
  rw [enrichLoaded, enrichLoaded, spaces, Cluster.spaceNames_congr filed filed' same]

end Settings

namespace CommandLine

/-- Runs with the same environment and the same options print the same and end alike when the last
manifests of their inputs are the same, unless one of them is cut short. -/
theorem run_congr {world world' : World} (environment : world.environment = world'.environment)
    {args args' : List String} {source source' : Source} {filter : PodFilter} {extra : List String}
    (request : Request.ofArguments args = .ok (.enrich source filter extra))
    (request' : Request.ofArguments args' = .ok (.enrich source' filter extra))
    {manifests manifests' : List Value} (held : world.holds source manifests)
    (held' : world'.holds source' manifests')
    (same : ∀ id, last? manifests id = last? manifests' id)
    (finished : (run world args).crash = none) (finished' : (run world' args').crash = none) :
    (run world args).output = (run world' args').output ∧
      (run world args).exitCode = (run world' args').exitCode := by
  rw [run_enrich request held] at finished ⊢
  rw [run_enrich request' held', ← environment] at finished' ⊢
  split
  · exact ⟨rfl, rfl⟩
  · next noExtra =>
    rw [if_neg noExtra] at finished finished'
    cases loadedSettings : Settings.load world.environment with
    | error e => exact ⟨rfl, rfl⟩
    | ok s =>
      rw [loadedSettings] at finished finished'
      obtain ⟨c, loaded⟩ := Report.load_of_finished finished
      obtain ⟨c', loaded'⟩ := Report.load_of_finished finished'
      have found : c.find? = c'.find? := by
        funext id
        rw [Cluster.find?_load loaded, Cluster.find?_load loaded', same]
      have rest := s.enrichLoaded_congr (Cluster.filed_of_load loaded)
        (Cluster.filed_of_load loaded') found filter
      obtain ⟨output, exitCode, -⟩ := Report.enrichment_of_load s filter loaded
      obtain ⟨output', exitCode', -⟩ := Report.enrichment_of_load s filter loaded'
      exact ⟨by rw [output, output', rest], by rw [exitCode, exitCode', rest]⟩

def World.ofText (text : String) : World := ⟨[], fun _ => .ok text⟩

def loneText : String := "\x7b\"kind\": \"Pod\", \"metadata\": \x7b\"name\": \"a\"\x7d\x7d"

def lonePod : Value :=
  .object [("kind", .string "Pod"), ("metadata", .object [("name", .string "a")])]

/-- The pod among other items: a number, an older manifest of it, and one of an unknown kind. -/
def crowdedText : String :=
  "\x7b\"items\": [1, \x7b\"kind\": \"Pod\", \"metadata\": \x7b\"name\": \"a\", \"uid\": \"u\"\x7d\x7d, " ++
    "\x7b\"kind\": \"X\"\x7d, " ++ loneText ++ "]\x7d"

def olderPod : Value :=
  .object [("kind", .string "Pod"),
    ("metadata", .object [("name", .string "a"), ("uid", .string "u")])]

def unknownManifest : Value := .object [("kind", .string "X")]

theorem lone_holds : (World.ofText loneText).holds .standardInput [lonePod] :=
  ⟨loneText, lonePod, rfl, by cbv, rfl⟩

theorem crowded_holds :
    (World.ofText crowdedText).holds .standardInput [olderPod, unknownManifest, lonePod] :=
  ⟨crowdedText, .object [("items", .array [.int 1, olderPod, unknownManifest, lonePod])], rfl,
    by cbv, rfl⟩

theorem lone_finished : (run (.ofText loneText) ["enrich", "-"]).crash = none := by cbv

theorem crowded_finished : (run (.ofText crowdedText) ["enrich", "-"]).crash = none := by cbv

theorem last?_crowded (id : Identity) :
    last? [lonePod] id = last? [olderPod, unknownManifest, lonePod] id := by
  have older : Resource.seen? olderPod = some ⟨.pod, 0, olderPod⟩ := rfl
  have unseen : Resource.seen? unknownManifest = none := rfl
  have seen : Resource.seen? lonePod = some ⟨.pod, 0, lonePod⟩ := rfl
  have one : Resource.has ⟨.pod, 0, olderPod⟩ id = Resource.has ⟨.pod, 0, lonePod⟩ id := rfl
  rw [last?_of_seen older, last?_of_unseen unseen, last?_of_seen seen, one]
  cases Resource.has ⟨.pod, 0, lonePod⟩ id <;> rfl

/-- What stands around the pod and before it changes nothing. -/
theorem run_congr_crowded :
    (run (.ofText loneText) ["enrich", "-"]).output =
        (run (.ofText crowdedText) ["enrich", "-"]).output ∧
      (run (.ofText loneText) ["enrich", "-"]).exitCode =
        (run (.ofText crowdedText) ["enrich", "-"]).exitCode := by
  have request : Request.ofArguments ["enrich", "-"] = .ok (.enrich .standardInput {} []) := by
    cbv
  have environment : (World.ofText loneText).environment =
      (World.ofText crowdedText).environment := rfl
  exact run_congr environment request request lone_holds crowded_holds last?_crowded lone_finished
    crowded_finished

end CommandLine

end ClusterMetadata
