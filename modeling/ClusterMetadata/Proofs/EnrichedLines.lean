import ClusterMetadata.Proofs.ChosenPods
import ClusterMetadata.Proofs.LastManifests
import ClusterMetadata.Proofs.SameLines

/-!
# The lines of a run

* `prints_enrichLoaded`: a cluster is enriched by printing one line for each of them;
* `run_prints_pods`: a run prints one line for every pod that its manifests name, in order, each
  made after the ones before it; where the sections that two pods show are lasting each is the line
  that the pod has on its own.
-/
namespace ClusterMetadata

open Json (Value)

namespace Settings

open Drafting (Prints)

variable {c : Cluster} (filed : c.Filed)
include filed

/-- Enriching a cluster prints one line for each of its pods. -/
theorem prints_enrichLoaded (s : Settings) (nativeOnly : Bool) :
    Prints (s.enrichLoaded ⟨none, none, nativeOnly⟩ c)
      (c.podKeys.mapM (s.podLine c nativeOnly c.find?)) := by
  rw [← Cluster.chosenKeys_all nativeOnly]
  exact (s.delivers_enrichLoaded filed ⟨none, none, nativeOnly⟩).prints

/-- A pod has one line, as long as the sections that it shows are due. -/
theorem steady_podLine (s : Settings) (proper : c.Proper) (nativeOnly : Bool) :
    ∀ key ∈ c.podKeys, (s.podLine c nativeOnly c.find? key).Steady s.terms (s.Uses c.find? key)
      (s.Needs c.find? key) Generator.SameResult := by
  rintro ⟨space, name⟩ mem
  obtain ⟨-, isFiled⟩ := (Cluster.mem_podKeys filed space name).mp mem
  obtain ⟨pod, isFiled⟩ := Option.isSome_iff_exists.mp isFiled
  have kind : pod.kind = .pod := Cluster.kind_of_find? filed isFiled
  rw [podLine, isFiled]
  exact Generator.steady_lineOf kind (steady_podGenerator filed proper isFiled) nativeOnly

/-- Every pod has its line on its own when what two of them show is lasting. -/
theorem lines_alone (s : Settings) (proper : c.Proper) {nativeOnly : Bool}
    (lasting : ∀ pod ∈ c.podKeys, ∀ pod' ∈ c.podKeys, pod ≠ pod' → ∀ r, s.ShownWith c.find? pod r →
      s.ShownWith c.find? pod' r → s.Lasting r) {output : List String}
    (printed : (c.podKeys.mapM (s.podLine c nativeOnly c.find?)).fromStart.result = .ok output) :
    c.podKeys.mapM (fun pod => (s.podLine c nativeOnly c.find? pod).fromStart.result) =
      .ok output := by
  have apart : c.podKeys.Pairwise fun key key' => ∀ lender, s.Uses c.find? key lender →
      s.Needs c.find? key' lender.owner → s.terms.Lasting lender.owner := by
    refine List.Pairwise.imp_of_mem ?_ (Cluster.podKeys_ascending filed)
    intro key key' mem mem' before lender used needed
    have other : key ≠ key' := Text.PairBefore.ne before
    obtain ⟨shown, shown'⟩ := shownWith_both filed other used needed
    exact lasting key mem key' mem' other _ shown shown'
  have start (lender : Lender) := Inventory.gives_bare s.terms lender
  exact Drafting.results_of_steady (s.steady_podLine filed proper nativeOnly) apart
    (fun lender => ⟨_, start lender⟩)
    (fun _ _ lender _ => start lender) printed

end Settings

namespace CommandLine

/-- A run that asks for all pods prints one line for each namespace and name that a pod manifest
with a name has, by ascending namespace and name. The lines are those of the last manifests, made
one after the other by the generators of their namespaces. When the sections of every namespace and
node that is shown with two of the pods are lasting, each line is the one that its pod has on its
own. -/
theorem run_prints_pods {world : World} {args : List String} {source : Source} {nativeOnly : Bool}
    (request : Request.ofArguments args = .ok (.enrich source ⟨none, none, nativeOnly⟩ []))
    {manifests : List Value} (held : world.holds source manifests) {s : Settings}
    (settings : Settings.load world.environment = .ok s)
    (finished : (run world args).crash = none) :
    ∃ (c : Cluster) (pods : List (Text × Text)), (Cluster.load manifests).result = .ok c ∧
      pods.Pairwise Text.PairBefore ∧
      (∀ space name, (space, name) ∈ pods ↔ name ≠ "" ∧ ∃ manifest ∈ manifests, ∃ r,
        Resource.seen? manifest = some r ∧ r.identity = .ok ⟨.pod, space, name⟩) ∧
      (pods.mapM (s.podLine c nativeOnly (last? manifests))).fromStart.result =
        .ok (run world args).output ∧
      ((∀ pod ∈ pods, ∀ pod' ∈ pods, pod ≠ pod' → ∀ r, s.ShownWith (last? manifests) pod r →
          s.ShownWith (last? manifests) pod' r → s.Lasting r) →
        pods.mapM (fun pod => (s.podLine c nativeOnly (last? manifests) pod).fromStart.result) =
          .ok (run world args).output) := by
  have proper := World.proper_holds held
  rw [run_enrich request held, settings] at finished ⊢
  obtain ⟨c, loaded⟩ := Report.load_of_finished finished
  have filed := Cluster.filed_of_load loaded
  have found : c.find? = last? manifests := funext (Cluster.find?_load loaded)
  obtain ⟨output, -, ends⟩ := Report.enrichment_of_load s ⟨none, none, nativeOnly⟩ loaded
  obtain ⟨code, ended⟩ := ends.mp finished
  have lines := (s.prints_enrichLoaded filed nativeOnly {} code ended).1
  have printed : (c.podKeys.mapM (s.podLine c nativeOnly c.find?)).fromStart.result =
      .ok (Report.enrichment s ⟨none, none, nativeOnly⟩ manifests).output := by
    rw [output]
    exact lines
  rw [← found]
  refine ⟨c, c.podKeys, loaded, Cluster.podKeys_ascending filed, fun space name => ?_, printed,
    fun lasting => ?_⟩
  · rw [Cluster.mem_podKeys filed, found, isSome_last?_iff]
  · have ofLast : c.Proper := fun id r there => proper_last proper (by rw [← found]; exact there)
    exact s.lines_alone filed ofLast lasting printed

/-! ## Two pods of one namespace -/

def labelledSpace (labels : Json.Fields) : Value :=
  .object [("kind", .string "Namespace"),
    ("metadata", .object [("name", .string "d"), ("labels", .object labels)])]

def podInSpace (name : Text) : Value :=
  .object [("kind", .string "Pod"),
    ("metadata", .object [("name", .string name), ("namespace", .string "d")])]

/-- A label that is written into the map that is the value of another. -/
def nestedLabels : Json.Fields := [("t", .object []), ("t.b", .int 1)]

def nestedManifests : List Value := [labelledSpace nestedLabels, podInSpace "a", podInSpace "b"]

def nestedText : String :=
  "[\x7b\"kind\":\"Namespace\"," ++
    "\"metadata\":\x7b\"name\":\"d\",\"labels\":\x7b\"t\":\x7b\x7d,\"t.b\":1\x7d\x7d\x7d," ++
    "\x7b\"kind\":\"Pod\",\"metadata\":\x7b\"name\":\"a\",\"namespace\":\"d\"\x7d\x7d," ++
    "\x7b\"kind\":\"Pod\",\"metadata\":\x7b\"name\":\"b\",\"namespace\":\"d\"\x7d\x7d]"

def World.nested (text : String) : World :=
  ⟨[("KUBEMETA_LABELS_DEDOT", "no")], fun _ => .ok text⟩

def nestedSettings : Settings :=
  let selection : Selection := { dedotLabels := false }
  { selection, owners := { node := { selection }, space := { selection } } }

theorem nested_settings (text : String) :
    Settings.load (World.nested text).environment = .ok nestedSettings := by cbv

theorem nested_request : Request.ofArguments ["enrich", "-"] =
    .ok (.enrich .standardInput ⟨none, none, false⟩ []) := by cbv

set_option maxRecDepth 20000 in
theorem nested_holds :
    (World.nested nestedText).holds .standardInput nestedManifests :=
  ⟨nestedText, .array nestedManifests, rfl, by cbv, rfl⟩

theorem nested_finished : (run (.nested nestedText) ["enrich", "-"]).crash = none := by
  rw [run_enrich nested_request nested_holds, nested_settings]
  cbv

/-- Writing the one label into the other again changes nothing. -/
theorem lasting_nested {id : Identity} (kind : id.kind ≠ .pod) {r : Resource}
    (found : last? nestedManifests id = some r) : nestedSettings.Lasting r := by
  have own : r.kind = id.kind :=
    (Resource.identity_eq_ok.mp (Resource.has_iff.mp
      (List.find?_some (p := (Resource.has · id)) found))).1
  have mem := List.mem_reverse.mp (List.mem_of_find?_eq_some found)
  have all : nestedManifests.filterMap Resource.seen? =
      [⟨.namespace, 0, labelledSpace nestedLabels⟩, ⟨.pod, 0, podInSpace "a"⟩,
        ⟨.pod, 0, podInSpace "b"⟩] := rfl
  rw [all] at mem
  simp only [List.mem_cons, List.not_mem_nil, or_false] at mem
  rcases mem with rfl | rfl | rfl
  · intro map
    cases map <;> cbv
  · exact absurd own.symm kind
  · exact absurd own.symm kind

/-- Two pods that show the labels of their namespace have their lines on their own. -/
theorem run_prints_shared :
    ∃ (c : Cluster) (pods : List (Text × Text)), (("d" : Text), ("a" : Text)) ∈ pods ∧
      (("d" : Text), ("b" : Text)) ∈ pods ∧
      pods.mapM (fun pod => (nestedSettings.podLine c false
        (last? nestedManifests) pod).fromStart.result) =
        .ok (run (.nested nestedText) ["enrich", "-"]).output := by
  obtain ⟨c, pods, -, -, named, -, alone⟩ :=
    run_prints_pods nested_request nested_holds (nested_settings nestedText) nested_finished
  refine ⟨c, pods, (named "d" "a").mpr ⟨by decide, _, .tail _ (.head _), _, rfl, rfl⟩,
    (named "d" "b").mpr ⟨by decide, _, .tail _ (.tail _ (.head _)), _, rfl, rfl⟩,
    alone fun pod _ pod' _ _ r shown _ => ?_⟩
  rcases shown with ⟨-, -, found⟩ | ⟨-, _, _, -, -, -, found⟩
  · exact lasting_nested (show Kind.namespace ≠ .pod by decide) found
  · exact lasting_nested (show Kind.node ≠ .pod by decide) found

/-- Labels of which a null gives way to a map that is written into another: made again, the section
finds the map and keeps the null in it. -/
def fadingLabels : Json.Fields := [("t", .object []), ("t.b", .null), ("t.b.c", .int 1)]

example :
    let lender : Lender := ⟨.labels, ⟨.namespace, 0, labelledSpace fadingLabels⟩⟩
    let first : Json.Fields := [("t", .object [("b", .object [("c", .int 1)])])]
    let next : Json.Fields :=
      [("t", .object [("b", .object [("c", .int 1), ("value", .null)])])]
    nestedSettings.terms.first lender = first ∧ nestedSettings.terms.next lender first = next := by
  constructor <;> cbv

end CommandLine

end ClusterMetadata
