import ClusterMetadata.Proofs.PrintedLines

/-!
# The pods that a filter chooses

A filter asks for all names or for one, in all namespaces or in one. Either way the pods are those
of the cluster that it chooses, in their order.

* `podKeys`: the pods of a cluster by namespace and name, in ascending order;
* `chosenKeys`: the pods that a filter asks for, by the names that it asks for;
* `chosenKeys_eq`: they are the pods of the cluster that the filter chooses;
* `delivers_enrichLoaded`: a cluster is enriched by printing one line for each of them, and the exit
  code tells whether a pod asked for by name is there.
-/
namespace ClusterMetadata

open Json (Value)

/-- Pairs of a namespace and a name are ordered by the namespace first. -/
def Text.PairBefore (a b : Text × Text) : Prop :=
  a.1.Before b.1 ∨ (a.1 = b.1 ∧ a.2.Before b.2)

theorem Text.PairBefore.ne {a b : Text × Text} (h : Text.PairBefore a b) : a ≠ b := by
  rintro rfl
  rcases h with before | ⟨-, before⟩ <;> exact before.2 rfl

/-- One of two pairs in order does not come after the other. -/
theorem Text.PairBefore.asymm {a b : Text × Text} (h : Text.PairBefore a b) :
    ¬ Text.PairBefore b a := by
  rintro (back | ⟨same, back⟩)
  · rcases h with before | ⟨same, -⟩
    · exact before.2 (Text.le_antisymm before.1 back.1)
    · exact back.2 same.symm
  · rcases h with before | ⟨-, before⟩
    · exact before.2 same.symm
    · exact before.2 (Text.le_antisymm before.1 back.1)

/-- Pairs in order are told by their members. -/
theorem Text.eq_of_ascending {keys keys' : List (Text × Text)}
    (ascending : keys.Pairwise Text.PairBefore) (ascending' : keys'.Pairwise Text.PairBefore)
    (same : ∀ key, key ∈ keys ↔ key ∈ keys') : keys = keys' := by
  have distinct : keys.Nodup := ascending.imp Text.PairBefore.ne
  have distinct' : keys'.Nodup := ascending'.imp Text.PairBefore.ne
  apply List.Perm.eq_of_pairwise (fun _ _ _ _ before back => absurd back before.asymm) ascending
    ascending'
  exact (List.perm_ext_iff_of_nodup distinct distinct').mpr same

/-- The pod under a namespace and a name is one that a filter asks for. -/
def PodFilter.chooses (filter : PodFilter) (key : Text × Text) : Bool :=
  filter.space.all (· = key.1) && filter.pod.all (· = key.2)

/-- What is among all is asked for if nothing else is. -/
theorem mem_elim_iff (asked : Option Text) {all : List Text} {t : Text} (mem : t ∈ all) :
    t ∈ asked.elim all ([·]) ↔ asked.all (· = t) = true := by
  cases asked with
  | none => simpa using mem
  | some u => simp [eq_comm]

theorem pairwise_elim {asked : Option Text} {all : List Text} (ascending : all.Pairwise Text.Before) :
    (asked.elim all ([·])).Pairwise Text.Before := by
  cases asked with
  | none => exact ascending
  | some u => exact List.pairwise_singleton _ _

namespace Cluster

def podKeysIn (c : Cluster) (space : Text) : List (Text × Text) :=
  ((c.podNames space).filter fun name : Text => name ≠ "").map (space, ·)

def podKeys (c : Cluster) : List (Text × Text) := c.spaceNames.flatMap c.podKeysIn

def chosenKeysIn (c : Cluster) (filter : PodFilter) (space : Text) : List (Text × Text) :=
  ((filter.pod.elim (c.podNames space) ([·])).filter fun name =>
    (c.podNamed? space name).isSome).map (space, ·)

def chosenKeys (c : Cluster) (filter : PodFilter) : List (Text × Text) :=
  (filter.space.elim c.spaceNames ([·])).flatMap (c.chosenKeysIn filter)

variable {c : Cluster}

theorem isSome_podNamed? {space name : Text} :
    (c.podNamed? space name).isSome ↔ name ≠ "" ∧ (c.find? ⟨.pod, space, name⟩).isSome := by
  rw [podNamed?]
  split <;> simp [*]

/-- A filter that asks for nothing else asks for all pods. -/
theorem chosenKeys_all (nativeOnly : Bool) : c.chosenKeys ⟨none, none, nativeOnly⟩ = c.podKeys := by
  have inSpace (space : Text) : c.chosenKeysIn ⟨none, none, nativeOnly⟩ space = c.podKeysIn space := by
    rw [chosenKeysIn, podKeysIn, Option.elim_none]
    refine congrArg _ (List.filter_congr fun name mem => ?_)
    rw [Bool.eq_iff_iff, isSome_podNamed?, ← mem_podNames]
    simp [mem]
  rw [chosenKeys, podKeys, Option.elim_none, funext inSpace]

variable (filed : c.Filed)
include filed

theorem mem_spaceNames_of_pod {space name : Text} (found : (c.find? ⟨.pod, space, name⟩).isSome) :
    space ∈ c.spaceNames := by
  rw [spaceNames, List.mem_mergeSort, filed.occupied]
  exact ⟨.pod, name, rfl, found⟩

theorem mem_chosenKeys (filter : PodFilter) (space name : Text) :
    (space, name) ∈ c.chosenKeys filter ↔ filter.chooses (space, name) = true ∧
      name ≠ "" ∧ (c.find? ⟨.pod, space, name⟩).isSome := by
  have own : (space, name) ∈ c.chosenKeys filter ↔ space ∈ filter.space.elim c.spaceNames ([·]) ∧
      name ∈ filter.pod.elim (c.podNames space) ([·]) ∧ (c.podNamed? space name).isSome := by
    simp [chosenKeys, chosenKeysIn]
  rw [own, isSome_podNamed?, PodFilter.chooses, Bool.and_eq_true, ← and_assoc]
  refine and_congr_left fun ⟨_, found⟩ => ?_
  have inSpace := mem_elim_iff filter.space (mem_spaceNames_of_pod filed found)
  have under := mem_elim_iff filter.pod ((c.mem_podNames space name).mpr found)
  rw [inSpace, under]

theorem chosenKeys_ascending (filter : PodFilter) :
    (c.chosenKeys filter).Pairwise Text.PairBefore := by
  rw [chosenKeys, List.pairwise_flatMap]
  constructor
  · intro space _
    rw [chosenKeysIn, List.pairwise_map]
    refine ((pairwise_elim (podNames_ascending filed space)).filter _).imp fun before => ?_
    exact .inr ⟨rfl, before⟩
  · refine (pairwise_elim (spaceNames_ascending filed)).imp fun {space space'} before => ?_
    intro key mem key' mem'
    obtain ⟨name, -, rfl⟩ := List.mem_map.mp mem
    obtain ⟨name', -, rfl⟩ := List.mem_map.mp mem'
    exact .inl before

theorem mem_podKeys (space name : Text) :
    (space, name) ∈ c.podKeys ↔ name ≠ "" ∧ (c.find? ⟨.pod, space, name⟩).isSome := by
  rw [← chosenKeys_all false, mem_chosenKeys filed]
  exact and_iff_right rfl

theorem podKeys_ascending : c.podKeys.Pairwise Text.PairBefore := by
  rw [← chosenKeys_all false]
  exact chosenKeys_ascending filed _

/-- The pods that a filter asks for are those of the cluster that it chooses. -/
theorem chosenKeys_eq (filter : PodFilter) :
    c.chosenKeys filter = c.podKeys.filter filter.chooses := by
  apply Text.eq_of_ascending (chosenKeys_ascending filed filter)
    ((podKeys_ascending filed).filter filter.chooses)
  rintro ⟨space, name⟩
  rw [mem_chosenKeys filed, List.mem_filter, mem_podKeys filed, and_comm]

/-- The pods of a namespace that are chosen are the ones under the chosen keys. -/
theorem podsIn_keys (filter : PodFilter) (space : Text) :
    (c.podsIn space filter.pod).map some =
      (c.chosenKeysIn filter space).map fun key => c.find? ⟨.pod, key.1, key.2⟩ := by
  rw [podsIn_eq filed, chosenKeysIn, List.map_map]
  generalize filter.pod.elim (c.podNames space) ([·]) = names
  induction names with
  | nil => rfl
  | cons name rest ih =>
    cases named : c.podNamed? space name with
    | none => simp [named, ih]
    | some pod =>
      have found : c.find? ⟨.pod, space, name⟩ = some pod := by
        rw [podNamed?] at named
        split at named
        · cases named
        · exact named
      simp [named, found, ih]

end Cluster

namespace PodFilter

/-- Reports how many pods were enriched, and gives the exit code. -/
def conclude (filter : PodFilter) (count : Nat) : Drafting Nat := do
  match filter.pod, count with
  | some pod, 0 =>
    Traced.report (.podNotFound pod filter.space)
    return 1
  | _, count =>
    Traced.report (.enrichmentFinished count)
    return 0

theorem delivers_conclude (filter : PodFilter) (count : Nat) :
    (filter.conclude count).Delivers (pure [])
      (if filter.pod.isSome ∧ count = 0 then 1 else 0) := by
  have missing (pod : Text) := Drafting.delivers_report
    (show Occurrence.output [.podNotFound pod filter.space] = [] from rfl)
  have finished := Drafting.delivers_report
    (show Occurrence.output [.enrichmentFinished count] = [] from rfl)
  rw [conclude.eq_def]
  split
  · next pod asked =>
    rw [asked, if_pos ⟨rfl, rfl⟩]
    exact (missing pod).after_silent (Drafting.delivers_pure 1)
  · next count _ _ there =>
    have found : ¬ (filter.pod.isSome ∧ count = 0) := by
      rintro ⟨asked, zero⟩
      obtain ⟨pod, asked⟩ := Option.isSome_iff_exists.mp asked
      exact there pod asked zero
    rw [if_neg found]
    exact finished.after_silent (Drafting.delivers_pure 0)

end PodFilter

namespace Settings

open Drafting (Delivers)

/-- The line of the pod that is found under a namespace and a name, made by the generator of that
namespace. -/
def podLine (s : Settings) (c : Cluster) (nativeOnly : Bool) (find : Identity → Option Resource)
    (key : Text × Text) : Drafting String :=
  (s.podGenerator (c.storesFor key.1)).lineOf nativeOnly (find ⟨.pod, key.1, key.2⟩)

variable {c : Cluster}

/-- What is left to do when the pods are counted. -/
theorem enrichLoaded_eq (s : Settings) (filter : PodFilter) : s.enrichLoaded filter c = (do
    let counts ← (filter.space.elim c.spaceNames ([·])).mapM (s.enrichSpace c filter)
    filter.conclude (counts.foldl (· + ·) 0)) := by
  obtain ⟨pod, space, nativeOnly⟩ := filter
  cases space <;> rfl

variable (filed : c.Filed)
include filed

/-- Enriching a namespace prints one line for each of its chosen pods, and counts them. -/
theorem delivers_enrichSpace (s : Settings) (filter : PodFilter) (space : Text) :
    Delivers (s.enrichSpace c filter space)
      ((c.chosenKeysIn filter space).mapM (s.podLine c filter.nativeOnly c.find?))
      (c.chosenKeysIn filter space).length := by
  have pods := Cluster.podsIn_keys filed filter space
  have count : (c.podsIn space filter.pod).length = (c.chosenKeysIn filter space).length := by
    have lengths := congrArg List.length pods
    rwa [List.length_map, List.length_map] at lengths
  have lines : (c.chosenKeysIn filter space).mapM (s.podLine c filter.nativeOnly c.find?) =
      (c.podsIn space filter.pod).mapM fun pod =>
        (s.podGenerator (c.storesFor space)).lineOf filter.nativeOnly (some pod) := by
    have asked : (c.podsIn space filter.pod).mapM (fun pod =>
        (s.podGenerator (c.storesFor space)).lineOf filter.nativeOnly (some pod)) =
        ((c.podsIn space filter.pod).map some).mapM
          ((s.podGenerator (c.storesFor space)).lineOf filter.nativeOnly) := by
      rw [List.mapM_map]
      rfl
    rw [asked, pods, Cluster.chosenKeysIn, List.map_map, List.mapM_map, List.mapM_map]
    rfl
  rw [enrichSpace_eq, lines, ← count]
  split
  · next empty =>
    rw [List.isEmpty_iff.mp empty]
    exact Drafting.delivers_pure 0
  · rw [withPods_eq]
    have built : Delivers (liftM (Traced.report (.generatorBuilt s.owners.node.enabled
        s.owners.space.enabled s.owners.deployment s.owners.cronJob)) : Drafting Unit) (pure []) () :=
      Drafting.delivers_report rfl
    have printed (pod : Resource) :
        Delivers ((s.podGenerator (c.storesFor space)).printPod filter.nativeOnly pod)
          (do return [← (s.podGenerator (c.storesFor space)).lineOf filter.nativeOnly (some pod)])
          () := by
      rw [Generator.printPod_eq]
      exact Drafting.delivers_line (Generator.silent_lineOf (s.silent_podGenerator _) _ _)
    have each : Delivers ((c.podsIn space filter.pod).forM
        ((s.podGenerator (c.storesFor space)).printPod filter.nativeOnly)) _ () :=
      Drafting.delivers_forM printed
    exact built.after_silent (each.before_silent (Drafting.delivers_pure _))

/-- Enriching a cluster prints one line for each of the pods that the filter chooses. -/
theorem delivers_enrichLoaded (s : Settings) (filter : PodFilter) :
    Delivers (s.enrichLoaded filter c)
      ((c.chosenKeys filter).mapM (s.podLine c filter.nativeOnly c.find?))
      (if filter.pod.isSome ∧ c.chosenKeys filter = [] then 1 else 0) := by
  have spaces : Delivers ((filter.space.elim c.spaceNames ([·])).mapM (s.enrichSpace c filter))
      ((c.chosenKeys filter).mapM (s.podLine c filter.nativeOnly c.find?)) _ :=
    Drafting.delivers_mapM (s.delivers_enrichSpace filed filter)
  have count : ((filter.space.elim c.spaceNames ([·])).map fun space =>
      (c.chosenKeysIn filter space).length).foldl (· + ·) 0 = (c.chosenKeys filter).length := by
    rw [Cluster.chosenKeys, List.length_flatMap, List.sum_eq_foldl]
  have concluded := filter.delivers_conclude (c.chosenKeys filter).length
  simp only [List.length_eq_zero_iff] at concluded
  rw [← count] at concluded
  rw [enrichLoaded_eq]
  exact spaces.before_silent concluded

end Settings

end ClusterMetadata
