import ClusterMetadata.Proofs.EnrichedLines

/-!
# The lines that a filter chooses

A run for some of the pods skips the others. It prints their lines as a run for all pods does, as
long as what a skipped pod shows together with a later chosen one is lasting.

* `results_of_chosen`: results of steady computations are the same when some before them are skipped;
* `lines_chosen`: so are the lines of pods;
* `lines_of_finished`, `finished_of_lines`: a run is not cut short when these lines can be made;
* `run_selects_lines`: a run with a filter prints the lines that the filter chooses.
-/
namespace ClusterMetadata

open Json (Value)
open Inventory (Alike)

namespace Drafting

variable {α β : Type} {terms : Terms} {step : α → Drafting β} {touched : α → Lender → Prop}
  {needed : α → Resource → Prop}

/-- Results of steady computations that come one after the other are the same when some of the
computations are skipped, if what one of those uses and a later one needs is lasting. -/
theorem results_of_chosen {items : List α} {chosen : α → Bool}
    (steady : ∀ item ∈ items, (step item).Steady terms (touched item) (needed item)
      Generator.SameResult)
    (shared : items.Pairwise fun a b => ∀ lender, touched a lender → needed b lender.owner →
      needed a lender.owner)
    (lasting : items.Pairwise fun a b => chosen a = false → chosen b = true → ∀ lender,
      touched a lender → needed b lender.owner → terms.Lasting lender.owner)
    {i i' : Inventory}
    (alike : Alike terms (fun r => ∃ item ∈ items, chosen item = true ∧ needed item r) i i')
    (first : ∀ lender, terms.Lasting lender.owner → i.Gives terms lender (terms.first lender))
    {results : List β} (h : (items.mapM step i.shelf).1.result = .ok results) :
    ((items.filter chosen).mapM step i'.shelf).1.result =
      .ok (((items.zip results).filter fun result => chosen result.1).map (·.2)) := by
  -- Both runs are alike in what the chosen steps still need: a chosen step goes on in both, a
  -- skipped one in the first only.
  induction items generalizing i i' results with
  | nil => rfl
  | cons item rest ih =>
    rw [List.mapM_cons] at h
    obtain ⟨result, here, h⟩ := result_bind_eq_ok.mp h
    obtain ⟨others, there, h⟩ := result_bind_eq_ok.mp h
    cases h
    obtain ⟨sharedLater, shared⟩ := List.pairwise_cons.mp shared
    obtain ⟨lastingLater, lasting⟩ := List.pairwise_cons.mp lasting
    have steadyLater (other : α) (mem : other ∈ rest) := steady other (List.mem_cons_of_mem _ mem)
    have steadyHere := steady item List.mem_cons_self
    have later : Alike terms (fun r => ∃ other ∈ rest, chosen other = true ∧ needed other r) i i' :=
      alike.mono fun r ⟨other, mem, need⟩ => ⟨other, List.mem_cons_of_mem _ mem, need⟩
    cases isChosen : chosen item with
    | true =>
      have own : Alike terms (needed item) i i' :=
        alike.mono fun r need => ⟨item, List.mem_cons_self, isChosen, need⟩
      obtain ⟨result', left, left', here', after, after', apace, same⟩ := steadyHere own result here
      cases same
      rw [after] at there
      have still := apace.alike_others later fun lender ⟨other, mem, _, need⟩ used =>
        sharedLater other mem lender used need
      have rest := ih steadyLater shared lasting still
        (fun lender lasts => apace.moves.first lasts (first lender lasts)) there
      simp only [List.zip_cons_cons, List.filter_cons, isChosen, if_true, List.map_cons,
        List.mapM_cons]
      rw [bind_of_result here', after', bind_of_result rest]
      rfl
    | false =>
      obtain ⟨_, left, _, -, after, -, apace, -⟩ :=
        steadyHere (Inventory.Alike.refl alike.due) result here
      rw [after] at there
      have still := later.still apace.moves fun lender ⟨other, mem, isChosen', need⟩ used =>
        have lasts := lastingLater other mem isChosen isChosen' lender used need
        ⟨lasts, first lender lasts⟩
      have rest := ih steadyLater shared lasting still
        (fun lender lasts => apace.moves.first lasts (first lender lasts)) there
      simp only [List.zip_cons_cons, List.filter_cons, isChosen, Bool.false_eq_true, if_false]
      exact rest

end Drafting

namespace Settings

variable {c : Cluster} (filed : c.Filed)
include filed

/-- The lines of chosen pods are among those of all pods when what a skipped pod and a chosen one
after it show is lasting. -/
theorem lines_chosen (s : Settings) (proper : c.Proper) (filter : PodFilter)
    (lasting : ∀ pod ∈ c.podKeys, filter.chooses pod = true → ∀ pod' ∈ c.podKeys,
      filter.chooses pod' = false → Text.PairBefore pod' pod → ∀ r, s.ShownWith c.find? pod' r →
      s.ShownWith c.find? pod r → s.Lasting r) {output : List String}
    (printed : (c.podKeys.mapM (s.podLine c filter.nativeOnly c.find?)).fromStart.result =
      .ok output) :
    ((c.podKeys.filter filter.chooses).mapM
        (s.podLine c filter.nativeOnly c.find?)).fromStart.result =
      .ok (((c.podKeys.zip output).filter fun line => filter.chooses line.1).map (·.2)) := by
  have ascending := Cluster.podKeys_ascending filed
  have shared : c.podKeys.Pairwise fun key key' => ∀ lender, s.Uses c.find? key lender →
      s.Needs c.find? key' lender.owner → s.Needs c.find? key lender.owner := by
    refine ascending.imp fun before lender used needed => ?_
    exact .inr (shownWith_both filed before.ne used needed).1
  have apart : c.podKeys.Pairwise fun key key' => filter.chooses key = false →
      filter.chooses key' = true → ∀ lender, s.Uses c.find? key lender →
      s.Needs c.find? key' lender.owner → s.terms.Lasting lender.owner := by
    refine List.Pairwise.imp_of_mem ?_ ascending
    intro key key' mem mem' before skipped chosen lender used needed
    obtain ⟨shown, shown'⟩ := shownWith_both filed before.ne used needed
    exact lasting key' mem' chosen key mem skipped before _ shown shown'
  have start (lender : Lender) := Inventory.gives_bare s.terms lender
  exact Drafting.results_of_chosen (s.steady_podLine filed proper filter.nativeOnly) shared apart
    (Inventory.Alike.refl fun lender => ⟨_, start lender⟩) (fun lender _ => start lender) printed

end Settings

namespace CommandLine

namespace Report

variable {s : Settings} {filter : PodFilter} {manifests : List Value} {c : Cluster}
  (loaded : (Cluster.load manifests).result = .ok c)
include loaded

/-- A run that is not cut short prints the lines of the chosen pods. -/
theorem lines_of_finished (finished : (enrichment s filter manifests).crash = none) :
    ((c.chosenKeys filter).mapM (s.podLine c filter.nativeOnly c.find?)).fromStart.result =
        .ok (enrichment s filter manifests).output ∧
      (enrichment s filter manifests).exitCode =
        if filter.pod.isSome ∧ (enrichment s filter manifests).output = [] then 1 else 0 := by
  obtain ⟨output, exitCode, ends⟩ := enrichment_of_load s filter loaded
  obtain ⟨code, ended⟩ := ends.mp finished
  have delivers := s.delivers_enrichLoaded (Cluster.filed_of_load loaded) filter
  obtain ⟨texts, made⟩ := delivers.made ended
  obtain ⟨result, printed, -⟩ := delivers.ends made
  have count := Drafting.ensures_length_mapM _ _ _ _ made
  have same : (enrichment s filter manifests).output = texts := output.trans printed
  have empty : texts = [] ↔ c.chosenKeys filter = [] := by
    rw [← List.length_eq_zero_iff, count, List.length_eq_zero_iff]
  have value : (s.enrichLoaded filter c).fromStart.result = _ := result
  refine ⟨same ▸ made, ?_⟩
  rw [exitCode, value, same]
  simp only [empty]
  rfl

/-- When the lines of the chosen pods can be made, a run is not cut short, and prints them. -/
theorem finished_of_lines {texts : List String}
    (made : ((c.chosenKeys filter).mapM (s.podLine c filter.nativeOnly c.find?)).fromStart.result =
      .ok texts) :
    (enrichment s filter manifests).crash = none ∧
      (enrichment s filter manifests).output = texts := by
  obtain ⟨output, -, ends⟩ := enrichment_of_load s filter loaded
  have delivers := s.delivers_enrichLoaded (Cluster.filed_of_load loaded) filter
  obtain ⟨result, printed, -⟩ := delivers.ends made
  exact ⟨ends.mpr ⟨_, result⟩, output.trans printed⟩

end Report

/-- Two runs that differ only in the pods that they ask for, one in all and one in those that a
filter chooses, end with the same usage error, or select. The pods of the first are those that a
pod manifest with a name has, by ascending namespace and name, and it prints their lines one after
the other. The second, unless it is cut short, prints the lines of the chosen pods one after the
other, and its exit code is one when a pod asked for by name has no line, zero otherwise. When the
sections of every namespace and node that is shown with a pod that is skipped and with a chosen one
after it are lasting, the second is not cut short, and its lines are those lines of the first that
belong to the chosen pods. -/
theorem run_selects_lines {world : World} {args args' : List String} {source : Source}
    {filter : PodFilter} {extra : List String}
    (request : Request.ofArguments args =
      .ok (.enrich source ⟨none, none, filter.nativeOnly⟩ extra))
    (request' : Request.ofArguments args' = .ok (.enrich source filter extra))
    (finished : (run world args).crash = none) :
    (∃ e, run world args = Report.usageError e ∧ run world args' = Report.usageError e) ∨
    ∃ (s : Settings) (manifests : List Value) (c : Cluster) (pods : List (Text × Text)),
      Settings.load world.environment = .ok s ∧ world.holds source manifests ∧
      (Cluster.load manifests).result = .ok c ∧ pods.Pairwise Text.PairBefore ∧
      (∀ space name, (space, name) ∈ pods ↔ name ≠ "" ∧ ∃ manifest ∈ manifests, ∃ r,
        Resource.seen? manifest = some r ∧ r.identity = .ok ⟨.pod, space, name⟩) ∧
      (pods.mapM (s.podLine c filter.nativeOnly (last? manifests))).fromStart.result =
        .ok (run world args).output ∧
      ((run world args').crash = none →
        ((pods.filter filter.chooses).mapM
            (s.podLine c filter.nativeOnly (last? manifests))).fromStart.result =
          .ok (run world args').output ∧
        (run world args').exitCode =
          if filter.pod.isSome ∧ (run world args').output = [] then 1 else 0) ∧
      ((∀ pod ∈ pods, filter.chooses pod = true → ∀ pod' ∈ pods, filter.chooses pod' = false →
          Text.PairBefore pod' pod → ∀ r, s.ShownWith (last? manifests) pod' r →
          s.ShownWith (last? manifests) pod r → s.Lasting r) →
        (run world args').crash = none ∧ (run world args').output =
          ((pods.zip (run world args).output).filter fun line => filter.chooses line.1).map
            (·.2)) := by
  rw [run_request request] at finished ⊢
  rw [run_request request']
  rcases answerEnrich_cases world source extra with
    ⟨report, early, same⟩ | ⟨s, manifests, settings, held, same⟩
  · rw [same] at finished ⊢
    obtain ⟨e, rfl⟩ := early finished
    exact .inl ⟨e, rfl, same filter⟩
  · rw [same] at finished ⊢
    rw [same]
    obtain ⟨c, loaded⟩ := Report.load_of_finished finished
    have filed := Cluster.filed_of_load loaded
    have found : c.find? = last? manifests := funext (Cluster.find?_load loaded)
    have proper : c.Proper := fun id r there =>
      proper_last (World.proper_holds held) (by rw [← found]; exact there)
    obtain ⟨printed, -⟩ := Report.lines_of_finished loaded finished
    rw [Cluster.chosenKeys_all] at printed
    refine .inr ⟨s, manifests, c, c.podKeys, settings, held, loaded,
      Cluster.podKeys_ascending filed, fun space name => ?_, ?_, fun finished' => ?_,
      fun lasting => ?_⟩
    · rw [Cluster.mem_podKeys filed, found, isSome_last?_iff]
    · rw [← found]
      exact printed
    · rw [← found, ← Cluster.chosenKeys_eq filed]
      exact Report.lines_of_finished loaded finished'
    · rw [← found] at lasting
      have chosen := s.lines_chosen filed proper filter lasting printed
      rw [← Cluster.chosenKeys_eq filed] at chosen
      exact Report.finished_of_lines loaded chosen

/-! ## The second of two pods -/

theorem nested_request_named : Request.ofArguments ["enrich", "-", "--pod", "b"] =
    .ok (.enrich .standardInput ⟨some "b", none, false⟩ []) := by cbv

theorem nested_exitCode : (run (.nested nestedText) ["enrich", "-"]).exitCode = 0 := by
  rw [run_enrich nested_request nested_holds, nested_settings]
  cbv

/-- A pod that shows the labels of its namespace has the line that it has after another one that
shows them. -/
theorem run_selects_second :
    ∃ pods : List (Text × Text), (("d" : Text), ("a" : Text)) ∈ pods ∧
      (("d" : Text), ("b" : Text)) ∈ pods ∧
      (run (.nested nestedText) ["enrich", "-", "--pod", "b"]).output =
        ((pods.zip (run (.nested nestedText) ["enrich", "-"]).output).filter fun line =>
          PodFilter.chooses ⟨some "b", none, false⟩ line.1).map (·.2) := by
  rcases run_selects_lines nested_request nested_request_named nested_finished with
    ⟨e, refused, -⟩ | ⟨s, manifests, c, pods, settings, held, -, -, named, -, -, selects⟩
  · have code := nested_exitCode
    rw [refused] at code
    cases code
  · cases settings.symm.trans (nested_settings nestedText)
    cases held.unique nested_holds
    refine ⟨pods, (named "d" "a").mpr ⟨by decide, _, .tail _ (.head _), _, rfl, rfl⟩,
      (named "d" "b").mpr ⟨by decide, _, .tail _ (.tail _ (.head _)), _, rfl, rfl⟩,
      (selects fun pod _ _ pod' _ _ _ r shown _ => ?_).2⟩
    rcases shown with ⟨-, -, found⟩ | ⟨-, _, _, -, -, -, found⟩
    · exact lasting_nested (show Kind.namespace ≠ .pod by decide) found
    · exact lasting_nested (show Kind.node ≠ .pod by decide) found

end CommandLine

end ClusterMetadata
