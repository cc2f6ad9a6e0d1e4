import ClusterMetadata.CommandLine.Run
import ClusterMetadata.Proofs.EnrichedPods

/-!
# From the arguments to the pods

* `World.holds`: a source gives manifests, whatever is around them;
* `run_enrich`: a run that asks for enrichment enriches what its source holds;
* `answerEnrich_cases`: what comes before the pods does not depend on the filter;
* `load_of_finished`, `enrichment_of_load`: a run that ends well has loaded its manifests, and what
  it prints is what is printed after that.
-/
namespace ClusterMetadata.CommandLine

open Json (Value)

/-- The text of a source is JSON that gives manifests: an array of them, an object with a list of
them as its items, or a single one. -/
def World.holds (world : World) (source : Source) (manifests : List Value) : Prop :=
  ∃ text v, world.read source = .ok text ∧
    Value.parse (String.ofList (lineFeeds text.toList)) = .ok v ∧ manifestsOf? v = some manifests

/-- A source holds one list of manifests. -/
theorem World.holds.unique {world : World} {source : Source} {manifests manifests' : List Value}
    (held : world.holds source manifests) (held' : world.holds source manifests') :
    manifests = manifests' := by
  obtain ⟨text, v, read, parsed, found⟩ := held
  obtain ⟨text', v', read', parsed', found'⟩ := held'
  cases read.symm.trans read'
  cases parsed.symm.trans parsed'
  exact Option.some.inj (found.symm.trans found')

theorem run_request {world : World} {args : List String} {source : Source} {filter : PodFilter}
    {extra : List String} (request : Request.ofArguments args = .ok (.enrich source filter extra)) :
    run world args = answerEnrich world source filter extra := by
  rw [run, request]

/-- The manifests of a text are enriched. -/
theorem ofText_of_manifests {text : String} {v : Value} (parsed : Value.parse text = .ok v)
    {manifests : List Value} (found : manifestsOf? v = some manifests) (s : Settings)
    (filter : PodFilter) : Report.ofText s filter text = Report.enrichment s filter manifests := by
  simp only [Report.ofText, parsed, found]

/-- What a run does with the manifests that its arguments name. -/
theorem run_enrich {world : World} {args : List String} {source : Source} {filter : PodFilter}
    {extra : List String} (request : Request.ofArguments args = .ok (.enrich source filter extra))
    {manifests : List Value} (held : world.holds source manifests) :
    run world args =
      if !extra.isEmpty then Report.usageError (.extraArguments extra)
      else match Settings.load world.environment with
        | .error e => Report.usageError (.settings e)
        | .ok settings => Report.enrichment settings filter manifests := by
  obtain ⟨text, v, read, parsed, found⟩ := held
  have enriched (s : Settings) : Report.ofText s filter
      (String.ofList (lineFeeds text.toList)) = Report.enrichment s filter manifests :=
    ofText_of_manifests parsed found s filter
  rw [run_request request, answerEnrich, read]
  change (if !extra.isEmpty then Report.usageError (.extraArguments extra)
    else match Settings.load world.environment with
      | .error e => Report.usageError (.settings e)
      | .ok settings =>
        Report.ofText settings filter (String.ofList (lineFeeds text.toList))) = _
  rw [funext enriched]

/-- A report that is made before the pods are looked at: a crash, or a usage error. -/
def Report.Early (report : Report) : Prop :=
  report.crash = none → ∃ e, report = Report.usageError e

theorem early_usageError (e : UsageError) : (Report.usageError e).Early := fun _ => ⟨e, rfl⟩

/-- What is done with a text before there are manifests does not depend on the filter. -/
theorem ofText_cases (s : Settings) (text : String) :
    (∃ report : Report, report.Early ∧ ∀ filter, Report.ofText s filter text = report) ∨
      ∃ v manifests, Value.parse text = .ok v ∧ manifestsOf? v = some manifests ∧
        ∀ filter, Report.ofText s filter text = Report.enrichment s filter manifests := by
  cases parsed : Value.parse text with
  | error e =>
    have crashed (crash : Crash) : Report.Early ⟨1, [], [], some crash⟩ := by rintro ⟨⟩
    cases e with
    | integerTooLong =>
      exact .inl ⟨_, crashed .integerTooLong, fun filter => by rw [Report.ofText, parsed]⟩
    | tooDeep =>
      exact .inl ⟨_, crashed (.fault .tooDeep), fun filter => by rw [Report.ofText, parsed]⟩
    | _ => exact .inl ⟨_, early_usageError _, fun filter => by rw [Report.ofText, parsed]⟩
  | ok v =>
    cases found : manifestsOf? v with
    | none =>
      refine .inl ⟨_, early_usageError .notManifests, fun filter => ?_⟩
      simp only [Report.ofText, parsed, found]
    | some manifests =>
      exact .inr ⟨v, manifests, rfl, found, ofText_of_manifests parsed found s⟩

/-- What a run does before it has manifests does not depend on the filter. -/
theorem answerEnrich_cases (world : World) (source : Source) (extra : List String) :
    (∃ report : Report, report.Early ∧
      ∀ filter, answerEnrich world source filter extra = report) ∨
    ∃ s manifests, Settings.load world.environment = .ok s ∧ world.holds source manifests ∧
      ∀ filter, answerEnrich world source filter extra = Report.enrichment s filter manifests := by
  cases opened : world.read source with
  | error fault =>
    refine .inl ⟨_, early_usageError (.fileClosed source.name fault), fun filter => ?_⟩
    rw [answerEnrich, opened]
  | ok text =>
    cases more : extra.isEmpty with
    | false =>
      refine .inl ⟨_, early_usageError (.extraArguments extra), fun filter => ?_⟩
      simp only [answerEnrich, opened, more, Bool.not_false, if_true]
    | true =>
      cases loaded : Settings.load world.environment with
      | error e =>
        refine .inl ⟨_, early_usageError (.settings e), fun filter => ?_⟩
        simp only [answerEnrich, opened, more, loaded, Bool.not_true, Bool.false_eq_true, if_false]
      | ok s =>
        have answer (filter : PodFilter) : answerEnrich world source filter extra =
            Report.ofText s filter (String.ofList (lineFeeds text.toList)) := by
          simp only [answerEnrich, opened, more, loaded, Bool.not_true, Bool.false_eq_true, if_false]
        rcases ofText_cases s (String.ofList (lineFeeds text.toList)) with
          ⟨report, early, same⟩ | ⟨v, manifests, parsed, found, same⟩
        · exact .inl ⟨report, early, fun filter => (answer filter).trans (same filter)⟩
        · exact .inr ⟨s, manifests, rfl, ⟨text, v, opened, parsed, found⟩,
            fun filter => (answer filter).trans (same filter)⟩

namespace Report

theorem fromStart_enrich (s : Settings) (filter : PodFilter) (manifests : List Value) :
    (s.enrich filter manifests).fromStart =
      Cluster.load manifests >>= fun c => (s.enrichLoaded filter c).fromStart := by
  rw [Settings.enrich_eq]
  exact Drafting.fromStart_bind_lift _ _

theorem load_of_finished {s : Settings} {filter : PodFilter} {manifests : List Value}
    (finished : (enrichment s filter manifests).crash = none) :
    ∃ c, (Cluster.load manifests).result = .ok c := by
  rw [enrichment, fromStart_enrich] at finished
  cases done : (Cluster.load manifests >>= fun c =>
      (s.enrichLoaded filter c).fromStart).result with
  | error fault =>
    rw [done] at finished
    cases finished
  | ok code =>
    obtain ⟨c, loaded, -⟩ := Traced.result_bind_eq_ok.mp done
    exact ⟨c, loaded⟩

/-- What a run prints once the manifests are loaded, and how it ends. -/
theorem enrichment_of_load (s : Settings) (filter : PodFilter) {manifests : List Value}
    {c : Cluster} (loaded : (Cluster.load manifests).result = .ok c) :
    (enrichment s filter manifests).output =
        Occurrence.output (s.enrichLoaded filter c).fromStart.trace ∧
      (enrichment s filter manifests).exitCode =
        (s.enrichLoaded filter c).fromStart.result.toOption.getD 1 ∧
      ((enrichment s filter manifests).crash = none ↔
        ∃ code, (s.enrichLoaded filter c).fromStart.result = .ok code) := by
  have after : (s.enrich filter manifests).fromStart =
      ⟨(s.enrichLoaded filter c).fromStart.result,
        (Cluster.load manifests).trace ++ (s.enrichLoaded filter c).fromStart.trace⟩ := by
    rw [fromStart_enrich]
    exact Traced.bind_of_result loaded _
  have printed := Cluster.output_load manifests
  rw [enrichment, after]
  cases (s.enrichLoaded filter c).fromStart.result <;>
    simp [Occurrence.output_append, printed, Except.toOption]

end Report

end ClusterMetadata.CommandLine
