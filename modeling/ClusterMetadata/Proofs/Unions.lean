import ClusterMetadata.Proofs.EnrichedLines
import ClusterMetadata.Proofs.OrchestratorFields

/-!
# Documents are unions

* `union_eq`: a union has both of its documents as they are;
* `generate_apply`: a generator makes the native document first and adds the other without touching
  anything;
* `unites_generate`: so its document is the native one and one that tells the texts of the resource;
* `mapM_unites`: two loops whose steps go together;
* `documents_unite`: so it is for all generators, and for the lines of runs.
-/
namespace ClusterMetadata

open Json (Value Fields)

theorem Json.Value.line_eq_ok {v : Value} {line : String} :
    v.line = .ok line ↔ v.depth ≤ Json.writingRoom ∧ line = v.lineOf := by
  rw [Value.line]
  split <;> simp [*, eq_comm]

namespace Document

def ofBoth (native : Document) (orchestrator : Fields) : Document :=
  [("kubernetes", .object native), ("orchestrator", .object orchestrator)]

/-- A union has both of its documents as they are. -/
theorem union_eq (d : Document) {o : Fields} (proper : (Value.object o).Proper) :
    d.union [(Text.ofString "orchestrator", .object o)] = ofBoth d o := by
  have copied := mergeOver_none (.object o) proper
  have apart : Text.ofString "kubernetes" ≠ Text.ofString "orchestrator" := by decide
  rw [union, merge, mergeFields, mergeFields, Table.get?, if_neg apart, Table.get?_nil, copied,
    Table.insert, if_neg apart, Table.insert, ofBoth]

/-- What can be written as a part of a union can be written on its own. -/
theorem depth_le_ofBoth (d : Document) (o : Fields) :
    (Value.object d).depth ≤ (Value.object (ofBoth d o)).depth := by
  change (Value.object d).depth ≤ max (Value.object d).depth (max (Value.object o).depth 0) + 1
  exact Nat.le_succ_of_le (Nat.le_max_left _ _)

end Document

namespace Generator

/-- A generator makes the native document first, and adds the orchestrator document without touching
anything. -/
theorem generate_apply {g : Generator} {r : Option Resource} {options : List FieldOption}
    {shelf : Shelf} {answer : Option Document}
    (made : (g.generate r options shelf).1.result = .ok answer) :
    ∃ native orchestrator, g.orchestrator r = .ok orchestrator ∧
      answer = native.map (Document.union · orchestrator) ∧
      g.native r options shelf =
        (⟨.ok native, (g.generate r options shelf).1.trace⟩, (g.generate r options shelf).2) := by
  obtain ⟨native, here, rest⟩ := Drafting.result_bind_eq_ok.mp made
  obtain ⟨orchestrator, other, there⟩ := Drafting.result_bind_eq_ok.mp rest
  cases there
  have other : g.orchestrator r = .ok orchestrator := other
  refine ⟨native, orchestrator, other, rfl, ?_⟩
  have trace : (g.generate r options shelf).1.trace =
      (g.native r options shelf).1.trace ++ [] := by
    rw [generate, Drafting.bind_of_result here, other]
    rfl
  have left : (g.generate r options shelf).2 = (g.native r options shelf).2 := by
    rw [generate, Drafting.bind_of_result here, other]
    rfl
  rw [trace, left, List.append_nil, ← here]

/-- What is no resource of the kind has no native document. -/
theorem of_native_some {g : Generator} {r : Option Resource} {options : List FieldOption}
    {shelf : Shelf} {d : Document} (made : (g.native r options shelf).1.result = .ok (some d)) :
    ∃ q, r = some q ∧ q.kind = g.kind := by
  obtain ⟨draft, here, there⟩ := Drafting.result_bind_eq_ok.mp made
  cases r with
  | none =>
    cases here
    cases there
  | some q =>
    refine ⟨q, rfl, ?_⟩
    by_cases kind : q.kind = g.kind
    · exact kind
    · rw [Generator.draft, if_neg kind] at here
      cases here
      cases there

/-- The document of a resource is the union of what the native document and the orchestrator
document say, and the latter has the texts of the resource and nothing else. -/
structure Unites (g : Generator) (r : Option Resource) (native answer : Option Document) :
    Prop where
  none_iff : answer = none ↔ native = none
  both : ∀ d ∈ native, ∃ q o, r = some q ∧ q.kind = g.kind ∧
    answer = some (Document.ofBoth d o) ∧
    g.orchestrator r = .ok [(Text.ofString "orchestrator", .object o)] ∧
    ∃ name uid space, q.name = .ok name ∧ q.uid = .ok uid ∧ q.space = .ok space ∧
      Document.Tells (g.projector.texts g.kind name uid space) o

theorem unites_generate {g : Generator} {r : Option Resource} {options : List FieldOption}
    {shelf : Shelf} {answer : Option Document}
    (made : (g.generate r options shelf).1.result = .ok answer) :
    ∃ native, g.Unites r native answer ∧ g.native r options shelf =
      (⟨.ok native, (g.generate r options shelf).1.trace⟩, (g.generate r options shelf).2) := by
  obtain ⟨native, orchestrator, other, rfl, before⟩ := generate_apply made
  refine ⟨native, ⟨Option.map_eq_none_iff, ?_⟩, before⟩
  rintro d ⟨⟩
  obtain ⟨q, rfl, kind⟩ := of_native_some (congrArg (·.1.result) before)
  obtain ⟨name, uid, space, o, named, known, home, rfl, proper, tells⟩ :=
    Projector.orchestrator_tells other
  rw [kind] at tells
  exact ⟨q, o, rfl, kind, congrArg some (Document.union_eq d proper), other, name, uid, space,
    named, known, home, tells⟩

/-- A resource of the kind has a native document. -/
theorem exists_of_native {g : Generator} {q : Resource} (kind : q.kind = g.kind)
    {options : List FieldOption} {shelf : Shelf} {native : Option Document}
    (made : (g.native (some q) options shelf).1.result = .ok native) : ∃ d, native = some d := by
  obtain ⟨draft, here, there⟩ := Drafting.result_bind_eq_ok.mp made
  rw [Generator.draft, if_pos kind] at here
  obtain ⟨d, -, built⟩ := Drafting.result_bind_eq_ok.mp here
  cases built
  obtain ⟨document, -, shown⟩ := Drafting.result_bind_eq_ok.mp there
  cases shown
  exact ⟨document, rfl⟩

/-- Where a resource has a line, it has the line of its native document, and both come from the same
documents. -/
theorem lineOf_unites {g : Generator} {q : Resource} (kind : q.kind = g.kind) {shelf : Shelf}
    {line : String} (made : (g.lineOf false (some q) shelf).1.result = .ok line) :
    ∃ d o, line = (Value.object (Document.ofBoth d o)).lineOf ∧
      (g.lineOf true (some q) shelf).1.result = .ok (Value.object d).lineOf ∧
      (g.lineOf true (some q) shelf).2 = (g.lineOf false (some q) shelf).2 := by
  obtain ⟨answer, here, there⟩ := Drafting.result_bind_eq_ok.mp made
  obtain ⟨native, unites, before⟩ := unites_generate here
  obtain ⟨d, rfl⟩ := exists_of_native kind (congrArg (·.1.result) before)
  obtain ⟨-, o, -, -, rfl, -⟩ := unites.both d rfl
  have whole : (Value.object (Document.ofBoth d o)).line = .ok line := there
  obtain ⟨depth, rfl⟩ := Value.line_eq_ok.mp whole
  have part : (Value.object d).line = .ok (Value.object d).lineOf :=
    Value.line_eq_ok.mpr ⟨Nat.le_trans (Document.depth_le_ofBoth d o) depth, rfl⟩
  have native : (g.answer true (some q) shelf).1.result = .ok (some d) :=
    congrArg (·.1.result) before
  refine ⟨d, o, rfl, ?_, ?_⟩
  · rw [lineOf, Drafting.bind_of_result native]
    exact part
  · have left : (g.native (some q) [] shelf).2 = (g.generate (some q) [] shelf).2 := by rw [before]
    rw [lineOf, lineOf, Drafting.bind_of_result native, Drafting.bind_of_result here]
    exact left

end Generator

namespace Drafting

/-- Two loops side by side: when each step of the first goes with one of the second, both give the
parts of the same items. -/
theorem mapM_unites {α β γ : Type} {items : List α} {first second : α → Drafting β}
    {left right : γ → β}
    (step : ∀ item ∈ items, ∀ shelf b, (first item shelf).1.result = .ok b → ∃ c, b = left c ∧
      (second item shelf).1.result = .ok (right c) ∧ (second item shelf).2 = (first item shelf).2)
    {shelf : Shelf} {results : List β} (made : (items.mapM first shelf).1.result = .ok results) :
    ∃ parts : List γ, results = parts.map left ∧
      (items.mapM second shelf).1.result = .ok (parts.map right) := by
  induction items generalizing shelf results with
  | nil =>
    cases made
    exact ⟨[], rfl, rfl⟩
  | cons item rest ih =>
    rw [List.mapM_cons] at made ⊢
    obtain ⟨b, here, made⟩ := result_bind_eq_ok.mp made
    obtain ⟨more, others, made⟩ := result_bind_eq_ok.mp made
    cases made
    obtain ⟨c, rfl, beside, same⟩ := step item List.mem_cons_self shelf b here
    obtain ⟨parts, rfl, follow⟩ :=
      ih (fun item mem => step item (List.mem_cons_of_mem _ mem)) others
    refine ⟨c :: parts, rfl, ?_⟩
    rw [← same] at follow
    rw [bind_of_result beside, bind_of_result follow]
    rfl

end Drafting

/-- A pod that a filter chooses has a line of its native document when it has one of the whole
document. -/
theorem Settings.podLine_unites {c : Cluster} (filed : c.Filed) (s : Settings)
    {filter : PodFilter} : ∀ key ∈ c.chosenKeys filter, ∀ shelf line,
      (s.podLine c false c.find? key shelf).1.result = .ok line →
      ∃ part : Document × Fields, line = (Value.object (Document.ofBoth part.1 part.2)).lineOf ∧
        (s.podLine c true c.find? key shelf).1.result = .ok (Value.object part.1).lineOf ∧
        (s.podLine c true c.find? key shelf).2 = (s.podLine c false c.find? key shelf).2 := by
  rintro ⟨space, name⟩ mem shelf line made
  obtain ⟨-, -, there⟩ := (Cluster.mem_chosenKeys filed filter space name).mp mem
  obtain ⟨pod, found⟩ := Option.isSome_iff_exists.mp there
  have kind : pod.kind = .pod := Cluster.kind_of_find? filed found
  rw [podLine, found] at made ⊢
  rw [podLine, found]
  obtain ⟨d, o, same⟩ := Generator.lineOf_unites kind made
  exact ⟨(d, o), same⟩

namespace CommandLine

/-- A run that prints whole documents goes with one that prints the native documents only: each line
of one is the line of the native document in the line of the other. -/
theorem members_of_run {world : World} {args args' : List String} {source : Source}
    {pod space : Option Text} {extra : List String}
    (request : Request.ofArguments args = .ok (.enrich source ⟨pod, space, false⟩ extra))
    (request' : Request.ofArguments args' = .ok (.enrich source ⟨pod, space, true⟩ extra))
    (finished : (run world args).crash = none) :
    (run world args').crash = none ∧ (run world args').exitCode = (run world args).exitCode ∧
      ∃ parts : List (Document × Fields),
        (run world args).output = parts.map (fun part =>
          (Value.object (Document.ofBoth part.1 part.2)).lineOf) ∧
        (run world args').output = parts.map fun part => (Value.object part.1).lineOf := by
  rw [run_request request] at finished ⊢
  rw [run_request request']
  rcases answerEnrich_cases world source extra with
    ⟨report, early, same⟩ | ⟨s, manifests, -, -, same⟩
  · rw [same] at finished
    obtain ⟨e, rfl⟩ := early finished
    rw [same, same]
    exact ⟨rfl, rfl, [], rfl, rfl⟩
  · rw [same] at finished
    rw [same, same]
    obtain ⟨c, loaded⟩ := Report.load_of_finished finished
    have filed := Cluster.filed_of_load loaded
    obtain ⟨output, code, ends⟩ := Report.enrichment_of_load s ⟨pod, space, false⟩ loaded
    obtain ⟨output', code', ends'⟩ := Report.enrichment_of_load s ⟨pod, space, true⟩ loaded
    have delivers := s.delivers_enrichLoaded filed ⟨pod, space, false⟩
    have delivers' := s.delivers_enrichLoaded filed ⟨pod, space, true⟩
    obtain ⟨_, ended⟩ := ends.mp finished
    obtain ⟨lines, made⟩ := delivers.made ended
    obtain ⟨parts, rfl, made'⟩ := Drafting.mapM_unites (s.podLine_unites filed) made
    obtain ⟨ended, printed, -⟩ := delivers.ends made
    obtain ⟨ended', printed', -⟩ := delivers'.ends made'
    refine ⟨ends'.mpr ⟨_, ended'⟩, ?_, parts, output.trans printed, output'.trans printed'⟩
    rw [code, code', Drafting.fromStart, Drafting.fromStart, ended, ended']
    rfl

/-- A generator has a document for a resource when it has a native document, and then the document
has two fields: the native document at every depth, and an orchestrator document with the texts of
the cluster and the resource that are not empty. So the lines of a run that prints the native
documents only are those of the native documents in the lines of a run that prints everything. -/
theorem documents_unite :
    (∀ (g : Generator) (r : Option Resource) (options : List FieldOption) (shelf : Shelf)
      (answer : Option Document), (g.generate r options shelf).1.result = .ok answer →
      ∃ native, g.Unites r native answer ∧ g.native r options shelf =
        (⟨.ok native, (g.generate r options shelf).1.trace⟩, (g.generate r options shelf).2)) ∧
    ∀ (world : World) (args args' : List String) (source : Source) (pod space : Option Text)
      (extra : List String),
      Request.ofArguments args = .ok (.enrich source ⟨pod, space, false⟩ extra) →
      Request.ofArguments args' = .ok (.enrich source ⟨pod, space, true⟩ extra) →
      (run world args).crash = none →
      (run world args').crash = none ∧ (run world args').exitCode = (run world args).exitCode ∧
        ∃ parts : List (Document × Fields),
          (run world args).output = parts.map (fun part =>
            (Value.object (Document.ofBoth part.1 part.2)).lineOf) ∧
          (run world args').output = parts.map fun part => (Value.object part.1).lineOf :=
  ⟨fun _ _ _ _ _ => Generator.unites_generate, fun _ _ _ _ _ _ _ => members_of_run⟩

theorem nested_request_native : Request.ofArguments ["enrich", "-", "--k8s-only"] =
    .ok (.enrich .standardInput ⟨none, none, true⟩ []) := by cbv

def storageNode : Resource :=
  ⟨.node, 0, .object [
    ("kind", .string "Node"),
    ("metadata", .object [("name", .string "disk-1"), ("uid", .string "n7")])]⟩

def storageNodes : Generator := .forNodes none ⟨{}, ⟨"storage", ""⟩⟩

def storageAnswer : Document :=
  Document.ofBoth [("node", .object [("name", .string "disk-1"), ("uid", .string "n7")])] [
    ("cluster", .object [("name", .string "storage")]),
    ("type", .string "kubernetes"),
    ("resource", .object [
      ("type", .string "node"), ("name", .string "disk-1"), ("id", .string "n7")])]

theorem storageNodes_answer :
    (storageNodes.generate (some storageNode) [] {}).1.result = .ok (some storageAnswer) := by cbv

/-- A node of a named cluster, and the lines of two pods with and without their orchestrator
documents. -/
theorem documents_unite_nested :
    (∃ native, storageNodes.Unites (some storageNode) native (some storageAnswer) ∧
      storageNodes.native (some storageNode) [] {} =
        (⟨.ok native, (storageNodes.generate (some storageNode) [] {}).1.trace⟩,
          (storageNodes.generate (some storageNode) [] {}).2)) ∧
    ∃ parts : List (Document × Fields),
      (run (.nested nestedText) ["enrich", "-"]).output = parts.map (fun part =>
        (Value.object (Document.ofBoth part.1 part.2)).lineOf) ∧
      (run (.nested nestedText) ["enrich", "-", "--k8s-only"]).output =
        parts.map fun part => (Value.object part.1).lineOf :=
  ⟨documents_unite.1 storageNodes (some storageNode) [] {} (some storageAnswer) storageNodes_answer,
    (documents_unite.2 _ _ _ _ _ _ _ nested_request nested_request_native nested_finished).2.2⟩

end CommandLine

end ClusterMetadata
