import Mathlib
import ClusterMetadata.Proofs.HopAccounts
import ClusterMetadata.Proofs.StandingPods

/-!
# Why a call fails

A call of the generator of pods fails for what is wrong with a manifest that it reads, and for
nothing else: not for owners or stores that are missing, not for keys that clash, and not for what
earlier calls have written into the maps of manifests. A draft that was made may hold itself; then
the call has not failed, and only a document to show is missing.

* `Generator.make`, `call_of_make`: what a call makes, and what its answer shows of it;
* `Settings.Reads`: the resources that a call reads;
* `Settings.Accounts`: what a fault comes from;
* `stays_make`, `standing_after`: a call, and calls one after the other;
* `call_faults_accounted`: every fault is accounted for.
-/
namespace ClusterMetadata

open Json (Value Fields)
open Drafting (Quiet Stays stays_pure stays_read)

namespace Cluster

/-- A resource is filed in a cluster. -/
def Knows (c : Cluster) (r : Resource) : Prop := ∃ id, c.find? id = some r

variable {c : Cluster}

theorem Knows.exists_metadata (filed : c.Filed) {r : Resource} (h : c.Knows r) :
    ∃ metadata, r.metadata = .ok metadata := by
  obtain ⟨id, found⟩ := h
  exact Resource.exists_metadata (find?_identity filed found)

end Cluster

def Call.given? : Call → Option Resource
  | generate r _ | native r _ => r
  | fromName _ _ => none

namespace Generator

/-- What a call makes, before it is shown. -/
def make (g : Generator) : Call → Drafting (Option Draft)
  | .generate r options => do
    let native ← g.draft r options
    let _ ← g.orchestrator r
    return native
  | .native r options => g.draft r options
  | .fromName name options => g.draft (g.stored name) options

/-- The shelf after calls, whether they have results or not. -/
def after (g : Generator) (calls : List Call) (shelf : Shelf) : Shelf :=
  calls.foldl (fun shelf call => (g.call call shelf).2) shelf

/-- Showing a draft changes nothing, and fails only when the draft holds itself. -/
theorem quiet_document (d : Draft) (shelf : Shelf) : ∃ answer, Quiet shelf d.document answer ∧
    ∀ fault, answer = .error fault → fault = .circular ∧ d.shown shelf = none := by
  cases shown : d.shown shelf with
  | some document =>
    refine ⟨.ok document, ?_, fun fault same => by cases same⟩
    rw [Quiet, Draft.document, Drafting.bind_apply, Drafting.shelf]
    dsimp only [Traced.pure]
    rw [shown]
    rfl
  | none =>
    refine ⟨.error .circular, ?_, fun fault same => by cases same; exact ⟨rfl, rfl⟩⟩
    rw [Quiet, Draft.document, Drafting.bind_apply, Drafting.shelf]
    dsimp only [Traced.pure]
    rw [shown]
    rfl

/-- So it is with what a call made, if it made anything. -/
theorem quiet_documentOf (d : Option Draft) (shelf : Shelf) :
    ∃ answer, Quiet shelf (Draft.documentOf d) answer ∧ ∀ fault, answer = .error fault →
      fault = .circular ∧ ∃ made ∈ d, made.shown shelf = none := by
  cases d with
  | none => exact ⟨.ok none, rfl, fun fault same => by cases same⟩
  | some d =>
    obtain ⟨answer, quiet, failing⟩ := quiet_document d shelf
    rw [Draft.documentOf, map_eq_pure_bind]
    cases answer with
    | ok document => exact ⟨_, quiet.bind rfl, fun fault same => by cases same⟩
    | error fault =>
      obtain ⟨rfl, hidden⟩ := failing fault rfl
      exact ⟨_, quiet.bind_error, fun _ same => by cases same; exact ⟨rfl, d, rfl, hidden⟩⟩

/-- A native document leaves the shelf that its draft leaves, and there is one when there is a draft,
unless the draft holds itself. -/
theorem native_of_draft (g : Generator) (r : Option Resource) (options : List FieldOption)
    (shelf : Shelf) : (g.native r options shelf).2 = (g.draft r options shelf).2 ∧
      ∀ d, (g.draft r options shelf).1.result = .ok d → ∀ fault,
        (g.native r options shelf).1.result = .error fault →
          fault = .circular ∧ ∃ made ∈ d, made.shown (g.draft r options shelf).2 = none := by
  rw [Generator.native, Drafting.bind_apply]
  rcases g.draft r options shelf with ⟨⟨fault | d, trace⟩, left⟩
  · exact ⟨rfl, fun _ made => by cases made⟩
  · obtain ⟨answer, quiet, failing⟩ := quiet_documentOf d left
    rw [Quiet] at quiet
    dsimp only
    rw [quiet]
    exact ⟨rfl, fun _ made => by cases made; exact failing⟩

/-- A call leaves the shelf that it leaves without showing what it made. When that was made, there
is an answer, unless it holds itself. -/
theorem call_of_make (g : Generator) (call : Call) (shelf : Shelf) :
    (g.call call shelf).2 = (g.make call shelf).2 ∧
      ∀ d, (g.make call shelf).1.result = .ok d → ∀ fault,
        (g.call call shelf).1.result = .error fault →
          fault = .circular ∧ ∃ made ∈ d, made.shown (g.make call shelf).2 = none := by
  cases call with
  | native r options => exact g.native_of_draft r options shelf
  | fromName name options => exact g.native_of_draft (g.stored name) options shelf
  | generate r options =>
    obtain ⟨same, failing⟩ := g.native_of_draft r options shelf
    rw [call, make, generate, Drafting.bind_apply, Drafting.bind_apply]
    revert same failing
    -- The orchestrator document comes last on both sides, and touches nothing.
    rcases g.draft r options shelf with ⟨⟨fault | d, trace⟩, left⟩ <;>
      rcases g.native r options shelf with ⟨⟨fault' | answer, trace'⟩, left'⟩ <;>
      intro same failing
    · exact ⟨same, fun _ made => by cases made⟩
    · cases g.orchestrator r <;> exact ⟨same, fun _ made => by cases made⟩
    · cases g.orchestrator r with
      | error fault => exact ⟨same, fun _ made => by cases made⟩
      | ok document => exact ⟨same, fun _ made => by cases made; exact failing d rfl⟩
    · cases g.orchestrator r with
      | error fault => exact ⟨same, fun _ made => by cases made⟩
      | ok document => exact ⟨same, fun _ _ _ raised => by cases raised⟩

end Generator

namespace Settings

/-- The resources whose manifests a call about a pod reads: the pod, the controllers that its hops
ask for, its node, and the namespaces of the pod and of the controllers. -/
inductive Reads (s : Settings) (stores : Stores) (pod : Resource) (options : List FieldOption)
    (shelf : Shelf) : Resource → Prop
  | pod : Reads s stores pod options shelf pod
  | controller {hop : Hop} {name : Text} {r : Resource} : hop ∈ s.owners.hops →
      (s.podParts stores).viaNamed pod options shelf hop = some name →
      lookup (Table.get? stores hop.via) name (some hop.via) = some r →
      Reads s stores pod options shelf r
  | node {name : Text} {r : Resource} : s.owners.node.enabled = true → pod.nodeName = .ok name →
      lookup (Table.get? stores .node) name (some .node) = some r →
      Reads s stores pod options shelf r
  | space {q : Resource} {name : Text} {r : Resource} : Reads s stores pod options shelf q →
      q.kind.isNamespaced = true → s.owners.space.enabled = true → q.space = .ok name →
      lookup (Table.get? stores .namespace) name (some .namespace) = some r →
      Reads s stores pod options shelf r

/-- What a fault of a call about a pod comes from: something is wrong with a resource that is read,
or a value that is no scalar stands where a text is read, so that the text may go too deep or be too
long to be written. -/
inductive Accounts (s : Settings) (stores : Stores) (pod : Resource) (options : List FieldOption)
    (shelf : Shelf) : Fault → Prop
  | faulty {fault : Fault} : Faulty s.terms (s.Reads stores pod options shelf) fault →
      Accounts s stores pod options shelf fault
  | texts {r : Resource} {fault : Fault} : s.Reads stores pod options shelf r → ¬ r.PlainTexts →
      Accounts s stores pod options shelf fault

section

variable {s : Settings} {c : Cluster} (filed : c.Filed) (proper : c.Proper) {stores : Stores}
  (within : ∀ kind name r, lookup (Table.get? stores kind) name (some kind) = some r → c.Knows r)
  {pod : Resource} (known : c.Knows pod) {options : List FieldOption} {start : Shelf}

include filed proper within

/-- What a store has under a name can be read, and its sections are the ones that are due. -/
theorem readable_of_stored {kind : Kind} {name : Text} {r : Resource}
    (stored : lookup (Table.get? stores kind) name (some kind) = some r) :
    r.kind = kind ∧ (∃ metadata, r.metadata = .ok metadata) ∧
      (s.selectionOf kind).Settled s.terms r := by
  have own : r.kind = kind := kind_of_lookup stored
  have knows := within _ _ _ stored
  have readable := knows.exists_metadata filed
  obtain ⟨id, found⟩ := knows
  have settled := s.settled (proper id r found)
  rw [own] at settled
  exact ⟨own, readable, settled⟩

/-- The namespace of a resource that is read. -/
theorem stays_spacePeer : ∀ p ∈ s.spacePeer stores, ∀ q, s.Reads stores pod options start q →
    q.kind.isNamespaced = true → ∀ space, q.space = .ok space → ∀ shelf i,
    Standing s.terms shelf i →
      Stays s.terms (Faulty s.terms (s.Reads stores pod options start)) shelf i (p.ask space [])
        fun left i' answer => ∀ d ∈ answer,
          d.Inheritable s.terms (s.Reads stores pod options start) left i' := by
  intro p mem q read inside space home shelf i standing
  obtain ⟨on, rfl⟩ := of_spacePeer mem
  refine Generator.stays_ask standing fun r stored => ?_
  obtain ⟨kind, ⟨metadata, readable⟩, settled⟩ := readable_of_stored filed proper within stored
  exact Generator.stays_forNamespaces standing (.space read inside on home stored) readable settled
    kind

/-- The node that the pod runs on. -/
theorem stays_nodePeer : ∀ p ∈ s.nodePeer stores, ∀ name, pod.nodeName = .ok name → ∀ shelf i,
    Standing s.terms shelf i →
      Stays s.terms (Faulty s.terms (s.Reads stores pod options start)) shelf i
        (p.ask name [.nest Kind.node.field]) fun _ _ _ => True := by
  intro p mem name runsOn shelf i standing
  obtain ⟨on, rfl⟩ := of_nodePeer mem
  refine Generator.stays_asked standing fun r stored => ?_
  obtain ⟨kind, ⟨metadata, readable⟩, settled⟩ := readable_of_stored filed proper within stored
  exact Generator.stays_forNodes standing (.node on runsOn stored) readable settled kind

/-- A controller that a hop asks for. -/
theorem stays_hopPeer (hop : Hop) : ∀ p ∈ s.hopPeer stores hop, ∀ via,
    (s.podParts stores).viaNamed pod options start hop = some via → ∀ shelf i,
    Standing s.terms shelf i →
      Stays s.terms (Faulty s.terms (s.Reads stores pod options start)) shelf i (p.ask via [])
        fun _ _ _ => True := by
  intro p mem via named shelf i standing
  obtain ⟨on, rfl⟩ := of_hopPeer mem
  refine Generator.stays_asked standing fun r stored => ?_
  have read : s.Reads stores pod options start r := .controller on named stored
  obtain ⟨kind, ⟨metadata, readable⟩, settled⟩ := readable_of_stored filed proper within stored
  have other : r.kind ≠ .pod := by
    rw [kind]
    cases hop <;> decide
  have inside : r.kind.isNamespaced = true := by
    rw [kind]
    cases hop <;> rfl
  rw [selectionOf_via] at settled
  exact Generator.stays_forControllers standing read readable settled other fun p mem name home =>
    stays_spacePeer filed proper within p mem r read inside name home

include known in
/-- The draft of the pod. -/
theorem stays_podDraft (kind : pod.kind = .pod) {i : Inventory}
    (standing : Standing s.terms start i) :
    Stays s.terms (Faulty s.terms (s.Reads stores pod options start)) start i
      ((s.podGenerator stores).build pod options) fun _ _ _ => True := by
  obtain ⟨metadata, readable⟩ := known.exists_metadata filed
  rw [podGenerator_eq]
  refine Generator.stays_forPods standing .pod readable kind options
    (fun p mem => stays_spacePeer filed proper within p mem pod .pod (kind ▸ rfl))
    (stays_nodePeer filed proper within) fun hop p mem => ?_
  rw [peerFor_podParts] at mem
  exact stays_hopPeer filed proper within hop p mem

/-! ## Calls -/

variable {i : Inventory} (standing : Standing s.terms start i)
include standing

/-- The draft of what is filed: a fault is accounted for, and without a pod there is none. -/
theorem stays_draft {r : Option Resource} (given : ∀ q ∈ r, c.Knows q) :
    Stays s.terms (fun fault => ∃ pod, r.filter (·.kind = .pod) = some pod ∧
        s.Accounts stores pod options start fault) start i
      ((s.podGenerator stores).draft r options) fun _ _ _ => True := by
  cases r with
  | none => exact stays_pure standing trivial
  | some pod =>
    by_cases kind : pod.kind = .pod
    · have kind' : pod.kind = (s.podGenerator stores).kind := kind
      have filtered : (some pod).filter (·.kind = .pod) = some pod := by simp [kind]
      rw [Generator.draft, if_pos kind', map_eq_pure_bind]
      have built : Stays s.terms (Faulty s.terms (s.Reads stores pod options start)) start i
          ((s.podGenerator stores).build pod options) fun _ _ _ => True :=
        stays_podDraft filed proper within (given pod rfl) kind standing
      refine (built.mono (fun fault faulty => ⟨pod, filtered, .faulty faulty⟩)
        fun _ _ _ _ _ => id).bind ?_
      exact fun left i' d standing _ _ => stays_pure standing trivial
    · have kind' : pod.kind ≠ (s.podGenerator stores).kind := kind
      rw [Generator.draft, if_neg kind']
      exact stays_pure standing trivial

/-- A call leaves a shelf like the one that it found, and its fault is accounted for. -/
theorem stays_make {call : Call} (given : ∀ r ∈ call.given?, c.Knows r) :
    Stays s.terms (fun fault => ∃ pod, call.pod? (Table.get? stores .pod) = some pod ∧
        s.Accounts stores pod call.options start fault) start i
      ((s.podGenerator stores).make call) fun _ _ _ => True := by
  cases call with
  | generate r options =>
    refine (stays_draft filed proper within standing given).bind ?_
    intro left i' native standing _ _
    have made : ∃ document, (s.podGenerator stores).orchestrator r = .ok document := by
      cases r with
      | none => exact ⟨_, rfl⟩
      | some r =>
        obtain ⟨metadata, readable⟩ := (given r rfl).exists_metadata filed
        exact Resource.exists_orchestrator _ readable
    obtain ⟨document, made⟩ := made
    rw [made]
    exact stays_pure standing trivial
  | native r options => exact stays_draft filed proper within standing given
  | fromName name options =>
    exact stays_draft filed proper within standing fun r stored => within _ _ _ stored

/-- Calls one after the other leave a shelf like the one that they found. -/
theorem standing_after {calls : List Call} (given : ∀ call ∈ calls, ∀ r ∈ call.given?, c.Knows r) :
    ∃ i', Standing s.terms ((s.podGenerator stores).after calls start) i' := by
  induction calls generalizing start i with
  | nil => exact ⟨i, standing⟩
  | cons call rest ih =>
    obtain ⟨i', standing⟩ :=
      (stays_make filed proper within standing (given call List.mem_cons_self)).leaves
    rw [← (Generator.call_of_make _ call start).1] at standing
    exact ih standing fun call mem => given call (List.mem_cons_of_mem _ mem)

end

end Settings

/-- A call of the generator of pods fails only when something is wrong with a manifest that it
reads: the pod, its node, a controller that a hop asks for or a namespace of these. It has a part of
the wrong form, or it is a namespace with a section that goes deeper than a merge does, or a text is
read off a value that is no scalar. So it is whatever was made before, whatever the options are, and
whichever stores or resources are missing. What was made is the answer, as far as it can be shown.
-/
theorem call_faults_accounted {s : Settings} {manifests : List Value}
    (proper : ∀ manifest ∈ manifests, manifest.Proper) {c : Cluster}
    (loaded : (Cluster.load manifests).result = .ok c) {stores : Stores}
    (within : ∀ kind name r, lookup (Table.get? stores kind) name (some kind) = some r → c.Knows r)
    {earlier : List Call} {call : Call}
    (given : ∀ other ∈ call :: earlier, ∀ r ∈ other.given?, c.Knows r) {shelf : Shelf}
    (before : shelf = (s.podGenerator stores).after earlier {}) :
    (∀ fault, ((s.podGenerator stores).make call shelf).1.result = .error fault →
      ∃ pod, call.pod? (Table.get? stores .pod) = some pod ∧
        s.Accounts stores pod call.options shelf fault) ∧
    ∀ d, ((s.podGenerator stores).make call shelf).1.result = .ok d →
      (∀ made ∈ d, made.shown ((s.podGenerator stores).make call shelf).2 ≠ none) →
        ∃ answer, ((s.podGenerator stores).call call shelf).1.result = .ok answer := by
  subst before
  have filed := Cluster.filed_of_load loaded
  have isProper := Cluster.proper_of_load proper loaded
  obtain ⟨i, standing⟩ := Settings.standing_after filed isProper within (standing_bare s.terms)
    fun other mem => given other (List.mem_cons_of_mem _ mem)
  refine ⟨(Settings.stays_make filed isProper within standing
    (given call List.mem_cons_self)).fault, fun d made shows => ?_⟩
  cases answered : ((s.podGenerator stores).call call
      ((s.podGenerator stores).after earlier {})).1.result with
  | ok answer => exact ⟨answer, rfl⟩
  | error fault =>
    obtain ⟨-, draft, mem, hidden⟩ := (Generator.call_of_make _ call _).2 d made fault answered
    exact absurd hidden (shows draft mem)

def nestedLists : Nat → Value
  | 0 => .null
  | depth + 1 => .array [nestedLists depth]

def deepSpace : Value :=
  .object [("kind", .string "Namespace"),
    ("metadata", .object [("name", .string "d"), ("labels", .object [("x", nestedLists 500)])])]

def podOfDeepSpace : Resource :=
  ⟨.pod, 0, .object [("kind", .string "Pod"),
    ("metadata", .object [("name", .string "a"), ("namespace", .string "d")])]⟩

def deepManifests : List Value := [deepSpace, podOfDeepSpace.manifest]

def deepCluster : Cluster := (Cluster.load deepManifests).result.toOption.getD {}

theorem wellShaped_deepManifests {r : Resource} (mem : r.manifest ∈ deepManifests) :
    r.WellShaped ∧ r.PlainTexts := by
  obtain ⟨kind, number, manifest⟩ := r
  simp only [deepManifests, List.mem_cons, List.not_mem_nil, or_false] at mem
  rcases mem with rfl | rfl
  · refine ⟨⟨.inl rfl, .inl rfl, fun map => ?_, .inl rfl, fun _ => .inl rfl⟩,
      ⟨?_, trivial, trivial, nofun, nofun⟩⟩
    · cases map <;> [exact .inr rfl; exact .inl rfl]
    · simp only [List.forall_mem_cons]
      exact ⟨trivial, trivial, trivial, List.forall_mem_nil _⟩
  · refine ⟨⟨.inl rfl, .inl rfl, fun map => ?_, .inl rfl, fun _ => .inl rfl⟩,
      ⟨?_, trivial, trivial, nofun, nofun⟩⟩
    · cases map <;> exact .inl rfl
    · simp only [List.forall_mem_cons]
      exact ⟨trivial, trivial, trivial, List.forall_mem_nil _⟩

theorem proper_nestedLists (depth : Nat) : (nestedLists depth).Proper := by
  induction depth with
  | zero => trivial
  | succ depth ih => exact ⟨ih, trivial⟩

theorem proper_deepManifests : ∀ manifest ∈ deepManifests, manifest.Proper := by
  intro manifest mem
  simp only [deepManifests, List.mem_cons, List.not_mem_nil, or_false] at mem
  rcases mem with rfl | rfl
  · have label := proper_nestedLists 500
    simp only [deepSpace, Value.Proper, Json.ProperFields, Table.Distinct, label]
    decide
  · simp only [podOfDeepSpace, Value.Proper, Json.ProperFields, Table.Distinct]
    decide

set_option maxRecDepth 4000 in
/-- Every manifest is of the right form and has plain texts, and the document of a pod still fails,
for a label of its namespace, in a first call and in a second. -/
theorem call_faults_accounted_deep : (Cluster.load deepManifests).result = .ok deepCluster ∧
    (∀ r, deepCluster.Knows r → r.WellShaped ∧ r.PlainTexts) ∧
    ∃ shelf, shelf = (({} : Settings).podGenerator (deepCluster.storesFor "d")).after
        [.fromName "a" []] {} ∧
      ((({} : Settings).podGenerator (deepCluster.storesFor "d")).make
        (.native (some podOfDeepSpace) []) shelf).1.result = .error .tooDeep ∧
      ∃ pod, (Call.native (some podOfDeepSpace) []).pod?
          (Table.get? (deepCluster.storesFor "d") .pod) = some pod ∧
        ({} : Settings).Accounts (deepCluster.storesFor "d") pod [] shelf .tooDeep := by
  have loaded : (Cluster.load deepManifests).result = .ok deepCluster := rfl
  have filed : deepCluster.find? ⟨.pod, "d", "a"⟩ = some podOfDeepSpace := rfl
  have raised : ((({} : Settings).podGenerator (deepCluster.storesFor "d")).make
      (.native (some podOfDeepSpace) []) ((({} : Settings).podGenerator
        (deepCluster.storesFor "d")).after [.fromName "a" []] {})).1.result =
          .error .tooDeep := by cbv
  refine ⟨loaded, ?_, _, rfl, raised,
    (call_faults_accounted proper_deepManifests loaded (fun kind name r stored => ?_)
      (fun other mem r given => ?_) rfl).1 .tooDeep raised⟩
  · rintro r ⟨id, found⟩
    rw [Cluster.find?_load loaded] at found
    exact wellShaped_deepManifests (manifest_mem_of_last? found)
  · exact ⟨_, (Cluster.find?_of_lookup (Cluster.filed_of_load loaded) stored).2⟩
  · simp only [List.mem_cons, List.not_mem_nil, or_false] at mem
    rcases mem with rfl | rfl <;> cases given
    exact ⟨_, filed⟩

end ClusterMetadata
