import ClusterMetadata.Proofs.PrintedLines
import ClusterMetadata.Proofs.ProperManifests
import ClusterMetadata.Proofs.SameAnswers

/-!
# The lines of pods that share their owners

A pod shows its own sections and those of its namespace and its node. When the sections that two
pods both show are lasting, neither line changes the other.

* `Settings.ShownWith`: the namespace and the node of a pod;
* `Settings.Lasting`: a resource whose sections show the same whenever they are made;
* `steady_spaceUnder`, `steady_nodeUnder`, `steady_controllerUnder`: peers answer alike where the
  sections of what they find are due;
* `steady_podGenerator`: a pod has one draft, as long as the sections that it shows are due;
* `steady_lineOf`: and so one line;
* `results_of_steady`: lines that are made one after the other are those that each has on its own.
-/
namespace ClusterMetadata

open Json (Value Fields)
open Inventory (Alike)

namespace Settings

def selectionOf (s : Settings) : Kind → Selection
  | .node => s.owners.node.selection
  | .namespace => s.owners.space.selection
  | _ => s.selection

theorem selectionOf_via (s : Settings) (hop : Hop) :
    s.selectionOf hop.via = s.projector.selection := by
  cases hop <;> rfl

def terms (s : Settings) : Terms where
  entries lender := (s.selectionOf lender.owner.kind).entriesOf lender.owner lender.map
  dedot lender := (s.selectionOf lender.owner.kind).dedot lender.map

/-- The sections of a resource show the same when they are made again. -/
def Lasting (s : Settings) (r : Resource) : Prop := s.terms.Lasting r

/-- Nothing changes where keys are not read as paths, or where no value is a map. -/
theorem lasting_of_plain {s : Settings} {r : Resource}
    (plain : ∀ map, (s.selectionOf r.kind).dedot map = true ∨
      ∀ entry ∈ (s.selectionOf r.kind).entriesOf r map, entry.2.isObject = false) : s.Lasting r :=
  Terms.lasting_of_plain plain

theorem settled (s : Settings) {r : Resource} (proper : r.manifest.Proper) :
    (s.selectionOf r.kind).Settled s.terms r :=
  ⟨fun _ => rfl, fun _ => rfl, Selection.proper_entriesOf _ proper⟩

/-- A resource whose sections are shown with the pod under a namespace and a name: the namespace
and the node that the pod runs on, when they are switched on. -/
def ShownWith (s : Settings) (find : Identity → Option Resource) (key : Text × Text)
    (r : Resource) : Prop :=
  (s.owners.space.enabled = true ∧ key.1 ≠ "" ∧ find ⟨.namespace, "", key.1⟩ = some r) ∨
  (s.owners.node.enabled = true ∧ ∃ pod name, find ⟨.pod, key.1, key.2⟩ = some pod ∧
    pod.nodeName = .ok name ∧ name ≠ "" ∧ find ⟨.node, "", name⟩ = some r)

/-- A resource whose sections decide what the pod under a key shows. -/
def Needs (s : Settings) (find : Identity → Option Resource) (key : Text × Text) (r : Resource) :
    Prop :=
  find ⟨.pod, key.1, key.2⟩ = some r ∨ s.ShownWith find key r

/-- A lender whose section may be made for the owners of the pod under a key: one that is shown, or
a controller between the pod and an owner. -/
def Consults (s : Settings) (find : Identity → Option Resource) (key : Text × Text)
    (lender : Lender) : Prop :=
  s.ShownWith find key lender.owner ∨ ∃ hop : Hop, lender.owner.kind = hop.via

/-- A lender whose section may be made for the pod under a key. -/
def Uses (s : Settings) (find : Identity → Option Resource) (key : Text × Text)
    (lender : Lender) : Prop :=
  find ⟨.pod, key.1, key.2⟩ = some lender.owner ∨ s.Consults find key lender

end Settings

namespace Cluster

theorem find?_of_lookup {c : Cluster} (filed : c.Filed) {space : Text} {kind : Kind} {name : Text}
    {r : Resource} (h : lookup (Table.get? (c.storesFor space) kind) name (some kind) = some r) :
    name ≠ "" ∧ c.find? ⟨kind, kind.scope space, name⟩ = some r := by
  rw [lookup_storesFor filed] at h
  split at h
  · cases h
  · next named => exact ⟨named, h⟩

theorem kind_of_find? {c : Cluster} (filed : c.Filed) {id : Identity} {r : Resource}
    (h : c.find? id = some r) : r.kind = id.kind :=
  (Resource.identity_eq_ok.mp (find?_identity filed h)).1

theorem space_of_find? {c : Cluster} (filed : c.Filed) {id : Identity} {r : Resource}
    (h : c.find? id = some r) : r.space = .ok id.space :=
  (Resource.identity_eq_ok.mp (find?_identity filed h)).2.1

def Proper (c : Cluster) : Prop := ∀ id r, c.find? id = some r → r.manifest.Proper

theorem proper_of_load {manifests : List Value} (proper : ∀ manifest ∈ manifests, manifest.Proper)
    {c : Cluster} (loaded : (load manifests).result = .ok c) : c.Proper :=
  fun id _ found => proper_last proper (find?_load loaded id ▸ found)

end Cluster

namespace Settings

variable {s : Settings} {c : Cluster} (filed : c.Filed) {key : Text × Text}
include filed

theorem kind_of_shownWith {r : Resource} (h : s.ShownWith c.find? key r) :
    r.kind ≠ .pod ∧ ∀ hop : Hop, r.kind ≠ hop.via := by
  rcases h with ⟨-, -, found⟩ | ⟨-, _, _, -, -, -, found⟩ <;>
    rw [Cluster.kind_of_find? filed found] <;>
    exact ⟨nofun, by rintro (_ | _) <;> nofun⟩

variable (proper : c.Proper)
include proper

section

variable {space : Text} {touched others : Lender → Prop} {needed : Resource → Prop}

/-- The namespace under a name answers alike, if its sections are due. -/
theorem steady_spaceUnder {name : Text} (met : ∀ r, s.owners.space.enabled = true → name ≠ "" →
      c.find? ⟨.namespace, "", name⟩ = some r →
        needed r ∧ ∀ lender : Lender, lender.owner = r → touched lender) :
    ∀ p ∈ s.spacePeer (c.storesFor space),
      p.Steady s.terms touched needed Draft.SameInherited [] name := by
  intro p mem
  obtain ⟨on, rfl⟩ := of_spacePeer mem
  refine Generator.steady_peer fun r stored => ?_
  obtain ⟨named, found⟩ := Cluster.find?_of_lookup filed stored
  obtain ⟨need, touches⟩ := met r on named found
  have kind : r.kind = .namespace := Cluster.kind_of_find? filed found
  have own := s.settled (proper _ r found)
  rw [kind] at own
  exact (Generator.steady_forNamespaces own need).widen touches

/-- The node under a name answers alike, if its sections are due. -/
theorem steady_nodeUnder {name : Text} (met : ∀ r, s.owners.node.enabled = true → name ≠ "" →
      c.find? ⟨.node, "", name⟩ = some r →
        needed r ∧ ∀ lender : Lender, lender.owner = r → touched lender) :
    ∀ p ∈ s.nodePeer (c.storesFor space),
      p.Steady s.terms touched needed Draft.SameShown [.nest Kind.node.field] name := by
  intro p mem
  obtain ⟨on, rfl⟩ := of_nodePeer mem
  refine Generator.steady_peer fun r stored => ?_
  obtain ⟨named, found⟩ := Cluster.find?_of_lookup filed stored
  obtain ⟨need, touches⟩ := met r on named found
  have kind : r.kind = .node := Cluster.kind_of_find? filed found
  have own := s.settled (proper _ r found)
  rw [kind] at own
  exact (Generator.steady_forNodes own need).widen touches

/-- The controller under a name answers alike, if its namespace does. What the controller lends is
not shown, so it need not be the same. -/
theorem steady_controllerUnder (hop : Hop) {via : Text}
    (apart : ∀ lender, others lender → lender.owner.kind ≠ hop.via)
    (own : ∀ lender : Lender, lender.owner.kind = hop.via → touched lender)
    (shared : ∀ lender, others lender → touched lender)
    (inside : ∀ r, c.find? ⟨hop.via, hop.via.scope space, via⟩ = some r → ∀ home,
      r.space = .ok home → ∀ p ∈ s.spacePeer (c.storesFor space),
        p.Steady s.terms others needed Draft.SameInherited [] home) :
    ∀ p ∈ s.hopPeer (c.storesFor space) hop,
      p.Steady s.terms touched needed Draft.SameOwners [] via := by
  intro p mem
  obtain ⟨-, rfl⟩ := of_hopPeer mem
  refine Generator.steady_peer fun r stored => ?_
  obtain ⟨-, found⟩ := Cluster.find?_of_lookup filed stored
  have kind : r.kind = hop.via := Cluster.kind_of_find? filed found
  have settled := s.settled (proper _ r found)
  rw [kind, selectionOf_via] at settled
  have steady := s.projector.steady_nativeInSpace settled
    (fun lender used same => apart lender used (same ▸ kind))
    (fun p mem home named => inside r found home named p mem) hop.via.field
  refine (steady.widen fun lender used => ?_).mono fun _ _ _ _ same => same.owners
  rcases used with same | used
  · exact own lender (same ▸ kind)
  · exact shared lender used

end

theorem steady_spacePeer : ∀ p ∈ s.spacePeer (c.storesFor key.1),
    p.Steady s.terms (fun lender => s.ShownWith c.find? key lender.owner) (s.Needs c.find? key)
      Draft.SameInherited [] key.1 :=
  steady_spaceUnder filed proper fun r on named found =>
    have shown : s.ShownWith c.find? key r := .inl ⟨on, named, found⟩
    ⟨.inr shown, fun _ same => same ▸ shown⟩

theorem steady_nodePeer {pod : Resource} (isFiled : c.find? ⟨.pod, key.1, key.2⟩ = some pod)
    {name : Text} (runsOn : pod.nodeName = .ok name) : ∀ p ∈ s.nodePeer (c.storesFor key.1),
    p.Steady s.terms (s.Consults c.find? key) (s.Needs c.find? key) Draft.SameShown
      [.nest Kind.node.field] name :=
  steady_nodeUnder filed proper fun r on named found =>
    have shown : s.ShownWith c.find? key r := .inr ⟨on, pod, name, isFiled, runsOn, named, found⟩
    ⟨.inr shown, fun _ same => .inl (same ▸ shown)⟩

theorem steady_hopPeer (hop : Hop) (via : Text) : ∀ p ∈ s.hopPeer (c.storesFor key.1) hop,
    p.Steady s.terms (s.Consults c.find? key) (s.Needs c.find? key) Draft.SameOwners [] via := by
  refine steady_controllerUnder filed proper hop
    (fun lender shown => (kind_of_shownWith filed shown).2 hop) (fun lender via => .inr ⟨hop, via⟩)
    (fun lender => .inl) fun r found home named => ?_
  have scope : hop.via.scope key.1 = key.1 := by cases hop <;> rfl
  rw [Cluster.space_of_find? filed found, scope] at named
  cases named
  exact steady_spacePeer filed proper

/-- The draft of a pod, as long as the sections that it shows are due. -/
theorem steady_podGenerator {pod : Resource}
    (isFiled : c.find? ⟨.pod, key.1, key.2⟩ = some pod) :
    ((s.podGenerator (c.storesFor key.1)).build pod []).Steady s.terms (s.Uses c.find? key)
      (s.Needs c.find? key) Draft.SameShown := by
  have kind : pod.kind = .pod := Cluster.kind_of_find? filed isFiled
  have inSpace : pod.space = .ok key.1 := Cluster.space_of_find? filed isFiled
  have own := s.settled (proper _ pod isFiled)
  rw [kind] at own
  have apart (lender : Lender) (used : s.Consults c.find? key lender) : lender.owner ≠ pod := by
    rintro rfl
    rcases used with shown | ⟨hop, via⟩
    · exact (kind_of_shownWith filed shown).1 kind
    · rw [kind] at via
      cases hop <;> cases via
  rw [podGenerator_eq]
  refine (Generator.steady_forPods own (.inl isFiled) apart (fun p mem space named => ?_)
    (fun p mem name runsOn => steady_nodePeer filed proper isFiled runsOn p mem)
    fun hop p mem via => ?_).widen fun lender used => ?_
  · rw [inSpace] at named
    cases named
    exact (steady_spacePeer filed proper p mem).widen fun lender => .inl
  · rw [peerFor_podParts] at mem
    exact steady_hopPeer filed proper hop via p mem
  · rcases used with rfl | used
    · exact .inl isFiled
    · exact .inr used

omit proper

/-- What is used for one pod and decides what another shows is shown with both. -/
theorem shownWith_both {key key' : Text × Text} (other : key ≠ key') {lender : Lender}
    (used : s.Uses c.find? key lender) (needed : s.Needs c.find? key' lender.owner) :
    s.ShownWith c.find? key lender.owner ∧ s.ShownWith c.find? key' lender.owner := by
  rcases needed with own | shown'
  · have kind : lender.owner.kind = .pod := Cluster.kind_of_find? filed own
    rcases used with same | shown | ⟨hop, via⟩
    · have here := Cluster.find?_identity filed same
      rw [Cluster.find?_identity filed own] at here
      cases key
      cases key'
      cases here
      exact absurd rfl other
    · exact absurd kind (kind_of_shownWith filed shown).1
    · rw [kind] at via
      cases hop <;> cases via
  · have kinds := kind_of_shownWith filed shown'
    rcases used with own | shown | ⟨hop, via⟩
    · exact absurd (Cluster.kind_of_find? filed own) kinds.1
    · exact ⟨shown, shown'⟩
    · exact absurd via (kinds.2 hop)

end Settings

namespace Generator

variable {terms : Terms} {touched : Lender → Prop} {needed : Resource → Prop}

def SameResult {α : Type} (_ : Inventory) (a : α) (_ : Inventory) (b : α) : Prop := a = b

theorem steady_native {g : Generator} {r : Resource} (kind : r.kind = g.kind)
    (built : (g.build r []).Steady terms touched needed Draft.SameShown) :
    (g.native (some r) []).Steady terms touched needed SameResult := by
  intro i i' alike
  rw [native_of_kind kind]
  apply (built alike).bind fun _ => id
  intro left d left' d' apace same
  obtain ⟨doc, shows, shows'⟩ := same
  rw [Draft.document, Draft.document, bind_assoc, bind_assoc]
  refine Drafting.together_shelf ?_
  rw [Draft.shown_of_shows left doc shows, Draft.shown_of_shows left' doc shows']
  exact Drafting.together_pure apace.alike rfl

/-- A resource with one draft has one line. -/
theorem steady_lineOf {g : Generator} {r : Resource} (kind : r.kind = g.kind)
    (built : (g.build r []).Steady terms touched needed Draft.SameShown) (nativeOnly : Bool) :
    (g.lineOf nativeOnly (some r)).Steady terms touched needed SameResult := by
  have native := steady_native kind built
  have answered : (g.answer nativeOnly (some r)).Steady terms touched needed SameResult := by
    unfold answer
    split
    · exact native
    · intro i i' alike
      apply (native alike).bind fun _ => id
      intro left d left' d' apace same
      cases same
      apply Drafting.together_read
      intro orchestrator _
      exact Drafting.together_pure apace.alike rfl
  intro i i' alike
  apply (answered alike).bind fun _ => id
  intro left d left' d' apace same
  cases same
  rw [← bind_pure (liftM _ : Drafting String)]
  apply Drafting.together_read
  intro line _
  exact Drafting.together_pure apace.alike rfl

end Generator

namespace Drafting

variable {α β : Type} {terms : Terms}

/-- In an inventory where the first sections of certain resources are due, as they are where nothing
was lent. -/
theorem alike_bare {needed : Resource → Prop} {i : Inventory}
    (due : ∀ lender, ∃ shown, i.Gives terms lender shown)
    (first : ∀ lender, needed lender.owner → i.Gives terms lender (terms.first lender)) :
    Alike terms needed i .bare :=
  ⟨due, fun lender => ⟨_, Inventory.gives_bare terms lender⟩, fun lender need =>
    ⟨_, first lender need, Inventory.gives_bare terms lender⟩⟩

/-- Results of steady computations that come one after the other are those that each has when
nothing came before it, if what one of them uses and a later one needs is lasting. -/
theorem results_of_steady {items : List α} {step : α → Drafting β} {touched : α → Lender → Prop}
    {needed : α → Resource → Prop}
    (steady : ∀ item ∈ items, (step item).Steady terms (touched item) (needed item)
      Generator.SameResult)
    (lasting : items.Pairwise fun a b => ∀ lender, touched a lender → needed b lender.owner →
      terms.Lasting lender.owner) {i : Inventory}
    (due : ∀ lender, ∃ shown, i.Gives terms lender shown)
    (first : ∀ item ∈ items, ∀ lender, needed item lender.owner →
      i.Gives terms lender (terms.first lender)) {results : List β}
    (h : (items.mapM step i.shelf).1.result = .ok results) :
    items.mapM (fun item => (step item).fromStart.result) = .ok results := by
  induction items generalizing i results with
  | nil =>
    cases h
    rfl
  | cons item rest ih =>
    rw [List.mapM_cons] at h ⊢
    obtain ⟨result, here, h⟩ := result_bind_eq_ok.mp h
    obtain ⟨others, there, h⟩ := result_bind_eq_ok.mp h
    cases h
    have alike := alike_bare due (first item List.mem_cons_self)
    obtain ⟨b, left, left', alone, after, -, apace, same⟩ :=
      steady item List.mem_cons_self alike result here
    cases same
    rw [after] at there
    obtain ⟨later, lasting⟩ := List.pairwise_cons.mp lasting
    have still (other : α) (mem : other ∈ rest) (lender : Lender)
        (need : needed other lender.owner) : left.Gives terms lender (terms.first lender) := by
      have before := first other (List.mem_cons_of_mem _ mem) lender need
      by_cases used : touched item lender
      · exact apace.moves.first (later other mem lender used need) before
      · exact apace.moves.apart used before
    have rest := ih (fun other mem => steady other (List.mem_cons_of_mem _ mem)) lasting
      apace.alike.due still there
    have alone : (step item).fromStart.result = .ok result := alone
    rw [alone, rest]
    rfl

end Drafting

end ClusterMetadata
