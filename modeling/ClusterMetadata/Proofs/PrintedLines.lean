import ClusterMetadata.Proofs.Mute
import ClusterMetadata.Proofs.Locality
import ClusterMetadata.Proofs.EnrichedPods

/-!
# What is printed

Documents are made silently; only a finished document is printed, as one line.

* `Drafting.Silent`: a computation prints nothing;
* `silent_forPods`: nor does making the draft of a pod;
* `Generator.lineOf`: the line of a resource;
* `Prints`, `Delivers`: what a computation prints is the result of another;
* `Delivers.bind`, `delivers_line`, `delivers_mapM`: one step after the other, single lines, loops.
-/
namespace ClusterMetadata

open Json (Value)

namespace Drafting

variable {α β : Type}

/-- A computation prints nothing, wherever it starts. -/
def Silent (x : Drafting α) : Prop := ∀ shelf, Occurrence.output (x shelf).1.trace = []

theorem Silent.bind {x : Drafting α} {f : α → Drafting β} (hx : Silent x)
    (hf : ∀ a, Silent (f a)) : Silent (x >>= f) := by
  intro shelf
  have first := hx shelf
  rw [bind_apply]
  revert first
  rcases x shelf with ⟨⟨result, trace⟩, left⟩
  intro first
  cases result with
  | error fault => exact first
  | ok a =>
    have second := hf a left
    dsimp only at first ⊢
    rw [Occurrence.output_append, first, second]
    rfl

theorem silent_pure (a : α) : Silent (Pure.pure a) := fun _ => rfl

theorem silent_fail (fault : Fault) : Silent (fail fault : Drafting α) := fun _ => rfl

theorem silent_shelf : Silent Drafting.shelf := fun _ => rfl

theorem silent_except (x : Except Fault α) : Silent (liftM x : Drafting α) := fun _ => rfl

theorem silent_onShelf (x : OnShelf α) : Silent (liftM x : Drafting α) := fun _ => rfl

/-- What reports nothing prints nothing. -/
theorem Mute.silent {x : Drafting α} (h : Mute x) : Silent x := by
  intro shelf
  rw [h shelf]
  rfl

end Drafting

open Drafting (Silent silent_pure silent_fail silent_shelf silent_except silent_onShelf)

def Peer.Silent (peer : Peer) : Prop := ∀ name options, (peer.ask name options).Silent

namespace Generator

theorem silent_draft {g : Generator} (silent : ∀ r options, (g.build r options).Silent)
    (r : Option Resource) (options : List FieldOption) : (g.draft r options).Silent := by
  rw [draft.eq_def]
  split
  · exact silent_pure none
  · next r =>
    split
    · rw [map_eq_pure_bind]
      exact (silent r options).bind fun d => silent_pure (some d)
    · exact silent_pure none

theorem silent_peer {g : Generator} (silent : ∀ r options, (g.build r options).Silent) :
    g.peer.Silent :=
  fun name => silent_draft silent (g.stored name)

end Generator

namespace Projector

theorem silent_nativeInSpace (p : Projector) {peer : Option Peer}
    (silent : ∀ p ∈ peer, p.Silent) (field : Text) (r : Resource)
    (options : List FieldOption) : (p.nativeInSpace peer field r options).Silent := by
  apply (p.mute_native field r options).silent.bind
  intro d
  cases peer with
  | none => exact silent_pure d
  | some peer =>
    apply (silent_except _).bind
    intro space
    split
    · exact silent_pure d
    · apply (silent peer rfl space []).bind
      intro answer
      cases answer with
      | none => exact silent_pure d
      | some other => exact (Draft.mute_merge d other).silent

end Projector

namespace Draft

theorem silent_takeHop {parts : PodParts} {hop : Hop}
    (silent : ∀ p ∈ parts.peerFor hop, p.Silent) (d : Draft) : (takeHop parts d hop).Silent := by
  unfold takeHop
  split
  · next peer found =>
    split
    · apply silent_shelf.bind
      intro shelf
      split
      · exact silent_pure d
      · apply (silent peer found _ _).bind
        intro answer
        apply silent_shelf.bind
        intro shelf
        have found : Silent (liftM (Traced.report (.ownerFound hop)) : Drafting Unit) := fun _ => rfl
        have missed (via : Text) (cached : Bool) :
            Silent (liftM (Traced.report (.ownerUnresolved hop via cached)) : Drafting Unit) :=
          fun _ => rfl
        split
        · exact found.bind fun _ => silent_onShelf _
        · exact (missed _ _).bind fun _ => silent_pure d
    · exact silent_pure d
  · exact silent_pure d

theorem silent_addNode {peer : Option Peer} (silent : ∀ p ∈ peer, p.Silent) (d : Draft)
    (nodeName : Text) : (addNode peer d nodeName).Silent := by
  rw [addNode_eq]
  split
  · exact silent_pure d
  · cases peer with
    | none => exact silent_onShelf _
    | some peer => exact (silent peer rfl _ _).bind fun answer => silent_onShelf _

end Draft

namespace Generator

theorem silent_forPods {parts : PodParts} (space : ∀ p ∈ parts.space, p.Silent)
    (node : ∀ p ∈ parts.node, p.Silent) (hops : ∀ hop, ∀ p ∈ parts.peerFor hop, p.Silent)
    (r : Resource) (options : List FieldOption) : ((forPods parts).build r options).Silent := by
  apply (parts.projector.silent_nativeInSpace space _ r options).bind
  intro d
  apply (Draft.silent_takeHop (hops .deployment) d).bind
  intro d
  apply (Draft.silent_takeHop (hops .cronJob) d).bind
  intro d
  apply (silent_except _).bind
  intro nodeName
  apply (Draft.silent_addNode node d nodeName).bind
  intro d
  exact (silent_except _).bind fun address => silent_onShelf _

end Generator

namespace Settings

theorem silent_spacePeer (s : Settings) (stores : Stores) :
    ∀ p ∈ s.spacePeer stores, p.Silent := by
  intro p mem
  obtain ⟨-, rfl⟩ := of_spacePeer mem
  refine Generator.silent_peer fun r options => ?_
  apply (Projector.mute_native _ _ r options).silent.bind
  intro base
  apply (silent_except _).bind
  intro space
  exact (silent_except _).bind fun uid => silent_pure _

theorem silent_nodePeer (s : Settings) (stores : Stores) : ∀ p ∈ s.nodePeer stores, p.Silent := by
  intro p mem
  obtain ⟨-, rfl⟩ := of_nodePeer mem
  refine Generator.silent_peer fun r options => ?_
  apply (Projector.mute_native _ _ r options).silent.bind
  intro d
  exact (silent_except _).bind fun hostname => silent_onShelf _

theorem silent_hopPeer (s : Settings) (stores : Stores) (hop : Hop) :
    ∀ p ∈ s.hopPeer stores hop, p.Silent := by
  intro p mem
  obtain ⟨-, rfl⟩ := of_hopPeer mem
  refine Generator.silent_peer fun r options => ?_
  exact Projector.silent_nativeInSpace _ (s.silent_spacePeer stores) _ r options

/-- Making the draft of a pod prints nothing. -/
theorem silent_podGenerator (s : Settings) (stores : Stores) (r : Resource)
    (options : List FieldOption) : ((s.podGenerator stores).build r options).Silent := by
  rw [podGenerator_eq]
  refine Generator.silent_forPods (s.silent_spacePeer stores) (s.silent_nodePeer stores)
    (fun hop => ?_) r options
  rw [peerFor_podParts]
  exact s.silent_hopPeer stores hop

end Settings

namespace Generator

/-- The document of a resource, or its native part only. -/
def answer (g : Generator) (nativeOnly : Bool) (r : Option Resource) :
    Drafting (Option Document) :=
  if nativeOnly then g.native r [] else g.generate r []

def lineOf (g : Generator) (nativeOnly : Bool) (r : Option Resource) : Drafting String := do
  Json.Value.line (match ← g.answer nativeOnly r with
    | some d => .object d
    | none => .null)

theorem silent_native {g : Generator} (silent : ∀ r options, (g.build r options).Silent)
    (r : Option Resource) (options : List FieldOption) : (g.native r options).Silent := by
  apply (silent_draft silent r options).bind
  intro d
  cases d with
  | none => exact silent_pure none
  | some d =>
    rw [Draft.documentOf, map_eq_pure_bind, Draft.document, bind_assoc]
    apply silent_shelf.bind
    intro shelf
    cases d.shown shelf with
    | none => exact (silent_fail _).bind fun _ => silent_pure _
    | some document => exact silent_pure (some document)

theorem silent_lineOf {g : Generator} (silent : ∀ r options, (g.build r options).Silent)
    (nativeOnly : Bool) (r : Option Resource) : (g.lineOf nativeOnly r).Silent := by
  have answered : (g.answer nativeOnly r).Silent := by
    unfold answer
    split
    · exact silent_native silent r []
    · apply (silent_native silent r []).bind
      intro native
      exact (silent_except _).bind fun orchestrator => silent_pure _
  exact answered.bind fun d => silent_except _

/-- Printing a pod is making its line and then reporting it. -/
theorem printPod_eq (g : Generator) (nativeOnly : Bool) (r : Resource) :
    g.printPod nativeOnly r = (do
      let line ← g.lineOf nativeOnly (some r)
      Traced.report (.printed line)) := by
  rw [printPod, lineOf, answer, bind_assoc]
  cases nativeOnly <;> rfl

end Generator

namespace Drafting

variable {α β : Type}

/-! ## The lines of a run -/

/-- When a computation ends well, the lines that it prints are the result of another, and both leave
the same shelf. -/
def Prints (x : Drafting α) (lines : Drafting (List String)) : Prop :=
  ∀ shelf a, (x shelf).1.result = .ok a →
    (lines shelf).1.result = .ok (Occurrence.output (x shelf).1.trace) ∧
      (lines shelf).2 = (x shelf).2

/-- A computation prints the lines that another makes, and gives a value after them; where they
cannot be made it has no result. -/
structure Delivers (x : Drafting α) (lines : Drafting (List String)) (a : α) : Prop where
  ends : ∀ {shelf texts}, (lines shelf).1.result = .ok texts → (x shelf).1.result = .ok a ∧
    Occurrence.output (x shelf).1.trace = texts ∧ (x shelf).2 = (lines shelf).2
  made : ∀ {shelf b}, (x shelf).1.result = .ok b → ∃ texts, (lines shelf).1.result = .ok texts

theorem Delivers.prints {x : Drafting α} {lines : Drafting (List String)} {a : α}
    (h : Delivers x lines a) : Prints x lines := by
  intro shelf b ended
  obtain ⟨texts, made⟩ := h.made ended
  obtain ⟨-, printed, left⟩ := h.ends made
  rw [printed]
  exact ⟨made, left.symm⟩

theorem Delivers.bind {x : Drafting α} {f : α → Drafting β} {lines more : Drafting (List String)}
    {a : α} {b : β} (hx : Delivers x lines a) (hf : Delivers (f a) more b) :
    Delivers (x >>= f) (do return (← lines) ++ (← more)) b where
  ends := by
    intro shelf texts made
    obtain ⟨first, here, made⟩ := result_bind_eq_ok.mp made
    obtain ⟨second, there, made⟩ := result_bind_eq_ok.mp made
    cases made
    obtain ⟨ended, printed, left⟩ := hx.ends here
    rw [← left] at there
    obtain ⟨ended', printed', left'⟩ := hf.ends there
    rw [bind_of_result ended, bind_of_result here, ← left, bind_of_result there]
    exact ⟨ended', by rw [Occurrence.output_append, printed, printed'], left'⟩
  made := by
    intro shelf c ended
    obtain ⟨a', here, there⟩ := result_bind_eq_ok.mp ended
    obtain ⟨first, made⟩ := hx.made here
    obtain ⟨ended, -, left⟩ := hx.ends made
    rw [ended] at here
    cases here
    obtain ⟨second, made'⟩ := hf.made there
    rw [left] at made'
    rw [bind_of_result made, bind_of_result made']
    exact ⟨_, rfl⟩

/-- What prints nothing goes unnoticed before the lines. -/
theorem Delivers.after_silent {x : Drafting α} {f : α → Drafting β} {lines : Drafting (List String)}
    {a : α} {b : β} (hx : Delivers x (Pure.pure []) a) (hf : Delivers (f a) lines b) :
    Delivers (x >>= f) lines b := by
  simpa using hx.bind hf

/-- What prints nothing goes unnoticed after the lines. -/
theorem Delivers.before_silent {x : Drafting α} {f : α → Drafting β}
    {lines : Drafting (List String)} {a : α} {b : β} (hx : Delivers x lines a)
    (hf : Delivers (f a) (Pure.pure []) b) : Delivers (x >>= f) lines b := by
  simpa using hx.bind hf

theorem delivers_pure (a : α) : Delivers (Pure.pure a) (Pure.pure []) a where
  ends made := by
    cases made
    exact ⟨rfl, rfl, rfl⟩
  made _ := ⟨[], rfl⟩

theorem delivers_report {o : Occurrence} (h : Occurrence.output [o] = []) :
    Delivers (liftM (Traced.report o) : Drafting Unit) (Pure.pure []) () where
  ends made := by
    cases made
    exact ⟨rfl, h, rfl⟩
  made _ := ⟨[], rfl⟩

/-- A line that was made silently is printed. -/
theorem delivers_line {line : Drafting String} (silent : Silent line) :
    Delivers (do Traced.report (.printed (← line))) (do return [← line]) () where
  ends := by
    intro shelf texts made
    obtain ⟨text, here, made⟩ := result_bind_eq_ok.mp made
    cases made
    rw [bind_of_result here, bind_of_result here, Occurrence.output_append, silent shelf]
    exact ⟨rfl, rfl, rfl⟩
  made := by
    intro shelf _ ended
    obtain ⟨text, here, -⟩ := result_bind_eq_ok.mp ended
    rw [bind_of_result here]
    exact ⟨[text], rfl⟩

/-- A loop prints what its steps print. -/
theorem delivers_forM {items : List β} {step : β → Drafting Unit} {line : β → Drafting String}
    (delivers : ∀ item, Delivers (step item) (do return [← line item]) ()) :
    Delivers (items.forM step) (items.mapM line) () := by
  induction items with
  | nil => exact delivers_pure ()
  | cons item rest ih =>
    have both : Delivers (step item >>= fun _ => rest.forM step) _ () := (delivers item).bind ih
    have same : (do return (← (do return [← line item])) ++ (← rest.mapM line)) =
        (item :: rest).mapM line := by
      simp
    rw [same] at both
    exact both

theorem delivers_mapM {items : List β} {step : β → Drafting α} {value : β → α} {γ : Type}
    {within : β → List γ} {line : γ → Drafting String}
    (delivers : ∀ item, Delivers (step item) ((within item).mapM line) (value item)) :
    Delivers (items.mapM step) ((items.flatMap within).mapM line) (items.map value) := by
  induction items with
  | nil => exact delivers_pure []
  | cons item rest ih =>
    have others : Delivers (do return value item :: (← rest.mapM step))
        ((rest.flatMap within).mapM line) (value item :: rest.map value) :=
      ih.before_silent (delivers_pure _)
    rw [List.mapM_cons, List.flatMap_cons, List.mapM_append]
    exact (delivers item).bind others

end Drafting

end ClusterMetadata
