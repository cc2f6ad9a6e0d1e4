import ClusterMetadata.Proofs.SameLines

/-!
# Answers that are the same when nothing was made before

A peer whose own sections were not made yet says what it says where nothing was made at all.

* `Drafting.Goes`: what a computation leaves of an inventory, and what its results have;
* `Steady.goes_self`, `Steady.goes_alone`: a steady computation goes on from what is due, and as
  from the start when nothing that matters was made;
* `exists_native`, `of_native`: the native document is what the draft shows;
* `Peer.told`, `goes_ask`: what a peer says at the start, and whenever it is asked.
-/
namespace ClusterMetadata

open Json (Value Fields)
open Inventory (Moves Alike)

namespace Inventory

/-- Some section of every lender is due. -/
def Due (terms : Terms) (i : Inventory) : Prop := ∀ lender, ∃ shown, i.Gives terms lender shown

variable {terms : Terms} {i i' : Inventory} {touched : Lender → Prop}

theorem due_bare (terms : Terms) : bare.Due terms := fun lender => ⟨_, gives_bare terms lender⟩

theorem Moves.due (h : Moves terms touched i i') (due : i.Due terms) : i'.Due terms := by
  intro lender
  obtain ⟨shown, gives⟩ := due lender
  obtain ⟨shown', gives', -⟩ := h.gives lender shown gives
  exact ⟨shown', gives'⟩

end Inventory

namespace Drafting

variable {α β : Type} {terms : Terms} {touched touched' : Lender → Prop} {i : Inventory}

/-- From an inventory, a result of a computation leaves another one, for which only sections of
certain lenders were made, and has a property there. -/
def Goes (terms : Terms) (touched : Lender → Prop) (i : Inventory) (x : Drafting α)
    (post : Inventory → α → Prop) : Prop :=
  ∀ a, (x i.shelf).1.result = .ok a →
    ∃ left, (x i.shelf).2 = left.shelf ∧ Moves terms touched i left ∧ post left a

theorem goes_pure {a : α} {post : Inventory → α → Prop} (h : post i a) :
    Goes terms touched i (Pure.pure a) post := by
  rintro _ ⟨⟩
  exact ⟨i, rfl, .refl .., h⟩

theorem Goes.bind {x : Drafting α} {f : α → Drafting β} {post : Inventory → α → Prop}
    {post' : Inventory → β → Prop} (hx : Goes terms touched i x post)
    (hf : ∀ left a, Moves terms touched i left → post left a →
      Goes terms touched left (f a) post') : Goes terms touched i (x >>= f) post' := by
  intro b whole
  obtain ⟨a, result, rest⟩ := result_bind_eq_ok.mp whole
  obtain ⟨left, here, moves, made⟩ := hx a result
  rw [here] at rest
  obtain ⟨last, there, further, made⟩ := hf left a moves made b rest
  rw [bind_of_result result, here]
  exact ⟨last, there, moves.trans further, made⟩

/-- Sections of more lenders may be made, and less may be said of the results. -/
theorem Goes.mono {x : Drafting α} {post post' : Inventory → α → Prop}
    (hx : Goes terms touched i x post) (more : ∀ lender, touched lender → touched' lender)
    (weaker : ∀ left a, Moves terms touched i left → post left a → post' left a) :
    Goes terms touched' i x post' := by
  intro a result
  obtain ⟨left, here, moves, made⟩ := hx a result
  exact ⟨left, here, moves.mono more, weaker left a moves made⟩

/-- Where the sections that were made are kept in mind. -/
theorem Goes.moving {x : Drafting α} {post : Inventory → α → Prop}
    (hx : Goes terms touched i x post) (more : ∀ lender, touched lender → touched' lender) :
    Goes terms touched' i x fun left a => Moves terms touched i left ∧ post left a :=
  hx.mono more fun _ _ moves made => ⟨moves, made⟩

theorem Goes.and {x : Drafting α} {post : Inventory → α → Prop} {post' : α → Prop}
    (hx : Goes terms touched i x post) (every : x.Ensures post') :
    Goes terms touched i x fun left a => post left a ∧ post' a := by
  intro a result
  obtain ⟨left, here, moves, made⟩ := hx a result
  exact ⟨left, here, moves, made, every i.shelf a result⟩

theorem goes_read {x : Except Fault α} {f : α → Drafting β} {post : Inventory → β → Prop}
    (hf : ∀ a, x = .ok a → Goes terms touched i (f a) post) :
    Goes terms touched i (liftM x >>= f) post := by
  cases x with
  | error fault => rintro _ ⟨⟩
  | ok a => exact hf a rfl

theorem goes_shelf {f : Shelf → Drafting β} {post : Inventory → β → Prop}
    (h : Goes terms touched i (f i.shelf) post) :
    Goes terms touched i (Drafting.shelf >>= f) post := h

theorem goes_report (o : Occurrence) {x : Drafting β} {post : Inventory → β → Prop}
    (h : Goes terms touched i x post) :
    Goes terms touched i ((liftM (Traced.report o) : Drafting Unit) >>= fun _ => x) post := h

/-- Work on the shelf. -/
theorem goes_run {x : OnShelf α} {a : α} {left : Inventory} {post : Inventory → α → Prop}
    (run : x.run i.shelf = (a, left.shelf)) (moves : Moves terms touched i left) (h : post left a) :
    Goes terms touched i (liftM x : Drafting α) post := by
  have here : (liftM x : Drafting α) i.shelf = (Traced.pure a, left.shelf) := by
    change (Traced.pure (x.run i.shelf).1, (x.run i.shelf).2) = _
    rw [run]
  intro b result
  rw [here] at result
  cases result
  exact ⟨left, by rw [here], moves, h⟩

/-- Work on the shelf that leaves it as it is. -/
theorem goes_still {x : OnShelf α} {a : α} {post : Inventory → α → Prop}
    (run : x.run i.shelf = (a, i.shelf)) (h : post i a) :
    Goes terms touched i (liftM x : Drafting α) post :=
  goes_run run (.refl ..) h

/-- Work on the shelf that leaves it as it is, with what comes after it. -/
theorem goes_still_bind {x : OnShelf α} {a : α} {f : α → Drafting β} {post : Inventory → β → Prop}
    (run : x.run i.shelf = (a, i.shelf)) (h : Goes terms touched i (f a) post) :
    Goes terms touched i (liftM x >>= f) post := by
  have here : Goes terms touched i (liftM x : Drafting α) fun left b => left = i ∧ b = a :=
    goes_still run ⟨rfl, rfl⟩
  refine here.bind fun left b _ same => ?_
  obtain ⟨rfl, rfl⟩ := same
  exact h

theorem goes_quiet {x : Drafting α} {outcome : Except Fault α} {post : Inventory → α → Prop}
    (quiet : Quiet i.shelf x outcome) (h : ∀ a, outcome = .ok a → post i a) :
    Goes terms touched i x post := by
  rw [Quiet] at quiet
  intro a result
  rw [quiet] at result
  exact ⟨i, by rw [quiet], .refl .., h a result⟩

variable {needed : Resource → Prop} {related : Inventory → α → Inventory → α → Prop}

/-- A steady computation goes on from every inventory. -/
theorem Steady.goes_self {x : Drafting α} (steady : x.Steady terms touched needed related)
    (due : i.Due terms) :
    Goes terms touched i x fun left a => ∃ left' b, related left a left' b := by
  intro a result
  obtain ⟨b, left, left', -, here, -, apace, same⟩ := steady (Alike.refl due) a result
  exact ⟨left, here, apace.moves, left', b, same⟩

/-- Where the sections that matter were not made yet, a steady computation goes as it does where
nothing was made. -/
theorem Steady.goes_alone {x : Drafting α} (steady : x.Steady terms touched needed related)
    (due : i.Due terms)
    (first : ∀ lender, needed lender.owner → i.Gives terms lender (terms.first lender)) :
    Goes terms touched i x fun left a => ∃ left' b, (x {}).1.result = .ok b ∧
      (x {}).2 = left'.shelf ∧ related left a left' b := by
  intro a result
  obtain ⟨b, left, left', alone, here, there, apace, same⟩ :=
    steady (alike_bare due first) a result
  exact ⟨left, here, apace.moves, left', b, alone, there, same⟩

end Drafting

namespace Draft

/-- What a draft shows is its document. -/
theorem document_of_shows {i : Inventory} {d : Draft} {document : Document}
    (shows : ShowsFields i.shelf document d) :
    d.document i.shelf = (Traced.pure document, i.shelf) := by
  rw [Draft.document, Drafting.bind_apply]
  simp only [Drafting.shelf, Traced.pure, shown_of_shows i document shows]
  rfl

end Draft

namespace Generator

variable {g : Generator} {r : Resource} {options : List FieldOption} {terms : Terms}
  {touched : Lender → Prop} {shown : Document → Prop}
  (built : Drafting.Goes terms touched .bare (g.build r options) fun left d =>
    ∃ document, Draft.ShowsFields left.shelf document d ∧ shown document)
include built

/-- Where a draft is made, so is the document that it shows. -/
theorem exists_native (kind : r.kind = g.kind) {d : Draft}
    (made : (g.build r options).fromStart.result = .ok d) :
    ∃ document, (g.native (some r) options).fromStart.result = .ok (some document) ∧
      shown document := by
  obtain ⟨left, here, -, document, shows, own⟩ := built d made
  have shelf : (g.build r options {}).2 = left.shelf := here
  refine ⟨document, ?_, own⟩
  rw [native_of_kind kind]
  refine Drafting.result_bind_eq_ok.mpr ⟨d, made, ?_⟩
  rw [shelf, Drafting.bind_apply, Draft.document_of_shows shows]
  rfl

theorem of_native (kind : r.kind = g.kind) {answer : Option Document}
    (ran : (g.native (some r) options).fromStart.result = .ok answer) :
    ∃ document, answer = some document ∧ shown document := by
  have whole := ran
  rw [native_of_kind kind] at whole
  obtain ⟨d, made, -⟩ := Drafting.result_bind_eq_ok.mp whole
  obtain ⟨document, same, own⟩ := exists_native built kind made
  rw [ran] at same
  exact ⟨document, Except.ok.inj same, own⟩

end Generator

namespace Peer

/-- What a peer says of a name where nothing was made before. -/
def told (peer : Peer) (name : Text) (options : List FieldOption) :
    Except Fault (Option Document) :=
  (do Draft.documentOf (← peer.ask name options) : Drafting (Option Document)).fromStart.result

def said (peer : Option Peer) (name : Text) (options : List FieldOption) :
    Except Fault (Option Document) :=
  match peer with
  | none => .ok none
  | some peer => if name = "" then .ok none else peer.told name options

theorem said_unnamed (peer : Option Peer) (options : List FieldOption) :
    said peer "" options = .ok none := by
  cases peer <;> rfl

variable {terms : Terms} {touched : Lender → Prop} {needed : Resource → Prop}
  {related : Inventory → Draft → Inventory → Draft → Prop} {options : List FieldOption}

/-- Where the sections that matter were not made yet, a peer says what it says at the start. -/
theorem goes_ask {peer : Peer} {name : Text}
    (steady : peer.Steady terms touched needed related options name)
    (shown : ∀ i d i' d', related i d i' d' → Draft.SameShown i d i' d') {i : Inventory}
    (due : i.Due terms)
    (first : ∀ lender, needed lender.owner → i.Gives terms lender (terms.first lender)) :
    Drafting.Goes terms touched i (peer.ask name options) fun left answer =>
      ∃ said, peer.told name options = .ok said ∧ Draft.AnswerShows left answer said := by
  refine (Drafting.Steady.goes_alone steady due first).mono (fun _ => id) ?_
  rintro left answer - ⟨left', answer', alone, there, same⟩
  rw [told, Drafting.fromStart, Drafting.bind_of_result alone, there]
  obtain ⟨rfl, rfl⟩ | ⟨d, d', rfl, rfl, same⟩ := Draft.sameAnswer_cases same
  · exact ⟨none, rfl, trivial⟩
  · obtain ⟨document, shows, shows'⟩ := shown _ _ _ _ same
    refine ⟨some document, ?_, shows⟩
    rw [Draft.documentOf, map_eq_pure_bind, Drafting.bind_apply, Draft.document_of_shows shows']
    rfl

end Peer

end ClusterMetadata
