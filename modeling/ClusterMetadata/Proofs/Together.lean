import ClusterMetadata.Proofs.MergedDrafts
import ClusterMetadata.Proofs.Turns

/-!
# One computation in two inventories

A computation that reads manifests and lends their maps ends alike in two inventories in which the
sections that matter to it are equally due: where it gives a result in the first, it gives one in
the second that is related to it.

* `Together`: of two computations the second ends as the first;
* `Steady`: a computation ends alike in all inventories that are alike;
* `Together.bind`: one step after the other;
* `together_read`, `together_run`, `together_quiet`: single steps.
-/
namespace ClusterMetadata.Drafting

open Inventory (Alike Apace)

variable {α β γ δ : Type}

/-- Where the first of two computations has a result, the second has a related one, and both
inventories have become others that are alike. -/
def Together (terms : Terms) (touched : Lender → Prop) (needed : Resource → Prop)
    (related : Inventory → α → Inventory → β → Prop) (i : Inventory) (x : Drafting α)
    (i' : Inventory) (x' : Drafting β) : Prop :=
  ∀ a, (x i.shelf).1.result = .ok a → ∃ b left left', (x' i'.shelf).1.result = .ok b ∧
    (x i.shelf).2 = left.shelf ∧ (x' i'.shelf).2 = left'.shelf ∧
    Apace terms touched needed i i' left left' ∧ related left a left' b

variable {terms : Terms} {touched touched' : Lender → Prop} {needed : Resource → Prop}
  {i i' : Inventory}

theorem Together.mono {related related' : Inventory → α → Inventory → β → Prop} {x : Drafting α}
    {x' : Drafting β} (h : Together terms touched needed related i x i' x')
    (weaker : ∀ left a left' b, related left a left' b → related' left a left' b) :
    Together terms touched needed related' i x i' x' := by
  intro a result
  obtain ⟨b, left, left', result', here, there, apace, same⟩ := h a result
  exact ⟨b, left, left', result', here, there, apace, weaker _ _ _ _ same⟩

/-- Sections of more lenders may be made. -/
theorem Together.widen {related : Inventory → α → Inventory → β → Prop} {x : Drafting α}
    {x' : Drafting β} (h : Together terms touched needed related i x i' x')
    (more : ∀ lender, touched lender → touched' lender) :
    Together terms touched' needed related i x i' x' := by
  intro a result
  obtain ⟨b, left, left', result', here, there, apace, same⟩ := h a result
  exact ⟨b, left, left', result', here, there, apace.mono more, same⟩

theorem Together.bind {related : Inventory → α → Inventory → β → Prop}
    {related' : Inventory → γ → Inventory → δ → Prop} {x : Drafting α} {x' : Drafting β}
    {f : α → Drafting γ} {f' : β → Drafting δ} (hx : Together terms touched needed related i x i' x')
    (more : ∀ lender, touched lender → touched' lender)
    (hf : ∀ left a left' b, Apace terms touched needed i i' left left' → related left a left' b →
      Together terms touched' needed related' left (f a) left' (f' b)) :
    Together terms touched' needed related' i (x >>= f) i' (x' >>= f') := by
  intro c whole
  obtain ⟨a, result, rest⟩ := result_bind_eq_ok.mp whole
  obtain ⟨b, left, left', result', here, there, apace, same⟩ := hx a result
  rw [here] at rest
  obtain ⟨d, last, last', done, after, after', further, same⟩ :=
    hf left a left' b apace same c rest
  rw [bind_of_result result, bind_of_result result', here, there]
  exact ⟨d, last, last', done, after, after', (apace.mono more).trans further, same⟩

/-- A result that is there on both sides. -/
theorem together_pure {related : Inventory → α → Inventory → β → Prop} {a : α} {b : β}
    (alike : Alike terms needed i i') (h : related i a i' b) :
    Together terms touched needed related i (Pure.pure a) i' (Pure.pure b) := by
  rintro _ ⟨⟩
  exact ⟨b, i, i', rfl, rfl, rfl, .refl alike, h⟩

/-- What is read off a manifest is read alike, and leaves the shelves alone. -/
theorem together_read {related : Inventory → γ → Inventory → δ → Prop} (x : Except Fault α)
    {f : α → Drafting γ} {f' : α → Drafting δ}
    (hf : ∀ a, x = .ok a → Together terms touched needed related i (f a) i' (f' a)) :
    Together terms touched needed related i (liftM x >>= f) i' (liftM x >>= f') := by
  cases x with
  | error fault => rintro _ ⟨⟩
  | ok a => exact hf a rfl

/-- Looking at the shelves changes nothing. -/
theorem together_shelf {related : Inventory → γ → Inventory → δ → Prop} {f : Shelf → Drafting γ}
    {f' : Shelf → Drafting δ}
    (h : Together terms touched needed related i (f i.shelf) i' (f' i'.shelf)) :
    Together terms touched needed related i (Drafting.shelf >>= f) i' (Drafting.shelf >>= f') := h

/-- Reports change nothing. -/
theorem together_report {related : Inventory → γ → Inventory → δ → Prop} (o o' : Occurrence)
    {x : Drafting γ} {x' : Drafting δ} (h : Together terms touched needed related i x i' x') :
    Together terms touched needed related i
      ((liftM (Traced.report o) : Drafting Unit) >>= fun _ => x) i'
      ((liftM (Traced.report o') : Drafting Unit) >>= fun _ => x') := h

/-- Work on the shelves. -/
theorem together_run {related : Inventory → α → Inventory → β → Prop} {x : OnShelf α}
    {x' : OnShelf β} {a : α} {b : β} {left left' : Inventory}
    (run : x.run i.shelf = (a, left.shelf)) (run' : x'.run i'.shelf = (b, left'.shelf))
    (apace : Apace terms touched needed i i' left left') (h : related left a left' b) :
    Together terms touched needed related i (liftM x : Drafting α) i' (liftM x' : Drafting β) := by
  have here : (liftM x : Drafting α) i.shelf = (Traced.pure a, left.shelf) := by
    change (Traced.pure (x.run i.shelf).1, (x.run i.shelf).2) = _
    rw [run]
  have there : (liftM x' : Drafting β) i'.shelf = (Traced.pure b, left'.shelf) := by
    change (Traced.pure (x'.run i'.shelf).1, (x'.run i'.shelf).2) = _
    rw [run']
  intro a' result
  rw [here] at result
  cases result
  exact ⟨b, left, left', by rw [there]; rfl, by rw [here], by rw [there], apace, h⟩

/-- Steps that leave the shelves alone. -/
theorem together_quiet {related : Inventory → α → Inventory → β → Prop} {x : Drafting α}
    {x' : Drafting β} {outcome : Except Fault α} {outcome' : Except Fault β}
    (quiet : Quiet i.shelf x outcome) (quiet' : Quiet i'.shelf x' outcome')
    (alike : Alike terms needed i i')
    (h : ∀ a, outcome = .ok a → ∃ b, outcome' = .ok b ∧ related i a i' b) :
    Together terms touched needed related i x i' x' := by
  rw [Quiet] at quiet quiet'
  intro a result
  rw [quiet] at result
  obtain ⟨b, same, relates⟩ := h a result
  exact ⟨b, i, i', by rw [quiet']; exact same, by rw [quiet], by rw [quiet'], .refl alike, relates⟩

/-- A computation ends alike in all inventories that are alike. -/
def Steady (terms : Terms) (touched : Lender → Prop) (needed : Resource → Prop)
    (related : Inventory → α → Inventory → α → Prop) (x : Drafting α) : Prop :=
  ∀ ⦃i i' : Inventory⦄, Alike terms needed i i' → Together terms touched needed related i x i' x

theorem Steady.widen {related : Inventory → α → Inventory → α → Prop} {x : Drafting α}
    (h : x.Steady terms touched needed related)
    (more : ∀ lender, touched lender → touched' lender) : x.Steady terms touched' needed related :=
  fun _ _ alike => (h alike).widen more

theorem Steady.mono {related related' : Inventory → α → Inventory → α → Prop} {x : Drafting α}
    (h : x.Steady terms touched needed related)
    (weaker : ∀ left a left' b, related left a left' b → related' left a left' b) :
    x.Steady terms touched needed related' :=
  fun _ _ alike => (h alike).mono weaker

end ClusterMetadata.Drafting
