import ClusterMetadata.Proofs.Ensures

/-!
# How a computation ends

* `Drafting.Ends`: from one shelf a computation leaves a good one, whether it has a result or not;
  a result has a property there, and a fault is one that can be accounted for;
* `Ends.bind`, `ends_foldlM`: one step after the other;
* `ends_read`, `ends_lift`: single steps.
-/
namespace ClusterMetadata.Drafting

variable {α β : Type}

/-- From a shelf, a computation leaves a good one, with a result or a fault that it may have. -/
structure Ends (good : Shelf → Prop) (may : Fault → Prop) (shelf : Shelf) (x : Drafting α)
    (post : Shelf → α → Prop) : Prop where
  leaves : good (x shelf).2
  result : ∀ a, (x shelf).1.result = .ok a → post (x shelf).2 a
  fault : ∀ fault, (x shelf).1.result = .error fault → may fault

variable {good : Shelf → Prop} {may may' : Fault → Prop} {shelf : Shelf}

theorem ends_pure (h : good shelf) {a : α} {post : Shelf → α → Prop} (made : post shelf a) :
    Ends good may shelf (Pure.pure a) post :=
  ⟨h, by rintro _ ⟨⟩; exact made, nofun⟩

theorem ends_fail (h : good shelf) {fault : Fault} (known : may fault) {post : Shelf → α → Prop} :
    Ends good may shelf (fail fault) post :=
  ⟨h, nofun, by rintro _ ⟨⟩; exact known⟩

theorem Ends.mono {x : Drafting α} {post post' : Shelf → α → Prop}
    (h : Ends good may shelf x post) (more : ∀ fault, may fault → may' fault)
    (weaker : ∀ left a, good left → post left a → post' left a) :
    Ends good may' shelf x post' :=
  ⟨h.leaves, fun a made => weaker _ a h.leaves (h.result a made),
    fun fault raised => more fault (h.fault fault raised)⟩

theorem Ends.bind {x : Drafting α} {f : α → Drafting β} {post : Shelf → α → Prop}
    {post' : Shelf → β → Prop} (hx : Ends good may shelf x post)
    (hf : ∀ left a, good left → post left a → Ends good may left (f a) post') :
    Ends good may shelf (x >>= f) post' := by
  obtain ⟨leaves, result, fault⟩ := hx
  cases here : (x shelf).1.result with
  | ok a =>
    obtain ⟨leaves, result, fault⟩ := hf _ a leaves (result a here)
    refine ⟨?_, ?_, ?_⟩
    · rw [bind_of_result here]
      exact leaves
    · rw [bind_of_result here]
      exact result
    · rw [bind_of_result here]
      exact fault
  | error raised =>
    have whole : ((x >>= f) shelf).1.result = .error raised ∧ ((x >>= f) shelf).2 = (x shelf).2 := by
      rw [bind_apply]
      revert here
      rcases x shelf with ⟨⟨result, trace⟩, left⟩
      rintro ⟨⟩
      exact ⟨rfl, rfl⟩
    refine ⟨whole.2 ▸ leaves, fun b made => ?_, fun other same => ?_⟩
    · rw [whole.1] at made
      cases made
    · rw [whole.1] at same
      cases same
      exact fault _ here

theorem ends_foldlM (inv : Shelf → α → Prop) {items : List β} {step : α → β → Drafting α}
    (keeps : ∀ left a item, item ∈ items → good left → inv left a →
      Ends good may left (step a item) inv) (h : good shelf) {start : α} (made : inv shelf start) :
    Ends good may shelf (items.foldlM step start) inv := by
  induction items generalizing shelf start with
  | nil => exact ends_pure h made
  | cons item rest ih =>
    rw [List.foldlM_cons]
    refine (keeps shelf start item List.mem_cons_self h made).bind fun left a h made => ?_
    exact ih (fun left a item mem => keeps left a item (List.mem_cons_of_mem _ mem)) h made

/-- What is read leaves the shelf alone. -/
theorem ends_read {x : Except Fault α} {f : α → Drafting β} {post : Shelf → β → Prop}
    (h : good shelf) (known : ∀ fault, x = .error fault → may fault)
    (hf : ∀ a, x = .ok a → Ends good may shelf (f a) post) :
    Ends good may shelf (liftM x >>= f) post := by
  cases x with
  | error fault => exact ⟨h, nofun, by rintro _ ⟨⟩; exact known _ rfl⟩
  | ok a => exact hf a rfl

theorem ends_shelf {f : Shelf → Drafting β} {post : Shelf → β → Prop}
    (h : Ends good may shelf (f shelf) post) :
    Ends good may shelf (Drafting.shelf >>= f) post := ⟨h.leaves, h.result, h.fault⟩

theorem ends_report (o : Occurrence) {x : Drafting β} {post : Shelf → β → Prop}
    (h : Ends good may shelf x post) :
    Ends good may shelf ((liftM (Traced.report o) : Drafting Unit) >>= fun _ => x) post :=
  ⟨h.leaves, h.result, h.fault⟩

/-- Work on the shelf has no faults. -/
theorem ends_lift {x : OnShelf α} {a : α} {left : Shelf} (run : x.run shelf = (a, left))
    (h : good left) {post : Shelf → α → Prop} (made : post left a) :
    Ends good may shelf (liftM x : Drafting α) post := by
  have here : (liftM x : Drafting α) shelf = (Traced.pure a, left) := by
    change (Traced.pure (x.run shelf).1, (x.run shelf).2) = _
    rw [run]
  refine ⟨by rw [here]; exact h, fun b same => ?_, fun fault same => ?_⟩
  · rw [here] at same ⊢
    cases same
    exact made
  · rw [here] at same
    cases same

end ClusterMetadata.Drafting
