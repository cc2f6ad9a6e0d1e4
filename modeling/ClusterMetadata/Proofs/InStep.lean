import ClusterMetadata.Proofs.Ensures

/-!
# Two computations that go in step

Two computations that do the same to the shelf and report the same, and differ only in what they
hold in hand. They fail together and with one fault.

* `Drafting.InStep`: from every shelf two computations end alike, with related results;
* `InStep.bind`, `inStep_foldlM`: one step after the other;
* `InStep.after`: what is done alike on both sides;
* `inStep_lift_shelf`: work on the shelf.
-/
namespace ClusterMetadata.Drafting

variable {α β γ δ : Type}

/-- Two runs that reported the same and left the same shelf, with one fault or related results. -/
inductive Alongside (related : α → β → Prop) : Traced α × Shelf → Traced β × Shelf → Prop where
  | fault (fault : Fault) (trace : List Occurrence) (left : Shelf) :
    Alongside related (⟨.error fault, trace⟩, left) (⟨.error fault, trace⟩, left)
  | results {a : α} {b : β} (trace : List Occurrence) (left : Shelf) (h : related a b) :
    Alongside related (⟨.ok a, trace⟩, left) (⟨.ok b, trace⟩, left)

/-- From every shelf two computations end alike. -/
def InStep (related : α → β → Prop) (x : Drafting α) (x' : Drafting β) : Prop :=
  ∀ shelf, Alongside related (x shelf) (x' shelf)

variable {related : α → β → Prop} {related' : γ → δ → Prop}

theorem inStep_pure {a : α} {b : β} (h : related a b) :
    InStep related (Pure.pure a) (Pure.pure b) :=
  fun shelf => .results [] shelf h

theorem inStep_fail (fault : Fault) : InStep related (fail fault) (fail fault) :=
  fun shelf => .fault fault [] shelf

theorem InStep.mono {weaker : α → β → Prop} {x : Drafting α} {x' : Drafting β}
    (hx : InStep related x x') (h : ∀ a b, related a b → weaker a b) : InStep weaker x x' := by
  intro shelf
  have ended := hx shelf
  generalize x shelf = run, x' shelf = run' at ended
  cases ended with
  | fault fault trace left => exact .fault fault trace left
  | results trace left same => exact .results trace left (h _ _ same)

theorem InStep.bind {x : Drafting α} {x' : Drafting β} {f : α → Drafting γ} {f' : β → Drafting δ}
    (hx : InStep related x x') (hf : ∀ a b, related a b → InStep related' (f a) (f' b)) :
    InStep related' (x >>= f) (x' >>= f') := by
  intro shelf
  have ended := hx shelf
  rw [bind_apply, bind_apply]
  generalize x shelf = run, x' shelf = run' at ended
  cases ended with
  | fault fault trace left => exact .fault fault trace left
  | results trace left same =>
    have ended := hf _ _ same left
    dsimp only
    generalize f _ left = run, f' _ left = run' at ended
    cases ended with
    | fault fault later last => exact .fault fault (trace ++ later) last
    | results later last same => exact .results (trace ++ later) last same

/-- What is done alike on both sides, and has a property. -/
theorem InStep.after {x : Drafting α} {post : α → Prop} (hx : x.Ensures post)
    {f : α → Drafting γ} {f' : α → Drafting δ}
    (hf : ∀ a, post a → InStep related' (f a) (f' a)) : InStep related' (x >>= f) (x >>= f') := by
  have same : InStep (fun a b => a = b ∧ post a) x x := by
    intro shelf
    rcases h : x shelf with ⟨⟨result, trace⟩, left⟩
    cases result with
    | error fault => exact .fault fault trace left
    | ok a =>
      have holds : post a := hx shelf a (by rw [h])
      exact .results trace left ⟨rfl, holds⟩
  apply same.bind
  rintro a _ ⟨rfl, holds⟩
  exact hf a holds

theorem inStep_foldlM {items : List γ} {step : α → γ → Drafting α} {step' : β → γ → Drafting β}
    (keeps : ∀ a b, related a b → ∀ item ∈ items, InStep related (step a item) (step' b item))
    {start : α} {start' : β} (h : related start start') :
    InStep related (items.foldlM step start) (items.foldlM step' start') := by
  induction items generalizing start start' with
  | nil => exact inStep_pure h
  | cons item rest ih =>
    rw [List.foldlM_cons, List.foldlM_cons]
    apply (keeps start start' h item List.mem_cons_self).bind
    intro a b same
    exact ih (fun a b same item mem => keeps a b same item (List.mem_cons_of_mem _ mem)) same

/-- Work on the shelf that leaves it alike. -/
theorem inStep_lift_shelf {x : OnShelf α} {x' : OnShelf β}
    (h : ∀ shelf, related (x.run shelf).1 (x'.run shelf).1 ∧
      (x.run shelf).2 = (x'.run shelf).2) :
    InStep related (liftM x : Drafting α) (liftM x' : Drafting β) := by
  intro shelf
  obtain ⟨same, left⟩ := h shelf
  change Alongside related (Traced.pure (x.run shelf).1, (x.run shelf).2)
    (Traced.pure (x'.run shelf).1, (x'.run shelf).2)
  rw [left]
  exact .results [] _ same

end ClusterMetadata.Drafting
