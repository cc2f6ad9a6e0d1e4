import ClusterMetadata.Draft.Drafting

/-!
# What every result has

* `Drafting.Ensures`: whatever shelf a computation starts on, a result it has satisfies a property;
* `Ensures.bind`, `ensures_foldlM`: one step after the other;
* `bind_congr_of_ensures`: two ways to go on are one when they agree on the results there are;
* `Drafting.Leads`: from one shelf, a result comes with a report and a shelf that satisfy a property.
-/
namespace ClusterMetadata.Drafting

variable {α β : Type}

/-- Every result of a computation has a property, whatever is shared before it. -/
def Ensures (x : Drafting α) (post : α → Prop) : Prop :=
  ∀ shelf a, (x shelf).1.result = .ok a → post a

theorem bind_apply (x : Drafting α) (f : α → Drafting β) (shelf : Shelf) :
    (x >>= f) shelf = match x shelf with
      | (⟨.error fault, trace⟩, shelf) => (⟨.error fault, trace⟩, shelf)
      | (⟨.ok a, trace⟩, shelf) =>
        (⟨(f a shelf).1.result, trace ++ (f a shelf).1.trace⟩, (f a shelf).2) := rfl

theorem bind_of_result {x : Drafting α} {shelf : Shelf} {a : α} (h : (x shelf).1.result = .ok a)
    (f : α → Drafting β) :
    (x >>= f) shelf = (⟨(f a (x shelf).2).1.result,
      (x shelf).1.trace ++ (f a (x shelf).2).1.trace⟩, (f a (x shelf).2).2) := by
  rw [bind_apply]
  revert h
  rcases x shelf with ⟨⟨result, trace⟩, left⟩
  intro h
  cases h
  rfl

/-- A computation in two parts has a result when both parts have one. -/
theorem result_bind_eq_ok {x : Drafting α} {f : α → Drafting β} {shelf : Shelf} {b : β} :
    ((x >>= f) shelf).1.result = .ok b ↔
      ∃ a, (x shelf).1.result = .ok a ∧ (f a (x shelf).2).1.result = .ok b := by
  rw [bind_apply]
  rcases x shelf with ⟨⟨result, trace⟩, left⟩
  cases result <;> simp

theorem exists_result_bind {x : Drafting α} {f : α → Drafting β}
    {shelf : Shelf} {a : α} (first : (x shelf).1.result = .ok a)
    (rest : ∃ b, (f a (x shelf).2).1.result = .ok b) : ∃ b, ((x >>= f) shelf).1.result = .ok b :=
  rest.imp fun _ rest => result_bind_eq_ok.mpr ⟨a, first, rest⟩

/-- A first part that leaves the shelf alone is followed by a fresh start. -/
theorem fromStart_bind_lift (x : Traced α) (f : α → Drafting β) :
    ((liftM x : Drafting α) >>= f).fromStart = x >>= fun a => (f a).fromStart := by
  obtain ⟨result, trace⟩ := x
  cases result <;> rfl

theorem ensures_pure {a : α} {post : α → Prop} (h : post a) : Ensures (Pure.pure a) post := by
  intro shelf b hb
  cases hb
  exact h

theorem Ensures.bind {x : Drafting α} {f : α → Drafting β} {post : α → Prop} {post' : β → Prop}
    (hx : Ensures x post) (hf : ∀ a, post a → Ensures (f a) post') : Ensures (x >>= f) post' := by
  intro shelf b hb
  obtain ⟨a, ha, hb⟩ := result_bind_eq_ok.mp hb
  exact hf a (hx shelf a ha) _ b hb

theorem Ensures.mono {x : Drafting α} {post post' : α → Prop} (hx : Ensures x post)
    (weaker : ∀ a, post a → post' a) : Ensures x post' :=
  fun shelf a ha => weaker a (hx shelf a ha)

theorem ensures_true (x : Drafting α) : Ensures x fun _ => True := fun _ _ _ => trivial

theorem ensures_fail {fault : Fault} {post : α → Prop} : Ensures (fail fault) post := by
  intro shelf a ha
  cases ha

/-- A computation that leaves the shelf alone has the results it has. -/
theorem ensures_lift (x : Traced α) :
    Ensures (liftM x : Drafting α) fun a => x.result = .ok a :=
  fun _ _ ha => ha

theorem ensures_lift_except (x : Except Fault α) :
    Ensures (liftM x : Drafting α) fun a => x = .ok a :=
  fun _ _ ha => ha

/-- A computation that only works on the shelf has a result on every shelf. -/
theorem ensures_lift_shelf (x : OnShelf α) {post : α → Prop} (h : ∀ shelf, post (x.run shelf).1) :
    Ensures (liftM x : Drafting α) post := by
  intro shelf a ha
  have result : (x.run shelf).1 = a := Except.ok.inj ha
  exact result ▸ h shelf

/-- What every step of a loop keeps, the loop keeps. -/
theorem ensures_foldlM {items : List β} {step : α → β → Drafting α} {inv : α → Prop}
    (keeps : ∀ a, inv a → ∀ item ∈ items, Ensures (step a item) inv) {start : α}
    (h : inv start) : Ensures (items.foldlM step start) inv := by
  induction items generalizing start with
  | nil => exact ensures_pure h
  | cons item rest ih =>
    rw [List.foldlM_cons]
    refine (keeps start h item List.mem_cons_self).bind fun a ha => ?_
    exact ih (fun a ha item mem => keeps a ha item (List.mem_cons_of_mem _ mem)) ha

/-- A loop that makes a list makes one item of each. -/
theorem ensures_length_mapM (items : List β) (step : β → Drafting α) :
    Ensures (items.mapM step) (·.length = items.length) := by
  induction items with
  | nil => exact ensures_pure rfl
  | cons item rest ih =>
    rw [List.mapM_cons]
    refine (ensures_true _).bind fun a _ => ih.bind fun others same => ensures_pure ?_
    rw [List.length_cons, List.length_cons, same]

/-- From a shelf, a result of a computation comes with a report and a shelf that have a property. -/
def Leads (shelf : Shelf) (x : Drafting α) (post : α → List Occurrence → Shelf → Prop) : Prop :=
  ∀ a, (x shelf).1.result = .ok a → post a (x shelf).1.trace (x shelf).2

theorem leads_pure {shelf : Shelf} {a : α} {post : α → List Occurrence → Shelf → Prop}
    (h : post a [] shelf) : Leads shelf (Pure.pure a) post := by
  rintro _ ⟨⟩
  exact h

theorem Leads.mono {shelf : Shelf} {x : Drafting α} {post post' : α → List Occurrence → Shelf → Prop}
    (hx : Leads shelf x post) (weaker : ∀ a trace left, post a trace left → post' a trace left) :
    Leads shelf x post' :=
  fun a ha => weaker a _ _ (hx a ha)

/-- What is reported later comes after what was reported before. -/
theorem Leads.bind {shelf : Shelf} {x : Drafting α} {f : α → Drafting β}
    {post : α → List Occurrence → Shelf → Prop} {post' : β → List Occurrence → Shelf → Prop}
    (hx : Leads shelf x post)
    (hf : ∀ a trace left, post a trace left →
      Leads left (f a) fun b later last => post' b (trace ++ later) last) :
    Leads shelf (x >>= f) post' := by
  intro b hb
  obtain ⟨a, ha, hb⟩ := result_bind_eq_ok.mp hb
  rw [bind_of_result ha]
  exact hf a _ _ (hx a ha) b hb

theorem leads_self (shelf : Shelf) (x : Drafting α) :
    Leads shelf x fun a trace left => x shelf = (⟨.ok a, trace⟩, left) := by
  intro a ha
  rw [← ha]

/-- Two ways to go on give one computation when they agree on every result there is. -/
theorem bind_congr_of_ensures {x : Drafting α} {f g : α → Drafting β} {post : α → Prop}
    (hx : Ensures x post) (same : ∀ a, post a → f a = g a) : x >>= f = x >>= g := by
  funext shelf
  rw [bind_apply, bind_apply]
  rcases h : x shelf with ⟨⟨result, trace⟩, left⟩
  cases result with
  | error fault => rfl
  | ok a => simp only [same a (hx shelf a (by rw [h]))]

end ClusterMetadata.Drafting
