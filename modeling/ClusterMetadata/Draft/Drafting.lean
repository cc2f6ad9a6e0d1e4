import ClusterMetadata.Draft.Basic
import ClusterMetadata.Traced

/-! Computations that make drafts: they may fail, report what happened, and share a shelf.

What was written into shared maps before a fault stays written. -/
namespace ClusterMetadata

/-- A computation on a shelf, with its result, what happened, and the shelf it leaves. -/
def Drafting (α : Type) := Shelf → Traced α × Shelf

namespace Drafting

variable {α β : Type}

def pure (a : α) : Drafting α := fun shelf => (Traced.pure a, shelf)

/-- Goes on with a result and the shelf; after a fault nothing more happens. -/
def bind (x : Drafting α) (f : α → Drafting β) : Drafting β := fun shelf =>
  match x shelf with
  | (⟨.error fault, trace⟩, shelf) => (⟨.error fault, trace⟩, shelf)
  | (⟨.ok a, trace⟩, shelf) =>
    let (next, shelf) := f a shelf
    (⟨next.result, trace ++ next.trace⟩, shelf)

instance : Monad Drafting where
  pure := pure
  bind := bind

def ofTraced (x : Traced α) : Drafting α := fun shelf => (x, shelf)

/-- A computation that neither fails nor reports. -/
def ofShelf (x : OnShelf α) : Drafting α := fun shelf =>
  let (a, shelf) := x.run shelf
  (Traced.pure a, shelf)

instance : MonadLift Traced Drafting where
  monadLift := ofTraced

instance : MonadLift (StateM Shelf) Drafting where
  monadLift := ofShelf

def shelf : Drafting Shelf := fun shelf => (Traced.pure shelf, shelf)

def fail (fault : Fault) : Drafting α := ofTraced (.ofExcept (.error fault))

/-- What a computation does when no map was shared before it. -/
def fromStart (x : Drafting α) : Traced α := (x {}).1

theorem map_id (x : Drafting α) : id <$> x = x := by
  funext shelf
  simp only [Functor.map, bind]
  rcases x shelf with ⟨⟨result, trace⟩, left⟩
  cases result <;> simp [pure, Traced.pure]

theorem pure_bind (a : α) (f : α → Drafting β) : bind (pure a) f = f a := by
  funext shelf
  simp [bind, pure, Traced.pure]

theorem bind_assoc {γ : Type} (x : Drafting α) (f : α → Drafting β) (g : β → Drafting γ) :
    bind (bind x f) g = bind x fun a => bind (f a) g := by
  funext shelf
  simp only [bind]
  rcases x shelf with ⟨⟨result, trace⟩, left⟩
  cases result with
  | error fault => rfl
  | ok a =>
    dsimp only
    rcases f a left with ⟨⟨result, trace⟩, left⟩
    cases result <;> simp

instance : LawfulMonad Drafting := LawfulMonad.mk' _ map_id pure_bind bind_assoc

end Drafting

def Draft.document (d : Draft) : Drafting Document := do
  match d.shown (← Drafting.shelf) with
  | some document => return document
  | none => Drafting.fail .circular

end ClusterMetadata
