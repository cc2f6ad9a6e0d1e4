import ClusterMetadata.Fault
import ClusterMetadata.Occurrence

/-! Computations that may fail and that report what happened.

The trace is kept when a later step fails, and it does not depend on anything reported before: a
step's part of the trace is the same wherever the step stands. -/
namespace ClusterMetadata

/-- A result or a fault, with what happened until then. -/
structure Traced (α : Type) where
  result : Except Fault α
  trace : List Occurrence

namespace Traced

variable {α β : Type}

def pure (a : α) : Traced α := ⟨.ok a, []⟩

/-- Goes on with a result; after a fault nothing more happens. -/
def bind (x : Traced α) (f : α → Traced β) : Traced β :=
  match x.result with
  | .error fault => ⟨.error fault, x.trace⟩
  | .ok a => ⟨(f a).result, x.trace ++ (f a).trace⟩

instance : Monad Traced where
  pure := pure
  bind := bind

def ofExcept (x : Except Fault α) : Traced α := ⟨x, []⟩

instance : MonadLift (Except Fault) Traced where
  monadLift := ofExcept

def report (occurrence : Occurrence) : Traced Unit := ⟨.ok (), [occurrence]⟩

theorem bind_of_result {x : Traced α} {a : α} (h : x.result = .ok a) (f : α → Traced β) :
    x >>= f = ⟨(f a).result, x.trace ++ (f a).trace⟩ := by
  obtain ⟨result, trace⟩ := x
  cases h
  rfl

/-- A computation in two parts has a result when both parts have one. -/
theorem result_bind_eq_ok {x : Traced α} {f : α → Traced β} {b : β} :
    (x >>= f).result = .ok b ↔ ∃ a, x.result = .ok a ∧ (f a).result = .ok b := by
  obtain ⟨result, trace⟩ := x
  cases result <;> simp [Bind.bind, bind]

/-- What happens in two parts happens in one of them. -/
theorem mem_trace_bind {x : Traced α} {f : α → Traced β} {o : Occurrence}
    (h : o ∈ (x >>= f).trace) : o ∈ x.trace ∨ ∃ a, x.result = .ok a ∧ o ∈ (f a).trace := by
  obtain ⟨result, trace⟩ := x
  cases result with
  | error fault => exact .inl h
  | ok a => exact (List.mem_append.mp h).imp_right fun later => ⟨a, rfl, later⟩

theorem map_id (x : Traced α) : id <$> x = x := by
  obtain ⟨result, trace⟩ := x
  cases result <;> simp [Functor.map, bind, pure]

theorem pure_bind (a : α) (f : α → Traced β) : bind (pure a) f = f a := by simp [bind, pure]

theorem bind_assoc {γ : Type} (x : Traced α) (f : α → Traced β) (g : β → Traced γ) :
    bind (bind x f) g = bind x fun a => bind (f a) g := by
  obtain ⟨result, trace⟩ := x
  cases result with
  | error fault => rfl
  | ok a =>
    simp only [bind]
    cases (f a).result <;> simp

instance : LawfulMonad Traced := LawfulMonad.mk' _ map_id pure_bind bind_assoc

end Traced

end ClusterMetadata
