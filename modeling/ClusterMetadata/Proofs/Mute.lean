import ClusterMetadata.Proofs.NativeDraft
import ClusterMetadata.Generator.Basic

/-!
# Computations that report nothing

Drafts are read, written and merged without a word; only peers that are asked and hops that are
taken report something.

* `Drafting.Mute`: a computation reports nothing, wherever it starts;
* `mute_merge`, `mute_native`: merging drafts and making native ones.
-/
namespace ClusterMetadata

namespace Drafting

variable {α β : Type}

def Mute (x : Drafting α) : Prop := ∀ shelf, (x shelf).1.trace = []

theorem Mute.bind {x : Drafting α} {f : α → Drafting β} (hx : Mute x) (hf : ∀ a, Mute (f a)) :
    Mute (x >>= f) := by
  intro shelf
  have first := hx shelf
  rw [bind_apply]
  revert first
  rcases x shelf with ⟨⟨result, trace⟩, left⟩
  rintro rfl
  cases result with
  | error fault => rfl
  | ok a => exact hf a left

theorem mute_pure (a : α) : Mute (Pure.pure a) := fun _ => rfl

theorem mute_fail (fault : Fault) : Mute (fail fault : Drafting α) := fun _ => rfl

theorem mute_shelf : Mute Drafting.shelf := fun _ => rfl

theorem mute_except (x : Except Fault α) : Mute (liftM x : Drafting α) := fun _ => rfl

theorem mute_onShelf (x : OnShelf α) : Mute (liftM x : Drafting α) := fun _ => rfl

theorem mute_foldlM {items : List β} {step : α → β → Drafting α}
    (mute : ∀ a item, Mute (step a item)) (start : α) : Mute (items.foldlM step start) := by
  induction items generalizing start with
  | nil => exact mute_pure start
  | cons item rest ih =>
    rw [List.foldlM_cons]
    exact (mute start item).bind ih

/-- What reports nothing leads to the results it ensures. -/
theorem Mute.leads {x : Drafting α} (h : Mute x) {post : α → Prop} (hx : Ensures x post)
    (shelf : Shelf) : Leads shelf x fun a trace _ => post a ∧ trace = [] :=
  fun a ha => ⟨hx shelf a ha, h shelf⟩

end Drafting

open Drafting (Mute mute_pure mute_fail mute_shelf mute_except mute_onShelf mute_foldlM)

namespace Draft

theorem mute_visit {α : Type} (source : Map) {step : α → Text → Node → Drafting α}
    (mute : ∀ a name node, Mute (step a name node)) (start : α) :
    Mute (source.visit step start) := by
  have sized (m : SharedMap) (size : Nat) : Mute (Map.fieldsOfSize m size) := by
    apply mute_shelf.bind
    intro shelf
    dsimp only
    split
    · exact mute_pure _
    · exact mute_fail _
  cases source with
  | own fields =>
    have field (a : α) (field : Text × Node) : Mute (step a field.1 field.2) := mute a _ _
    exact mute_foldlM field start
  | shared m =>
    apply mute_shelf.bind
    intro shelf
    refine (mute_foldlM (fun a i => ?_) start).bind fun last => ?_
    · apply (sized m _).bind
      intro fields
      split
      · exact mute a _ _
      · exact mute_pure a
    · exact (sized m _).bind fun _ => mute_pure last

theorem mute_mergeTo (room : Nat) (target source : Map) :
    Mute (Map.mergeTo room target source) := by
  induction room generalizing target source with
  | zero => exact mute_fail _
  | succ room ih =>
    unfold Map.mergeTo
    refine mute_visit source (fun target name node => ?_) target
    split
    · split
      · exact mute_onShelf _
      · exact mute_fail _
    · exact mute_pure target
    · apply mute_shelf.bind
      intro shelf
      split
      · exact (ih _ _).bind fun _ => mute_pure target
      · exact (ih _ _).bind fun _ => mute_onShelf _
      · exact (ih _ _).bind fun _ => mute_onShelf _

theorem mute_merge (d other : Draft) : Mute (d.merge other) := by
  apply (mute_mergeTo _ _ _).bind
  intro map
  cases map with
  | own fields => exact mute_pure fields
  | shared m => exact mute_pure d

end Draft

namespace Projector

theorem mute_sectionOf (p : Projector) (r : Resource) (map : MetadataMap) :
    (p.sectionOf r map).Mute := by
  apply (mute_except _).bind
  intro entries
  exact (mute_except _).bind fun chosen => mute_onShelf _

theorem mute_native (p : Projector) (field : Text) (r : Resource)
    (options : List FieldOption) : (p.native field r options).Mute := by
  rw [native_eq]
  apply (p.mute_sectionOf r .labels).bind
  intro labels
  apply (p.mute_sectionOf r .annotations).bind
  intro annotations
  apply (mute_except _).bind
  intro name
  apply (mute_except _).bind
  intro uid
  apply (mute_except _).bind
  intro space
  exact (mute_except _).bind fun refs => mute_onShelf _

end Projector

end ClusterMetadata
