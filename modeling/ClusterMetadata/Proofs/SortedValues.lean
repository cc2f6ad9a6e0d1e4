import ClusterMetadata.Json.Writer
import ClusterMetadata.Proofs.ProperValues

/-!
# Values that are the same but for the order of keys

Two values have one sorted form when they differ in the order of the keys of their objects at most.

* `sortFields_congr`: tables that are read alike are sorted alike;
* `sorted_object_iff`: two objects have one sorted form when their fields have.
-/
namespace ClusterMetadata

open Json (Value Fields)

namespace Table

variable {κ ν : Type} [DecidableEq κ]

theorem mem_iff_get? {t : Table κ ν} (distinct : Distinct t) (entry : κ × ν) :
    entry ∈ t ↔ get? t entry.1 = some entry.2 :=
  ⟨get?_of_mem distinct, mem_of_get?⟩

/-- Tables that are read alike have the same entries. -/
theorem perm_of_get? {t t' : Table κ ν} (distinct : Distinct t) (distinct' : Distinct t')
    (same : ∀ key, get? t key = get? t' key) : t.Perm t' := by
  have once {t : Table κ ν} (distinct : Distinct t) : t.Nodup :=
    (List.pairwise_map.mp distinct).imp fun apart same => apart (congrArg Prod.fst same)
  refine (List.perm_ext_iff_of_nodup (once distinct) (once distinct')).mpr fun entry => ?_
  rw [mem_iff_get? distinct, mem_iff_get? distinct', same]

theorem get?_of_perm {t t' : Table κ ν} (perm : t.Perm t') (distinct : Distinct t) (key : κ) :
    get? t key = get? t' key := by
  have distinct' : Distinct t' := (perm.map Prod.fst).nodup_iff.mp distinct
  refine Option.ext fun value => ?_
  rw [← mem_iff_get? distinct (key, value), ← mem_iff_get? distinct' (key, value), perm.mem_iff]

end Table

namespace Json

theorem sortFields_perm (fields : Fields) : (sortFields fields).Perm fields :=
  List.mergeSort_perm fields _

theorem pairwise_sortFields (fields : Fields) :
    (sortFields fields).Pairwise fun a b => a.1.le b.1 :=
  @List.pairwise_mergeSort (Text × Value) (fun a b => a.1.le b.1)
    (fun _ _ _ h k => Text.le_trans h k) (fun a b => Text.le_total a.1 b.1) fields

theorem get?_sortFields {fields : Fields} (distinct : Table.Distinct fields) (key : Text) :
    Table.get? (sortFields fields) key = Table.get? fields key :=
  (Table.get?_of_perm (sortFields_perm fields).symm distinct key).symm

/-- Tables that are read alike are sorted alike. -/
theorem sortFields_congr {fields fields' : Fields} (distinct : Table.Distinct fields)
    (distinct' : Table.Distinct fields')
    (same : ∀ key, Table.get? fields key = Table.get? fields' key) :
    sortFields fields = sortFields fields' := by
  have perm := Table.perm_of_get? distinct distinct' same
  have whole : (sortFields fields).Perm (sortFields fields') :=
    (sortFields_perm fields).trans (perm.trans (sortFields_perm fields').symm)
  refine whole.eq_of_pairwise (fun a b mem mem' h k => ?_) (pairwise_sortFields fields)
    (pairwise_sortFields fields')
  -- Of one key there is one entry.
  have here := (Table.mem_iff_get? distinct a).mp ((sortFields_perm fields).mem_iff.mp mem)
  have there := (Table.mem_iff_get? distinct' b).mp ((sortFields_perm fields').mem_iff.mp mem')
  have key := Text.le_antisymm h k
  rw [same, key, there] at here
  exact Prod.ext key (Option.some.inj here).symm

namespace Value

theorem get?_sortedFields (fields : Fields) (key : Text) :
    Table.get? (sortedFields fields) key = (Table.get? fields key).map sorted := by
  induction fields with
  | nil => rfl
  | cons field rest ih =>
    obtain ⟨name, v⟩ := field
    rw [sortedFields, Table.get?, Table.get?, ih]
    split <;> rfl

theorem keys_sortedFields (fields : Fields) :
    Table.keys (sortedFields fields) = Table.keys fields := by
  induction fields with
  | nil => rfl
  | cons field rest ih => exact congrArg (field.1 :: ·) ih

theorem distinct_sortedFields {fields : Fields} (distinct : Table.Distinct fields) :
    Table.Distinct (sortedFields fields) := by
  rw [Table.Distinct, keys_sortedFields]
  exact distinct

/-- Two objects have one sorted form when what they have under each key has one. -/
theorem sorted_object_iff {fields fields' : Fields} (distinct : Table.Distinct fields)
    (distinct' : Table.Distinct fields') :
    (object fields).sorted = (object fields').sorted ↔
      ∀ key, (Table.get? fields key).map sorted = (Table.get? fields' key).map sorted := by
  have own := distinct_sortedFields distinct
  have own' := distinct_sortedFields distinct'
  rw [sorted, sorted, object.injEq]
  constructor
  · intro same key
    rw [← get?_sortedFields, ← get?_sortedFields, ← get?_sortFields own, same,
      get?_sortFields own']
  · intro same
    refine sortFields_congr own own' fun key => ?_
    rw [get?_sortedFields, get?_sortedFields, same]

end Value

end Json

end ClusterMetadata
