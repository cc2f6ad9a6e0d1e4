import ClusterMetadata.Document.Session
import ClusterMetadata.Proofs.OrchestratorFields
import ClusterMetadata.Proofs.SortedValues

/-!
# Laws of plain writes

`put` writes a value at a path, and whatever stands on the way that is not a map gives way to one.

* `put_cons`: a write is one field written, with the rest of the path written below it;
* `put_put`: of two writes at one path the second is left;
* `sorted_put_comm`: two writes at paths apart may change places, but for the order of keys;
* `put_laws`: what is read after writes at dotted keys.
-/
namespace ClusterMetadata

open Json (Value Fields)

namespace Table

variable {κ ν : Type} [DecidableEq κ]

/-- Of two values written under one key the second is left. -/
theorem insert_insert (t : Table κ ν) (key : κ) (first second : ν) :
    insert (insert t key first) key second = insert t key second := by
  induction t with
  | nil => simp [insert]
  | cons entry rest ih =>
    obtain ⟨k, v⟩ := entry
    by_cases same : k = key
    · rw [insert, if_pos same, insert, if_pos same, insert, if_pos same]
    · rw [insert, if_neg same, insert, if_neg same, ih, insert, if_neg same]

/-- Two keys may be written in either order: the table is read alike. -/
theorem get?_insert_comm (t : Table κ ν) {key other : κ} (apart : key ≠ other) (v w : ν) (k : κ) :
    get? (insert (insert t key v) other w) k = get? (insert (insert t other w) key v) k := by
  rw [get?_insert, get?_insert, get?_insert, get?_insert]
  by_cases here : key = k
  · rw [if_neg fun there => apart (here.trans there.symm), if_pos here, if_pos here]
  · rw [if_neg here, if_neg here]

end Table

namespace Json.Value

/-- Objects that are read alike have one sorted form. -/
theorem sorted_object_congr {fields fields' : Fields} (distinct : Table.Distinct fields)
    (distinct' : Table.Distinct fields')
    (same : ∀ key, Table.get? fields key = Table.get? fields' key) :
    (object fields).sorted = (object fields').sorted :=
  (sorted_object_iff distinct distinct').mpr fun key => congrArg (Option.map sorted) (same key)

/-- A field may hold either of two values with one sorted form. -/
theorem sorted_insert_congr {fields : Fields} (distinct : Table.Distinct fields) (name : Text)
    {v w : Value} (same : v.sorted = w.sorted) :
    (object (Table.insert fields name v)).sorted =
      (object (Table.insert fields name w)).sorted := by
  refine (sorted_object_iff (Table.distinct_insert distinct name v)
    (Table.distinct_insert distinct name w)).mpr fun key => ?_
  rw [Table.get?_insert, Table.get?_insert]
  split
  · exact congrArg some same
  · rfl

end Json.Value

namespace Document

@[simp] theorem below_insert (d : Document) (name : Text) (fields : Document) :
    below (Table.insert d name (.object fields)) name = fields := by
  rw [below, Table.get?_insert_self]

theorem below_insert_other (d : Document) {name other : Text} (apart : name ≠ other) (v : Value) :
    below (Table.insert d name v) other = below d other := by
  rw [below, Table.get?_insert, if_neg apart, below]

/-- What stands under a name after a value was put at a path that starts with it, given the fields
that stood below the name. -/
def rewritten (fields : Document) : Path → Value → Value
  | [], v => v
  | next :: rest, v => .object (put fields (next :: rest) v)

/-- A write is one field written, with the rest of the path written below it. -/
theorem put_cons (d : Document) (name : Text) (rest : Path) (v : Value) :
    put d (name :: rest) v = Table.insert d name (rewritten (below d name) rest v) := by
  cases rest <;> rfl

/-- Of two writes at one path the second is left. -/
theorem put_put (d : Document) (path : Path) (v w : Value) :
    put (put d path v) path w = put d path w := by
  fun_induction put d path v with
  | case1 => rfl
  | case2 d name v => exact Table.insert_insert d name v w
  | case3 d name v next rest ih => rw [put, below_insert, ih, Table.insert_insert, put]

/-- Two writes at paths apart may change places, but for the order of keys. -/
theorem sorted_put_comm {d : Document} (proper : (Value.object d).Proper) {p q : Path}
    (apart : p.Apart q) (v w : Value) :
    (Value.object (put (put d p v) q w)).sorted = (Value.object (put (put d q w) p v)).sorted := by
  induction p generalizing d q with
  | nil => exact absurd List.nil_prefix apart.1
  | cons name rest ih =>
    cases q with
    | nil => exact absurd List.nil_prefix apart.2
    | cons other more =>
      by_cases same : name = other
      · -- Both go on below one name, as neither ends there.
        subst same
        have inner := Path.apart_cons apart
        cases rest with
        | nil => exact absurd List.nil_prefix inner.1
        | cons next rest =>
          cases more with
          | nil => exact absurd List.nil_prefix inner.2
          | cons next' more =>
            rw [put, put, put, put, below_insert, below_insert, Table.insert_insert,
              Table.insert_insert]
            exact Value.sorted_insert_congr proper.1 name (ih (proper_below proper name) inner)
      · simp only [put_cons, below_insert_other d same, below_insert_other d (Ne.symm same)]
        refine Value.sorted_object_congr ?_ ?_ (Table.get?_insert_comm d same _ _)
        · exact Table.distinct_insert (Table.distinct_insert proper.1 _ _) _ _
        · exact Table.distinct_insert (Table.distinct_insert proper.1 _ _) _ _

/-- What is put at a key is found there, and there is something there. A second write at the key
leaves nothing of the first. What stands at paths of which neither leads to the key nor goes on from
it stays, whatever gave way on the way; and two writes at keys of which neither goes on from the
other give the same document in either order, but for the order of its keys. A step of a session
that puts makes just that write, and the steps after it that look at the key find the value. -/
theorem put_laws (d : Document) (key : Text) (v : Value) :
    get? (put d (.ofKey key) v) (.ofKey key) = some v ∧
      has (put d (.ofKey key) v) (.ofKey key) = true ∧
      (∀ w, put (put d (.ofKey key) v) (.ofKey key) w = put d (.ofKey key) w) ∧
      (∀ q, (Path.ofKey key).Apart q → get? (put d (.ofKey key) v) q = get? d q ∧
        has (put d (.ofKey key) v) q = has d q) ∧
      (∀ key' w, (Value.object d).Proper → (Path.ofKey key).Apart (.ofKey key') →
        (Value.object (put (put d (.ofKey key) v) (.ofKey key') w)).sorted =
          (Value.object (put (put d (.ofKey key') w) (.ofKey key) v)).sorted) ∧
      ∀ (s after : Session) (name : Text), after = (s.act name (.put key v)).2 →
        after.document name = put (s.document name) (.ofKey key) v ∧
          (after.act name (.has key)).1 = .ok (.settled (.bool true)) ∧
          ∃ reading, (after.act name (.get key)).1 = .ok reading ∧ after.shown reading = v := by
  have found (d : Document) := get?_put d (Path.ofKey_ne_nil key) v
  have present (d : Document) : has (put d (.ofKey key) v) (.ofKey key) = true := by
    rw [has, found, Option.isSome_some]
  refine ⟨found d, present d, put_put d _ v, fun q apart => ?_,
    fun key' w proper apart => sorted_put_comm proper apart v w, ?_⟩
  · have same := get?_put_of_apart (d := d) apart v
    exact ⟨same, congrArg Option.isSome same⟩
  · rintro s after name rfl
    have written : (s.act name (.put key v)).2.document name =
        put (s.document name) (.ofKey key) v := s.document_edit name _
    refine ⟨written, ?_, _, rfl, ?_⟩
    · rw [Session.act, written, present]
    · rw [Session.shown_read, written, found, Option.getD_some]

def leafNode : Document := [("node", .string "n1"), ("pod", .object [("name", .string "web")])]

/-- The leaf gives way to a map; what stands apart stays, and a second field may come first. -/
theorem put_laws_leafNode :
    get? (put leafNode (.ofKey "node.name") (.string "n1")) (.ofKey "node.name") =
        some (.string "n1") ∧
      get? (put leafNode (.ofKey "node.name") (.string "n1")) (.ofKey "pod.name") =
        get? leafNode (.ofKey "pod.name") ∧
      (Value.object (put (put leafNode (.ofKey "node.name") (.string "n1")) (.ofKey "node.uid")
        (.int 1))).sorted =
        (Value.object (put (put leafNode (.ofKey "node.uid") (.int 1)) (.ofKey "node.name")
          (.string "n1"))).sorted := by
  have proper : (Value.object leafNode).Proper := by decide
  obtain ⟨found, -, -, aside, commutes, -⟩ := put_laws leafNode "node.name" (.string "n1")
  exact ⟨found, (aside (.ofKey "pod.name") (by decide +kernel)).1,
    commutes "node.uid" (.int 1) proper (by decide +kernel)⟩

-- The two orders leave the new fields in different places.
example : put (put leafNode ["node", "name"] (.string "n1")) ["node", "uid"] (.int 1) ≠
    put (put leafNode ["node", "uid"] (.int 1)) ["node", "name"] (.string "n1") := by decide

end Document

end ClusterMetadata
