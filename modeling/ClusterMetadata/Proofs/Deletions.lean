import ClusterMetadata.Document.Session
import ClusterMetadata.Proofs.PlainWrites

/-!
# What a deletion takes away

A deletion walks to the map that holds the value and takes the field away there.

* `Deletes`: a document and what is left of it when the value at a path is taken away;
* `deletes_of_delete?`: so it is whenever there is something to delete;
* `Deletes.get?_beyond`, `Deletes.get?_of_apart`, `Deletes.isMap_before`: what stands behind the
  path, aside and on the way to it;
* `Deletes.sorted_put`: the value put back;
* `TakenAway`: what a deletion has to leave;
* `delete_laws`: all of it for every document and dotted key, and for the steps of a session.
-/
namespace ClusterMetadata.Document

open Json (Value Fields)

/-- What is left of a document when the value at a path is taken away. -/
inductive Deletes : Document → Path → Document → Prop where
  | here {d : Document} {name : Text} {v : Value} (there : Table.get? d name = some v) :
      Deletes d [name] (Table.erase d name)
  | under {d fields left : Document} {name : Text} {path : Path}
      (there : Table.get? d name = some (.object fields)) (inside : Deletes fields path left) :
      Deletes d (name :: path) (Table.insert d name (.object left))

/-- What is deleted is taken away where it stands. -/
theorem deletes_of_delete? {d after : Document} {p : Path} (h : delete? d p = some after) :
    Deletes d p after := by
  fun_induction delete? d p generalizing after with
  | case1 => cases h
  | case2 d name there =>
    cases h
    obtain ⟨v, found⟩ := Option.isSome_iff_exists.mp there
    exact .here found
  | case3 => cases h
  | case4 d name next rest fields there left inside ih =>
    cases h
    exact .under there (ih inside)
  | case5 => cases h
  | case6 => cases h

namespace Deletes

variable {d after : Document} {p q : Path}

theorem ne_nil (h : Deletes d p after) : p ≠ [] := by
  cases h <;> exact List.cons_ne_nil _ _

/-- Nothing stands at the path any more, nor behind it. -/
theorem get?_beyond (h : Deletes d p after) (rest : Path) : get? after (p ++ rest) = none := by
  induction h with
  | here there => rw [List.cons_append, get?_cons, Table.get?_erase, if_pos rfl, Option.bind_none]
  | under there inside ih =>
    rw [List.cons_append, get?_cons, Table.get?_insert_self, Option.bind_some]
    exact ih

/-- What stands apart from the path stays. -/
theorem get?_of_apart (h : Deletes d p after) (apart : p.Apart q) : get? after q = get? d q := by
  induction h generalizing q with
  | @here d name v there =>
    cases q with
    | nil => exact absurd List.nil_prefix apart.2
    | cons other more =>
      have differ : name ≠ other := by
        rintro rfl
        exact apart.1 (by simp)
      rw [get?_cons, get?_cons, Table.get?_erase, if_neg differ]
  | @under d fields left name path there inside ih =>
    cases q with
    | nil => exact absurd List.nil_prefix apart.2
    | cons other more =>
      by_cases same : name = other
      · subst same
        rw [get?_cons, get?_cons, Table.get?_insert_self, there]
        exact ih (Path.apart_cons apart)
      · rw [get?_cons, get?_cons, Table.get?_insert, if_neg same]

/-- On the way to the path there are maps still. -/
theorem isMap_before (h : Deletes d p after) (on : q <+: p) (before : q ≠ p) :
    ∃ fields, get? after q = some (.object fields) := by
  induction h generalizing q with
  | @here d name v there =>
    cases q with
    | nil => exact ⟨_, by rw [get?, Value.at?]⟩
    | cons other more =>
      obtain ⟨rfl, tail⟩ := List.cons_prefix_cons.mp on
      rw [List.prefix_nil.mp tail] at before
      exact absurd rfl before
  | @under d fields left name path there inside ih =>
    cases q with
    | nil => exact ⟨_, by rw [get?, Value.at?]⟩
    | cons other more =>
      obtain ⟨rfl, tail⟩ := List.cons_prefix_cons.mp on
      obtain ⟨fields, found⟩ := ih tail fun same => before (by rw [same])
      exact ⟨fields, by rw [get?_cons, Table.get?_insert_self, Option.bind_some]; exact found⟩

/-- The value put back makes the document again, but for the order of keys. -/
theorem sorted_put (h : Deletes d p after) (proper : (Value.object d).Proper) {old : Value}
    (found : get? d p = some old) :
    (Value.object (put after p old)).sorted = (Value.object d).sorted := by
  induction h with
  | @here d name v there =>
    rw [get?_cons] at found
    obtain ⟨w, field, same⟩ := Option.bind_eq_some_iff.mp found
    cases same
    have distinct := Table.distinct_insert (Table.distinct_erase proper.1 name) name old
    refine Value.sorted_object_congr distinct proper.1 fun key => ?_
    rw [put, Table.get?_insert, Table.get?_erase]
    split
    · next same => rw [← same, field]
    · rfl
  | @under d fields left name path there inside ih =>
    obtain ⟨next, rest, rfl⟩ := List.exists_cons_of_ne_nil inside.ne_nil
    have inner : (Value.object fields).Proper :=
      Json.proper_of_get? proper.2 there
    rw [get?_cons, there] at found
    rw [put, below_insert, Table.insert_insert,
      Value.sorted_insert_congr proper.1 name (ih inner found), Table.insert_get? there]

end Deletes

/-- What is left when the value at a path is taken away: nothing at the path, everything apart from
it, and enough to make the document again by putting the value back. -/
structure TakenAway (d : Document) (p : Path) (after : Document) : Prop where
  gone : has after p = false
  present : ∀ q, ¬ p <+: q → has after q = has d q
  aside : ∀ q, p.Apart q → get? after q = get? d q
  restored : (Value.object d).Proper → ∃ old, get? d p = some old ∧
    (Value.object (put after p old)).sorted = (Value.object d).sorted

theorem Deletes.takenAway {d after : Document} {p : Path} (h : Deletes d p after)
    (there : has d p = true) : TakenAway d p after := by
  obtain ⟨old, found⟩ := Option.isSome_iff_exists.mp there
  refine ⟨?_, fun q clear => ?_, fun q => h.get?_of_apart, fun proper => ?_⟩
  · have nothing := h.get?_beyond []
    rw [List.append_nil] at nothing
    rw [has, nothing, Option.isSome_none]
  · by_cases on : q <+: p
    · obtain ⟨rest, rfl⟩ := on
      have before : q ≠ q ++ rest := fun same => clear (same ▸ List.prefix_refl _)
      obtain ⟨fields, still⟩ := h.isMap_before (List.prefix_append q rest) before
      rw [get?, Value.at?_append] at found
      obtain ⟨v, stood, -⟩ := Option.bind_eq_some_iff.mp found
      rw [has, has, still, get?, stood, Option.isSome_some, Option.isSome_some]
    · exact congrArg Option.isSome (h.get?_of_apart ⟨clear, on⟩)
  · exact ⟨old, found, h.sorted_put proper found⟩

/-- There is something to delete at a key exactly when something stands there. Where there is
nothing the document stays as it is; where there is, the key is gone, nothing apart from it is
touched, and the value put back makes the document again, but for the order of keys. A step of a
session that deletes answers whether there was something, and does just that. -/
theorem delete_laws :
    (∀ (d : Document) (key : Text),
      (delete? d (.ofKey key)).isSome = has d (.ofKey key) ∧
        (delete? d (.ofKey key) = none → delete d (.ofKey key) = d) ∧
        ∀ after, delete? d (.ofKey key) = some after →
          delete d (.ofKey key) = after ∧ TakenAway d (.ofKey key) after) ∧
      ∀ (s : Session) (name key : Text),
        (s.act name (.delete key)).1 =
            .ok (.settled (.bool (delete? (s.document name) (.ofKey key)).isSome)) ∧
          (s.act name (.delete key)).2.document name = delete (s.document name) (.ofKey key) := by
  have agree (d : Document) (key : Text) := isSome_delete? d (Path.ofKey_ne_nil key)
  refine ⟨fun d key => ⟨agree d key, fun none => ?_, fun after some => ⟨?_, ?_⟩⟩,
    fun s name key => ⟨?_, ?_⟩⟩
  · rw [delete, none, Option.getD_none]
  · rw [delete, some, Option.getD_some]
  · refine (deletes_of_delete? some).takenAway ?_
    rw [← agree, some, Option.isSome_some]
  · rw [agree]
    rfl
  · change (if has (s.document name) (.ofKey key) then
      s.edit name (.delete (.ofKey key)) else s).document name = _
    split
    · exact s.document_edit name _
    · next missing =>
      rw [← agree] at missing
      rw [delete, Option.not_isSome_iff_eq_none.mp missing, Option.getD_none]

def addressedPod : Document :=
  [("pod", .object [("ip", .string "10.0.0.5"), ("name", .string "web")])]

def namedPod : Document := [("pod", .object [("name", .string "web")])]

/-- The address is deleted, and put back it stands behind the name. -/
theorem delete_laws_addressedPod :
    delete? addressedPod (.ofKey "pod.ip") = some namedPod ∧
      TakenAway addressedPod (.ofKey "pod.ip") namedPod ∧
      (Value.object (put namedPod (.ofKey "pod.ip") (.string "10.0.0.5"))).sorted =
        (Value.object addressedPod).sorted := by
  have made : delete? addressedPod (.ofKey "pod.ip") = some namedPod := by decide +kernel
  have address : get? addressedPod (.ofKey "pod.ip") = some (.string "10.0.0.5") := by
    decide +kernel
  have proper : (Value.object addressedPod).Proper := by decide
  have taken := ((delete_laws.1 addressedPod "pod.ip").2.2 _ made).2
  obtain ⟨old, found, same⟩ := taken.restored proper
  cases Option.some.inj (found.symm.trans address)
  exact ⟨made, taken, same⟩

end ClusterMetadata.Document
