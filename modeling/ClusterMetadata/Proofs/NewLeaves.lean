import ClusterMetadata.Proofs.KeptLeaves
import ClusterMetadata.Proofs.OrchestratorFields

/-!
# What a careful write leaves

Every leaf that is found after `safePut` has come from somewhere.

* `Origin`: a leaf is the value that was put, or stood where it is, or stood on the way and moved;
* `origin_here`, `Origin.under`: at one field, and in the map at the head of a path;
* `origin_of_leaf`: there is no other leaf, when the value is not a map;
* `proper_safePut`: no key comes twice that did not before.
-/
namespace ClusterMetadata.Document

open Json (Value Fields)

theorem at?_of_not_object {leaf v : Value} (plain : leaf.isObject = false) {p : Path}
    (there : leaf.at? p = some v) : p = [] ∧ v = leaf := by
  cases p with
  | nil =>
    rw [Value.at?] at there
    exact ⟨rfl, (Option.some.inj there).symm⟩
  | cons name p =>
    rw [Value.at?_leaf plain] at there
    cases there

/-- Where the leaves of a document come from after a value that is not a map was put at a path: they
are the value itself, stood there before, or stood on the way and moved. -/
inductive Origin (d : Document) (path : Path) (v : Value) (q : Path) (leaf : Value) : Prop where
  | landed (here : q = landing d path v) (same : leaf = v)
  | stood (there : get? d q = some leaf) (off : ¬ q <+: path)
  | moved (p rest free : Path) (along : path = p ++ rest) (there : get? d p = some leaf)
      (plain : leaf.isObject = false) (room : room rest = some free) (now : q = p ++ free)

theorem safePutHere_branches (d : Document) (name : Text) (v : Value) :
    (Value.object (safePutHere d name v)).branches = true := by
  rw [safePutHere]
  split
  · split <;> exact insert_branches d name _
  · exact insert_branches d name _

/-- A value that is not a map and takes a field brings no leaf but itself. -/
theorem origin_inserted {d : Document} {name : Text} {v : Value} (own : v.isObject = false)
    (lands : landing d [name] v = [name]) {p : Path} {leaf : Value}
    (found : get? (Table.insert d name v) (name :: p) = some leaf) :
    Origin d [name] v (name :: p) leaf := by
  rw [get?_of_field (Table.get?_insert_self ..)] at found
  obtain ⟨rfl, rfl⟩ := at?_of_not_object own found
  exact .landed lands.symm rfl

/-- A value that is not a map and is put where a map is lands beside what the map holds. -/
theorem origin_beside {d : Document} {name : Text} {v : Value} (own : v.isObject = false)
    {fields : Fields} (there : Table.get? d name = some (.object fields)) {p : Path} {leaf : Value}
    (plain : leaf.branches = false)
    (found : (Value.object (Table.insert fields valueField v)).at? p = some leaf) :
    Origin d [name] v (name :: p) leaf := by
  have inside : (get? d [name]).any (·.isObject) = true := by
    rw [get?_of_field there, Value.at?]
    rfl
  have lands : landing d [name] v = [name, valueField] := if_pos ⟨own, inside⟩
  cases p with
  | nil =>
    rw [Value.at?] at found
    cases found
    rw [insert_branches] at plain
    cases plain
  | cons next p =>
    rw [Value.at?_object_cons, Table.get?_insert] at found
    split at found
    · next into =>
      obtain ⟨rfl, rfl⟩ := at?_of_not_object own found
      exact .landed (by rw [lands, into]) rfl
    · refine .stood ?_ (by simp)
      rw [get?_of_field there, Value.at?_object_cons]
      exact found

/-- A map into which a value is put that is none holds the value, and what it held under other
names. -/
theorem origin_here {d : Document} {name : Text} {v : Value} (own : v.isObject = false) {q : Path}
    {leaf : Value} (plain : leaf.branches = false)
    (found : get? (safePutHere d name v) q = some leaf) : Origin d [name] v q leaf := by
  cases q with
  | nil =>
    cases found
    rw [safePutHere_branches] at plain
    cases plain
  | cons other p =>
    by_cases same : name = other
    · subst same
      rw [safePutHere] at found
      split at found
      · next fields there =>
        rw [if_neg (by simp [own]), get?_of_field (Table.get?_insert_self ..)] at found
        exact origin_beside own there plain found
      · next leafy =>
        refine origin_inserted own (if_neg ?_) found
        rintro ⟨-, map⟩
        obtain ⟨w, there, map⟩ := (Option.any_eq_true _ _).mp map
        rw [get?_cons] at there
        obtain ⟨w', there, here⟩ := Option.bind_eq_some_iff.mp there
        rw [Value.at?] at here
        cases here
        cases w with
        | object fields => exact leafy fields there
        | _ => cases map
    · rw [get?_safePutHere_other d same] at found
      exact .stood found (by simp [Ne.symm same])

/-- What a new map starts with comes from the leaf that it takes the place of. -/
theorem get?_opened {d : Document} {name : Text} {q : Path} {leaf : Value} (on : q ≠ [])
    (found : get? (opened d name) q = some leaf) :
    get? d (name :: q) = some leaf ∨
      (q = [valueField] ∧ Table.get? d name = some leaf ∧ leaf.isObject = false) := by
  obtain ⟨next, rest, rfl⟩ := List.exists_cons_of_ne_nil on
  cases there : Table.get? d name with
  | none =>
    rw [opened, there] at found
    cases found
  | some w =>
    cases map : w.isObject with
    | true =>
      cases w with
      | object fields =>
        rw [opened, there] at found
        rw [get?_of_field there]
        exact .inl found
      | _ => cases map
    | false =>
      rw [opened_leaf there map] at found
      by_cases null : w = .null
      · rw [null] at found
        cases found
      · rw [keeping_of_ne null, get?_cons, Table.get?] at found
        split at found
        · next into =>
          obtain ⟨rfl, rfl⟩ := at?_of_not_object map found
          exact .inr ⟨by rw [into], rfl, map⟩
        · cases found

/-- A leaf that has come from somewhere in the map at the head of a path has come from there in the
document. -/
theorem Origin.under {d : Document} {name next : Text} {rest : Path} {v : Value} {q : Path}
    {leaf : Value} (origin : Origin (opened d name) (next :: rest) v q leaf) :
    Origin d (name :: next :: rest) v (name :: q) leaf := by
  cases origin with
  | landed here same => exact .landed (by rw [landing_cons, here]) same
  | stood there off =>
    have on : q ≠ [] := by
      rintro rfl
      exact off List.nil_prefix
    rcases get?_opened on there with there | ⟨rfl, there, leafy⟩
    · exact .stood there (by simpa using off)
    · have aside : next ≠ valueField := by
        rintro rfl
        exact off (by simp)
      exact .moved [name] (next :: rest) [valueField] rfl
        ((get?_of_field there []).trans (by rw [Value.at?])) leafy (by rw [room, if_neg aside]) rfl
  | moved p rest' free along there leafy room now =>
    cases p with
    | nil =>
      cases there
      cases leafy
    | cons first p =>
      rcases get?_opened (by simp) there with there | ⟨at_, there, leafy⟩
      · exact .moved (name :: first :: p) rest' free (by rw [along]; rfl) there leafy room
          (by rw [now]; rfl)
      · rw [at_] at along now
        refine .moved [name] (valueField :: rest') (valueField :: free) (by rw [along]; rfl)
          ((get?_of_field there []).trans (by rw [Value.at?])) leafy ?_ (by rw [now]; rfl)
        rw [Document.room, if_pos rfl, room]
        rfl

/-- After a value that is not a map was put at a path, every leaf is the value, or stood where it
is, or stood on the way and moved. -/
theorem origin_of_leaf {d : Document} {path : Path} (h : path ≠ []) {v : Value}
    (own : v.isObject = false) {q : Path} {leaf : Value} (plain : leaf.branches = false)
    (found : get? (safePut d path v) q = some leaf) : Origin d path v q leaf := by
  fun_induction safePut d path v generalizing q with
  | case1 => exact absurd rfl h
  | case2 d name v => exact origin_here own plain found
  | case3 d name next rest v ih =>
    cases q with
    | nil =>
      cases found
      rw [insert_branches] at plain
      cases plain
    | cons other q =>
      by_cases same : name = other
      · subst same
        rw [get?_of_field (Table.get?_insert_self ..)] at found
        exact (ih (by simp) own found).under
      · rw [get?_cons, Table.get?_insert, if_neg same, ← get?_cons] at found
        exact .stood found (by simp [Ne.symm same])

theorem proper_safePut {d : Document} (proper : (Value.object d).Proper) (path : Path) {v : Value}
    (own : v.Proper) : (Value.object (safePut d path v)).Proper := by
  have under {d : Document} (proper : (Value.object d).Proper) {name : Text} {w : Value}
      (there : Table.get? d name = some w) : w.Proper :=
    Json.proper_of_get? proper.2 there
  fun_induction safePut d path v with
  | case1 => exact proper
  | case2 d name v =>
    rw [safePutHere]
    split
    · next fields there =>
      split
      · exact proper.insert name own
      · exact proper.insert name ((under proper there).insert valueField own)
    · exact proper.insert name own
  | case3 d name v next rest ih =>
    refine proper.insert name (ih ?_ own)
    rw [opened]
    split
    · exact Value.proper_empty
    · exact Value.proper_empty
    · next fields there => exact under proper there
    · next leaf _ there => exact Value.proper_empty.insert valueField (under proper there)

end ClusterMetadata.Document
