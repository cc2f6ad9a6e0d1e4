import ClusterMetadata.Json.Value
import ClusterMetadata.Text.Split

/-! Metadata documents: trees of fields addressed by paths.

A path is a list of field names, written as a key with dots between them. `put` makes room for its
value whatever stands on the way; `safePut` keeps what it meets, moving a leaf to the field `value`
of the map that takes its place. -/
namespace ClusterMetadata

open Json (Value Fields)

/-- The names of the fields to go through, outermost first. -/
abbrev Path := List Text

/-- The path a dotted key stands for; two dots in a row enclose an empty name. -/
def Path.ofKey (key : Text) : Path := Text.cut '.' key

theorem Path.ofKey_ne_nil (key : Text) : Path.ofKey key ≠ [] := by
  simpa [Path.ofKey, Text.cut] using Text.pieces_ne_nil (CodePoint.ofChar '.') key.points

/-- The value found by going through the fields of nested objects. -/
def Json.Value.at? : Value → Path → Option Value
  | v, [] => some v
  | .object fields, name :: rest =>
    match Table.get? fields name with
    | some v => v.at? rest
    | none => none
  | _, _ :: _ => none

theorem Json.Value.at?_object_cons (fields : Fields) (name : Text) (rest : Path) :
    (Value.object fields).at? (name :: rest) = (Table.get? fields name).bind (·.at? rest) := by
  rw [Value.at?]
  cases Table.get? fields name <;> rfl

/-- Going along two paths one after the other is going along the path made of both. -/
theorem Json.Value.at?_append (v : Value) (path rest : Path) :
    v.at? (path ++ rest) = (v.at? path).bind (·.at? rest) := by
  fun_induction Value.at? v path with
  | case1 => rfl
  | case2 fields name path v hv ih => simp [at?_object_cons, hv, ih]
  | case3 fields name path hv => simp [at?_object_cons, hv]
  | case4 v name path hv => cases v <;> simp_all [at?]

/-- Going on from a leaf leads nowhere. -/
theorem Json.Value.at?_leaf {leaf : Value} (plain : leaf.isObject = false) (name : Text) (rest : Path) :
    leaf.at? (name :: rest) = none := by
  cases leaf with
  | object fields => cases plain
  | _ => rfl

/-- A tree of named fields. -/
abbrev Document := Fields

namespace Document

/-- The field that keeps a leaf where a map has taken its place. -/
def valueField : Text := "value"

def get? (d : Document) (path : Path) : Option Value := (Value.object d).at? path

/-- Whether there is a value at a path, null included. -/
def has (d : Document) (path : Path) : Bool := (get? d path).isSome

/-- The fields of the map under a name; none when something else or nothing stands there. -/
def below (d : Document) (name : Text) : Document :=
  match Table.get? d name with
  | some (.object fields) => fields
  | _ => []

theorem below_of_plain {d : Document} {name : Text}
    (plain : ∀ there, Table.get? d name = some there → there.isObject = false) :
    below d name = [] := by
  rw [below]
  split
  · next fields there => cases plain _ there
  · rfl

/-- Writes a value at a path. Values on the way that are not maps give way to maps. -/
def put (d : Document) : Path → Value → Document
  | [], _ => d
  | [name], value => Table.insert d name value
  | name :: next :: rest, value =>
    Table.insert d name (.object (put (below d name) (next :: rest) value))

/-- The map to write into under a name: the one that is there, or a new one that keeps a leaf that
is not null under `value`. -/
def opened (d : Document) (name : Text) : Document :=
  match Table.get? d name with
  | none | some .null => []
  | some (.object fields) => fields
  | some leaf => [(valueField, leaf)]

/-- Writes a leaf or a map under a name; a leaf goes into a map that is there, under `value`. -/
def safePutHere (d : Document) (name : Text) (value : Value) : Document :=
  match Table.get? d name with
  | some (.object fields) =>
    if value.isObject then Table.insert d name value
    else Table.insert d name (.object (Table.insert fields valueField value))
  | _ => Table.insert d name value

/-- A map takes the place of what is there. -/
theorem safePutHere_of_map (d : Document) (name : Text) {v : Value} (map : v.isObject = true) :
    safePutHere d name v = Table.insert d name v := by
  rw [safePutHere]
  split
  · exact if_pos map
  · rfl

/-- What is no map gives way. -/
theorem safePutHere_of_plain {d : Document} {name : Text}
    (plain : ∀ there, Table.get? d name = some there → there.isObject = false) (v : Value) :
    safePutHere d name v = Table.insert d name v := by
  rw [safePutHere]
  split
  · next fields there => cases plain _ there
  · rfl

/-- A leaf goes into the map that is there. -/
theorem safePutHere_below {d fields : Document} {name : Text}
    (there : Table.get? d name = some (.object fields)) {v : Value} (leaf : v.isObject = false) :
    safePutHere d name v = Table.insert d name (.object (Table.insert fields valueField v)) := by
  rw [safePutHere, there]
  exact if_neg (ne_true_of_eq_false leaf)

/-- Writes a value at a path and keeps the leaves it meets. -/
def safePut (d : Document) : Path → Value → Document
  | [], _ => d
  | [name], value => safePutHere d name value
  | name :: next :: rest, value =>
    Table.insert d name (.object (safePut (opened d name) (next :: rest) value))

/-- The document without the value at a path; nothing when there is no value. -/
def delete? (d : Document) : Path → Option Document
  | [] => none
  | [name] => if Table.contains d name then some (Table.erase d name) else none
  | name :: next :: rest =>
    match Table.get? d name with
    | some (.object fields) =>
      match delete? fields (next :: rest) with
      | some fields => some (Table.insert d name (.object fields))
      | none => none
    | _ => none

def delete (d : Document) (path : Path) : Document := (delete? d path).getD d

mutual
/-- The value after another is merged over it: maps merge, anything else is replaced. -/
def mergeOver (existing : Option Value) : Value → Value
  | .object source =>
    .object (mergeFields (match existing with | some (.object fields) => fields | _ => []) source)
  | leaf => leaf
termination_by structural source => source

def mergeFields (d : Document) : List (Text × Value) → Document
  | [] => d
  | (name, value) :: rest =>
    mergeFields (Table.insert d name (mergeOver (Table.get? d name) value)) rest
termination_by structural source => source
end

/-- The document with another merged over it: maps merge at every depth, leaves of the other win. -/
def merge (d other : Document) : Document := mergeFields d other

theorem get?_cons (d : Document) (name : Text) (rest : Path) :
    get? d (name :: rest) = (Table.get? d name).bind (·.at? rest) :=
  Value.at?_object_cons d name rest

theorem get?_of_field {d : Document} {name : Text} {v : Value} (found : Table.get? d name = some v)
    (rest : Path) : get? d (name :: rest) = v.at? rest := by
  rw [get?_cons, found, Option.bind_some]

/-- A path with more than one name leads through a map. -/
theorem exists_fields_of_get? {d : Document} {name next : Text} {rest : Path} {w : Value}
    (there : get? d (name :: next :: rest) = some w) :
    ∃ fields, Table.get? d name = some (.object fields) ∧ get? fields (next :: rest) = some w := by
  rw [get?_cons] at there
  obtain ⟨under, found, leads⟩ := Option.bind_eq_some_iff.mp there
  cases plain : under.isObject with
  | false =>
    rw [Value.at?_leaf plain] at leads
    cases leads
  | true =>
    cases under with
    | object fields => exact ⟨fields, found, leads⟩
    | _ => cases plain

/-- What is put at a path is found there. -/
theorem get?_put (d : Document) {path : Path} (h : path ≠ []) (value : Value) :
    get? (put d path value) path = some value := by
  fun_induction put d path value with
  | case1 => exact absurd rfl h
  | case2 d name => simp [get?_cons, Value.at?]
  | case3 d name _ next rest ih =>
    rw [get?_cons, Table.get?_insert_self]
    exact ih (by simp)

/-- Where nothing stands there is nothing to keep. -/
theorem safePut_empty (path : Path) (v : Value) : safePut [] path v = put [] path v := by
  induction path with
  | nil => rfl
  | cons name rest ih =>
    cases rest with
    | nil => rfl
    | cons next rest => exact congrArg (fun fields => Table.insert [] name (Value.object fields)) ih

/-- There is something to delete exactly where there is a value. -/
theorem isSome_delete? (d : Document) {path : Path} (h : path ≠ []) :
    (delete? d path).isSome = has d path := by
  fun_induction delete? d path with
  | case1 => exact absurd rfl h
  | case2 d name hn => simpa [has, get?_cons, Value.at?, Table.contains] using hn.symm
  | case3 d name hn => simpa [has, get?_cons, Value.at?, Table.contains] using hn
  | case4 d name next rest fields hf after ha ih =>
    rw [has, get?_cons, hf]
    simpa [ha, has, get?] using ih (by simp)
  | case5 d name next rest fields hf ha ih =>
    rw [has, get?_cons, hf]
    simpa [ha, has, get?] using ih (by simp)
  | case6 d name next rest hf =>
    rw [has, get?_cons]
    cases ht : Table.get? d name with
    | none => rfl
    | some v =>
      cases v with
      | object fields => exact absurd ht (hf fields)
      | _ => rfl

end Document

end ClusterMetadata
