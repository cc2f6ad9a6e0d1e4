import ClusterMetadata.Document.Basic

/-!
# What a careful write keeps

`safePut` writes a value at a path of a document that may hold anything. What becomes of the leaves
that it meets is told here for every document, path and value.

* `landing`: where the value is found afterwards, at its path or under `value` in the map there;
* `room`: where a leaf on the way finds room, beside the names that the path goes on with;
* `Fate`: a leaf off the way stays where it is, unless it stands where the value lands; a leaf on
  the way moves into the map that takes its place. A null on the way is dropped, and so is a leaf
  that the path leads on from through nothing but fields `value`;
* `safePut_fates`: every leaf of every document fares so.
-/
namespace ClusterMetadata.Document

open Json (Value Fields)

/-- Where a value is found after it has been put at a path: a leaf that meets a map goes into it. -/
def landing (d : Document) (path : Path) (v : Value) : Path :=
  if v.isObject = false ∧ (get? d path).any (·.isObject) then path ++ [valueField] else path

/-- Where a leaf goes when a path leads on from it: to the first field `value` that the path does
not go through itself. None when the path ends at such a field. -/
def room : Path → Option Path
  | [] => none
  | name :: rest =>
    if name = valueField then (room rest).map (valueField :: ·) else some [valueField]

/-! ## One field -/

/-- A write under a name leaves the other names alone. -/
theorem get?_safePutHere_other (d : Document) {name other : Text} (apart : name ≠ other) (v : Value)
    (more : Path) : get? (safePutHere d name v) (other :: more) = get? d (other :: more) := by
  rw [safePutHere, get?_cons, get?_cons]
  have same (w : Value) : Table.get? (Table.insert d name w) other = Table.get? d other := by
    rw [Table.get?_insert, if_neg apart]
  split
  · split <;> rw [same]
  · rw [same]

/-! ## Where the value lands -/

theorem get?_safePutHere_landing (d : Document) (name : Text) (v : Value) :
    get? (safePutHere d name v) (landing d [name] v) = some v := by
  rw [landing, get?_cons, safePutHere]
  cases Table.get? d name with
  | none => simp [get?_cons, Value.at?]
  | some there =>
    cases there with
    | object fields =>
      cases plain : v.isObject <;>
        simp [Value.isObject, get?_cons, Value.at?]
    | _ => simp [Value.isObject, get?_cons, Value.at?]

/-- The map to write into says as the document does whether a map stands at the path. -/
theorem landing_cons (d : Document) (name next : Text) (rest : Path) (v : Value) :
    landing d (name :: next :: rest) v = name :: landing (opened d name) (next :: rest) v := by
  have same : (get? d (name :: next :: rest)).any (·.isObject) =
      (get? (opened d name) (next :: rest)).any (·.isObject) := by
    rw [get?_cons, opened]
    cases there : Table.get? d name with
    | none => rfl
    | some leaf =>
      cases plain : leaf.isObject with
      | true =>
        cases leaf with
        | object fields => rfl
        | _ => cases plain
      | false =>
        rw [Option.bind_some, Value.at?_leaf plain]
        cases leaf with
        | object fields => cases plain
        | null => rfl
        | _ =>
          rw [get?_cons, Table.get?]
          split
          · cases rest <;> rfl
          · rfl
  rw [landing, landing, same]
  split <;> rfl

/-- What is put carefully is found where it lands. -/
theorem get?_safePut_landing (d : Document) {path : Path} (h : path ≠ []) (v : Value) :
    get? (safePut d path v) (landing d path v) = some v := by
  fun_induction safePut d path v with
  | case1 => exact absurd rfl h
  | case2 d name v => exact get?_safePutHere_landing d name v
  | case3 d name v next rest ih =>
    rw [landing_cons, get?_cons, Table.get?_insert_self]
    exact ih (by simp)

theorem prefix_landing (d : Document) (path : Path) (v : Value) : path <+: landing d path v := by
  rw [landing]
  split
  · exact List.prefix_append ..
  · exact List.prefix_refl _

/-! ## Values off the way -/

theorem get?_safePutHere_off {d : Document} {name : Text} {v w : Value} {p : Path}
    (there : get? d p = some w) (off : ¬ p <+: [name]) (clear : ¬ landing d [name] v <+: p) :
    get? (safePutHere d name v) p = some w := by
  cases p with
  | nil => exact absurd (List.nil_prefix) off
  | cons other more =>
    by_cases same : name = other
    · subst same
      cases more with
      | nil => exact absurd (List.prefix_refl _) off
      | cons next rest =>
        obtain ⟨fields, found, leads⟩ := exists_fields_of_get? there
        have map : (get? d [name]).any (·.isObject) = true := by
          simp [get?_cons, found, Value.at?, Value.isObject]
        cases plain : v.isObject with
        | true => simp [landing, plain] at clear
        | false =>
          have apart : valueField ≠ next := by
            rintro rfl
            simp [landing, plain, map] at clear
          rw [safePutHere_below found plain, get?_cons, Table.get?_insert_self, Option.bind_some,
            Value.at?_object_cons, Table.get?_insert, if_neg apart, ← get?_cons]
          exact leads
    · rw [get?_safePutHere_other d same]
      exact there

/-- What stands off the way, and not where the value lands, stays. -/
theorem get?_safePut_off {d : Document} {path : Path} {v w : Value} {p : Path}
    (there : get? d p = some w) (off : ¬ p <+: path) (clear : ¬ landing d path v <+: p) :
    get? (safePut d path v) p = some w := by
  fun_induction safePut d path v generalizing p with
  | case1 => exact there
  | case2 d name v => exact get?_safePutHere_off there off clear
  | case3 d name v next rest ih =>
    cases p with
    | nil => exact absurd (List.nil_prefix) off
    | cons other more =>
      by_cases same : name = other
      · subst same
        cases more with
        | nil => exact absurd (by simp) off
        | cons second more =>
          obtain ⟨fields, found, leads⟩ := exists_fields_of_get? there
          have under : opened d name = fields := by rw [opened, found]
          rw [landing_cons, List.cons_prefix_cons] at clear
          rw [List.cons_prefix_cons] at off
          rw [get?_cons, Table.get?_insert_self]
          refine ih ?_ (fun h => off ⟨rfl, h⟩) (fun h => clear ⟨rfl, h⟩)
          rw [under]
          exact leads
      · rw [get?_cons, Table.get?_insert, if_neg same, ← get?_cons]
        exact there

/-! ## Leaves on the way -/

/-- The map that takes the place of a leaf: it keeps the leaf, but not a null. -/
def keeping : Value → Document
  | .null => []
  | leaf => [(valueField, leaf)]

theorem opened_leaf {d : Document} {name : Text} {leaf : Value}
    (there : Table.get? d name = some leaf) (plain : leaf.isObject = false) :
    opened d name = keeping leaf := by
  rw [opened, there]
  cases leaf with
  | object fields => cases plain
  | _ => rfl

/-- Where a leaf stood on the way there is the map that took its place, with the rest of the path
written into it. -/
theorem get?_safePut_along {d : Document} {p rest : Path} {leaf : Value}
    (there : get? d p = some leaf) (plain : leaf.isObject = false) (more : rest ≠ []) (v : Value) :
    get? (safePut d (p ++ rest) v) p = some (.object (safePut (keeping leaf) rest v)) := by
  induction p generalizing d with
  | nil =>
    cases there
    cases plain
  | cons name p ih =>
    cases p with
    | nil =>
      obtain ⟨next, rest, rfl⟩ := List.exists_cons_of_ne_nil more
      have found : Table.get? d name = some leaf := by
        simpa [get?_cons, Value.at?] using there
      rw [List.cons_append, List.nil_append, safePut, get?_cons, Table.get?_insert_self,
        opened_leaf found plain]
      rfl
    | cons second p =>
      obtain ⟨fields, found, leads⟩ := exists_fields_of_get? there
      have under : opened d name = fields := by rw [opened, found]
      rw [List.cons_append, List.cons_append, safePut, get?_cons, Table.get?_insert_self, under]
      exact ih leads

theorem keeping_of_ne {leaf : Value} (present : leaf ≠ .null) :
    keeping leaf = [(valueField, leaf)] := by
  cases leaf with
  | null => exact absurd rfl present
  | _ => rfl

theorem opened_keeping {leaf : Value} (plain : leaf.isObject = false) (present : leaf ≠ .null) :
    opened (keeping leaf) valueField = keeping leaf :=
  opened_leaf (by simp [keeping_of_ne present, Table.get?]) plain

/-- A leaf that has moved to `value` moves on as long as the path goes through `value`. -/
theorem get?_safePut_keeping {leaf : Value} (plain : leaf.isObject = false) (present : leaf ≠ .null)
    (v : Value) {rest found : Path} (free : room rest = some found) :
    get? (safePut (keeping leaf) rest v) found = some leaf := by
  induction rest generalizing found with
  | nil => cases free
  | cons name rest ih =>
    rw [room] at free
    by_cases same : name = valueField
    · subst same
      rw [if_pos rfl, Option.map_eq_some_iff] at free
      obtain ⟨found, free, rfl⟩ := free
      cases rest with
      | nil => cases free
      | cons next rest =>
        rw [safePut, get?_cons, Table.get?_insert_self, opened_keeping plain present]
        exact ih free
    · rw [if_neg same, Option.some.injEq] at free
      subst free
      have off (more : Path) : ¬ name :: more <+: [valueField] := fun h =>
        same (List.cons_prefix_cons.mp h).1
      refine get?_safePut_off ?_ ?_ fun h => off rest ((prefix_landing _ _ v).trans h)
      · simp [keeping_of_ne present, get?_cons, Table.get?, Value.at?]
      · exact fun h => same (List.cons_prefix_cons.mp h).1.symm

/-- Where there is no room for a leaf, nothing of it is kept. -/
theorem safePut_keeping_of_full {leaf : Value} (plain : leaf.isObject = false)
    (v : Value) {rest : Path} (full : room rest = none) (more : rest ≠ []) :
    safePut (keeping leaf) rest v = put [] rest v := by
  by_cases present : leaf = .null
  · rw [present]
    exact safePut_empty rest v
  induction rest with
  | nil => exact absurd rfl more
  | cons name rest ih =>
    rw [room] at full
    split at full
    · next same =>
      subst same
      have kept (w : Value) : Table.insert (keeping leaf) valueField w = [(valueField, w)] := by
        simp [keeping_of_ne present, Table.insert]
      cases rest with
      | nil =>
        have alone : safePutHere (keeping leaf) valueField v =
            Table.insert (keeping leaf) valueField v := by
          rw [safePutHere, keeping_of_ne present, Table.get?, if_pos rfl]
          cases leaf with
          | object fields => cases plain
          | _ => rfl
        rw [safePut, alone, kept, put, Table.insert]
      | cons next rest =>
        rw [safePut, opened_keeping plain present, kept,
          ih (Option.map_eq_none_iff.mp full) (by simp), put, Table.insert, below, Table.get?_nil]
    · cases full

/-! ## Every write -/

/-- Where a leaf stands there is no map for the value to go into. -/
theorem landing_of_leaf {d : Document} {path : Path} {leaf : Value}
    (there : get? d path = some leaf) (plain : leaf.isObject = false) (v : Value) :
    landing d path v = path := by
  rw [landing, there, Option.any_some, plain]
  exact if_neg (by simp)

/-- What becomes of a leaf at a path `p` when a value is put carefully at a path. Off the way it
stays unless the value lands on it. On the way it moves to where it finds room; a null, or a leaf
that finds no room, gives way to the map that holds the value. -/
inductive Fate (d : Document) (path : Path) (v : Value) (p : Path) (leaf : Value) : Prop where
  | stays (off : ¬ p <+: path) (clear : ¬ landing d path v <+: p)
      (found : get? (safePut d path v) p = some leaf)
  | moves (rest free : Path) (along : path = p ++ rest) (present : leaf ≠ .null)
      (room : room rest = some free) (found : get? (safePut d path v) (p ++ free) = some leaf)
  | replaced (rest : Path) (below : p = landing d path v ++ rest)
      (found : get? (safePut d path v) p = v.at? rest)
  | dropped (rest : Path) (along : path = p ++ rest) (lost : leaf = .null ∨ room rest = none)
      (found : get? (safePut d path v) p = some (.object (put [] rest v)))

theorem fate_of_leaf {d : Document} {path : Path} (more : path ≠ []) (v : Value) {p : Path}
    {leaf : Value} (there : get? d p = some leaf) (plain : leaf.isObject = false) :
    Fate d path v p leaf := by
  by_cases below : landing d path v <+: p
  · obtain ⟨rest, rfl⟩ := below
    refine .replaced rest rfl ?_
    rw [get?, Value.at?_append, ← get?, get?_safePut_landing d more, Option.bind_some]
  by_cases along : p <+: path
  · obtain ⟨rest, rfl⟩ := along
    have on : rest ≠ [] := by
      rintro rfl
      rw [List.append_nil, landing_of_leaf there plain] at below
      exact below (List.prefix_refl p)
    have map := get?_safePut_along there plain on v
    cases free : room rest with
    | none =>
      exact .dropped rest rfl (.inr free) (by rw [map, safePut_keeping_of_full plain v free on])
    | some found =>
      by_cases present : leaf = .null
      · refine .dropped rest rfl (.inl present) ?_
        rw [map, present, keeping, safePut_empty]
      · refine .moves rest found rfl present free ?_
        rw [get?, Value.at?_append, ← get?, map, Option.bind_some]
        exact get?_safePut_keeping plain present v free
  · exact .stays along below (get?_safePut_off there along below)

/-- Whatever a document holds and whatever is put at a key, the value is found at the key or, if it
is a leaf that met a map, under `value` there. Every leaf of the document stays or moves to a field
`value` below its place, but for what stood where the value lands, for a null on the way, and for a
leaf from which the key goes on through nothing but fields `value`. -/
theorem safePut_fates (d : Document) (key : Text) (v : Value) :
    get? (safePut d (.ofKey key) v) (landing d (.ofKey key) v) = some v ∧
      ∀ p leaf, get? d p = some leaf → leaf.isObject = false → Fate d (.ofKey key) v p leaf :=
  ⟨get?_safePut_landing d (Path.ofKey_ne_nil key) v,
    fun _ _ there plain => fate_of_leaf (Path.ofKey_ne_nil key) v there plain⟩

-- A null is not kept, and a map takes the place of a map with all that is in it.
example : safePut [("a", .null)] ["a", "b"] (.int 1) =
    [(("a" : Text), Value.object [("b", .int 1)])] := by decide
example : safePut [("a", .object [("b", .int 1)])] ["a"] (.object [("c", .int 2)]) =
    [(("a" : Text), Value.object [("c", .int 2)])] := by decide

end ClusterMetadata.Document
