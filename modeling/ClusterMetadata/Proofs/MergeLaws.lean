import ClusterMetadata.Proofs.Overlays

/-!
# Laws of merges

A document with another merged over it is a kind of sum of the two.

* `merge_insert`: one field written into the other document is one field merged afterwards;
* `merge_self`: a document merged over itself changes nothing;
* `Divides`: a leaf in the middle of two maps;
* `merge_assoc`: where no leaf divides two maps, merges may be bracketed in either way;
* `fits_merge`: a sum needs no more room than what it is made of;
* `merge_laws`: the laws, and what the sums of a session are.
-/
namespace ClusterMetadata

open Json (Value Fields)

/-- A key that is there and another may be written in either order. -/
theorem Table.insert_comm {κ ν : Type} [DecidableEq κ] {t : Table κ ν} {key other : κ}
    (there : contains t key = true) (apart : key ≠ other) (v w : ν) :
    insert (insert t key v) other w = insert (insert t other w) key v := by
  induction t with
  | nil => cases there
  | cons entry rest ih =>
    obtain ⟨k, u⟩ := entry
    by_cases here : k = key
    · subst here
      simp only [insert, if_pos, if_neg apart]
    · have later : contains rest key = true := by
        rw [contains, get?, if_neg here] at there
        exact there
      by_cases hit : k = other
      · simp only [insert, if_neg here, if_pos hit]
      · simp only [insert, if_neg here, if_neg hit, ih later]

namespace Document

/-! ## One field more -/

/-- A field that is not in the fields to merge may be written afterwards, if it has its place. -/
theorem mergeFields_insert {d : Document} {source : Fields} {name : Text}
    (there : Table.contains d name = true) (missing : Table.get? source name = none) (v : Value) :
    mergeFields (Table.insert d name v) source = Table.insert (mergeFields d source) name v := by
  induction source generalizing d with
  | nil => rfl
  | cons field rest ih =>
    obtain ⟨first, u⟩ := field
    rw [Table.get?] at missing
    split at missing
    · cases missing
    · next differ =>
      have apart : name ≠ first := fun same => differ same.symm
      have still (w : Value) : Table.contains (Table.insert d first w) name = true := by
        rw [Table.contains_insert, there, Bool.or_true]
      rw [mergeFields, mergeFields, Table.get?_insert, if_neg apart, Table.insert_comm there apart,
        ih (still _) missing]

/-- A field written into the other document is a field merged afterwards. -/
theorem merge_insert {o : Document} (distinct : Table.Distinct o) (d : Document) (name : Text)
    (v : Value) : merge d (Table.insert o name v) =
      Table.insert (merge d o) name (mergeOver (Table.get? d name) v) := by
  induction o generalizing d with
  | nil => rfl
  | cons field rest ih =>
    obtain ⟨first, u⟩ := field
    by_cases same : first = name
    · subst same
      have there : Table.contains
          (Table.insert d first (mergeOver (Table.get? d first) u)) first = true := by
        rw [Table.contains, Table.get?_insert_self, Option.isSome_some]
      rw [merge, merge, Table.insert, if_pos rfl, mergeFields, mergeFields,
        ← mergeFields_insert there (Table.get?_of_distinct_cons distinct), Table.insert_insert]
    · rw [merge, merge, Table.insert, if_neg same, mergeFields, mergeFields, ← merge,
        ih (List.nodup_cons.mp distinct).2, Table.get?_insert, if_neg same, ← merge]

/-! ## The same twice -/

theorem merge_nil_left {d : Document} (proper : (Value.object d).Proper) : merge [] d = d :=
  mergeFields_fresh [] d proper.1 proper.2

/-- Fields that are there as they would be merged change nothing. -/
theorem mergeFields_absorbed {d : Document} {source : Fields}
    (held : ∀ field ∈ source, ∃ v, Table.get? d field.1 = some v ∧ mergeOver (some v) field.2 = v) :
    mergeFields d source = d := by
  induction source with
  | nil => rfl
  | cons field rest ih =>
    obtain ⟨name, w⟩ := field
    obtain ⟨v, there, same⟩ := held _ List.mem_cons_self
    rw [mergeFields, there, same, Table.insert_get? there]
    exact ih fun field mem => held field (List.mem_cons_of_mem _ mem)

mutual
theorem mergeOver_self : (v : Value) → v.Proper → mergeOver (some v) v = v
  | .object fields, proper => by
    refine congrArg Value.object (mergeFields_absorbed fun field mem => ?_)
    exact ⟨field.2, Table.get?_of_mem proper.1 mem, fields_self fields proper.2 field mem⟩
  | .null, _ | .bool _, _ | .int _, _ | .float _, _ | .string _, _ | .array _, _ => rfl
termination_by structural v => v

theorem fields_self : (fields : List (Text × Value)) → Json.ProperFields fields →
    ∀ field ∈ fields, mergeOver (some field.2) field.2 = field.2
  | [], _, _, mem => absurd mem List.not_mem_nil
  | (_, v) :: rest, proper, field, mem => by
    rcases List.mem_cons.mp mem with rfl | later
    · exact mergeOver_self v proper.1
    · exact fields_self rest proper.2 field later
termination_by structural fields => fields
end

/-- A document merged over itself changes nothing. -/
theorem merge_self {d : Document} (proper : (Value.object d).Proper) : merge d d = d :=
  Value.object.inj (mergeOver_self (.object d) proper)

/-! ## Brackets -/

theorem proper_fieldsOf {existing : Option Value} (held : ∀ v, existing = some v → v.Proper) :
    (Value.object (fieldsOf existing)).Proper := by
  cases existing with
  | none => exact Value.proper_empty
  | some v =>
    cases v with
    | object fields => exact held _ rfl
    | _ => exact Value.proper_empty

mutual
theorem proper_mergeOver {existing : Option Value} (held : ∀ v, existing = some v → v.Proper) :
    (v : Value) → v.Proper → (mergeOver existing v).Proper
  | .object source, proper => by
    rw [mergeOver_object]
    exact proper_mergeFields _ (proper_fieldsOf held) source proper.2
  | .null, _ | .bool _, _ | .int _, _ | .float _, _ | .string _, _ => trivial
  | .array _, proper => proper
termination_by structural v => v

theorem proper_mergeFields (d : Document) (proper : (Value.object d).Proper) :
    (source : List (Text × Value)) → Json.ProperFields source →
    (Value.object (mergeFields d source)).Proper
  | [], _ => proper
  | (name, v) :: rest, more => by
    rw [mergeFields]
    refine proper_mergeFields _ (proper.insert name ?_) rest more.2
    exact proper_mergeOver (fun w there => Json.proper_of_get? proper.2 there) v more.1
termination_by structural source => source
end

/-- A leaf is in the middle of two maps. -/
def Divides (before between after : Option Value) : Prop :=
  before.any (·.isObject) = true ∧ between.any (!·.isObject) = true ∧ after.any (·.isObject) = true

/-- No document is a leaf as a whole. -/
theorem not_divides_nil (d : Document) (before after : Option Value) :
    ¬ Divides before (get? d []) after := by
  rintro ⟨-, leaf, -⟩
  cases leaf

/-- What is a leaf in the middle is no map behind it. -/
theorem not_divides_self (before here : Option Value) : ¬ Divides before here here := by
  rintro ⟨-, leaf, map⟩
  cases here with
  | none => cases map
  | some v =>
    rw [Option.any_some] at leaf map
    rw [map] at leaf
    cases leaf

/-- A leaf that divides no maps and has a map after it has no map before it. -/
theorem fieldsOf_of_not_divides {before : Option Value} {leaf : Value}
    (plain : leaf.isObject = false) {fields : Fields}
    (whole : ¬ Divides before (some leaf) (some (.object fields))) : fieldsOf before = [] := by
  cases before with
  | none => rfl
  | some v =>
    cases map : v.isObject with
    | false => exact fieldsOf_leaf map
    | true => exact absurd ⟨map, by rw [Option.any_some, plain, Bool.not_false], rfl⟩ whole

theorem get?_fieldsOf (x : Option Value) (name : Text) (rest : Path) :
    get? (fieldsOf x) (name :: rest) = x.bind (·.at? (name :: rest)) := by
  cases x with
  | none => rfl
  | some v => cases v <;> rfl

theorem bind_at?_nil (x : Option Value) : x.bind (·.at? []) = x := by
  cases x with
  | none => rfl
  | some v => rw [Option.bind_some, Value.at?]

/-- When no leaf divides two maps, none does behind a field that is written before the rest. -/
theorem not_divides_later {a b rest : Document} {name : Text} {v : Value}
    (distinct : Table.Distinct ((name, v) :: rest))
    (whole : ∀ p, ¬ Divides (get? a p) (get? b p) (get? ((name, v) :: rest) p)) (w : Value)
    (p : Path) : ¬ Divides (get? a p) (get? (Table.insert b name w) p) (get? rest p) := by
  cases p with
  | nil => exact not_divides_nil _ _ _
  | cons first p =>
    by_cases same : name = first
    · -- The name does not come again.
      subst same
      rw [get?_cons rest, Table.get?_of_distinct_cons distinct]
      rintro ⟨-, -, map⟩
      cases map
    · have apart := whole (first :: p)
      rw [get?_tail same, get?_cons b] at apart
      rw [get?_cons (Table.insert ..), Table.get?_insert, if_neg same]
      exact apart

mutual
/-- A value merged over a merged value, where no leaf divides two maps. -/
theorem mergeOver_assoc (x : Option Value) (u : Value) : (v : Value) → u.Proper → v.Proper →
    (∀ p, ¬ Divides (x.bind (·.at? p)) (u.at? p) (v.at? p)) →
    mergeOver (some (mergeOver x u)) v = mergeOver x (mergeOver (some u) v)
  | .object source, own, proper, whole => by
    cases map : u.isObject with
    | false =>
      have none : fieldsOf x = [] := by
        have here := whole []
        rw [bind_at?_nil, Value.at?, Value.at?] at here
        exact fieldsOf_of_not_divides map here
      rw [mergeOver_leaf map, mergeOver_object, mergeOver_object, fieldsOf_leaf map, none,
        merge_nil_left proper, merge_nil_left proper]
    | true =>
      cases u with
      | object fields =>
        rw [mergeOver_object, mergeOver_object, mergeOver_object, mergeOver_object]
        refine congrArg Value.object (merge_assoc _ fields source own proper fun p => ?_)
        cases p with
        | nil => exact not_divides_nil fields _ _
        | cons name rest =>
          rw [get?_fieldsOf]
          exact whole (name :: rest)
      | _ => cases map
  | .null, _, _, _ | .bool _, _, _, _ | .int _, _, _, _ | .float _, _, _, _
  | .string _, _, _, _ | .array _, _, _, _ => rfl
termination_by structural v => v

/-- Where no leaf divides two maps, merges may be bracketed in either way. -/
theorem merge_assoc (a b : Document) : (c : List (Text × Value)) → (Value.object b).Proper →
    (Value.object c).Proper → (∀ p, ¬ Divides (get? a p) (get? b p) (get? c p)) →
    merge (merge a b) c = merge a (merge b c)
  | [], _, _, _ => rfl
  | (name, v) :: rest, own, proper, whole => by
    have field : mergeOver (Table.get? (merge a b) name) v =
        mergeOver (Table.get? a name) (mergeOver (Table.get? b name) v) := by
      rw [merge, get?_mergeFields own.1]
      cases there : Table.get? b name with
      | none => rw [mergeOver_none v proper.2.1, Option.map_none, Option.none_or]
      | some u =>
        refine mergeOver_assoc _ u v (Json.proper_of_get? own.2 there) proper.2.1 fun p => ?_
        have apart := whole (name :: p)
        rw [get?_cons, get?_of_field there, get?_head] at apart
        exact apart
    have held : (mergeOver (Table.get? b name) v).Proper :=
      proper_mergeOver (fun u there => Json.proper_of_get? own.2 there) v proper.2.1
    have later := merge_assoc a (Table.insert b name (mergeOver (Table.get? b name) v)) rest
      (own.insert name held) ⟨(List.nodup_cons.mp proper.1).2, proper.2.2⟩
      (not_divides_later proper.1 whole _)
    calc merge (merge a b) ((name, v) :: rest)
      _ = merge (Table.insert (merge a b) name (mergeOver (Table.get? (merge a b) name) v)) rest :=
        rfl
      _ = merge (merge a (Table.insert b name (mergeOver (Table.get? b name) v))) rest := by
        rw [field, merge_insert own.1]
      _ = merge a (merge b ((name, v) :: rest)) := later
termination_by structural c => c
end

/-! ## Room -/

theorem steps_insert (d : Document) (name : Text) (v : Value) :
    steps (Table.insert d name v) ≤ max (steps d) (valueSteps v) := by
  induction d with
  | nil => simp [Table.insert, steps]
  | cons field rest ih =>
    obtain ⟨first, w⟩ := field
    rw [Table.insert]
    split <;> simp only [steps] <;> omega

theorem valueSteps_of_get? {d : Document} {name : Text} {v : Value}
    (there : Table.get? d name = some v) : valueSteps v ≤ steps d := by
  induction d with
  | nil => cases there
  | cons field rest ih =>
    obtain ⟨first, w⟩ := field
    rw [Table.get?] at there
    rw [steps]
    split at there
    · cases there
      exact Nat.le_max_left _ _
    · exact Nat.le_trans (ih there) (Nat.le_max_right _ _)

theorem steps_fieldsOf {room : Nat} {existing : Option Value}
    (held : ∀ v, existing = some v → valueSteps v ≤ room) :
    steps (fieldsOf existing) ≤ room - 1 := by
  cases existing with
  | none => exact Nat.zero_le _
  | some v =>
    cases v with
    | object fields => exact Nat.le_sub_one_of_lt (held _ rfl)
    | _ => exact Nat.zero_le _

mutual
theorem valueSteps_mergeOver {room : Nat} {existing : Option Value}
    (held : ∀ v, existing = some v → valueSteps v ≤ room) :
    (v : Value) → valueSteps v ≤ room → valueSteps (mergeOver existing v) ≤ room
  | .object source, own => by
    rw [valueSteps] at own
    have inner := steps_mergeFields (fieldsOf existing) (steps_fieldsOf held) source
      (Nat.le_sub_one_of_lt own)
    rw [mergeOver_object, valueSteps, merge]
    omega
  | .null, own | .bool _, own | .int _, own | .float _, own | .string _, own | .array _, own => own
termination_by structural v => v

theorem steps_mergeFields {room : Nat} (d : Document) (held : steps d ≤ room) :
    (source : List (Text × Value)) → steps source ≤ room → steps (mergeFields d source) ≤ room
  | [], _ => held
  | (name, v) :: rest, own => by
    rw [steps, Nat.max_le] at own
    have field : valueSteps (mergeOver (Table.get? d name) v) ≤ room :=
      valueSteps_mergeOver (fun w there => Nat.le_trans (valueSteps_of_get? there) held) v own.1
    have written := steps_insert d name (mergeOver (Table.get? d name) v)
    exact steps_mergeFields _ (Nat.le_trans written (Nat.max_le.mpr ⟨held, field⟩)) rest own.2
termination_by structural source => source
end

/-- A sum needs no more room than what it is made of. -/
theorem fits_merge {a b : Document} (first : fits a = true) (second : fits b = true) :
    fits (merge a b) = true :=
  decide_eq_true (steps_mergeFields a (of_decide_eq_true first) b (of_decide_eq_true second))

/-- The session in which a copy of a document was made and another was merged over the copy. -/
def Session.sum (s : Session) (name other copy : Text) : Session :=
  ((s.act name (.clone copy)).2.act copy (.mergeFrom other)).2

theorem document_sum {s : Session} {name other copy : Text} (apart : copy ≠ other)
    (room : (Value.object (s.document name)).copySteps ≤ mergingRoom)
    (fit : fits (s.document other) = true) :
    (s.sum name other copy).document copy = merge (s.document name) (s.document other) := by
  have cloned : (s.act name (.clone copy)).2 = s.replace copy (s.document name) fun _ => none := by
    rw [Session.act, Session.clone, if_pos room]
  have source : (s.replace copy (s.document name) fun _ => none).document other =
      s.document other := by
    rw [Session.document_replace, if_neg apart]
  rw [Session.sum, cloned, Session.act, source, Session.document_merge fit,
    Session.document_replace, if_pos rfl]

/-- A document is the sum of itself and the empty document in either order, and of itself twice. A
document that was merged may be merged again without a change. Sums may be bracketed in either way
where no leaf of the second document divides a map of the first and a map of the third. Sums are
what the steps of a session make of a copy of the one document and the other, as far as there is
room, and a sum of documents for which there is room is one. -/
theorem merge_laws :
    (∀ d : Document, (Value.object d).Proper → merge [] d = d ∧ merge d [] = d ∧ merge d d = d) ∧
      (∀ d o : Document, (Value.object o).Proper → merge (merge d o) o = merge d o) ∧
      (∀ a b c : Document, (Value.object b).Proper → (Value.object c).Proper →
        (∀ p, ¬ Divides (get? a p) (get? b p) (get? c p)) →
        merge (merge a b) c = merge a (merge b c)) ∧
      (∀ a b : Document, fits a = true → fits b = true → fits (merge a b) = true) ∧
      ∀ (s : Session) (name other copy : Text), copy ≠ other →
        (Value.object (s.document name)).copySteps ≤ mergingRoom → fits (s.document other) = true →
        (s.sum name other copy).document copy = merge (s.document name) (s.document other) := by
  refine ⟨fun d proper => ⟨merge_nil_left proper, rfl, merge_self proper⟩, fun d o proper => ?_,
    fun a b c own proper => merge_assoc a b c own proper, fun a b => fits_merge,
    fun s name other copy => document_sum⟩
  rw [merge_assoc d o o proper proper fun p => not_divides_self _ _, merge_self proper]

def namedNode : Document := [("node", .object [("name", .string "n1")])]

/-- Two documents about a pod and one about its node, in which no leaf divides maps. -/
theorem merge_laws_namedNode :
    merge [] namedNode = namedNode ∧ merge namedNode namedNode = namedNode ∧
      merge (merge labelledPod addressedPod) addressedPod = merge labelledPod addressedPod ∧
      merge (merge labelledPod addressedPod) namedNode =
        merge labelledPod (merge addressedPod namedNode) ∧
      fits (merge labelledPod addressedPod) = true ∧
      ((Session.start [("doc", labelledPod), ("other", addressedPod)]).sum "doc" "other"
        "copy").document "copy" = merge labelledPod addressedPod := by
  have node : (Value.object namedNode).Proper := by decide
  have pod : (Value.object addressedPod).Proper := by decide
  have whole (p : Path) :
      ¬ Divides (get? labelledPod p) (get? addressedPod p) (get? namedNode p) := by
    cases p with
    | nil => exact not_divides_nil _ _ _
    | cons first rest =>
      rintro ⟨-, leaf, map⟩
      by_cases same : "node" = first
      · subst same
        cases leaf
      · rw [namedNode, get?_tail same] at map
        cases map
  obtain ⟨units, again, brackets, room, sums⟩ := merge_laws
  obtain ⟨left, -, twice⟩ := units namedNode node
  exact ⟨left, twice, again labelledPod addressedPod pod,
    brackets labelledPod addressedPod namedNode pod node whole,
    room labelledPod addressedPod (by decide) (by decide),
    sums (.start [("doc", labelledPod), ("other", addressedPod)]) "doc" "other" "copy" (by decide)
      (by decide) (by decide)⟩

-- A null between two maps: the name in the first map is lost or kept.
example :
    get? (merge (merge namedPod [("pod", .null)]) [("pod", .object [])]) ["pod", "name"] = none ∧
      merge namedPod (merge [("pod", .null)] [("pod", .object [])]) = namedPod := by decide

end Document

end ClusterMetadata
