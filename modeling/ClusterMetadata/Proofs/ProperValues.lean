import ClusterMetadata.Json.Reader

/-!
# Values without repeated keys

A value that is read from a text holds no object in which a key comes twice.

* `Value.Proper`: no key comes twice, at any depth;
* `proper_parse`: what is read is proper.
-/
namespace ClusterMetadata.Json

mutual
/-- No object in a value has a key twice. -/
def Value.Proper : Value → Prop
  | .object fields => Table.Distinct fields ∧ ProperFields fields
  | .array items => ProperItems items
  | _ => True
termination_by structural v => v

def ProperItems : List Value → Prop
  | [] => True
  | v :: rest => Value.Proper v ∧ ProperItems rest
termination_by structural items => items

def ProperFields : List (Text × Value) → Prop
  | [] => True
  | (_, v) :: rest => Value.Proper v ∧ ProperFields rest
termination_by structural fields => fields
end

mutual
def Value.decideProper : (v : Value) → Decidable v.Proper
  | .object fields =>
    @instDecidableAnd _ _ (inferInstanceAs (Decidable (Table.keys fields).Nodup))
      (decideFields fields)
  | .array items => decideItems items
  | .null | .bool _ | .int _ | .float _ | .string _ => .isTrue trivial
termination_by structural v => v

def decideItems : (items : List Value) → Decidable (ProperItems items)
  | [] => .isTrue trivial
  | v :: rest => @instDecidableAnd _ _ (Value.decideProper v) (decideItems rest)
termination_by structural items => items

def decideFields : (fields : List (Text × Value)) → Decidable (ProperFields fields)
  | [] => .isTrue trivial
  | (_, v) :: rest => @instDecidableAnd _ _ (Value.decideProper v) (decideFields rest)
termination_by structural fields => fields
end

instance (v : Value) : Decidable v.Proper := v.decideProper

theorem properItems_iff {items : List Value} : ProperItems items ↔ ∀ v ∈ items, v.Proper := by
  induction items with
  | nil => simp [ProperItems]
  | cons v rest ih => simp [ProperItems, ih]

theorem properFields_iff {fields : List (Text × Value)} :
    ProperFields fields ↔ ∀ field ∈ fields, field.2.Proper := by
  induction fields with
  | nil => simp [ProperFields]
  | cons field rest ih => simp [ProperFields, ih]

theorem proper_of_get? {fields : Fields} (h : ProperFields fields) {name : Text} {v : Value}
    (found : Table.get? fields name = some v) : v.Proper :=
  properFields_iff.mp h _ (Table.mem_of_get? found)

theorem properFields_insert {fields : Fields} (h : ProperFields fields) (key : Text) {v : Value}
    (proper : v.Proper) : ProperFields (Table.insert fields key v) := by
  induction fields with
  | nil => exact ⟨proper, trivial⟩
  | cons field rest ih =>
    obtain ⟨k, w⟩ := field
    rw [Table.insert]
    split
    · exact ⟨proper, h.2⟩
    · exact ⟨h.1, ih h.2⟩

theorem Value.proper_empty : (Value.object []).Proper := ⟨List.nodup_nil, trivial⟩

theorem Value.Proper.insert {fields : Fields} (h : (Value.object fields).Proper) (key : Text)
    {v : Value} (own : v.Proper) : (Value.object (Table.insert fields key v)).Proper :=
  ⟨Table.distinct_insert h.1 key v, properFields_insert h.2 key own⟩

/-! ## What is read -/

theorem proper_readNumber {negative : Bool} {start cs rest : List Char} {v : Value}
    (h : readNumber negative start cs = .ok (v, rest)) : v.Proper := by
  unfold readNumber at h
  split at h
  · cases h
  · dsimp only at h
    split at h
    · split at h
      · cases h
      · cases h
        trivial
    · cases h
      trivial

theorem proper_readScalar {cs rest : List Char} {v : Value}
    (h : readScalar cs = .ok (v, rest)) : v.Proper := by
  unfold readScalar at h
  split at h
  · next found word =>
    cases h
    unfold readWord? at word
    obtain ⟨⟨w, value⟩, mem, read⟩ := List.exists_of_findSome?_eq_some word
    obtain ⟨after, -, same⟩ := Option.map_eq_some_iff.mp read
    cases same
    simp only [wordValues, List.mem_cons, List.not_mem_nil, or_false, Prod.mk.injEq] at mem
    rcases mem with ⟨-, rfl⟩ | ⟨-, rfl⟩ | ⟨-, rfl⟩ | ⟨-, rfl⟩ | ⟨-, rfl⟩ | ⟨-, rfl⟩ <;> trivial
  · split at h
    · exact proper_readNumber h
    · exact proper_readNumber h

theorem bind_eq_ok {α β ε : Type} {x : Except ε α} {f : α → Except ε β} {b : β} :
    (x >>= f) = .ok b ↔ ∃ a, x = .ok a ∧ f a = .ok b := by
  cases x with
  | error e => exact ⟨nofun, nofun⟩
  | ok a => simp [bind, Except.bind]

/-- What all three readers give with so much fuel. -/
structure ReadsProper (fuel : Nat) : Prop where
  value : ∀ room cs v rest, readValue fuel room cs = .ok (v, rest) → v.Proper
  items : ∀ room taken cs v rest, ProperItems taken → readItems fuel room taken cs = .ok (v, rest) →
    v.Proper
  fields : ∀ room taken cs v rest, Table.Distinct taken → ProperFields taken →
    readFields fuel room taken cs = .ok (v, rest) → v.Proper

theorem readsProper (fuel : Nat) : ReadsProper fuel := by
  induction fuel with
  | zero => exact ⟨nofun, nofun, nofun⟩
  | succ fuel ih =>
    constructor
    · intro room cs v rest h
      unfold readValue at h
      split at h
      · obtain ⟨read, -, h⟩ := bind_eq_ok.mp h
        cases h
        trivial
      · split at h
        · cases h
        · cases h
          exact ⟨by simp [Table.Distinct, Table.keys], trivial⟩
        · exact ih.fields _ [] _ v rest (by simp [Table.Distinct, Table.keys]) trivial h
      · split at h
        · cases h
        · cases h
          trivial
        · exact ih.items _ [] _ v rest trivial h
      · exact proper_readScalar h
    · intro room taken cs v rest proper h
      unfold readItems at h
      obtain ⟨⟨item, left⟩, read, h⟩ := bind_eq_ok.mp h
      have more : ProperItems (item :: taken) := ⟨ih.value _ _ _ _ read, proper⟩
      dsimp only at h
      split at h
      · cases h
        refine properItems_iff.mpr fun w mem => ?_
        exact properItems_iff.mp more w (List.mem_reverse.mp mem)
      · exact ih.items _ _ _ v rest more h
      · cases h
    · intro room taken cs v rest distinct proper h
      unfold readFields at h
      split at h
      · obtain ⟨⟨key, left⟩, -, h⟩ := bind_eq_ok.mp h
        dsimp only at h
        split at h
        · obtain ⟨⟨item, left⟩, read, h⟩ := bind_eq_ok.mp h
          have distinct := Table.distinct_insert distinct key item
          have proper := properFields_insert proper key (ih.value _ _ _ _ read)
          dsimp only at h
          split at h
          · cases h
            exact ⟨distinct, proper⟩
          · exact ih.fields _ _ _ v rest distinct proper h
          · cases h
        · cases h
      · cases h

/-- What is read from a text has no key twice. -/
theorem proper_parse {s : String} {v : Value} (h : Value.parse s = .ok v) : v.Proper := by
  unfold Value.parse at h
  dsimp only at h
  split at h
  · next found read =>
    cases h
    unfold readDocument at read
    split at read
    · cases read
    · obtain ⟨⟨w, rest⟩, read, done⟩ := bind_eq_ok.mp read
      dsimp only at done
      split at done
      · cases done
        exact (readsProper _).value _ _ _ _ read
      · cases done
  all_goals cases h

end ClusterMetadata.Json
