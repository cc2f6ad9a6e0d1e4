/-! Finite maps that remember the order in which their keys arrived.

A table is a list of entries; only the first entry of a key is seen. `insert` keeps the place of a
key that is already there and puts a new key last, so a table built by `insert` holds each key
once. The main statements read every operation through `get?`, and say that a table built from
entries has no key twice. -/
namespace ClusterMetadata

/-- Entries in order of arrival, seen through `Table.get?`. -/
abbrev Table (κ ν : Type) := List (κ × ν)

namespace Table

variable {κ ν : Type} [DecidableEq κ]

def get? : Table κ ν → κ → Option ν
  | [], _ => none
  | (k, v) :: rest, key => if k = key then some v else get? rest key

def contains (t : Table κ ν) (key : κ) : Bool := (get? t key).isSome

/-- Writes a value under a key: in its place when the key is there, at the end when it is new. -/
def insert : Table κ ν → κ → ν → Table κ ν
  | [], key, value => [(key, value)]
  | (k, v) :: rest, key, value =>
    if k = key then (k, value) :: rest else (k, v) :: insert rest key value

def erase : Table κ ν → κ → Table κ ν
  | [], _ => []
  | (k, v) :: rest, key => if k = key then erase rest key else (k, v) :: erase rest key

/-- The keys in order of arrival. -/
def keys (t : Table κ ν) : List κ := t.map Prod.fst

/-- Inserts the entries one after the other, so the last value of a repeated key stays. -/
def ofEntries (entries : List (κ × ν)) : Table κ ν :=
  entries.foldl (fun t entry => insert t entry.1 entry.2) []

/-- Each key has one entry. -/
def Distinct (t : Table κ ν) : Prop := (keys t).Nodup

@[simp] theorem get?_nil (key : κ) : get? ([] : Table κ ν) key = none := rfl

theorem get?_insert (t : Table κ ν) (key other : κ) (value : ν) :
    get? (insert t key value) other = if key = other then some value else get? t other := by
  induction t with
  | nil => simp [insert, get?]
  | cons entry rest ih =>
    obtain ⟨k, v⟩ := entry
    by_cases hk : k = key <;> by_cases ho : k = other <;> simp_all [insert, get?]
    grind

@[simp] theorem get?_insert_self (t : Table κ ν) (key : κ) (value : ν) :
    get? (insert t key value) key = some value := by simp [get?_insert]

theorem get?_erase (t : Table κ ν) (key other : κ) :
    get? (erase t key) other = if key = other then none else get? t other := by
  induction t with
  | nil => simp [erase, get?]
  | cons entry rest ih =>
    obtain ⟨k, v⟩ := entry
    by_cases hk : k = key <;> by_cases ho : k = other <;> simp_all [erase, get?]
    grind

theorem contains_insert (t : Table κ ν) (key other : κ) (value : ν) :
    contains (insert t key value) other = (decide (key = other) || contains t other) := by
  by_cases h : key = other <;> simp [contains, get?_insert, h]

theorem mem_keys_insert (t : Table κ ν) (key other : κ) (value : ν) :
    other ∈ keys (insert t key value) ↔ other = key ∨ other ∈ keys t := by
  induction t with
  | nil => simp [insert, keys]
  | cons entry rest ih =>
    obtain ⟨k, v⟩ := entry
    by_cases hk : k = key
    · simp [insert, keys, hk]
    · simp only [insert, if_neg hk, keys, List.map_cons, List.mem_cons] at ih ⊢
      rw [ih]
      exact or_left_comm

/-- Writing what is there changes nothing. -/
theorem insert_get? {t : Table κ ν} {key : κ} {value : ν} (h : get? t key = some value) :
    insert t key value = t := by
  induction t with
  | nil => cases h
  | cons entry rest ih =>
    obtain ⟨k, v⟩ := entry
    by_cases hk : k = key
    · simp only [get?, hk, if_pos, Option.some.injEq] at h
      simp [insert, hk, h]
    · simp only [get?, if_neg hk] at h
      simp only [insert, if_neg hk, ih h]

theorem distinct_insert {t : Table κ ν} (h : Distinct t) (key : κ) (value : ν) :
    Distinct (insert t key value) := by
  induction t with
  | nil => simp [Distinct, insert, keys]
  | cons entry rest ih =>
    obtain ⟨k, v⟩ := entry
    have hrest := List.nodup_cons.mp h
    by_cases hk : k = key
    · simpa [insert, hk, Distinct, keys] using h
    · simp only [insert, if_neg hk]
      refine List.nodup_cons.mpr ⟨?_, ih hrest.2⟩
      intro hmem
      rcases (mem_keys_insert rest key k value).mp hmem with heq | hold
      · exact hk heq
      · exact hrest.1 hold

theorem mem_keys_erase (t : Table κ ν) (key other : κ) :
    other ∈ keys (erase t key) ↔ other ≠ key ∧ other ∈ keys t := by
  induction t with
  | nil => simp [erase, keys]
  | cons entry rest ih =>
    obtain ⟨k, v⟩ := entry
    by_cases hk : k = key
    · have same : keys ((k, v) :: rest) = k :: keys rest := rfl
      rw [erase, if_pos hk, ih, same, List.mem_cons, hk]
      constructor
      · exact fun h => ⟨h.1, Or.inr h.2⟩
      · exact fun h => ⟨h.1, h.2.resolve_left h.1⟩
    · simp only [erase, if_neg hk, keys, List.map_cons, List.mem_cons] at ih ⊢
      rw [ih]
      constructor
      · rintro (rfl | h)
        · exact ⟨hk, Or.inl rfl⟩
        · exact ⟨h.1, Or.inr h.2⟩
      · rintro ⟨hne, rfl | h⟩
        · exact Or.inl rfl
        · exact Or.inr ⟨hne, h⟩

theorem distinct_erase {t : Table κ ν} (h : Distinct t) (key : κ) : Distinct (erase t key) := by
  induction t with
  | nil => exact h
  | cons entry rest ih =>
    obtain ⟨k, v⟩ := entry
    have hrest := List.nodup_cons.mp h
    by_cases hk : k = key
    · simpa [erase, hk] using ih hrest.2
    · simp only [erase, if_neg hk]
      refine List.nodup_cons.mpr ⟨?_, ih hrest.2⟩
      exact fun hmem => hrest.1 ((mem_keys_erase rest key k).mp hmem).2

theorem mem_of_get? {t : Table κ ν} {key : κ} {value : ν} (h : get? t key = some value) :
    (key, value) ∈ t := by
  induction t with
  | nil => cases h
  | cons entry rest ih =>
    obtain ⟨k, v⟩ := entry
    by_cases hk : k = key
    · simp only [get?, hk, if_pos, Option.some.injEq] at h
      simp [hk, h]
    · simp only [get?, if_neg hk] at h
      exact List.mem_cons_of_mem _ (ih h)

theorem get?_of_mem {t : Table κ ν} (distinct : Distinct t) {key : κ} {value : ν}
    (h : (key, value) ∈ t) : get? t key = some value := by
  induction t with
  | nil => cases h
  | cons entry rest ih =>
    obtain ⟨k, v⟩ := entry
    have hrest := List.nodup_cons.mp distinct
    rcases List.mem_cons.mp h with same | later
    · cases same
      simp [get?]
    · have apart : k ≠ key := by
        rintro rfl
        exact hrest.1 (List.mem_map.mpr ⟨_, later, rfl⟩)
      rw [get?, if_neg apart]
      exact ih hrest.2 later

theorem mem_keys_iff (t : Table κ ν) (key : κ) : key ∈ keys t ↔ (get? t key).isSome := by
  induction t with
  | nil => simp [keys]
  | cons entry rest ih =>
    obtain ⟨k, v⟩ := entry
    by_cases hk : k = key
    · simp [keys, get?, hk]
    · simp only [keys, List.map_cons, List.mem_cons, get?, if_neg hk] at ih ⊢
      rw [← ih]
      exact or_iff_right (Ne.symm hk)

theorem mem_insert {t : Table κ ν} {key : κ} {value : ν} {entry : κ × ν}
    (h : entry ∈ insert t key value) : entry = (key, value) ∨ entry ∈ t := by
  induction t with
  | nil => exact .inl (List.mem_singleton.mp h)
  | cons other rest ih =>
    obtain ⟨k, v⟩ := other
    by_cases hk : k = key
    · rw [insert, if_pos hk] at h
      rcases List.mem_cons.mp h with same | later
      · exact .inl (by rw [same, hk])
      · exact .inr (List.mem_cons_of_mem _ later)
    · rw [insert, if_neg hk] at h
      rcases List.mem_cons.mp h with same | later
      · exact .inr (by rw [same]; exact List.mem_cons_self)
      · exact (ih later).imp_right (List.mem_cons_of_mem _)

/-- A key that is new is put last. -/
theorem insert_of_none {t : Table κ ν} {key : κ} (h : get? t key = none) (value : ν) :
    insert t key value = t ++ [(key, value)] := by
  induction t with
  | nil => rfl
  | cons entry rest ih =>
    obtain ⟨k, v⟩ := entry
    by_cases hk : k = key
    · simp [get?, hk] at h
    · rw [get?, if_neg hk] at h
      rw [insert, if_neg hk, ih h, List.cons_append]

/-- The first key of a table without repeated keys does not come again. -/
theorem get?_of_distinct_cons {rest : Table κ ν} {key : κ} {value : ν}
    (distinct : Distinct ((key, value) :: rest)) : get? rest key = none := by
  cases found : get? rest key with
  | none => rfl
  | some w =>
    exact absurd ((mem_keys_iff rest key).mpr (by simp [found])) (List.nodup_cons.mp distinct).1

/-- Of two tables of which one is written over the other, the one on top decides. -/
theorem get?_foldl_insert {top : Table κ ν} (distinct : Distinct top) (base : Table κ ν) (key : κ) :
    get? (top.foldl (fun t entry => insert t entry.1 entry.2) base) key =
      (get? top key).or (get? base key) := by
  induction top generalizing base with
  | nil => rfl
  | cons entry rest ih =>
    obtain ⟨k, v⟩ := entry
    have hrest := List.nodup_cons.mp distinct
    rw [List.foldl_cons, ih hrest.2, get?_insert, get?]
    by_cases hk : k = key
    · subst hk
      simp [get?_of_distinct_cons distinct]
    · simp [hk]

/-- Whatever entries a table is built from, each key has one entry. -/
theorem distinct_ofEntries (entries : List (κ × ν)) : Distinct (ofEntries entries) :=
  List.foldlRecOn entries _ (by simp [Distinct, keys]) fun _ h entry _ =>
    distinct_insert h entry.1 entry.2

end Table

end ClusterMetadata
