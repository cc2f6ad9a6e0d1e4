import ClusterMetadata.Draft.Section

/-!
Drafts whose maps are all their own.

As long as nothing is shared, working on a draft is working on the document it shows:

* `put_ofFields`, `safePut_ofFields`, `adjustAll_ofFields`: writing and adjusting;
* `ofMap_of_plain`: a section of labels or annotations none of which is a map.
-/
namespace ClusterMetadata.Draft

open Json (Value Fields)

/-- A field of a draft of its own maps is the field of the document, as a node. -/
theorem get?_ofFields (d : Document) (name : Text) :
    Table.get? (ofFields d) name = (Table.get? d name).map Node.ofValue := by
  induction d with
  | nil => rfl
  | cons field rest ih =>
    obtain ⟨key, v⟩ := field
    by_cases h : key = name <;> simp [ofFields, Table.get?, h, ih]

theorem insert_ofFields (d : Document) (name : Text) (v : Value) :
    Table.insert (ofFields d) name (Node.ofValue v) = ofFields (Table.insert d name v) := by
  induction d with
  | nil => rfl
  | cons field rest ih =>
    obtain ⟨key, old⟩ := field
    by_cases h : key = name <;> simp [ofFields, Table.insert, h, ih]

theorem erase_ofFields (d : Document) (name : Text) :
    Table.erase (ofFields d) name = ofFields (Table.erase d name) := by
  induction d with
  | nil => rfl
  | cons field rest ih =>
    obtain ⟨key, old⟩ := field
    by_cases h : key = name <;> simp [ofFields, Table.erase, h, ih]

/-- Writing into a draft of its own maps is writing into the document it shows. -/
theorem put_ofFields (d : Document) (path : Path) (v : Value) :
    put (ofFields d) path (Node.ofValue v) = pure (ofFields (Document.put d path v)) := by
  fun_induction Document.put d path v with
  | case1 => rfl
  | case2 d name => rw [put, insert_ofFields]
  | case3 d name v next rest ih =>
    rw [put, within, get?_ofFields, ← insert_ofFields]
    simp only [Document.below] at ih ⊢
    cases hv : Table.get? d name with
    | none => simp_all [ofFields, Node.ofValue]
    | some w => cases w <;> simp_all [ofFields, Node.ofValue]

theorem safePut_ofFields (d : Document) (path : Path) (v : Value) :
    safePut (ofFields d) path (Node.ofValue v) = pure (ofFields (Document.safePut d path v)) := by
  fun_induction Document.safePut d path v with
  | case1 => rfl
  | case2 d name v =>
    rw [safePut, safePutHere, Document.safePutHere, get?_ofFields]
    cases hv : Table.get? d name with
    | none => simp [insert_ofFields]
    | some w =>
      cases w <;> cases v <;>
        simp [Node.ofValue, Node.isMap, Value.isObject, ← insert_ofFields, within,
          get?_ofFields, hv]
  | case3 d name v next rest ih =>
    rw [safePut, within, get?_ofFields, ← insert_ofFields]
    simp only [Document.opened] at ih ⊢
    cases hv : Table.get? d name with
    | none => simp_all [ofFields, Node.ofValue, opened]
    | some w => cases w <;> simp_all [ofFields, Node.ofValue, opened]

theorem nestSection_ofFields (under : Text) (d : Document) (name : Text) :
    nestSection under (ofFields d) name = pure (ofFields (d.nestSection under name)) := by
  rw [nestSection, Document.nestSection, get?_ofFields, erase_ofFields]
  cases hv : Table.get? d name with
  | none => rfl
  | some v => cases v <;> simp [Node.ofValue, ← safePut_ofFields]

/-- Adjusting a draft of its own maps is adjusting the document it shows. -/
theorem adjust_ofFields (d : Document) (option : FieldOption) :
    adjust (ofFields d) option = pure (ofFields (option.apply d)) := by
  cases option with
  | field key value => exact safePut_ofFields d (Path.ofKey key) value
  | nest under => simp [adjust, FieldOption.apply, movedSections, nestSection_ofFields]

theorem adjustAll_ofFields (options : List FieldOption) (d : Document) :
    adjustAll options (ofFields d) = pure (ofFields (FieldOption.applyAll options d)) := by
  induction options generalizing d with
  | nil => rfl
  | cons option rest ih =>
    rw [adjustAll, List.foldlM_cons, adjust_ofFields, LawfulMonad.pure_bind]
    exact ih (option.apply d)

/-- Where there is no map nothing is lent. -/
theorem lendAll_of_plain (lender : Lender) {entries : Fields}
    (plain : ∀ entry ∈ entries, entry.2.isObject = false) : lendAll lender entries = pure {} := by
  rw [lendAll, if_pos]
  simpa using plain

theorem addEntry_ofFields (dedot : Bool) (d : Document) (entry : Text × Value) :
    addEntry dedot (ofFields d) entry.1 (Node.ofValue entry.2) =
      pure (ofFields (d.addEntry dedot entry)) := by
  cases dedot with
  | true => simp [addEntry, Document.addEntry, insert_ofFields]
  | false => simp [addEntry, Document.addEntry, safePut_ofFields]

/-- Without loans the entries are written one after the other as into a document. -/
theorem ofEntries_empty (dedot : Bool) (entries : Fields) :
    ofEntries {} dedot entries =
      pure (ofFields (entries.foldl (Document.addEntry dedot) [])) := by
  have written (rest : Fields) (d : Document) :
      rest.foldlM (fun d entry => addEntry dedot d entry.1 (lentNode {} entry)) (ofFields d) =
        (pure (ofFields (rest.foldl (Document.addEntry dedot) d)) : OnShelf Draft) := by
    induction rest generalizing d with
    | nil => rfl
    | cons entry rest ih =>
      rw [List.foldlM_cons, lentNode, Std.HashMap.getElem?_empty, addEntry_ofFields,
        LawfulMonad.pure_bind]
      exact ih (d.addEntry dedot entry)
  exact written entries []

/-- The section of entries that are not maps is the one that a document has of them. -/
theorem ofMap_of_plain (lender : Lender) (dedot : Bool) (source : Fields)
    (plain : ∀ entry ∈ source, entry.2.isObject = false) :
    ofMap lender dedot source = pure (ofFields (Document.ofMap dedot source)) := by
  have sorted : ∀ entry ∈ Json.sortFields source, entry.2.isObject = false := fun entry mem =>
    plain entry (by simpa [Json.sortFields] using mem)
  rw [ofMap, lendAll_of_plain lender sorted, LawfulMonad.pure_bind, ofEntries_empty]
  rfl

end ClusterMetadata.Draft
