import ClusterMetadata.Projector
import ClusterMetadata.Proofs.ProperValues

/-!
# What an orchestrator document says

An orchestrator document is made of texts that are written at paths of which none leads to another.

* `Apart`: of two paths neither goes on from the other;
* `get?_put_of_apart`, `leaf_put`: what a write leaves elsewhere;
* `Tells`: a document has texts at their paths, as long as they are not empty, and no other leaf;
* `orchestrator_tells`: so it is for the orchestrator document of a resource.
-/
namespace ClusterMetadata

open Json (Value Fields)

/-- Whether there is something inside a value: an object without fields is a leaf. -/
def Json.Value.branches : Value → Bool
  | .object (_ :: _) => true
  | _ => false

/-- Neither of two paths goes on from the other. -/
def Path.Apart (p q : Path) : Prop := ¬ p <+: q ∧ ¬ q <+: p

instance (p q : Path) : Decidable (p.Apart q) := inferInstanceAs (Decidable (_ ∧ _))

theorem Path.Apart.symm {p q : Path} (h : p.Apart q) : q.Apart p := ⟨h.2, h.1⟩

/-- Below one name paths are as they are without it. -/
theorem Path.apart_cons {name : Text} {p q : Path} (h : Apart (name :: p) (name :: q)) :
    p.Apart q :=
  ⟨fun k => h.1 (List.cons_prefix_cons.mpr ⟨rfl, k⟩),
    fun k => h.2 (List.cons_prefix_cons.mpr ⟨rfl, k⟩)⟩

namespace Table

variable {κ ν : Type} [DecidableEq κ]

theorem insert_ne_nil (t : Table κ ν) (key : κ) (value : ν) : insert t key value ≠ [] := by
  cases t with
  | nil => exact List.cons_ne_nil _ _
  | cons entry rest =>
    rw [insert]
    split <;> exact List.cons_ne_nil _ _

/-- A key that comes later in a table without repeated keys has not come before. -/
theorem get?_of_distinct_append {t rest : Table κ ν} {key : κ} {value : ν}
    (distinct : Distinct (t ++ (key, value) :: rest)) : get? t key = none := by
  have apart : key ∉ keys t := by
    intro mem
    rw [Distinct, keys, List.map_append, List.nodup_append] at distinct
    exact distinct.2.2 key mem key List.mem_cons_self rfl
  rw [mem_keys_iff] at apart
  exact Option.not_isSome_iff_eq_none.mp apart

end Table

namespace Document

theorem insert_branches (d : Document) (name : Text) (v : Value) :
    (Value.object (Table.insert d name v)).branches = true := by
  obtain ⟨field, rest, fields⟩ := List.exists_cons_of_ne_nil (Table.insert_ne_nil d name v)
  rw [fields]
  rfl

/-- What stands at a path with more than one name stands in the map under the first. -/
theorem get?_below (d : Document) (name next : Text) (rest : Path) :
    get? (below d name) (next :: rest) = get? d (name :: next :: rest) := by
  rw [get?_cons d, below]
  cases Table.get? d name with
  | none => rfl
  | some w => cases w <;> rfl

/-! ## One write -/

/-- A write leaves alone what stands at a path apart from its own. -/
theorem get?_put_of_apart {d : Document} {p q : Path} (h : p.Apart q) (v : Value) :
    get? (put d p v) q = get? d q := by
  fun_induction put d p v generalizing q with
  | case1 => rfl
  | case2 d name v =>
    cases q with
    | nil => exact absurd List.nil_prefix h.2
    | cons other more =>
      have differ : name ≠ other := by
        rintro rfl
        exact h.1 (by simp)
      rw [get?_cons, get?_cons, Table.get?_insert, if_neg differ]
  | case3 d name v next rest ih =>
    cases q with
    | nil => exact absurd List.nil_prefix h.2
    | cons other more =>
      by_cases same : name = other
      · subst same
        have apart := Path.apart_cons h
        obtain ⟨second, more, rfl⟩ : ∃ second rest, more = second :: rest := by
          cases more with
          | nil => exact absurd List.nil_prefix apart.2
          | cons second more => exact ⟨second, more, rfl⟩
        rw [get?_cons, Table.get?_insert_self, Option.bind_some, ← get?, ih apart, get?_below]
      · rw [get?_cons, get?_cons, Table.get?_insert, if_neg same]

/-- On the way to what is put there are maps with fields. -/
theorem get?_put_branches {d : Document} {p q : Path} (on : q <+: p) (before : p ≠ q) (v : Value)
    {w : Value} (found : get? (put d p v) q = some w) : w.branches = true := by
  fun_induction put d p v generalizing q with
  | case1 => exact absurd (List.prefix_nil.mp on).symm before
  | case2 d name v =>
    cases q with
    | nil =>
      cases found
      exact insert_branches d name v
    | cons other more =>
      obtain ⟨rfl, tail⟩ := List.cons_prefix_cons.mp on
      rw [List.prefix_nil.mp tail] at before
      exact absurd rfl before
  | case3 d name v next rest ih =>
    cases q with
    | nil =>
      cases found
      exact insert_branches d name _
    | cons other more =>
      obtain ⟨rfl, tail⟩ := List.cons_prefix_cons.mp on
      rw [get?_cons, Table.get?_insert_self] at found
      exact ih tail (fun same => before (by rw [same])) found

/-- The leaves after text is put at a path: the text, and those at paths apart. -/
theorem leaf_put {d : Document} {p : Path} (h : p ≠ []) {text : Text} {q : Path} {leaf : Value}
    (plain : leaf.branches = false) (found : get? (put d p (.string text)) q = some leaf) :
    (q = p ∧ leaf = .string text) ∨ (p.Apart q ∧ get? d q = some leaf) := by
  by_cases beyond : p <+: q
  · obtain ⟨rest, rfl⟩ := beyond
    rw [get?, Value.at?_append, ← get?, get?_put d h, Option.bind_some] at found
    cases rest with
    | nil =>
      cases found
      exact .inl ⟨List.append_nil p, rfl⟩
    | cons name rest => cases found
  · by_cases on : q <+: p
    · have differ : p ≠ q := fun same => beyond (same ▸ List.prefix_refl p)
      rw [get?_put_branches on differ _ found] at plain
      cases plain
    · rw [get?_put_of_apart ⟨beyond, on⟩] at found
      exact .inr ⟨⟨beyond, on⟩, found⟩

/-! ## Writing texts -/

/-- Writes texts at their paths, but for those that are empty. -/
def putTexts (d : Document) (texts : List (Path × Text)) : Document :=
  texts.foldl (fun d entry => d.putText entry.1 entry.2) d

/-- The paths lead somewhere, and none of them goes on from another. -/
structure Spread (texts : List (Path × Text)) : Prop where
  apart : texts.Pairwise fun entry entry' => entry.1.Apart entry'.1
  rooted : ∀ entry ∈ texts, entry.1 ≠ []

theorem Spread.tail {entry : Path × Text} {rest : List (Path × Text)}
    (h : Spread (entry :: rest)) : Spread rest :=
  ⟨h.apart.of_cons, fun entry mem => h.rooted entry (List.mem_cons_of_mem _ mem)⟩

theorem Spread.head {entry : Path × Text} {rest : List (Path × Text)}
    (h : Spread (entry :: rest)) : ∀ entry' ∈ rest, entry.1.Apart entry'.1 :=
  (List.pairwise_cons.mp h.apart).1

theorem get?_putText_of_apart {d : Document} {p q : Path} (h : p.Apart q) (text : Text) :
    get? (putText d p text) q = get? d q := by
  rw [putText]
  split
  · rfl
  · exact get?_put_of_apart h _

/-- Where none of the texts is written, everything stays. -/
theorem get?_putTexts_of_apart {texts : List (Path × Text)} {q : Path}
    (apart : ∀ entry ∈ texts, entry.1.Apart q) (d : Document) :
    get? (putTexts d texts) q = get? d q := by
  induction texts generalizing d with
  | nil => rfl
  | cons entry rest ih =>
    rw [putTexts, List.foldl_cons, ← putTexts,
      ih fun entry mem => apart entry (List.mem_cons_of_mem _ mem)]
    exact get?_putText_of_apart (apart entry List.mem_cons_self) entry.2

/-- Each of the texts stands at its path, if it is not empty. -/
theorem get?_putTexts {texts : List (Path × Text)} (spread : Spread texts) {entry : Path × Text}
    (mem : entry ∈ texts) {d : Document} (clear : get? d entry.1 = none) :
    get? (putTexts d texts) entry.1 =
      if entry.2 = "" then none else some (.string entry.2) := by
  induction texts generalizing d with
  | nil => cases mem
  | cons first rest ih =>
    rw [putTexts, List.foldl_cons, ← putTexts]
    rcases List.mem_cons.mp mem with rfl | later
    · rw [get?_putTexts_of_apart fun entry' mem' => (spread.head entry' mem').symm, putText]
      split
      · exact clear
      · exact get?_put d (spread.rooted _ List.mem_cons_self) _
    · refine ih spread.tail later ?_
      rw [get?_putText_of_apart (spread.head entry later), clear]

/-- The leaves after texts are written are texts that are not empty, or stood there before. -/
theorem leaf_putTexts {texts : List (Path × Text)} (rooted : ∀ entry ∈ texts, entry.1 ≠ [])
    {d : Document} {q : Path} {leaf : Value} (plain : leaf.branches = false)
    (found : get? (putTexts d texts) q = some leaf) :
    (∃ entry ∈ texts, entry.2 ≠ "" ∧ q = entry.1 ∧ leaf = .string entry.2) ∨
      (get? d q = some leaf ∧ ∀ entry ∈ texts, entry.2 ≠ "" → entry.1.Apart q) := by
  induction texts generalizing d with
  | nil => exact .inr ⟨found, fun entry mem => absurd mem List.not_mem_nil⟩
  | cons entry rest ih =>
    rw [putTexts, List.foldl_cons, ← putTexts] at found
    rcases ih (fun entry mem => rooted entry (List.mem_cons_of_mem _ mem)) found with
      ⟨entry', mem, text⟩ | ⟨there, apart⟩
    · exact .inl ⟨entry', List.mem_cons_of_mem _ mem, text⟩
    · rw [putText] at there
      split at there
      · next blank =>
        refine .inr ⟨there, fun entry' mem full => ?_⟩
        rcases List.mem_cons.mp mem with rfl | later
        · exact absurd blank full
        · exact apart entry' later full
      · next full =>
        rcases leaf_put (rooted _ List.mem_cons_self) plain there with
          ⟨here, text⟩ | ⟨aside, there⟩
        · exact .inl ⟨entry, List.mem_cons_self, full, here, text⟩
        · refine .inr ⟨there, fun entry' mem full' => ?_⟩
          rcases List.mem_cons.mp mem with rfl | later
          · exact aside
          · exact apart entry' later full'

/-- A document has each of the texts at its path, if it is not empty, and no other leaf. -/
structure Tells (texts : List (Path × Text)) (d : Document) : Prop where
  told : ∀ entry ∈ texts, get? d entry.1 = if entry.2 = "" then none else some (.string entry.2)
  only : ∀ path leaf, get? d path = some leaf → leaf.branches = false →
    ∃ entry ∈ texts, entry.2 ≠ "" ∧ path = entry.1 ∧ leaf = .string entry.2

/-- Texts of which one is not empty, written from the start, are all that a document tells. -/
theorem tells_putTexts {texts : List (Path × Text)} (spread : Spread texts)
    (some_ : ∃ entry ∈ texts, entry.2 ≠ "") : Tells texts (putTexts [] texts) where
  told entry mem := by
    refine get?_putTexts spread mem ?_
    obtain ⟨name, rest, path⟩ := List.exists_cons_of_ne_nil (spread.rooted entry mem)
    rw [path]
    rfl
  only path leaf found plain := by
    rcases leaf_putTexts spread.rooted plain found with told | ⟨there, apart⟩
    · exact told
    · obtain ⟨entry, mem, full⟩ := some_
      cases path with
      | nil => exact absurd List.nil_prefix (apart entry mem full).2
      | cons name rest => cases there

/-! ## Copying -/

theorem proper_below {d : Document} (proper : (Value.object d).Proper) (name : Text) :
    (Value.object (below d name)).Proper := by
  rw [below]
  split
  · next fields there => exact Json.proper_of_get? proper.2 there
  · exact Value.proper_empty

theorem proper_put {d : Document} (proper : (Value.object d).Proper) (path : Path) {v : Value}
    (own : v.Proper) : (Value.object (put d path v)).Proper := by
  fun_induction put d path v with
  | case1 => exact proper
  | case2 d name v => exact proper.insert name own
  | case3 d name v next rest ih => exact proper.insert name (ih (proper_below proper name) own)

theorem proper_putTexts (texts : List (Path × Text)) :
    (Value.object (putTexts [] texts)).Proper := by
  refine List.foldlRecOn (motive := fun d => (Value.object d).Proper) texts _ ?_ ?_
  · exact Value.proper_empty
  · intro d proper entry _
    rw [putText]
    split
    · exact proper
    · exact proper_put proper _ trivial

mutual
/-- What is merged over nothing is copied. -/
theorem mergeOver_none : (v : Value) → v.Proper → mergeOver none v = v
  | .object fields, proper => congrArg Value.object (mergeFields_fresh [] fields proper.1 proper.2)
  | .null, _ | .bool _, _ | .int _, _ | .float _, _ | .string _, _ | .array _, _ => rfl
termination_by structural v => v

/-- Fields that a document does not have are copied behind its own. -/
theorem mergeFields_fresh (d : Document) : (fields : List (Text × Value)) →
    Table.Distinct (d ++ fields) → Json.ProperFields fields → mergeFields d fields = d ++ fields
  | [], _, _ => (List.append_nil d).symm
  | (name, v) :: rest, distinct, proper => by
    have fresh : Table.get? d name = none := Table.get?_of_distinct_append distinct
    have after : Table.Distinct ((d ++ [(name, v)]) ++ rest) := by simpa using distinct
    have copied := mergeFields_fresh (d ++ [(name, v)]) rest after proper.2
    rw [mergeFields, fresh, mergeOver_none v proper.1, Table.insert_of_none fresh, copied,
      List.append_assoc, List.singleton_append]
termination_by structural fields => fields
end

/-! ## Below a name -/

def under (name : Text) (d : Document) : Document :=
  if d.isEmpty then [] else [(name, .object d)]

theorem under_insert (name : Text) (d : Document) (first : Text) (v : Value) :
    under name (Table.insert d first v) = [(name, .object (Table.insert d first v))] := by
  obtain ⟨field, rest, fields⟩ := List.exists_cons_of_ne_nil (Table.insert_ne_nil d first v)
  rw [fields]
  rfl

/-- Writing below the name is writing into the document. -/
theorem putText_under (name : Text) (d : Document) {path : Path} (h : path ≠ []) (text : Text) :
    (under name d).putText (name :: path) text = under name (d.putText path text) := by
  rw [putText, putText]
  split
  · rfl
  · obtain ⟨next, rest, rfl⟩ := List.exists_cons_of_ne_nil h
    have inside : below (under name d) name = d := by
      cases d with
      | nil => rfl
      | cons field rest => simp [below, under, Table.get?]
    have alone (v : Value) : Table.insert (under name d) name v = [(name, v)] := by
      cases d with
      | nil => rfl
      | cons field rest => simp [under, Table.insert]
    rw [put, inside, alone]
    cases rest <;> rw [put, under_insert]

end Document

namespace Projector

/-- What the orchestrator document of a resource says, by path below `orchestrator`. -/
def texts (p : Projector) (kind : Kind) (name uid space : Text) : List (Path × Text) :=
  [(["cluster", "url"], p.cluster.url), (["cluster", "name"], p.cluster.name),
    (["type"], "kubernetes"), (["resource", "type"], kind.field), (["resource", "name"], name),
    (["resource", "id"], uid), (["namespace"], space)]

theorem spread_texts (p : Projector) (kind : Kind) (name uid space : Text) :
    Document.Spread (p.texts kind name uid space) := by
  have paths : ([["cluster", "url"], ["cluster", "name"], ["type"], ["resource", "type"],
      ["resource", "name"], ["resource", "id"], ["namespace"]] : List Path).Pairwise Path.Apart := by
    decide
  constructor
  · rw [← List.pairwise_map]
    exact paths
  · simp [texts]

open Document (under putTexts putText_under Tells)

/-- The orchestrator document of a resource is made of its texts. -/
theorem orchestrator_eq (p : Projector) (r : Resource) :
    p.orchestrator (some r) = (do
      let name ← r.name
      let uid ← r.uid
      let space ← r.space
      return under "orchestrator" (putTexts [] (p.texts r.kind name uid space))) := by
  have below (d : Document) (first : Text) (rest : Path) (text : Text) :
      (under "orchestrator" d).putText ("orchestrator" :: first :: rest) text =
        under "orchestrator" (d.putText (first :: rest) text) :=
    putText_under _ d (List.cons_ne_nil _ _) text
  have cluster : p.clusterDocument = under "orchestrator" (putTexts []
      [(["cluster", "url"], p.cluster.url), (["cluster", "name"], p.cluster.name)]) := by
    have start : ([] : Document) = under "orchestrator" [] := rfl
    rw [clusterDocument, start, below, below]
    rfl
  rw [orchestrator, cluster]
  cases r.name with
  | error fault => rfl
  | ok name =>
    cases r.uid with
    | error fault => rfl
    | ok uid =>
      cases r.space with
      | error fault => rfl
      | ok space =>
        refine congrArg Except.ok ?_
        rw [below, below, below, below, below]
        rfl

/-- An orchestrator document of a resource has one field, and tells the texts of the projector and
the resource in it. -/
theorem orchestrator_tells {p : Projector} {r : Resource} {doc : Document}
    (made : p.orchestrator (some r) = .ok doc) :
    ∃ name uid space o, r.name = .ok name ∧ r.uid = .ok uid ∧ r.space = .ok space ∧
      doc = [(Text.ofString "orchestrator", .object o)] ∧ (Value.object o).Proper ∧
      Tells (p.texts r.kind name uid space) o := by
  rw [orchestrator_eq] at made
  obtain ⟨name, named, made⟩ := Json.bind_eq_ok.mp made
  obtain ⟨uid, known, made⟩ := Json.bind_eq_ok.mp made
  obtain ⟨space, home, made⟩ := Json.bind_eq_ok.mp made
  cases made
  have tells : Tells (p.texts r.kind name uid space)
      (putTexts [] (p.texts r.kind name uid space)) :=
    Document.tells_putTexts (p.spread_texts r.kind name uid space)
      ⟨(["type"], "kubernetes"), by simp [texts], by decide⟩
  refine ⟨name, uid, space, _, named, known, home, ?_, Document.proper_putTexts _, tells⟩
  have typed := tells.told (["type"], "kubernetes") (by simp [texts])
  rw [under]
  split
  · next empty =>
    rw [List.isEmpty_iff.mp empty] at typed
    cases typed
  · rfl

end Projector

end ClusterMetadata
