import ClusterMetadata.Proofs.Histories
import ClusterMetadata.Proofs.StoreHistories

/-!
# Keys with the namespace in front

A store can be keyed by the namespace and the name, with a slash between them, or by the name alone
where there is no namespace. Where namespaces and names have no slash themselves, no two full names
have one key, so no resource takes the place of another but of an earlier one of its own full name.

* `FullName`, `Resource.fullName`: the namespace and the name of a resource;
* `FullName.key_inj`: a key made of parts without a slash tells the full name;
* `KeepsLast`: a store that holds the last resource of each full name and nothing else, with
  `KeepsLast.add` for one resource more and `keepsLast_adds` for any number;
* `replace_eq_adds`: replacing everything is adding one after the other to an empty store, refusals
  included;
* `keeps_names_apart`: what a store holds after either.
-/
namespace ClusterMetadata

/-- A namespace and a name; the namespace is empty for what has none. -/
structure FullName where
  space : Text
  name : Text
deriving DecidableEq

namespace FullName

def key (n : FullName) : Text := spacedKey n.space n.name

/-- Neither the namespace nor the name has a slash. -/
def Plain (n : FullName) : Prop :=
  CodePoint.ofChar '/' ∉ n.space.points ∧ CodePoint.ofChar '/' ∉ n.name.points

instance (n : FullName) : Decidable n.Plain :=
  inferInstanceAs (Decidable
    (CodePoint.ofChar '/' ∉ n.space.points ∧ CodePoint.ofChar '/' ∉ n.name.points))

theorem key_of_shared (name : Text) : (FullName.mk "" name).key = name := by
  rw [key, spacedKey, if_pos rfl]

theorem points_key {space : Text} (inside : space ≠ "") (name : Text) :
    (FullName.mk space name).key.points = space.points ++ .ofChar '/' :: name.points := by
  rw [key, spacedKey, if_neg inside]
  show space.points ++ (Text.ofString "/").points ++ name.points = _
  simp [Text.ofString, Text.ofChars]

theorem slash_mem_key {space : Text} (inside : space ≠ "") (name : Text) :
    CodePoint.ofChar '/' ∈ (FullName.mk space name).key.points := by
  simp [points_key inside]

theorem key_inj {n m : FullName} (plain : n.Plain) (plain' : m.Plain) :
    n.key = m.key ↔ n = m := by
  refine ⟨?_, congrArg key⟩
  obtain ⟨space, name⟩ := n
  obtain ⟨space', name'⟩ := m
  intro same
  -- a key has a slash exactly when there is a namespace
  by_cases shared : space = "" <;> by_cases shared' : space' = ""
  · subst shared shared'
    rw [key_of_shared, key_of_shared] at same
    rw [same]
  · subst shared
    rw [key_of_shared] at same
    exact absurd (same ▸ slash_mem_key shared' name') plain.2
  · subst shared'
    rw [key_of_shared] at same
    exact absurd (same ▸ slash_mem_key shared name) plain'.2
  · have points := congrArg Text.points same
    rw [points_key shared, points_key shared',
      List.append_cons_inj_of_notMem plain.1 plain.2] at points
    obtain ⟨spaces, -, names⟩ := points
    exact congrArg₂ FullName.mk (congrArg Text.mk spaces) (congrArg Text.mk names)

end FullName

namespace Resource

def fullName (r : Resource) : Except Fault FullName := do
  return ⟨← r.space, ← r.name⟩

def goesBy (r : Resource) (n : FullName) : Bool := r.fullName.toOption = some n

theorem fullName_eq_ok {r : Resource} {n : FullName} :
    r.fullName = .ok n ↔ r.space = .ok n.space ∧ r.name = .ok n.name := by
  obtain ⟨space, name⟩ := n
  unfold fullName
  cases r.space with
  | error fault => simp [bind, Except.bind]
  | ok s => cases r.name <;> simp [bind, Except.bind, pure, Except.pure]

theorem goesBy_iff {r : Resource} {n : FullName} : r.goesBy n ↔ r.fullName = .ok n := by
  unfold goesBy
  cases r.fullName <;> simp [Except.toOption]

theorem key_of_fullName {r : Resource} {n : FullName} (own : r.fullName = .ok n) :
    KeyScheme.spaceAndName.key r = .ok n.key := by
  obtain ⟨home, named⟩ := fullName_eq_ok.mp own
  rw [KeyScheme.key, home, named]
  rfl

end Resource

/-- The last of some resources that has a full name. -/
def lastNamed (rs : List Resource) (n : FullName) : Option Resource :=
  rs.reverse.find? (·.goesBy n)

def fullNames (rs : List Resource) : List FullName := rs.filterMap fun r => r.fullName.toOption

theorem isSome_lastNamed {rs : List Resource} {n : FullName} :
    (lastNamed rs n).isSome ↔ n ∈ fullNames rs := by
  simp only [lastNamed, List.find?_isSome, List.mem_reverse, fullNames, List.mem_filterMap,
    Resource.goesBy, decide_eq_true_eq]

theorem lastNamed_append (rs : List Resource) {r : Resource} {n : FullName}
    (own : r.fullName = .ok n) (m : FullName) :
    lastNamed (rs ++ [r]) m = if n = m then some r else lastNamed rs m := by
  have goes : r.goesBy m = decide (n = m) := by
    rw [Bool.eq_iff_iff, Resource.goesBy_iff, own, Except.ok.injEq, decide_eq_true_iff]
  rw [lastNamed, lastNamed, find?_reverse_append, goes]
  simp only [decide_eq_true_eq]

namespace Store

/-! ## Adding one after the other -/

/-- Under the key of each full name stands the last of some resources that has it, and nothing else
stands in the store. -/
structure KeepsLast (rs : List Resource) (s : Store) : Prop where
  scheme : s.scheme = .spaceAndName
  last : ∀ n : FullName, n.Plain → s.get? n.key = lastNamed rs n
  size : s.size = (fullNames rs).toFinset.card

theorem keepsLast_empty : KeepsLast [] (empty .spaceAndName) where
  scheme := rfl
  last _ _ := rfl
  size := rfl

theorem add_of_key {s : Store} {r : Resource} {key : Text} (keyed : s.scheme.key r = .ok key) :
    s.add r = .ok { s with objects := Table.insert s.objects key r } := by
  have entry : s.scheme.entry (some r) = .ok (key, r) := by
    change (do return (← s.scheme.key r, r) : Except Fault (Text × Resource)) = _
    rw [keyed]
    rfl
  rw [Store.add, change, write, entry]
  rfl

theorem KeepsLast.add {rs : List Resource} {s : Store} (keeps : KeepsLast rs s) {r : Resource}
    {n : FullName} (own : r.fullName = .ok n) (plain : n.Plain) :
    ∃ t, s.add r = .ok t ∧ KeepsLast (rs ++ [r]) t := by
  have keyed : s.scheme.key r = .ok n.key := by
    rw [keeps.scheme]
    exact Resource.key_of_fullName own
  refine ⟨_, add_of_key keyed, keeps.scheme, ?_, ?_⟩
  · intro m plain'
    rw [lastNamed_append rs own, ← keeps.last m plain']
    show Table.get? (Table.insert s.objects n.key r) m.key = _
    rw [Table.get?_insert]
    simp only [FullName.key_inj plain plain']
    rfl
  · have names : fullNames (rs ++ [r]) = fullNames rs ++ [n] := by
      simp [fullNames, own, Except.toOption]
    have there : (Table.get? s.objects n.key).isSome ↔ n ∈ fullNames rs := by
      rw [← isSome_lastNamed, ← keeps.last n plain]
      rfl
    rw [names, card_append_singleton, ← keeps.size]
    show (Table.insert s.objects n.key r).length = _
    rw [Table.length_insert]
    simp only [there]
    rfl

theorem keepsLast_adds {done rs : List Resource} {s : Store} (keeps : KeepsLast done s)
    (plain : ∀ r ∈ rs, ∃ n, r.fullName = .ok n ∧ n.Plain) :
    ∃ t, rs.foldlM add s = .ok t ∧ KeepsLast (done ++ rs) t := by
  induction rs generalizing done s with
  | nil => exact ⟨s, rfl, by rwa [List.append_nil]⟩
  | cons r rest ih =>
    obtain ⟨⟨n, own, free⟩, others⟩ := List.forall_mem_cons.mp plain
    obtain ⟨next, added, keeps⟩ := keeps.add own free
    obtain ⟨t, after, keeps⟩ := ih keeps others
    refine ⟨t, ?_, by simpa using keeps⟩
    rw [List.foldlM_cons, added]
    exact after

/-! ## Replacing everything -/

theorem replace_eq_adds (s : Store) (rs : List Resource) :
    s.replace rs = rs.foldlM add (empty s.scheme) := by
  have adds (t : Store) : rs.foldlM add t = ((rs.map some).mapM t.scheme.entry).map fun entries =>
      { t with objects :=
        entries.foldl (fun objects entry => Table.insert objects entry.1 entry.2) t.objects } := by
    induction rs generalizing t with
    | nil => rfl
    | cons r rest ih =>
      rw [List.foldlM_cons, List.map_cons, List.mapM_cons, add, change, write]
      cases t.scheme.entry (some r) with
      | error fault => rfl
      | ok entry =>
        show rest.foldlM add _ = _
        rw [ih]
        -- the keys of the rest do not depend on what was written
        show ((rest.map some).mapM t.scheme.entry).map _ = _
        cases (rest.map some).mapM t.scheme.entry <;> rfl
  rw [adds, replace, change, write]
  show _ = ((rs.map some).mapM s.scheme.entry).map _
  cases (rs.map some).mapM s.scheme.entry <;> rfl

/-- Resources whose namespaces and names have no slash are all taken, whether they are added one
after the other to an empty store or put in the place of what another store holds. The store then
has as many resources as there are different full names, and under the key of each the last resource
that has it. -/
theorem keeps_names_apart {rs : List Resource}
    (plain : ∀ r ∈ rs, ∃ n, r.fullName = .ok n ∧ n.Plain) :
    ∃ s, rs.foldlM add (empty .spaceAndName) = .ok s ∧
      (∀ old : Store, old.scheme = .spaceAndName → old.replace rs = .ok s) ∧
      s.size = (fullNames rs).toFinset.card ∧
      (∀ r ∈ rs, ∃ n last, r.fullName = .ok n ∧ KeyScheme.spaceAndName.key r = .ok n.key ∧
        lastNamed rs n = some last ∧ s.get? n.key = some last) ∧
      ∀ n : FullName, n.Plain → n ∉ fullNames rs → s.get? n.key = none := by
  obtain ⟨s, added, keeps⟩ := keepsLast_adds keepsLast_empty plain
  rw [List.nil_append] at keeps
  refine ⟨s, added, ?_, keeps.size, ?_, ?_⟩
  · intro old scheme
    rw [replace_eq_adds, scheme, added]
  · intro r mem
    obtain ⟨n, own, free⟩ := plain r mem
    have listed : n ∈ fullNames rs := List.mem_filterMap.mpr ⟨r, mem, by rw [own]; rfl⟩
    obtain ⟨last, found⟩ := Option.isSome_iff_exists.mp (isSome_lastNamed.mpr listed)
    exact ⟨n, last, own, Resource.key_of_fullName own, found, (keeps.last n free).trans found⟩
  · intro n free absent
    rw [keeps.last n free, ← Option.not_isSome_iff_eq_none, isSome_lastNamed]
    exact absent

def named (kind : Kind) (space name : Text) : Resource where
  kind := kind
  manifest := .object
    [("metadata", .object [("namespace", .string space), ("name", .string name)])]

def neighbours : List Resource :=
  [named .node "" "web", named .pod "prod" "web", named .pod "" "web", named .job "prod" "web",
    named .pod "web" ""]

theorem keeps_names_apart_neighbours :
    (∀ r ∈ neighbours, ∃ n, r.fullName = .ok n ∧ n.Plain) ∧
      ∃ s, neighbours.foldlM add (empty .spaceAndName) = .ok s ∧
        replace ⟨.spaceAndName, [("prod", named .pod "" "prod")]⟩ neighbours = .ok s ∧
        s.size = 3 ∧ s.get? "web" = some (named .pod "" "web") ∧
        s.get? "prod/web" = some (named .job "prod" "web") ∧
        s.get? "web/" = some (named .pod "web" "") ∧ s.get? "prod" = none := by
  have plain : ∀ r ∈ neighbours, ∃ n, r.fullName = .ok n ∧ n.Plain := by
    simp only [neighbours, List.forall_mem_cons]
    exact ⟨⟨_, rfl, by decide⟩, ⟨_, rfl, by decide⟩, ⟨_, rfl, by decide⟩, ⟨_, rfl, by decide⟩,
      ⟨_, rfl, by decide⟩, List.forall_mem_nil _⟩
  obtain ⟨s, added, replaced, size, last, absent⟩ := keeps_names_apart plain
  have found {r : Resource} (mem : r ∈ neighbours) {n : FullName} (own : r.fullName = .ok n) :
      s.get? n.key = lastNamed neighbours n := by
    obtain ⟨m, r', own', -, final, there⟩ := last r mem
    obtain rfl : m = n := Except.ok.inj (own'.symm.trans own)
    exact there.trans final.symm
  refine ⟨plain, s, added, replaced _ rfl, size.trans (by decide), ?_, ?_, ?_, ?_⟩
  · exact found (r := named .pod "" "web") (by decide) (n := ⟨"", "web"⟩) rfl
  · exact found (r := named .pod "prod" "web") (by decide) (n := ⟨"prod", "web"⟩) rfl
  · exact found (r := named .pod "web" "") (by decide) (n := ⟨"web", ""⟩) rfl
  · exact absent ⟨"", "prod"⟩ (by decide) (by decide)

end Store

end ClusterMetadata
