import ClusterMetadata.Generator.Basic

/-!
# A store after any writes

A store is written to again and again: resources are added or deleted under their keys, or all of
them are replaced, and a write with an object that is no resource or has no key is refused. What the
store holds is told by the writes read backwards, without a store.

* `Change.effect`: what one write leaves under a key, if it has to do with the key;
* `lastWritten`: what the last such write left there;
* `get?_run`: the store holds under every key what was last written there;
* `Mirrors`: the same of the ways to look into a store, and of generators that look names up in it.
-/
namespace ClusterMetadata

/-- The entry that an object makes; nothing for what is not a resource or has no key. -/
def KeyScheme.entryOf? (scheme : KeyScheme) (object : Option Resource) : Option (Text × Resource) :=
  object.bind fun r => (scheme.key r).toOption.map (·, r)

theorem KeyScheme.entryOf?_eq_some {scheme : KeyScheme} {object : Option Resource} {key : Text}
    {r : Resource} :
    scheme.entryOf? object = some (key, r) ↔ object = some r ∧ scheme.key r = .ok key := by
  cases object with
  | none => simp [entryOf?]
  | some r' =>
    cases h : scheme.key r' <;> simp [entryOf?, h, Except.toOption] <;> grind

namespace Table

variable {κ ν : Type} [DecidableEq κ]

/-- In a table made of entries a key has its last value. -/
theorem get?_ofEntries (entries : List (κ × ν)) (key : κ) :
    get? (ofEntries entries) key =
      (entries.reverse.find? fun entry => entry.1 = key).map Prod.snd := by
  rw [ofEntries, ← List.foldr_reverse]
  induction entries.reverse with
  | nil => rfl
  | cons entry rest ih =>
    rw [List.foldr_cons, get?_insert, ih, List.find?_cons]
    by_cases same : entry.1 = key <;> simp [same]

end Table

namespace Store

namespace Change

def objects : Change → List (Option Resource)
  | add object | delete object => [object]
  | replace objects => objects

/-- What a write leaves under a key: a resource or nothing. None when it leaves the key alone, as a
refused write does. -/
def effect (scheme : KeyScheme) (key : Text) : Change → Option (Option Resource)
  | add object => (scheme.entryOf? object).bind fun entry =>
    if entry.1 = key then some (some entry.2) else none
  | delete object => (scheme.entryOf? object).bind fun entry =>
    if entry.1 = key then some none else none
  | replace objects => (objects.mapM scheme.entryOf?).map fun entries =>
    (entries.reverse.find? fun entry => entry.1 = key).map Prod.snd

end Change

def after (s : Store) (w : Change) : Store := (s.write w).2

def run (s : Store) (ws : List Change) : Store := ws.foldl after s

def lastWritten (scheme : KeyScheme) (ws : List Change) (key : Text) : Option Resource :=
  (ws.reverse.findSome? (Change.effect scheme key)).join

/-! ## One write -/

theorem toOption_entry (scheme : KeyScheme) (object : Option Resource) :
    (scheme.entry object).toOption = scheme.entryOf? object := by
  cases object with
  | none => rfl
  | some r =>
    change (do return (← scheme.key r, r) : Except Fault (Text × Resource)).toOption =
      (scheme.key r).toOption.map (·, r)
    cases scheme.key r <;> rfl

theorem toOption_mapM_entry (scheme : KeyScheme) (objects : List (Option Resource)) :
    (objects.mapM scheme.entry).toOption = objects.mapM scheme.entryOf? := by
  induction objects with
  | nil => rfl
  | cons object rest ih =>
    rw [List.mapM_cons, List.mapM_cons, ← toOption_entry, ← ih]
    cases scheme.entry object with
    | error fault => rfl
    | ok entry => cases rest.mapM scheme.entry <;> rfl

theorem of_toOption {α : Type} {x : Except Fault α} {o : Option α} (h : x.toOption = o) :
    (∃ fault, x = .error fault ∧ o = none) ∨ ∃ a, x = .ok a ∧ o = some a := by
  cases x with
  | error fault => exact .inl ⟨fault, rfl, h.symm⟩
  | ok a => exact .inr ⟨a, rfl, h.symm⟩

/-- Each entry has the key of its resource. -/
theorem key_of_mem_entries {scheme : KeyScheme} {objects : List (Option Resource)}
    {entries : List (Text × Resource)} (h : objects.mapM scheme.entryOf? = some entries)
    {entry : Text × Resource} (mem : entry ∈ entries) : scheme.key entry.2 = .ok entry.1 := by
  induction objects generalizing entries with
  | nil =>
    cases h
    cases mem
  | cons object rest ih =>
    rw [List.mapM_cons] at h
    obtain ⟨first, own, h⟩ := Option.bind_eq_some_iff.mp h
    obtain ⟨more, others, h⟩ := Option.bind_eq_some_iff.mp h
    cases h
    rcases List.mem_cons.mp mem with rfl | later
    · exact (KeyScheme.entryOf?_eq_some.mp own).2
    · exact ih others later

theorem mapM_entryOf?_eq_none {scheme : KeyScheme} {objects : List (Option Resource)}
    (h : objects.mapM scheme.entryOf? = none) :
    ∃ object ∈ objects, scheme.entryOf? object = none := by
  induction objects with
  | nil => cases h
  | cons object rest ih =>
    cases first : scheme.entryOf? object with
    | none => exact ⟨object, List.mem_cons_self, first⟩
    | some entry =>
      rw [List.mapM_cons, first] at h
      cases others : rest.mapM scheme.entryOf? with
      | none =>
        obtain ⟨object, mem, unfit⟩ := ih others
        exact ⟨object, List.mem_cons_of_mem _ mem, unfit⟩
      | some entries =>
        rw [others] at h
        cases h

theorem mapM_entryOf?_of_mem {scheme : KeyScheme} {objects : List (Option Resource)}
    {object : Option Resource} (mem : object ∈ objects) (unfit : scheme.entryOf? object = none) :
    objects.mapM scheme.entryOf? = none := by
  induction objects with
  | nil => cases mem
  | cons first rest ih =>
    rw [List.mapM_cons]
    rcases List.mem_cons.mp mem with rfl | later
    · rw [unfit]
      rfl
    · rw [ih later]
      cases scheme.entryOf? first <;> rfl

/-- What a write does to a store: it is carried out, or one of its objects makes no entry and
nothing happens. -/
inductive Step (s : Store) : Change → Store → Prop where
  | added {object : Option Resource} {key : Text} {r : Resource}
    (entry : s.scheme.entryOf? object = some (key, r)) :
    Step s (.add object) { s with objects := Table.insert s.objects key r }
  | deleted {object : Option Resource} {key : Text} {r : Resource}
    (entry : s.scheme.entryOf? object = some (key, r)) :
    Step s (.delete object) { s with objects := Table.erase s.objects key }
  | replaced {objects : List (Option Resource)} {entries : List (Text × Resource)}
    (all : objects.mapM s.scheme.entryOf? = some entries) :
    Step s (.replace objects) { s with objects := Table.ofEntries entries }
  | refused {w : Change} {object : Option Resource} (mem : object ∈ w.objects)
    (unfit : s.scheme.entryOf? object = none) : Step s w s

variable (s : Store)

/-- A write is refused for one of its objects and nothing happens, or all of them make entries and
it is carried out. -/
theorem write_cases (w : Change) :
    ((∃ fault, s.write w = (.error fault, s)) ∧
        ∃ object ∈ w.objects, s.scheme.entryOf? object = none) ∨
      ∃ s', s.write w = (.ok (), s') ∧ s.Step w s' ∧
        ∀ object ∈ w.objects, s.scheme.entryOf? object ≠ none := by
  have single {object : Option Resource} {entry : Text × Resource}
      (made : s.scheme.entryOf? object = some entry) (other : Option Resource)
      (mem : other ∈ [object]) : s.scheme.entryOf? other ≠ none := by
    rw [List.mem_singleton.mp mem, made]
    exact Option.some_ne_none entry
  cases w with
  | add object =>
    rw [write]
    rcases of_toOption (toOption_entry s.scheme object) with
      ⟨fault, failed, unfit⟩ | ⟨entry, made, there⟩
    · rw [failed]
      exact .inl ⟨⟨fault, rfl⟩, object, List.mem_cons_self, unfit⟩
    · rw [made]
      exact .inr ⟨_, rfl, .added there, single there⟩
  | delete object =>
    rw [write]
    rcases of_toOption (toOption_entry s.scheme object) with
      ⟨fault, failed, unfit⟩ | ⟨entry, made, there⟩
    · rw [failed]
      exact .inl ⟨⟨fault, rfl⟩, object, List.mem_cons_self, unfit⟩
    · rw [made]
      exact .inr ⟨_, rfl, .deleted there, single there⟩
  | replace objects =>
    rw [write]
    rcases of_toOption (toOption_mapM_entry s.scheme objects) with
      ⟨fault, failed, unfit⟩ | ⟨entries, made, there⟩
    · rw [failed]
      exact .inl ⟨⟨fault, rfl⟩, mapM_entryOf?_eq_none unfit⟩
    · rw [made]
      refine .inr ⟨_, rfl, .replaced there, fun object mem unfit => ?_⟩
      have among : object ∈ objects := mem
      rw [mapM_entryOf?_of_mem among unfit] at there
      cases there

theorem write_fault_iff (w : Change) :
    (∃ fault, (s.write w).1 = .error fault) ↔
      ∃ object ∈ w.objects, s.scheme.entryOf? object = none := by
  rcases s.write_cases w with ⟨⟨fault, refused⟩, unfit⟩ | ⟨s', done, -, fit⟩
  · exact ⟨fun _ => unfit, fun _ => ⟨fault, congrArg Prod.fst refused⟩⟩
  · rw [done]
    exact ⟨nofun, fun ⟨object, mem, unfit⟩ => absurd unfit (fit object mem)⟩

theorem after_of_fault {s : Store} {w : Change} {fault : Fault}
    (failed : (s.write w).1 = .error fault) : s.after w = s := by
  rcases s.write_cases w with ⟨⟨_, refused⟩, -⟩ | ⟨s', done, -⟩
  · exact congrArg Prod.snd refused
  · rw [done] at failed
    cases failed

theorem step_after (w : Change) : s.Step w (s.after w) := by
  rw [after]
  rcases s.write_cases w with ⟨⟨fault, refused⟩, object, mem, unfit⟩ | ⟨s', done, step, -⟩
  · rw [refused]
    exact .refused mem unfit
  · rw [done]
    exact step

namespace Step

variable {s s' : Store} {w : Change}

theorem scheme (h : s.Step w s') : s'.scheme = s.scheme := by
  cases h <;> rfl

/-- A write leaves under a key what it puts there, and what was there when it leaves the key
alone. -/
theorem get? (h : s.Step w s') (key : Text) :
    s'.get? key = (w.effect s.scheme key).getD (s.get? key) := by
  cases h with
  | added entry =>
    rw [Store.get?, Table.get?_insert, Change.effect, entry, Option.bind_some]
    split <;> rfl
  | deleted entry =>
    rw [Store.get?, Table.get?_erase, Change.effect, entry, Option.bind_some]
    split <;> rfl
  | replaced all =>
    rw [Store.get?, Table.get?_ofEntries, Change.effect, all]
    rfl
  | @refused w object mem unfit =>
    have alone : w.effect s.scheme key = none := by
      cases w with
      | add object =>
        obtain rfl := List.mem_singleton.mp mem
        rw [Change.effect, unfit, Option.bind_none]
      | delete object =>
        obtain rfl := List.mem_singleton.mp mem
        rw [Change.effect, unfit, Option.bind_none]
      | replace objects =>
        have among : object ∈ objects := mem
        rw [Change.effect, mapM_entryOf?_of_mem among unfit, Option.map_none]
    rw [alone, Option.getD_none]

end Step

/-! ## Many writes -/

/-- Each key of a store has one resource, and it is the resource's own key. -/
structure Keyed (s : Store) : Prop where
  distinct : Table.Distinct s.objects
  own : ∀ key r, s.get? key = some r → s.scheme.key r = .ok key

theorem keyed_empty (scheme : KeyScheme) : (empty scheme).Keyed where
  distinct := by simp [empty, Table.Distinct, Table.keys]
  own _ _ found := by cases found

theorem Step.keyed {s s' : Store} {w : Change} (h : s.Step w s') (keyed : s.Keyed) : s'.Keyed := by
  cases h with
  | @added object key r entry =>
    refine ⟨Table.distinct_insert keyed.distinct _ _, fun other found at_ => ?_⟩
    rw [Store.get?, Table.get?_insert] at at_
    split at at_
    · next same =>
      cases at_
      rw [← same]
      exact (KeyScheme.entryOf?_eq_some.mp entry).2
    · exact keyed.own other found at_
  | @deleted object key r entry =>
    refine ⟨Table.distinct_erase keyed.distinct _, fun other found at_ => ?_⟩
    rw [Store.get?, Table.get?_erase] at at_
    split at at_
    · cases at_
    · exact keyed.own other found at_
  | @replaced objects entries all =>
    refine ⟨Table.distinct_ofEntries entries, fun other found at_ => ?_⟩
    rw [Store.get?, Table.get?_ofEntries] at at_
    obtain ⟨entry, last, rfl⟩ := Option.map_eq_some_iff.mp at_
    have same : entry.1 = other := by simpa using List.find?_some last
    have mem : entry ∈ entries := List.mem_reverse.mp (List.mem_of_find?_eq_some last)
    rw [← same]
    exact key_of_mem_entries all mem
  | refused => exact keyed

theorem scheme_run (ws : List Change) : (s.run ws).scheme = s.scheme := by
  induction ws generalizing s with
  | nil => rfl
  | cons w ws ih => exact (ih (s.after w)).trans (s.step_after w).scheme

theorem keyed_run {s : Store} (keyed : s.Keyed) (ws : List Change) : (s.run ws).Keyed :=
  List.foldlRecOn ws after keyed fun s keyed w _ => (s.step_after w).keyed keyed

/-- Under every key a store holds what the last write that had to do with the key left there, and
what it held before when there was no such write. -/
theorem get?_run (ws : List Change) (key : Text) :
    (s.run ws).get? key =
      (ws.reverse.findSome? (Change.effect s.scheme key)).getD (s.get? key) := by
  induction ws generalizing s with
  | nil => rfl
  | cons w ws ih =>
    have step := s.step_after w
    rw [run, List.foldl_cons, ← run, ih, step.scheme, step.get?, List.reverse_cons,
      List.findSome?_append]
    cases ws.reverse.findSome? (Change.effect s.scheme key) with
    | some left => rfl
    | none => simp

/-! ## Looking into the store -/

theorem lookup_eq_some {s : Store} {key : Text} {kind : Option Kind} {r : Resource} :
    lookup (some s) key kind = some r ↔
      key ≠ "" ∧ s.get? key = some r ∧ ∀ k ∈ kind, r.kind = k := by
  rw [lookup, Option.bind_eq_bind, Option.bind_some]
  by_cases blank : key = ""
  · simp [blank]
  · rw [if_neg blank, Option.bind_eq_bind, Option.bind_eq_some_iff]
    cases kind with
    | none => simp [blank]
    | some k =>
      constructor
      · rintro ⟨found, there, fits⟩
        have fits : (if found.kind = k then some found else none) = some r := fits
        split at fits
        · next same =>
          cases fits
          exact ⟨blank, there, fun k' mem => same.trans (Option.mem_some.mp mem)⟩
        · cases fits
      · rintro ⟨-, there, fits⟩
        exact ⟨r, there, if_pos (fits k rfl)⟩

/-- A resource of another kind has no document, so it does not matter that the look-up of a name
leaves it out. -/
theorem native_stored {g : Generator} {s : Store} (store : g.store = some s) {name : Text}
    (named : name ≠ "") (options : List FieldOption) :
    g.native (g.stored name) options = g.native (s.get? name) options := by
  have draft : g.draft (g.stored name) options = g.draft (s.get? name) options := by
    rw [Generator.stored, store]
    cases found : s.get? name with
    | none =>
      have absent : lookup (some s) name (some g.kind) = none := by
        simp [lookup, named, found]
      rw [absent]
    | some r =>
      by_cases fits : r.kind = g.kind
      · have there : lookup (some s) name (some g.kind) = some r :=
          lookup_eq_some.mpr ⟨named, found, fun k mem => fits.trans (Option.mem_some.mp mem)⟩
        rw [there]
      · have absent : lookup (some s) name (some g.kind) = none := by
          simp [lookup, named, found, fits]
        rw [absent, Generator.draft, Generator.draft, if_neg fits]
  rw [Generator.native, Generator.native, draft]

/-- A store is the map of what was last written under each key, in every way to look into it, and a
generator that has the store answers names from the map. Writes are refused when one of their
objects makes no entry, and then leave the store alone. -/
structure Mirrors (scheme : KeyScheme) (ws : List Change) (s : Store) : Prop where
  refuses : ∀ w, (∃ fault, (s.write w).1 = .error fault) ↔
    ∃ object ∈ w.objects, scheme.entryOf? object = none
  untouched : ∀ w fault, (s.write w).1 = .error fault → (s.write w).2 = s
  holds : ∀ key, s.get? key = lastWritten scheme ws key
  own : ∀ key r, s.get? key = some r → scheme.key r = .ok key
  ascending : s.keys.Pairwise Text.Before
  listed : ∀ key, key ∈ s.keys ↔ (s.get? key).isSome
  counted : s.size = s.keys.length
  looked : ∀ key kind r, lookup (some s) key kind = some r ↔
    key ≠ "" ∧ s.get? key = some r ∧ ∀ k ∈ kind, r.kind = k
  answered : ∀ g : Generator, g.store = some s → ∀ name options,
    g.fromName name options =
      g.native (if name = "" then none else lastWritten scheme ws name) options

/-- Whatever is written to a store from the start on, and whichever writes are refused, the store
is the map of what was last written under each key. -/
theorem mirrors_run (scheme : KeyScheme) (ws : List Change) :
    Mirrors scheme ws ((empty scheme).run ws) := by
  have made : ((empty scheme).run ws).scheme = scheme := scheme_run _ ws
  have keyed : ((empty scheme).run ws).Keyed := keyed_run (keyed_empty scheme) ws
  have holds (key : Text) : ((empty scheme).run ws).get? key = lastWritten scheme ws key := by
    rw [get?_run, lastWritten]
    show (ws.reverse.findSome? (Change.effect scheme key)).getD none = _
    cases ws.reverse.findSome? (Change.effect scheme key) <;> rfl
  generalize (empty scheme).run ws = s at made keyed holds
  subst made
  exact {
    refuses := s.write_fault_iff
    untouched := fun _ _ => after_of_fault
    holds := holds
    own := keyed.own
    ascending := Text.pairwise_before_mergeSort keyed.distinct
    listed := fun key => by rw [keys, List.mem_mergeSort, Table.mem_keys_iff, get?]
    counted := by rw [size, keys, List.length_mergeSort, Table.keys, List.length_map]
    looked := fun _ _ _ => lookup_eq_some
    answered := fun g store name options => by
      rw [Generator.fromName]
      split
      · next blank =>
        rw [Generator.stored, store, blank]
        rfl
      · next named => rw [native_stored store named, holds] }

end Store

end ClusterMetadata
