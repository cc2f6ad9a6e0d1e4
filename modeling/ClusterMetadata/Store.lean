import ClusterMetadata.Resource.Basic
import ClusterMetadata.Json.Writer

/-! Stores of resources under keys, where the last one written under a key stays. -/
namespace ClusterMetadata

/-- How a store makes the key of a resource: of its name, or of its name with the namespace in
front. -/
inductive KeyScheme where
  | name
  | spaceAndName
deriving DecidableEq, Repr

def spacedKey (space name : Text) : Text :=
  if space = "" then name else space ++ Text.ofString "/" ++ name

def KeyScheme.key (scheme : KeyScheme) (r : Resource) : Except Fault Text :=
  match scheme with
  | .name => r.name
  | .spaceAndName => do
    let space ← r.space
    return spacedKey space (← r.name)

def KeyScheme.entry (scheme : KeyScheme) (object : Option Resource) :
    Except Fault (Text × Resource) := do
  let r ← Resource.required object
  return (← scheme.key r, r)

structure Store where
  scheme : KeyScheme := .name
  objects : Table Text Resource := []

namespace Store

def empty (scheme : KeyScheme) : Store := ⟨scheme, []⟩

/-- A write to a store. An object that is not a resource is given as nothing. -/
inductive Change where
  | add (object : Option Resource)
  | delete (object : Option Resource)
  | replace (objects : List (Option Resource))

/-- Carries out a write, and gives back the store that is there afterwards. Keys come first: when an
object is not a resource or has no key, the write is refused. -/
def write (s : Store) : Change → Except Fault Unit × Store
  | .add object =>
    match s.scheme.entry object with
    | .error fault => (.error fault, s)
    | .ok (key, r) => (.ok (), { s with objects := Table.insert s.objects key r })
  | .delete object =>
    match s.scheme.entry object with
    | .error fault => (.error fault, s)
    | .ok (key, _) => (.ok (), { s with objects := Table.erase s.objects key })
  | .replace objects =>
    match objects.mapM s.scheme.entry with
    | .error fault => (.error fault, s)
    | .ok entries => (.ok (), { s with objects := Table.ofEntries entries })

/-- The store after a write, unless it is refused. -/
def change (s : Store) (w : Change) : Except Fault Store := (s.write w).1.map fun _ => (s.write w).2

def add (s : Store) (r : Resource) : Except Fault Store := s.change (.add (some r))

/-- A store with the given resources only; of resources with one key the last stays. -/
def replace (s : Store) (rs : List Resource) : Except Fault Store := s.change (.replace (rs.map some))

def get? (s : Store) (key : Text) : Option Resource := Table.get? s.objects key

/-- The keys in ascending order. -/
def keys (s : Store) : List Text := (Table.keys s.objects).mergeSort Text.le

def size (s : Store) : Nat := s.objects.length

end Store

/-- What is under a key, if it is of the kind asked for. Without a store, and for the empty key,
there is nothing. -/
def lookup (store : Option Store) (key : Text) (kind : Option Kind) : Option Resource := do
  let s ← store
  if key = "" then none
  else
    let r ← s.get? key
    match kind with
    | none => some r
    | some k => if r.kind = k then some r else none

end ClusterMetadata
