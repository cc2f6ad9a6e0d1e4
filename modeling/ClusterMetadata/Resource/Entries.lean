import ClusterMetadata.Json.Value
import ClusterMetadata.Fault

/-! The entries of a label or annotation map.

A map is meant to be an object, but a list of pairs is taken as well; there a key may be any value
that is not a list or an object, and numbers that are equal are one key. -/
namespace ClusterMetadata

open Json (Value Fields)

/-- Keys with values in order of arrival, each key once. -/
abbrev Entries := List (Value × Value)

namespace Entries

/-- The whole number a value is equal to, if its form alone settles that. -/
def integer? : Value → Option Int
  | .bool b => some (if b then 1 else 0)
  | .int n => some n
  | _ => none

/-- Whether two values are one key: true is the number one, and a whole number in either form is
the same key. -/
def sameKey (a b : Value) : Bool :=
  match integer? a, integer? b with
  | some m, some n => m == n
  | some m, none => match b with
    | .float y => y.isInteger m
    | _ => false
  | none, some n => match a with
    | .float x => x.isInteger n
    | _ => false
  | none, none => match a, b with
    | .null, .null => true
    | .string x, .string y => x == y
    | .float x, .float y => x.sameNumber y
    | _, _ => false

/-- Writes an entry; an equal key that is there keeps its place and its form. -/
def insert : Entries → Value → Value → Entries
  | [], key, value => [(key, value)]
  | (k, v) :: rest, key, value =>
    if sameKey k key then (k, value) :: rest else (k, v) :: insert rest key value

def signs (t : Text) : List Value := t.points.map fun point => .string ⟨[point]⟩

/-- The parts of a value that stands for a pair: the items of a list, the characters of a string,
the keys of an object. -/
def parts? : Value → Option (List Value)
  | .array items => some items
  | .string s => some (signs s)
  | .object fields => some (fields.map fun field => .string field.1)
  | _ => none

/-- Adds the pairs of a list, the first of them at an index. -/
def addPairs (entries : Entries) : Nat → List Value → Except Fault Entries
  | _, [] => .ok entries
  | index, item :: rest =>
    match parts? item with
    | none => .error .noEntries
    | some [.array _, _] | some [.object _, _] => .error .unhashableKey
    | some [key, value] => addPairs (insert entries key value) (index + 1) rest
    | some parts => .error (.notAPair index parts.length)

/-- The entries of a value: none of a blank one, the fields of an object, the pairs of a list. -/
def ofValue (v : Value) : Except Fault Entries :=
  if v.isBlank then .ok []
  else match v with
    | .object fields => .ok (fields.map fun field => (.string field.1, field.2))
    | .array items => addPairs [] 0 items
    | .string s => addPairs [] 0 (signs s)
    | _ => .error .noEntries

def textKey? : Value × Value → Option (Text × Value)
  | (.string key, value) => some (key, value)
  | _ => none

def textFields (entries : Entries) : Fields := entries.filterMap textKey?

def isNumber : Value → Bool
  | .bool _ | .int _ | .float _ => true
  | _ => false

/-- The entries as fields. Keys that are not text are refused: two keys without an order between
them when they are to be sorted, others when a name is made of them. -/
def named (entries : Entries) : Except Fault Fields :=
  if entries.all fun entry => (textKey? entry).isSome then .ok (textFields entries)
  else if entries.length < 2 ∨ entries.all (fun entry => isNumber entry.1) then .error .nonTextKey
  else .error .unorderedKeys

end Entries

end ClusterMetadata
