import ClusterMetadata.Json.Value
import ClusterMetadata.Decimal.Notation
import ClusterMetadata.Text.Join
import ClusterMetadata.Text.Quoted

/-! JSON text on one line: members apart by a comma and a space, everything outside plain ASCII
escaped. `lineOf` sorts the keys of every object by code point first, so values that differ in the
order of keys alone have one line. -/
namespace ClusterMetadata.Json

/-- Infinity and NaN as they are written in place of a number. -/
def jsonWords : Decimal.Words := ⟨"Infinity", "NaN"⟩

/-- The escape of one UTF-16 unit. -/
def unitEscape (n : Nat) : List Char := '\\' :: 'u' :: Text.hex 4 n

/-- One character of a JSON string; one beyond the basic plane takes two units. -/
def stringChar (c : Char) : List Char :=
  let n := c.toNat
  if c = '"' ∨ c = '\\' then ['\\', c]
  else if c = '\n' then ['\\', 'n']
  else if c = '\r' then ['\\', 'r']
  else if c = '\t' then ['\\', 't']
  else if n = 0x8 then ['\\', 'b']
  else if n = 0xc then ['\\', 'f']
  else if 0x20 ≤ n ∧ n ≤ 0x7e then [c]
  else if n < 0x10000 then unitEscape n
  else
    let high := 0xd800 + (n - 0x10000) / 0x400
    let low := 0xdc00 + (n - 0x10000) % 0x400
    unitEscape high ++ unitEscape low

def stringPoint (p : CodePoint) : List Char :=
  match p.char? with
  | some c => stringChar c
  | none => unitEscape p.number

def stringText (t : Text) : String :=
  String.ofList ('"' :: t.points.flatMap stringPoint ++ ['"'])

/-- Fields by ascending key. -/
def sortFields (fields : Fields) : Fields := fields.mergeSort fun a b => Text.le a.1 b.1

namespace Value

mutual
/-- JSON text with the keys in the order in which the value holds them. -/
def write : Value → String
  | null => "null"
  | bool b => if b then "true" else "false"
  | int n => toString n
  | float x => x.write jsonWords
  | string s => stringText s
  | array items => "[" ++ Text.commaJoin (writeItems items) ++ "]"
  | object fields => "\x7b" ++ Text.commaJoin (writeFields fields) ++ "\x7d"
termination_by structural v => v

def writeItems : List Value → List String
  | [] => []
  | v :: rest => write v :: writeItems rest
termination_by structural items => items

def writeFields : List (Text × Value) → List String
  | [] => []
  | (k, v) :: rest => (stringText k ++ ": " ++ write v) :: writeFields rest
termination_by structural fields => fields
end

mutual
/-- The same value with the keys of every object in ascending order. -/
def sorted : Value → Value
  | array items => array (sortedItems items)
  | object fields => object (sortFields (sortedFields fields))
  | v => v
termination_by structural v => v

def sortedItems : List Value → List Value
  | [] => []
  | v :: rest => sorted v :: sortedItems rest
termination_by structural items => items

def sortedFields : List (Text × Value) → List (Text × Value)
  | [] => []
  | (k, v) :: rest => (k, sorted v) :: sortedFields rest
termination_by structural fields => fields
end

/-- One line of JSON with sorted keys. -/
def lineOf (v : Value) : String := v.sorted.write

end Value

end ClusterMetadata.Json
