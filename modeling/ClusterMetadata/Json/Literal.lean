import ClusterMetadata.Json.Value
import ClusterMetadata.Decimal.Notation
import ClusterMetadata.Text.Join
import ClusterMetadata.Text.Quoted

/-! The text that stands for a value where text is asked for.

A string stands for itself. Any other value is written as a literal: `None`, `True`, `False`,
numbers, and lists and maps with their members as literals, strings between quotes. A blank value
stands for the empty text. Literals have no limits here: there is one of every value, however deep it
is nested and however many digits its numbers have. -/
namespace ClusterMetadata.Json

/-- Infinity and NaN as words of a literal. -/
def literalWords : Decimal.Words := ⟨"inf", "nan"⟩

namespace Value

mutual
def literal : Value → String
  | null => "None"
  | bool b => if b then "True" else "False"
  | int n => toString n
  | float x => x.write literalWords
  | string s => Text.quoted s
  | array items => "[" ++ Text.commaJoin (literalItems items) ++ "]"
  | object fields => "\x7b" ++ Text.commaJoin (literalFields fields) ++ "\x7d"
termination_by structural v => v

def literalItems : List Value → List String
  | [] => []
  | v :: rest => literal v :: literalItems rest
termination_by structural items => items

def literalFields : List (Text × Value) → List String
  | [] => []
  | (k, v) :: rest => (Text.quoted k ++ ": " ++ literal v) :: literalFields rest
termination_by structural fields => fields
end

/-- The value as plain text: a string is not quoted. -/
def plain : Value → Text
  | string s => s
  | v => literal v

/-- The text a field gives: nothing for a blank value. -/
def text (v : Value) : Text := if v.isBlank then "" else v.plain

end Value

end ClusterMetadata.Json
