/-! The two forms of a log line: a JSON object, or columns for a reader at a terminal. -/
namespace ClusterMetadata.Log

inductive Format where
  | json
  | console
deriving DecidableEq, Repr

namespace Format

def name : Format → String
  | json => "json"
  | console => "console"

def all : List Format := [console, json]

def ofName? (s : String) : Option Format := all.find? fun f => f.name = s

end Format

end ClusterMetadata.Log
