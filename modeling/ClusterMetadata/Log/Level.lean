import ClusterMetadata.Log.Fault

/-! Levels of log records and the thresholds that names stand for. -/
namespace ClusterMetadata.Log

inductive Level where
  | debug | info | warning | error
deriving DecidableEq, Repr

namespace Level

def name : Level → String
  | debug => "debug"
  | info => "info"
  | warning => "warning"
  | error => "error"

def severity : Level → Nat
  | debug => 10
  | info => 20
  | warning => 30
  | error => 40

def all : List Level := [debug, error, info, warning]

def ofName? (s : String) : Option Level := all.find? fun l => l.name = s

end Level

/-- Characters beyond ASCII whose capitals are letters of ASCII. -/
def specialCapitals : List (Char × String) :=
  [('\u00df', "SS"), ('\u0131', "I"), ('\u017f', "S"), ('\ufb00', "FF"), ('\ufb01', "FI"),
   ('\ufb02', "FL"), ('\ufb03', "FFI"), ('\ufb04', "FFL"), ('\ufb05', "ST"), ('\ufb06', "ST")]

/-- A character in capital letters of ASCII, unless it has others. -/
def capitals? (c : Char) : Option (List Char) :=
  if c.toNat < 128 then some [c.toUpper]
  else (specialCapitals.find? fun entry => entry.1 = c).map (·.2.toList)

/-- What a name known to the log stands for. Not every such name is that of a severity. -/
inductive NameMeaning where
  | severity (n : Nat)
  | text
  | table
deriving DecidableEq, Repr

def knownNames : List (String × NameMeaning) :=
  [("NOTSET", .severity 0), ("DEBUG", .severity 10), ("INFO", .severity 20),
   ("WARN", .severity 30), ("WARNING", .severity 30), ("ERROR", .severity 40),
   ("CRITICAL", .severity 50), ("FATAL", .severity 50), ("BASIC_FORMAT", .text),
   ("_STYLES", .table)]

/-- What a name means, in letters of either case. -/
def meaning? (name : String) : Option NameMeaning := do
  let capitals ← name.toList.mapM capitals?
  (knownNames.find? fun (known, _) => capitals.flatten = known.toList).map Prod.snd

/-- The least severity that is logged under a level name; a name that is not known means `info`. -/
def threshold (name : String) : Except LogFault Nat :=
  match meaning? name with
  | none => .ok Level.info.severity
  | some (.severity n) => .ok n
  | some .text => .error .unknownSeverity
  | some .table => .error .notASeverity

end ClusterMetadata.Log
