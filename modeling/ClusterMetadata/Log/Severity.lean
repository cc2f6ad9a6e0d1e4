import ClusterMetadata.Json.Value

/-! Severities given as numbers, and the levels reported at them. -/
namespace ClusterMetadata.Log

open Json (Value)
open Decimal (Binary64)

inductive Severity where
  | whole (n : Int)
  | binary (x : Binary64)
deriving DecidableEq, Repr

namespace Severity

/-- The severity that a value is; true counts as one and false as zero. -/
def ofValue? : Value → Option Severity
  | .bool b => some (.whole (if b then 1 else 0))
  | .int n => some (.whole n)
  | .float x => some (.binary x)
  | _ => none

def isBelow : Severity → Nat → Bool
  | whole n, bound => n < bound
  | binary x, bound => x.isBelow bound

def equals : Severity → Nat → Bool
  | whole n, number => n == number
  | binary x, number => x.isInteger number

/-- The level reported at each severity. -/
def levels : List (Nat × String) :=
  [(10, "debug"), (20, "info"), (30, "warning"), (40, "error"), (50, "critical")]

def level? (s : Severity) : Option String :=
  (levels.find? fun entry => s.equals entry.1).map Prod.snd

end Severity

end ClusterMetadata.Log
