/-! The time in log lines: a date of the Gregorian calendar and a time of day, in UTC. -/
namespace ClusterMetadata.Log

structure Date where
  year : Nat
  month : Nat
  day : Nat
deriving DecidableEq, Repr

/-- The date so many days after the first of January 1970. Years are counted from March on, so
that a leap day ends its year, in cycles of four hundred years. -/
def Date.ofDays (days : Nat) : Date :=
  let shifted := days + 719468
  let cycle := shifted / 146097
  let inCycle := shifted % 146097
  let yearInCycle := (inCycle - inCycle / 1460 + inCycle / 36524 - inCycle / 146096) / 365
  let inYear := inCycle - (365 * yearInCycle + yearInCycle / 4 - yearInCycle / 100)
  let marchMonth := (5 * inYear + 2) / 153
  let month := if marchMonth < 10 then marchMonth + 3 else marchMonth - 9
  let year := cycle * 400 + yearInCycle + (if month ≤ 2 then 1 else 0)
  ⟨year, month, inYear - (153 * marchMonth + 2) / 5 + 1⟩

def fixedWidth (width n : Nat) : String :=
  let digits := toString n
  String.ofList (List.replicate (width - digits.length) '0') ++ digits

/-- The time so many microseconds after the start of 1970. -/
def timeText (microseconds : Nat) : String :=
  let seconds := microseconds / 1000000
  let date := Date.ofDays (seconds / 86400)
  fixedWidth 4 date.year ++ "-" ++ fixedWidth 2 date.month ++ "-" ++ fixedWidth 2 date.day ++ "T" ++
  fixedWidth 2 (seconds / 3600 % 24) ++ ":" ++ fixedWidth 2 (seconds / 60 % 60) ++ ":" ++
  fixedWidth 2 (seconds % 60) ++ "." ++ fixedWidth 6 (microseconds % 1000000) ++ "Z"

end ClusterMetadata.Log
