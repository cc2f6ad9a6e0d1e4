import ClusterMetadata.CommandLine.Run
import ClusterMetadata.Log.Time
import Std.Time.DateTime.Timestamp

/-! The program: it takes the arguments, the environment and the file from the world around, and
prints what a run leaves behind. -/
namespace ClusterMetadata.CommandLine

def readEnvironment : IO Environment :=
  Environment.names.filterMapM fun name => do
    return (← IO.getEnv (variableName name)).map ((variableName name, ·))

def openFault : IO.Error → OpenFault
  | .noFileOrDirectory _ _ _ => .missing
  | .permissionDenied _ _ _ => .denied
  | .invalidArgument _ _ _ => .nameTooLong
  | .inappropriateType _ code _ => if code = 21 then .directory else .notADirectory
  | _ => .directory

def readSource : Source → IO (Except OpenFault String)
  | .standardInput => do
    return .ok (← (← IO.getStdin).readToEnd)
  | .file name => do
    try return .ok (← IO.FS.readFile name)
    catch e => return .error (openFault e)

def readRequest : Except UsageError Request → IO (Except OpenFault String)
  | .ok (.enrich source _ _) => readSource source
  | _ => return .ok ""

def currentTime : IO String := do
  let now ← Std.Time.Timestamp.now
  return Log.timeText (now.toNanosecondsSinceUnixEpoch.val.toNat / 1000)

def printReport (report : Report) : IO Unit := do
  for line in report.output do
    IO.println line
  let time ← currentTime
  for notice in report.notices do
    IO.eprintln (notice.line time)
  match report.crash with
  | some crash => IO.eprintln crash.message
  | none => return

end ClusterMetadata.CommandLine

open ClusterMetadata.CommandLine in
def main (args : List String) : IO UInt32 := do
  let environment ← readEnvironment
  let text ← readRequest (Request.ofArguments args)
  let report := run ⟨environment, fun _ => text⟩ args
  printReport report
  return UInt32.ofNat report.exitCode
