import ClusterMetadata.CommandLine.Usage
import ClusterMetadata.Enrich
import ClusterMetadata.Log.Line

/-! A run of the program, from its arguments to what it prints and its exit code.

Arguments are understood first, then the file is opened, the settings are read, and last the file's
text. Only opening and reading are left to the world around. -/
namespace ClusterMetadata.CommandLine

inductive Source where
  | standardInput
  | file (name : String)
deriving DecidableEq, Repr

/-- What the arguments ask for; without arguments it is the usage. -/
inductive Request where
  | help (scope : Scope)
  | usage
  | version
  | enrich (source : Source) (filter : PodFilter) (extra : List String)

/-- A dash stands for standard input. -/
def Source.ofName (name : String) : Source := if name = "-" then .standardInput else .file name

def enrichRequest (args : List String) : Except UsageError Request :=
  match Arguments.read enrichForms true args with
  | .error e => .error (.argument .enrich e)
  | .ok parsed =>
    if parsed.has .help then .ok (.help .enrich)
    else match parsed.operands with
      | [] => .error .fileMissing
      | name :: extra =>
        let text (option : EnrichOption) := (parsed.value? option).map Text.ofString
        let filter := ⟨text .pod, text .space, parsed.has .nativeOnly⟩
        .ok (.enrich (Source.ofName name) filter extra)

/-- The request that options of the program make, the first of them. -/
def programRequest? (options : List (ProgramOption × String)) : Option Request :=
  match options with
  | [] => none
  | (.version, _) :: _ => some .version
  | (.help, _) :: _ => some (.help .program)

/-- The request of a command and its arguments. A name that looks like options is read as such
before it is refused. -/
def commandRequest (name : String) (args : List String) : Except UsageError Request :=
  if name = enrichName then enrichRequest args
  else if Arguments.holdsOptions name then
    match Arguments.read programForms false (name :: args) with
    | .error e => .error (.argument .program e)
    | .ok parsed =>
      match programRequest? parsed.options with
      | some request => .ok request
      | none => .error (.noSuchCommand name)
  else .error (.noSuchCommand name)

def Request.ofArguments (args : List String) : Except UsageError Request :=
  if args.isEmpty then .ok .usage
  else match Arguments.read programForms false args with
    | .error e => .error (.argument .program e)
    | .ok parsed =>
      match programRequest? parsed.options, parsed.operands with
      | some request, _ => .ok request
      | none, [] => .error .commandMissing
      | none, name :: rest => commandRequest name rest

/-- The world around a run: the environment, and what each source has to read. -/
structure World where
  environment : Environment
  read : Source → Except OpenFault String

/-- A piece of what goes to standard error. -/
inductive Notice where
  | text (line : String)
  | logged (format : Log.Format) (record : Log.Record)

def Notice.line (time : String) : Notice → String
  | text line => line
  | logged format record => (record.line format time).printed

inductive Crash where
  | fault (fault : Fault)
  | integerTooLong

def Crash.message : Crash → String
  | integerTooLong => Json.ReadError.integerTooLong.message
  | fault .tooDeep => Json.ReadError.tooDeep.message
  | fault f => match f.message? with
    | some message => message
    | none => "malformed manifest"

structure Report where
  exitCode : Nat
  output : List String
  notices : List Notice
  crash : Option Crash := none

namespace Report

/-- The report of an error; it is printed without control sequences. -/
def usageError (e : UsageError) : Report :=
  ⟨2, [], e.lines.map fun line => .text (Text.withoutSequences line), none⟩

/-- The notices of a trace: the records at or above the level of the settings. -/
def noticesOf (settings : LogSettings) (trace : List Occurrence) : List Notice :=
  ((Occurrence.records trace).filter fun record =>
    settings.level.severity ≤ record.level.severity).map (.logged settings.format)

/-- The report of enriching manifests; a fault leaves what was printed before it. -/
def enrichment (settings : Settings) (filter : PodFilter) (manifests : List Json.Value) : Report :=
  let run := (settings.enrich filter manifests).fromStart
  let report (exitCode : Nat) (crash : Option Crash) : Report :=
    ⟨exitCode, Occurrence.output run.trace, noticesOf settings.log run.trace, crash⟩
  match run.result with
  | .ok exitCode => report exitCode none
  | .error fault => report 1 (some (.fault fault))

def ofText (settings : Settings) (filter : PodFilter) (text : String) : Report :=
  match Json.Value.parse text with
  | .error .integerTooLong => ⟨1, [], [], some .integerTooLong⟩
  | .error .tooDeep => ⟨1, [], [], some (.fault .tooDeep)⟩
  | .error e => usageError (.notJson e)
  | .ok v =>
    match manifestsOf? v with
    | none => usageError .notManifests
    | some manifests => enrichment settings filter manifests

end Report

/-- A text with a line feed at every line end, in whichever form it was written. -/
def lineFeeds : List Char → List Char
  | '\r' :: '\n' :: rest => '\n' :: lineFeeds rest
  | '\r' :: rest => '\n' :: lineFeeds rest
  | c :: rest => c :: lineFeeds rest
  | [] => []

def Source.name : Source → String
  | standardInput => "-"
  | file name => name

def answerEnrich (world : World) (source : Source) (filter : PodFilter) (extra : List String) :
    Report :=
  match world.read source with
  | .error fault => Report.usageError (.fileClosed source.name fault)
  | .ok text =>
    if !extra.isEmpty then Report.usageError (.extraArguments extra)
    else match Settings.load world.environment with
      | .error e => Report.usageError (.settings e)
      | .ok settings => Report.ofText settings filter (String.ofList (lineFeeds text.toList))

def run (world : World) (args : List String) : Report :=
  match Request.ofArguments args with
  | .error e => Report.usageError e
  | .ok .usage => ⟨2, [], (Scope.help .program).map .text, none⟩
  | .ok (.help scope) => ⟨0, scope.help, [], none⟩
  | .ok .version => ⟨0, [programName ++ ", version " ++ version], [], none⟩
  | .ok (.enrich source filter extra) => answerEnrich world source filter extra

end ClusterMetadata.CommandLine
