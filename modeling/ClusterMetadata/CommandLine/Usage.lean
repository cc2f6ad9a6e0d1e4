import ClusterMetadata.CommandLine.Arguments
import ClusterMetadata.CommandLine.Help
import ClusterMetadata.Json.Reader
import ClusterMetadata.Settings
import ClusterMetadata.Text.ControlSequence

/-! What the program says about its own use. -/
namespace ClusterMetadata.CommandLine

def programName : String := "kubemeta"

def version : String := "0.1.0"

def enrichName : String := "enrich"

inductive ProgramOption where
  | version
  | help
deriving DecidableEq

inductive EnrichOption where
  | pod
  | space
  | nativeOnly
  | help
deriving DecidableEq

def programForms : List (OptionForm ProgramOption) :=
  [⟨.version, ["--version"], false⟩, ⟨.help, ["--help"], false⟩]

def enrichForms : List (OptionForm EnrichOption) :=
  [⟨.pod, ["--pod"], true⟩, ⟨.space, ["-n", "--namespace"], true⟩,
   ⟨.nativeOnly, ["--k8s-only"], false⟩, ⟨.help, ["--help"], false⟩]

/-- Whose use an error is about. -/
inductive Scope where
  | program
  | enrich
deriving DecidableEq, Repr

def Scope.command : Scope → String
  | program => programName
  | enrich => programName ++ " " ++ enrichName

def Scope.usage (scope : Scope) : String :=
  "Usage: " ++ scope.command ++ match scope with
    | program => " [OPTIONS] COMMAND [ARGS]..."
    | enrich => " [OPTIONS] FILE"

def helpRow : String × String := ("--help", "Show this message and exit.")

def enrichSummary : String :=
  "Print enriched metadata for every Pod in FILE, one JSON line each."

def enrichDetails : String :=
  "FILE holds Kubernetes manifests as JSON (``kubectl get ... -o json``). Owners such " ++
  "as ReplicaSets, Jobs, Nodes and Namespaces are resolved from the other objects in the same " ++
  "file, within the Pod's own namespace. Pods are printed ordered by namespace, then name."

def Scope.help : Scope → List String
  | program =>
    [Scope.program.usage, "", "  Kubernetes resource metadata enrichment.", ""] ++
    definitions "Options" [("--version", "Show the version and exit."), helpRow] ++ [""] ++
    definitions "Commands" [(enrichName, enrichSummary)]
  | enrich =>
    [Scope.enrich.usage, ""] ++ wrap "  " (Text.split ' ' enrichSummary) ++ [""] ++
    wrap "  " (Text.split ' ' enrichDetails) ++ [""] ++
    definitions "Options"
      [("--pod TEXT", "Only enrich Pods with this name."),
       ("-n, --namespace TEXT", "Only enrich Pods in this namespace."),
       ("--k8s-only", "Print the native document without ECS fields."), helpRow]

inductive OpenFault where
  | missing
  | directory
  | notADirectory
  | nameTooLong
  | denied
deriving DecidableEq, Repr

def OpenFault.message : OpenFault → String
  | missing => "No such file or directory"
  | directory => "Is a directory"
  | notADirectory => "Not a directory"
  | nameTooLong => "File name too long"
  | denied => "Permission denied"

inductive UsageError where
  | argument (scope : Scope) (error : ArgumentError)
  | commandMissing
  | noSuchCommand (name : String)
  | fileMissing
  | fileClosed (name : String) (fault : OpenFault)
  | extraArguments (args : List String)
  | settings (error : SettingsError)
  | notJson (error : Json.ReadError)
  | notManifests
deriving DecidableEq, Repr

/-- A suggestion of names that may have been meant. -/
def suggestion : List String → String
  | [] => ""
  | [name] => " Did you mean " ++ Text.quoted name ++ "?"
  | names =>
    " (Did you mean one of: " ++ Text.commaJoin (names.map fun name : String => Text.quoted name) ++
      "?)"

def ArgumentError.message : ArgumentError → String
  | noSuchOption name close => "No such option " ++ Text.quoted name ++ "." ++ suggestion close
  | valueMissing name => "Option " ++ Text.quoted name ++ " requires an argument."
  | valueRefused name => "Option " ++ Text.quoted name ++ " does not take a value."

namespace UsageError

def message : UsageError → String
  | argument _ error => error.message
  | commandMissing => "Missing command."
  | noSuchCommand name =>
    "No such command " ++ Text.quoted name ++ "." ++ suggestion (Text.closeTo name [enrichName])
  | fileMissing => "Missing argument 'FILE'."
  | fileClosed name fault => "Invalid value for 'FILE': '" ++ name ++ "': " ++ fault.message
  | extraArguments args =>
    "Got unexpected extra argument" ++ (if args.length = 1 then "" else "s") ++ " (" ++
      String.intercalate " " args ++ ")"
  | settings error => error.message
  | notJson error => "Invalid value for FILE: not valid JSON: " ++ error.message
  | notManifests => "Invalid value for FILE: expected a JSON object or array"

/-- The scope whose usage is shown with an error; an option used with or without a value against
its form is named without it. -/
def scope? : UsageError → Option Scope
  | argument scope (.noSuchOption _ _) => some scope
  | argument _ _ => none
  | commandMissing | noSuchCommand _ => some .program
  | _ => some .enrich

def lines (e : UsageError) : List String :=
  (match e.scope? with
    | some scope => [scope.usage, "Try '" ++ scope.command ++ " --help' for help.", ""]
    | none => []) ++ ["Error: " ++ e.message]

end UsageError

end ClusterMetadata.CommandLine
