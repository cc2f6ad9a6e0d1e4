import ClusterMetadata.Log.Format
import ClusterMetadata.Log.Level
import ClusterMetadata.Projector
import ClusterMetadata.Text.Join
import ClusterMetadata.Text.Lowercase
import ClusterMetadata.Text.Split
import ClusterMetadata.Text.Trim

/-! Settings read from environment variables.

Variables are read in a fixed order and the first one that cannot be understood is refused. A list
is written with commas; blanks around its items and items without a text do not count. -/
namespace ClusterMetadata

/-- Settings of the generator of an owner that can be left out. -/
structure OwnerSettings where
  enabled : Bool := true
  selection : Selection := {}
deriving DecidableEq, Repr

/-- Which resources add to the documents of pods. -/
structure OwnerChain where
  node : OwnerSettings := {}
  space : OwnerSettings := {}
  deployment : Bool := false
  cronJob : Bool := false
deriving DecidableEq, Repr

structure LogSettings where
  level : Log.Level := .info
  format : Log.Format := .json
deriving DecidableEq, Repr

structure Settings where
  selection : Selection := {}
  owners : OwnerChain := {}
  cluster : ClusterInfo := {}
  log : LogSettings := {}
deriving DecidableEq, Repr

/-- Why a variable is refused. The value of a switch is given as it was compared. -/
inductive SettingsError where
  | badSwitch (name value : String)
  | badLevel (value : String)
  | badFormat (value : String)
deriving DecidableEq, Repr

/-- Variables by their full names; their values are characters, without surrogates. -/
abbrev Environment := Table String String

def variableName (name : String) : String := "KUBEMETA_" ++ name

namespace SettingsError

def choices (words : List String) : String :=
  "\x7b" ++ Text.commaJoin (words.map fun word : String => Text.quoted word) ++ "\x7d"

def message : SettingsError → String
  | badSwitch name value =>
    "Invalid boolean for " ++ variableName name ++ ": " ++ Text.quoted value
  | badLevel value =>
    "Invalid log level: " ++ value ++ ". Must be one of " ++ choices (Log.Level.all.map (·.name))
  | badFormat value =>
    "Invalid log format: " ++ value ++ ". Must be one of " ++ choices (Log.Format.all.map (·.name))

end SettingsError

namespace Environment

def value? (env : Environment) (name : String) : Option String :=
  Table.get? env (variableName name)

/-- The variables that are read, without the common beginning of their names. -/
def names : List String :=
  ["LABELS_DEDOT", "ANNOTATIONS_DEDOT", "ADD_NODE", "ADD_NAMESPACE", "ADD_DEPLOYMENT",
   "ADD_CRONJOB", "CLUSTER_NAME", "CLUSTER_URL", "LOG_LEVEL", "LOG_FORMAT"] ++
  ["", "NODE_", "NAMESPACE_"].flatMap fun owner =>
    [owner ++ "INCLUDE_LABELS", owner ++ "EXCLUDE_LABELS", owner ++ "INCLUDE_ANNOTATIONS"]

/-- The words for a switch that is on, and for one that is off. -/
def onWords : List String := ["true", "1", "yes"]

def offWords : List String := ["false", "0", "no"]

/-- The form in which a switch is compared: without blanks around it and in small letters. -/
def switchText (s : String) : String := Text.lower (Text.trim s)

def switch (env : Environment) (name : String) (default : Bool) : Except SettingsError Bool :=
  match env.value? name with
  | none => .ok default
  | some s =>
    if switchText s ∈ onWords then .ok true
    else if switchText s ∈ offWords then .ok false
    else .error (.badSwitch name (switchText s))

/-- The items of a list written with commas. -/
def listItems (s : String) : List String :=
  ((Text.split ',' s).map Text.trim).filter (· ≠ "")

def list (env : Environment) (name : String) : List String :=
  listItems ((env.value? name).getD "")

def text (env : Environment) (name : String) : String := (env.value? name).getD ""

def level (env : Environment) : Except SettingsError Log.Level :=
  let s := (env.value? "LOG_LEVEL").getD "info"
  match Log.Level.ofName? (Text.lower s) with
  | some level => .ok level
  | none => .error (.badLevel s)

def format (env : Environment) : Except SettingsError Log.Format :=
  let s := (env.value? "LOG_FORMAT").getD "json"
  match Log.Format.ofName? (Text.lower s) with
  | some format => .ok format
  | none => .error (.badFormat s)

/-- Selection settings: the lists whose names start with `owner`, and the two switches that all
selections share. -/
def selection (env : Environment) (owner : String) : Except SettingsError Selection := do
  return {
    includeLabels := (env.list (owner ++ "INCLUDE_LABELS")).map Text.ofString
    excludeLabels := (env.list (owner ++ "EXCLUDE_LABELS")).map Text.ofString
    includeAnnotations := (env.list (owner ++ "INCLUDE_ANNOTATIONS")).map Text.ofString
    dedotLabels := ← env.switch "LABELS_DEDOT" true
    dedotAnnotations := ← env.switch "ANNOTATIONS_DEDOT" true }

end Environment

namespace Settings

def load (env : Environment) : Except SettingsError Settings := do
  let selection ← env.selection ""
  let node : OwnerSettings := ⟨← env.switch "ADD_NODE" true, ← env.selection "NODE_"⟩
  let space : OwnerSettings := ⟨← env.switch "ADD_NAMESPACE" true, ← env.selection "NAMESPACE_"⟩
  let deployment ← env.switch "ADD_DEPLOYMENT" false
  let cronJob ← env.switch "ADD_CRONJOB" false
  let cluster : ClusterInfo := ⟨env.text "CLUSTER_NAME", env.text "CLUSTER_URL"⟩
  let level ← env.level
  let format ← env.format
  return ⟨selection, ⟨node, space, deployment, cronJob⟩, cluster, ⟨level, format⟩⟩

end Settings

end ClusterMetadata
