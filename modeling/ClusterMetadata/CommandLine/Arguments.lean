import ClusterMetadata.Text.Similarity

/-! Options and operands on a command line.

A long option is written `--name`, `--name value` or `--name=value`; a short one `-n value` or
`-nvalue`, and short switches may share a dash. `--` ends the options. -/
namespace ClusterMetadata.CommandLine

structure OptionForm (ω : Type) where
  option : ω
  names : List String
  takesValue : Bool

inductive ArgumentError where
  | noSuchOption (name : String) (close : List String)
  | valueMissing (name : String)
  | valueRefused (name : String)
deriving DecidableEq, Repr

/-- What was read: the options with their values, and the other arguments. -/
structure Arguments (ω : Type) where
  options : List (ω × String)
  operands : List String

namespace Arguments

variable {ω : Type}

def isLong (name : String) : Bool := name.toList.take 2 == ['-', '-']

def longNames (forms : List (OptionForm ω)) : List String := (forms.flatMap (·.names)).filter isLong

def form? (forms : List (OptionForm ω)) (name : String) : Option (OptionForm ω) :=
  forms.find? fun form => name ∈ form.names

/-- What one argument with options holds: complete options, and maybe one that still needs the next
argument as its value. -/
structure Taken (ω : Type) where
  options : List (ω × String)
  waiting : Option (ω × String)

def takeLong (forms : List (OptionForm ω)) (arg : List Char) : Except ArgumentError (Taken ω) :=
  let name := String.ofList (arg.takeWhile (· != '='))
  let value? := match arg.dropWhile (· != '=') with
    | [] => none
    | _ :: value => some (String.ofList value)
  match form? forms name with
  | none => .error (.noSuchOption name (Text.closeTo name (longNames forms)))
  | some form =>
    match form.takesValue, value? with
    | true, some value => .ok ⟨[(form.option, value)], none⟩
    | true, none => .ok ⟨[], some (form.option, name)⟩
    | false, some _ => .error (.valueRefused name)
    | false, none => .ok ⟨[(form.option, "")], none⟩

/-- The short options after a dash; `taken` holds those before, last first. -/
def takeShort (forms : List (OptionForm ω)) (taken : List (ω × String)) :
    List Char → Except ArgumentError (Taken ω)
  | [] => .ok ⟨taken.reverse, none⟩
  | c :: rest =>
    let name := String.ofList ['-', c]
    match form? forms name with
    | none => .error (.noSuchOption name [])
    | some form =>
      if form.takesValue then
        if rest.isEmpty then .ok ⟨taken.reverse, some (form.option, name)⟩
        else .ok ⟨((form.option, String.ofList rest) :: taken).reverse, none⟩
      else takeShort forms ((form.option, "") :: taken) rest

/-- Whether an argument is read as options: it has more than a dash at its front. -/
def holdsOptions (arg : String) : Bool :=
  match arg.toList with
  | '-' :: _ :: _ => true
  | _ => false

def take (forms : List (OptionForm ω)) (arg : String) : Except ArgumentError (Taken ω) :=
  if isLong arg then takeLong forms arg.toList
  else takeShort forms [] (arg.toList.drop 1)

/-- Reads arguments from the next one on. An option may be waiting for its value. Unless options
may follow operands, the first operand ends them. -/
def readFrom (forms : List (OptionForm ω)) (mixed : Bool) :
    Option (ω × String) → List String → Except ArgumentError (Arguments ω)
  | some (_, name), [] => .error (.valueMissing name)
  | none, [] => .ok ⟨[], []⟩
  | some (option, _), value :: rest => do
    let others ← readFrom forms mixed none rest
    return { others with options := (option, value) :: others.options }
  | none, arg :: rest =>
    if arg = "--" then .ok ⟨[], rest⟩
    else if holdsOptions arg then do
      let taken ← take forms arg
      let others ← readFrom forms mixed taken.waiting rest
      return { others with options := taken.options ++ others.options }
    else if mixed then do
      let others ← readFrom forms mixed none rest
      return { others with operands := arg :: others.operands }
    else .ok ⟨[], arg :: rest⟩

def read (forms : List (OptionForm ω)) (mixed : Bool) (args : List String) :
    Except ArgumentError (Arguments ω) :=
  readFrom forms mixed none args

variable [DecidableEq ω]

/-- The value of an option; the last one counts. -/
def value? (a : Arguments ω) (option : ω) : Option String :=
  (a.options.reverse.find? fun entry => entry.1 = option).map (·.2)

def has (a : Arguments ω) (option : ω) : Bool := a.options.any fun entry => entry.1 = option

end Arguments

end ClusterMetadata.CommandLine
