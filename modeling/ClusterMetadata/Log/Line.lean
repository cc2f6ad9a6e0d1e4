import ClusterMetadata.Json.Literal
import ClusterMetadata.Json.Writer
import ClusterMetadata.Log.Format
import ClusterMetadata.Log.Record

/-! Log lines.

A line shows the fields of a record with its level and the time. The console form puts the level
and the event in front, in columns, then the other fields by ascending name, and under the line the
text that the record attaches. -/
namespace ClusterMetadata.Log

open Json (Value Fields)

def methodLevel (method : String) : String :=
  if method = "warn" then "warning" else if method = "exception" then "error" else method

def levelField : Text := "level"

def timeField : Text := "ts"

/-- Fields with the level and the time, in place of fields of these names. -/
def stamped (fields : Fields) (level time : String) : Fields :=
  Table.insert (Table.insert fields levelField (.string level)) timeField (.string time)

def padded (width : Nat) (t : Text) : Text :=
  t ++ Text.ofChars (List.replicate (width - t.length) ' ')

def bracketed (t : Text) : Text := Text.ofString "[" ++ t ++ Text.ofString "]"

def quotedMarks : List Char := [' ', '\t', '=', '\r', '\n', '"', '\'']

def needsQuotes (point : CodePoint) : Bool := point ∈ quotedMarks.map CodePoint.ofChar

/-- A value in the console form: a plain word as it is, anything else as a literal. -/
def consoleValue : Value → Text
  | .string t => if t.points.any needsQuotes then Text.quoted t else t
  | v => v.literal

structure Column where
  field : Text
  write : Value → Text

/-- A field without a column of its own: its name and its value. -/
def plainField (name : Text) (v : Value) : Text := name ++ Text.ofString "=" ++ consoleValue v

/-- The columns in front, in their order. A field without a name comes first. -/
def columns : List Column :=
  [⟨"", plainField ""⟩, ⟨"timestamp", Value.plain⟩,
   ⟨levelField, fun v => bracketed (padded 9 v.plain)⟩, ⟨eventField, fun v => padded 30 v.plain⟩,
   ⟨"logger", fun v => bracketed v.plain⟩, ⟨"logger_name", fun v => bracketed v.plain⟩]

/-- The field with the state of the stack, which goes under the line. -/
def stackField : Text := "stack"

/-- The field with the text of an exception, which goes under the line and the stack. -/
def exceptionField : Text := "exception"

/-- The field that says whether an exception belongs to the record. -/
def exceptionMarkField : Text := "exc_info"

def attachedFields : List Text := [stackField, exceptionField, exceptionMarkField]

def plainFields (fields : Fields) : Fields :=
  Json.sortFields (fields.filter fun field =>
    field.1 ∉ columns.map (·.field) ∧ field.1 ∉ attachedFields)

def withoutTrailingBlanks (t : Text) : Text :=
  ⟨(t.points.reverse.dropWhile (· == .ofChar ' ')).reverse⟩

def consoleLine (fields : Fields) : Text :=
  let front := columns.filterMap fun column =>
    (Table.get? fields column.field).map column.write
  let rest := (plainFields fields).map fun (name, v) => plainField name v
  withoutTrailingBlanks (Text.join " " ((front ++ rest).filter (· ≠ "")))

/-- The text of a field that is attached, unless the field is missing or null. -/
def attached? (fields : Fields) (name : Text) : Except LogFault (Option Text) :=
  match Table.get? fields name with
  | none | some .null => .ok none
  | some (.string t) => .ok (some t)
  | some _ => .error (.notText name)

/-- What keeps a stack apart from an exception. -/
def stackRule : Text := Text.ofChars ('\n' :: '\n' :: List.replicate 79 '=' ++ ['\n'])

/-- The text under the console form of a line: the stack, ruled off where an exception belongs to
the record, and the exception. -/
def attachments (fields : Fields) : Except LogFault Text := do
  let stack ← attached? fields stackField
  let hasException := !((Table.get? fields exceptionField).getD .null matches .null)
  let marked := !((Table.get? fields exceptionMarkField).getD .null).isBlank
  let rule : Text := if hasException || marked then stackRule else ""
  let exception ← attached? fields exceptionField
  let under (t : Option Text) (rule : Text) : Text := match t with
    | none => ""
    | some t => Text.ofString "\n" ++ t ++ rule
  return under stack rule ++ under exception ""

/-- The line of fields in a form, without what goes under it. -/
def mainLine (format : Format) (fields : Fields) : Text :=
  match format with
  | .json => (Value.object fields).write
  | .console => consoleLine fields

/-- The line of fields in a form, with what goes under it. -/
def line (format : Format) (fields : Fields) : Except LogFault Text :=
  match format with
  | .json => .ok (mainLine .json fields)
  | .console => do return mainLine .console fields ++ (← attachments fields)

/-- The line of a record at a time. The records of a run attach nothing. -/
def Record.line (r : Record) (format : Format) (time : String) : Text :=
  mainLine format (stamped r.allFields r.level.name time)

end ClusterMetadata.Log
