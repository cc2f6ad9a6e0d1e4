import ClusterMetadata.Log.Line
import ClusterMetadata.Log.Severity

/-! Logging by calls of a logger's methods.

A call gives one value, the argument, and named fields. Most methods report an event; the others
tell something about the logger or derive another logger from it, and write no line. -/
namespace ClusterMetadata.Log

open Json (Value Fields)

structure Call where
  method : String
  argument : Value
  fields : Fields

/-- What a method does. A report is held against the threshold with its severity, is made at its
level, and adds fields that are not given; one that is put off is not made unless it is asked for
again. -/
inductive Method where
  | report (severity : Nat) (level : String) (adds : Fields)
  | reportAt
  | postpone
  | postponeAt
  | isEnabled
  | withoutArgument
  | unbind
  | tryUnbind

def methods : List (String × Method) :=
  [("debug", .report 10 "debug" []), ("info", .report 20 "info" []),
   ("msg", .report 20 "info" []), ("warning", .report 30 "warning" []),
   ("warn", .report 30 "warning" []), ("error", .report 40 "error" []),
   ("exception", .report 40 "error" [(exceptionMarkField, .bool true)]),
   ("critical", .report 50 "critical" []), ("fatal", .report 50 "critical" []),
   ("log", .reportAt), ("adebug", .postpone), ("ainfo", .postpone), ("amsg", .postpone),
   ("awarning", .postpone), ("awarn", .postpone), ("aerror", .postpone), ("aexception", .postpone),
   ("acritical", .postpone), ("afatal", .postpone), ("alog", .postponeAt),
   ("is_enabled_for", .isEnabled), ("get_effective_level", .withoutArgument),
   ("bind", .withoutArgument), ("new", .withoutArgument), ("unbind", .unbind),
   ("try_unbind", .tryUnbind)]

/-- The names that no field can have in a call whose argument is the event. -/
def eventReserved : List Text := ["self", eventField]

/-- The names that no field can have in a call whose argument is a severity. -/
def severityReserved : List Text := ["self", levelField]

/-- The names that no field of a call can have when the call is reported. -/
def reportReserved : List Text := ["method_name"]

namespace Call

def checkNames (call : Call) (reserved : List Text) : Except LogFault Unit :=
  match reserved.find? (Table.contains call.fields) with
  | some field => .error (.refusedField field)
  | none => .ok ()

def checkNoFields (call : Call) : Except LogFault Unit :=
  match call.fields with
  | [] => .ok ()
  | (field, _) :: _ => .error (.refusedField field)

def severity (call : Call) : Except LogFault Severity :=
  match Severity.ofValue? call.argument with
  | some s => .ok s
  | none => .error .notASeverity

/-- The field with the event, in a call whose argument is something else. -/
def eventAmongFields (call : Call) : Except LogFault Value :=
  match Table.get? call.fields eventField with
  | some event => .ok event
  | none => .error .eventMissing

def checkFieldName (call : Call) : Except LogFault Unit :=
  match call.argument with
  | .array _ | .object _ => .error .notAFieldName
  | _ => .ok ()

end Call

/-- A logger that names its component in every line. -/
structure Logger where
  component : Text
  threshold : Nat
  format : Format

namespace Logger

/-- The fields of the line of an event: fields of the call take the place of the component, and an
event that is not null stands for itself. -/
def fieldsOf (l : Logger) (event : Value) (given : Fields) : Fields :=
  let event := match event with
    | .null => []
    | event => [(eventField, event)]
  Table.ofEntries ((componentField, .string l.component) :: given ++ event)

def lineAt (l : Logger) (level time : String) (event : Value) (given : Fields) :
    Except LogFault Text :=
  Log.line l.format (stamped (l.fieldsOf event given) level time)

/-- The line of a call of a method, unless there is nothing to report. -/
def run (l : Logger) (call : Call) (time : String) : Method → Except LogFault (Option Text)
  | .report severity level adds => do
    call.checkNames eventReserved
    if severity < l.threshold then return none
    call.checkNames reportReserved
    let added := adds.filter fun field => !Table.contains call.fields field.1
    return some (← l.lineAt level time call.argument (call.fields ++ added))
  | .reportAt => do
    call.checkNames severityReserved
    let event ← call.eventAmongFields
    let severity ← call.severity
    if severity.isBelow l.threshold then return none
    match severity.level? with
    | none => throw .unknownSeverity
    | some level =>
      call.checkNames reportReserved
      return some (← l.lineAt level time event (Table.erase call.fields eventField))
  | .postpone => do
    call.checkNames eventReserved
    return none
  | .postponeAt => do
    call.checkNames severityReserved
    let _ ← call.eventAmongFields
    return none
  | .isEnabled => do
    call.checkNoFields
    let _ ← call.severity
    return none
  | .withoutArgument => throw (.refusedArgument call.method)
  | .unbind => do
    call.checkNoFields
    call.checkFieldName
    if call.argument = .string componentField then return none else throw .unboundField
  | .tryUnbind => do
    call.checkNoFields
    call.checkFieldName
    return none

/-- The line of a call, unless there is nothing to report. -/
def line? (l : Logger) (call : Call) (time : String) : Except LogFault (Option Text) :=
  match methods.find? fun entry => entry.1 = call.method with
  | none => throw (.unknownMethod call.method)
  | some (_, method) => l.run call time method

end Logger

end ClusterMetadata.Log
