import ClusterMetadata.Text.Basic

/-! What can be wrong with a call of a logger or with what it is set up with. -/
namespace ClusterMetadata.Log

inductive LogFault where
  | notText (field : Text)
  | refusedField (field : Text)
  | refusedArgument (method : String)
  | unknownMethod (name : String)
  | eventMissing
  | notASeverity
  | unknownSeverity
  | notAFieldName
  | unboundField
deriving DecidableEq, Repr

end ClusterMetadata.Log
