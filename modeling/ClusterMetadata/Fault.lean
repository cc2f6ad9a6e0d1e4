/-! What can be wrong with the shape of a manifest or of an argument. -/
namespace ClusterMetadata

/-- Values may also be nested too deep to be read, copied or written, hold themselves, or grow while
their fields are read. -/
inductive Fault where
  | notAnObject
  | notAResource
  | noEntries
  | unhashableKey
  | unorderedKeys
  | nonTextKey
  | notAPair (index length : Nat)
  | unsupportedKind (kind : String)
  | tooDeep
  | circular
  | changedWhileRead
deriving DecidableEq, Repr

/-- What is said of a fault that is explained to the user. -/
def Fault.message? : Fault → Option String
  | notAPair index length => some ("dictionary update sequence element #" ++ toString index ++
      " has length " ++ toString length ++ "; 2 is required")
  | unsupportedKind kind => some ("Unsupported controller kind: " ++ kind)
  | circular => some "Circular reference detected"
  | _ => none

end ClusterMetadata
