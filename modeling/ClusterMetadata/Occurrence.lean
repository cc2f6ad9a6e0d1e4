import ClusterMetadata.Resource.Kind

/-! What happens while documents are made, in order.

One list of occurrences is what a run reports besides its result; log records and the counts of
owner look-ups are read off it. -/
namespace ClusterMetadata

/-- The two owners that a pod reaches through another controller. -/
inductive Hop where
  | deployment
  | cronJob
deriving DecidableEq, Repr

namespace Hop

def owner : Hop → Kind
  | deployment => .deployment
  | cronJob => .cronJob

def via : Hop → Kind
  | deployment => .replicaSet
  | cronJob => .job

end Hop

/-- Loading reports how many objects there are of each kind that belongs to the whole cluster, and
how many manifests had no typed view; a question to a recorded peer has the number of its options.
-/
inductive Occurrence where
  | ownerFound (hop : Hop)
  | ownerUnresolved (hop : Hop) (viaName : Text) (cached : Bool)
  | generatorBuilt (node space deployment cronJob : Bool)
  | resourceReplaced (kind : Kind) (space name : Text)
  | storesLoaded (spaces : List Text) (clusterKinds : List (Kind × Nat)) (skipped : Nat)
  | podNotFound (pod : Text) (space : Option Text)
  | printed (line : String)
  | enrichmentFinished (pods : Nat)
  | asked (peer name : Text) (options : Nat)
deriving DecidableEq, Repr

namespace Occurrence

/-- Whether an occurrence is a look-up of a hop with the given outcome. -/
def isLookup (hop : Hop) (found : Bool) : Occurrence → Bool
  | ownerFound h => found && h == hop
  | ownerUnresolved h _ _ => !found && h == hop
  | _ => false

/-- How often a hop was looked up with an outcome. -/
def lookups (trace : List Occurrence) (hop : Hop) (found : Bool) : Nat :=
  trace.countP (isLookup hop found)

def output (trace : List Occurrence) : List String :=
  trace.filterMap fun
    | printed line => some line
    | _ => none

/-- What a recorded peer was asked: names and numbers of options. -/
def questions (trace : List Occurrence) (peer : Text) : List (Text × Nat) :=
  trace.filterMap fun
    | asked p name options => if p = peer then some (name, options) else none
    | _ => none

end Occurrence

end ClusterMetadata
