import ClusterMetadata.Json.Value
import ClusterMetadata.Log.Level
import ClusterMetadata.Occurrence

/-! Log records, and the one that each occurrence is worth. -/
namespace ClusterMetadata

open Json (Value Fields)

structure Log.Record where
  component : String
  event : String
  level : Log.Level
  fields : Fields

def Log.componentField : Text := "component"

def Log.eventField : Text := "event"

namespace Log.Record

/-- The record of an event of the application itself. -/
def ofApplication (event : String) (level : Level) (fields : Fields) : Record :=
  ⟨"app", event, level, fields⟩

/-- The record of an event of the command line. -/
def ofCommand (event : String) (level : Level) (fields : Fields) : Record :=
  ⟨"cli", event, level, fields⟩

def allFields (r : Record) : Fields :=
  Table.ofEntries ((componentField, .string r.component) :: r.fields ++
    [(eventField, .string r.event)])

end Log.Record

def Occurrence.record? : Occurrence → Option Log.Record
  | ownerUnresolved hop viaName cached => some ⟨"metadata.pod", "owner_unresolved", .debug,
      [("owner", .string hop.owner.field), ("via", .string hop.via.field),
       ("via_name", .string viaName), ("cached", .bool cached)]⟩
  | generatorBuilt node space deployment cronJob => some <|
      .ofApplication "pod generator built" .debug
        [("node", .bool node), ("namespace", .bool space), ("deployment", .bool deployment),
         ("cronjob", .bool cronJob)]
  | resourceReplaced kind space name => some <|
      .ofApplication "duplicate resource replaced" .warning
        [("kind", .string kind.name), ("namespace", .string space), ("name", .string name)]
  | storesLoaded spaces clusterKinds skipped => some <|
      .ofApplication "stores loaded" .info
        [("namespaces", .array (spaces.map .string)),
         ("cluster_kinds", .object (clusterKinds.map fun (kind, n) => (kind.name, .int n))),
         ("skipped", .int skipped)]
  | podNotFound pod space => some <|
      .ofCommand "pod not found" .warning
        [("pod", .string pod),
         ("namespace", match space with | some space => .string space | none => .null)]
  | enrichmentFinished pods => some <|
      .ofCommand "enrichment finished" .info [("pods", .int pods)]
  | ownerFound _ | printed _ | asked _ _ _ => none

def Occurrence.records (trace : List Occurrence) : List Log.Record := trace.filterMap record?

end ClusterMetadata
