import ClusterMetadata.Document.Basic
import ClusterMetadata.Json.Writer
import ClusterMetadata.Resource.Entries

/-! Which labels and annotations go into a document, and in what form.

Flat sections keep every key as one field with the dots replaced by underscores; nested sections
read a dotted key as a path. Entries are written by ascending key, so of two keys that become the
same field the greater one gives the value. -/
namespace ClusterMetadata

open Json (Value Fields)

/-- Settings of label and annotation selection. When there are labels to include, only they are
taken; annotations are only taken when they are included. -/
structure Selection where
  includeLabels : List Text := []
  excludeLabels : List Text := []
  includeAnnotations : List Text := []
  dedotLabels : Bool := true
  dedotAnnotations : Bool := true
deriving DecidableEq, Repr

/-- A key with underscores for dots. -/
def dedotted (key : Text) : Text :=
  ⟨key.points.map fun point => if point = .ofChar '.' then .ofChar '_' else point⟩

def Document.addEntry (dedot : Bool) (fields : Document) (entry : Text × Value) : Document :=
  if dedot then Table.insert fields (dedotted entry.1) entry.2
  else Document.safePut fields (Path.ofKey entry.1) entry.2

/-- The section that a map of labels or annotations becomes. -/
def Document.ofMap (dedot : Bool) (source : Fields) : Document :=
  (Json.sortFields source).foldl (Document.addEntry dedot) []

def pick (source : Fields) (names : List Text) : Fields :=
  Table.ofEntries (names.filterMap fun name => (Table.get? source name).map ((name, ·)))

namespace Selection

def kept (s : Selection) (labels : Entries) : Entries :=
  labels.filter fun entry => match entry.1 with
    | .string key => key ∉ s.excludeLabels
    | _ => true

def chosenLabels (s : Selection) (labels : Entries) : Except Fault Fields :=
  if s.includeLabels.isEmpty then (s.kept labels).named
  else .ok (pick (s.kept labels).textFields s.includeLabels)

def chosenAnnotations (s : Selection) (annotations : Entries) : Fields :=
  pick annotations.textFields s.includeAnnotations

end Selection

end ClusterMetadata
