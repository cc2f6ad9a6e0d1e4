import ClusterMetadata.Cluster
import ClusterMetadata.CommandLine.Arguments
import ClusterMetadata.CommandLine.Help
import ClusterMetadata.CommandLine.Run
import ClusterMetadata.CommandLine.Usage
import ClusterMetadata.Decimal.Binary64
import ClusterMetadata.Decimal.Notation
import ClusterMetadata.Decimal.Shortest
import ClusterMetadata.Document.Basic
import ClusterMetadata.Document.Depth
import ClusterMetadata.Document.Edit
import ClusterMetadata.Document.FieldOption
import ClusterMetadata.Document.Session
import ClusterMetadata.Draft.Basic
import ClusterMetadata.Draft.Drafting
import ClusterMetadata.Draft.Merge
import ClusterMetadata.Draft.Own
import ClusterMetadata.Draft.Section
import ClusterMetadata.Draft.Shelf
import ClusterMetadata.Enrich
import ClusterMetadata.Enricher
import ClusterMetadata.Fault
import ClusterMetadata.Generator.Basic
import ClusterMetadata.Generator.Kinds
import ClusterMetadata.Generator.Pod
import ClusterMetadata.Json.Depth
import ClusterMetadata.Json.Literal
import ClusterMetadata.Json.Reader
import ClusterMetadata.Json.Value
import ClusterMetadata.Json.Writer
import ClusterMetadata.Log.Fault
import ClusterMetadata.Log.Format
import ClusterMetadata.Log.Level
import ClusterMetadata.Log.Line
import ClusterMetadata.Log.Logger
import ClusterMetadata.Log.Record
import ClusterMetadata.Log.Severity
import ClusterMetadata.Log.Time
import ClusterMetadata.Main
import ClusterMetadata.Occurrence
import ClusterMetadata.Projector
import ClusterMetadata.Resource.Basic
import ClusterMetadata.Resource.Entries
import ClusterMetadata.Resource.Kind
import ClusterMetadata.Selection
import ClusterMetadata.Settings
import ClusterMetadata.Store
import ClusterMetadata.Table
import ClusterMetadata.Text.Basic
import ClusterMetadata.Text.ControlSequence
import ClusterMetadata.Text.Join
import ClusterMetadata.Text.Lowercase
import ClusterMetadata.Text.Printable
import ClusterMetadata.Text.Quoted
import ClusterMetadata.Text.Runs
import ClusterMetadata.Text.Similarity
import ClusterMetadata.Text.Split
import ClusterMetadata.Text.Trim
import ClusterMetadata.Traced
import ClusterMetadata.Proofs.Filing
import ClusterMetadata.Proofs.Loading
import ClusterMetadata.Proofs.Ensures
import ClusterMetadata.Proofs.Inheritance
import ClusterMetadata.Proofs.Hops
import ClusterMetadata.Proofs.OwnerChain
import ClusterMetadata.Proofs.Locality
import ClusterMetadata.Proofs.EnrichedPods
import ClusterMetadata.Proofs.Runs
import ClusterMetadata.Proofs.LastManifests
import ClusterMetadata.Proofs.Shelves
import ClusterMetadata.Proofs.SharedWrites
import ClusterMetadata.Proofs.ShownDrafts
import ClusterMetadata.Proofs.PlacedDrafts
import ClusterMetadata.Proofs.ProperValues
import ClusterMetadata.Proofs.LentMaps
import ClusterMetadata.Proofs.Sections
import ClusterMetadata.Proofs.Turns
import ClusterMetadata.Proofs.MergedDrafts
import ClusterMetadata.Proofs.Together
import ClusterMetadata.Proofs.SameDrafts
import ClusterMetadata.Proofs.SameAnswers
import ClusterMetadata.Proofs.ProperManifests
import ClusterMetadata.Proofs.PrintedLines
import ClusterMetadata.Proofs.SameLines
import ClusterMetadata.Proofs.EnrichedLines
import ClusterMetadata.Proofs.Histories
import ClusterMetadata.Proofs.LoadReport
import ClusterMetadata.Proofs.ChosenLines
import ClusterMetadata.Proofs.InStep
import ClusterMetadata.Proofs.AddedFields
import ClusterMetadata.Proofs.RootedDrafts
import ClusterMetadata.Proofs.HopAccounts
import ClusterMetadata.Proofs.AssembledPods
import ClusterMetadata.Proofs.Switches
import ClusterMetadata.Proofs.CallFaults
import ClusterMetadata.Proofs.KeptLeaves
import ClusterMetadata.Proofs.OrchestratorFields
import ClusterMetadata.Proofs.StoreHistories
import ClusterMetadata.Proofs.Unions
import ClusterMetadata.Proofs.FirstSections
import ClusterMetadata.Proofs.NodeSections
import ClusterMetadata.Proofs.SortedValues
import ClusterMetadata.Proofs.NewLeaves
import ClusterMetadata.Proofs.NestedSections
import ClusterMetadata.Proofs.FlatSections
import ClusterMetadata.Proofs.Identities
import ClusterMetadata.Proofs.OwnerReferences
import ClusterMetadata.Proofs.PlainWrites
import ClusterMetadata.Proofs.Deletions
import ClusterMetadata.Proofs.Overlays
import ClusterMetadata.Proofs.MergeLaws
import ClusterMetadata.Proofs.RefusedSettings
import ClusterMetadata.Proofs.CommaLists
import ClusterMetadata.Proofs.NamespacedKeys
