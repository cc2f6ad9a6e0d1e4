import ClusterMetadata.Text.Basic

/-! The kinds of resource that have a typed view. -/
namespace ClusterMetadata

inductive Kind where
  | pod | replicaSet | deployment | statefulSet | daemonSet | job | cronJob | node | namespace
deriving DecidableEq, Repr

namespace Kind

def all : List Kind :=
  [pod, replicaSet, deployment, statefulSet, daemonSet, job, cronJob, node, .namespace]

def name : Kind → String
  | pod => "Pod"
  | replicaSet => "ReplicaSet"
  | deployment => "Deployment"
  | statefulSet => "StatefulSet"
  | daemonSet => "DaemonSet"
  | job => "Job"
  | cronJob => "CronJob"
  | node => "Node"
  | .namespace => "Namespace"

/-- The field a resource of the kind has in a document: its name in small letters. -/
def field : Kind → String
  | pod => "pod"
  | replicaSet => "replicaset"
  | deployment => "deployment"
  | statefulSet => "statefulset"
  | daemonSet => "daemonset"
  | job => "job"
  | cronJob => "cronjob"
  | node => "node"
  | .namespace => "namespace"

/-- Nodes and namespaces belong to the whole cluster, all others to a namespace. -/
def isNamespaced : Kind → Bool
  | node | .namespace => false
  | _ => true

/-- The kinds whose name is taken over from a controller reference. -/
def isController : Kind → Bool
  | deployment | replicaSet | statefulSet | daemonSet | job | cronJob => true
  | _ => false

def ofName? (name : Text) : Option Kind := all.find? fun k => k.name = name

theorem mem_all (k : Kind) : k ∈ all := by cases k <;> decide

end Kind

end ClusterMetadata
