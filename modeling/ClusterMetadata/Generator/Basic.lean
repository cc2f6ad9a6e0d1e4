import ClusterMetadata.Draft.Merge
import ClusterMetadata.Projector
import ClusterMetadata.Store

/-! Generators make the documents of one kind of resource, and answer other generators by name.

A generator knows its peers only as something that may answer a name with a document, so owner
chains are put together when the generators are built. -/
namespace ClusterMetadata

/-- Answers a name with the draft of a native document, adjusted by options. -/
structure Peer where
  ask : Text → List FieldOption → Drafting (Option Draft)

/-- Makes the documents of the resources of one kind, which it looks up in a store. -/
structure Generator where
  kind : Kind
  store : Option Store
  projector : Projector
  build : Resource → List FieldOption → Drafting Draft

/-- The document that a draft shows, if there is a draft. -/
def Draft.documentOf : Option Draft → Drafting (Option Document)
  | some d => some <$> d.document
  | none => pure none

namespace Generator

/-- The draft of the native document; nothing for what is not a resource of the kind. -/
def draft (g : Generator) (r : Option Resource) (options : List FieldOption) :
    Drafting (Option Draft) :=
  match r with
  | none => pure none
  | some r => if r.kind = g.kind then some <$> g.build r options else pure none

/-- The native document; nothing for what is not a resource of the kind. -/
def native (g : Generator) (r : Option Resource) (options : List FieldOption) :
    Drafting (Option Document) := do
  Draft.documentOf (← g.draft r options)

def stored (g : Generator) (name : Text) : Option Resource := lookup g.store name (some g.kind)

def fromName (g : Generator) (name : Text) (options : List FieldOption) :
    Drafting (Option Document) :=
  g.native (g.stored name) options

def orchestrator (g : Generator) (r : Option Resource) : Except Fault Document :=
  g.projector.orchestrator r

/-- Both documents in one; nothing without a native document. -/
def generate (g : Generator) (r : Option Resource) (options : List FieldOption) :
    Drafting (Option Document) := do
  let native ← g.native r options
  let orchestrator ← g.orchestrator r
  return native.map fun d => d.union orchestrator

/-- The generator as others see it. -/
def peer (g : Generator) : Peer := ⟨fun name options => g.draft (g.stored name) options⟩

end Generator

namespace Peer

/-- A peer that reports every question under its own name and answers them all alike. -/
def recorded (name : Text) (answer : Option Document) : Peer where
  ask asked options := do
    Traced.report (.asked name asked options.length)
    match answer with
    | some d => some <$> (Draft.adjustAll options (.ofFields d) : OnShelf Draft)
    | none => return none

end Peer

namespace Projector

/-- Merges what a namespace's generator answers over the draft of a resource in it. -/
def mergeSpace (peer : Option Peer) (r : Resource) (d : Draft) : Drafting Draft :=
  match peer with
  | none => pure d
  | some peer => do
    let space ← r.space
    if space = "" then return d
    match ← peer.ask space [] with
    | some other => d.merge other
    | none => return d

/-- The draft of a resource together with what its namespace adds. -/
def nativeInSpace (p : Projector) (peer : Option Peer) (field : Text) (r : Resource)
    (options : List FieldOption) : Drafting Draft := do
  mergeSpace peer r (← p.native field r options)

/-- The native document of a resource together with what its namespace adds. -/
def document (p : Projector) (peer : Option Peer) (field : Text) (r : Resource)
    (options : List FieldOption) : Drafting Document := do
  (← p.nativeInSpace peer field r options).document

end Projector

end ClusterMetadata
