import ClusterMetadata.Document.Depth
import ClusterMetadata.Document.Edit
import ClusterMetadata.Fault

/-! A session edits several named documents and reports on every step.

A map that is read stays the document's own map: what later steps write into it shows in the
report, until the map is displaced. The state of the edited document, in contrast, is taken down
right after each step. -/
namespace ClusterMetadata.Document

open Json (Value)

/-- What a step answered: a value that no longer changes, or a map still in a document. -/
inductive Reading where
  | settled (value : Value)
  | attached (document : Text) (path : Path)

/-- Merging a blank value does nothing; a clone is a copy under another name. -/
inductive Action where
  | get (key : Text)
  | has (key : Text)
  | put (key : Text) (value : Value)
  | safePut (key : Text) (value : Value)
  | delete (key : Text)
  | mergeValue (other : Value)
  | mergeFrom (name : Text)
  | clone (name : Text)
  | option (option : FieldOption)

/-- Documents by their names, and the answer of each step with the edited document after it, the
last step first. -/
structure Session where
  documents : Table Text Document
  steps : List (Except Fault Reading × Document)

namespace Session

def copyName : Text := "MetadataDocument"

def mainDocument : Text := "doc"

def start (documents : Table Text Document) : Session where
  documents :=
    if Table.contains documents mainDocument then documents
    else Table.insert documents mainDocument []
  steps := []

def document (s : Session) (name : Text) : Document := (Table.get? s.documents name).getD []

def shown (s : Session) : Reading → Value
  | .settled value => value
  | .attached name path => (Document.get? (s.document name) path).getD .null

/-- Replaces a document; the answers attached to it go where `follow` says, or settle. -/
def replace (s : Session) (name : Text) (d : Document) (follow : Path → Option Path) : Session :=
  let settle : Reading → Reading
    | .attached owner path =>
      if owner = name then
        match follow path with
        | some path => .attached owner path
        | none => .settled (s.shown (.attached owner path))
      else .attached owner path
    | settled => settled
  { documents := Table.insert s.documents name d
    steps := s.steps.map fun (answer, after) => (answer.map settle, after) }

theorem document_replace (s : Session) (name : Text) (d : Document) (follow : Path → Option Path)
    (other : Text) :
    (s.replace name d follow).document other = if name = other then d else s.document other := by
  rw [document, replace, Table.get?_insert, document]
  split <;> rfl

def edit (s : Session) (name : Text) (e : Edit) : Session :=
  s.replace name (e.apply (s.document name)) (e.follow (s.document name))

theorem document_edit (s : Session) (name : Text) (e : Edit) :
    (s.edit name e).document name = e.apply (s.document name) := by
  rw [edit, document_replace, if_pos rfl]

/-- The answer to a look at a path: a map stays attached. -/
def read (s : Session) (name : Text) (path : Path) : Reading :=
  match Document.get? (s.document name) path with
  | none => .settled .null
  | some (.object _) => .attached name path
  | some leaf => .settled leaf

/-- What is read shows what stands at the path, and null where nothing stands. -/
theorem shown_read (s : Session) (name : Text) (path : Path) :
    s.shown (s.read name path) = (Document.get? (s.document name) path).getD .null := by
  rw [read]
  split
  · next missing => rw [shown, missing, Option.getD_none]
  · rw [shown]
  · next leaf _ there => rw [shown, there, Option.getD_some]

def done : Except Fault Reading := .ok (.settled .null)

/-- Merges a document, as far as there is room. -/
def merge (s : Session) (name : Text) (other : Document) : Except Fault Reading × Session :=
  (if Document.fits other then done else .error .tooDeep,
    s.edit name (.merge (Document.part mergingRoom (s.document name) other)))

/-- A document for which there is room is merged whole. -/
theorem document_merge {s : Session} {name : Text} {other : Document}
    (room : Document.fits other = true) :
    (s.merge name other).2.document name = Document.merge (s.document name) other := by
  have whole : Document.part mergingRoom (s.document name) other = other :=
    part_eq_self _ _ _ (of_decide_eq_true room)
  rw [merge, whole, document_edit, Edit.apply]

def clone (s : Session) (name copy : Text) : Except Fault Reading × Session :=
  if (Value.object (s.document name)).copySteps ≤ mergingRoom then
    (.ok (.settled (.string copyName)), s.replace copy (s.document name) fun _ => none)
  else (.error .tooDeep, s)

/-- The answer of a step and the session after it. -/
def act (s : Session) (name : Text) : Action → Except Fault Reading × Session
  | .get key => (.ok (s.read name (Path.ofKey key)), s)
  | .has key => (.ok (.settled (.bool (Document.has (s.document name) (Path.ofKey key)))), s)
  | .put key value => (done, s.edit name (.put (Path.ofKey key) value))
  | .safePut key value => (done, s.edit name (.safePut (Path.ofKey key) value))
  | .delete key =>
    let found := Document.has (s.document name) (Path.ofKey key)
    (.ok (.settled (.bool found)),
      if found then s.edit name (.delete (Path.ofKey key)) else s)
  | .mergeValue other =>
    match other with
    | .object fields => s.merge name fields
    | other => (if other.isBlank then done else .error .notAnObject, s)
  | .mergeFrom other => s.merge name (s.document other)
  | .clone copy => s.clone name copy
  | .option option => (done, s.edit name (.ofOption option))

/-- Takes a step on a document and notes its answer. -/
def step (s : Session) (name : Text) (action : Action) : Session :=
  let (answer, after) := s.act name action
  { after with steps := (answer, after.document name) :: after.steps }

/-- The answers of all steps as they show in the end, each with the document after its step. -/
def report (s : Session) : List (Except Fault Value × Document) :=
  s.steps.reverse.map fun (answer, after) => (answer.map s.shown, after)

end Session

end ClusterMetadata.Document
