import ClusterMetadata.Document.Basic

/-! Adjustments made to a native document after it is built. -/
namespace ClusterMetadata

open Json (Value)

/-- Adds a value at a dotted key, or moves the labels and the annotations under a section. A map that
is added is a new one each time. -/
inductive FieldOption where
  | field (key : Text) (value : Value)
  | nest (under : Text)

/-- The sections that are moved, in the order in which they move. -/
def movedSections : List Text := ["labels", "annotations"]

def nestedPath (under name : Text) : Path := Path.ofKey (under ++ Text.ofString "." ++ name)

/-- Takes one section away and, unless it was null, adds it under another. -/
def Document.nestSection (d : Document) (under name : Text) : Document :=
  let rest := Table.erase d name
  match Table.get? d name with
  | none | some .null => rest
  | some value => Document.safePut rest (nestedPath under name) value

namespace FieldOption

def apply (option : FieldOption) (d : Document) : Document :=
  match option with
  | field key value => Document.safePut d (Path.ofKey key) value
  | nest under => movedSections.foldl (fun d name => d.nestSection under name) d

def applyAll (options : List FieldOption) (d : Document) : Document :=
  options.foldl (fun d option => option.apply d) d

end FieldOption

end ClusterMetadata
