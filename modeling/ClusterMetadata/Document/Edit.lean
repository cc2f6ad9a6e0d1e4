import ClusterMetadata.Document.FieldOption

/-! Edits of a document, and where they leave the maps that were in it.

A map in a document stays the same map while fields are written into it. It is displaced when an
edit puts something else in its place or in the place of a map around it; moving a section takes
the maps in it along. `follow` says where the map at a path is after an edit. -/
namespace ClusterMetadata.Document

open Json (Value)

inductive Edit where
  | put (path : Path) (value : Value)
  | safePut (path : Path) (value : Value)
  | delete (path : Path)
  | merge (other : Document)
  | nest (under : Text)

def Edit.ofOption : FieldOption → Edit
  | .field key value => .safePut (Path.ofKey key) value
  | .nest under => .nest under

def Edit.apply (edit : Edit) (d : Document) : Document :=
  match edit with
  | .put path value => Document.put d path value
  | .safePut path value => Document.safePut d path value
  | .delete path => Document.delete d path
  | .merge other => Document.merge d other
  | .nest under => (FieldOption.nest under).apply d

/-- The place that `safePut` overwrites: the path itself, or, for a leaf that meets a map, the field
of the map that takes the leaf. -/
def overwritten (path : Path) (value : Value) : Path :=
  if value.isObject then path else path ++ [valueField]

/-- Whether a document has a leaf on the way to a path or at it. -/
def leafOnTheWay (d : Document) : Path → Bool
  | [] => false
  | name :: rest =>
    match Table.get? d name with
    | none => false
    | some (.object fields) => leafOnTheWay fields rest
    | some _ => true

/-- A path that stays, unless something was put at it or around it. -/
def staysUnless (target path : Path) : Option Path :=
  if target.isPrefixOf path then none else some path

/-- Where moving one section leaves the map at a path. -/
def followSection (d : Document) (under name : Text) (path : Path) : Option Path :=
  match Table.get? d name with
  | none | some .null => some path
  | some value =>
    if [name].isPrefixOf path then some (nestedPath under name ++ path.tail)
    else staysUnless (overwritten (nestedPath under name) value) path

def followSections (under : Text) : List Text → Document → Path → Option Path
  | [], _, path => some path
  | name :: names, d, path =>
    match followSection d under name path with
    | some path => followSections under names (d.nestSection under name) path
    | none => none

/-- Where an edit leaves the map at a path; nothing when the map is displaced. -/
def Edit.follow (edit : Edit) (d : Document) (path : Path) : Option Path :=
  match edit with
  | .put target _ => staysUnless target path
  | .safePut target value => staysUnless (overwritten target value) path
  | .delete target => staysUnless target path
  | .merge other => if leafOnTheWay other path then none else some path
  | .nest under => followSections under movedSections d path

end ClusterMetadata.Document
