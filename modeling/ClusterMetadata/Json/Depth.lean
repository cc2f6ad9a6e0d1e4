import ClusterMetadata.Json.Value

/-! How deep values are nested, and how deep they are still read and written. -/
namespace ClusterMetadata.Json

/-- The most arrays and objects inside each other that are read. -/
def readingRoom : Nat := 983

/-- The most arrays and objects inside each other that are written. -/
def writingRoom : Nat := 985

namespace Value

mutual
/-- How many arrays and objects of a value are inside each other. -/
def depth : Value → Nat
  | array items => itemsDepth items + 1
  | object fields => fieldsDepth fields + 1
  | _ => 0
termination_by structural v => v

def itemsDepth : List Value → Nat
  | [] => 0
  | v :: rest => max (depth v) (itemsDepth rest)
termination_by structural items => items

def fieldsDepth : List (Text × Value) → Nat
  | [] => 0
  | (_, v) :: rest => max (depth v) (fieldsDepth rest)
termination_by structural fields => fields
end

mutual
/-- The steps that copying a value goes down: two for each array and object around what is
innermost, two for a plain value and three for an empty array or object. -/
def copySteps : Value → Nat
  | array items => max 1 (itemsCopySteps items) + 2
  | object fields => max 1 (fieldsCopySteps fields) + 2
  | _ => 2
termination_by structural v => v

def itemsCopySteps : List Value → Nat
  | [] => 0
  | v :: rest => max (copySteps v) (itemsCopySteps rest)
termination_by structural items => items

def fieldsCopySteps : List (Text × Value) → Nat
  | [] => 0
  | (_, v) :: rest => max (copySteps v) (fieldsCopySteps rest)
termination_by structural fields => fields
end

end Value

end ClusterMetadata.Json
