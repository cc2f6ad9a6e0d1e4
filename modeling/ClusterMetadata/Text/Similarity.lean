/-! How alike two texts are.

The longest common block is found, then the longest ones before and after it, and so on; the
likeness is twice the number of characters in these blocks over the number of all characters. -/
namespace ClusterMetadata.Text

def commonPrefixLength : List Char → List Char → Nat
  | a :: as, b :: bs => if a = b then commonPrefixLength as bs + 1 else 0
  | _, _ => 0

/-- A block that two texts have in common: where it starts in each, and its length. -/
structure Block where
  left : Nat
  right : Nat
  length : Nat

/-- The longest common block; of equally long ones the first in the left text, then in the right. -/
def longestBlock (a b : List Char) : Block :=
  (List.range a.length).foldl (fun best i =>
    (List.range b.length).foldl (fun best j =>
      let n := commonPrefixLength (a.drop i) (b.drop j)
      if best.length < n then ⟨i, j, n⟩ else best) best) ⟨0, 0, 0⟩

/-- The number of characters in common blocks. Every block takes a character of the first text, so
its length is fuel enough. -/
def commonLength : Nat → List Char → List Char → Nat
  | 0, _, _ => 0
  | fuel + 1, a, b =>
    let block := longestBlock a b
    if block.length = 0 then 0
    else block.length + commonLength fuel (a.take block.left) (b.take block.right) +
      commonLength fuel (a.drop (block.left + block.length)) (b.drop (block.right + block.length))

/-- Twice the common length, and the length of both texts together. -/
def likeness (a b : String) : Nat × Nat :=
  (2 * commonLength a.length a.toList b.toList, a.length + b.length)

/-- The least likeness of texts that may be mistaken for each other, in tenths. -/
def closeTenths : Nat := 6

/-- The most texts that are suggested. -/
def maxSuggestions : Nat := 3

/-- Whether texts of two lengths can be alike enough, as their common blocks are at most as long as
the shorter one. -/
def mayBeClose (a b : Nat) : Bool := closeTenths * (a + b) ≤ 10 * (2 * min a b)

/-- The texts among some choices that are close to a text: the most alike ones, in ascending order
of the texts. -/
def closeTo (s : String) (choices : List String) : List String :=
  let possible := choices.filter fun choice => mayBeClose choice.length s.length
  let scored := possible.map fun choice => (choice, likeness choice s)
  let close := scored.filter fun (_, common, all) => closeTenths * all ≤ 10 * common
  let best := close.mergeSort fun (x, cx, ax) (y, cy, ay) =>
    cy * ax < cx * ay || (cx * ay == cy * ax && y ≤ x)
  ((best.take maxSuggestions).map (·.1)).mergeSort fun x y => x ≤ y

end ClusterMetadata.Text
