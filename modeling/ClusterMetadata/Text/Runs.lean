/-! Sets of code points written as runs. -/
namespace ClusterMetadata.Text

/-- Membership in a set of code points given by the ascending list of points where membership
changes: the first and every second point open a run, the others are the first point after it. -/
def inRuns : List Nat → Nat → Bool
  | [], _ => false
  | [first], point => first ≤ point
  | first :: beyond :: rest, point =>
    if point < first then false else if point < beyond then true else inRuns rest point

end ClusterMetadata.Text
