import ClusterMetadata.Draft.Basic
import ClusterMetadata.Selection

/-! The sections of a draft that labels and annotations become. -/
namespace ClusterMetadata.Draft

open Json (Value Fields)

/-- Puts the value of a label or an annotation on the shelf when it is a map that was not lent
before. -/
def lend (loans : Loans) : Text × Value → OnShelf Loans
  | (key, .object fields) => do
    if loans.contains key then return loans
    else return loans.insert key (← SharedMap.make (← shareFields (ofFields fields)))
  | _ => return loans

/-- Lends the maps among some entries, and gives the maps that were lent by their keys. -/
def lendAll (lender : Lender) (entries : Fields) : OnShelf Loans := do
  if entries.all fun entry => !entry.2.isObject then return {}
  else
    let loans ← entries.foldlM lend ((← get).lent.getD lender {})
    modify fun shelf => { shelf with lent := shelf.lent.insert lender loans }
    return loans

/-- The node of the value of a label or an annotation: the shared map when it was lent. -/
def lentNode (loans : Loans) (entry : Text × Value) : Node :=
  match loans[entry.1]? with
  | some m => .shared m
  | none => .ofValue entry.2

def addEntry (dedot : Bool) (d : Draft) (key : Text) (node : Node) : OnShelf Draft :=
  if dedot then return Table.insert d (dedotted key) node
  else d.safePut (Path.ofKey key) node

/-- The section that entries become, with the maps that were lent. -/
def ofEntries (loans : Loans) (dedot : Bool) (entries : Fields) : OnShelf Draft :=
  entries.foldlM (fun d entry => addEntry dedot d entry.1 (lentNode loans entry)) []

/-- The section that some of a resource's labels or annotations become. -/
def ofMap (lender : Lender) (dedot : Bool) (source : Fields) : OnShelf Draft := do
  let entries := Json.sortFields source
  ofEntries (← lendAll lender entries) dedot entries

end ClusterMetadata.Draft
