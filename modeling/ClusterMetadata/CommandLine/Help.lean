/-! The layout of help texts. -/
namespace ClusterMetadata.CommandLine

def helpWidth : Nat := 78

/-- Adds a word to lines, the last one first: to the last line while it fits, or on a new one. -/
def addWord (indent : String) (lines : List String) (word : String) : List String :=
  match lines with
  | [] => [indent ++ word]
  | line :: before =>
    if line.length + 1 + word.length ≤ helpWidth then (line ++ " " ++ word) :: before
    else (indent ++ word) :: line :: before

def wrap (indent : String) (words : List String) : List String :=
  (words.foldl (addWord indent) []).reverse

/-- A list of terms with what they mean, in two columns under a title. -/
def definitions (title : String) (rows : List (String × String)) : List String :=
  let width := (rows.map (·.1.length)).foldl max 0
  (title ++ ":") :: rows.map fun (term, meaning) =>
    "  " ++ term ++ String.ofList (List.replicate (width - term.length + 2) ' ') ++ meaning

end ClusterMetadata.CommandLine
