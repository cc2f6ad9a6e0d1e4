/-! Control sequences for terminals.

A sequence starts with an escape and an opening bracket; then come parameters, intermediate
characters and one final character. Text for a stream that is no terminal is printed without
them. -/
namespace ClusterMetadata.Text

def isParameter (c : Char) : Bool := '0' ≤ c && c ≤ '?'

def isIntermediate (c : Char) : Bool := ' ' ≤ c && c ≤ '/'

def isFinal (c : Char) : Bool := '@' ≤ c && c ≤ '~'

/-- What follows the control sequence at the front, if a complete one stands there. -/
def afterSequence? : List Char → Option (List Char)
  | '\x1b' :: '[' :: rest =>
    match (rest.dropWhile isParameter).dropWhile isIntermediate with
    | c :: after => if isFinal c then some after else none
    | [] => none
  | _ => none

/-- Leaves the control sequences out; every step takes a character, so the length is fuel enough. -/
def plainChars : Nat → List Char → List Char
  | 0, cs => cs
  | _ + 1, [] => []
  | fuel + 1, c :: cs =>
    match afterSequence? (c :: cs) with
    | some after => plainChars fuel after
    | none => c :: plainChars fuel cs

/-- The text without its control sequences. What is left is not looked at again, even where it
forms a sequence. -/
def withoutSequences (s : String) : String := String.ofList (plainChars s.length s.toList)

end ClusterMetadata.Text
