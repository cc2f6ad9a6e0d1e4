import ClusterMetadata.Json.Depth

/-! Reading JSON text.

Besides the standard grammar the reader accepts `NaN`, `Infinity` and `-Infinity`. A repeated key
keeps its first place and its last value. A text that cannot be read is refused at the first place
where reading stops, with the line, the column and the index of that place. -/
namespace ClusterMetadata.Json

open Decimal (Binary64)

/-- Why a text is not JSON. -/
inductive Problem where
  | byteOrderMark
  | value
  | propertyName
  | colon
  | comma
  | extraData
  | unterminatedString
  | controlCharacter
  | escape
  | unicodeEscape
deriving DecidableEq, Repr

def Problem.message : Problem → String
  | byteOrderMark => "Unexpected UTF-8 BOM (decode using utf-8-sig)"
  | value => "Expecting value"
  | propertyName => "Expecting property name enclosed in double quotes"
  | colon => "Expecting ':' delimiter"
  | comma => "Expecting ',' delimiter"
  | extraData => "Extra data"
  | unterminatedString => "Unterminated string starting at"
  | controlCharacter => "Invalid control character at"
  | escape => "Invalid \\escape"
  | unicodeEscape => "Invalid \\uXXXX escape"

/-- Why reading stopped. A place is given by the number of characters from it to the end. -/
inductive Stop where
  | problem (what : Problem) (left : Nat)
  | integerTooLong
  | tooDeep

/-- Why a text has no value: it is not JSON from an index on, an integer has more digits than are
read, or values are nested deeper than they are read. -/
inductive ReadError where
  | syntaxError (what : Problem) (index : Nat) (line column : Nat)
  | integerTooLong
  | tooDeep
deriving DecidableEq, Repr

def maxIntegerDigits : Nat := 4300

/-- A reader takes characters from the front and gives the rest back. -/
abbrev Reading (α : Type) := Except Stop (α × List Char)

def stopAt {α : Type} (what : Problem) (here : List Char) : Except Stop α :=
  .error (.problem what here.length)

def isBlankChar (c : Char) : Bool := c = ' ' || c = '\t' || c = '\n' || c = '\r'

def skipBlanks (cs : List Char) : List Char := cs.dropWhile isBlankChar

def afterWord? : List Char → List Char → Option (List Char)
  | [], cs => some cs
  | _ :: _, [] => none
  | w :: word, c :: cs => if w = c then afterWord? word cs else none

/-! ## Strings -/

def hexValue? (c : Char) : Option Nat :=
  if '0' ≤ c ∧ c ≤ '9' then some (c.toNat - '0'.toNat)
  else if 'a' ≤ c ∧ c ≤ 'f' then some (c.toNat - 'a'.toNat + 10)
  else if 'A' ≤ c ∧ c ≤ 'F' then some (c.toNat - 'A'.toNat + 10)
  else none

def fourHex? (a b c d : Char) : Option Nat := do
  return (((← hexValue? a) * 16 + (← hexValue? b)) * 16 + (← hexValue? c)) * 16 + (← hexValue? d)

def isHighSurrogate (n : Nat) : Bool := 0xd800 ≤ n && n ≤ 0xdbff

def isLowSurrogate (n : Nat) : Bool := 0xdc00 ≤ n && n ≤ 0xdfff

/-- Reads after `\u`: four digits, and for a first surrogate the second one when it follows. At
least one character must come after them, since the string is not closed yet. -/
def readUnit (cs : List Char) : Reading CodePoint :=
  match cs with
  | a :: b :: c :: d :: next :: rest =>
    match fourHex? a b c d with
    | none => stopAt .unicodeEscape ('u' :: cs)
    | some n =>
      match isHighSurrogate n, next, rest with
      | true, '\\', 'u' :: e :: f :: g :: h :: after :: rest' =>
        match fourHex? e f g h with
        | none => stopAt .unicodeEscape rest
        | some m =>
          if isLowSurrogate m then
            .ok (.ofNumber (0x10000 + (n - 0xd800) * 0x400 + (m - 0xdc00)), after :: rest')
          else .ok (.ofNumber n, next :: rest)
      | _, _, _ => .ok (.ofNumber n, next :: rest)
  | _ => stopAt .unicodeEscape ('u' :: cs)

def simpleEscape? : Char → Option Char
  | '"' => some '"'
  | '\\' => some '\\'
  | '/' => some '/'
  | 'b' => some '\x08'
  | 'f' => some '\x0c'
  | 'n' => some '\n'
  | 'r' => some '\r'
  | 't' => some '\t'
  | _ => none

/-- Reads a string after its opening quote. `start` holds the characters from that quote on and
`taken` those read, last first. The fuel bounds the number of steps. -/
def readString : Nat → List Char → List CodePoint → List Char → Reading Text
  | 0, start, _, _ => stopAt .unterminatedString start
  | _ + 1, start, _, [] => stopAt .unterminatedString start
  | fuel + 1, start, taken, c :: cs =>
    if c = '"' then .ok (⟨taken.reverse⟩, cs)
    else if c = '\\' then
      match cs with
      | [] => stopAt .unterminatedString start
      | 'u' :: rest =>
        match readUnit rest with
        | .error stop => .error stop
        | .ok (read, rest') => readString fuel start (read :: taken) rest'
      | e :: rest =>
        match simpleEscape? e with
        | some read => readString fuel start (.ofChar read :: taken) rest
        | none => stopAt .escape (c :: cs)
    else if c.toNat < 0x20 then stopAt .controlCharacter (c :: cs)
    else readString fuel start (.ofChar c :: taken) cs

/-! ## Numbers -/

def isDigit (c : Char) : Bool := '0' ≤ c && c ≤ '9'

def digitsValue (ds : List Char) : Nat :=
  ds.foldl (fun n d => 10 * n + (d.toNat - '0'.toNat)) 0

def wholePart? (cs : List Char) : Option (List Char × List Char) :=
  match cs with
  | '0' :: rest => some (['0'], rest)
  | c :: _ => if isDigit c then some (cs.takeWhile isDigit, cs.dropWhile isDigit) else none
  | [] => none

/-- The digits after a point, when at least one follows it. -/
def fraction (cs : List Char) : List Char × List Char :=
  match cs with
  | '.' :: d :: rest =>
    if isDigit d then ((d :: rest).takeWhile isDigit, (d :: rest).dropWhile isDigit) else ([], cs)
  | _ => ([], cs)

/-- The exponent after `e`, when at least one digit follows. -/
def exponent? (cs : List Char) : Option Int × List Char :=
  let signed (negative : Bool) (ds : List Char) : Option Int × List Char :=
    match ds.takeWhile isDigit with
    | [] => (none, cs)
    | d :: rest =>
      let n := Int.ofNat (digitsValue (d :: rest))
      (some (if negative then -n else n), ds.dropWhile isDigit)
  match cs with
  | e :: rest =>
    if e = 'e' ∨ e = 'E' then
      match rest with
      | '-' :: ds => signed true ds
      | '+' :: ds => signed false ds
      | ds => signed false ds
    else (none, cs)
  | [] => (none, cs)

/-- Reads an unsigned number after its sign. A point or an exponent makes it a binary number. -/
def readNumber (negative : Bool) (start cs : List Char) : Reading Value :=
  match wholePart? cs with
  | none => stopAt .value start
  | some (whole, afterWhole) =>
    let (decimals, afterPoint) := fraction afterWhole
    let (exponent, rest) := exponent? afterPoint
    if decimals.isEmpty ∧ exponent.isNone then
      if maxIntegerDigits < whole.length then .error .integerTooLong
      else
        let n := Int.ofNat (digitsValue whole)
        .ok (.int (if negative then -n else n), rest)
    else
      let ds := whole ++ decimals
      let power := exponent.getD 0 - Int.ofNat decimals.length
      .ok (.float (Binary64.ofDecimal negative (digitsValue ds) ds.length power), rest)

/-! ## Values -/

def wordValues : List (String × Value) :=
  [("null", .null), ("true", .bool true), ("false", .bool false), ("NaN", .float .nan),
   ("Infinity", .float (.infinite false)), ("-Infinity", .float (.infinite true))]

def readWord? (cs : List Char) : Option (Value × List Char) :=
  wordValues.findSome? fun (word, v) => (afterWord? word.toList cs).map ((v, ·))

/-- Reads what is neither a string nor an object nor an array. -/
def readScalar (cs : List Char) : Reading Value :=
  match readWord? cs with
  | some found => .ok found
  | none =>
    match cs with
    | '-' :: rest => readNumber true cs rest
    | _ => readNumber false cs cs

mutual
/-- Reads a value, with room for so many arrays and objects inside each other. Each step below takes
at least one character after at most two calls, so of fuel twice the length of the text there is
always more left than there are characters. -/
def readValue : Nat → Nat → List Char → Except Stop (Value × List Char)
  | 0, _, cs => stopAt .value cs
  | fuel + 1, room, cs =>
    match cs with
    | '"' :: rest => do
      let (s, rest) ← readString fuel cs [] rest
      return (.string s, rest)
    | '\x7b' :: rest =>
      match room, skipBlanks rest with
      | 0, _ => .error .tooDeep
      | _, '\x7d' :: rest => .ok (.object [], rest)
      | room + 1, rest => readFields fuel room [] rest
    | '[' :: rest =>
      match room, skipBlanks rest with
      | 0, _ => .error .tooDeep
      | _, ']' :: rest => .ok (.array [], rest)
      | room + 1, rest => readItems fuel room [] rest
    | _ => readScalar cs
termination_by structural fuel => fuel

/-- Reads the items of an array from the next one on; `taken` holds those before, last first. -/
def readItems : Nat → Nat → List Value → List Char → Except Stop (Value × List Char)
  | 0, _, _, cs => stopAt .value cs
  | fuel + 1, room, taken, cs => do
    let (v, rest) ← readValue fuel room cs
    match skipBlanks rest with
    | ']' :: rest => return (.array (v :: taken).reverse, rest)
    | ',' :: rest => readItems fuel room (v :: taken) (skipBlanks rest)
    | rest => stopAt .comma rest
termination_by structural fuel => fuel

/-- Reads the fields of an object from the next one on; `taken` holds those before. -/
def readFields : Nat → Nat → Fields → List Char → Except Stop (Value × List Char)
  | 0, _, _, cs => stopAt .value cs
  | fuel + 1, room, taken, cs =>
    match cs with
    | '"' :: rest => do
      let (key, rest) ← readString fuel cs [] rest
      match skipBlanks rest with
      | ':' :: rest =>
        let (v, rest) ← readValue fuel room (skipBlanks rest)
        let taken := taken.insert key v
        match skipBlanks rest with
        | '\x7d' :: rest => return (.object taken, rest)
        | ',' :: rest => readFields fuel room taken (skipBlanks rest)
        | rest => stopAt .comma rest
      | rest => stopAt .colon rest
    | _ => stopAt .propertyName cs
termination_by structural fuel => fuel
end

def readDocument (cs : List Char) : Except Stop Value :=
  match cs with
  | '\ufeff' :: _ => stopAt .byteOrderMark cs
  | _ => do
    let (v, rest) ← readValue (2 * cs.length + 2) readingRoom (skipBlanks cs)
    match skipBlanks rest with
    | [] => return v
    | rest => stopAt .extraData rest

/-- The line and the column, both counted from one, of the place after the given characters. -/
def placeAfter (before : List Char) : Nat × Nat :=
  (before.count '\n' + 1, (before.reverse.takeWhile (· != '\n')).length + 1)

def Value.parse (s : String) : Except ReadError Value :=
  let cs := s.toList
  match readDocument cs with
  | .ok v => .ok v
  | .error .integerTooLong => .error .integerTooLong
  | .error .tooDeep => .error .tooDeep
  | .error (.problem what left) =>
    let index := cs.length - left
    let (line, column) := placeAfter (cs.take index)
    .error (.syntaxError what index line column)

def ReadError.message : ReadError → String
  | .syntaxError what index line column =>
    what.message ++ ": line " ++ toString line ++ " column " ++ toString column ++
      " (char " ++ toString index ++ ")"
  | .integerTooLong => "Exceeds the limit (" ++ toString maxIntegerDigits ++
      " digits) for integer string conversion"
  | .tooDeep => "Values are nested too deeply"

end ClusterMetadata.Json
