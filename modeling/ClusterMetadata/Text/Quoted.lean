import ClusterMetadata.Text.Basic
import ClusterMetadata.Text.Printable

/-! Text between quotes, as it stands inside a written value.

Single quotes are used unless the text has a single quote and no double one. The quote in use, the
backslash, line breaks, tabs and everything that is not printable are escaped. -/
namespace ClusterMetadata.Text

/-- One character between quotes: itself, or its escape. -/
def quotedChar (quote c : Char) : List Char :=
  if c = quote ∨ c = '\\' then ['\\', c]
  else if c = '\t' then ['\\', 't']
  else if c = '\n' then ['\\', 'n']
  else if c = '\r' then ['\\', 'r']
  else if isPrintable c then [c]
  else if c.toNat < 0x100 then '\\' :: 'x' :: hex 2 c.toNat
  else if c.toNat < 0x10000 then '\\' :: 'u' :: hex 4 c.toNat
  else '\\' :: 'U' :: hex 8 c.toNat

def quotedPoint (quote : Char) (p : CodePoint) : List Char :=
  match p.char? with
  | some c => quotedChar quote c
  | none => printedPoint p

/-- The quotes a text is written between. -/
def quoteFor (t : Text) : Char :=
  if .ofChar '\'' ∈ t.points ∧ .ofChar '"' ∉ t.points then '"' else '\''

def quoted (t : Text) : String :=
  String.ofList (quoteFor t :: t.points.flatMap (quotedPoint (quoteFor t)) ++ [quoteFor t])

end ClusterMetadata.Text
