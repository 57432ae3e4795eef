/-
  Sluice.Source.Quoting

  Where a reader of source text stands relative to string literals. A literal is opened and
  closed by the same quote, and a backslash inside it takes the next character along.
-/

namespace Sluice.Source

/-- Outside a string literal, or inside one opened by `quote`, possibly right after a
backslash. -/
inductive Quoting where
  | outside
  | inside (quote : Char)
  | escaped (quote : Char)
deriving Repr, DecidableEq

/-- Either quote character. -/
def isQuote (c : Char) : Bool :=
  c = '"' || c = '\''

/-- An opening bracket. -/
def isOpening (c : Char) : Bool :=
  c = '\x7b' || c = '[' || c = '('

/-- A closing bracket. -/
def isClosing (c : Char) : Bool :=
  c = '\x7d' || c = ']' || c = ')'

/-- Where the reader stands after one more character. -/
def Quoting.after (q : Quoting) (c : Char) : Quoting :=
  match q with
  | .outside => if isQuote c then .inside c else .outside
  | .inside quote =>
    if c = '\\' then .escaped quote else if c = quote then .outside else .inside quote
  | .escaped quote => .inside quote

end Sluice.Source
