/-
  Sluice.Text.Quoted

  Text shown between double quotes, the way it appears inside a rendered collection: a quote,
  a backslash and the common controls get a two-character escape, any other hidden character
  is written as its code point between braces.
-/

import Sluice.Text.Class

namespace Sluice.Text

/-- How one character appears between quotes. -/
def quotedImage (c : Char) : List Char :=
  match c with
  | '"' => ['\\', '"']
  | '\\' => ['\\', '\\']
  | '\n' => ['\\', 'n']
  | '\r' => ['\\', 'r']
  | '\t' => ['\\', 't']
  | c =>
    if c.toNat = 0 then ['\\', '0']
    else if isHidden c then ['\\', 'u', '\x7b'] ++ hexDigits c.toNat ++ ['\x7d']
    else [c]

/-- A text between double quotes. -/
def quoted (s : String) : String :=
  String.ofList ('"' :: s.toList.flatMap quotedImage ++ ['"'])

end Sluice.Text
