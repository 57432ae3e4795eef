/-
  Sluice.Source.Balanced

  Balanced text: every bracket outside string literals is closed by its partner in order, and
  every string literal is closed.
-/

import Sluice.Source.Quoting

namespace Sluice.Source

/-- The bracket that closes an opening bracket. -/
def closerOf? (c : Char) : Option Char :=
  match c with
  | '\x7b' => some '\x7d'
  | '[' => some ']'
  | '(' => some ')'
  | _ => none

/-- Whether the rest of a text is balanced, when `due` are the closing brackets still due,
innermost first. -/
def balancedFrom (q : Quoting) (due : List Char) : List Char → Bool
  | [] => due.isEmpty && q == .outside
  | c :: rest =>
    match q with
    | .outside =>
      match closerOf? c with
      | some closer => balancedFrom .outside (closer :: due) rest
      | none =>
        if isClosing c then
          match due with
          | [] => false
          | closer :: due => c == closer && balancedFrom .outside due rest
        else balancedFrom (q.after c) due rest
    | q => balancedFrom (q.after c) due rest

/-- Whether a text is balanced. -/
def isBalanced (cs : List Char) : Bool :=
  balancedFrom .outside [] cs

end Sluice.Source
