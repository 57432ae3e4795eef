/-
  Sluice.Script.Expr

  Scripts: an optional list of function definitions and a body. Operators, method calls and
  function calls are all calls of a function by name, and each remembers where its name or
  symbol stands; an index remembers where its subscript stands.

  Equality binds weakest, then the sum, then product and remainder, then calls and indices.
-/

import Sluice.Script.Token

namespace Sluice.Script

/-- An expression. -/
inductive Expr where
  | float (x : Number)
  | integer (n : Nat)
  | text (s : String)
  | char (c : Char)
  | unit
  | named (name : String) (position : Position)
  | call (name : String) (args : List Expr) (position : Position)
  | index (target : Expr) (subscript : Expr) (position : Position)
  | record (fields : List (String × Expr))
  /-- A function value; only its being one can be observed. -/
  | closure
  | throw (message : Expr) (position : Position)
  /-- A loop without end. -/
  | loop (position : Position)

/-- A function definition. -/
structure Function where
  name : String
  params : List String
  body : Expr

/-- A script. -/
structure Source where
  functions : List Function
  body : Expr

/-- Reading one thing off the front of a token list. -/
abbrev Parser (α : Type) := List Located → Except CompileError (α × List Located)

/-- Refuse the first token: the script ends too early, or goes on with something else. -/
def refuse {α : Type} : Parser α
  | (.finish, p) :: _ => .error (.incomplete p)
  | (_, p) :: _ => .error (.unexpected p)
  | [] => .error (.incomplete {})

/-- Whether the first token is a symbol. -/
def startsWith (s : String) : List Located → Bool
  | (.symbol t, _) :: _ => s == t
  | _ => false

/-- Take a symbol. -/
def expect (s : String) : Parser Unit := fun tokens =>
  if startsWith s tokens then .ok ((), tokens.tail) else refuse tokens

/-- Take a name. -/
def name : Parser String
  | (.word w, _) :: rest => .ok (w, rest)
  | tokens => refuse tokens

/-- Names between parentheses or bars, separated by commas, up to a closing symbol. -/
def params (closing : String) : Nat → Parser (List String)
  | 0, tokens => refuse tokens
  | fuel + 1, tokens =>
    if startsWith closing tokens then .ok ([], tokens.tail)
    else do
      let (first, rest) ← name tokens
      let rest := if startsWith "," rest then rest.tail else rest
      let (more, rest) ← params closing fuel rest
      .ok (first :: more, rest)

/-- The binary operators, weakest first. -/
def levels : List (List String) := [["=="], ["+"], ["*", "%"]]

mutual

/-- An expression of a level of binding strength. -/
def expr (fuel : Nat) (level : List (List String)) : Parser Expr := fun tokens =>
  match fuel with
  | 0 => refuse tokens
  | fuel + 1 =>
    match level with
    | [] => do
      let (first, rest) ← primary fuel tokens
      suffixes fuel first rest
    | symbols :: tighter => do
      let (first, rest) ← expr fuel tighter tokens
      chain fuel symbols tighter first rest

/-- Further operands of one level, combined from the left. -/
def chain (fuel : Nat) (symbols : List String) (tighter : List (List String)) (left : Expr) :
    Parser Expr := fun tokens =>
  match fuel, tokens with
  | fuel + 1, (.symbol s, p) :: rest =>
    if symbols.contains s then do
      let (right, rest) ← expr fuel tighter rest
      chain fuel symbols tighter (.call s [left, right] p) rest
    else .ok (left, tokens)
  | _, _ => .ok (left, tokens)

/-- Method calls and indices behind an expression. -/
def suffixes (fuel : Nat) (target : Expr) : Parser Expr := fun tokens =>
  match fuel, tokens with
  | fuel + 1, (.symbol ".", _) :: (.word method, p) :: (.symbol "(", _) :: rest => do
    let (args, rest) ← items fuel ")" rest
    suffixes fuel (.call method (target :: args) p) rest
  | fuel + 1, (.symbol "[", _) :: (first, p) :: rest => do
    let (subscript, rest) ← expr fuel levels ((first, p) :: rest)
    let ((), rest) ← expect "]" rest
    suffixes fuel (.index target subscript p) rest
  | _, _ => .ok (target, tokens)

/-- Expressions separated by commas, up to a closing symbol. -/
def items (fuel : Nat) (closing : String) : Parser (List Expr) := fun tokens =>
  match fuel with
  | 0 => refuse tokens
  | fuel + 1 =>
    if startsWith closing tokens then .ok ([], tokens.tail)
    else do
      let (first, rest) ← expr fuel levels tokens
      let rest := if startsWith "," rest then rest.tail else rest
      let (more, rest) ← items fuel closing rest
      .ok (first :: more, rest)

/-- Fields separated by commas, up to the closing brace. -/
def fields (fuel : Nat) : Parser (List (String × Expr)) := fun tokens =>
  match fuel with
  | 0 => refuse tokens
  | fuel + 1 =>
    if startsWith "\x7d" tokens then .ok ([], tokens.tail)
    else do
      let (key, rest) ← name tokens
      let ((), rest) ← expect ":" rest
      let (content, rest) ← expr fuel levels rest
      let rest := if startsWith "," rest then rest.tail else rest
      let (more, rest) ← fields fuel rest
      .ok ((key, content) :: more, rest)

/-- A literal, a name, a call, a record, or a function value. -/
def primary (fuel : Nat) : Parser Expr := fun tokens =>
  match fuel, tokens with
  | _, (.float x, _) :: rest => .ok (.float x, rest)
  | _, (.integer n, _) :: rest => .ok (.integer n, rest)
  | _, (.text s, _) :: rest => .ok (.text s, rest)
  | _, (.char c, _) :: rest => .ok (.char c, rest)
  | _, (.symbol "(", _) :: (.symbol ")", _) :: rest => .ok (.unit, rest)
  | fuel + 1, (.word w, p) :: (.symbol "(", _) :: rest => do
    let (args, rest) ← items fuel ")" rest
    .ok (.call w args p, rest)
  | _, (.word w, p) :: rest => .ok (.named w p, rest)
  | fuel + 1, (.symbol "#\x7b", _) :: rest => do
    let (content, rest) ← fields fuel rest
    .ok (.record content, rest)
  | fuel + 1, (.symbol "|", _) :: rest => do
    let (_, rest) ← params "|" fuel rest
    let (_, rest) ← expr fuel levels rest
    .ok (.closure, rest)
  | _, tokens => refuse tokens

end

/-- A throw, a loop, an expression, or nothing; a semicolon may follow. -/
def statement (fuel : Nat) : Parser Expr := fun tokens =>
  match tokens with
  | (.word "throw", p) :: rest => do
    let (message, rest) ← expr fuel levels rest
    .ok (.throw message p, if startsWith ";" rest then rest.tail else rest)
  | (.word "loop", _) :: (.symbol "\x7b", p) :: rest => do
    let ((), rest) ← expect "\x7d" rest
    .ok (.loop p, rest)
  | _ =>
    if startsWith "\x7d" tokens then .ok (.unit, tokens)
    else do
      let (e, rest) ← expr fuel levels tokens
      .ok (e, if startsWith ";" rest then rest.tail else rest)

/-- A function definition, after its keyword. -/
def function (fuel : Nat) : Parser Function := fun tokens => do
  let (f, rest) ← name tokens
  let ((), rest) ← expect "(" rest
  let (ps, rest) ← params ")" fuel rest
  let ((), rest) ← expect "\x7b" rest
  let (body, rest) ← statement fuel rest
  let ((), rest) ← expect "\x7d" rest
  .ok (⟨f, ps, body⟩, rest)

/-- Take the end of the script. -/
def ended : Parser Unit
  | [(.finish, p)] => .ok ((), [(.finish, p)])
  | tokens => refuse tokens

/-- A whole script: function definitions, then at most one statement. -/
def source (exprFuel : Nat) : Nat → List Located → Except CompileError Source
  | _, [(.finish, _)] => .ok ⟨[], .unit⟩
  | fuel + 1, (.word "fn", _) :: rest => do
    let (f, rest) ← function exprFuel rest
    let more ← source exprFuel fuel rest
    .ok ⟨f :: more.functions, more.body⟩
  | _, tokens => do
    let (body, rest) ← statement exprFuel tokens
    let ((), _) ← ended rest
    .ok ⟨[], body⟩

/-- Compile a script. -/
def compile (text : String) : Except CompileError Source := do
  let cs := text.toList
  let found ← tokens cs.length {} cs
  let fuel := 8 * found.length
  source fuel fuel found

end Sluice.Script
