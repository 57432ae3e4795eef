/-
  Sluice.Plan.Search

  Two depth-first searches over a table that holds for each node the nodes it leads to. The one
  looks for a node and ends where it meets it; it marks a node that it takes off its stack. The
  other marks all that can be reached; it marks a node that it puts on its stack. Either ends
  because a node is marked only once.

  Both look nodes up in the table and among the marks. A search that looks for a node where there
  is none is broken off, and its result is `none`.
-/

namespace Sluice.Plan

/-- How many nodes are not marked. -/
def unmarked (marks : Array Bool) : Nat :=
  marks.count false

/-- A node that gets its mark is one less without. -/
theorem unmarked_set {marks : Array Bool} {v : Nat} (h : marks[v]? = some false) :
    unmarked (marks.setIfInBounds v true) + 1 = unmarked marks := by
  obtain ⟨hv, hfalse⟩ := Array.getElem?_eq_some_iff.1 h
  have hpos : 0 < marks.count false := Array.count_pos_iff.2 (Array.mem_of_getElem hfalse)
  rw [unmarked, unmarked, Array.setIfInBounds, dif_pos hv, Array.count_set, hfalse]
  simp
  omega

/-! ## Looking for a node -/

/-- Put nodes on a stack, one after the other. -/
def stackUp (nodes stack : List Nat) : List Nat :=
  nodes.reverse ++ stack

/-- Whether the search meets the target, when some nodes are marked and some are on the stack. -/
def meets (table : Array (List Nat)) (target : Nat) (marks : Array Bool) (stack : List Nat) :
    Option Bool :=
  match stack with
  | [] => some false
  | v :: rest =>
    if v = target then some true
    else if marks[v]? = some false then
      match table[v]? with
      | none => none
      | some targets => meets table target (marks.setIfInBounds v true) (stackUp targets rest)
    else meets table target marks rest
termination_by (unmarked marks, stack.length)
decreasing_by
  · rename_i h
    have := unmarked_set h
    exact Prod.Lex.left _ _ (by omega)
  · exact Prod.Lex.right _ (by simp)

/-- Whether the target is met from the nodes that the source leads to. -/
def reaches (table : Array (List Nat)) (source target : Nat) : Option Bool :=
  meets table target (Array.replicate table.size false) (stackUp (table[source]?.getD []) [])

/-! ## Marking all that can be reached -/

/-- Put the nodes of a list on the stack and mark them, but for those that are marked. -/
def push (marks : Array Bool) (stack : List Nat) : List Nat → Option (Array Bool × List Nat)
  | [] => some (marks, stack)
  | v :: rest =>
    match marks[v]? with
    | none => none
    | some true => push marks stack rest
    | some false => push (marks.setIfInBounds v true) (v :: stack) rest

/-- What comes to the stack gets its mark. -/
theorem unmarked_push {marks marks' : Array Bool} {stack stack' nodes : List Nat}
    (h : push marks stack nodes = some (marks', stack')) :
    unmarked marks' + stack'.length = unmarked marks + stack.length := by
  fun_induction push marks stack nodes with
  | case1 marks stack =>
    cases h
    rfl
  | case2 marks stack v rest hout => cases h
  | case3 marks stack v rest hmarked ih => exact ih h
  | case4 marks stack v rest hnew ih =>
    have hset := unmarked_set hnew
    have hrest := ih h
    rw [List.length_cons] at hrest
    omega

/-- Mark whatever is reached from the stack. -/
def flood (table : Array (List Nat)) (marks : Array Bool) (stack : List Nat) :
    Option (Array Bool) :=
  match stack with
  | [] => some marks
  | v :: rest =>
    match table[v]? with
    | none => none
    | some targets =>
      match _h : push marks rest targets with
      | none => none
      | some (marks', stack') => flood table marks' stack'
termination_by unmarked marks + stack.length
decreasing_by
  rw [unmarked_push _h, List.length_cons]
  omega

/-- The marks of `n` nodes after a search from those roots that are among them. -/
def reachable (table : Array (List Nat)) (n : Nat) (roots : List Nat) : Option (Array Bool) :=
  match push (Array.replicate n false) [] (roots.filter fun root => decide (root < n)) with
  | none => none
  | some (marks, stack) => flood table marks stack

end Sluice.Plan
