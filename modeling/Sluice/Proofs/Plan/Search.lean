/-
  Sluice.Proofs.Plan.Search

  The two searches of a plan are exact. Neither is ever broken off, and each finds all that
  connections lead to and nothing else.

  The search for a node keeps a frontier: whatever leads out of the marked nodes leads to the
  stack. If it ends without having met its target, the marked nodes lead only to each other, and
  the target is not among them. The search that marks all it can reach keeps less to do on its
  stack: a marked node that is not on the stack leads to marked nodes only.
-/

import Mathlib.Data.Set.Card
import Mathlib.Logic.Relation
import Sluice.Plan

namespace Sluice

namespace Plan

-- ============================================================================
-- Marks
-- ============================================================================

/-- Whether a node has its mark. -/
def Marked (marks : Array Bool) (x : Nat) : Prop :=
  marks[x]? = some true

theorem Marked.lt_size {marks : Array Bool} {x : Nat} (h : Marked marks x) : x < marks.size :=
  (Array.getElem?_eq_some_iff.1 h).1

/-- A node in range is marked or not. -/
theorem mark_of_lt {marks : Array Bool} {x : Nat} (hx : x < marks.size) :
    Marked marks x ∨ marks[x]? = some false := by
  unfold Marked
  rw [Array.getElem?_eq_getElem hx]
  cases marks[x] with
  | true => exact .inl rfl
  | false => exact .inr rfl

theorem not_marked {marks : Array Bool} {x : Nat} (h : marks[x]? = some false) :
    ¬ Marked marks x := by
  unfold Marked
  rw [h]
  decide

theorem marked_set {marks : Array Bool} {v : Nat} (hv : v < marks.size) {x : Nat} :
    Marked (marks.setIfInBounds v true) x ↔ x = v ∨ Marked marks x := by
  unfold Marked
  rw [Array.getElem?_setIfInBounds]
  split
  · next heq =>
    subst heq
    simp [hv]
  · next hne => simp [Ne.symm hne]

theorem not_marked_replicate {n x : Nat} : ¬ Marked (Array.replicate n false) x := by
  unfold Marked
  rw [Array.getElem?_replicate]
  split <;> simp

/-- The nodes without a mark, counted one by one. -/
theorem unmarked_eq_ncard (marks : Array Bool) :
    unmarked marks = {x | x < marks.size ∧ ¬ Marked marks x}.ncard := by
  have hcount : ∀ l : List Bool,
      l.count false = ((Finset.range l.length).filter fun x => l[x]? = some false).card := by
    intro l
    induction l using List.reverseRecOn with
    | nil => rfl
    | append_singleton l mark ih =>
      have hfront : (Finset.range l.length).filter (fun x => (l ++ [mark])[x]? = some false) =
          (Finset.range l.length).filter fun x => l[x]? = some false :=
        Finset.filter_congr fun x hx => by
          rw [List.getElem?_append_left (Finset.mem_range.1 hx)]
      rw [List.count_append, ih, List.length_append, List.length_singleton,
        Finset.range_add_one, Finset.filter_insert, hfront, List.getElem?_concat_length]
      cases mark with
      | true => simp
      | false => simp
  have hset : {x | x < marks.size ∧ ¬ Marked marks x} =
      ↑((Finset.range marks.toList.length).filter fun x => marks.toList[x]? = some false) := by
    ext x
    rw [Finset.mem_coe, Finset.mem_filter, Finset.mem_range, Array.length_toList,
      Array.getElem?_toList]
    refine and_congr_right fun hx => ⟨fun h => (mark_of_lt hx).resolve_left h, not_marked⟩
  rw [hset, Set.ncard_coe_finset, ← hcount, unmarked, ← Array.count_toList]

-- ============================================================================
-- Tables
-- ============================================================================

/-- One node leads to another in a table. -/
def Edge (table : Array (List Nat)) (x y : Nat) : Prop :=
  ∃ targets, table[x]? = some targets ∧ y ∈ targets

/-- Whether all that a table holds is in its range. -/
def InRange (table : Array (List Nat)) : Prop :=
  ∀ x y, Edge table x y → y < table.size

theorem edge_iff {table : Array (List Nat)} {x : Nat} {targets : List Nat}
    (h : table[x]? = some targets) {y : Nat} : Edge table x y ↔ y ∈ targets := by
  unfold Edge
  simp [h]

-- ============================================================================
-- Looking for a node
-- ============================================================================

theorem mem_stackUp {nodes stack : List Nat} {x : Nat} :
    x ∈ stackUp nodes stack ↔ x ∈ nodes ∨ x ∈ stack := by
  rw [stackUp, List.mem_append, List.mem_reverse]

section meets

variable {table : Array (List Nat)} {target : Nat}

/-- A search whose marks fit its table is not broken off. -/
theorem meets_ne_none {marks : Array Bool} {stack : List Nat} (hsize : marks.size = table.size) :
    meets table target marks stack ≠ none := by
  fun_induction meets table target marks stack with
  | case1 marks => simp
  | case2 marks rest => simp
  | case3 marks v rest hv hnew hnone =>
    have hlt := (Array.getElem?_eq_some_iff.1 hnew).1
    rw [Array.getElem?_eq_none_iff] at hnone
    omega
  | case4 marks v rest hv hnew targets htargets ih => exact ih (by rw [← hsize]; simp)
  | case5 marks v rest hv hold ih => exact ih hsize

/-- A target that is met is at the end of a path from the stack. -/
theorem exists_path_of_meets {marks : Array Bool} {stack : List Nat}
    (h : meets table target marks stack = some true) :
    ∃ v ∈ stack, Relation.ReflTransGen (Edge table) v target := by
  fun_induction meets table target marks stack with
  | case1 marks => cases h
  | case2 marks rest => exact ⟨target, List.mem_cons_self, .refl⟩
  | case3 marks v rest hv hnew hnone => cases h
  | case4 marks v rest hv hnew targets htargets ih =>
    obtain ⟨u, hu, hpath⟩ := ih h
    rcases mem_stackUp.1 hu with htarget | hrest
    · have hedge : Edge table v u := (edge_iff htargets).2 htarget
      exact ⟨v, List.mem_cons_self, hpath.head hedge⟩
    · exact ⟨u, List.mem_cons_of_mem v hrest, hpath⟩
  | case5 marks v rest hv hold ih =>
    obtain ⟨u, hu, hpath⟩ := ih h
    exact ⟨u, List.mem_cons_of_mem v hu, hpath⟩

/-- What leads out of the marked nodes leads to the stack. -/
def Frontier (table : Array (List Nat)) (marks : Array Bool) (stack : List Nat) : Prop :=
  ∀ x y, Marked marks x → Edge table x y → Marked marks y ∨ y ∈ stack

/-- Taking a node off the stack moves the frontier to its targets. -/
theorem Frontier.enter {marks : Array Bool} {v : Nat} {rest targets : List Nat}
    (h : Frontier table marks (v :: rest)) (hv : v < marks.size)
    (htargets : table[v]? = some targets) :
    Frontier table (marks.setIfInBounds v true) (stackUp targets rest) := by
  intro x y hx hedge
  rw [marked_set hv, mem_stackUp]
  rcases (marked_set hv).1 hx with rfl | hx
  · exact .inr (.inl ((edge_iff htargets).1 hedge))
  · rcases h x y hx hedge with hmarked | hstack
    · exact .inl (.inr hmarked)
    · rcases List.mem_cons.1 hstack with rfl | hrest
      · exact .inl (.inl rfl)
      · exact .inr (.inr hrest)

/-- A marked node on the stack is no part of the frontier. -/
theorem Frontier.skip {marks : Array Bool} {v : Nat} {rest : List Nat}
    (h : Frontier table marks (v :: rest)) (hv : Marked marks v) : Frontier table marks rest := by
  intro x y hx hedge
  rcases h x y hx hedge with hmarked | hstack
  · exact .inl hmarked
  · rcases List.mem_cons.1 hstack with rfl | hrest
    · exact .inl hv
    · exact .inr hrest

/-- Around a target that is not met there is a set without it that holds the stack and that
nothing leads out of. -/
theorem exists_closed_of_meets (hrange : InRange table) {marks : Array Bool} {stack : List Nat}
    (hsize : marks.size = table.size) (hstack : ∀ x ∈ stack, x < table.size)
    (hfrontier : Frontier table marks stack) (htarget : ¬ Marked marks target)
    (h : meets table target marks stack = some false) :
    ∃ nodes : Nat → Prop, (∀ x ∈ stack, nodes x) ∧ (∀ x, Marked marks x → nodes x) ∧
      (∀ x y, nodes x → Edge table x y → nodes y) ∧ ¬ nodes target := by
  fun_induction meets table target marks stack with
  | case1 marks =>
    refine ⟨Marked marks, List.forall_mem_nil _, fun _ hx => hx, fun x y hx hedge => ?_, htarget⟩
    exact (hfrontier x y hx hedge).resolve_right List.not_mem_nil
  | case2 marks rest => cases h
  | case3 marks v rest hv hnew hnone => cases h
  | case4 marks v rest hv hnew targets htargets ih =>
    obtain ⟨hvlt, hrest⟩ := List.forall_mem_cons.1 hstack
    rw [← hsize] at hvlt
    have hin : ∀ x ∈ stackUp targets rest, x < table.size := by
      intro x hx
      rcases mem_stackUp.1 hx with hx | hx
      · exact hrange v x ((edge_iff htargets).2 hx)
      · exact hrest x hx
    have hunmet : ¬ Marked (marks.setIfInBounds v true) target := by
      rw [marked_set hvlt]
      rintro (rfl | hmarked)
      · exact hv rfl
      · exact htarget hmarked
    obtain ⟨nodes, hon, hmarks, hclosed, hnot⟩ :=
      ih (by rw [← hsize]; simp) hin (hfrontier.enter hvlt htargets) hunmet h
    refine ⟨nodes, List.forall_mem_cons.2 ⟨hmarks v ((marked_set hvlt).2 (.inl rfl)), ?_⟩, ?_,
      hclosed, hnot⟩
    · exact fun x hx => hon x (mem_stackUp.2 (.inr hx))
    · exact fun x hx => hmarks x ((marked_set hvlt).2 (.inr hx))
  | case5 marks v rest hv hold ih =>
    obtain ⟨hvlt, hrest⟩ := List.forall_mem_cons.1 hstack
    have hmarked : Marked marks v := (mark_of_lt (hsize ▸ hvlt)).resolve_right hold
    obtain ⟨nodes, hon, hmarks, hclosed, hnot⟩ :=
      ih hsize hrest (hfrontier.skip hmarked) htarget h
    exact ⟨nodes, List.forall_mem_cons.2 ⟨hmarks v hmarked, hon⟩, hmarks, hclosed, hnot⟩

/-- The search from what a node leads to always comes to an end. -/
theorem reaches_isSome (table : Array (List Nat)) (source target : Nat) :
    (reaches table source target).isSome = true :=
  Option.isSome_iff_ne_none.2 (meets_ne_none (by simp))

/-- It meets exactly the ends of paths. -/
theorem reaches_iff (hrange : InRange table) {source : Nat} :
    reaches table source target = some true ↔ Relation.TransGen (Edge table) source target := by
  have hstart : ∀ x, x ∈ stackUp (table[source]?.getD []) [] ↔ Edge table source x := by
    intro x
    unfold Edge
    rw [mem_stackUp]
    cases table[source]? <;> simp
  constructor
  · intro h
    obtain ⟨v, hv, hpath⟩ := exists_path_of_meets h
    exact Relation.TransGen.head' ((hstart v).1 hv) hpath
  · intro hpath
    match h : reaches table source target with
    | some true => rfl
    | none => exact absurd (reaches_isSome table source target) (by rw [h]; decide)
    | some false =>
      obtain ⟨nodes, hon, -, hclosed, hnot⟩ := exists_closed_of_meets hrange (by simp)
        (fun x hx => hrange source x ((hstart x).1 hx))
        (fun x y hx => absurd hx not_marked_replicate) not_marked_replicate h
      have hall : ∀ {x}, Relation.TransGen (Edge table) source x → nodes x := by
        intro x hpath
        induction hpath with
        | single hedge => exact hon _ ((hstart _).2 hedge)
        | tail _ hedge ih => exact hclosed _ _ ih hedge
      exact absurd (hall hpath) hnot

end meets

-- ============================================================================
-- Marking all that can be reached
-- ============================================================================

/-- Nodes in range come to the stack, each one that had no mark, and have their marks then. -/
theorem push_spec (marks : Array Bool) (stack nodes : List Nat)
    (hnodes : ∀ x ∈ nodes, x < marks.size) :
    ∃ marks' stack', push marks stack nodes = some (marks', stack') ∧
      marks'.size = marks.size ∧ (∀ x, Marked marks' x ↔ Marked marks x ∨ x ∈ nodes) ∧
      ∀ x, x ∈ stack' ↔ x ∈ stack ∨ (x ∈ nodes ∧ ¬ Marked marks x) := by
  fun_induction push marks stack nodes with
  | case1 marks stack => exact ⟨marks, stack, rfl, rfl, by simp, by simp⟩
  | case2 marks stack v rest hout =>
    have hv := hnodes v List.mem_cons_self
    rw [Array.getElem?_eq_none_iff] at hout
    omega
  | case3 marks stack v rest hmarked ih =>
    obtain ⟨marks', stack', hpush, hsize, hmarks, hstack⟩ :=
      ih fun x hx => hnodes x (List.mem_cons_of_mem v hx)
    have hv : Marked marks v := hmarked
    refine ⟨marks', stack', hpush, hsize, fun x => ?_, fun x => ?_⟩
    · rw [hmarks, List.mem_cons]
      grind
    · rw [hstack, List.mem_cons]
      grind
  | case4 marks stack v rest hnew ih =>
    have hv : v < marks.size := hnodes v List.mem_cons_self
    obtain ⟨marks', stack', hpush, hsize, hmarks, hstack⟩ :=
      ih fun x hx => by simpa using hnodes x (List.mem_cons_of_mem v hx)
    have hunmarked := not_marked hnew
    refine ⟨marks', stack', hpush, by rw [hsize]; simp, fun x => ?_, fun x => ?_⟩
    · rw [hmarks, marked_set hv, List.mem_cons]
      grind
    · rw [hstack, marked_set hv, List.mem_cons, List.mem_cons]
      grind

section flood

variable {table : Array (List Nat)}

/-- A marked node that is not on the stack leads to marked nodes only. -/
def Settled (table : Array (List Nat)) (marks : Array Bool) (stack : List Nat) : Prop :=
  ∀ x y, Marked marks x → Edge table x y → x ∈ stack ∨ Marked marks y

/-- From a settled stack a search marks exactly what the marked nodes lead to. -/
theorem flood_spec (hrange : InRange table) {marks : Array Bool} {stack : List Nat}
    (hsize : marks.size = table.size) (hstack : ∀ x ∈ stack, Marked marks x)
    (hsettled : Settled table marks stack) :
    ∃ final, flood table marks stack = some final ∧ final.size = marks.size ∧
      ∀ x, Marked final x ↔ ∃ u, Marked marks u ∧ Relation.ReflTransGen (Edge table) u x := by
  fun_induction flood table marks stack with
  | case1 marks =>
    refine ⟨marks, rfl, rfl, fun x => ⟨fun hx => ⟨x, hx, .refl⟩, ?_⟩⟩
    rintro ⟨u, hu, hpath⟩
    induction hpath with
    | refl => exact hu
    | tail _ hedge ih => exact (hsettled _ _ ih hedge).resolve_left List.not_mem_nil
  | case2 marks v rest hnone =>
    have hv := (hstack v List.mem_cons_self).lt_size
    rw [Array.getElem?_eq_none_iff] at hnone
    omega
  | case3 marks v rest targets htargets hnone =>
    obtain ⟨marks', stack', hpush, -⟩ := push_spec marks rest targets
      fun x hx => hsize ▸ hrange v x ((edge_iff htargets).2 hx)
    rw [hnone] at hpush
    cases hpush
  | case4 marks v rest targets htargets marks' stack' hpush ih =>
    obtain ⟨marks'', stack'', hpush', hsize', hmarks', hstack'⟩ :=
      push_spec marks rest targets
        fun x hx => hsize ▸ hrange v x ((edge_iff htargets).2 hx)
    rw [hpush] at hpush'
    cases hpush'
    obtain ⟨hv, hrest⟩ := List.forall_mem_cons.1 hstack
    have hon : ∀ x ∈ stack', Marked marks' x := by
      intro x hx
      rcases (hstack' x).1 hx with hx | ⟨hx, -⟩
      · exact (hmarks' x).2 (.inl (hrest x hx))
      · exact (hmarks' x).2 (.inr hx)
    have hsettled' : Settled table marks' stack' := by
      intro x y hx hedge
      by_cases hmarked : Marked marks x
      · rcases hsettled x y hmarked hedge with hstack | hy
        · rcases List.mem_cons.1 hstack with rfl | hx
          · exact .inr ((hmarks' y).2 (.inr ((edge_iff htargets).1 hedge)))
          · exact .inl ((hstack' x).2 (.inl hx))
        · exact .inr ((hmarks' y).2 (.inl hy))
      · exact .inl ((hstack' x).2 (.inr ⟨((hmarks' x).1 hx).resolve_left hmarked, hmarked⟩))
    obtain ⟨final, hflood, hfinal, hexact⟩ := ih (hsize'.trans hsize) hon hsettled'
    refine ⟨final, hflood, hfinal.trans hsize', fun x => (hexact x).trans ⟨?_, ?_⟩⟩
    · rintro ⟨u, hu, hpath⟩
      rcases (hmarks' u).1 hu with hu | hu
      · exact ⟨u, hu, hpath⟩
      · exact ⟨v, hv, hpath.head ((edge_iff htargets).2 hu)⟩
    · rintro ⟨u, hu, hpath⟩
      exact ⟨u, (hmarks' u).2 (.inl hu), hpath⟩

/-- The search from some roots comes to an end and marks exactly what they lead to. -/
theorem reachable_spec (hrange : InRange table) (roots : List Nat) :
    ∃ marks, reachable table table.size roots = some marks ∧ marks.size = table.size ∧
      ∀ x, Marked marks x ↔
        ∃ root ∈ roots, root < table.size ∧ Relation.ReflTransGen (Edge table) root x := by
  obtain ⟨start, stack, hpush, hsize, hstart, hstack⟩ :=
    push_spec (Array.replicate table.size false) []
      (roots.filter fun root => decide (root < table.size))
      fun x hx => by simpa using (List.mem_filter.1 hx).2
  have hroots : ∀ x, Marked start x ↔ x ∈ roots ∧ x < table.size := by
    intro x
    rw [hstart, List.mem_filter, decide_eq_true_eq]
    exact or_iff_right not_marked_replicate
  have hon : ∀ x, x ∈ stack ↔ Marked start x := by
    intro x
    rw [hstack, hstart]
    simp [not_marked_replicate]
  rw [Array.size_replicate] at hsize
  obtain ⟨final, hflood, hfinal, hexact⟩ := flood_spec hrange hsize (fun x => (hon x).1)
    fun x y hx _ => .inl ((hon x).2 hx)
  refine ⟨final, ?_, hfinal.trans hsize, fun x => (hexact x).trans ⟨?_, ?_⟩⟩
  · rw [reachable, hpush]
    exact hflood
  · rintro ⟨root, hroot, hpath⟩
    exact ⟨root, ((hroots root).1 hroot).1, ((hroots root).1 hroot).2, hpath⟩
  · rintro ⟨root, hroot, hlt, hpath⟩
    exact ⟨root, (hroots root).2 ⟨hroot, hlt⟩, hpath⟩

end flood

end Plan

-- ============================================================================
-- Connections
-- ============================================================================

namespace Program

/-- One node leads to another over a connection of any kind. -/
def Leads (p : Program) (i j : Nat) : Prop :=
  j ∈ p.allTargets i

theorem mem_allTargets {p : Program} {i j : Nat} :
    j ∈ p.allTargets i ↔ ∃ c ∈ p.connections.toList, c.source = i ∧ c.target = j ∧
      i < p.nodes.size ∧ j < p.nodes.size := by
  unfold allTargets isInside
  rw [List.mem_filterMap]
  constructor
  · rintro ⟨c, hc, heq⟩
    split at heq
    · next hinside =>
      cases heq
      obtain ⟨rfl, hin⟩ := hinside
      rw [Bool.and_eq_true, decide_eq_true_eq, decide_eq_true_eq] at hin
      exact ⟨c, hc, rfl, rfl, hin.1, hin.2⟩
    · cases heq
  · rintro ⟨c, hc, rfl, rfl, hi, hj⟩
    exact ⟨c, hc, by simp [hi, hj]⟩

theorem Leads.lt_size {p : Program} {i j : Nat} (h : p.Leads i j) : j < p.nodes.size := by
  obtain ⟨c, -, -, -, -, hj⟩ := mem_allTargets.1 h
  exact hj

/-- Whatever data flows to is led to. -/
theorem leads_of_mem_pipeTargets {p : Program} {i j : Nat} (h : j ∈ p.pipeTargets i) :
    p.Leads i j := by
  unfold pipeTargets at h
  obtain ⟨c, hc, heq⟩ := List.mem_filterMap.1 h
  split at heq
  · next hinside =>
    cases heq
    exact List.mem_filterMap.2 ⟨c, hc, if_pos ⟨hinside.1, hinside.2.2⟩⟩
  · cases heq

/-- A connection of any kind joins one node to another, and both of them exist. -/
def Joined (p : Program) (i j : NodeId) : Prop :=
  ∃ c ∈ p.connections, c.source = i ∧ c.target = j ∧ i < p.nodes.size ∧ j < p.nodes.size

theorem leads_eq_joined (p : Program) : p.Leads = p.Joined := by
  funext i j
  refine propext (mem_allTargets.trans ?_)
  simp only [Array.mem_toList_iff]
  rfl

theorem size_targetTable (p : Program) : p.targetTable.size = p.nodes.size := by
  unfold targetTable
  rw [Array.size_map, Array.size_range]

/-- The table of a program holds what its connections lead to. -/
theorem edge_targetTable (p : Program) : Plan.Edge p.targetTable = p.Leads := by
  funext i j
  unfold Plan.Edge targetTable Leads
  rw [Array.getElem?_map, Array.getElem?_range]
  refine propext ⟨?_, fun h => ?_⟩
  · rintro ⟨targets, htargets, hj⟩
    split at htargets
    · cases htargets
      exact hj
    · cases htargets
  · obtain ⟨c, -, -, -, hi, -⟩ := mem_allTargets.1 h
    exact ⟨p.allTargets i, by rw [if_pos hi]; rfl, h⟩

theorem inRange_targetTable (p : Program) : Plan.InRange p.targetTable := by
  intro i j h
  rw [edge_targetTable] at h
  rw [size_targetTable]
  exact h.lt_size

/-- A node is found to reach itself exactly if it is on a cycle. -/
theorem reachesItself_iff {p : Program} {i : Nat} :
    p.reachesItself i = true ↔ Relation.TransGen p.Leads i i := by
  unfold reachesItself
  rw [beq_iff_eq, Plan.reaches_iff p.inRange_targetTable, edge_targetTable]

/-- A node on a cycle is found to reach itself. -/
theorem reachesItself_of_path {p : Program} {i j : Nat} (hfirst : p.Leads i j)
    (hpath : Relation.ReflTransGen p.Leads j i) : p.reachesItself i = true :=
  reachesItself_iff.2 (Relation.TransGen.head' hfirst hpath)

/-- A node whose targets lie in a set that it is not in, and that nothing leads out of, does not
reach itself. -/
theorem reachesItself_eq_false {p : Program} {i : Nat} {nodes : Nat → Prop}
    (hclosed : ∀ x, nodes x → ∀ y ∈ p.allTargets x, nodes y)
    (hfirst : ∀ x ∈ p.allTargets i, nodes x) (hi : ¬nodes i) : p.reachesItself i = false := by
  rw [← Bool.not_eq_true, reachesItself_iff]
  have hnodes : ∀ {j}, Relation.TransGen p.Leads i j → nodes j := by
    intro j hpath
    induction hpath with
    | single hstep => exact hfirst _ hstep
    | tail _ hstep ih => exact hclosed _ ih _ hstep
  exact fun hpath => hi (hnodes hpath)

end Program

-- ============================================================================
-- Roots
-- ============================================================================

/-- Whether a run can start at a node: a source of a stream, or the root of a subscription. -/
def Program.IsRoot (p : Program) (id : NodeId) : Prop :=
  (∃ node ∈ p.nodes, node.id = id ∧
    ((∃ literal, node.kind = .finiteSource literal) ∨
      ∃ literal, node.kind = .liveSource literal)) ∨
  ∃ s ∈ p.subscriptions, s.root = id

namespace Plan

/-- Where a run of a program can start. -/
def roots (p : Program) : List NodeId :=
  (ofProgram p).finiteRoots ++ (ofProgram p).liveRoots ++ p.subscriptions.map (·.root)

theorem mem_rootsWhere_iff {p : Program} {wanted : NodeKind → Bool} {i : NodeId} :
    i ∈ rootsWhere p wanted ↔ ∃ node ∈ p.nodes, node.id = i ∧ wanted node.kind = true := by
  unfold rootsWhere
  rw [List.mem_filterMap]
  constructor
  · rintro ⟨node, hnode, heq⟩
    split at heq
    · next hwanted =>
      cases heq
      exact ⟨node, Array.mem_toList_iff.1 hnode, rfl, hwanted⟩
    · cases heq
  · rintro ⟨node, hnode, rfl, hwanted⟩
    exact ⟨node, Array.mem_toList_iff.2 hnode, if_pos hwanted⟩

theorem mem_roots_iff {p : Program} {i : NodeId} : i ∈ roots p ↔ p.IsRoot i := by
  have hfinite : i ∈ (ofProgram p).finiteRoots ↔
      ∃ node ∈ p.nodes, node.id = i ∧ ∃ literal, node.kind = .finiteSource literal := by
    dsimp only [ofProgram]
    rw [mem_rootsWhere_iff]
    refine exists_congr fun node => ?_
    cases node.kind <;> simp
  have hlive : i ∈ (ofProgram p).liveRoots ↔
      ∃ node ∈ p.nodes, node.id = i ∧ ∃ literal, node.kind = .liveSource literal := by
    dsimp only [ofProgram]
    rw [mem_rootsWhere_iff]
    refine exists_congr fun node => ?_
    cases node.kind <;> simp
  unfold roots Program.IsRoot
  rw [List.mem_append, List.mem_append, hfinite, hlive, List.mem_map, ← exists_or]
  simp only [← and_or_left]

/-- The nodes that count as unreachable are those that no root leads to. -/
theorem unreachable_eq (p : Program) :
    (ofProgram p).stats.unreachable =
      {i | i < p.nodes.size ∧
        ∀ root ∈ roots p, ¬ Relation.ReflTransGen p.Leads root i}.ncard := by
  obtain ⟨marks, hmarks, hsize, hexact⟩ := reachable_spec p.inRange_targetTable (roots p)
  rw [p.size_targetTable] at hmarks hsize hexact
  rw [p.edge_targetTable] at hexact
  have hstats : (ofProgram p).stats.unreachable =
      ((reachable p.targetTable p.nodes.size (roots p)).map unmarked).getD 0 := rfl
  rw [hstats, hmarks, Option.map_some, Option.getD_some, unmarked_eq_ncard, hsize]
  congr 1
  ext i
  refine and_congr_right fun hi => ?_
  rw [hexact, not_exists]
  refine forall_congr' fun root => ?_
  -- A root that leads anywhere is a node.
  have hlt : Relation.ReflTransGen p.Leads root i → root < p.nodes.size := by
    intro hpath
    rcases hpath.cases_head with rfl | ⟨j, hstep, -⟩
    · exact hi
    · obtain ⟨c, -, -, -, hroot, -⟩ := Program.mem_allTargets.1 hstep
      exact hroot
  exact ⟨fun h hroot hpath => h ⟨hroot, hlt hpath, hpath⟩,
    fun h hmarked => h hmarked.1 hmarked.2.2⟩

-- ============================================================================
-- Pools that are fed back
-- ============================================================================

/-- A list of the pools of some subscriptions: each pool once, at the place of the first of
them. -/
structure Firsts (wanted : Subscription → Prop) (subscriptions : List Subscription)
    (pools : List String) : Prop where
  mem : ∀ pool, pool ∈ pools ↔ ∃ s ∈ subscriptions, s.pool = pool ∧ wanted s
  once : pools.Nodup
  ordered : pools.Pairwise fun a b => ∃ before s after,
    subscriptions = before ++ s :: after ∧ s.pool = a ∧ wanted s ∧
      ∀ t ∈ before, wanted t → t.pool ≠ b

namespace Firsts

variable {wanted : Subscription → Prop} {subscriptions : List Subscription} {pools : List String}
  {s : Subscription}

/-- Of further subscriptions the places of the others do not matter. -/
theorem pairwise_concat (h : Firsts wanted subscriptions pools) (s : Subscription) :
    pools.Pairwise fun a b => ∃ before t after,
      subscriptions ++ [s] = before ++ t :: after ∧ t.pool = a ∧ wanted t ∧
        ∀ u ∈ before, wanted u → u.pool ≠ b :=
  h.ordered.imp fun ⟨before, t, after, heq, hrest⟩ =>
    ⟨before, t, after ++ [s], by rw [heq, List.append_assoc]; rfl, hrest⟩

/-- A subscription that adds no pool: it is not wanted, or its pool is listed. -/
theorem skip (h : Firsts wanted subscriptions pools) (hs : wanted s → s.pool ∈ pools) :
    Firsts wanted (subscriptions ++ [s]) pools where
  mem pool := by
    rw [h.mem]
    constructor
    · rintro ⟨t, ht, hrest⟩
      exact ⟨t, List.mem_append_left _ ht, hrest⟩
    · rintro ⟨t, ht, rfl, hwanted⟩
      rcases List.mem_append.1 ht with ht | ht
      · exact ⟨t, ht, rfl, hwanted⟩
      · rw [List.mem_singleton] at ht
        subst ht
        exact (h.mem _).1 (hs hwanted)
  once := h.once
  ordered := h.pairwise_concat s

/-- The first wanted subscription on a pool lists the pool. -/
theorem concat (h : Firsts wanted subscriptions pools) (hs : wanted s) (hnew : s.pool ∉ pools) :
    Firsts wanted (subscriptions ++ [s]) (pools ++ [s.pool]) where
  mem pool := by
    rw [List.mem_append, List.mem_singleton, h.mem]
    constructor
    · rintro (⟨t, ht, hrest⟩ | rfl)
      · exact ⟨t, List.mem_append_left _ ht, hrest⟩
      · exact ⟨s, List.mem_append_right _ List.mem_cons_self, rfl, hs⟩
    · rintro ⟨t, ht, rfl, hwanted⟩
      rcases List.mem_append.1 ht with ht | ht
      · exact .inl ⟨t, ht, rfl, hwanted⟩
      · rw [List.mem_singleton] at ht
        exact .inr (by rw [ht])
  once := by
    rw [← List.concat_eq_append]
    exact h.once.concat hnew
  ordered := by
    refine List.pairwise_append.2 ⟨h.pairwise_concat s, List.pairwise_singleton _ _, ?_⟩
    intro a ha b hb
    rw [List.mem_singleton] at hb
    subst hb
    obtain ⟨t, ht, rfl, hwanted⟩ := (h.mem a).1 ha
    obtain ⟨before, after, rfl⟩ := List.append_of_mem ht
    refine ⟨before, t, after ++ [s], by rw [List.append_assoc]; rfl, rfl, hwanted, ?_⟩
    exact fun u hu hwants hpool =>
      hnew ((h.mem _).2 ⟨u, List.mem_append_left _ hu, hpool, hwants⟩)

end Firsts

/-- The pools that are fed back are those of the subscriptions on a cycle. -/
theorem firsts_feedback (p : Program) :
    Firsts (fun s => Relation.TransGen p.Leads s.root s.root) p.subscriptions (feedback p) := by
  unfold feedback
  induction p.subscriptions using List.reverseRecOn with
  | nil => exact ⟨by simp, List.nodup_nil, .nil⟩
  | append_singleton subscriptions s ih =>
    rw [List.filter_append, List.foldl_append]
    cases hs : p.reachesItself s.root with
    | true =>
      rw [List.filter_singleton, hs, cond_true, List.foldl_cons, List.foldl_nil]
      split
      · next hlisted => exact ih.skip fun _ => List.contains_iff_mem.1 hlisted
      · next hnew =>
        exact ih.concat (Program.reachesItself_iff.1 hs) fun h => hnew (List.contains_iff_mem.2 h)
    | false =>
      rw [List.filter_singleton, hs, cond_false, List.foldl_nil]
      refine ih.skip fun hpath => ?_
      rw [← Program.reachesItself_iff, hs] at hpath
      cases hpath

/-- Where no subscription reaches itself, no pool is fed back. -/
theorem feedback_eq_nil {p : Program}
    (h : ∀ s ∈ p.subscriptions, p.reachesItself s.root = false) : feedback p = [] := by
  refine List.eq_nil_iff_forall_not_mem.2 fun pool hpool => ?_
  obtain ⟨s, hs, -, hpath⟩ := ((firsts_feedback p).mem pool).1 hpool
  rw [← Program.reachesItself_iff, h s hs] at hpath
  cases hpath

/-- Where no pool is fed back, no subscription reaches itself. -/
theorem reachesItself_of_feedback {p : Program} (h : feedback p = []) {s : Subscription}
    (hs : s ∈ p.subscriptions) : p.reachesItself s.root = false := by
  rw [← Bool.not_eq_true]
  intro hreaches
  have hpool : s.pool ∈ feedback p :=
    ((firsts_feedback p).mem s.pool).2 ⟨s, hs, rfl, Program.reachesItself_iff.1 hreaches⟩
  rw [h] at hpool
  cases hpool

-- ============================================================================
-- The searches of a plan
-- ============================================================================

/-- What the searches of a plan are for. -/
structure Searched (p : Program) (plan : Plan) : Prop where
  /-- The pools that are fed back are those with a subscription whose root is on a cycle. -/
  fed : ∀ pool, pool ∈ plan.feedbackPools ↔
    ∃ s ∈ p.subscriptions, s.pool = pool ∧ Relation.TransGen p.Joined s.root s.root
  once : plan.feedbackPools.Nodup
  /-- Of two of them the one comes first that has the first subscription of this sort. -/
  ordered : plan.feedbackPools.Pairwise fun a b => ∃ before s after,
    p.subscriptions = before ++ s :: after ∧ s.pool = a ∧
      Relation.TransGen p.Joined s.root s.root ∧
      ∀ t ∈ before, Relation.TransGen p.Joined t.root t.root → t.pool ≠ b
  unreached : plan.stats.unreachable =
    {i | i < p.nodes.size ∧ ∀ root, p.IsRoot root → ¬ Relation.ReflTransGen p.Joined root i}.ncard
  /-- From wherever it starts, neither search is broken off by a look-up out of range. -/
  unbroken : (∀ source target, (reaches p.targetTable source target).isSome = true) ∧
    ∀ roots, (reachable p.targetTable p.nodes.size roots).isSome = true

/-- In every graph, whatever its connections join, the searches find what they are for. -/
theorem searches_are_exact (p : Program) : Searched p (ofProgram p) := by
  have hfeedback := firsts_feedback p
  have hunreached := unreachable_eq p
  rw [p.leads_eq_joined] at hfeedback hunreached
  simp only [mem_roots_iff] at hunreached
  constructor
  case fed => exact hfeedback.mem
  case once => exact hfeedback.once
  case ordered => exact hfeedback.ordered
  case unreached => exact hunreached
  case unbroken =>
    refine ⟨reaches_isSome p.targetTable, fun roots => ?_⟩
    obtain ⟨marks, hmarks, -⟩ := reachable_spec p.inRange_targetTable roots
    rw [p.size_targetTable] at hmarks
    rw [hmarks]
    rfl

end Plan

end Sluice
