/-
  Sluice.Proofs.Text.Separator

  Texts that are split at another text. Its occurrences are found from the left, so those that
  overlap an earlier one are passed over; the characters still to be passed over are counted by
  `skip`. Neither changes what the pieces come to when they are joined again, and no piece holds an
  occurrence that was not found.

  Main statement: joining undoes splitting, whatever the separator, and no part holds a separator
  that is not empty.
-/

import Sluice.Operator.Core
import Sluice.Proofs.Text.Cut

namespace Sluice

-- ============================================================================
-- Splitting at a text
-- ============================================================================

namespace Text

variable {sep : List Char}

theorem splitAtTextFrom_skip (sep : List Char) (skip : Nat) (c : Char) (cs : List Char) :
    splitAtTextFrom sep (skip + 1) (c :: cs) = splitAtTextFrom sep skip cs := rfl

theorem splitAtTextFrom_found {c : Char} {cs : List Char} (h : sep <+: c :: cs) :
    splitAtTextFrom sep 0 (c :: cs) = [] :: splitAtTextFrom sep (sep.length - 1) cs :=
  if_pos (List.isPrefixOf_iff_prefix.2 h)

theorem splitAtTextFrom_passed {c : Char} {cs : List Char} (h : ¬ sep <+: c :: cs) :
    splitAtTextFrom sep 0 (c :: cs) = consHead c (splitAtTextFrom sep 0 cs) :=
  if_neg fun hfound => h (List.isPrefixOf_iff_prefix.1 hfound)

/-- There is always a first piece, with which the rest of the text starts. -/
theorem splitAtTextFrom_head (sep : List Char) (skip : Nat) (cs : List Char) :
    ∃ piece pieces, splitAtTextFrom sep skip cs = piece :: pieces ∧ piece <+: cs.drop skip := by
  induction cs generalizing skip with
  | nil => exact ⟨[], [], rfl, List.nil_prefix⟩
  | cons c cs ih =>
    cases skip with
    | succ skip =>
      rw [splitAtTextFrom_skip, List.drop_succ_cons]
      exact ih skip
    | zero =>
      by_cases hfound : sep <+: c :: cs
      · exact ⟨[], _, splitAtTextFrom_found hfound, List.nil_prefix⟩
      · obtain ⟨piece, pieces, hpieces, hprefix⟩ := ih 0
        refine ⟨c :: piece, pieces, ?_, (List.prefix_cons_inj c).2 hprefix⟩
        rw [splitAtTextFrom_passed hfound, hpieces]
        rfl

/-- The pieces of a text and the separators between them are the text, from where splitting starts.
-/
theorem joinWith_splitAtTextFrom (hsep : sep ≠ []) (skip : Nat) (cs : List Char) :
    joinWith sep (splitAtTextFrom sep skip cs) = cs.drop skip := by
  induction cs generalizing skip with
  | nil => exact (List.drop_nil).symm
  | cons c cs ih =>
    cases skip with
    | succ skip =>
      rw [splitAtTextFrom_skip, List.drop_succ_cons]
      exact ih skip
    | zero =>
      by_cases hfound : sep <+: c :: cs
      · -- The separator that was found makes up for the characters that are skipped.
        have hlength : sep.length = sep.length - 1 + 1 := by
          have hpos := List.length_pos_iff.2 hsep
          omega
        obtain ⟨piece, pieces, hpieces, -⟩ := splitAtTextFrom_head sep (sep.length - 1) cs
        calc joinWith sep (splitAtTextFrom sep 0 (c :: cs))
            = sep ++ joinWith sep (splitAtTextFrom sep (sep.length - 1) cs) := by
              rw [splitAtTextFrom_found hfound, hpieces, joinWith_cons_cons, List.nil_append]
          _ = sep ++ (c :: cs).drop sep.length := by
              rw [ih, hlength, List.drop_succ_cons, ← hlength]
          _ = c :: cs := List.prefix_iff_eq_append.1 hfound
      · obtain ⟨piece, pieces, hpieces, -⟩ := splitAtTextFrom_head sep 0 cs
        have hrest : joinWith sep (piece :: pieces) = cs := by
          rw [← hpieces]
          exact ih 0
        rw [splitAtTextFrom_passed hfound, hpieces]
        show joinWith sep (([c] ++ piece) :: pieces) = [c] ++ cs
        rw [joinWith_append_head, hrest]

/-- No piece has the separator inside. An occurrence at the front of a piece would be one at the
front of the text, and there it is found. -/
theorem not_infix_splitAtTextFrom (hsep : sep ≠ []) (skip : Nat) (cs : List Char) :
    ∀ piece ∈ splitAtTextFrom sep skip cs, ¬ sep <:+: piece := by
  have hnil : ¬ sep <:+: [] := fun h => hsep (List.infix_nil.1 h)
  induction cs generalizing skip with
  | nil =>
    intro piece hpiece
    rw [List.mem_singleton.1 hpiece]
    exact hnil
  | cons c cs ih =>
    cases skip with
    | succ skip => exact ih skip
    | zero =>
      by_cases hfound : sep <+: c :: cs
      · rw [splitAtTextFrom_found hfound]
        exact List.forall_mem_cons.2 ⟨hnil, ih (sep.length - 1)⟩
      · obtain ⟨piece, pieces, hpieces, hprefix⟩ := splitAtTextFrom_head sep 0 cs
        have hrest := ih 0
        rw [hpieces] at hrest
        obtain ⟨hpiece, hothers⟩ := List.forall_mem_cons.1 hrest
        rw [splitAtTextFrom_passed hfound, hpieces]
        refine List.forall_mem_cons.2 ⟨?_, hothers⟩
        intro hinside
        rcases List.infix_cons_iff.1 hinside with hfront | hinside
        · apply hfound
          exact hfront.trans ((List.prefix_cons_inj c).2 hprefix)
        · exact hpiece hinside

/-- The characters of a text, joined with nothing between them. -/
theorem joinWith_nil_singletons (cs : List Char) :
    joinWith [] (cs.map fun c => [c]) = cs := by
  induction cs with
  | nil => rfl
  | cons c cs ih =>
    cases cs with
    | nil => rfl
    | cons next cs =>
      show [c] ++ [] ++ joinWith [] ((next :: cs).map fun c => [c]) = [c] ++ (next :: cs)
      rw [ih, List.append_nil]

/-- Pieces are joined as strings as they are as characters. -/
theorem join_ofList (sep : String) (pieces : List (List Char)) :
    join sep (pieces.map String.ofList) = String.ofList (joinWith sep.toList pieces) := by
  have hpieces : (pieces.map String.ofList).map String.toList = pieces := by
    rw [List.map_map]
    exact List.map_id'' (fun piece => String.toList_ofList) pieces
  rw [← String.toList_inj, toList_join, hpieces, String.toList_ofList]

end Text

-- ============================================================================
-- The operators
-- ============================================================================

namespace Core

/-- The pieces of a text between the occurrences of another, or its characters if that is empty. -/
def partsOf (sep cs : List Char) : List (List Char) :=
  if sep.isEmpty then cs.map fun c => [c] else Text.splitAtText sep cs

theorem joinWith_partsOf (sep cs : List Char) : Text.joinWith sep (partsOf sep cs) = cs := by
  cases sep with
  | nil => exact Text.joinWith_nil_singletons cs
  | cons c sep => exact Text.joinWith_splitAtTextFrom (List.cons_ne_nil c sep) 0 cs

theorem splitText_text (s : String) (args : Arguments) :
    splitText (.text s) args =
      .ok (.array
        (((partsOf (args.textOr 0 ",").toList s.toList).map String.ofList).map .text)) := by
  rw [partsOf, List.map_map]
  by_cases hempty : (args.textOr 0 ",").toList.isEmpty = true
  · have hchars : splitText (.text s) args =
        .ok (.array (s.toList.map fun c => .text c.toString)) := if_pos hempty
    rw [hchars, if_pos hempty, List.map_map]
    rfl
  · rw [if_neg hempty]
    exact if_neg hempty

/-- Texts are joined as they are. -/
theorem join_texts (parts : List String) (args : Arguments) :
    join (.array (parts.map .text)) args = .ok (.text (Text.join (args.textOr 0 ",") parts)) := by
  have hrender : (parts.map Value.text).map Value.render = parts := by
    rw [List.map_map]
    exact List.map_id parts
  show Except.ok (Value.text (Text.join _ ((parts.map Value.text).map Value.render))) = _
  rw [hrender]

/-- Joining undoes splitting. With any separator, the one that is meant by no argument included, a
text is split into texts that are joined to the same text; and a separator that is not empty stands
in none of them. -/
theorem join_undoes_splitText (s : String) (args : Arguments) :
    ∃ parts : List String,
      splitText (.text s) args = .ok (.array (parts.map .text)) ∧
      join (.array (parts.map .text)) args = .ok (.text s) ∧
      (args.textOr 0 "," ≠ "" →
        ∀ part ∈ parts, ¬ (args.textOr 0 ",").toList <:+: part.toList) := by
  refine ⟨_, splitText_text s args, ?_, fun hsep part hpart => ?_⟩
  · rw [join_texts, Text.join_ofList, joinWith_partsOf, String.ofList_toList]
  · obtain ⟨piece, hpiece, rfl⟩ := List.mem_map.1 hpart
    have hchars : (args.textOr 0 ",").toList ≠ [] := by
      intro hnil
      exact hsep (String.toList_eq_nil_iff.1 hnil)
    rw [partsOf, if_neg (by rwa [List.isEmpty_iff])] at hpiece
    rw [String.toList_ofList]
    exact Text.not_infix_splitAtTextFrom hchars 0 s.toList piece hpiece

/-- The second of two overlapping separators is passed over. -/
theorem join_undoes_splitText_overlapping :
    (Arguments.textOr [.text "aa"] 0 "," ≠ "") ∧ ∃ parts : List String,
      splitText (.text "aaab") [.text "aa"] = .ok (.array (parts.map .text)) ∧
      join (.array (parts.map .text)) [.text "aa"] = .ok (.text "aaab") ∧
      ∀ part ∈ parts, ¬ "aa".toList <:+: part.toList := by
  have hsep : Arguments.textOr [.text "aa"] 0 "," ≠ "" := by decide
  obtain ⟨parts, hparts, hjoined, hwithout⟩ := join_undoes_splitText "aaab" [.text "aa"]
  exact ⟨hsep, parts, hparts, hjoined, hwithout hsep⟩

end Core

end Sluice
