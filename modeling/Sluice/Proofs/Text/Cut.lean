/-
  Sluice.Proofs.Text.Cut

  Texts that are split at a character, and texts that are joined. There is always a first piece, no
  piece has the separator, and pieces without it are found again after they were joined with it.
-/

import Sluice.Text.Cut

namespace Sluice.Text

-- ============================================================================
-- Splitting at a character
-- ============================================================================

theorem splitAtChar_ne_nil (sep : Char) (cs : List Char) : splitAtChar sep cs ≠ [] := by
  cases cs with
  | nil => simp [splitAtChar]
  | cons c cs =>
    rw [splitAtChar]
    split
    · simp
    · cases splitAtChar sep cs <;> simp [consHead]

theorem consHead_append (c : Char) {pieces : List (List Char)} (h : pieces ≠ [])
    (more : List (List Char)) : consHead c (pieces ++ more) = consHead c pieces ++ more := by
  cases pieces with
  | nil => exact absurd rfl h
  | cons piece pieces => rfl

/-- A separator between two texts is where their pieces meet. -/
theorem splitAtChar_append (sep : Char) (first second : List Char) :
    splitAtChar sep (first ++ sep :: second) =
      splitAtChar sep first ++ splitAtChar sep second := by
  induction first with
  | nil => simp [splitAtChar]
  | cons c first ih =>
    rw [List.cons_append, splitAtChar, splitAtChar, ih]
    split
    · rfl
    · exact consHead_append c (splitAtChar_ne_nil sep first) _

/-- There is one piece more than there are separators. -/
theorem length_splitAtChar (sep : Char) (cs : List Char) :
    (splitAtChar sep cs).length = cs.count sep + 1 := by
  induction cs with
  | nil => rfl
  | cons c cs ih =>
    have hhead : (consHead c (splitAtChar sep cs)).length = (splitAtChar sep cs).length := by
      have hne := splitAtChar_ne_nil sep cs
      cases hpieces : splitAtChar sep cs with
      | nil => exact absurd hpieces hne
      | cons piece pieces => rfl
    rw [splitAtChar]
    by_cases hc : c = sep
    · rw [if_pos hc, hc, List.length_cons, List.count_cons_self, ih]
    · rw [if_neg hc, hhead, List.count_cons_of_ne hc, ih]

/-- A text without the separator is one piece. -/
theorem splitAtChar_of_not_mem {sep : Char} {cs : List Char} (h : sep ∉ cs) :
    splitAtChar sep cs = [cs] := by
  induction cs with
  | nil => rfl
  | cons c cs ih =>
    rw [List.mem_cons, not_or] at h
    rw [splitAtChar, if_neg (Ne.symm h.1), ih h.2]
    rfl

theorem not_mem_splitAtChar (sep : Char) (cs : List Char) :
    ∀ piece ∈ splitAtChar sep cs, sep ∉ piece := by
  induction cs with
  | nil => simp [splitAtChar]
  | cons c cs ih =>
    rw [splitAtChar]
    split
    · exact List.forall_mem_cons.2 ⟨List.not_mem_nil, ih⟩
    · next hne =>
      cases hpieces : splitAtChar sep cs with
      | nil => simpa [consHead] using Ne.symm hne
      | cons piece pieces =>
        rw [hpieces] at ih
        obtain ⟨hpiece, hrest⟩ := List.forall_mem_cons.1 ih
        refine List.forall_mem_cons.2 ⟨?_, hrest⟩
        exact List.not_mem_cons_of_ne_of_not_mem (Ne.symm hne) hpiece

-- ============================================================================
-- Joining
-- ============================================================================

theorem joinWith_cons_cons (sep part next : List Char) (parts : List (List Char)) :
    joinWith sep (part :: next :: parts) = part ++ sep ++ joinWith sep (next :: parts) := rfl

/-- Joined parts start with the first one. -/
theorem joinWith_cons (sep part : List Char) (parts : List (List Char)) :
    ∃ tail, joinWith sep (part :: parts) = part ++ tail := by
  cases parts with
  | nil => exact ⟨[], (List.append_nil part).symm⟩
  | cons next parts =>
    rw [joinWith_cons_cons, List.append_assoc]
    exact ⟨_, rfl⟩

/-- The first ones of some joined texts come first. -/
theorem joinWith_append (sep : List Char) (parts more : List (List Char)) :
    ∃ tail, joinWith sep (parts ++ more) = joinWith sep parts ++ tail := by
  induction parts with
  | nil => exact ⟨joinWith sep more, rfl⟩
  | cons part parts ih =>
    cases parts with
    | nil => exact joinWith_cons sep part more
    | cons next parts =>
      obtain ⟨tail, htail⟩ := ih
      refine ⟨tail, ?_⟩
      rw [List.cons_append] at htail
      rw [List.cons_append, List.cons_append, joinWith_cons_cons, joinWith_cons_cons, htail,
        List.append_assoc, List.append_assoc, List.append_assoc]

/-- Text in front of the first part comes first. -/
theorem joinWith_append_head (sep front part : List Char) (parts : List (List Char)) :
    joinWith sep ((front ++ part) :: parts) = front ++ joinWith sep (part :: parts) := by
  cases parts with
  | nil => rfl
  | cons next parts =>
    rw [joinWith_cons_cons, joinWith_cons_cons, List.append_assoc, List.append_assoc,
      List.append_assoc]

theorem mem_joinWith {sep : List Char} {parts : List (List Char)} {c : Char}
    (h : c ∈ joinWith sep parts) : c ∈ sep ∨ ∃ part ∈ parts, c ∈ part := by
  induction parts with
  | nil => cases h
  | cons part parts ih =>
    cases parts with
    | nil => exact .inr ⟨part, List.mem_cons_self, h⟩
    | cons next parts =>
      rw [joinWith_cons_cons, List.mem_append, List.mem_append] at h
      rcases h with (h | h) | h
      · exact .inr ⟨part, List.mem_cons_self, h⟩
      · exact .inl h
      · rcases ih h with hsep | ⟨other, hmem, hc⟩
        · exact .inl hsep
        · exact .inr ⟨other, List.mem_cons_of_mem part hmem, hc⟩

/-- Strings are joined as their characters are. -/
theorem toList_join (sep : String) (parts : List String) :
    (join sep parts).toList = joinWith sep.toList (parts.map String.toList) := by
  rw [join, String.toList_intercalate]
  induction parts with
  | nil => rfl
  | cons part parts ih =>
    cases parts with
    | nil => simp [joinWith]
    | cons next parts =>
      rw [List.map_cons] at ih
      rw [List.map_cons, List.map_cons, List.intercalate_cons_cons, joinWith_cons_cons, ih]

/-- Pieces that are joined with a separator none of them has are found again. -/
theorem splitAtChar_joinWith {sep : Char} {piece : List Char} {pieces : List (List Char)}
    (h : ∀ p ∈ piece :: pieces, sep ∉ p) :
    splitAtChar sep (joinWith [sep] (piece :: pieces)) = piece :: pieces := by
  induction pieces generalizing piece with
  | nil => exact splitAtChar_of_not_mem (h piece List.mem_cons_self)
  | cons next pieces ih =>
    rw [joinWith_cons_cons, List.append_assoc, List.singleton_append, splitAtChar_append,
      splitAtChar_of_not_mem (h piece List.mem_cons_self),
      ih fun p hp => h p (List.mem_cons_of_mem piece hp)]
    rfl

end Sluice.Text
