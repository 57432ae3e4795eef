/-
  Sluice.Source.Split

  Splitting at a delimiter that stands outside brackets and string literals. The bar of a
  `<|>` marker never separates. Parts are trimmed, and there is one part more than there are
  delimiters.
-/

import Sluice.Source.Quoting
import Sluice.Text.Cut

namespace Sluice.Source

/-- Bracket depth after a character outside string literals; surplus closing brackets do not
count. -/
def depthAfter (depth : Nat) (c : Char) : Nat :=
  if isOpening c then depth + 1 else if isClosing c then depth - 1 else depth

/-- Whether a bar between these neighbours belongs to a `<|>` marker. -/
def isMarker (before : Option Char) (c : Char) (rest : List Char) : Bool :=
  c == '|' && before == some '<' && rest.head? == some '>'

/-- The pieces between top-level delimiters, untrimmed. `before` is the character just read. -/
def pieces (delimiter : Char) (q : Quoting) (depth : Nat) (before : Option Char) :
    List Char → List (List Char)
  | [] => [[]]
  | c :: rest =>
    match q with
    | .outside =>
      -- A closing bracket is already outside, so the depth after the character counts.
      let depth := depthAfter depth c
      if c == delimiter && depth == 0 && !isMarker before c rest then
        [] :: pieces delimiter (q.after c) depth (some c) rest
      else Text.consHead c (pieces delimiter (q.after c) depth (some c) rest)
    | q => Text.consHead c (pieces delimiter (q.after c) depth (some c) rest)

/-- The trimmed parts between top-level delimiters. -/
def splitTopLevel (delimiter : Char) (cs : List Char) : List (List Char) :=
  (pieces delimiter .outside 0 none cs).map Text.trimChars

/-- The segments of a line between top-level bars. -/
def splitPipes (cs : List Char) : List (List Char) :=
  splitTopLevel '|' cs

/-- The arguments between top-level commas; blank text has none. -/
def splitArgs (cs : List Char) : List (List Char) :=
  if (Text.trimChars cs).isEmpty then [] else splitTopLevel ',' cs

/-- The untrimmed sides of the first top-level colon. -/
def colonSides (q : Quoting) (depth : Nat) : List Char → Option (List Char × List Char)
  | [] => none
  | c :: rest =>
    match q with
    | .outside =>
      if c == ':' && depth == 0 then some ([], rest)
      else (colonSides (q.after c) (depthAfter depth c) rest).map
        fun (key, value) => (c :: key, value)
    | q => (colonSides (q.after c) depth rest).map fun (key, value) => (c :: key, value)

/-- The trimmed sides of the first top-level colon. -/
def splitKeyValue (cs : List Char) : Option (List Char × List Char) :=
  (colonSides .outside 0 cs).map fun (key, value) => (Text.trimChars key, Text.trimChars value)

/-! ## Lengths -/

/-- Trimming never lengthens. -/
theorem length_trimChars_le (cs : List Char) : (Text.trimChars cs).length ≤ cs.length := by
  unfold Text.trimChars Text.trimWhile Text.dropEndWhile
  simp only [List.length_reverse]
  refine Nat.le_trans (List.dropWhile_suffix _).length_le ?_
  simp only [List.length_reverse]
  exact (List.dropWhile_suffix _).length_le

/-- A character in front of the first piece makes no piece longer by more than one. -/
theorem length_le_of_mem_consHead {c : Char} {ps : List (List Char)} {n : Nat}
    (h : ∀ p ∈ ps, p.length ≤ n) {p : List Char} (hp : p ∈ Text.consHead c ps) :
    p.length ≤ n + 1 := by
  cases ps with
  | nil => simp [Text.consHead] at hp; simp [hp]
  | cons q qs =>
    simp only [Text.consHead, List.mem_cons] at hp
    rcases hp with rfl | hp
    · have := h q (by simp)
      simp
      omega
    · have := h p (by simp [hp])
      omega

/-- A piece is never longer than the text it was cut from. -/
theorem length_le_of_mem_pieces {delimiter : Char} {q : Quoting} {depth : Nat}
    {before : Option Char} {cs p : List Char} (hp : p ∈ pieces delimiter q depth before cs) :
    p.length ≤ cs.length := by
  induction cs generalizing q depth before p with
  | nil => simp [pieces] at hp; simp [hp]
  | cons c rest ih =>
    unfold pieces at hp
    split at hp
    · simp only at hp
      split at hp
      · simp only [List.mem_cons] at hp
        rcases hp with rfl | hp
        · simp
        · have := ih hp
          simp
          omega
      · exact length_le_of_mem_consHead (fun _ h => ih h) hp
    · exact length_le_of_mem_consHead (fun _ h => ih h) hp

/-- A part is never longer than the text it was split from. -/
theorem length_le_of_mem_splitArgs {cs p : List Char} (hp : p ∈ splitArgs cs) :
    p.length ≤ cs.length := by
  unfold splitArgs at hp
  split at hp
  · simp at hp
  · unfold splitTopLevel at hp
    obtain ⟨piece, hm, rfl⟩ := List.mem_map.1 hp
    exact Nat.le_trans (length_trimChars_le piece) (length_le_of_mem_pieces hm)

/-- Neither side of a colon is longer than the text around it. -/
theorem length_le_of_colonSides {q : Quoting} {depth : Nat} {cs key value : List Char}
    (h : colonSides q depth cs = some (key, value)) :
    key.length ≤ cs.length ∧ value.length ≤ cs.length := by
  induction cs generalizing q depth key value with
  | nil => simp [colonSides] at h
  | cons c rest ih =>
    have step : ∀ {q' : Quoting} {d : Nat},
        (colonSides q' d rest).map (fun (k, v) => (c :: k, v)) = some (key, value) →
        key.length ≤ (c :: rest).length ∧ value.length ≤ (c :: rest).length := by
      intro q' d hm
      obtain ⟨⟨k, v⟩, hk, he⟩ := Option.map_eq_some_iff.1 hm
      simp only [Prod.mk.injEq] at he
      have := ih hk
      simp [← he.1, ← he.2]
      omega
    unfold colonSides at h
    split at h
    · split at h
      · simp only [Option.some.injEq, Prod.mk.injEq] at h
        simp [← h.1, ← h.2]
      · exact step h
    · exact step h

/-- Neither side of an entry is longer than the entry. -/
theorem length_le_of_splitKeyValue {cs key value : List Char}
    (h : splitKeyValue cs = some (key, value)) :
    key.length ≤ cs.length ∧ value.length ≤ cs.length := by
  unfold splitKeyValue at h
  obtain ⟨⟨k, v⟩, hk, he⟩ := Option.map_eq_some_iff.1 h
  simp only [Prod.mk.injEq] at he
  have := length_le_of_colonSides hk
  have hk := length_trimChars_le k
  have hv := length_trimChars_le v
  rw [← he.1, ← he.2]
  omega

end Sluice.Source
