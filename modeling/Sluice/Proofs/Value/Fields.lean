/-
  Sluice.Proofs.Value.Fields

  Reading a field after a field was set. Setting takes a key as it stands, points included. Reading
  takes a text apart at its points and follows the steps from one collection into the next. So a
  text reads the value that was set if its first step is the key, and the rest of its steps lead on
  from there; any other text reads what it read before.

  Main statement: a key without a point reads back, and other keys without a point read as before.
  A key with a point is the first step of no text, so it reads as before itself.
-/

import Sluice.Operator.Core
import Sluice.Proofs.Text.Cut

namespace Sluice

variable {input v : Value} {fields : Record Value} {key first : String} {rest : List String}

-- ============================================================================
-- Steps
-- ============================================================================

namespace Value

/-- The fields among which a field can be set; null has none yet. -/
def fields? : Value → Option (Record Value)
  | null => some []
  | object fields => some fields
  | _ => none

/-- From null no step leads anywhere, just as from an object without fields. -/
theorem at?_of_fields? (h : input.fields? = some fields) (first : String) (rest : List String) :
    input.at? (first :: rest) = (object fields).at? (first :: rest) := by
  cases input with
  | null =>
    cases h
    rfl
  | object own =>
    cases h
    rfl
  | bool _ | number _ | text _ | array _ => cases h

/-- The key that was set leads into the new value, any other first step where it led before. -/
theorem at?_set (key : String) (v : Value) (fields : Record Value) (first : String)
    (rest : List String) :
    (object (fields.set key v)).at? (first :: rest) =
      if first = key then v.at? rest else (object fields).at? (first :: rest) := by
  show ((fields.set key v).get? first).bind (at? rest) = _
  split
  · next heq => rw [heq, Record.get?_set_self, Option.bind_some]
  · next hne =>
    rw [Record.get?_set_of_ne hne]
    rfl

end Value

namespace Core

/-- The steps of a text that reads a field: what stands between its points. -/
def steps (key : String) : List String :=
  (Text.splitAtChar '.' key.toList).map String.ofList

theorem steps_of_not_mem (h : '.' ∉ key.toList) : steps key = [key] := by
  rw [steps, Text.splitAtChar_of_not_mem h, List.map_singleton, String.ofList_toList]

theorem exists_steps (key : String) : ∃ first rest, steps key = first :: rest := by
  apply List.exists_cons_of_ne_nil
  intro hnil
  exact Text.splitAtChar_ne_nil '.' key.toList (List.map_eq_nil_iff.1 hnil)

/-- No point is part of a step. -/
theorem not_mem_of_steps (h : steps key = first :: rest) : '.' ∉ first.toList := by
  have hmem : first ∈ steps key := h ▸ List.mem_cons_self
  obtain ⟨piece, hpiece, rfl⟩ := List.mem_map.1 hmem
  rw [String.toList_ofList]
  exact Text.not_mem_splitAtChar '.' key.toList piece hpiece

-- ============================================================================
-- Setting and reading
-- ============================================================================

theorem get_text (input : Value) (key : String) :
    get input [.text key] = .ok ((input.at? (steps key)).getD .null) := rfl

theorem set_text (h : input.fields? = some fields) (key : String) (v : Value) :
    set input [.text key, v] = .ok (.object (fields.set key v)) := by
  cases input with
  | null =>
    cases h
    rfl
  | object own =>
    cases h
    rfl
  | bool _ | number _ | text _ | array _ => cases h

/-- A text whose first step is the key that was set is read in the new value. -/
theorem get_set_of_first {other : String} (h : steps other = key :: rest) :
    get (.object (fields.set key v)) [.text other] = .ok ((v.at? rest).getD .null) := by
  rw [get_text, h, Value.at?_set, if_pos rfl]

/-- Any other text is read as it was read before. -/
theorem get_set_of_first_ne (hfields : input.fields? = some fields) {other : String}
    (h : steps other = first :: rest) (hne : first ≠ key) :
    get (.object (fields.set key v)) [.text other] = get input [.text other] := by
  rw [get_text, get_text, h, Value.at?_set, if_neg hne, Value.at?_of_fields? hfields]

/-- A key with a point is the first step of no text, itself included. -/
theorem get_set_of_mem (hfields : input.fields? = some fields) (h : '.' ∈ key.toList)
    (other : String) :
    get (.object (fields.set key v)) [.text other] = get input [.text other] := by
  obtain ⟨first, rest, hsteps⟩ := exists_steps other
  refine get_set_of_first_ne hfields hsteps fun heq => ?_
  exact not_mem_of_steps hsteps (heq ▸ h)

/-- A field can be set in an object and in null, under any key. A key without a point reads back the
value, and a key with a point reads what it read before. Every other key without a point reads what
it read before. -/
theorem reads_what_was_set (hfields : input.fields? = some fields) (key : String) (v : Value) :
    ∃ updated, set input [.text key, v] = .ok updated ∧
      ('.' ∉ key.toList → get updated [.text key] = .ok v) ∧
      ('.' ∈ key.toList → get updated [.text key] = get input [.text key]) ∧
      ∀ other : String, '.' ∉ other.toList → other ≠ key →
        get updated [.text other] = get input [.text other] := by
  refine ⟨_, set_text hfields key v, ?_, ?_, ?_⟩
  · intro hpoint
    rw [get_set_of_first (steps_of_not_mem hpoint)]
    rfl
  · intro hpoint
    exact get_set_of_mem hfields hpoint key
  · intro other hpoint hne
    exact get_set_of_first_ne hfields (steps_of_not_mem hpoint) hne

/-- A field `a.b` stands beside the field `b` of the field `a`, which is still what is read. -/
theorem reads_what_was_set_beside :
    ∃ updated,
      set (.object [("a", .object [("b", .bool true)])]) [.text "a.b", .bool false] = .ok updated ∧
      get updated [.text "a.b"] = .ok (.bool true) ∧
      get updated [.text "a"] = .ok (.object [("b", .bool true)]) := by
  have hfields : (Value.object [("a", .object [("b", .bool true)])]).fields? =
      some [("a", .object [("b", .bool true)])] := rfl
  obtain ⟨updated, hset, -, hkey, hothers⟩ := reads_what_was_set hfields "a.b" (.bool false)
  exact ⟨updated, hset, hkey (by decide), hothers "a" (by decide) (by decide)⟩

/-- What is set under a key with a point in null reads as null. -/
theorem dotted_key_is_not_read_back :
    ¬ ∃ updated, set .null [.text "a.b", .number 1.0] = .ok updated ∧
      get updated [.text "a.b"] = .ok (.number 1.0) := by
  rintro ⟨updated, hset, hget⟩
  have hnull : Value.null.fields? = some [] := rfl
  have hpoint : '.' ∈ "a.b".toList := by decide
  obtain rfl := Except.ok.inj ((set_text hnull "a.b" (.number 1.0)).symm.trans hset)
  rw [get_set_of_mem hnull hpoint] at hget
  cases hget

end Core

end Sluice
