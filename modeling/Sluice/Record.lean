/-
  Sluice.Record

  Entries keyed by text, kept in increasing key order. The order of keys is that of their code
  points, which is also the order of their UTF-8 bytes. `set` keeps the order and replaces an
  entry with the same key; it is the only operation that adds keys.
-/

namespace Sluice

/-- Entries keyed by text. -/
abbrev Record (α : Type) := List (String × α)

namespace Record

variable {α β : Type}

/-- The entry of a key. -/
def get? (key : String) : Record α → Option α
  | [] => none
  | (k, v) :: rest => if k = key then some v else get? key rest

/-- Whether a key has an entry. -/
def contains (key : String) (record : Record α) : Bool :=
  (record.get? key).isSome

/-- Add an entry at its place, or replace the one with the same key. -/
def set (key : String) (value : α) : Record α → Record α
  | [] => [(key, value)]
  | (k, v) :: rest =>
    if key < k then (key, value) :: (k, v) :: rest
    else if k = key then (key, value) :: rest
    else (k, v) :: set key value rest

/-- The record of a list of entries, where a later entry replaces an earlier one. -/
def ofEntries (entries : List (String × α)) : Record α :=
  entries.foldl (fun record (key, value) => record.set key value) []

/-- The keys, in order. -/
def keys (record : Record α) : List String :=
  record.map (·.1)

/-- The entries' contents, in key order. -/
def contents (record : Record α) : List α :=
  record.map (·.2)

/-- Change every entry's content. -/
def mapContents (f : α → β) (record : Record α) : Record β :=
  record.map fun (key, value) => (key, f value)

/-- Keys increase strictly, so each key has at most one entry. -/
def Ordered (record : Record α) : Prop :=
  record.Pairwise fun a b => a.1 < b.1

/-! ## Reading back -/

/-- An entry reads back after it was set. -/
theorem get?_set_self (key : String) (value : α) (record : Record α) :
    (record.set key value).get? key = some value := by
  induction record with
  | nil => simp [set, get?]
  | cons entry rest ih =>
    obtain ⟨k, v⟩ := entry
    unfold set
    split
    · simp [get?]
    · split
      · simp [get?]
      · rename_i h
        simp [get?, h, ih]

/-- Setting an entry leaves the others alone. -/
theorem get?_set_of_ne {key other : String} (h : other ≠ key) (value : α) (record : Record α) :
    (record.set key value).get? other = record.get? other := by
  induction record with
  | nil => simp [set, get?, Ne.symm h]
  | cons entry rest ih =>
    obtain ⟨k, v⟩ := entry
    unfold set
    split
    · simp [get?, Ne.symm h]
    · split
      · rename_i hk
        subst hk
        simp [get?, Ne.symm h]
      · simp [get?, ih]

end Record

end Sluice
