/-
  Sluice.Proofs.Literal.Depth

  How deep the reading of literals nests.

  A literal that is bracketed is read by reading its parts, and these by reading theirs. Elements
  and values are read one level deeper than the collection around them, and at the cap the reader
  stops and keeps the rest as text. Keys are read from depth zero again. So the cap counts the
  levels since the last key (`Reading.Below.depth_eq`), which are all levels where no key is
  bracketed itself (`Reading.Below.eq_of_flatKeys`). Bracketed keys escape it: keys inside of keys
  nest without a bound (`descends_below_keys`).
-/

import Sluice.Proofs.Literal.Strict

namespace Sluice.Literal

open Source (Closed splitArgs splitKeyValue)
open Text (Solid trimChars)

-- ============================================================================
-- Readings
-- ============================================================================

/-- The reading of a literal that stands `depth` collections deep, with this reader of strict
JSON. -/
structure Reading (json : Json.Reader) where
  depth : Nat
  source : List Char

variable {json : Json.Reader}

namespace Reading

/-- What is read. -/
def value (r : Reading json) : Value :=
  readAt json r.depth r.source

/-- The literal without the blanks around it. -/
def text (r : Reading json) : List Char :=
  trimChars r.source

/-- Whether a collection is read: the literal is bracketed, and no scalar. -/
def isCollection (r : Reading json) : Bool :=
  (scalar? r.text).isNone && isBracketed r.text

/-- Whether the collection is read as structure and not kept as text. -/
def descends (r : Reading json) : Bool :=
  r.isCollection && decide (r.depth < maxDepth)

/-- Whether the collection is read part by part. -/
def splits (r : Reading json) : Bool :=
  r.descends && (readAt.strict? json r.depth r.text).isNone

/-- Whether the collection is an array. -/
def isArray (r : Reading json) : Bool :=
  isWrapped '[' ']' r.text

/-- The readings of the elements of an array. -/
def items (r : Reading json) : List (Reading json) :=
  if r.splits && r.isArray then (splitArgs (inner r.text)).map fun item => ⟨r.depth + 1, item⟩
  else []

/-- The readings of the keys of an object, which start from depth zero, and of their values. -/
def entries (r : Reading json) : List (Reading json × Option (Reading json)) :=
  if r.splits && !r.isArray then (splitArgs (inner r.text)).map fun entry =>
    match splitKeyValue entry with
    | some (key, value) => (⟨0, key⟩, some ⟨r.depth + 1, value⟩)
    | none => (⟨0, entry⟩, none)
  else []

/-- The readings of keys inside a reading. -/
def keys (r : Reading json) : List (Reading json) :=
  r.entries.map (·.1)

/-- The readings of elements and values inside a reading. -/
def parts (r : Reading json) : List (Reading json) :=
  r.items ++ r.entries.filterMap (·.2)

theorem isCollection_iff {r : Reading json} :
    r.isCollection = true ↔ scalar? r.text = none ∧ isBracketed r.text = true := by
  rw [isCollection, Bool.and_eq_true, Option.isNone_iff_eq_none]

/-- A collection is read strictly or else leniently above the cap, and kept as text from the cap
on. -/
theorem value_of_isCollection {r : Reading json} (h : r.isCollection = true) :
    r.value = if r.depth < maxDepth then
        (readAt.strict? json r.depth r.text).getD (readLenient json r.depth r.text)
      else .text (String.ofList r.text) := by
  obtain ⟨hscalar, hbracketed⟩ := isCollection_iff.1 h
  unfold text at hscalar hbracketed ⊢
  rw [value, readAt_eq, hscalar]
  simp only [hbracketed, Bool.true_and, decide_eq_true_eq]

/-- A collection that is read part by part is put together from the readings inside of it. -/
theorem value_eq_of_splits {r : Reading json} (h : r.splits = true) :
    r.value = if r.isArray then .array (r.items.map value)
      else .object (Record.ofEntries (r.entries.map fun entry =>
        (keyText entry.1.value, (entry.2.map value).getD .null))) := by
  obtain ⟨hdescends, hstrict⟩ := Bool.and_eq_true_iff.1 h
  obtain ⟨hcollection, hdepth⟩ := Bool.and_eq_true_iff.1 hdescends
  rw [value_of_isCollection hcollection, if_pos (of_decide_eq_true hdepth),
    Option.isNone_iff_eq_none.1 hstrict, Option.getD_none, readLenient]
  by_cases harray : r.isArray = true
  · have hwrapped : isWrapped '[' ']' r.text = true := harray
    rw [if_pos hwrapped, if_pos harray, items, h, harray]
    simp only [Bool.and_self, if_true, List.map_map]
    rfl
  · have hwrapped : ¬ isWrapped '[' ']' r.text = true := harray
    rw [if_neg hwrapped, if_neg harray, entries, h, Bool.eq_false_iff.2 harray]
    simp only [Bool.not_false, Bool.and_self, if_true, List.map_map]
    refine congrArg (fun es => Value.object (Record.ofEntries es))
      (List.map_congr_left fun entry _ => ?_)
    simp only [readEntry, Function.comp_apply]
    cases splitKeyValue entry <;> rfl

/-- `Below root n k r`: the reading `r` takes place inside of `n` collections, each read inside of
the one before it, of which `root` is the outermost; `k` of them were entered since the last key
was. -/
inductive Below (root : Reading json) : Nat → Nat → Reading json → Prop where
  | root : Below root 0 0 root
  | part {n k r part} : Below root n k r → part ∈ r.parts → Below root (n + 1) (k + 1) part
  | key {n k r key} : Below root n k r → key ∈ r.keys → Below root (n + 1) 0 key

theorem isCollection_of_splits {r : Reading json} (h : r.splits = true) : r.isCollection = true :=
  (Bool.and_eq_true_iff.1 (Bool.and_eq_true_iff.1 h).1).1

/-- Elements and values are read one level deeper than the collection that they are in. -/
theorem depth_of_mem_parts {r part : Reading json} (h : part ∈ r.parts) :
    part.depth = r.depth + 1 ∧ r.isCollection = true := by
  rw [parts, List.mem_append] at h
  rcases h with h | h
  · unfold items at h
    split at h
    · rename_i hsplits
      obtain ⟨item, -, rfl⟩ := List.mem_map.1 h
      exact ⟨rfl, isCollection_of_splits (Bool.and_eq_true_iff.1 hsplits).1⟩
    · cases h
  · unfold entries at h
    split at h
    · rename_i hsplits
      obtain ⟨entry, hentry, hpart⟩ := List.mem_filterMap.1 h
      obtain ⟨piece, -, rfl⟩ := List.mem_map.1 hentry
      refine ⟨?_, isCollection_of_splits (Bool.and_eq_true_iff.1 hsplits).1⟩
      split at hpart <;> cases hpart
      rfl
    · cases h

/-- Keys are read from depth zero. -/
theorem depth_of_mem_keys {r key : Reading json} (h : key ∈ r.keys) : key.depth = 0 := by
  obtain ⟨entry, hentry, rfl⟩ := List.mem_map.1 h
  unfold entries at hentry
  split at hentry
  · obtain ⟨piece, -, rfl⟩ := List.mem_map.1 hentry
    split <;> rfl
  · cases hentry

/-- The depth of a reading counts the collections since the last key. -/
theorem Below.depth_eq {source : List Char} {n k : Nat} {r : Reading json}
    (h : Below ⟨0, source⟩ n k r) : r.depth = k := by
  induction h with
  | root => rfl
  | part _ hpart ih => rw [(depth_of_mem_parts hpart).1, ih]
  | key _ hkey _ => exact depth_of_mem_keys hkey

end Reading

/-- No key in a literal is bracketed. -/
def FlatKeys (json : Json.Reader) (source : List Char) : Prop :=
  ∀ n k (r : Reading json), Reading.Below ⟨0, source⟩ n k r →
    ∀ key ∈ r.keys, key.isCollection = false

/-- Where keys are flat, no collection is read inside of a key. -/
theorem Reading.Below.eq_of_flatKeys {source : List Char} (hkeys : FlatKeys json source) {n k : Nat}
    {r : Reading json} (h : Below ⟨0, source⟩ n k r) (hcollection : r.isCollection = true) :
    k = n := by
  induction h with
  | root => rfl
  | part _ hpart ih => rw [ih (depth_of_mem_parts hpart).2]
  | key hbelow hkey _ =>
    rw [hkeys _ _ _ hbelow _ hkey] at hcollection
    cases hcollection

/-- A collection is read as structure if less than 128 collections were entered since the last
key, and is kept as text otherwise. Where no key is bracketed these are all collections around it,
so never more than 128 of these readings nest. -/
theorem reading_within_cap (json : Json.Reader) (source : List Char) (n k : Nat) (r : Reading json)
    (hbelow : Reading.Below ⟨0, source⟩ n k r) (hcollection : r.isCollection = true) :
    (r.descends = true ↔ k < maxDepth) ∧
    (maxDepth ≤ k → r.value = .text (String.ofList r.text)) ∧
    (FlatKeys json source → k = n) := by
  have hdepth := hbelow.depth_eq
  refine ⟨?_, fun hdeep => ?_, fun hkeys => hbelow.eq_of_flatKeys hkeys hcollection⟩
  · rw [Reading.descends, hcollection, Bool.true_and, decide_eq_true_eq, hdepth]
  · rw [Reading.value_of_isCollection hcollection, hdepth, if_neg (Nat.not_lt.2 hdeep)]

-- ============================================================================
-- Towers of brackets
-- ============================================================================

/-- A text inside of this many square brackets. -/
def tower : Nat → List Char → List Char
  | 0, core => core
  | n + 1, core => '[' :: (tower n core ++ [']'])

variable {core : List Char}

theorem closed_tower (hcore : Closed [',', ':'] core) (n : Nat) :
    Closed [',', ':'] (tower n core) := by
  cases n with
  | zero => exact hcore
  | succ n => exact .brackets rfl rfl ((closed_tower hcore n).mono (List.nil_subset _)) .nil

theorem solid_tower (hcore : Solid core) (n : Nat) : Solid (tower n core) := by
  cases n with
  | zero => exact hcore
  | succ n => exact Text.solid_brackets rfl rfl _

/-- A tower is an array with one element. -/
theorem splitArgs_tower (hcore : Closed [',', ':'] core) (hsolid : Solid core) (n : Nat) :
    splitArgs (inner (tower (n + 1) core)) = [tower n core] := by
  rw [tower, inner_brackets]
  exact Source.splitArgs_single (solid_tower hsolid n) ((closed_tower hcore n).mono (by simp))

/-- The reading of a tower, and what is read inside of it. -/
theorem reading_tower (hcore : Closed [',', ':'] core) (hsolid : Solid core) (depth n : Nat) :
    let r : Reading json := ⟨depth, tower (n + 1) core⟩
    r.text = r.source ∧ r.isCollection = true ∧ r.isArray = true ∧ r.entries = [] ∧
      r.items = if r.splits then [⟨depth + 1, tower n core⟩] else [] := by
  intro r
  have htext : r.text = r.source := Text.trimChars_of_solid (solid_tower hsolid (n + 1))
  have harray : r.isArray = true := by
    rw [Reading.isArray, htext]
    exact isWrapped_brackets '[' ']' _
  refine ⟨htext, ?_, harray, ?_, ?_⟩
  · rw [Reading.isCollection_iff, htext]
    exact ⟨scalar?_brackets (.inl rfl) _, isBracketed_brackets (.inl ⟨rfl, rfl⟩) _⟩
  · simp [Reading.entries, harray]
  · rw [Reading.items, harray, Bool.and_true, htext]
    simp only [r, splitArgs_tower hcore hsolid, List.map_singleton]

/-- The levels of a tower are read inside of each other, up to the cap. -/
theorem below_tower (hcore : Closed [',', ':'] core) (hsolid : Solid core) {root : Reading json}
    {n m : Nat} (hstrict : json (normalizeQuotes none (tower (m + 1) core)) = none)
    (hbelow : Reading.Below root n 0 ⟨0, tower (m + 1) core⟩) :
    ∀ k ≤ m, k ≤ maxDepth → Reading.Below root (n + k) k ⟨k, tower (m - k + 1) core⟩ := by
  intro k hk hcap
  induction k with
  | zero => exact hbelow
  | succ k ih =>
    obtain ⟨htext, hcollection, -, -, hitems⟩ := reading_tower hcore hsolid k (m - k)
    have hnone : readAt.strict? json k (tower (m - k + 1) core) = none := by
      unfold readAt.strict?
      split
      · rename_i hzero
        subst hzero
        exact hstrict
      · rfl
    have hsplits : (⟨k, tower (m - k + 1) core⟩ : Reading json).splits = true := by
      have hlt : decide (k < maxDepth) = true := decide_eq_true hcap
      rw [Reading.splits, Reading.descends, hcollection, htext, hnone, hlt]
      rfl
    have hnext : m - k = m - (k + 1) + 1 := by omega
    refine .part (ih (by omega) (by omega)) (List.mem_append_left _ ?_)
    rw [hitems, hsplits, if_pos rfl, hnext]
    exact List.mem_singleton_self _

/-- A tower around a literal that is not bracketed has no keys at all. -/
theorem flatKeys_tower (hcore : Closed [',', ':'] core) (hsolid : Solid core)
    (hflat : isBracketed core = false) (m : Nat) : FlatKeys json (tower m core) := by
  have hkeys : ∀ {r : Reading json} {k : Nat}, r.source = tower k core →
      r.keys = [] ∧ ∀ part ∈ r.parts, ∃ k, part.source = tower k core := by
    rintro ⟨depth, source⟩ k rfl
    cases k with
    | zero =>
      have htext : (⟨depth, core⟩ : Reading json).text = core := Text.trimChars_of_solid hsolid
      have hsplits : (⟨depth, core⟩ : Reading json).splits = false := by
        simp [Reading.splits, Reading.descends, Reading.isCollection, htext, hflat]
      simp [tower, Reading.keys, Reading.parts, Reading.items, Reading.entries, hsplits]
    | succ k =>
      obtain ⟨-, -, -, hentries, hitems⟩ := reading_tower hcore hsolid depth k
      refine ⟨by rw [Reading.keys, hentries, List.map_nil], fun part hpart => ?_⟩
      rw [Reading.parts, hentries, List.filterMap_nil, List.append_nil, hitems] at hpart
      split at hpart
      · rw [List.mem_singleton.1 hpart]
        exact ⟨k, rfl⟩
      · cases hpart
  have htower : ∀ {n k} {r : Reading json}, Reading.Below ⟨0, tower m core⟩ n k r →
      ∃ k, r.source = tower k core := by
    intro n k r hbelow
    induction hbelow with
    | root => exact ⟨m, rfl⟩
    | part _ hpart ih =>
      obtain ⟨k, hk⟩ := ih
      exact (hkeys hk).2 _ hpart
    | key _ hkey ih =>
      obtain ⟨k, hk⟩ := ih
      rw [(hkeys hk).1] at hkey
      cases hkey
  intro n k r hbelow key hkey
  obtain ⟨k, hk⟩ := htower hbelow
  rw [(hkeys hk).1] at hkey
  cases hkey

/-- In a tower of 129 levels the innermost level is kept as text. -/
theorem reading_within_cap_tower :
    FlatKeys Json.readChars? (tower 129 ['a']) ∧
    Reading.Below (⟨0, tower 129 ['a']⟩ : Reading Json.readChars?) 128 128
      ⟨128, tower 1 ['a']⟩ ∧
    (⟨128, tower 1 ['a']⟩ : Reading Json.readChars?).value = .text "[a]" := by
  have hcore : Closed [',', ':'] ['a'] := .char (by decide) rfl rfl rfl .nil
  have hsolid : Solid ['a'] := ⟨⟨'a', rfl, rfl⟩, 'a', rfl, rfl⟩
  have hstrict : Json.readChars? (normalizeQuotes none (tower 129 ['a'])) = none :=
    Option.isNone_iff_eq_none.1 (by decide +kernel)
  have hbelow := below_tower hcore hsolid hstrict .root 128 (by decide) (by decide)
  obtain ⟨htext, hcollection, -⟩ := reading_tower hcore hsolid 128 0
  have hcap := reading_within_cap Json.readChars? _ 128 128 ⟨128, tower 1 ['a']⟩ hbelow hcollection
  refine ⟨flatKeys_tower hcore hsolid rfl 129, hbelow, ?_⟩
  rw [hcap.2.1 (by decide), htext]
  rfl

-- ============================================================================
-- Bracketed keys
-- ============================================================================

/-- An object with this key, written as it stands. -/
def keyed (key : List Char) : List Char :=
  '\x7b' :: (key ++ [':', ' ', '1'] ++ ['\x7d'])

theorem closed_entry {key : List Char} (hkey : Closed [',', ':'] key) :
    Closed [','] (key ++ [':', ' ', '1']) := by
  refine (hkey.mono (by simp)).append (.of_plain ?_)
  rw [List.forall_mem_cons, List.forall_mem_cons, List.forall_mem_singleton]
  decide

theorem closed_keyed {key : List Char} (hkey : Closed [',', ':'] key) :
    Closed [',', ':'] (keyed key) :=
  .brackets rfl rfl ((closed_entry hkey).mono (List.nil_subset _)) .nil

/-- A strict reader refuses a bracketed key. -/
theorem strict?_keyed {limit : Nat} (hjson : json.Conforms limit) {c : Char}
    (hc : c = '[' ∨ c = '\x7b') (rest : List Char) :
    readAt.strict? json 0 (keyed (c :: rest)) = none := by
  obtain ⟨token, htoken, hquote, hclose, hkey⟩ : ∃ token, Json.punctuation? c = some token ∧
      Source.isQuote c = false ∧ token ≠ .closeObject ∧ ∀ key, token ≠ .text key := by
    rcases hc with rfl | rfl
    · exact ⟨.openArray, rfl, rfl, by simp, by simp⟩
    · exact ⟨.openObject, rfl, rfl, by simp, by simp⟩
  change json (normalizeQuotes none (keyed (c :: rest))) = none
  rw [keyed, List.cons_append, List.cons_append, normalizeQuotes_outside rfl,
    normalizeQuotes_outside hquote]
  by_contra hsome
  obtain ⟨v, hv⟩ := Option.ne_none_iff_exists'.1 hsome
  obtain ⟨tokens, hlexical, hderives⟩ := hjson _ v hv
  obtain ⟨_, rfl, hbehind⟩ := hlexical.exists_of_punctuation rfl
  obtain ⟨_, rfl, -⟩ := hbehind.exists_of_punctuation htoken
  rcases hderives.key_of_openObject with heq | ⟨key, heq⟩
  · exact hclose heq
  · exact hkey key heq

/-- A bracketed key is read from depth zero. -/
theorem mem_keys_keyed {limit : Nat} (hjson : json.Conforms limit) {c : Char}
    (hc : c = '[' ∨ c = '\x7b') {rest : List Char} (hclosed : Closed [',', ':'] (c :: rest))
    (hsolid : Solid (c :: rest)) :
    (⟨0, c :: rest⟩ : Reading json) ∈ (⟨0, keyed (c :: rest)⟩ : Reading json).keys := by
  have htext : (⟨0, keyed (c :: rest)⟩ : Reading json).text = keyed (c :: rest) :=
    Text.trimChars_of_solid (Text.solid_brackets rfl rfl _)
  have hsplits : (⟨0, keyed (c :: rest)⟩ : Reading json).splits = true := by
    have hcollection : (⟨0, keyed (c :: rest)⟩ : Reading json).isCollection = true := by
      rw [Reading.isCollection_iff, htext]
      exact ⟨scalar?_brackets (.inr rfl) _, isBracketed_brackets (.inr ⟨rfl, rfl⟩) _⟩
    rw [Reading.splits, Reading.descends, hcollection, htext, strict?_keyed hjson hc]
    rfl
  have harray : (⟨0, keyed (c :: rest)⟩ : Reading json).isArray = false := by
    rw [Reading.isArray, htext]
    simp [keyed, isWrapped]
  have hpieces : splitArgs (inner (keyed (c :: rest))) = [c :: rest ++ [':', ' ', '1']] := by
    rw [keyed, inner_brackets]
    refine Source.splitArgs_single ?_ (closed_entry hclosed)
    obtain ⟨hfirst, -⟩ := hsolid
    exact ⟨hfirst, '1', by rw [List.getLast?_append]; rfl, rfl⟩
  have hsides : splitKeyValue (c :: rest ++ [':', ' ', '1']) = some (c :: rest, ['1']) := by
    rw [Source.splitKeyValue_entry (hclosed.mono (by simp)), Text.trimChars_of_solid hsolid]
    rfl
  rw [Reading.keys, Reading.entries, hsplits, harray, htext, hpieces]
  simp only [Bool.not_false, Bool.and_self, if_true, List.map_singleton, hsides,
    List.mem_singleton]

/-- An object whose key is an object whose key is one, and so on. -/
def keyedTimes : Nat → List Char
  | 0 => ['\x7b', '\x7d']
  | n + 1 => keyed (keyedTimes n)

theorem closed_keyedTimes (n : Nat) : Closed [',', ':'] (keyedTimes n) := by
  induction n with
  | zero => exact .brackets rfl rfl .nil .nil
  | succ n ih => exact closed_keyed ih

/-- The key of an object like this is one, too. -/
theorem mem_keys_keyedTimes {limit : Nat} (hjson : json.Conforms limit) (n : Nat) :
    (⟨0, keyedTimes n⟩ : Reading json) ∈ (⟨0, keyedTimes (n + 1)⟩ : Reading json).keys := by
  have hclosed := closed_keyedTimes n
  cases n with
  | zero => exact mem_keys_keyed hjson (.inr rfl) hclosed (Text.solid_brackets rfl rfl [])
  | succ n => exact mem_keys_keyed hjson (.inr rfl) hclosed (Text.solid_brackets rfl rfl _)

/-- Through keys the readings of collections nest as deep as the source has it: the depth is zero
at each of them, and the cap never comes into play. -/
theorem descends_below_keys {limit : Nat} (hjson : json.Conforms limit) (n : Nat) :
    Reading.Below (⟨0, keyedTimes n⟩ : Reading json) n 0 ⟨0, keyedTimes 0⟩ ∧
    (⟨0, keyedTimes 0⟩ : Reading json).descends = true := by
  have hbelow : ∀ {root : Reading json} {m : Nat}, Reading.Below root m 0 ⟨0, keyedTimes n⟩ →
      Reading.Below root (m + n) 0 ⟨0, keyedTimes 0⟩ := by
    induction n with
    | zero => exact fun h => h
    | succ n ih =>
      intro root m h
      have hnext := ih (.key h (mem_keys_keyedTimes hjson n))
      rwa [Nat.add_right_comm, Nat.add_assoc] at hnext
  have hroot : Reading.Below (⟨0, keyedTimes n⟩ : Reading json) 0 0 ⟨0, keyedTimes n⟩ := .root
  refine ⟨?_, rfl⟩
  simpa using hbelow hroot

/-- An object whose key is a tower of 128 levels. -/
def keyedTower : List Char :=
  keyed (tower 128 ['1'])

/-- Through a key, more than 128 collections are read as structure inside of each other: the
innermost level of the tower is read inside of 128 of them, and is read as an array. -/
theorem reading_past_cap :
    ∃ r : Reading Json.readChars?, Reading.Below ⟨0, keyedTower⟩ 128 127 r ∧ r.descends = true ∧
      ∃ items, r.value = .array items := by
  have hcore : Closed [',', ':'] ['1'] := .char (by decide) rfl rfl rfl .nil
  have hsolid : Solid ['1'] := ⟨⟨'1', rfl, rfl⟩, '1', rfl, rfl⟩
  have hkey : (⟨0, tower 128 ['1']⟩ : Reading Json.readChars?) ∈
      (⟨0, keyedTower⟩ : Reading Json.readChars?).keys :=
    mem_keys_keyed Json.conforms_readChars? (.inl rfl) (closed_tower hcore 128)
      (solid_tower hsolid 128)
  have hstrict : Json.readChars? (normalizeQuotes none (tower 128 ['1'])) = none :=
    Option.isNone_iff_eq_none.1 (by decide +kernel)
  have hbelow := below_tower hcore hsolid hstrict (.key .root hkey) 127 (by decide) (by decide)
  obtain ⟨htext, hcollection, harray, -⟩ := reading_tower hcore hsolid 127 0
  have hdescends : (⟨127, tower 1 ['1']⟩ : Reading Json.readChars?).descends = true := by
    rw [Reading.descends, hcollection]
    rfl
  have hsplits : (⟨127, tower 1 ['1']⟩ : Reading Json.readChars?).splits = true := by
    rw [Reading.splits, hdescends]
    rfl
  refine ⟨⟨127, tower 1 ['1']⟩, hbelow, hdescends, ?_⟩
  rw [Reading.value_eq_of_splits hsplits, harray]
  exact ⟨_, rfl⟩

end Sluice.Literal
