/-
  Sluice.Proofs.Program.Draft

  Pipelines before they are written down, and how they are written. A draft is a source with the
  parts behind it: calls with or without arguments, pool writes, and lenses with steps between
  their braces.

  Each part is read back from its text alone. The texts of arguments, operands and literals are
  arbitrary as long as they can stand in a line: balanced, without a separator at top level, and
  without a comment. All else in a part is names and marks between them.

  One thing is not read as it is written: a path that starts with the field `value` starts at the
  value itself.
-/

import Sluice.Program.Statement
import Sluice.Proofs.Source.Joined

namespace Sluice

/-- The operator name of a lens. -/
def Lens.name : Lens → String
  | map => "map"
  | reduce => "reduce"
  | filter => "filter"
  | split => "split"

theorem Lens.ofName?_name (lens : Lens) : Lens.ofName? lens.name = some lens := by
  cases lens <;> rfl

theorem Lens.isIdentifier_name (lens : Lens) : Segment.isIdentifier lens.name.toList = true := by
  cases lens <;> decide

-- ============================================================================
-- Drafts and their text
-- ============================================================================

namespace Draft

/-- An operator: its name alone, or with arguments between parentheses. -/
structure Call where
  name : String
  arguments : Option (List String)

/-- A step between the braces of a lens. -/
inductive Step where
  | field (path : List String)
  | compare (path : List String) (op : Comparison) (operand : String)
  | sum
  | call (call : Call)

/-- What stands between two bars of a line. -/
inductive Part where
  | call (call : Call)
  | write (pool : String)
  | lens (lens : Lens) (steps : List Step)

/-- What a line starts with. -/
inductive Origin where
  | stream (live : Bool) (literal : String)
  | subscription (pool : String)

end Draft

/-- A pipeline that is written on one line. -/
structure Draft where
  origin : Draft.Origin
  parts : List Draft.Part

namespace Draft

open Source (Inline isPlain marks)
open Segment (isIdentifier isNameChar readChars readStep readBody)

/-- Put texts into a row, with a bar between neighbours. -/
def piped (texts : List (List Char)) : List Char :=
  Text.joinWith [' ', '|', ' '] texts

def Call.chars (call : Call) : List Char :=
  call.name.toList ++
    match call.arguments with
    | none => []
    | some arguments =>
      '(' :: (Text.joinWith [',', ' '] (arguments.map String.toList) ++ [')'])

def pathChars (path : List String) : List Char :=
  '.' :: Text.joinWith ['.'] (path.map String.toList)

def Step.chars : Step → List Char
  | field path => pathChars path
  | compare path op operand =>
    (if path.isEmpty then [] else pathChars path ++ [' ']) ++ op.symbol.toList ++
      ' ' :: operand.toList
  | sum => ['+']
  | call c => c.chars

def Part.chars : Part → List Char
  | call c => c.chars
  | write pool => Call.chars ⟨"to_pool", some [pool]⟩
  | lens l steps =>
    l.name.toList ++ ' ' :: '\x7b' :: (piped (steps.map Step.chars) ++ ['\x7d'])

/-- The line of a draft. -/
def chars (d : Draft) : List Char :=
  match d.origin with
  | .stream live literal =>
    (if live then ['~', '?', ' '] else ['~', ' ']) ++
      piped (literal.toList :: d.parts.map Part.chars)
  | .subscription pool =>
    pool.toList ++ ' ' :: '-' :: '>' :: ' ' :: piped (d.parts.map Part.chars)

def render (d : Draft) : String :=
  String.ofList d.chars

-- ============================================================================
-- What can be drafted
-- ============================================================================

/-- An operator or a pool: no line keyword and no branch keyword. -/
def IsName (name : String) : Prop :=
  isIdentifier name.toList = true ∧ name.toList ∉ Statement.reserved ∧
    branchOfKeyword? name.toList = none

/-- An argument, or the operand of a comparison. -/
def IsOperand (text : String) : Prop :=
  text.toList ≠ [] ∧ Text.trimChars text.toList = text.toList ∧ Inline [',', '|'] text.toList

/-- A segment of a field path. -/
def IsField (field : String) : Prop :=
  field.toList ≠ [] ∧ field.toList.all isNameChar = true

def Call.WellFormed (call : Call) : Prop :=
  IsName call.name ∧ ∀ arguments ∈ call.arguments,
    call.name ≠ "to_pool" ∧ ∀ argument ∈ arguments, IsOperand argument

def Step.WellFormed : Step → Prop
  | field path => ∀ f ∈ path, IsField f
  | compare path _ operand => (∀ f ∈ path, IsField f) ∧ IsOperand operand
  | sum => True
  | call c => c.WellFormed

def Part.WellFormed : Part → Prop
  | call c => c.WellFormed
  | write pool => IsName pool
  | lens _ steps => steps ≠ [] ∧ ∀ step ∈ steps, step.WellFormed

def WellFormed (d : Draft) : Prop :=
  (match d.origin with
    | .stream _ literal =>
      Text.trimChars literal.toList = literal.toList ∧ Inline ['|'] literal.toList
    | .subscription pool => IsName pool ∧ d.parts ≠ []) ∧
  ∀ part ∈ d.parts, part.WellFormed

instance (name : String) : Decidable (IsName name) :=
  inferInstanceAs (Decidable (_ ∧ _ ∧ _))

instance (text : String) : Decidable (IsOperand text) :=
  inferInstanceAs (Decidable (_ ∧ _ ∧ _))

instance (field : String) : Decidable (IsField field) :=
  inferInstanceAs (Decidable (_ ∧ _))

instance (call : Call) : Decidable call.WellFormed :=
  inferInstanceAs (Decidable (_ ∧ ∀ arguments ∈ call.arguments, _))

instance : (step : Step) → Decidable step.WellFormed
  | .field path => inferInstanceAs (Decidable (∀ f ∈ path, IsField f))
  | .compare path _ operand =>
    inferInstanceAs (Decidable ((∀ f ∈ path, IsField f) ∧ IsOperand operand))
  | .sum => inferInstanceAs (Decidable True)
  | .call call => inferInstanceAs (Decidable call.WellFormed)

instance : (part : Part) → Decidable part.WellFormed
  | .call call => inferInstanceAs (Decidable call.WellFormed)
  | .write pool => inferInstanceAs (Decidable (IsName pool))
  | .lens _ steps => inferInstanceAs (Decidable (steps ≠ [] ∧ ∀ step ∈ steps, step.WellFormed))

instance : (d : Draft) → Decidable d.WellFormed
  | ⟨.stream _ _, parts⟩ =>
    inferInstanceAs (Decidable ((_ ∧ _) ∧ ∀ part ∈ parts, part.WellFormed))
  | ⟨.subscription pool, parts⟩ =>
    inferInstanceAs (Decidable ((IsName pool ∧ parts ≠ []) ∧ ∀ part ∈ parts, part.WellFormed))

-- ============================================================================
-- What is meant
-- ============================================================================

def Call.sources (call : Call) : List Argument :=
  (call.arguments.getD []).map Argument.source

/-- The step that a text stands for, when `meant` says which value a path leads to. -/
def Step.lensStep (meant : List String → List String) : Step → LensStep
  | field path => .field (meant path)
  | compare path op operand => .compare (meant path) op (.source operand)
  | sum => .sum
  | call c => .call c.name c.sources

def Part.kind (meant : List String → List String) : Part → NodeKind
  | call _ => .operator
  | write pool => .poolWrite pool
  | lens l steps =>
    .lens l ⟨String.ofList (piped (steps.map Step.chars)), steps.map (Step.lensStep meant)⟩

def Part.name : Part → String
  | call c => c.name
  | write _ => "to_pool"
  | lens l _ => l.name

def Part.arguments : Part → List Argument
  | call c => c.sources
  | write pool => [.source pool]
  | lens .. => []

def Part.segment (meant : List String → List String) (part : Part) : Segment :=
  ⟨part.kind meant, part.name, part.arguments, String.ofList part.chars⟩

/-- The node that a line starts with. -/
def source (d : Draft) : Segment :=
  match d.origin with
  | .stream live literal =>
    ⟨if live then .liveSource literal else .finiteSource literal, if live then "~?" else "~", [],
      Text.trim d.render⟩
  | .subscription pool => ⟨.poolAccess pool, pool, [], Text.trim d.render⟩

/-- The nodes of the only pipeline of a line. -/
def placed (segments : List Segment) : List Node :=
  segments.mapIdx fun id segment =>
    { segment with
      id, line := 1, terminal := isTerminalName segment.name, pipeline := 0, scope := none }

/-- The nodes that a draft describes. -/
def nodes (meant : List String → List String) (d : Draft) : List Node :=
  placed (d.source :: d.parts.map (Part.segment meant))

/-- A path as it is read: a leading `value` is the value itself. -/
def withoutValue : List String → List String
  | "value" :: rest => rest
  | path => path

-- ============================================================================
-- Names
-- ============================================================================

/-- No blank is part of a name. -/
theorem isNameChar_of_isBlank {c : Char} (h : Text.isBlank c = true) : isNameChar c = false := by
  have hcodes : ∀ n ∈ [0x20, 0x09, 0x0a, 0x0b, 0x0c, 0x0d, 0x85, 0xa0, 0x1680, 0x2000, 0x2001,
      0x2002, 0x2003, 0x2004, 0x2005, 0x2006, 0x2007, 0x2008, 0x2009, 0x200a, 0x2028, 0x2029,
      0x202f, 0x205f, 0x3000], isNameChar (Char.ofNat n) = false := by decide +kernel
  rw [← Char.ofNat_toNat c]
  apply hcodes
  simp only [Text.isBlank, Bool.or_eq_true, Bool.and_eq_true, decide_eq_true_eq, beq_iff_eq] at h
  simp only [List.mem_cons, List.not_mem_nil, or_false]
  omega

/-- The characters that a name has none of. -/
theorem isNameChar_of_mem_marks {c : Char} (h : c ∈ marks ++ [',', '|']) :
    isNameChar c = false := by
  have hmarks : ((marks ++ [',', '|']).all fun c => !isNameChar c) = true := by decide
  rw [List.all_eq_true] at hmarks
  simpa using hmarks c h

section

variable {name : List Char}

theorem isNameChar_of_isIdentifier (h : isIdentifier name = true) :
    ∀ c ∈ name, isNameChar c = true := by
  cases name with
  | nil => cases h
  | cons c cs =>
    rw [isIdentifier, Bool.and_eq_true, List.all_eq_true] at h
    intro d hd
    rcases List.mem_cons.1 hd with rfl | hd
    · have hletter := h.1
      rw [Bool.or_eq_true] at hletter
      rw [isNameChar, Bool.or_eq_true]
      refine hletter.imp_left fun hletter => ?_
      unfold Text.isLetter at hletter
      unfold Text.isLetterOrNumber
      split at hletter
      · next hascii => rw [if_pos hascii, hletter, Bool.true_or]
      · next hascii => rw [if_neg hascii, hletter, Bool.true_or]
    · exact h.2 d hd

theorem ne_nil_of_isIdentifier (h : isIdentifier name = true) : name ≠ [] := by
  rintro rfl
  cases h

variable (hname : ∀ c ∈ name, isNameChar c = true)
include hname

theorem isBlank_of_name : ∀ c ∈ name, Text.isBlank c = false := by
  intro c hc
  rw [← Bool.not_eq_true]
  intro hblank
  have hnot := isNameChar_of_isBlank hblank
  rw [hname c hc] at hnot
  cases hnot

theorem isPlain_of_name : isPlain [',', '|'] name = true := by
  rw [Source.isPlain_iff]
  intro c hc
  rw [← not_or, ← List.mem_append]
  intro hmark
  have hnot := isNameChar_of_mem_marks hmark
  rw [hname c hc] at hnot
  cases hnot

theorem solid_of_name (hne : name ≠ []) : Text.Solid name :=
  Text.solid_of_not_blank (isBlank_of_name hname) hne

end

/-- A branch keyword is a name. -/
theorem branchOfKeyword?_eq_none {word : List Char} {c : Char} (hc : c ∈ word)
    (hname : isNameChar c = false) : branchOfKeyword? word = none := by
  have hkeyword : ∀ expects, (branchKeyword expects).toList.all isNameChar = true := by
    intro expects
    cases expects <;> decide
  have hne : ∀ expects, word ≠ (branchKeyword expects).toList := by
    rintro expects rfl
    rw [List.all_eq_true.1 (hkeyword expects) c hc] at hname
    cases hname
  rw [branchOfKeyword?, if_neg (hne true), if_neg (hne false)]

-- ============================================================================
-- The text of a part
-- ============================================================================

/-- Text that stands between two bars, and in a row of arguments as well. -/
structure Writable (cs : List Char) : Prop where
  solid : Text.Solid cs
  inline : Inline [',', '|'] cs

theorem Writable.piece {cs : List Char} (h : Writable cs) :
    Text.trimChars cs = cs ∧ Inline ['|'] cs :=
  ⟨Text.trimChars_of_solid h.solid, h.inline.mono (by simp)⟩

theorem IsOperand.writable {text : String} (h : IsOperand text) : Writable text.toList :=
  ⟨Text.solid_of_trimmed h.2.1 h.1, h.2.2⟩

section

variable {name : List Char} (hname : isIdentifier name = true)
include hname

theorem writable_name : Writable name := by
  have hchars := isNameChar_of_isIdentifier hname
  exact ⟨solid_of_name hchars (ne_nil_of_isIdentifier hname), .of_plain (isPlain_of_name hchars)⟩

/-- A name with something in brackets behind it. -/
theorem writable_brackets (front : List Char) {inner : List Char} {opening closing : Char}
    (hfront : ∀ c ∈ front, c = ' ') (hinner : Inline [] inner)
    (hcloser : Source.closerOf? opening = some closing) (hlast : closing ∉ [',', '|'])
    (hblank : Text.isBlank closing = false) :
    Writable (name ++ (front ++ opening :: (inner ++ [closing]))) := by
  obtain ⟨⟨c, hhead, hc⟩, -⟩ := (writable_name hname).solid
  constructor
  case solid =>
    have hlast : (front ++ opening :: (inner ++ [closing])).getLast? = some closing := by
      rw [← List.cons_append, ← List.append_assoc]
      exact List.getLast?_concat
    exact Text.solid_append hhead hc hlast hblank
  case inline =>
    have hblanks : isPlain [',', '|'] front = true := by
      rw [Source.isPlain_iff]
      intro c hc
      rw [hfront c hc]
      decide
    exact Inline.plain_append (isPlain_of_name (isNameChar_of_isIdentifier hname))
      (Inline.plain_append hblanks (hinner.wrap hcloser hlast))

end

theorem IsName.isOperand {name : String} (h : IsName name) : IsOperand name := by
  have hwritable := writable_name h.1
  exact ⟨hwritable.solid.ne_nil, Text.trimChars_of_solid hwritable.solid, hwritable.inline⟩

theorem Call.writable {call : Call} (hname : isIdentifier call.name.toList = true)
    (harguments : ∀ arguments ∈ call.arguments, ∀ argument ∈ arguments, IsOperand argument) :
    Writable call.chars := by
  rw [Call.chars]
  cases hcall : call.arguments with
  | none =>
    rw [List.append_nil]
    exact writable_name hname
  | some arguments =>
    have hinner : Inline ['|'] (Text.joinWith [',', ' '] (arguments.map String.toList)) := by
      refine Inline.joinWith (by decide) (by decide) fun p hp => ?_
      obtain ⟨argument, hmem, rfl⟩ := List.mem_map.1 hp
      exact (harguments arguments hcall argument hmem).writable.inline.mono (by simp)
    exact writable_brackets hname [] (by simp) (hinner.mono (by simp)) rfl (by decide)
      (by decide)

theorem Call.WellFormed.writable {call : Call} (h : call.WellFormed) : Writable call.chars :=
  Call.writable h.1.1 fun arguments hmem => (h.2 arguments hmem).2

theorem mem_pathChars {path : List String} (hpath : ∀ f ∈ path, IsField f) {c : Char}
    (hc : c ∈ pathChars path) : isNameChar c = true ∨ c = '.' := by
  rcases List.mem_cons.1 hc with hdot | hc
  · exact .inr hdot
  · rcases Text.mem_joinWith hc with hdot | ⟨field, hfield, hc⟩
    · exact .inr (List.mem_singleton.1 hdot)
    · obtain ⟨f, hf, rfl⟩ := List.mem_map.1 hfield
      exact .inl (List.all_eq_true.1 (hpath f hf).2 c hc)

/-- A path is written without blanks and separators. -/
theorem isPlain_pathChars {path : List String} (hpath : ∀ f ∈ path, IsField f) :
    isPlain [',', '|'] (pathChars path) = true ∧
      ∀ c ∈ pathChars path, Text.isBlank c = false := by
  have hclass : ∀ c ∈ pathChars path, (c ∉ marks ∧ c ∉ [',', '|']) ∧ Text.isBlank c = false := by
    intro c hc
    rcases mem_pathChars hpath hc with hname | rfl
    · have hchars : ∀ d ∈ [c], isNameChar d = true := by simpa using hname
      exact ⟨Source.isPlain_iff.1 (isPlain_of_name hchars) c (List.mem_singleton_self c),
        isBlank_of_name hchars c (List.mem_singleton_self c)⟩
    · decide
  rw [Source.isPlain_iff]
  exact ⟨fun c hc => (hclass c hc).1, fun c hc => (hclass c hc).2⟩

/-- A comparison with what stands before its symbol. -/
theorem writable_comparison {path : List String} (hpath : ∀ f ∈ path, IsField f) (op : Comparison)
    {operand : String} (hoperand : IsOperand operand) :
    Writable (Step.compare path op operand).chars := by
  have hsymbol : isPlain [',', '|'] (op.symbol.toList ++ [' ']) = true ∧
      ∃ c, (op.symbol.toList ++ [' ']).head? = some c ∧ Text.isBlank c = false := by
    cases op <;> exact ⟨by decide, _, rfl, rfl⟩
  obtain ⟨hplain, c, hhead, hc⟩ := hsymbol
  have hbare : Writable (op.symbol.toList ++ ' ' :: operand.toList) := by
    rw [List.append_cons]
    obtain ⟨-, d, hlast, hd⟩ := hoperand.writable.solid
    exact ⟨Text.solid_append hhead hc hlast hd,
      Inline.plain_append hplain hoperand.writable.inline⟩
  rw [Step.chars]
  split
  · exact hbare
  · have hspace : Inline [',', '|'] ([' '] ++ (op.symbol.toList ++ ' ' :: operand.toList)) :=
      Inline.plain_append (by decide) hbare.inline
    obtain ⟨-, d, hlast, hd⟩ := hbare.solid
    rw [List.append_assoc]
    refine ⟨Text.solid_append rfl (by decide : Text.isBlank '.' = false) hlast hd, ?_⟩
    rw [List.append_assoc]
    exact Inline.plain_append (isPlain_pathChars hpath).1 hspace

theorem Step.writable {step : Step} (h : step.WellFormed) : Writable step.chars := by
  cases step with
  | field path =>
    obtain ⟨hplain, hblank⟩ := isPlain_pathChars h
    exact ⟨Text.solid_of_not_blank hblank (List.cons_ne_nil _ _), .of_plain hplain⟩
  | compare path op operand => exact writable_comparison h.1 op h.2
  | sum => exact ⟨⟨⟨'+', rfl, rfl⟩, '+', rfl, rfl⟩, by decide⟩
  | call c => exact Call.WellFormed.writable h

/-- Texts in a row are found again. -/
theorem splitPipes_piped (front : List Char) (hfront : ∀ c ∈ front, c = ' ')
    {texts : List (List Char)} (hne : texts ≠ [])
    (h : ∀ text ∈ texts, Text.trimChars text = text ∧ Inline ['|'] text) :
    Source.splitPipes (front ++ piped texts) = texts := by
  obtain ⟨text, texts, rfl⟩ := List.exists_cons_of_ne_nil hne
  exact Source.splitTopLevel_joinWith (by decide) [' '] (by simp) h hfront

theorem inline_piped {texts : List (List Char)} (h : ∀ text ∈ texts, Inline [] text) :
    Inline [] (piped texts) :=
  Inline.joinWith (by decide) (by decide) h

theorem solid_piped {texts : List (List Char)} (hne : texts ≠ [])
    (h : ∀ text ∈ texts, Writable text) : Text.Solid (piped texts) :=
  Text.solid_joinWith _ hne fun text htext => (h text htext).solid

theorem writable_steps {steps : List Step} (h : ∀ step ∈ steps, step.WellFormed) :
    ∀ text ∈ steps.map Step.chars, Writable text := by
  intro text htext
  obtain ⟨step, hstep, rfl⟩ := List.mem_map.1 htext
  exact Step.writable (h step hstep)

theorem Part.writable {part : Part} (h : part.WellFormed) : Writable part.chars := by
  cases part with
  | call c => exact Call.WellFormed.writable h
  | write pool =>
    have hname : isIdentifier "to_pool".toList = true := by decide
    refine Call.writable hname fun arguments hmem argument hargument => ?_
    cases hmem
    rw [List.mem_singleton.1 hargument]
    exact IsName.isOperand h
  | lens l steps =>
    have hsteps := writable_steps h.2
    exact writable_brackets (Lens.isIdentifier_name l) [' '] (by simp)
      (inline_piped fun text htext => (hsteps text htext).inline.mono (by simp)) rfl (by decide)
      (by decide)

-- ============================================================================
-- Reading a call
-- ============================================================================

/-- A run of characters ends before the first one that is of another class. -/
theorem takeWhile_append_stop {p : Char → Bool} {front tail : List Char}
    (hfront : ∀ c ∈ front, p c = true) (htail : ∀ c ∈ tail.head?, p c = false) :
    (front ++ tail).takeWhile p = front ∧ (front ++ tail).dropWhile p = tail := by
  rw [List.takeWhile_append_of_pos hfront, List.dropWhile_append_of_pos hfront]
  cases tail with
  | nil => simp
  | cons c tail =>
    have hc := htail c rfl
    simp [hc]

/-- A segment that is a name with something behind it, and no branch keyword. -/
structure Opens (name tail : List Char) : Prop where
  identifier : isIdentifier name = true
  stops : ∀ c ∈ tail.head?, isNameChar c = false
  solid : Text.Solid (name ++ tail)
  keyword : branchOfKeyword? (name ++ tail) = none

/-- What a reader makes of the start of such a segment. -/
theorem Opens.start {name tail : List Char} (h : Opens name tail) :
    Text.trimChars (name ++ tail) = name ++ tail ∧ (name ++ tail).isEmpty = false ∧
      (name ++ tail).takeWhile isNameChar = name ∧ (name ++ tail).dropWhile isNameChar = tail := by
  obtain ⟨htake, hdrop⟩ := takeWhile_append_stop (isNameChar_of_isIdentifier h.identifier) h.stops
  exact ⟨Text.trimChars_of_solid h.solid, List.isEmpty_eq_false_iff.2 h.solid.ne_nil, htake, hdrop⟩

theorem isBetween_brackets (opening closing : Char) (inner : List Char) :
    Segment.isBetween opening closing (opening :: (inner ++ [closing])) = true := by
  rw [Segment.isBetween, ← List.cons_append, List.getLast?_concat]
  simp

theorem within_brackets (opening closing : Char) (inner : List Char) :
    Segment.within (opening :: (inner ++ [closing])) = inner := by
  rw [Segment.within, List.tail_cons, List.dropLast_concat]

/-- Behind a name, what is in parentheses are arguments. -/
theorem Opens.readChars_parentheses {name inner : List Char}
    (h : Opens name ('(' :: (inner ++ [')']))) :
    readChars (name ++ '(' :: (inner ++ [')'])) =
      Segment.readCall name (name ++ '(' :: (inner ++ [')'])) inner := by
  have hrest : Text.trimChars ('(' :: (inner ++ [')'])) = '(' :: (inner ++ [')']) :=
    Text.trimChars_of_solid (Text.solid_brackets rfl rfl inner)
  have hbraces : Segment.isBetween '\x7b' '\x7d' ('(' :: (inner ++ [')'])) = false := by
    simp [Segment.isBetween]
  obtain ⟨htrim, hne, htake, hdrop⟩ := h.start
  rw [readChars]
  simp only [htrim, hne, h.keyword, htake, hdrop, h.identifier, hrest, hbraces,
    isBetween_brackets, within_brackets, List.isEmpty_cons, Bool.not_true, Bool.false_eq_true,
    if_false, if_true]

/-- Behind the name of a lens, what is in braces is its body. -/
theorem Opens.readChars_braces {name inner : List Char}
    (h : Opens name (' ' :: '\x7b' :: (inner ++ ['\x7d']))) {lens : Lens} {body : LensBody}
    (hlens : Lens.ofName? (String.ofList name) = some lens) (hbody : readBody inner = .ok body) :
    readChars (name ++ ' ' :: '\x7b' :: (inner ++ ['\x7d'])) =
      .ok ⟨.lens lens body, String.ofList name, [],
        String.ofList (name ++ ' ' :: '\x7b' :: (inner ++ ['\x7d']))⟩ := by
  have hrest : Text.trimChars (' ' :: '\x7b' :: (inner ++ ['\x7d'])) =
      '\x7b' :: (inner ++ ['\x7d']) := by
    rw [Text.trimChars_cons_blank rfl,
      Text.trimChars_of_solid (Text.solid_brackets rfl rfl inner)]
  obtain ⟨htrim, hne, htake, hdrop⟩ := h.start
  rw [readChars]
  simp only [htrim, hne, h.keyword, htake, hdrop, h.identifier, hrest, hlens, hbody,
    isBetween_brackets, within_brackets, List.isEmpty_cons, Bool.not_true, Bool.false_eq_true,
    if_false, if_true]

/-- A bare name is an operator without arguments. -/
theorem readChars_bare {name : String} (h : IsName name) :
    readChars name.toList = .ok ⟨.operator, name, [], name⟩ := by
  have hopens : Opens name.toList [] :=
    ⟨h.1, by simp, by rw [List.append_nil]; exact (writable_name h.1).solid,
      by rw [List.append_nil]; exact h.2.2⟩
  obtain ⟨htrim, hne, htake, hdrop⟩ := hopens.start
  have hkeyword := hopens.keyword
  rw [List.append_nil] at htrim hne htake hdrop hkeyword
  rw [readChars]
  simp only [htrim, hne, hkeyword, htake, hdrop, h.1]
  rw [String.ofList_toList]
  rfl

/-- A name with arguments is read as a call. -/
theorem readChars_arguments {name : String} (hname : isIdentifier name.toList = true)
    {arguments : List String} (harguments : ∀ argument ∈ arguments, IsOperand argument) :
    readChars (Call.chars ⟨name, some arguments⟩) =
      Segment.readCall name.toList (Call.chars ⟨name, some arguments⟩)
        (Text.joinWith [',', ' '] (arguments.map String.toList)) := by
  have hwritable : Writable (Call.chars ⟨name, some arguments⟩) := by
    refine Call.writable hname fun as has => ?_
    cases has
    exact harguments
  refine Opens.readChars_parentheses ⟨hname, ?_, hwritable.solid, ?_⟩
  · rintro c ⟨⟩
    decide
  · exact branchOfKeyword?_eq_none (c := '(') (by simp) (by decide)

/-- A call reads as an operator with the arguments it was written with. -/
theorem readChars_call {call : Call} (h : call.WellFormed) :
    readChars call.chars =
      .ok ⟨.operator, call.name, call.sources, String.ofList call.chars⟩ := by
  obtain ⟨name, arguments⟩ := call
  obtain ⟨hname, harguments⟩ := h
  cases arguments with
  | none =>
    have hread := readChars_bare hname
    rw [Call.chars, List.append_nil, String.ofList_toList]
    exact hread
  | some arguments =>
    obtain ⟨hpool, hoperands⟩ := harguments arguments rfl
    have hsplit : Source.splitArgs (Text.joinWith [',', ' '] (arguments.map String.toList)) =
        arguments.map String.toList := by
      refine Source.splitArgs_joinWith fun p hp => ?_
      obtain ⟨argument, hmem, rfl⟩ := List.mem_map.1 hp
      have hwritable := (hoperands argument hmem).writable
      exact ⟨hwritable.solid, hwritable.inline.mono (by simp)⟩
    have hname' : name.toList ≠ "to_pool".toList := fun h => hpool (String.toList_inj.1 h)
    rw [readChars_arguments hname.1 hoperands, Segment.readCall, hsplit, if_neg hname']
    simp [Call.sources, Function.comp_def]

theorem dropWhile_of_forall {p : Char → Bool} {cs : List Char} (h : ∀ c ∈ cs, p c = false) :
    cs.dropWhile p = cs := by
  cases cs with
  | nil => rfl
  | cons c cs => simp [h c List.mem_cons_self]

/-- A name written without a dollar sign and quotes is the name of the pool. -/
theorem poolTarget_name {name : List Char} (hname : isIdentifier name = true) :
    Segment.poolTarget name = name := by
  have hchars := isNameChar_of_isIdentifier hname
  have hdollar : ∀ c ∈ name, (c == '$') = false := by
    intro c hc
    rw [beq_eq_false_iff_ne]
    rintro rfl
    exact absurd (hchars '$' hc) (by decide)
  have hquote : ∀ c ∈ name, Source.isQuote c = false :=
    fun c hc => (Source.not_mark (Source.isPlain_iff.1 (isPlain_of_name hchars) c hc).1).1
  rw [Segment.poolTarget,
    Text.trimChars_of_solid (solid_of_name hchars (ne_nil_of_isIdentifier hname)),
    dropWhile_of_forall hdollar, Text.trimWhile, Text.dropEndWhile, dropWhile_of_forall hquote,
    dropWhile_of_forall fun c hc => hquote c (List.mem_reverse.1 hc), List.reverse_reverse]

/-- A pool write reads as one. -/
theorem readChars_write {pool : String} (h : IsName pool) :
    readChars (Part.write pool).chars =
      .ok ⟨.poolWrite pool, "to_pool", [.source pool],
        String.ofList (Part.write pool).chars⟩ := by
  have hwritable := writable_name h.1
  have hsplit : Source.splitArgs (Text.joinWith [',', ' '] ([pool].map String.toList)) =
      [pool.toList] :=
    Source.splitArgs_joinWith (by simpa using ⟨hwritable.solid, hwritable.inline.mono (by simp)⟩)
  have hname : isIdentifier "to_pool".toList = true := by decide
  rw [Part.chars, readChars_arguments hname (by simpa using h.isOperand), Segment.readCall,
    hsplit, if_pos rfl]
  simp [poolTarget_name h.1, h.1]

-- ============================================================================
-- Reading a lens
-- ============================================================================

/-- The segments of a path are found again, but a leading `value` is not one of them. -/
theorem fieldPath_joinWith {path : List String} (hpath : ∀ f ∈ path, IsField f) :
    Segment.fieldPath (Text.joinWith ['.'] (path.map String.toList)) = withoutValue path := by
  have hparts : ((Text.splitAtChar '.' (Text.joinWith ['.'] (path.map String.toList))).filter
      fun part => !part.isEmpty).map String.ofList = path := by
    cases path with
    | nil => rfl
    | cons field fields =>
      have hdot : ∀ p ∈ (field :: fields).map String.toList, '.' ∉ p := by
        intro p hp hmem
        obtain ⟨f, hf, rfl⟩ := List.mem_map.1 hp
        exact absurd (List.all_eq_true.1 (hpath f hf).2 '.' hmem) (by decide)
      have hkept : ∀ p ∈ (field :: fields).map String.toList, (!p.isEmpty) = true := by
        intro p hp
        obtain ⟨f, hf, rfl⟩ := List.mem_map.1 hp
        simpa using (hpath f hf).1
      rw [List.map_cons] at hdot hkept ⊢
      rw [Text.splitAtChar_joinWith hdot, List.filter_eq_self.2 hkept]
      simp [Function.comp_def]
  rw [Segment.fieldPath, hparts]
  rfl

/-- A symbol with a blank behind it is its own comparison. -/
theorem comparisonAt?_symbol (op : Comparison) (rest : List Char) :
    Segment.comparisonAt? (op.symbol.toList ++ ' ' :: rest) = some op := by
  cases op <;> rfl

/-- No comparison starts like a name. -/
theorem comparisonAt?_name {c : Char} (hc : isNameChar c = true) (cs : List Char) :
    Segment.comparisonAt? (c :: cs) = none := by
  rw [Segment.comparisonAt?, List.find?_eq_none]
  intro op _ hsymbol
  obtain ⟨d, hd, hname⟩ : ∃ d, op.symbol.toList.head? = some d ∧ isNameChar d = false := by
    cases op <;> exact ⟨_, rfl, by decide⟩
  obtain ⟨rest, hrest⟩ := List.isPrefixOf_iff_prefix.1 hsymbol
  have hhead := congrArg List.head? hrest
  rw [List.head?_append, hd] at hhead
  cases hhead
  rw [hc] at hname
  cases hname

theorem readComparison_symbol (path : List String) (op : Comparison) {operand : String}
    (h : IsOperand operand) :
    Segment.readComparison path (op.symbol.toList ++ ' ' :: operand.toList) =
      .ok (.compare path op (.source operand)) := by
  have hdrop : (op.symbol.toList ++ ' ' :: operand.toList).drop op.symbol.length =
      ' ' :: operand.toList := by
    cases op <;> rfl
  have htrim : Text.trimChars (' ' :: operand.toList) = operand.toList := by
    rw [Text.trimChars_cons_blank rfl, Text.trimChars_of_solid h.writable.solid]
  rw [Segment.readComparison, comparisonAt?_symbol]
  simp only [hdrop, htrim, String.ofList_toList]
  rw [if_neg (by simpa using h.1)]

/-- Behind a path there is nothing, or a comparison. -/
theorem readStep_path {path : List String} (hpath : ∀ f ∈ path, IsField f) {tail : List Char}
    (htail : ∀ c ∈ tail.head?, c = ' ') (hsolid : Text.Solid (pathChars path ++ tail)) :
    readStep (pathChars path ++ tail) =
      if (Text.trimChars tail).isEmpty then .ok (.field (withoutValue path))
      else Segment.readComparison (withoutValue path) (Text.trimChars tail) := by
  let isPathChar := fun c => isNameChar c || c == '.'
  have hchars : ∀ c ∈ Text.joinWith ['.'] (path.map String.toList), isPathChar c = true := by
    intro c hc
    rcases mem_pathChars hpath (List.mem_cons_of_mem '.' hc) with hname | rfl
    · exact Bool.or_eq_true_iff.2 (.inl hname)
    · rfl
  have hstop : ∀ c ∈ tail.head?, isPathChar c = false := by
    intro c hc
    rw [htail c hc]
    decide
  obtain ⟨htake, hdrop⟩ := takeWhile_append_stop hchars hstop
  rw [readStep]
  simp only [Text.trimChars_of_solid hsolid]
  rw [pathChars, List.cons_append, if_neg (by simp), List.head?_cons, if_pos rfl, List.tail_cons]
  show (if (Text.trimChars (List.dropWhile isPathChar _)).isEmpty = true then
      Except.ok (LensStep.field (Segment.fieldPath (List.takeWhile isPathChar _)))
    else Segment.readComparison (Segment.fieldPath (List.takeWhile isPathChar _)) _) = _
  rw [htake, hdrop, fieldPath_joinWith hpath]

/-- A comparison without a path starts with its symbol. -/
theorem readStep_comparison (op : Comparison) {operand : String} (h : IsOperand operand) :
    readStep (op.symbol.toList ++ ' ' :: operand.toList) =
      .ok (.compare [] op (.source operand)) := by
  have hsolid : Text.Solid (op.symbol.toList ++ ' ' :: operand.toList) :=
    (writable_comparison (List.forall_mem_nil _) op h).solid
  have hstart : op.symbol.toList ++ ' ' :: operand.toList ≠ ['+'] ∧
      (op.symbol.toList ++ ' ' :: operand.toList).head? ≠ some '.' := by
    cases op <;> exact ⟨by simp [Comparison.symbol], by simp [Comparison.symbol]⟩
  rw [readStep]
  simp only [Text.trimChars_of_solid hsolid]
  rw [if_neg hstart.1, if_neg hstart.2, comparisonAt?_symbol,
    Option.isSome_some, if_pos rfl, readComparison_symbol [] op h]

theorem readStep_call {call : Call} (h : call.WellFormed) :
    readStep call.chars = .ok (.call call.name call.sources) := by
  have hsolid := h.writable.solid
  obtain ⟨c, rest, hchars, hc⟩ : ∃ c rest, call.chars = c :: rest ∧ isNameChar c = true := by
    obtain ⟨c, name, hname⟩ := List.exists_cons_of_ne_nil (ne_nil_of_isIdentifier h.1.1)
    refine ⟨c, _, by rw [Call.chars, hname]; rfl, isNameChar_of_isIdentifier h.1.1 c ?_⟩
    rw [hname]
    exact List.mem_cons_self
  have hsum : call.chars ≠ ['+'] := by
    intro h
    rw [hchars] at h
    cases h
    exact absurd hc (by decide)
  have hdot : call.chars.head? ≠ some '.' := by
    rw [hchars]
    rintro ⟨⟩
    exact absurd hc (by decide)
  have hcomparison : (Segment.comparisonAt? call.chars).isSome = false := by
    rw [hchars, comparisonAt?_name hc]
    rfl
  rw [readStep]
  simp only [Text.trimChars_of_solid hsolid, readChars_call h]
  rw [if_neg hsum, if_neg hdot, if_neg (by simp [hcomparison])]

/-- Each step reads back, a leading `value` of its path apart. -/
theorem readStep_chars {step : Step} (h : step.WellFormed) :
    readStep step.chars = .ok (step.lensStep withoutValue) := by
  have hsolid := (Step.writable h).solid
  cases step with
  | field path =>
    have hnone : ∀ c ∈ ([] : List Char).head?, c = ' ' := by simp
    have hread := readStep_path h hnone (by rw [List.append_nil]; exact hsolid)
    rw [List.append_nil] at hread
    exact hread
  | compare path op operand =>
    cases path with
    | nil => exact readStep_comparison op h.2
    | cons field fields =>
      have hbare : Text.Solid (op.symbol.toList ++ ' ' :: operand.toList) :=
        (writable_comparison (List.forall_mem_nil _) op h.2).solid
      have hchars : (Step.compare (field :: fields) op operand).chars =
          pathChars (field :: fields) ++ ' ' :: (op.symbol.toList ++ ' ' :: operand.toList) := by
        simp [Step.chars]
      have hrest : Text.trimChars (' ' :: (op.symbol.toList ++ ' ' :: operand.toList)) =
          op.symbol.toList ++ ' ' :: operand.toList := by
        rw [Text.trimChars_cons_blank rfl, Text.trimChars_of_solid hbare]
      rw [hchars] at hsolid ⊢
      rw [readStep_path h.1 (by simp) hsolid, hrest, if_neg (by simp),
        readComparison_symbol _ op h.2]
      rfl
  | sum =>
    rw [readStep]
    rfl
  | call c => exact readStep_call h

/-- What is between the braces reads back, step by step. -/
theorem readBody_piped {steps : List Step} (hne : steps ≠ [])
    (h : ∀ step ∈ steps, step.WellFormed) :
    readBody (piped (steps.map Step.chars)) =
      .ok ⟨String.ofList (piped (steps.map Step.chars)),
        steps.map (Step.lensStep withoutValue)⟩ := by
  have hwritable := writable_steps h
  have hne' : steps.map Step.chars ≠ [] := by simpa using hne
  have hsolid := solid_piped hne' hwritable
  have hsplit := splitPipes_piped [] (List.forall_mem_nil _) hne' fun text htext =>
    (hwritable text htext).piece
  have hread : ∀ (steps : List Step), (∀ step ∈ steps, step.WellFormed) →
      (steps.map Step.chars).mapM readStep = .ok (steps.map (Step.lensStep withoutValue)) := by
    intro steps h
    induction steps with
    | nil => rfl
    | cons step steps ih =>
      rw [List.map_cons, List.mapM_cons, readStep_chars (h step List.mem_cons_self),
        ih fun s hs => h s (List.mem_cons_of_mem step hs)]
      rfl
  have hempty : ¬ (piped (steps.map Step.chars)).isEmpty = true := by
    rw [List.isEmpty_iff]
    exact hsolid.ne_nil
  rw [List.nil_append] at hsplit
  rw [readBody]
  simp only [Text.trimChars_of_solid hsolid]
  have hattach : ∀ parts : List (List Char),
      (parts.attach.mapM fun part => readStep part.1) = parts.mapM readStep := by
    intro parts
    simp
  rw [if_neg hempty, hattach, Text.trimChars_of_solid hsolid, hsplit, hread steps h]

theorem readChars_lens (lens : Lens) {steps : List Step} (hne : steps ≠ [])
    (h : ∀ step ∈ steps, step.WellFormed) :
    readChars (Part.lens lens steps).chars = .ok ((Part.lens lens steps).segment withoutValue) := by
  have hpart : (Part.lens lens steps).WellFormed := ⟨hne, h⟩
  have hopens : Opens lens.name.toList
      (' ' :: '\x7b' :: (piped (steps.map Step.chars) ++ ['\x7d'])) := by
    refine ⟨lens.isIdentifier_name, ?_, (Part.writable hpart).solid, ?_⟩
    · rintro c ⟨⟩
      decide
    · exact branchOfKeyword?_eq_none (c := ' ') (by simp) (by decide)
  have hlens : Lens.ofName? (String.ofList lens.name.toList) = some lens := by
    rw [String.ofList_toList, Lens.ofName?_name]
  have hread := hopens.readChars_braces hlens (readBody_piped hne h)
  rw [String.ofList_toList] at hread
  exact hread

/-- Each part reads back as the segment that it describes. -/
theorem readChars_part {part : Part} (h : part.WellFormed) :
    readChars part.chars = .ok (part.segment withoutValue) := by
  cases part with
  | call c => exact readChars_call h
  | write pool => exact readChars_write h
  | lens lens steps => exact readChars_lens lens h.1 h.2

end Draft

end Sluice
