/-
  Sluice.Proofs.Json.Reading

  The reader that runs take by default conforms to the grammar, up to 127 levels.

  Its tokens are read off the text from the left, so that they come in the order of the rules. Its
  machine keeps the open collections on a stack. `Demands v state tokens` says what the rest of
  the tokens has to be for the machine to end with `v` from a state: for each open collection its
  remaining elements, its bracket, and what follows. From the last token to the first the runs of
  the machine meet these demands, and what the first state demands derives the value.
-/

import Sluice.Proofs.Json.Grammar

namespace Sluice.Json

open Source (StringBody)
open Text (isDigit digitValue?)
open Number (PlainDigits sign maxWord nearest one)

-- ============================================================================
-- Numerals
-- ============================================================================

theorem isDigits_of_digitsValue? {cs : List Char} {n : Nat}
    (h : Text.digitsValue? digitValue? 10 cs = some n) : isDigits cs = true := by
  rw [Text.digitsValue?_ten] at h
  split at h
  · next hdigits =>
    rw [isDigits, hdigits.2, Bool.and_true, Bool.not_eq_true', List.isEmpty_eq_false_iff]
    exact hdigits.1
  · cases h

theorem isExponentDigits_of_exponentPart {negative : Bool} {significand : Nat} {start : Int}
    {cs : List Char} {x : Number} (h : exponentPart negative significand start cs = some x) :
    isExponentDigits cs = true := by
  unfold exponentPart at h
  unfold isExponentDigits
  split
  all_goals
    simp only at h
    split at h
    · cases h
    · next hvalue => exact isDigits_of_digitsValue? hvalue

theorem isExponent_of_exponentOrEnd {negative : Bool} {significand : Nat} {e : Int}
    {cs : List Char} {x : Number} (h : exponentOrEnd negative significand e cs = some x) :
    isExponent cs = true := by
  cases cs with
  | nil => rfl
  | cons c rest =>
    rw [exponentOrEnd] at h
    split at h
    · next hc =>
      rw [isExponent, isExponentDigits_of_exponentPart h, Bool.and_true]
      simpa using hc
    · cases h

/-- Digits that did not fit are digits still. -/
theorem dropWhile_takeDigits (significand taken : Nat) (cs : List Char) :
    (takeDigits significand taken cs).2.2.dropWhile isDigit = cs.dropWhile isDigit := by
  induction cs generalizing significand taken with
  | nil => rfl
  | cons c rest ih =>
    unfold takeDigits
    split
    · rfl
    · next d hd =>
      split
      · rfl
      · have hdigit : isDigit c = true := by
          unfold digitValue? at hd
          split at hd
          · assumption
          · cases hd
        rw [ih, List.dropWhile_cons_of_pos hdigit]

theorem isFraction_of_afterInteger {negative : Bool} {significand dropped : Nat}
    {cs : List Char} {x : Number} (h : afterInteger negative significand dropped cs = some x) :
    isFraction cs = true := by
  unfold afterInteger at h
  split at h
  · next rest =>
    simp only [fractionPart] at h
    split at h
    · cases h
    · next hdigits =>
      have hexponent := isExponent_of_exponentOrEnd h
      rw [dropWhile_takeDigits] at hexponent
      rw [isFraction, hexponent, Bool.and_true]
      simpa using hdigits
  · next hpoint =>
    rw [isFraction]
    · exact isExponent_of_exponentOrEnd h
    · exact hpoint

theorem isMagnitude_of_magnitude? {negative : Bool} {cs : List Char} {x : Number}
    (h : magnitude? negative cs = some x) : isMagnitude cs = true := by
  unfold magnitude? at h
  split at h
  · cases h
  · next rest =>
    rw [isMagnitude]
    split at h
    · rfl
    · split at h
      · cases h
      · exact isFraction_of_afterInteger h
  · next c cs hzero =>
    split at h
    · next hc =>
      have hdrop := dropWhile_takeDigits 0 0 (c :: cs)
      rw [List.dropWhile_cons_of_pos hc] at hdrop
      generalize takeDigits 0 0 (c :: cs) = taken at h hdrop
      obtain ⟨significand, count, rest⟩ := taken
      rw [isMagnitude, hc, Bool.true_and, ← hdrop]
      · simp only at h hdrop ⊢
        split at h
        · next hempty =>
          rw [List.isEmpty_iff.1 hempty]
          rfl
        · exact isFraction_of_afterInteger h
      · exact hzero
    · cases h

/-- The words that are read as numbers are those of the grammar. -/
theorem isNumeral_of_number? {word : List Char} {x : Number} (h : number? word = some x) :
    isNumeral word = true := by
  unfold number? at h
  split at h
  · exact isMagnitude_of_magnitude? h
  · next hminus =>
    rw [isNumeral]
    · exact isMagnitude_of_magnitude? h
    · exact hminus

theorem le_ofDigitChars (cs : List Char) (n : Nat) : n ≤ Nat.ofDigitChars 10 cs n := by
  rw [Nat.ofDigitChars_eq_ofDigitChars_zero]
  have hpos : 0 < 10 ^ cs.length := Nat.pow_pos (by decide)
  have hle := Nat.le_mul_of_pos_left n hpos
  omega

/-- All digits are taken when their number fits the significand. -/
theorem takeDigits_plain {cs : List Char} (hdigits : ∀ c ∈ cs, isDigit c = true) {s : Nat}
    (hsmall : Nat.ofDigitChars 10 cs s ≤ maxWord) (taken : Nat) :
    takeDigits s taken cs = (Nat.ofDigitChars 10 cs s, taken + cs.length, []) := by
  induction cs generalizing s taken with
  | nil => rfl
  | cons c cs ih =>
    have hvalue : digitValue? c = some (c.toNat - '0'.toNat) := by
      rw [digitValue?, if_pos (hdigits c List.mem_cons_self)]
      rfl
    have hstep : Nat.ofDigitChars 10 (c :: cs) s =
        Nat.ofDigitChars 10 cs (s * 10 + (c.toNat - '0'.toNat)) := by
      rw [Nat.ofDigitChars_cons, Nat.mul_comm]
    have hfits : ¬ maxWord < s * 10 + (c.toNat - '0'.toNat) :=
      Nat.not_lt.2 (Nat.le_trans (le_ofDigitChars cs _) (hstep ▸ hsmall))
    rw [takeDigits, hvalue]
    simp only [hfits, if_false]
    rw [ih (fun d hd => hdigits d (List.mem_cons_of_mem c hd)) (hstep ▸ hsmall), hstep,
      List.length_cons, Nat.add_assoc, Nat.add_comm 1]

theorem magnitude?_plain {digits : List Char} (h : PlainDigits digits) (negative : Bool)
    {x : Number} (hx : magnitude? negative digits = some x) :
    x = integer negative (Nat.ofDigitChars 10 digits 0) := by
  have hword : Nat.ofDigitChars 10 digits 0 ≤ maxWord :=
    Nat.le_trans (Nat.le_of_lt h.small) (by decide)
  unfold magnitude? at hx
  split at hx
  · cases hx
  · -- A zero stands alone.
    split at hx
    · cases hx
      rfl
    · rename_i c _
      rw [if_pos (h.digits c (by simp))] at hx
      cases hx
  · rename_i c cs _
    rw [if_pos (h.digits c List.mem_cons_self), takeDigits_plain h.digits hword] at hx
    cases hx
    rfl

/-- Integers below 10^15 are read exactly. -/
theorem denotes_of_number? {word : List Char} {x : Number} (h : number? word = some x) :
    Denotes word x := by
  rintro negative digits rfl hdigits
  cases negative with
  | true => exact magnitude?_plain hdigits true h
  | false =>
    change number? digits = some x at h
    unfold number? at h
    split at h
    · exact absurd (hdigits.digits '-' List.mem_cons_self) (by decide)
    · exact magnitude?_plain hdigits false h

-- ============================================================================
-- Words and strings
-- ============================================================================

/-- A scalar that is read is a word, and starts with a character of words. -/
theorem word_of_scalar? {c : Char} {rest : List Char} {token : Token}
    (h : scalar? (c :: rest) = some token) :
    Word (c :: rest) token ∧ isWordChar c = true := by
  simp only [scalar?] at h
  split at h
  · next hword =>
    cases h
    exact ⟨hword ▸ .null, (List.cons.inj hword).1 ▸ rfl⟩
  · split at h
    · next hword =>
      cases h
      exact ⟨hword ▸ .bool true, (List.cons.inj hword).1 ▸ rfl⟩
    · split at h
      · next hword =>
        cases h
        exact ⟨hword ▸ .bool false, (List.cons.inj hword).1 ▸ rfl⟩
      · obtain ⟨x, hx, rfl⟩ := Option.map_eq_some_iff.1 h
        have hnumeral := isNumeral_of_number? hx
        exact ⟨.number hnumeral (denotes_of_number? hx), isWordChar_of_isNumeral hnumeral⟩

theorem assemble?_unit {n : Nat} (hn : isSurrogate n = false) (parts : List StringPart) :
    assemble? (.unit n :: parts) = (assemble? parts).map (Char.ofNat n :: ·) := by
  cases parts with
  | nil => simp [assemble?, hn]
  | cons part parts => cases part <;> simp [assemble?, hn]

theorem assemble?_pair {high low : Nat} (hhigh : isSurrogate high = true)
    (parts : List StringPart) {content : List Char}
    (h : assemble? (.unit high :: .unit low :: parts) = some content) :
    high < 0xdc00 ∧ 0xdc00 ≤ low ∧ low < 0xe000 ∧ ∃ rest, assemble? parts = some rest ∧
      content = Char.ofNat (0x10000 + (high - 0xd800) * 0x400 + (low - 0xdc00)) :: rest := by
  rw [assemble?, if_pos hhigh] at h
  split at h
  · next hpair =>
    obtain ⟨rest, hrest, rfl⟩ := Option.map_eq_some_iff.1 h
    exact ⟨hpair.1, hpair.2.1, hpair.2.2, rest, hrest, rfl⟩
  · cases h

/-- The parts of a string make up its content. A unit that is a surrogate waits for the next. -/
theorem content_of_parts? {body : List Char} {parts : List StringPart}
    (hbody : StringBody '"' body) (hparts : parts? body = some parts) :
    (∀ content, assemble? parts = some content → Content body content) ∧
    ∀ {a b c d high} content, unit? a b c d = some high → isSurrogate high = true →
      assemble? (.unit high :: parts) = some content →
      Content ('\\' :: 'u' :: a :: b :: c :: d :: body) content := by
  fun_induction parts? body generalizing parts with
  | case1 =>
    cases hparts
    refine ⟨fun content h => ?_, fun content _ hhigh h => ?_⟩
    · cases h
      exact .nil
    · simp [assemble?, hhigh] at h
  | case2 a b c d rest n hn ih =>
    obtain ⟨more, hmore, rfl⟩ := Option.map_eq_some_iff.1 hparts
    have hdigits := (unit?_bounds hn).1
    have hrest : StringBody '"' rest :=
      (StringBody.of_append (fun x hx => (hdigits x hx).1)
        (hbody.of_escape : StringBody '"' ([a, b, c, d] ++ rest))).2
    obtain ⟨hcontent, hpending⟩ := ih hrest hmore
    refine ⟨fun content h => ?_, fun content hunit hhigh h => ?_⟩
    · by_cases hsurrogate : isSurrogate n = true
      · exact hpending content hn hsurrogate h
      · rw [Bool.not_eq_true] at hsurrogate
        rw [assemble?_unit hsurrogate] at h
        obtain ⟨tail, htail, rfl⟩ := Option.map_eq_some_iff.1 h
        exact .code hn hsurrogate (hcontent tail htail)
    · obtain ⟨hlt, hlow, hlow', tail, htail, rfl⟩ := assemble?_pair hhigh more h
      have hle : 0xd800 ≤ _ := of_decide_eq_true (Bool.and_eq_true_iff.1 hhigh).1
      exact .pair hunit hn hle hlt hlow hlow' (hcontent tail htail)
  | case3 => cases hparts
  | case4 e rest hcode c hshort ih =>
    obtain ⟨more, hmore, rfl⟩ := Option.map_eq_some_iff.1 hparts
    refine ⟨fun content h => ?_, fun content _ hhigh h => ?_⟩
    · obtain ⟨tail, htail, rfl⟩ := Option.map_eq_some_iff.1 h
      exact .escape hshort ((ih hbody.of_escape hmore).1 tail htail)
    · simp [assemble?, hhigh] at h
  | case5 => cases hparts
  | case6 => cases hparts
  | case7 c rest hcode hescape hplain ih =>
    obtain ⟨more, hmore, rfl⟩ := Option.map_eq_some_iff.1 hparts
    obtain ⟨hslash, hcontrol⟩ := not_or.1 hplain
    obtain ⟨hquote, hrest⟩ := hbody.of_char hslash
    refine ⟨fun content h => ?_, fun content _ hhigh h => ?_⟩
    · obtain ⟨tail, htail, rfl⟩ := Option.map_eq_some_iff.1 h
      exact .char hquote hslash (Nat.not_lt.1 hcontrol) ((ih hrest hmore).1 tail htail)
    · simp [assemble?, hhigh] at h

/-- A string ends at its first quote that is not escaped. -/
theorem stringBody_of_stringBody? {cs body after : List Char}
    (h : stringBody? cs = some (body, after)) :
    cs = body ++ '"' :: after ∧ StringBody '"' body := by
  fun_induction stringBody? cs generalizing body after with
  | case1 => cases h
  | case2 rest =>
    cases h
    exact ⟨rfl, .nil⟩
  | case3 c rest ih =>
    obtain ⟨⟨found, behind⟩, hfound, heq⟩ := Option.map_eq_some_iff.1 h
    cases heq
    obtain ⟨rfl, hbody⟩ := ih hfound
    exact ⟨rfl, .escape hbody⟩
  | case4 c rest hquote hslash ih =>
    obtain ⟨⟨found, behind⟩, hfound, heq⟩ := Option.map_eq_some_iff.1 h
    cases heq
    obtain ⟨rfl, hbody⟩ := ih hfound
    refine ⟨rfl, .char ?_ hquote hbody⟩
    rintro rfl
    -- A backslash takes what follows it along, and here something does.
    obtain ⟨d, more, hcons⟩ : ∃ d more, found ++ '"' :: after = d :: more := by
      cases found <;> exact ⟨_, _, rfl⟩
    exact hslash d more rfl hcons

-- ============================================================================
-- Tokens
-- ============================================================================

/-- The tokens that are read off a text are tokens of it. -/
theorem lexical_of_tokens? {text : List Char} {tokens : List Token}
    (h : tokens? text = some tokens) : Lexical text tokens := by
  fun_induction tokens? text generalizing tokens with
  | case1 =>
    cases h
    exact .nil
  | case2 c rest hspace ih => exact .space hspace (ih h)
  | case3 c rest hspace token htoken ih =>
    obtain ⟨more, hmore, rfl⟩ := Option.map_eq_some_iff.1 h
    exact .mark htoken (ih hmore)
  | case4 => cases h
  | case5 => cases h
  | case6 rest body after hfound hle content hcontent =>
    rename_i ih
    obtain ⟨more, hmore, rfl⟩ := Option.map_eq_some_iff.1 h
    obtain ⟨parts, hparts, hassembled⟩ := Option.bind_eq_some_iff.1 hcontent
    obtain ⟨rfl, hbody⟩ := stringBody_of_stringBody? hfound
    exact .string ((content_of_parts? hbody hparts).1 content hassembled) (ih hmore)
  | case7 => cases h
  | case8 c rest hspace hmark hquote hle token htoken ih =>
    obtain ⟨more, hmore, rfl⟩ := Option.map_eq_some_iff.1 h
    obtain ⟨hword, hstart⟩ := word_of_scalar? htoken
    have hlexical : Lexical (c :: rest.takeWhile isWordChar ++ rest.dropWhile isWordChar)
        (token :: more) := by
      refine .word hword ?_ (fun d hd => ?_) (ih hmore)
      · exact List.forall_mem_cons.2 ⟨hstart, fun d hd => List.mem_takeWhile_imp hd⟩
      · have hnot := List.head?_dropWhile_not isWordChar rest
        rw [Option.mem_def.1 hd] at hnot
        simpa using hnot
    rwa [List.cons_append, List.takeWhile_append_dropWhile] at hlexical

-- ============================================================================
-- What is left to read
-- ============================================================================

/-- How many collections may still be opened inside each other when this many are open. -/
def room (opened : Nat) : Nat :=
  depthLimit - 1 - opened

/-- What follows an element of an open collection, where `n` more levels are possible in it, and
`closes` is what its value demands of the tokens behind it. -/
def Follows (n : Nat) (closes : Value → List Token → Prop) : Frame → List Token → Prop
  | .array items, tokens => ∃ (more : List Element) (rest : List Token),
    (∀ e ∈ more, Derives n e.tokens e.value) ∧
    tokens = (more.map Element.tokens).flatMap (.comma :: ·) ++ .closeArray :: rest ∧
    closes (.array (items.reverse ++ more.map Element.value)) rest
  | .object fields _, tokens => ∃ (more : List Member) (rest : List Token),
    (∀ m ∈ more, Derives n m.tokens m.value) ∧
    tokens = (more.map Member.piece).flatMap (.comma :: ·) ++ .closeObject :: rest ∧
    closes (.object ((more.map Member.entry).foldl
      (fun record (key, value) => Record.set key value record) fields)) rest

/-- What follows a value in the innermost of the open collections, if all is to end with `v`. -/
def Closes (v : Value) : List Frame → Value → List Token → Prop
  | [], value, tokens => value = v ∧ tokens = []
  | .array items :: stack, value, tokens =>
    Follows (room (stack.length + 1)) (Closes v stack) (.array (value :: items)) tokens
  | .object fields key :: stack, value, tokens =>
    Follows (room (stack.length + 1)) (Closes v stack)
      (.object (Record.set key value fields) key) tokens

/-- A value is derived ahead, and what follows it is as demanded. -/
def ValueAhead (v : Value) (stack : List Frame) (tokens : List Token) : Prop :=
  ∃ (e : Element) (rest : List Token), tokens = e.tokens ++ rest ∧
    Derives (room stack.length) e.tokens e.value ∧ Closes v stack e.value rest

/-- The collection that was just opened closes at once. -/
def ClosesAtOnce (v : Value) (closing : Token) (empty : Value) (stack : List Frame)
    (tokens : List Token) : Prop :=
  ∃ rest, tokens = closing :: rest ∧ Closes v stack empty rest

/-- A colon stands ahead, and the value of the key behind it. -/
def ColonAhead (v : Value) (fields : List (String × Value)) (key : String) (stack : List Frame)
    (tokens : List Token) : Prop :=
  ∃ rest, tokens = .colon :: rest ∧ ValueAhead v (.object fields key :: stack) rest

/-- A key stands ahead, and its value. -/
def KeyAhead (v : Value) (fields : List (String × Value)) (stack : List Frame)
    (tokens : List Token) : Prop :=
  ∃ key rest, tokens = .text key :: rest ∧ ColonAhead v fields key stack rest

/-- What a state demands of the rest of the tokens, if all is to end with `v`. -/
def Demands (v : Value) : State → List Token → Prop
  | .value mayClose stack, tokens => ValueAhead v stack tokens ∨
    ∃ below, mayClose = true ∧ stack = .array [] :: below ∧
      ClosesAtOnce v .closeArray (.array []) below tokens
  | .key mayClose fields stack, tokens => KeyAhead v fields stack tokens ∨
    mayClose = true ∧ ClosesAtOnce v .closeObject (.object fields) stack tokens
  | .colon fields key stack, tokens => ColonAhead v fields key stack tokens
  | .next frame stack, tokens => Follows (room (stack.length + 1)) (Closes v stack) frame tokens
  | .done value, tokens => value = v ∧ tokens = []

theorem demands_place {v value : Value} {stack : List Frame} {tokens : List Token} :
    Demands v (place value stack) tokens ↔ Closes v stack value tokens := by
  match stack with
  | [] => exact Iff.rfl
  | .array _ :: _ => exact Iff.rfl
  | .object _ _ :: _ => exact Iff.rfl

theorem room_eq {opened : Nat} (h : opened + 1 < depthLimit) :
    room opened = room (opened + 1) + 1 := by
  simp only [room]
  omega

-- ============================================================================
-- One token
-- ============================================================================

variable {v : Value} {s s' : State} {rest : List Token}

/-- A value in an array, with all that follows it in the array. -/
theorem ValueAhead.elements {items : List Value} {stack : List Frame} {tokens : List Token}
    (h : ValueAhead v (.array items :: stack) tokens) :
    ∃ (e : Element) (more : List Element) (rest : List Token),
      (∀ f ∈ e :: more, Derives (room (stack.length + 1)) f.tokens f.value) ∧
      tokens = separated ((e :: more).map Element.tokens) ++ .closeArray :: rest ∧
      Closes v stack (.array (items.reverse ++ (e :: more).map Element.value)) rest := by
  obtain ⟨e, _, rfl, hderives, more, rest, hmore, rfl, hcloses⟩ := h
  refine ⟨e, more, rest, List.forall_mem_cons.2 ⟨hderives, hmore⟩, by simp [separated], ?_⟩
  simpa using hcloses

/-- A key in an object, with all that follows it in the object. -/
theorem KeyAhead.members {fields : List (String × Value)} {stack : List Frame}
    {tokens : List Token} (h : KeyAhead v fields stack tokens) :
    ∃ (m : Member) (more : List Member) (rest : List Token),
      (∀ n ∈ m :: more, Derives (room (stack.length + 1)) n.tokens n.value) ∧
      tokens = separated ((m :: more).map Member.piece) ++ .closeObject :: rest ∧
      Closes v stack (.object (((m :: more).map Member.entry).foldl
        (fun record (key, value) => Record.set key value record) fields)) rest := by
  obtain ⟨key, _, rfl, _, rfl, e, _, rfl, hderives, more, rest, hmore, rfl, hcloses⟩ := h
  refine ⟨⟨e, key⟩, more, rest, List.forall_mem_cons.2 ⟨hderives, hmore⟩, ?_, hcloses⟩
  simp [separated, Member.piece]

theorem demands_openArray {mayClose : Bool} {stack : List Frame}
    (hroom : stack.length + 1 < depthLimit)
    (h : Demands v (.value true (.array [] :: stack)) rest) :
    Demands v (.value mayClose stack) (.openArray :: rest) := by
  obtain ⟨elements, more, hderives, rfl, hcloses⟩ : ∃ (elements : List Element) (more : _),
      (∀ e ∈ elements, Derives (room (stack.length + 1)) e.tokens e.value) ∧
      rest = separated (elements.map Element.tokens) ++ .closeArray :: more ∧
      Closes v stack (.array (elements.map Element.value)) more := by
    rcases h with h | ⟨below, -, hstack, more, rfl, hcloses⟩
    · obtain ⟨e, elements, more, hderives, htokens, hcloses⟩ := h.elements
      exact ⟨e :: elements, more, hderives, htokens, hcloses⟩
    · cases hstack
      exact ⟨[], more, List.forall_mem_nil _, rfl, hcloses⟩
  let e : Element :=
    ⟨.openArray :: (separated (elements.map Element.tokens) ++ [.closeArray]),
      .array (elements.map Element.value)⟩
  refine .inl ⟨e, more, by simp [e], ?_, hcloses⟩
  rw [room_eq hroom]
  exact .array elements hderives

theorem demands_openObject {mayClose : Bool} {stack : List Frame}
    (hroom : stack.length + 1 < depthLimit) (h : Demands v (.key true [] stack) rest) :
    Demands v (.value mayClose stack) (.openObject :: rest) := by
  obtain ⟨members, more, hderives, rfl, hcloses⟩ : ∃ (members : List Member) (more : _),
      (∀ m ∈ members, Derives (room (stack.length + 1)) m.tokens m.value) ∧
      rest = separated (members.map Member.piece) ++ .closeObject :: more ∧
      Closes v stack (.object (Record.ofEntries (members.map Member.entry))) more := by
    rcases h with h | ⟨-, more, rfl, hcloses⟩
    · obtain ⟨m, members, more, hderives, htokens, hcloses⟩ := h.members
      exact ⟨m :: members, more, hderives, htokens, hcloses⟩
    · exact ⟨[], more, List.forall_mem_nil _, rfl, hcloses⟩
  let e : Element :=
    ⟨.openObject :: (separated (members.map Member.piece) ++ [.closeObject]),
      .object (Record.ofEntries (members.map Member.entry))⟩
  refine .inl ⟨e, more, by simp [e], ?_, hcloses⟩
  rw [room_eq hroom]
  exact .object members hderives

theorem demands_commaInArray {items : List Value} {stack : List Frame}
    (h : Demands v (.value false (.array items :: stack)) rest) :
    Demands v (.next (.array items) stack) (.comma :: rest) := by
  rcases h with h | ⟨_, hfalse, _⟩
  · obtain ⟨e, more, behind, hderives, rfl, hcloses⟩ := h.elements
    exact ⟨e :: more, behind, hderives, by simp [separated], hcloses⟩
  · cases hfalse

theorem demands_commaInObject {fields : List (String × Value)} {key : String}
    {stack : List Frame} (h : Demands v (.key false fields stack) rest) :
    Demands v (.next (.object fields key) stack) (.comma :: rest) := by
  rcases h with h | ⟨hfalse, _⟩
  · obtain ⟨m, more, behind, hderives, rfl, hcloses⟩ := h.members
    exact ⟨m :: more, behind, hderives, by simp [separated], hcloses⟩
  · cases hfalse

/-- One token, read backwards: what is demanded after it gives what was demanded before it. -/
theorem Demands.step {token : Token} (hstep : Json.step s token = some s')
    (h : Demands v s' rest) : Demands v s (token :: rest) := by
  have hscalar : ∀ {value mayClose stack}, (∀ n, Derives n [token] value) →
      Demands v (place value stack) rest → Demands v (.value mayClose stack) (token :: rest) :=
    fun {value} _ _ hderives h =>
      .inl ⟨⟨[token], value⟩, rest, rfl, hderives _, demands_place.1 h⟩
  -- The cases are the rules of the machine, in their order, the four scalars first.
  unfold Json.step at hstep
  split at hstep
  · cases hstep
    exact hscalar (fun _ => .null) h
  · cases hstep
    exact hscalar (fun _ => .bool _) h
  · cases hstep
    exact hscalar (fun _ => .number _) h
  · cases hstep
    exact hscalar (fun _ => .text _) h
  · split at hstep
    · next hroom =>
      cases hstep
      exact demands_openArray hroom h
    · cases hstep
  · split at hstep
    · next hroom =>
      cases hstep
      exact demands_openObject hroom h
    · cases hstep
  · cases hstep
    exact .inr ⟨_, rfl, rfl, rest, rfl, demands_place.1 h⟩
  · cases hstep
    exact .inl ⟨_, rest, rfl, h⟩
  · cases hstep
    exact .inr ⟨rfl, rest, rfl, demands_place.1 h⟩
  · cases hstep
    rcases h with h | ⟨_, hfalse, _⟩
    · exact ⟨rest, rfl, h⟩
    · cases hfalse
  · cases hstep
    exact demands_commaInArray h
  · cases hstep
    refine ⟨[], rest, List.forall_mem_nil _, rfl, ?_⟩
    simpa using demands_place.1 h
  · cases hstep
    exact demands_commaInObject h
  · cases hstep
    exact ⟨[], rest, List.forall_mem_nil _, rfl, demands_place.1 h⟩
  · cases hstep

-- ============================================================================
-- All tokens
-- ============================================================================

/-- A run of the machine that ends with a value meets the demands of the state it started from. -/
theorem demands_of_run {tokens : List Token} (hrun : tokens.foldlM step s = some (.done v)) :
    Demands v s tokens := by
  induction tokens generalizing s with
  | nil =>
    cases hrun
    exact ⟨rfl, rfl⟩
  | cons token tokens ih =>
    rw [List.foldlM_cons] at hrun
    obtain ⟨s', hstep, hrest⟩ := Option.bind_eq_some_iff.1 hrun
    exact (ih hrest).step hstep

/-- The reader conforms to the grammar, in at most 127 levels. -/
theorem conforms_readChars? : Reader.Conforms readChars? (depthLimit - 1) := by
  intro text v h
  obtain ⟨tokens, htokens, hvalue⟩ := Option.bind_eq_some_iff.1 h
  refine ⟨tokens, lexical_of_tokens? htokens, ?_⟩
  have hrun : tokens.foldlM step (.value false []) = some (.done v) := by
    unfold ofTokens? at hvalue
    split at hvalue
    · next hrun =>
      cases hvalue
      exact hrun
    · cases hvalue
  rcases demands_of_run hrun with ⟨e, rest, rfl, hderives, rfl, rfl⟩ | ⟨_, hfalse, _⟩
  · rw [List.append_nil]
    exact hderives
  · cases hfalse

end Sluice.Json
