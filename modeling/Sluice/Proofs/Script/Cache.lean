/-
  Sluice.Proofs.Script.Cache

  What a cache of scripts gives, against compiling every script anew. A script is found by its text
  alone, and keeps the name it was first compiled under. So a cache remembers, of the calls made on
  it, the first one for each text that compiles (`Cache.Remembers`), and every answer is the one
  that an empty cache would have given to that call.

  The compiler is any function of the text.

  Main statement: every answer is that of an empty cache, and every script of a configuration is
  compiled as it is alone, if and only if no text that compiles is asked for under two names. The
  code, the text and the error of an answer are always those of an empty cache.
-/

import Sluice.Registry
import Sluice.Script.Plain

namespace Sluice

namespace Script.Cache

variable {α : Type} (compiler : String → Except String α)

/-- The answer of an empty cache. -/
def fresh (name text : String) : Except SetupError (Compiled α) :=
  (getOrCompileWith compiler [] name text).1

/-- The answers of a cache that is asked for names and texts, one after the other. -/
def answers (cache : Cache α) : List (String × String) → List (Except SetupError (Compiled α))
  | [] => []
  | (name, text) :: calls =>
    (cache.getOrCompileWith compiler name text).1 ::
      answers (cache.getOrCompileWith compiler name text).2 calls

/-- The name under which a text was first asked for, or else another name. -/
def firstName (asked : List (String × String)) (name text : String) : String :=
  ((asked.find? fun call => call.2 == text).map Prod.fst).getD name

/-- No text that compiles is asked for under two names. -/
def OneName (calls : List (String × String)) : Prop :=
  ∀ call ∈ calls, ∀ other ∈ calls, call.2 = other.2 →
    (∃ code, compiler call.2 = .ok code) → call.1 = other.1

/-- What a script is but for its name. -/
def unnamed (script : Compiled α) : String × α :=
  (script.text, script.code)

variable {compiler} {cache : Cache α} {asked calls : List (String × String)} {name text : String}

-- ============================================================================
-- Fresh answers
-- ============================================================================

theorem fresh_of_error {message : String} (h : compiler text = .error message) :
    fresh compiler name text = .error (.script ("Compilation error: " ++ message)) := by
  rw [fresh, getOrCompileWith, h]
  rfl

theorem fresh_of_ok {code : α} (h : compiler text = .ok code) :
    fresh compiler name text = .ok ⟨name, text, code⟩ := by
  rw [fresh, getOrCompileWith, h]
  rfl

/-- The name of a text is told from the answer, if there is a script to bear it. -/
theorem fresh_inj {name' : String} :
    fresh compiler name text = fresh compiler name' text ↔
      ((∃ code, compiler text = .ok code) → name = name') := by
  cases h : compiler text with
  | error e => simp [fresh_of_error h]
  | ok code => simp [fresh_of_ok h]

/-- The name is all that is told. -/
theorem fresh_unnamed (name' : String) :
    (fresh compiler name text).map unnamed = (fresh compiler name' text).map unnamed := by
  cases h : compiler text with
  | error e => rw [fresh_of_error h, fresh_of_error h]
  | ok code => simp [fresh_of_ok h, Except.map, unnamed]

-- ============================================================================
-- The first call for a text
-- ============================================================================

theorem firstName_append_self (asked : List (String × String)) (name text : String)
    (calls : List (String × String)) :
    firstName (asked ++ (name, text) :: calls) name text = firstName asked name text := by
  simp only [firstName, List.find?_append, List.find?_cons, beq_self_eq_true]
  cases asked.find? fun call => call.2 == text <;> rfl

/-- The first name of a text is then the only one it is asked for under. -/
theorem oneName_iff :
    OneName compiler calls ↔
      ∀ call ∈ calls, (∃ code, compiler call.2 = .ok code) →
        firstName calls call.1 call.2 = call.1 := by
  have hfound : ∀ call ∈ calls, ∃ first ∈ calls, first.2 = call.2 ∧
      ∀ name, firstName calls name call.2 = first.1 := by
    intro call hcall
    cases hfind : calls.find? fun other => other.2 == call.2 with
    | none => exact absurd (beq_self_eq_true call.2) (List.find?_eq_none.1 hfind call hcall)
    | some first =>
      refine ⟨first, List.mem_of_find?_eq_some hfind, by simpa using List.find?_some hfind, ?_⟩
      intro name
      rw [firstName, hfind]
      rfl
  constructor
  · intro hone call hcall hcompiles
    obtain ⟨first, hfirst, htext, hname⟩ := hfound call hcall
    rw [hname]
    exact (hone call hcall first hfirst htext.symm hcompiles).symm
  · intro hfirst call hcall other hother htext hcompiles
    obtain ⟨first, -, -, hname⟩ := hfound call hcall
    have hthis := hfirst call hcall hcompiles
    have hthat := hfirst other hother (htext ▸ hcompiles)
    rw [← htext] at hthat
    rw [← hthis, ← hthat, hname, hname]

-- ============================================================================
-- What a cache remembers
-- ============================================================================

variable (compiler) in
/-- A cache after some calls: of each text that compiles it has what the first of them got. -/
def Remembers (asked : List (String × String)) (cache : Cache α) : Prop :=
  ∀ text, (cache.find? fun script => script.text == text) =
    (asked.find? fun call => call.2 == text).bind fun call =>
      (fresh compiler call.1 text).toOption

theorem remembers_nil : Remembers compiler [] [] :=
  fun _ => rfl

/-- A call gets what the first one for its text got. -/
theorem Remembers.answer (h : Remembers compiler asked cache) (name text : String) :
    (cache.getOrCompileWith compiler name text).1 =
      fresh compiler (firstName asked name text) text := by
  have hcache := h text
  rw [getOrCompileWith, firstName]
  cases hasked : asked.find? fun call => call.2 == text with
  | none =>
    rw [hasked] at hcache
    rw [hcache]
    cases hcompile : compiler text with
    | error e => exact (fresh_of_error hcompile).symm
    | ok code => exact (fresh_of_ok hcompile).symm
  | some first =>
    rw [hasked] at hcache
    cases hcompile : compiler text with
    | error e =>
      rw [Option.bind_some, fresh_of_error hcompile] at hcache
      rw [hcache]
      exact (fresh_of_error hcompile).symm
    | ok code =>
      rw [Option.bind_some, fresh_of_ok hcompile] at hcache
      rw [hcache]
      exact (fresh_of_ok hcompile).symm

/-- A text that a cache does not have is added to it if it compiles. -/
theorem find?_getOrCompileWith (cache : Cache α) (name text : String) :
    ((cache.getOrCompileWith compiler name text).2.find? fun script => script.text == text) =
      (cache.getOrCompileWith compiler name text).1.toOption := by
  rw [getOrCompileWith]
  cases hfind : cache.find? fun script => script.text == text with
  | some script => exact hfind
  | none =>
    cases hcompile : compiler text with
    | error e => exact hfind
    | ok code => simp [List.find?_append, hfind, Except.toOption]

/-- Nothing else is added. -/
theorem find?_getOrCompileWith_of_ne (cache : Cache α) (name : String) {other : String}
    (h : other ≠ text) :
    ((cache.getOrCompileWith compiler name text).2.find? fun script => script.text == other) =
      cache.find? fun script => script.text == other := by
  rw [getOrCompileWith]
  cases hfind : cache.find? fun script => script.text == text with
  | some script => rfl
  | none =>
    cases hcompile : compiler text with
    | error e => rfl
    | ok code => simp [List.find?_append, h.symm]

/-- A call is remembered, if it is the first for its text. -/
theorem Remembers.getOrCompileWith (h : Remembers compiler asked cache) (name text : String) :
    Remembers compiler (asked ++ [(name, text)]) (cache.getOrCompileWith compiler name text).2 := by
  intro other
  by_cases hother : other = text
  · rw [hother, find?_getOrCompileWith, h.answer, firstName, List.find?_append]
    cases asked.find? fun call => call.2 == text with
    | none => simp
    | some first => simp
  · rw [find?_getOrCompileWith_of_ne cache name hother, h, List.find?_append]
    simp [Ne.symm hother]

/-- The answers to calls are what the first one for the text of each got. -/
theorem Remembers.answers (h : Remembers compiler asked cache) (calls : List (String × String)) :
    answers compiler cache calls =
      calls.map fun call =>
        fresh compiler (firstName (asked ++ calls) call.1 call.2) call.2 := by
  induction calls generalizing asked cache with
  | nil => rfl
  | cons call calls ih =>
    obtain ⟨name, text⟩ := call
    rw [Cache.answers, h.answer, ih (h.getOrCompileWith name text), List.map_cons,
      firstName_append_self, List.append_assoc, List.singleton_append]

theorem answers_nil (calls : List (String × String)) :
    answers compiler [] calls =
      calls.map fun call => fresh compiler (firstName calls call.1 call.2) call.2 :=
  remembers_nil.answers calls

/-- A cache answers as an empty one if and only if every text bears one name. -/
theorem answers_eq_fresh_iff (calls : List (String × String)) :
    answers compiler [] calls = calls.map (fun call => fresh compiler call.1 call.2) ↔
      OneName compiler calls := by
  rw [answers_nil, List.map_inj_left, oneName_iff]
  apply forall₂_congr
  intro call hcall
  exact fresh_inj

end Script.Cache

-- ============================================================================
-- Scripts of a configuration
-- ============================================================================

namespace Registry

open Script.Cache

variable {α : Type} {compiler : String → Except String α}

/-- What comes of the answer to the script of an entry: a script for its name, or a warning. -/
def settle (name : String) :
    Except SetupError (Script.Compiled α) → List (String × Script.Compiled α) × List String
  | .ok script => ([(name, script)], [])
  | .error e => ([], [scriptWarning name e])

/-- The scripts and the warnings of some entries, put together. -/
def gather (results : List (List (String × Script.Compiled α) × List String)) :
    List (String × Script.Compiled α) × List String :=
  (results.flatMap Prod.fst, results.flatMap Prod.snd)

theorem compileScriptsWith_eq (cache : Script.Cache α) (entries : List (String × String)) :
    compileScriptsWith compiler cache entries =
      gather (List.zipWith (fun entry answer => settle entry.1 answer) entries
        (answers compiler cache entries)) := by
  induction entries generalizing cache with
  | nil => rfl
  | cons entry entries ih =>
    obtain ⟨name, text⟩ := entry
    rw [compileScriptsWith, Script.Cache.answers, List.zipWith_cons_cons]
    cases hget : cache.getOrCompileWith compiler name text with
    | mk answer cache' =>
      cases answer with
      | ok script => simp [ih, settle, gather]
      | error e => simp [ih, settle, gather]

theorem compileScriptsWith_nil (entries : List (String × String)) :
    compileScriptsWith compiler [] entries =
      gather (entries.map fun entry =>
        settle entry.1 (fresh compiler (firstName entries entry.1 entry.2) entry.2)) := by
  rw [compileScriptsWith_eq, answers_nil, List.zipWith_map_right, List.zipWith_self]

theorem compileScriptsWith_alone (name text : String) :
    compileScriptsWith compiler [] [(name, text)] = settle name (fresh compiler name text) := by
  rw [compileScriptsWith_nil]
  have hname : firstName [(name, text)] name text = name := by
    simp [firstName]
  simp [gather, hname]

/-- The scripts that serve, with the names they serve. -/
theorem mem_compileScriptsWith {entries : List (String × String)} {name : String}
    {script : Script.Compiled α} :
    (name, script) ∈ (compileScriptsWith compiler [] entries).1 ↔
      ∃ text, (name, text) ∈ entries ∧
        fresh compiler (firstName entries name text) text = .ok script := by
  rw [compileScriptsWith_nil, gather, List.mem_flatMap]
  constructor
  · rintro ⟨result, hresult, hmem⟩
    obtain ⟨⟨name', text⟩, hentry, rfl⟩ := List.mem_map.1 hresult
    cases hfresh : fresh compiler (firstName entries name' text) text with
    | error e =>
      rw [hfresh] at hmem
      cases hmem
    | ok found =>
      rw [hfresh] at hmem
      obtain ⟨rfl, rfl⟩ := Prod.mk.inj (List.mem_singleton.1 hmem)
      exact ⟨text, hentry, hfresh⟩
  · rintro ⟨text, hentry, hfresh⟩
    refine ⟨_, List.mem_map_of_mem hentry, ?_⟩
    rw [hfresh]
    exact List.mem_singleton_self (name, script)

/-- Every script bears the name it serves if and only if every text bears one name. -/
theorem forall_name_eq_iff (entries : List (String × String)) :
    (∀ entry ∈ (compileScriptsWith compiler [] entries).1, entry.2.name = entry.1) ↔
      OneName compiler entries := by
  rw [oneName_iff]
  constructor
  · rintro hnames ⟨name, text⟩ hentry ⟨source, hcompile⟩
    have hfresh : fresh compiler (firstName entries name text) text = _ := fresh_of_ok hcompile
    exact hnames (name, _) (mem_compileScriptsWith.2 ⟨text, hentry, hfresh⟩)
  · rintro hfirst ⟨name, script⟩ hentry
    obtain ⟨text, htext, hfresh⟩ := mem_compileScriptsWith.1 hentry
    cases hcompile : compiler text with
    | error e =>
      rw [fresh_of_error hcompile] at hfresh
      cases hfresh
    | ok code =>
      rw [fresh_of_ok hcompile] at hfresh
      obtain rfl := Except.ok.inj hfresh
      exact hfirst (name, text) htext ⟨code, hcompile⟩

end Registry

namespace Script.Cache

open Registry

/-- A cache is transparent if and only if no text that compiles is asked for under two names. Then
every call gets what an empty cache would give, and the scripts of a configuration are those that
there are if each is configured alone; each bears the name it serves, by which it reports its
errors. The code, the text or the error that a call gets is always that of an empty cache. -/
theorem transparent_iff_oneName {α : Type} (compiler : String → Except String α)
    (calls : List (String × String)) :
    (answers compiler [] calls = calls.map (fun call => fresh compiler call.1 call.2) ↔
      OneName compiler calls) ∧
    (OneName compiler calls →
      compileScriptsWith compiler [] calls =
        gather (calls.map fun entry => compileScriptsWith compiler [] [entry])) ∧
    ((∀ entry ∈ (compileScriptsWith compiler [] calls).1, entry.2.name = entry.1) ↔
      OneName compiler calls) ∧
    (answers compiler [] calls).map (Except.map unnamed) =
      calls.map fun call => (fresh compiler call.1 call.2).map unnamed := by
  refine ⟨answers_eq_fresh_iff calls, fun hone => ?_, forall_name_eq_iff calls, ?_⟩
  · rw [compileScriptsWith_nil]
    apply congrArg gather
    apply List.map_congr_left
    rintro ⟨name, text⟩ hentry
    rw [compileScriptsWith_alone]
    apply congrArg (settle name)
    exact fresh_inj.2 (oneName_iff.1 hone (name, text) hentry)
  · rw [answers_nil, List.map_map]
    apply List.map_congr_left
    intro call hcall
    exact fresh_unnamed call.1

/-- Two scripts, of which one is asked for again. -/
theorem transparent_two_scripts :
    OneName compileText [("double", "value * 2.0"), ("triple", "value * 3.0"),
        ("double", "value * 2.0")] ∧
      answers compileText [] [("double", "value * 2.0"), ("triple", "value * 3.0"),
          ("double", "value * 2.0")] =
        [fresh compileText "double" "value * 2.0", fresh compileText "triple" "value * 3.0",
          fresh compileText "double" "value * 2.0"] ∧
      compileScriptsWith compileText [] [("double", "value * 2.0"), ("triple", "value * 3.0")] =
        gather [compileScriptsWith compileText [] [("double", "value * 2.0")],
          compileScriptsWith compileText [] [("triple", "value * 3.0")]] := by
  have hone : ∀ {calls : List (String × String)},
      (∀ call ∈ calls, ∀ other ∈ calls, call.2 = other.2 → call.1 = other.1) →
        OneName compileText calls := by
    intro calls hnames call hcall other hother htext _
    exact hnames call hcall other hother htext
  refine ⟨hone (by decide), ?_, ?_⟩
  · exact (transparent_iff_oneName compileText _).1.2 (hone (by decide))
  · exact (transparent_iff_oneName compileText _).2.1 (hone (by decide))

/-- The error with which a call of the script of an answer ends. -/
def errorOf (input : Value) (args : Arguments) (answer : Except SetupError (Compiled Source)) :
    Option String :=
  match answer with
  | .error e => some e.message
  | .ok script =>
    match (plain.execute script input args ()).1 with
    | .ok (.error e) => some e.message
    | .ok (.ok _) => none
    | .error _ => none

/-- The second of two names for one text reports its errors under the first one. -/
theorem reports_under_first_name :
    answers compileText [] [("double", "value * 2.0"), ("twice", "value * 2.0")] ≠
        [fresh compileText "double" "value * 2.0", fresh compileText "twice" "value * 2.0"] ∧
      (answers compileText [] [("double", "value * 2.0"), ("twice", "value * 2.0")]).map
          (errorOf .null []) =
        [some ("Script error: Execution error in 'double': " ++
            "Function not found: * ((), f64) (line 1, position 7)"),
          some ("Script error: Execution error in 'double': " ++
            "Function not found: * ((), f64) (line 1, position 7)")] ∧
      errorOf .null [] (fresh compileText "twice" "value * 2.0") =
        some ("Script error: Execution error in 'twice': " ++
          "Function not found: * ((), f64) (line 1, position 7)") := by
  have hshared : (answers compileText [] [("double", "value * 2.0"), ("twice", "value * 2.0")]).map
      (errorOf .null []) =
        [some ("Script error: Execution error in 'double': " ++
            "Function not found: * ((), f64) (line 1, position 7)"),
          some ("Script error: Execution error in 'double': " ++
            "Function not found: * ((), f64) (line 1, position 7)")] := by decide +kernel
  have halone : errorOf .null [] (fresh compileText "twice" "value * 2.0") =
      some ("Script error: Execution error in 'twice': " ++
        "Function not found: * ((), f64) (line 1, position 7)") := by decide +kernel
  refine ⟨fun hsame => ?_, hshared, halone⟩
  rw [hsame, List.map_cons, List.map_cons, halone] at hshared
  revert hshared
  decide +kernel

end Script.Cache

end Sluice
