/-
  Sluice.Proofs.Registry.Resolution

  Where a name is served from, by rule. The rule looks at the configuration and at the
  implementations left out, and at nothing else: `Config.place?` says which tier serves a name, and
  which library if it is the domain tier. Of the language of scripts it asks which texts compile.
  A registry has a history. It was asked for names, loaded
  libraries, heard of outcomes and handed over its warnings, in any order. All of this adds
  libraries to those loaded and tells the breaker, so the registry still answers by the rule.
-/

import Sluice.Proofs.Host.Alike
import Sluice.Proofs.Registry.Streaks
import Sluice.Proofs.Script.Cache

namespace Sluice

variable {σ : Type}

-- ============================================================================
-- Libraries
-- ============================================================================

namespace Library

variable {library : Library σ} {name : String}

/-- A library has an operator for every name that it declares. -/
theorem exists_operator? (h : name ∈ library.names) : ∃ op, library.operator? name = some op := by
  obtain ⟨e, he, rfl⟩ := List.mem_map.1 h
  have hfound : (library.entries.find? fun entry => entry.name == e.name).isSome := by
    rw [List.find?_isSome]
    exact ⟨e, he, beq_self_eq_true e.name⟩
  obtain ⟨found, hfound⟩ := Option.isSome_iff_exists.1 hfound
  exact ⟨_, by rw [operator?, hfound]; rfl⟩

theorem operator?_eq_none (h : name ∉ library.names) : library.operator? name = none := by
  match hop : library.operator? name with
  | none => rfl
  | some op =>
    obtain ⟨e, he, hname, -⟩ := does_of_operator? hop
    exact absurd (List.mem_map.2 ⟨e, he, hname⟩) h

theorem tier_of_operator? {op : Operator σ} (h : library.operator? name = some op) :
    op.tier = library.tier := by
  obtain ⟨e, -, rfl⟩ := Option.map_eq_some_iff.1 h
  rfl

end Library

namespace Domain

/-- The libraries have the same names, whatever the host and the build. -/
theorem names_libraries (overflow : Overflow) :
    (librariesWith overflow : List (Library σ)).map (fun l => (l.name, l.names)) =
      (librariesWith .checked : List (Library Unit)).map fun l => (l.name, l.names) := rfl

theorem library?_names (overflow : Overflow) (library : String) :
    (library? overflow library : Option (Library σ)).map (fun l => (l.name, l.names)) =
      (library? .checked library : Option (Library Unit)).map fun l => (l.name, l.names) := by
  have hfind : ∀ (τ : Type) (overflow : Overflow),
      (library? overflow library : Option (Library τ)).map (fun l => (l.name, l.names)) =
        ((librariesWith overflow : List (Library τ)).map fun l => (l.name, l.names)).find?
          fun entry => entry.1 == library := by
    intro τ overflow
    rw [List.find?_map]
    rfl
  rw [hfind σ, hfind Unit, names_libraries]

theorem tier_libraries (overflow : Overflow) :
    ∀ l ∈ (librariesWith overflow : List (Library σ)), l.tier = .domain := by
  simp [librariesWith, Math.libraryWith, Analytics.library, Health.library, Iot.library,
    Network.library, Security.library]

/-- A domain library has an operator of the domain tier for every name that it declares. -/
theorem exists_operator? (overflow : Overflow) {library name : String}
    (h : name ∈ declared library) :
    ∃ op : Operator σ, (library? overflow library).bind (·.operator? name) = some op ∧
      op.tier = .domain := by
  have hnames := library?_names (σ := σ) overflow library
  unfold declared at h
  match hunit : library? (σ := Unit) .checked library with
  | none =>
    rw [hunit] at h
    cases h
  | some u =>
    rw [hunit] at h hnames
    obtain ⟨l, hl, heq⟩ := Option.map_eq_some_iff.1 hnames
    have hdeclared : name ∈ l.names := by
      rw [(Prod.mk.inj heq).2]
      exact h
    obtain ⟨op, hop⟩ := Library.exists_operator? hdeclared
    refine ⟨op, by rw [hl, Option.bind_some, hop], ?_⟩
    rw [Library.tier_of_operator? hop, tier_libraries overflow l (List.mem_of_find?_eq_some hl)]

/-- What is no domain library declares nothing. -/
theorem isKnown_of_declared {library name : String} (h : name ∈ declared library) :
    isKnown library = true := by
  unfold declared at h
  unfold isKnown
  match hlibrary : library? (σ := Unit) .checked library with
  | none =>
    rw [hlibrary] at h
    cases h
  | some _ => rfl

end Domain

-- ============================================================================
-- Scripts
-- ============================================================================

/-- Whether a text compiles in a language. -/
def Script.Language.compiles (language : Script.Language σ) (text : String) : Bool :=
  (language.compile text).isOk

namespace Registry

/-- The names that are served by scripts are those whose texts compile. -/
theorem mem_names_scripts (language : Script.Language σ) (config : Config) (name : String) :
    name ∈ (scriptLibrary (scriptOperations language config)).names ↔
      ∃ text, (name, text) ∈ config.scripts ∧ language.compiles text = true := by
  have hnames : (scriptLibrary (scriptOperations language config)).names =
      (compileScriptsWith language.compile [] config.scripts).1.map (·.1) := by
    simp [Library.names, scriptLibrary, scriptOperations]
  have hserves : ∀ text, (∃ script, Script.Cache.fresh language.compile
      (Script.Cache.firstName config.scripts name text) text = .ok script) ↔
        language.compiles text = true := by
    intro text
    unfold Script.Language.compiles
    cases hcompile : language.compile text with
    | error message =>
      simp [Script.Cache.fresh_of_error hcompile, Except.isOk, Except.toBool]
    | ok code => simp [Script.Cache.fresh_of_ok hcompile, Except.isOk, Except.toBool]
  rw [hnames, List.mem_map]
  constructor
  · rintro ⟨⟨name, script⟩, hmem, rfl⟩
    obtain ⟨text, htext, hfresh⟩ := mem_compileScriptsWith.1 hmem
    exact ⟨text, htext, (hserves text).1 ⟨script, hfresh⟩⟩
  · rintro ⟨text, htext, hcompiles⟩
    obtain ⟨script, hfresh⟩ := (hserves text).2 hcompiles
    exact ⟨(name, script), mem_compileScriptsWith.2 ⟨text, htext, hfresh⟩, rfl⟩

end Registry

-- ============================================================================
-- The rule
-- ============================================================================

/-- Where an implementation of a name is taken from. -/
inductive Place where
  | core
  | domain (library : String)
  | script
  | fallback
deriving Repr, DecidableEq

/-- The tier of a place. -/
def Place.tier : Place → Tier
  | core => .core
  | domain _ => .domain
  | script => .script
  | fallback => .fallback

namespace Config

/-- The enabled domain libraries that declare a name, in order. -/
def declaring (config : Config) (name : String) : List String :=
  config.domains.enabled.filter fun library => (Domain.declared library).contains name

/-- Whether a tier has an implementation of a name, where some texts compile. -/
def provides (config : Config) (compiles : String → Bool) (name : String) : Tier → Bool
  | .core => (Core.library : Library Unit).names.contains name
  | .domain => config.domains.enabled.any fun library => (Domain.declared library).contains name
  | .script => config.scripts.any fun script => script.1 == name && compiles script.2
  | .fallback => (Fallback.library : Library Unit).names.contains name

/-- Where a name is served from for a call. The core serves its names, unless selection is on and
the first enabled library that is preferred may serve instead. Of the other tiers the first serves
that provides the name and is not left out. -/
def place? (config : Config) (compiles : String → Bool) (tripped : Implementation → Bool)
    (name : String) (profile : CallProfile) : Option Place :=
  let isOpen := fun tier => !tripped ⟨name, tier⟩
  if config.provides compiles name .core then
    match (config.declaring name).find? fun library => config.selection.prefers library profile with
    | some library =>
      if config.selection.enabled && isOpen .domain then some (.domain library) else some .core
    | none => some .core
  else if isOpen .domain && config.provides compiles name .domain then
    (config.declaring name).head?.map .domain
  else if isOpen .script && config.provides compiles name .script then some .script
  else if isOpen .fallback && config.provides compiles name .fallback then some .fallback
  else none

/-- The implementation of a name at a place. -/
def operatorAt? (config : Config) (overflow : Overflow) (language : Script.Language σ)
    (name : String) : Place → Option (Operator σ)
  | .core => Core.library.operator? name
  | .domain library => (Domain.library? overflow library).bind (·.operator? name)
  | .script => (Registry.scriptLibrary (Registry.scriptOperations language config)).operator? name
  | .fallback => Fallback.library.operator? name

/-- The implementation of a name by the rule. -/
def implementation (config : Config) (overflow : Overflow) (language : Script.Language σ)
    (tripped : Implementation → Bool) (name : String) (profile : CallProfile) :
    Except ResolveError (Operator σ) :=
  match (config.place? language.compiles tripped name profile).bind
      (config.operatorAt? overflow language name) with
  | some op => .ok op
  | none => .error (.notFound name)

variable {overflow : Overflow} {language : Script.Language σ} {compiles : String → Bool}
  {config : Config} {tripped : Implementation → Bool} {name : String}
  {profile : CallProfile} {place : Place}

theorem declared_of_mem_declaring {library : String} (h : library ∈ config.declaring name) :
    name ∈ Domain.declared library := by
  simpa using (List.mem_filter.1 h).2

/-- A library that declares a name is there if the domain tier provides it. -/
theorem exists_declaring (h : config.provides compiles name .domain = true) :
    ∃ library, (config.declaring name).head? = some library ∧ name ∈ Domain.declared library := by
  obtain ⟨library, hmem, hdeclared⟩ := List.any_eq_true.1 h
  match hlist : config.declaring name with
  | [] => exact absurd (List.mem_filter.2 ⟨hmem, hdeclared⟩) (hlist ▸ List.not_mem_nil)
  | first :: rest =>
    exact ⟨first, rfl, declared_of_mem_declaring (hlist ▸ List.mem_cons_self)⟩

theorem declaring_eq_nil (h : config.provides compiles name .domain = false) :
    config.declaring name = [] := by
  refine List.filter_eq_nil_iff.2 fun library hmem hdeclared => ?_
  rw [provides, List.any_eq_false] at h
  exact h library hmem hdeclared

/-- The script tier provides the names that its library has. -/
theorem provides_script_iff :
    config.provides language.compiles name .script = true ↔
      name ∈ (Registry.scriptLibrary (Registry.scriptOperations language config)).names := by
  rw [Registry.mem_names_scripts, provides, List.any_eq_true]
  constructor
  · rintro ⟨⟨key, text⟩, hmem, hscript⟩
    obtain ⟨hname, hcompiles⟩ := Bool.and_eq_true_iff.1 hscript
    obtain rfl : key = name := eq_of_beq hname
    exact ⟨text, hmem, hcompiles⟩
  · rintro ⟨text, hmem, hcompiles⟩
    exact ⟨(name, text), hmem, Bool.and_eq_true_iff.2 ⟨beq_self_eq_true name, hcompiles⟩⟩

/-- There is an implementation at every place that the rule names, and it is not left out. -/
theorem operatorAt?_place? (overflow : Overflow) (hcore : tripped ⟨name, .core⟩ = false)
    (h : config.place? language.compiles tripped name profile = some place) :
    ∃ op, config.operatorAt? overflow language name place = some op ∧ op.tier = place.tier ∧
      tripped ⟨name, place.tier⟩ = false := by
  have hopen : ∀ tier, (!tripped ⟨name, tier⟩) = true → tripped ⟨name, tier⟩ = false :=
    fun tier h => by simpa using h
  have hdomain : ∀ library, name ∈ Domain.declared library → tripped ⟨name, .domain⟩ = false →
      ∃ op, config.operatorAt? overflow language name (.domain library) = some op ∧
        op.tier = .domain ∧ tripped ⟨name, .domain⟩ = false := by
    intro library hdeclared hopen
    obtain ⟨op, hop, htier⟩ := Domain.exists_operator? (σ := σ) overflow hdeclared
    exact ⟨op, hop, htier, hopen⟩
  have hserved : config.provides language.compiles name .core = true → ∃ op : Operator σ,
      config.operatorAt? overflow language name .core = some op ∧ op.tier = .core ∧
        tripped ⟨name, .core⟩ = false := by
    intro hprovides
    obtain ⟨op, hop⟩ : ∃ op : Operator σ, Core.library.operator? name = some op :=
      Library.exists_operator? (List.contains_iff_mem.1 hprovides)
    exact ⟨op, hop, Library.tier_of_operator? hop, hcore⟩
  unfold place? at h
  simp only at h
  split at h
  · next hprovides =>
    split at h
    · next library hfind =>
      split at h
      · next hselects =>
        cases h
        refine hdomain library (declared_of_mem_declaring (List.mem_of_find?_eq_some hfind)) ?_
        exact hopen .domain (Bool.and_eq_true_iff.1 hselects).2
      · cases h
        exact hserved hprovides
    · cases h
      exact hserved hprovides
  · split at h
    · next hserves =>
      obtain ⟨library, hlibrary, rfl⟩ := Option.map_eq_some_iff.1 h
      refine hdomain library (declared_of_mem_declaring (List.mem_of_head? hlibrary)) ?_
      exact hopen .domain (Bool.and_eq_true_iff.1 hserves).1
    · split at h
      · next hserves =>
        cases h
        obtain ⟨hin, hprovides⟩ := Bool.and_eq_true_iff.1 hserves
        obtain ⟨op, hop⟩ := Library.exists_operator? (provides_script_iff.1 hprovides)
        exact ⟨op, hop, Library.tier_of_operator? hop, hopen .script hin⟩
      · split at h
        · next hserves =>
          cases h
          obtain ⟨hin, hprovides⟩ := Bool.and_eq_true_iff.1 hserves
          obtain ⟨op, hop⟩ : ∃ op : Operator σ, Fallback.library.operator? name = some op :=
            Library.exists_operator? (List.contains_iff_mem.1 hprovides)
          exact ⟨op, hop, Library.tier_of_operator? hop, hopen .fallback hin⟩
        · cases h

/-- The rule names no place if every tier that provides the name is left out. -/
theorem place?_eq_none_iff (hcore : tripped ⟨name, .core⟩ = false) (profile : CallProfile) :
    config.place? compiles tripped name profile = none ↔
      ∀ tier, config.provides compiles name tier = true → tripped ⟨name, tier⟩ = true := by
  constructor
  · intro hnone tier hprovides
    unfold place? at hnone
    simp only at hnone
    split at hnone
    · split at hnone
      · split at hnone <;> cases hnone
      · cases hnone
    · next hserves =>
      split at hnone
      · next hdomain =>
        obtain ⟨library, hlibrary, -⟩ := exists_declaring (Bool.and_eq_true_iff.1 hdomain).2
        rw [hlibrary] at hnone
        cases hnone
      · next hdomain =>
        split at hnone
        · cases hnone
        · next hscript =>
          split at hnone
          · cases hnone
          · next hfallback =>
            -- No tier serves the name, so the one that provides it is left out.
            cases tier with
            | core => exact absurd hprovides hserves
            | domain => simpa [hprovides] using hdomain
            | script => simpa [hprovides] using hscript
            | fallback => simpa [hprovides] using hfallback
  · intro hall
    have hclosed :
        ∀ tier, ¬(!tripped ⟨name, tier⟩ && config.provides compiles name tier) = true := by
      intro tier hserves
      obtain ⟨hin, hprovides⟩ := Bool.and_eq_true_iff.1 hserves
      rw [hall tier hprovides] at hin
      cases hin
    have hcore' : ¬config.provides compiles name .core = true := by
      intro hprovides
      rw [hall .core hprovides] at hcore
      cases hcore
    unfold place?
    rw [if_neg hcore', if_neg (hclosed .domain), if_neg (hclosed .script),
      if_neg (hclosed .fallback)]

end Config

-- ============================================================================
-- Requests
-- ============================================================================

namespace Registry

/-- What can be asked of a registry. -/
inductive Request where
  | resolve (name : String) (profile : CallProfile)
  | preload (library : String)
  | record (name : String) (tier : Tier) (success : Bool)
  | drainWarnings
deriving Repr, DecidableEq

namespace Request

/-- The registry after a request, with the domain libraries of a build and some scripts. -/
def serve (overflow : Overflow) (scripts : Library σ) (r : Registry) : Request → Registry
  | resolve name profile => (r.resolve overflow scripts name profile).2
  | preload library => (r.preload library).2
  | record name tier success => r.record name tier success
  | drainWarnings => r.drainWarnings.2

/-- What the breaker is told by a request. -/
def told : Request → Told
  | record name tier success => [(⟨name, tier⟩, success)]
  | resolve .. | preload _ | drainWarnings => []

end Request

/-- The registry of a configuration after requests, in order. -/
def after (overflow : Overflow) (language : Script.Language σ) (config : Config)
    (requests : List Request) : Registry :=
  requests.foldl (Request.serve overflow (scriptLibrary (scriptOperations language config)))
    (ofConfig language.compile config)

/-- A registry that has come about from a configuration: what it resolves by is as at the start,
the breaker knows what it was told, and the libraries that are loaded are enabled, each loaded
and counted once. -/
structure Reached (r : Registry) (config : Config) (told : Told) : Prop where
  order : r.order = config.domains.enabled.filter Domain.isKnown
  selection : r.selection = config.selection
  breaker : r.breaker = .after config.breaker told
  loaded : ∀ library ∈ r.loaded, library ∈ r.order
  nodup : r.loaded.Nodup
  loads : r.loads = r.loaded.length

variable {r : Registry} {overflow : Overflow} {language : Script.Language σ} {scripts : Library σ}
  {config : Config} {told : Told}

theorem reached_ofConfig {α : Type} (compiler : String → Except String α) (config : Config) :
    (ofConfig compiler config).Reached config [] where
  order := rfl
  selection := rfl
  breaker := rfl
  loaded _ h := by cases h
  nodup := List.nodup_nil
  loads := rfl

theorem Reached.load (h : r.Reached config told) {library : String} (hmem : library ∈ r.order) :
    (r.load library).Reached config told := by
  unfold Registry.load
  split
  · exact h
  · next hloaded =>
    have hnew : library ∉ r.loaded := fun hold => hloaded (List.contains_iff_mem.2 hold)
    refine ⟨h.order, h.selection, h.breaker, fun l hl => ?_, ?_, ?_⟩
    · rcases List.mem_append.1 hl with hold | hadded
      · exact h.loaded l hold
      · obtain rfl := List.mem_singleton.1 hadded
        exact hmem
    · refine List.nodup_append.2 ⟨h.nodup, List.nodup_singleton library, ?_⟩
      rintro l hl _ hadded rfl
      obtain rfl := List.mem_singleton.1 hadded
      exact hnew hl
    · rw [List.length_append, List.length_singleton, h.loads]

/-- Resolving a name does nothing but load an enabled library, if anything. -/
theorem resolve_loads (overflow : Overflow) (scripts : Library σ) (r : Registry) (name : String)
    (profile : CallProfile) :
    let r' := (r.resolve overflow scripts name profile).2
    r' = r ∨ ∃ library ∈ r.order, r' = r.load library := by
  have hserve : ∀ {library : String} {op : Operator σ} {r' : Registry},
      library ∈ r.providers name → r.serve? overflow name library = some (op, r') →
      ∃ library ∈ r.order, r' = r.load library := by
    intro library op r' hprovides hserved
    obtain ⟨found, -, heq⟩ := Option.map_eq_some_iff.1 hserved
    cases heq
    exact ⟨library, (List.mem_filter.1 hprovides).1, rfl⟩
  unfold resolve
  split
  · split
    · next hserved =>
      obtain ⟨library, hpreferred, hs⟩ := Option.bind_eq_some_iff.1 hserved
      refine .inr (hserve ?_ hs)
      unfold preferred? at hpreferred
      split at hpreferred
      · exact List.mem_of_find?_eq_some hpreferred
      · cases hpreferred
    · exact .inl rfl
  · split
    · next hserved =>
      obtain ⟨library, hprovider, hs⟩ := Option.bind_eq_some_iff.1 hserved
      refine .inr (hserve ?_ hs)
      unfold provider? at hprovider
      split at hprovider
      · exact List.mem_of_head? hprovider
      · cases hprovider
    · split
      · exact .inl rfl
      · exact .inl rfl

theorem Reached.serve (h : r.Reached config told) (overflow : Overflow) (scripts : Library σ)
    (request : Request) :
    (request.serve overflow scripts r).Reached config (told ++ request.told) := by
  cases request with
  | resolve name profile =>
    rw [Request.told, List.append_nil]
    rcases resolve_loads overflow scripts r name profile with heq | ⟨library, hmem, heq⟩
    · rw [Request.serve, heq]
      exact h
    · rw [Request.serve, heq]
      exact h.load hmem
  | preload library =>
    rw [Request.told, List.append_nil, Request.serve, preload]
    split
    · next hmem => exact h.load (List.contains_iff_mem.1 hmem)
    · exact h
  | record name tier success =>
    refine ⟨h.order, h.selection, ?_, h.loaded, h.nodup, h.loads⟩
    rw [Request.told, Breaker.after_concat, ← h.breaker]
    rfl
  | drainWarnings =>
    rw [Request.told, List.append_nil]
    exact ⟨h.order, h.selection, h.breaker, h.loaded, h.nodup, h.loads⟩

theorem reached_after (overflow : Overflow) (language : Script.Language σ) (config : Config)
    (requests : List Request) :
    (after overflow language config requests).Reached config
      (requests.flatMap Request.told) := by
  induction requests using List.reverseRecOn with
  | nil => exact reached_ofConfig language.compile config
  | append_singleton before request ih =>
    have hstep := ih.serve overflow (scriptLibrary (scriptOperations language config)) request
    rw [after, List.foldl_append, List.flatMap_append, List.flatMap_singleton]
    exact hstep

namespace Reached

/-- The core is never left out. -/
theorem isTripped_core (h : r.Reached config told) (name : String) :
    r.breaker.isTripped ⟨name, .core⟩ = false := by
  rw [h.breaker, Breaker.isTripped, ← Bool.not_eq_true, List.contains_iff_mem,
    (Breaker.holds_after config.breaker told).mem_tripped]
  exact fun hout => hout.1.2 rfl

/-- What is no domain library declares nothing, so it does not matter that it is not known. -/
theorem providers_eq (h : r.Reached config told) (name : String) :
    r.providers name = config.declaring name := by
  rw [providers, h.order, List.filter_filter]
  refine List.filter_congr fun library _ => ?_
  by_cases hdeclared : (Domain.declared library).contains name = true
  · rw [hdeclared, Domain.isKnown_of_declared (List.contains_iff_mem.1 hdeclared), Bool.and_true]
  · rw [Bool.not_eq_true] at hdeclared
    rw [hdeclared, Bool.false_and]

variable {name : String}

/-- The domain tier serves a name outside the core if it provides the name and is not left out. -/
theorem provider?_eq (h : r.Reached config told) (language : Script.Language σ) :
    r.provider? name =
      if !r.breaker.isTripped ⟨name, .domain⟩ && config.provides language.compiles name .domain then
        (config.declaring name).head?
      else none := by
  unfold provider? isOpen
  rw [h.providers_eq]
  cases hprovides : config.provides language.compiles name .domain with
  | true => rw [Bool.and_true]
  | false =>
    rw [Config.declaring_eq_nil hprovides, Bool.and_false]
    exact ite_self _

theorem script?_eq (r : Registry) (overflow : Overflow) (language : Script.Language σ)
    (config : Config) (name : String) :
    r.script? (scriptLibrary (scriptOperations language config)) name =
      if !r.breaker.isTripped ⟨name, .script⟩ && config.provides language.compiles name .script then
        config.operatorAt? overflow language name .script
      else none := by
  unfold script? isOpen Config.operatorAt?
  cases hprovides : config.provides language.compiles name .script with
  | true => rw [Bool.and_true]
  | false =>
    have hmissing : name ∉ (scriptLibrary (scriptOperations language config)).names :=
      fun hmem => Bool.false_ne_true (hprovides.symm.trans (Config.provides_script_iff.2 hmem))
    rw [Library.operator?_eq_none hmissing, Bool.and_false]
    exact ite_self _

theorem fallback?_eq (r : Registry) (overflow : Overflow) (language : Script.Language σ)
    (config : Config) (name : String) :
    r.fallback? name =
      if !r.breaker.isTripped ⟨name, .fallback⟩ &&
          config.provides language.compiles name .fallback then
        config.operatorAt? overflow language name .fallback
      else none := by
  unfold fallback? isOpen Config.operatorAt?
  cases hprovides : config.provides language.compiles name .fallback with
  | true => rw [Bool.and_true]
  | false =>
    have hmissing : name ∉ (Fallback.library : Library σ).names := by
      intro hmem
      exact Bool.false_ne_true (hprovides.symm.trans (List.contains_iff_mem.2 hmem))
    rw [Library.operator?_eq_none hmissing, Bool.and_false]
    exact ite_self _

/-- The domain library that is preferred serves a name of the core, if one is. -/
theorem preferred?_eq (h : r.Reached config told) (profile : CallProfile) :
    r.preferred? name profile =
      if config.selection.enabled && !r.breaker.isTripped ⟨name, .domain⟩ then
        (config.declaring name).find? fun library => config.selection.prefers library profile
      else none := by
  unfold preferred? isOpen
  rw [h.providers_eq, h.selection]

/-- A name of the core is served by the domain library that is preferred, or else by the core. -/
theorem resolve_eq_of_core (h : r.Reached config told) (overflow : Overflow)
    (language : Script.Language σ) (name : String) (profile : CallProfile)
    (hcore : config.provides language.compiles name .core = true) :
    (r.resolve overflow (scriptLibrary (scriptOperations language config)) name profile).1 =
      config.implementation overflow language r.breaker.isTripped name profile := by
  rw [resolve_fst]
  unfold Config.implementation Config.place?
  simp only
  obtain ⟨core, hfound⟩ : ∃ op : Operator σ, Core.library.operator? name = some op :=
    Library.exists_operator? (List.contains_iff_mem.1 hcore)
  have hserved : config.operatorAt? overflow language name .core = some core := hfound
  rw [hfound, if_pos hcore, h.preferred?_eq]
  cases hfind : (config.declaring name).find? fun library =>
    config.selection.prefers library profile with
  | none =>
    rw [ite_self]
    simp [hserved]
  | some library =>
    by_cases hselects : (config.selection.enabled && !r.breaker.isTripped ⟨name, .domain⟩) = true
    · obtain ⟨op, hop, -⟩ := Domain.exists_operator? (σ := σ) overflow
        (Config.declared_of_mem_declaring (List.mem_of_find?_eq_some hfind))
      rw [if_pos hselects]
      simp [hselects, Config.operatorAt?, hop]
    · rw [if_neg hselects]
      simp [hselects, hserved]

/-- Any other name is served by the first of the tiers behind the core that has it and is open. -/
theorem resolve_eq_of_not_core (h : r.Reached config told) (overflow : Overflow)
    (language : Script.Language σ) (name : String) (profile : CallProfile)
    (hcore : ¬config.provides language.compiles name .core = true) :
    (r.resolve overflow (scriptLibrary (scriptOperations language config)) name profile).1 =
      config.implementation overflow language r.breaker.isTripped name profile := by
  rw [resolve_fst]
  unfold Config.implementation Config.place?
  simp only
  have hmissing : name ∉ (Core.library : Library σ).names :=
    fun hmem => hcore (List.contains_iff_mem.2 hmem)
  rw [Library.operator?_eq_none hmissing, if_neg hcore,
    h.provider?_eq language, script?_eq r overflow,
    fallback?_eq r overflow language config]
  by_cases hdomain : (!r.breaker.isTripped ⟨name, .domain⟩ &&
      config.provides language.compiles name .domain) = true
  · obtain ⟨library, hlibrary, hdeclared⟩ :=
      Config.exists_declaring (Bool.and_eq_true_iff.1 hdomain).2
    obtain ⟨op, hop, -⟩ := Domain.exists_operator? (σ := σ) overflow hdeclared
    rw [if_pos hdomain, if_pos hdomain, hlibrary]
    simp [Config.operatorAt?, hop]
  · rw [if_neg hdomain, if_neg hdomain]
    by_cases hscript : (!r.breaker.isTripped ⟨name, .script⟩ &&
        config.provides language.compiles name .script) = true
    · obtain ⟨op, hop⟩ := Library.exists_operator?
        (Config.provides_script_iff.1 (Bool.and_eq_true_iff.1 hscript).2)
      rw [if_pos hscript, if_pos hscript]
      simp [Config.operatorAt?, hop]
    · rw [if_neg hscript, if_neg hscript]
      by_cases hfallback : (!r.breaker.isTripped ⟨name, .fallback⟩ &&
          config.provides language.compiles name .fallback) = true
      · rw [if_pos hfallback, if_pos hfallback]
        rfl
      · rw [if_neg hfallback, if_neg hfallback]
        rfl

/-- A registry finds what the rule says. -/
theorem resolve_eq (h : r.Reached config told) (overflow : Overflow)
    (language : Script.Language σ) (name : String) (profile : CallProfile) :
    (r.resolve overflow (scriptLibrary (scriptOperations language config)) name profile).1 =
      config.implementation overflow language r.breaker.isTripped name profile := by
  by_cases hcore : config.provides language.compiles name .core = true
  · exact h.resolve_eq_of_core overflow language name profile hcore
  · exact h.resolve_eq_of_not_core overflow language name profile hcore

end Reached

/-- Resolution after any history, with scripts in any language. A registry finds what the rule
says of its configuration and of the implementations left out, whatever it has loaded. It never
finds one that is left out, and finds none exactly if every tier that provides the name is left
out. What it has loaded is enabled, and its count of loads is the number of libraries that are
loaded. -/
theorem resolves_by_rule (overflow : Overflow) (language : Script.Language σ) (config : Config)
    (requests : List Request) (name : String) (profile : CallProfile) :
    let r := after overflow language config requests
    let found :=
      (r.resolve overflow (scriptLibrary (scriptOperations language config)) name profile).1
    found = config.implementation overflow language r.breaker.isTripped name profile ∧
    (∀ op, found = .ok op → r.breaker.isTripped ⟨name, op.tier⟩ = false) ∧
    (found = .error (.notFound name) ↔
      ∀ tier, config.provides language.compiles name tier = true →
        r.breaker.isTripped ⟨name, tier⟩ = true) ∧
    (∀ library, r.isLoaded library = true → library ∈ config.domains.enabled) ∧
    r.loadCount = {library | r.isLoaded library = true}.ncard := by
  intro r found
  have hreached := reached_after overflow language config requests
  have hcore := hreached.isTripped_core name
  have hfound : found =
      config.implementation overflow language r.breaker.isTripped name profile :=
    hreached.resolve_eq overflow language name profile
  have hplace : ∀ place,
      config.place? language.compiles r.breaker.isTripped name profile = some place →
      ∃ op, found = .ok op ∧ r.breaker.isTripped ⟨name, op.tier⟩ = false := by
    intro place hplace
    obtain ⟨op, hop, htier, hopen⟩ := Config.operatorAt?_place? overflow hcore hplace
    refine ⟨op, ?_, by rw [htier]; exact hopen⟩
    rw [hfound, Config.implementation, hplace, Option.bind_some, hop]
  refine ⟨hfound, fun op hok => ?_, ?_, fun library hloaded => ?_, ?_⟩
  · match hat : config.place? language.compiles r.breaker.isTripped name profile with
    | some place =>
      obtain ⟨op', hok', hopen⟩ := hplace place hat
      cases hok.symm.trans hok'
      exact hopen
    | none =>
      rw [hfound, Config.implementation, hat] at hok
      cases hok
  · rw [← Config.place?_eq_none_iff hcore profile]
    match hat : config.place? language.compiles r.breaker.isTripped name profile with
    | some place =>
      obtain ⟨op, hok, -⟩ := hplace place hat
      rw [hok]
      exact iff_of_false (fun h => by cases h) (fun h => by cases h)
    | none =>
      rw [hfound, Config.implementation, hat]
      exact iff_of_true rfl rfl
  · have hmem := hreached.loaded library (List.contains_iff_mem.1 hloaded)
    rw [hreached.order] at hmem
    exact (List.mem_filter.1 hmem).1
  · have hset : {library | r.isLoaded library = true} = (r.loaded.toFinset : Set String) := by
      ext library
      exact List.contains_iff_mem.trans (Finset.mem_coe.trans List.mem_toFinset).symm
    rw [hset, Set.ncard_coe_finset, List.toFinset_card_of_nodup hreached.nodup]
    exact hreached.loads

/-- A name that three tiers could serve, after its domain implementation has failed three times in
a row: the library that served it stays loaded, and a library that was asked for is not loaded
because it is not enabled. -/
theorem resolves_by_rule_fallback :
    let config : Config := { domains := ⟨["math", "health"]⟩ }
    let requests : List Request := [.resolve "sqrt" ⟨1, 0⟩, .record "sqrt" .domain false,
      .preload "iot", .record "sqrt" .domain false, .drainWarnings, .record "sqrt" .domain false]
    let language : Script.Language Unit := Script.plain
    let r := after .checked language config requests
    let found :=
      (r.resolve .checked (scriptLibrary (scriptOperations language config)) "sqrt" ⟨1, 0⟩).1
    (∃ op, found = .ok op ∧ op.tier = .fallback ∧
      r.breaker.isTripped ⟨"sqrt", op.tier⟩ = false) ∧
    r.breaker.isTripped ⟨"sqrt", .domain⟩ = true ∧ r.loaded = ["math"] ∧
    {library | r.isLoaded library = true}.ncard = 1 := by
  intro config requests language r found
  obtain ⟨-, hopen, -, -, hcount⟩ :=
    resolves_by_rule .checked language config requests "sqrt" ⟨1, 0⟩
  have hfound : (match found with
      | .ok op => decide (op.tier = .fallback)
      | .error _ => false) = true := by decide +kernel
  match hop : found with
  | .error e => cases hfound
  | .ok op =>
    refine ⟨⟨op, rfl, of_decide_eq_true hfound, hopen op hop⟩, by decide +kernel,
      by decide +kernel, ?_⟩
    exact hcount.symm.trans (by decide +kernel)

end Registry

end Sluice
