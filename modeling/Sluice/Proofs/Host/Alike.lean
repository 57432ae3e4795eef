/-
  Sluice.Proofs.Host.Alike

  What resolution does not see of a registry: which libraries are loaded and how many, and how
  often implementations have failed in a row. Registries that differ in nothing else are alike. They
  find the same operators, load or refuse the same libraries and hold the same warnings, and a
  registry stays like itself whatever is asked of it, until an implementation outside the core
  fails with the breaker on.

  A session answers as its registry does where it has no operator of its own.
-/

import Sluice.Proofs.Host.Follows

namespace Sluice

variable {σ τ : Type}

namespace Breaker

/-- A success, any outcome of the core, and everything while the breaker is off leave an
implementation as open or closed as it was. -/
theorem record_of_quiet {b : Breaker} {i : Implementation} {success : Bool}
    (h : b.settings.enabled = false ∨ i.tier = .core ∨ success = true) :
    (b.record i success).1 = false ∧ (b.record i success).2.settings = b.settings ∧
      (b.record i success).2.tripped = b.tripped := by
  unfold record
  split
  · exact ⟨rfl, rfl, rfl⟩
  · next hon =>
    split
    · exact ⟨rfl, rfl, rfl⟩
    · next hfailed =>
      rcases h with hoff | hcore | hok
      · simp [hoff] at hon
      · simp [hcore] at hon
      · exact absurd hok hfailed

end Breaker

namespace Registry

/-- Registries that differ only in what is loaded and in the failures counted so far. -/
structure Alike (r r' : Registry) : Prop where
  order : r.order = r'.order
  selection : r.selection = r'.selection
  settings : r.breaker.settings = r'.breaker.settings
  tripped : r.breaker.tripped = r'.breaker.tripped
  warnings : r.warnings = r'.warnings

variable {r r' r'' : Registry}

namespace Alike

theorem refl (r : Registry) : r.Alike r :=
  ⟨rfl, rfl, rfl, rfl, rfl⟩

theorem symm (h : r.Alike r') : r'.Alike r :=
  ⟨h.order.symm, h.selection.symm, h.settings.symm, h.tripped.symm, h.warnings.symm⟩

theorem trans (h : r.Alike r') (h' : r'.Alike r'') : r.Alike r'' :=
  ⟨h.order.trans h'.order, h.selection.trans h'.selection, h.settings.trans h'.settings,
    h.tripped.trans h'.tripped, h.warnings.trans h'.warnings⟩

theorem isOpen_eq (h : r.Alike r') (name : String) (tier : Tier) :
    r.isOpen name tier = r'.isOpen name tier := by
  unfold isOpen Breaker.isTripped
  rw [h.tripped]

theorem providers_eq (h : r.Alike r') (name : String) : r.providers name = r'.providers name := by
  unfold providers
  rw [h.order]

theorem preferred?_eq (h : r.Alike r') (name : String) (profile : CallProfile) :
    r.preferred? name profile = r'.preferred? name profile := by
  unfold preferred?
  rw [h.selection, h.isOpen_eq, h.providers_eq]

theorem provider?_eq (h : r.Alike r') (name : String) : r.provider? name = r'.provider? name := by
  unfold provider?
  rw [h.isOpen_eq, h.providers_eq]

theorem script?_eq (h : r.Alike r') (scripts : Library σ) (name : String) :
    r.script? scripts name = r'.script? scripts name := by
  unfold script?
  rw [h.isOpen_eq]

theorem fallback?_eq (h : r.Alike r') (name : String) :
    (r.fallback? name : Option (Operator σ)) = r'.fallback? name := by
  unfold fallback?
  rw [h.isOpen_eq]

end Alike

-- ============================================================================
-- Asking a registry
-- ============================================================================

theorem alike_load (r : Registry) (library : String) : (r.load library).Alike r := by
  unfold load
  split
  · exact .refl r
  · exact ⟨rfl, rfl, rfl, rfl, rfl⟩

variable {overflow : Overflow} {scripts : Library σ}

theorem alike_of_serve? {name library : String} {op : Operator σ}
    (h : r.serve? overflow name library = some (op, r')) : r'.Alike r := by
  obtain ⟨found, -, heq⟩ := Option.map_eq_some_iff.1 h
  cases heq
  exact r.alike_load library

/-- Resolving a name does no more than load a library. -/
theorem alike_resolve (r : Registry) (name : String) (profile : CallProfile) :
    (r.resolve overflow scripts name profile).2.Alike r := by
  unfold resolve
  split
  · split
    · next hserved =>
      obtain ⟨library, -, hs⟩ := Option.bind_eq_some_iff.1 hserved
      exact alike_of_serve? hs
    · exact .refl r
  · split
    · next hserved =>
      obtain ⟨library, -, hs⟩ := Option.bind_eq_some_iff.1 hserved
      exact alike_of_serve? hs
    · split
      · exact .refl r
      · exact .refl r

theorem alike_preload (r : Registry) (library : String) : (r.preload library).2.Alike r := by
  unfold preload
  split
  · exact r.alike_load library
  · exact .refl r

/-- What is recorded leaves a registry as it was, unless the breaker has to count a failure. -/
theorem alike_record {name : String} {tier : Tier} {success : Bool}
    (h : r.breaker.settings.enabled = false ∨ tier = .core ∨ success = true) :
    (r.record name tier success).Alike r := by
  obtain ⟨htrips, hsettings, htripped⟩ := Breaker.record_of_quiet (i := ⟨name, tier⟩) h
  refine ⟨rfl, rfl, hsettings, htripped, ?_⟩
  simp only [record, htrips]
  rfl

/-- The operator that a registry finds does not depend on what is loaded. -/
theorem resolve_fst (r : Registry) (name : String) (profile : CallProfile) :
    (r.resolve overflow scripts name profile).1 =
      let served := fun library => (Domain.library? overflow library).bind (·.operator? name)
      match Core.library.operator? name with
      | some core => .ok (((r.preferred? name profile).bind served).getD core)
      | none =>
        match ((r.provider? name).bind served).or
            ((r.script? scripts name).or (r.fallback? name)) with
        | some op => .ok op
        | none => .error (.notFound name) := by
  unfold resolve serve?
  simp only
  cases Core.library.operator? name with
  | some core =>
    cases r.preferred? name profile with
    | none => rfl
    | some library =>
      simp only [Option.bind_some]
      cases (Domain.library? overflow library).bind (·.operator? name) <;> rfl
  | none =>
    have hlast : ∀ found : Option (Operator σ),
        (match found with
          | some op => (.ok op, r)
          | none => (.error (.notFound name), r) :
          Except ResolveError (Operator σ) × Registry).1 =
        match found with
          | some op => .ok op
          | none => .error (.notFound name) := by
      intro found
      cases found <;> rfl
    cases r.provider? name with
    | none => exact hlast _
    | some library =>
      simp only [Option.bind_some]
      cases (Domain.library? overflow library).bind (·.operator? name) with
      | none => exact hlast _
      | some op => rfl

/-- Registries that are alike find the same operator, or miss it in the same way. -/
theorem Alike.resolve_eq (h : r.Alike r') (name : String) (profile : CallProfile) :
    (r.resolve overflow scripts name profile).1 =
      (r'.resolve overflow scripts name profile).1 := by
  rw [resolve_fst, resolve_fst, h.preferred?_eq, h.provider?_eq, h.script?_eq, h.fallback?_eq]

/-- Registries that are alike load the same libraries, or refuse them in the same way. -/
theorem Alike.preload_eq (h : r.Alike r') (library : String) :
    (r.preload library).1 = (r'.preload library).1 := by
  unfold preload
  rw [h.order]
  split <;> rfl

end Registry

-- ============================================================================
-- Sessions
-- ============================================================================

namespace Session

/-- Sessions with registries that are alike, of which both are cancelled or none. -/
structure Alike (s s' : Session τ) : Prop where
  registry : s.registry.Alike s'.registry
  cancelled : s.cancelled = s'.cancelled

variable {s s' s'' : Session τ}

theorem Alike.symm (h : s.Alike s') : s'.Alike s :=
  ⟨h.registry.symm, h.cancelled.symm⟩

theorem Alike.trans (h : s.Alike s') (h' : s'.Alike s'') : s.Alike s'' :=
  ⟨h.registry.trans h'.registry, h.cancelled.trans h'.cancelled⟩

/-- Finding an operator leaves a session as it was. -/
theorem alike_resolve (operators : List (Operator (Session τ))) (tiers : Tiers τ) (name : String)
    (profile : CallProfile) (s : Session τ) :
    (resolve operators tiers name profile s).2.Alike s := by
  unfold resolve
  split
  · exact ⟨.refl _, rfl⟩
  · exact ⟨s.registry.alike_resolve name profile, rfl⟩

/-- Sessions that are alike find the same operator, or miss it in the same way. -/
theorem Alike.resolve_eq (h : s.Alike s') (operators : List (Operator (Session τ)))
    (tiers : Tiers τ) (name : String) (profile : CallProfile) :
    (resolve operators tiers name profile s).1 = (resolve operators tiers name profile s').1 := by
  unfold resolve
  split
  · rfl
  · exact h.registry.resolve_eq name profile

theorem alike_preload (library : String) (s : Session τ) :
    (onRegistry (fun r => r.preload library) s).2.Alike s :=
  ⟨s.registry.alike_preload library, rfl⟩

theorem Alike.preload_eq (h : s.Alike s') (library : String) :
    (onRegistry (fun r => r.preload library) s).1 =
      (onRegistry (fun r => r.preload library) s').1 :=
  h.registry.preload_eq library

/-- Sessions that are alike hand over the same warnings, and are alike after it. -/
theorem Alike.drainWarnings (h : s.Alike s') :
    (onRegistry Registry.drainWarnings s).1 = (onRegistry Registry.drainWarnings s').1 ∧
      (onRegistry Registry.drainWarnings s).2.Alike (onRegistry Registry.drainWarnings s').2 :=
  ⟨h.registry.warnings, ⟨h.registry.order, h.registry.selection, h.registry.settings,
    h.registry.tripped, rfl⟩, h.cancelled⟩

/-- A script leaves a session like the one that it was. -/
theorem Scripted.alike {tiers : Tiers τ} {effect : Session τ → Attempt Value × Session τ}
    (h : Scripted tiers effect) (s : Session τ) : (effect s).2.Alike s := by
  obtain ⟨own, hown⟩ := h.snd_eq s
  rw [hown]
  exact ⟨.refl _, rfl⟩

end Session

-- ============================================================================
-- Scripts without a clock
-- ============================================================================

/-- A language in which an evaluation comes to the same in every world. -/
structure Script.Language.Timeless {ω : Type} (language : Script.Language ω) : Prop where
  call : ∀ code function args scope w w',
    (language.call code function args scope w).1 = (language.call code function args scope w').1 ∧
      (language.call code function args scope w).2.1 =
        (language.call code function args scope w').2.1
  eval : ∀ code scope w w', (language.eval code scope w).1 = (language.eval code scope w').1

theorem Script.Language.Timeless.evaluate_fst {ω : Type} {language : Script.Language ω}
    (h : language.Timeless) (code : language.Code) (input args : Script.Datum) (w w' : ω) :
    (language.evaluate code input args w).1 = (language.evaluate code input args w').1 := by
  have hcall := h.call code Script.entryPoint [input, args] [("value", input), ("args", args)] w w'
  unfold Script.Language.evaluate
  generalize language.call code _ _ _ w = called at hcall ⊢
  generalize language.call code _ _ _ w' = called' at hcall ⊢
  obtain ⟨result, scope, v⟩ := called
  obtain ⟨result', scope', v'⟩ := called'
  obtain ⟨rfl, rfl⟩ : result = result' ∧ scope = scope' := hcall
  cases result with
  | ok d => rfl
  | error stop =>
    simp only
    split
    · exact h.eval code scope v v'
    · rfl

/-- A script of such a language answers the same in every world. -/
theorem Script.Language.Timeless.operation_fst {ω : Type} {language : Script.Language ω}
    (h : language.Timeless) (script : Script.Compiled language.Code) (input : Value)
    (args : Arguments) (w w' : ω) :
    (language.operation script input args w).1 = (language.operation script input args w').1 := by
  have hexecute : (language.execute script input args w).1 =
      (language.execute script input args w').1 :=
    congrArg script.settle (h.evaluate_fst script.code _ _ w w')
  unfold Script.Language.operation
  generalize language.execute script input args w = executed at hexecute ⊢
  generalize language.execute script input args w' = executed' at hexecute ⊢
  obtain ⟨result, v⟩ := executed
  obtain ⟨result', v'⟩ := executed'
  obtain rfl : result = result' := hexecute
  rcases result with h | e | v <;> rfl

theorem Script.plain_timeless {ω : Type} : (Script.plain : Script.Language ω).Timeless where
  call _ _ _ _ _ _ := ⟨rfl, rfl⟩
  eval _ _ _ _ := rfl

/-- What the scripts answer does not depend on the world. -/
def Tiers.Timeless (tiers : Tiers τ) : Prop :=
  ∀ script ∈ tiers.scripts, ∀ input args own own',
    (script.2 input args own).1 = (script.2 input args own').1

theorem Build.timeless_tiers {build : Build τ} (h : build.language.Timeless) (config : Config) :
    (build.tiers config).Timeless := by
  intro script hscript input args own own'
  obtain ⟨compiled, -, rfl⟩ := List.mem_map.1 hscript
  exact h.operation_fst compiled.2 input args own own'

theorem Session.Scripted.fst_eq {tiers : Tiers τ} {effect : Session τ → Attempt Value × Session τ}
    (h : Scripted tiers effect) (htimeless : tiers.Timeless) (s s' : Session τ) :
    (effect s).1 = (effect s').1 := by
  obtain ⟨script, hscript, input, args, heffect⟩ := h
  rw [heffect, heffect]
  exact htimeless script hscript input args s.own s'.own

end Sluice
