/-
  Sluice.Proofs.Host.Requests

  What operators ask of their host. The operators of the libraries read pools, give warnings and
  call other operators, and never act on the host's state themselves. Those that call others are
  few: `map` and `filter` call with the arguments behind the name, and `reduce` with one
  argument. The operators of scripts do nothing but act on the host's state.

  Main statement: this holds of whatever a registry finds for a name. Under any other name than
  these three and `from_pool` it finds operators that only compute, and scripts.
-/

import Sluice.Session

namespace Sluice

variable {σ τ : Type}

namespace Action

/-- An action asks for pools, warnings, and calls and effects that are allowed, and for nothing
else. -/
def AsksOnly (calls : String → Arguments → Prop) (acts : (σ → Attempt Value × σ) → Prop) :
    Action σ → Prop
  | .finish _ => True
  | .call name _ args next => calls name args ∧ ∀ result, (next result).AsksOnly calls acts
  | .readPool _ next => ∀ value, (next value).AsksOnly calls acts
  | .warn _ next => next.AsksOnly calls acts
  | .perform effect => acts effect

variable {calls calls' : String → Arguments → Prop} {acts acts' : (σ → Attempt Value × σ) → Prop}

/-- An action asks only for what is allowed if more is allowed. -/
theorem AsksOnly.mono {action : Action σ} (h : action.AsksOnly calls acts)
    (hcalls : ∀ name args, calls name args → calls' name args)
    (hacts : ∀ effect, acts effect → acts' effect) : action.AsksOnly calls' acts' := by
  induction action with
  | finish result => trivial
  | perform effect => exact hacts effect h
  | warn message next ih => exact ih h
  | readPool name next ih => exact fun value => ih value (h value)
  | call name input args next ih =>
    exact ⟨hcalls name args h.1, fun result => ih result (h.2 result)⟩

end Action

namespace Core

/-- The calls that an operator of a name makes when it is given arguments. -/
def Calls (name : String) (args : Arguments) (next : String) (nextArgs : Arguments) : Prop :=
  operatorName args = .ok next ∧
    (((name = "map" ∨ name = "filter") ∧ nextArgs = args.tail) ∨
      (name = "reduce" ∧ args.length = 1 ∧ nextArgs.length = 1))

end Core

/-- An operator that asks only for the calls of the operators of a name, provided that it is
given as many arguments as it takes, and for effects that are allowed. -/
def Operator.CallsAs (acts : (σ → Attempt Value × σ) → Prop) (name : String) (op : Operator σ) :
    Prop :=
  ∀ input args, (op.body input args).AsksOnly (fun next nextArgs =>
    op.arity.admits args.length = true → Core.Calls name args next nextArgs) acts

/-- An entry whose operator asks only for the calls of the operators of its name. -/
def Entry.CallsAsNamed (e : Entry σ) : Prop :=
  ∀ input args, (e.body input args).AsksOnly (fun next nextArgs =>
    e.arity.admits args.length = true → Core.Calls e.name args next nextArgs) fun _ => False

@[simp] theorem Entry.callsAsNamed_pure (name : String) (arity : Arity)
    (f : Value → Arguments → Attempt Value) : (Entry.pure name arity f : Entry σ).CallsAsNamed :=
  fun _ _ => trivial

/-- An entry whose operator finishes at once, whatever it is given. -/
def Entry.Computes (e : Entry σ) : Prop :=
  ∀ input args, ∃ result, e.body input args = .finish result

@[simp] theorem Entry.computes_pure (name : String) (arity : Arity)
    (f : Value → Arguments → Attempt Value) : (Entry.pure name arity f : Entry σ).Computes :=
  fun _ _ => ⟨_, rfl⟩

theorem Entry.Computes.callsAsNamed {e : Entry σ} (h : e.Computes) : e.CallsAsNamed := by
  intro input args
  obtain ⟨result, hresult⟩ := h input args
  rw [hresult]
  trivial

/-- An entry whose operator does nothing but act on the host, and only in ways that are allowed. -/
def Entry.Performs (acts : (σ → Attempt Value × σ) → Prop) (e : Entry σ) : Prop :=
  ∀ input args, ∃ effect, e.body input args = .perform effect ∧ acts effect

theorem Arity.eq_of_exactly {n found : Nat} (h : (exactly n).admits found = true) : found = n := by
  have hboth : (decide (n ≤ found) && decide (found ≤ n)) = true := h
  rw [Bool.and_eq_true, decide_eq_true_eq, decide_eq_true_eq] at hboth
  omega

-- ============================================================================
-- The libraries
-- ============================================================================

namespace Core

variable {α : Type} {calls : String → Arguments → Prop} {acts : (σ → Attempt Value × σ) → Prop}

theorem asksOnly_andThen {attempt : Attempt α} {next : α → Action σ}
    (h : ∀ a, attempt = .ok a → (next a).AsksOnly calls acts) :
    (andThen attempt next).AsksOnly calls acts := by
  cases attempt with
  | ok a => exact h a rfl
  | error fault => trivial

theorem asksOnly_mapItems {name : String} {args : Arguments} (h : calls name args)
    (done items : List Value) : (mapItems name args done items : Action σ).AsksOnly calls acts := by
  induction items generalizing done with
  | nil => trivial
  | cons item rest ih =>
    refine ⟨h, fun result => ?_⟩
    cases result with
    | ok v => exact ih (v :: done)
    | error e => trivial

theorem asksOnly_keepItems {name : String} {args : Arguments} (h : calls name args)
    (kept items : List Value) :
    (keepItems name args kept items : Action σ).AsksOnly calls acts := by
  induction items generalizing kept with
  | nil => trivial
  | cons item rest ih =>
    refine ⟨h, fun result => ?_⟩
    cases result with
    | ok v => exact ih _
    | error e => trivial

theorem asksOnly_foldItems {name : String} (h : ∀ item, calls name [item]) (acc : Value)
    (items : List Value) : (foldItems name acc items : Action σ).AsksOnly calls acts := by
  induction items generalizing acc with
  | nil => trivial
  | cons item rest ih =>
    refine ⟨h item, fun result => ?_⟩
    cases result with
    | ok v => exact ih v
    | error e => trivial

theorem asksOnly_mapWith (input : Value) (args : Arguments) :
    (mapWith input args : Action σ).AsksOnly (Calls "map" args) acts := by
  refine asksOnly_andThen fun name hname => asksOnly_andThen fun items _ =>
    asksOnly_andThen fun more hmore => ?_
  exact asksOnly_mapItems ⟨hname, .inl ⟨.inl rfl, Arguments.eq_tail_of_rest hmore⟩⟩ [] items

theorem asksOnly_filterWith (input : Value) (args : Arguments) :
    (filterWith input args : Action σ).AsksOnly (Calls "filter" args) acts := by
  refine asksOnly_andThen fun name hname => asksOnly_andThen fun items _ =>
    asksOnly_andThen fun more hmore => ?_
  exact asksOnly_keepItems ⟨hname, .inl ⟨.inr rfl, Arguments.eq_tail_of_rest hmore⟩⟩ [] items

theorem asksOnly_reduceWith (input : Value) (args : Arguments) :
    (reduceWith input args : Action σ).AsksOnly
      (fun next nextArgs => args.length = 1 → Calls "reduce" args next nextArgs) acts := by
  refine asksOnly_andThen fun name hname => ?_
  split
  · trivial
  · refine asksOnly_andThen fun items _ => ?_
    cases items with
    | nil => trivial
    | cons first rest =>
      exact asksOnly_foldItems (fun item hargs => ⟨hname, .inr ⟨rfl, hargs, rfl⟩⟩) first rest

theorem asksOnly_fromPool (input : Value) (args : Arguments) :
    (fromPool input args : Action σ).AsksOnly calls acts := by
  refine asksOnly_andThen fun name _ value => ?_
  cases value <;> trivial

theorem callsAsNamed_surroundings : ∀ e ∈ (surroundings : List (Entry σ)), e.CallsAsNamed := by
  simp only [surroundings, List.forall_mem_cons, Entry.callsAsNamed_pure, List.not_mem_nil,
    false_imp_iff, implies_true, and_true]
  refine ⟨fun input args => ?_, fun input args => ?_, fun input args => ?_,
    fun input args => asksOnly_fromPool input args⟩
  · exact (asksOnly_mapWith input args).mono (fun _ _ h _ => h) fun _ => id
  · exact (asksOnly_filterWith input args).mono (fun _ _ h _ => h) fun _ => id
  · exact (asksOnly_reduceWith input args).mono
      (fun _ _ h hargs => h (Arity.eq_of_exactly hargs)) fun _ => id

theorem callsAsNamed_library : ∀ e ∈ (library : Library σ).entries, e.CallsAsNamed := by
  have hrest := callsAsNamed_surroundings (σ := σ)
  simp only [library, List.forall_mem_append]
  refine ⟨⟨⟨⟨⟨?_, ?_⟩, ?_⟩, ?_⟩, ?_⟩, hrest⟩
  · simp [arithmetic]
  · simp [textual]
  · simp [collections]
  · simp [logical]
  · simp [comparisons]

/-- The names of the operators that call others or read a pool. -/
def askers : List String :=
  ["map", "filter", "reduce", "from_pool"]

theorem computes_library :
    ∀ e ∈ (library : Library σ).entries, e.name ∉ askers → e.Computes := by
  simp only [library, List.forall_mem_append]
  refine ⟨⟨⟨⟨⟨?_, ?_⟩, ?_⟩, ?_⟩, ?_⟩, ?_⟩
  · simp [arithmetic]
  · simp [textual]
  · simp [collections]
  · simp [logical]
  · simp [comparisons]
  · simp [surroundings, askers]

end Core

theorem Fallback.computes_library : ∀ e ∈ (library : Library σ).entries, e.Computes := by
  simp [library]

/-- Every entry of every domain library only computes. -/
theorem Domain.computes_libraries (overflow : Overflow) :
    ∀ l ∈ (librariesWith overflow : List (Library σ)), ∀ e ∈ l.entries, e.Computes := by
  simp [librariesWith, Math.libraryWith, Analytics.library, Health.library, Iot.library,
    Network.library, Security.library]

-- ============================================================================
-- Registries
-- ============================================================================

/-- An entry of one of the libraries of a build. -/
def Entry.Provided (overflow : Overflow) (e : Entry σ) : Prop :=
  e ∈ Core.library.entries ∨ e ∈ Fallback.library.entries ∨
    ∃ l ∈ (Domain.librariesWith overflow : List (Library σ)), e ∈ l.entries

/-- An operator that does the work of an entry. -/
structure Operator.Does (op : Operator σ) (e : Entry σ) : Prop where
  arity : op.arity = e.arity
  body : op.body = e.body

theorem Library.does_of_operator? {library : Library σ} {name : String} {op : Operator σ}
    (h : library.operator? name = some op) :
    ∃ e ∈ library.entries, e.name = name ∧ op.Does e := by
  obtain ⟨e, he, rfl⟩ := Option.map_eq_some_iff.1 h
  exact ⟨e, List.mem_of_find?_eq_some he, by simpa using List.find?_some he, rfl, rfl⟩

namespace Registry

variable {r r' : Registry} {overflow : Overflow} {scripts : Library σ} {name : String}
  {op : Operator σ}

theorem does_of_serve? {library : String}
    (h : r.serve? overflow name library = some (op, r')) :
    ∃ e : Entry σ, e.Provided overflow ∧ e.name = name ∧ op.Does e := by
  obtain ⟨found, hfound, heq⟩ := Option.map_eq_some_iff.1 h
  obtain ⟨l, hl, hop⟩ := Option.bind_eq_some_iff.1 hfound
  cases heq
  obtain ⟨e, he, hdoes⟩ := Library.does_of_operator? hop
  exact ⟨e, .inr (.inr ⟨l, List.mem_of_find?_eq_some hl, he⟩), hdoes⟩

/-- Whatever a registry finds for a name does the work of an entry of this name: one of the
libraries, or a script. -/
theorem resolve_cases {profile : CallProfile}
    (h : (r.resolve overflow scripts name profile).1 = .ok op) :
    ∃ e : Entry σ, (e.Provided overflow ∨ e ∈ scripts.entries) ∧ e.name = name ∧ op.Does e := by
  unfold resolve at h
  split at h
  · next core hcore =>
    split at h
    · next served r' hserved =>
      cases h
      obtain ⟨library, -, hs⟩ := Option.bind_eq_some_iff.1 hserved
      obtain ⟨e, he, hdoes⟩ := does_of_serve? hs
      exact ⟨e, .inl he, hdoes⟩
    · cases h
      obtain ⟨e, he, hdoes⟩ := Library.does_of_operator? hcore
      exact ⟨e, .inl (.inl he), hdoes⟩
  · split at h
    · next served r' hserved =>
      cases h
      obtain ⟨library, -, hs⟩ := Option.bind_eq_some_iff.1 hserved
      obtain ⟨e, he, hdoes⟩ := does_of_serve? hs
      exact ⟨e, .inl he, hdoes⟩
    · split at h
      · next found hfound =>
        cases h
        rcases Option.or_eq_some_iff.1 hfound with hscript | ⟨-, hfallback⟩
        · unfold script? at hscript
          split at hscript
          · obtain ⟨e, he, hdoes⟩ := Library.does_of_operator? hscript
            exact ⟨e, .inr he, hdoes⟩
          · cases hscript
        · unfold fallback? at hfallback
          split at hfallback
          · obtain ⟨e, he, hdoes⟩ := Library.does_of_operator? hfallback
            exact ⟨e, .inl (.inr (.inl he)), hdoes⟩
          · cases hfallback
      · cases h

variable {acts : (σ → Attempt Value × σ) → Prop}

/-- The operators of scripts do nothing but act on the host. -/
theorem performs_scriptLibrary {operations : List (String × Script.Operation σ)}
    (h : ∀ script ∈ operations, ∀ input args, acts (script.2 input args)) :
    ∀ e ∈ (scriptLibrary operations).entries, e.Performs acts := by
  intro e he input args
  obtain ⟨script, hscript, rfl⟩ := List.mem_map.1 he
  exact ⟨script.2 input args, rfl, h script hscript input args⟩

/-- Whatever a registry finds for a name calls as the operators of this name do, and acts on the
host as scripts do. -/
theorem resolve_callsAs {profile : CallProfile}
    (hscripts : ∀ e ∈ scripts.entries, e.Performs acts)
    (h : (r.resolve overflow scripts name profile).1 = .ok op) : op.CallsAs acts name := by
  obtain ⟨e, he, rfl, harity, hbody⟩ := resolve_cases h
  unfold Operator.CallsAs
  rw [harity, hbody]
  rcases he with hprovided | hscript
  · have hnamed : e.CallsAsNamed := by
      rcases hprovided with he | he | ⟨l, hl, he⟩
      · exact Core.callsAsNamed_library e he
      · exact (Fallback.computes_library e he).callsAsNamed
      · exact (Domain.computes_libraries overflow l hl e he).callsAsNamed
    exact fun input args => (hnamed input args).mono (fun _ _ => id) fun _ => False.elim
  · intro input args
    obtain ⟨effect, heffect, hacts⟩ := hscripts e hscript input args
    rw [heffect]
    exact hacts

/-- Whatever a registry finds for a name only computes, or acts on the host as scripts do, unless
the name is that of an operator which calls others or reads a pool. -/
theorem resolve_computes {profile : CallProfile}
    (hscripts : ∀ e ∈ scripts.entries, e.Performs acts)
    (h : (r.resolve overflow scripts name profile).1 = .ok op) (hname : name ∉ Core.askers)
    (input : Value) (args : Arguments) :
    (∃ result, op.body input args = .finish result) ∨
      ∃ effect, op.body input args = .perform effect := by
  obtain ⟨e, he, rfl, -, hbody⟩ := resolve_cases h
  rw [hbody]
  rcases he with (he | he | ⟨l, hl, he⟩) | hscript
  · exact .inl (Core.computes_library e he hname input args)
  · exact .inl (Fallback.computes_library e he input args)
  · exact .inl (Domain.computes_libraries overflow l hl e he input args)
  · obtain ⟨effect, heffect, -⟩ := hscripts e hscript input args
    exact .inr ⟨effect, heffect⟩

end Registry

-- ============================================================================
-- Sessions
-- ============================================================================

namespace Session

/-- What a script does to a session: it answers for the world that it sees, and nothing else
changes. -/
def Scripted (tiers : Tiers τ) (effect : Session τ → Attempt Value × Session τ) : Prop :=
  ∃ script ∈ tiers.scripts, ∃ input args, ∀ s : Session τ,
    effect s =
      ((script.2 input args s.own).1, { s with own := (script.2 input args s.own).2 })

theorem performs_scriptLibrary (tiers : Tiers τ) :
    ∀ e ∈ (scriptLibrary tiers).entries, e.Performs (Scripted tiers) := by
  refine Registry.performs_scriptLibrary fun script hscript input args => ?_
  obtain ⟨original, horiginal, rfl⟩ := List.mem_map.1 hscript
  exact ⟨original, horiginal, input, args, fun _ => rfl⟩

/-- A session finds an operator of its own, or what its registry finds. -/
theorem resolve_cases {operators : List (Operator (Session τ))} {tiers : Tiers τ} {s : Session τ}
    {name : String} {profile : CallProfile} {op : Operator (Session τ)}
    (h : (resolve operators tiers name profile s).1 = .ok op) :
    op ∈ operators ∧ op.name = name ∨
      (s.registry.resolve tiers.overflow (scriptLibrary tiers) name profile).1 = .ok op := by
  unfold resolve at h
  split at h
  · next own hown =>
    cases h
    exact .inl ⟨List.mem_of_find?_eq_some hown, by simpa using List.find?_some hown⟩
  · exact .inr h

/-- Whatever a session's registry finds for a name calls as the operators of this name do, and
acts on the session as scripts do. -/
theorem resolve_callsAs {r : Registry} {tiers : Tiers τ} {name : String} {profile : CallProfile}
    {op : Operator (Session τ)}
    (h : (r.resolve tiers.overflow (scriptLibrary tiers) name profile).1 = .ok op) :
    op.CallsAs (Scripted tiers) name :=
  Registry.resolve_callsAs (performs_scriptLibrary tiers) h

end Session

end Sluice
