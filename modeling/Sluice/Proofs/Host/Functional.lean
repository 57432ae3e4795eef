/-
  Sluice.Proofs.Host.Functional

  Hosts whose answers are always the same. In whichever of some states such a host is, it finds
  the same operators, and these come to the same: what they come to depends on their input, their
  arguments and the pools. So it follows itself from any of these states to any other.

  A session is such a host as long as its breaker is off, nobody cancels it and its scripts read
  no clock: what it loads on the way is not seen by anyone.
-/

import Sluice.Proofs.Host.Alike

namespace Sluice

variable {σ τ : Type}

/-- An operator that only asks its host for things: what it comes to depends on its input, its
arguments, the pools, and what the operators come to that it calls. -/
def Operator.OnlyAsks (op : Operator σ) : Prop :=
  ∀ input args, (op.body input args).AsksOnly (fun _ _ => True) fun _ => False

/-- An effect that in all of some states has the same result, and leads to one of them. -/
def Host.Constant (P : σ → Prop) (effect : σ → Attempt Value × σ) : Prop :=
  ∀ s s', P s → P s' → (effect s).1 = (effect s').1 ∧ P (effect s).2

/-- An operator that in all of some states asks for the same and comes to the same. -/
def Operator.AsksAlike (P : σ → Prop) (op : Operator σ) : Prop :=
  ∀ input args, (op.body input args).AsksOnly (fun _ _ => True) (Host.Constant P)

/-- A pool that an operator may come to read. -/
def Operator.Reads (op : Operator σ) (pool : String) : Prop :=
  ∃ input args, (op.body input args).Reads pool

/-- An operator that an operator may come to call. -/
def Operator.Calls (op : Operator σ) (name : String) : Prop :=
  ∃ input args, (op.body input args).Calls name

theorem Operator.OnlyAsks.asksAlike {op : Operator σ} (h : op.OnlyAsks) (P : σ → Prop) :
    op.AsksAlike P :=
  fun input args => (h input args).mono (fun _ _ => id) fun _ => False.elim

/-- An operator that asks for the same does the same work from any of the states to any other. -/
theorem Operator.AsksAlike.like {op : Operator σ} {P : σ → Prop} (h : op.AsksAlike P)
    {reads calls : String → Prop} (hreads : ∀ pool, op.Reads pool → reads pool)
    (hcalls : ∀ name, op.Calls name → calls name) :
    op.Like (fun s s' => P s ∧ P s') (fun _ => False) reads calls op where
  arity := rfl
  tier := rfl
  body input args := by
    refine (h input args).like (fun pool hpool => hreads pool ⟨input, args, hpool⟩)
      (fun name hname => hcalls name ⟨input, args, hname⟩) ?_ fun _ _ _ => False.elim
    intro effect s s' heffect hs
    obtain ⟨hresult, hleft⟩ := heffect s s' hs.1 hs.2
    exact ⟨hresult.symm, hleft, (heffect s' s hs.2 hs.1).2⟩

theorem Operator.AsksAlike.staysIn {op : Operator σ} {P : σ → Prop} (h : op.AsksAlike P) :
    op.StaysIn P :=
  fun input args => (h input args).staysIn fun _ s heffect hs => (heffect s s hs hs).2

/-- A host that in all of some states gives the same answers. -/
structure Host.Functional (host : Host σ) (P : σ → Prop) : Prop extends
    host.NeverCancelled P where
  resolve_eq : ∀ {s s'} (name : String) (profile : CallProfile), P s → P s' →
    (host.resolve name profile s).1 = (host.resolve name profile s').1
  asks : ∀ {s name profile op}, P s → (host.resolve name profile s).1 = .ok op → op.AsksAlike P
  preload_eq : ∀ {s s'} (library : String), P s → P s' →
    (host.preload library s).1 = (host.preload library s').1
  warnings_eq : ∀ {s s'}, P s → P s' → (host.drainWarnings s).1 = (host.drainWarnings s').1

namespace Host.Functional

variable {host : Host σ} {P : σ → Prop}

/-- A functional host follows itself, whatever is known of the operators that it finds. -/
theorem follows (h : host.Functional P) {names : String → Prop}
    {Q : Operator σ → Operator σ → Prop}
    (hop : ∀ {s name profile op}, names name → P s → (host.resolve name profile s).1 = .ok op →
      Q op op) :
    host.Follows names Q (fun _ s s' => P s ∧ P s') (fun _ => False) host where
  resolve {n s s' name} profile hname hs := by
    have hfound := h.resolve_eq name profile hs.1 hs.2
    have hafter := And.intro (h.resolve name profile s hs.1) (h.resolve name profile s' hs.2)
    have hfinds : ∀ op, (host.resolve name profile s).1 = .ok op → Q op op :=
      fun op hop' => hop hname hs.1 hop'
    generalize host.resolve name profile s = found at hfound hafter hfinds ⊢
    generalize host.resolve name profile s' = found' at hfound hafter ⊢
    obtain ⟨result, t⟩ := found
    obtain ⟨result', t'⟩ := found'
    obtain rfl : result = result' := hfound
    cases result with
    | ok op => exact .found (hfinds op rfl) hafter
    | error e => exact .missing e hafter
  record name tier success hs :=
    .inl ⟨h.record name tier success _ hs.1, h.record name tier success _ hs.2⟩
  preload library hs :=
    ⟨h.preload_eq library hs.2 hs.1, h.preload library _ hs.1, h.preload library _ hs.2⟩
  isCancelled hs := (h.running _ hs.2).trans (h.running _ hs.1).symm
  steady := host.steady_nowhere

/-- All operators of a functional host follow themselves on the same pools. -/
theorem follows_itself (h : host.Functional P) :
    host.Follows (fun _ => True)
      (Operator.Follows Eq (fun _ s s' => P s ∧ P s') (fun _ => False) host host)
      (fun _ s s' => P s ∧ P s') (fun _ => False) host := by
  have hlike : host.Follows (fun _ => True)
      (Operator.Like (fun s s' => P s ∧ P s') (fun _ => False) (fun _ => True) fun _ => True)
      (fun _ s s' => P s ∧ P s') (fun _ => False) host :=
    h.follows fun _ hs hop => (h.asks hs hop).like (fun _ _ => trivial) fun _ _ => trivial
  exact hlike.mono (fun _ hname => hname) fun op op' hop =>
    hop.follows hlike fun hpools _ _ => by rw [hpools]

end Host.Functional

/-- Settings with the breaker off. -/
def Config.unbroken : Config :=
  { breaker := { enabled := false } }

namespace Session

variable {operators : List (Operator (Session τ))} {tiers : Tiers τ} {s : Session τ}
  {name : String} {profile : CallProfile} {op : Operator (Session τ)}

/-- A script without a clock answers the same in all sessions that are alike. -/
theorem Scripted.constant {effect : Session τ → Attempt Value × Session τ}
    (h : Scripted tiers effect) (htimeless : tiers.Timeless) (s : Session τ) :
    Host.Constant s.Alike effect := by
  intro t t' ht _
  exact ⟨h.fst_eq htimeless t t', ht.trans (h.alike t).symm⟩

theorem asksAlike_of_resolve (hoperators : ∀ op ∈ operators, op.OnlyAsks)
    (htimeless : tiers.Timeless) (s : Session τ) {t : Session τ}
    (h : (resolve operators tiers name profile t).1 = .ok op) : op.AsksAlike s.Alike := by
  rcases resolve_cases h with ⟨hown, -⟩ | hregistry
  · exact (hoperators op hown).asksAlike _
  · intro input args
    exact (resolve_callsAs hregistry input args).mono (fun _ _ _ => trivial) fun _ hscript =>
      hscript.constant htimeless s

/-- A session whose breaker is off and that is not cancelled gives the same answers however much
it has loaded, if its own operators only ask and its scripts read no clock. -/
theorem functional (hoperators : ∀ op ∈ operators, op.OnlyAsks) (htimeless : tiers.Timeless)
    (hoff : s.registry.breaker.settings.enabled = false) (hrunning : s.cancelled = false) :
    (host operators tiers).Functional s.Alike where
  resolve name profile t ht := ht.trans (alike_resolve operators tiers name profile t).symm
  found name profile t op _ hop := (asksAlike_of_resolve hoperators htimeless s hop).staysIn
  record name tier success t ht := by
    have hquiet : t.registry.breaker.settings.enabled = false := by
      rw [← ht.registry.settings]
      exact hoff
    exact ht.trans ⟨(Registry.alike_record (.inl hquiet)).symm, rfl⟩
  preload library t ht := ht.trans (alike_preload library t).symm
  running t ht := ht.cancelled.symm.trans hrunning
  resolve_eq name profile ht ht' := (ht.symm.trans ht').resolve_eq operators tiers name profile
  asks _ hop := asksAlike_of_resolve hoperators htimeless s hop
  preload_eq library ht ht' := (ht.symm.trans ht').preload_eq library
  warnings_eq ht ht' := (ht.symm.trans ht').drainWarnings.1

/-- Where no operator of the core is called that itself calls or reads, a session follows itself
on any pools that agree where its own operators read. -/
theorem follows_of_agree {P : Session τ → Prop} (hhost : (host operators tiers).Functional P)
    {reads calls : String → Prop} (hcore : ∀ name, calls name → name ∉ Core.askers)
    (hreads : ∀ op ∈ operators, calls op.name → ∀ pool, op.Reads pool → reads pool)
    (hcalls : ∀ op ∈ operators, calls op.name → ∀ name, op.Calls name → calls name) :
    (host operators tiers).Follows calls
      (Operator.Follows (PoolStore.AgreeOn reads) (fun _ s s' => P s ∧ P s') (fun _ => False)
        (host operators tiers) (host operators tiers))
      (fun _ s s' => P s ∧ P s') (fun _ => False) (host operators tiers) := by
  have hlike : (host operators tiers).Follows calls
      (Operator.Like (fun s s' => P s ∧ P s') (fun _ => False) reads calls)
      (fun _ s s' => P s ∧ P s') (fun _ => False) (host operators tiers) := by
    refine hhost.follows fun {s name profile op} hname hs hop => ?_
    have hasks := hhost.asks hs hop
    rcases resolve_cases hop with ⟨hown, rfl⟩ | hregistry
    · exact hasks.like (hreads op hown hname) (hcalls op hown hname)
    · have hcomputes := Registry.resolve_computes (performs_scriptLibrary tiers) hregistry
        (hcore name hname)
      refine hasks.like ?_ ?_
      · rintro pool ⟨input, args, hpool⟩
        rcases hcomputes input args with ⟨result, hbody⟩ | ⟨effect, hbody⟩
        · rw [hbody] at hpool
          exact hpool.elim
        · rw [hbody] at hpool
          exact hpool.elim
      · rintro callee ⟨input, args, hcallee⟩
        rcases hcomputes input args with ⟨result, hbody⟩ | ⟨effect, hbody⟩
        · rw [hbody] at hcallee
          exact hcallee.elim
        · rw [hbody] at hcallee
          exact hcallee.elim
  exact hlike.mono (fun _ hname => hname) fun op op' hop => hop.follows hlike fun hagree => hagree

end Session

end Sluice
