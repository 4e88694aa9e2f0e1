import MacroDoc.Proofs.Expansion.Reported

/-!
# Strict mode cuts a run short

A run in strict mode and one that is not strict are the same, pass by pass, up to the first resolution with an unknown
macro. There the strict run ends, and the other one writes its first warning about an unknown macro.

* `Progress.Step.relax`, `Progress.Steps.relax` : the passes of a strict run are passes of one that is not;
* `Progress.Unwarned` : the invariant of a strict run that nothing was reported as unknown;
* `Resolver.strict_or_unknown` : a strict run is the same as the other one, or ends with an unknown macro that the
  other one warns about first;
* `Resolver.expandDocument_strict` : what the one says about the other.
-/

namespace MacroDoc

open Progress

variable {σ : Type}

def Config.withStrict (config : Config) (strict : Bool) : Config :=
  { config with strict }

theorem runPasses_diagnostics_prefix {resolver : Resolver σ σ} {config : Config} {dialect : Dialect} {remaining : Nat}
    {p : Progress σ} {report : Report} (hok : (runPasses resolver config dialect remaining p).result = .ok report) :
    p.report.diagnostics <+: report.diagnostics := by
  induction remaining generalizing p with
  | zero =>
    cases hok
    exact List.prefix_append _ _
  | succ remaining ih =>
    rcases hlookups : resolver.resolve dialect p.document p.state with ⟨e | resolution, state⟩
    · rw [runPasses_of_unavailable hlookups] at hok
      cases hok
    · by_cases hlenient : config.strict = true → resolution.unresolved = []
      · rw [runPasses_of_lenient hlookups hlenient] at hok
        split at hok
        · cases hok
          exact List.prefix_append _ _
        · have hrest := ih hok
          refine List.IsPrefix.trans ?_ hrest
          simp only [Progress.pass, reportUnresolved, List.append_assoc]
          exact List.prefix_append _ _
      · obtain ⟨hstrict, hunresolved⟩ := Classical.not_imp.1 hlenient
        obtain ⟨u, others, hu⟩ := List.exists_cons_of_ne_nil hunresolved
        rw [runPasses_of_unknown hlookups hstrict hu] at hok
        cases hok

namespace Progress

variable {resolver : Resolver σ σ} {config : Config} {dialect : Dialect} {p q : Progress σ} {k : Nat}

/-! ## In lock step -/

theorem Step.relax (h : Step resolver (config.withStrict true) dialect p q) :
    Step resolver (config.withStrict false) dialect p q := by
  cases h with
  | pass lookups lenient work => exact .pass lookups nofun work

theorem Steps.relax (h : Steps resolver (config.withStrict true) dialect p k q) :
    Steps resolver (config.withStrict false) dialect p k q := by
  induction h with
  | refl => exact .refl
  | tail _ step ih => exact ih.tail step.relax

/-- Nothing is reported as unknown. -/
structure Unwarned (q : Progress σ) : Prop where
  reported : q.reported = []
  warnings : q.report.ofKind .unresolvedMacro = []

theorem Step.unwarned (h : Step resolver (config.withStrict true) dialect p q) (hp : p.Unwarned) : q.Unwarned := by
  obtain ⟨resolution, -, hlenient, -, hadds⟩ := h.adds
  have hunresolved : resolution.unresolved = [] := hlenient rfl
  have hfresh : p.fresh resolution.unresolved = [] := by rw [hunresolved]; rfl
  constructor
  · rw [hadds.reported, hfresh, hp.reported]
    rfl
  · rw [Report.ofKind_eq_select, hadds.select rfl, select_reportUnresolved, hfresh, ← Report.ofKind_eq_select,
      hp.warnings]
    rfl

theorem Steps.unwarned {d : Document} {state : σ}
    (h : Steps resolver (config.withStrict true) dialect (.start d state) k q) : q.Unwarned :=
  h.preserves (fun _ _ hstep hp => hstep.unwarned hp) ⟨rfl, rfl⟩

/-! ## Where they part -/

/-- Where the strict run ends with an unknown macro, the other one warns about it first. -/
theorem Unwarned.first_warning (hq : q.Unwarned) {resolution : Resolution σ} {state : σ} {u : UnresolvedInvocation}
    {others : List UnresolvedInvocation}
    (hlookups : resolver.resolve dialect q.document q.state = (.ok resolution, state))
    (hunresolved : resolution.unresolved = u :: others) {remaining : Nat} {report : Report}
    (hok : (runPasses resolver (config.withStrict false) dialect (remaining + 1) q).result = .ok report) :
    ∃ g, (report.ofKind .unresolvedMacro).head? = some g ∧ g.label = u.label := by
  have hlenient : (config.withStrict false).strict = true → resolution.unresolved = [] := nofun
  have hprefix : ({ q with state := state }.reportUnresolved dialect resolution.unresolved).report.diagnostics <+:
      report.diagnostics := by
    rw [runPasses_of_lenient hlookups hlenient] at hok
    split at hok
    · cases hok
      exact List.prefix_rfl
    · have hrest := runPasses_diagnostics_prefix hok
      exact (List.prefix_append _ _).trans hrest
  have hfresh : { q with state := state }.fresh resolution.unresolved = u :: others := by
    rw [fresh, hunresolved, List.filter_eq_self]
    intro u _
    simp [hq.reported]
  have hwarnings := hprefix.filter fun g => g.kind = .unresolvedMacro
  rw [← Report.ofKind, ofKind_reportUnresolved, hfresh, hq.warnings] at hwarnings
  obtain ⟨rest, hrest⟩ := hwarnings
  refine ⟨unresolvedDiagnostic dialect (q.report.passes + 1) q.document.sourceId u, ?_, rfl⟩
  rw [Report.ofKind, ← hrest]
  rfl

end Progress

/-! ## Whole runs -/

/-- A strict run is the same as one that is not strict, or it ends with an unknown macro. If the other run succeeds,
then its first warning about an unknown macro is about the same invocation. -/
theorem Resolver.strict_or_unknown (resolver : Resolver σ σ) (config : Config) (dialect : Dialect) (d : Document)
    (state : σ) :
    let lenient := resolver.expandDocument (config.withStrict false) dialect d state
    let strict := resolver.expandDocument (config.withStrict true) dialect d state
    strict = lenient ∨
      ∃ u : UnresolvedInvocation, strict.result = .error (.unresolvedMacro u.identifier dialect u.span) ∧
        ∀ report, lenient.result = .ok report →
          ∃ g, (report.ofKind .unresolvedMacro).head? = some g ∧ g.label = u.label := by
  intro lenient strict
  by_cases hconfig : config.maxDepth = 0
  · have hzero (mode : Bool) : (config.withStrict mode).maxDepth = 0 := hconfig
    left
    show resolver.expandDocument _ dialect d state = resolver.expandDocument _ dialect d state
    rw [expandDocument_of_zero resolver (hzero true), expandDocument_of_zero resolver (hzero false)]
  have hvalid (mode : Bool) : (config.withStrict mode).maxDepth ≠ 0 := hconfig
  obtain ⟨k, q, hsteps, hends⟩ := resolver.exists_ends (hvalid true) dialect d state
  have hrelaxed := hsteps.relax
  have hsame (run : Run σ) (h : Ends resolver (config.withStrict false) dialect k q run) : run = lenient :=
    (h.eq_expandDocument (hvalid false) hrelaxed).symm
  change Ends resolver (config.withStrict true) dialect k q strict at hends
  generalize strict = strict at hends
  cases hends with
  | unavailable early lookups => exact .inl (hsame _ (.unavailable early lookups))
  | converged early lookups _ idle => exact .inl (hsame _ (.converged early lookups nofun idle))
  | stopped full => exact .inl (hsame _ (.stopped full))
  | @unknown resolution next u others early lookups _ unresolved =>
    refine .inr ⟨u, rfl, fun report hok => ?_⟩
    -- The run that is not strict goes on from here.
    obtain ⟨remaining, hremaining⟩ := Nat.exists_eq_add_of_lt early
    have hlimit : config.maxDepth = k + (remaining + 1) := hremaining
    have hlenient : lenient = runPasses resolver (config.withStrict false) dialect (remaining + 1) q := by
      rw [← hrelaxed.runPasses_eq, ← hlimit]
      exact expandDocument_of_ne_zero resolver (hvalid false) dialect d state
    rw [hlenient] at hok
    exact hsteps.unwarned.first_warning lookups unresolved hok

/-- Strict mode only cuts a run short. If a run that is not strict succeeds without a warning about an unknown macro,
then the strict run is the same, and so it is if the strict run succeeds. If the strict run fails because of an unknown
macro where the other succeeds, then the first warning of the other is about that invocation. If the other fails
because a lookup is not answered, then the strict run fails with the same error or because of an unknown macro. -/
theorem Resolver.expandDocument_strict (resolver : Resolver σ σ) (config : Config) (dialect : Dialect) (d : Document)
    (state : σ) :
    let lenient := resolver.expandDocument (config.withStrict false) dialect d state
    let strict := resolver.expandDocument (config.withStrict true) dialect d state
    (∀ report, lenient.result = .ok report → report.ofKind .unresolvedMacro = [] → strict = lenient) ∧
    (∀ report, strict.result = .ok report → lenient = strict) ∧
    (∀ identifier target span report, strict.result = .error (.unresolvedMacro identifier target span) →
      lenient.result = .ok report →
        ∃ g, (report.ofKind .unresolvedMacro).head? = some g ∧ g.identifier = identifier ∧ g.span = span) ∧
    (∀ identifier target cause, lenient.result = .error (.registryUnavailable identifier target cause) →
      strict.result = lenient.result ∨
        ∃ identifier' span, strict.result = .error (.unresolvedMacro identifier' dialect span)) := by
  intro lenient strict
  have hcases := resolver.strict_or_unknown config dialect d state
  change strict = lenient ∨ _ at hcases
  rcases hcases with hsame | ⟨u, hunknown, hfirst⟩
  · rw [hsame]
    refine ⟨fun _ _ _ => rfl, fun _ _ => rfl, ?_, fun _ _ _ _ => .inl rfl⟩
    intro identifier target span report hstrict hok
    rw [hok] at hstrict
    cases hstrict
  · refine ⟨?_, ?_, ?_, fun _ _ _ _ => .inr ⟨_, _, hunknown⟩⟩
    · intro report hok hquiet
      obtain ⟨g, hg, -⟩ := hfirst report hok
      rw [hquiet] at hg
      cases hg
    · intro report hok
      rw [hunknown] at hok
      cases hok
    · intro identifier target span report hstrict hok
      obtain ⟨g, hg, hlabel⟩ := hfirst report hok
      rw [hunknown] at hstrict
      obtain ⟨rfl, -, rfl⟩ := ExpansionError.unresolvedMacro.inj (Except.error.inj hstrict)
      exact ⟨g, hg, Prod.mk.inj hlabel⟩

/-- The macro `echo` yields a call of `other`, which a second pass looks up. With one pass only, the limit freezes the
call before strict mode meets it. -/
theorem Resolver.expandDocument_strict_echo :
    let run limit strict :=
      echoRegistry.lookup.resolver.expandDocument ⟨limit, strict, .ascending⟩ .default ⟨[bareCall "echo"], 0⟩ ()
    run 1 false = run 1 true ∧
      (run 2 true).result = .error (.unresolvedMacro "other" .default none) ∧
      ∃ report g, (run 2 false).result = .ok report ∧ (report.ofKind .unresolvedMacro).head? = some g ∧
        g.identifier = "other" ∧ g.span = none := by
  intro run
  obtain ⟨-, hsame, -, -⟩ :=
    expandDocument_strict echoRegistry.lookup.resolver ⟨1, false, .ascending⟩ .default ⟨[bareCall "echo"], 0⟩ ()
  obtain ⟨-, -, hfirst, -⟩ :=
    expandDocument_strict echoRegistry.lookup.resolver ⟨2, false, .ascending⟩ .default ⟨[bareCall "echo"], 0⟩ ()
  obtain ⟨early, hearly⟩ : ∃ report, (run 1 true).result = .ok report := Run.error?_eq_none.1 (by decide +kernel)
  obtain ⟨report, hok⟩ : ∃ report, (run 2 false).result = .ok report := Run.error?_eq_none.1 (by decide +kernel)
  have hfail : (run 2 true).result = .error (.unresolvedMacro "other" .default none) :=
    Run.error?_eq_some.1 (by decide +kernel)
  obtain ⟨g, hg, hidentifier, hspan⟩ := hfirst "other" .default none report hfail hok
  exact ⟨hsame early hearly, hfail, report, g, hok, hg, hidentifier, hspan⟩

end MacroDoc
