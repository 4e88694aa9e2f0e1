import MacroDoc.Proofs.Expansion.Reported

/-!
# A higher limit of passes

The limit of passes matters only to runs that reach it with something pending. Any other run is the same with a higher
limit, also if it took as many passes as it might: then one more resolution finds nothing that is not reported yet.

* `Resolver.KeepsUnknown` : the registry does not come to know a macro that it did not know before;
* `Progress.Steps.raise`, `Progress.Ends.raise` : the passes and the endings before the limit;
* `Progress.Steps.unknown_of_quiet` : what is left if nothing is pending after a pass;
* `Resolver.expandDocument_raise` : a run that leaves nothing to the limit;
* `Resolver.not_expandDocument_raise` : not so for every registry.
-/

namespace MacroDoc

open Progress

variable {σ : Type}

/-- A macro that the registry does not know stays unknown, whatever becomes of the state. A registry maps identifiers
and dialects to expanders, so this is less than what is asked of it. -/
def Resolver.KeepsUnknown {τ : Type} (resolver : Resolver τ σ) : Prop :=
  ∀ identifier dialect state state', (resolver identifier dialect state).1 = .ok none →
    (resolver identifier dialect state').1 = .ok none

theorem Resolver.Answers.keepsUnknown {τ : Type} {resolver : Resolver τ σ} {lookup : Lookup σ}
    (ha : resolver.Answers lookup) : resolver.KeepsUnknown := by
  intro identifier dialect state state' h
  rw [ha] at h ⊢
  exact h

def Config.withMaxDepth (config : Config) (limit : Nat) : Config :=
  { config with maxDepth := limit }

namespace Progress

variable {resolver : Resolver σ σ} {config : Config} {dialect : Dialect} {d : Document} {state : σ}
  {p q : Progress σ} {k : Nat}

/-! ## Before the limit -/

theorem Step.raise (h : Step resolver config dialect p q) (limit : Nat) :
    Step resolver (config.withMaxDepth limit) dialect p q := by
  cases h with
  | pass lookups lenient work => exact .pass lookups lenient work

theorem Steps.raise (h : Steps resolver config dialect p k q) (limit : Nat) :
    Steps resolver (config.withMaxDepth limit) dialect p k q := by
  induction h with
  | refl => exact .refl
  | tail _ step ih => exact ih.tail (step.raise limit)

/-- A run that ends before the limit ends in the same way if the limit is higher. -/
theorem Ends.raise {run : Run σ} (h : Ends resolver config dialect k q run) (early : k < config.maxDepth) {limit : Nat}
    (hlimit : config.maxDepth ≤ limit) : Ends resolver (config.withMaxDepth limit) dialect k q run := by
  have hearly : k < (config.withMaxDepth limit).maxDepth := Nat.lt_of_lt_of_le early hlimit
  cases h with
  | unavailable _ lookups => exact .unavailable hearly lookups
  | unknown _ lookups strict unresolved => exact .unknown hearly lookups strict unresolved
  | converged _ lookups lenient idle => exact .converged hearly lookups lenient idle
  | stopped full => exact absurd full (Nat.ne_of_lt early)

/-! ## At the limit -/

/-- All that is left is reported, and at some time the registry did not know it. In strict mode nothing is left. -/
def Exhausted (resolver : Resolver σ σ) (config : Config) (dialect : Dialect) (q : Progress σ) : Prop :=
  ∀ i ∈ q.document.invocations, i.path ∈ q.reported ∧ config.strict = false ∧
    ∃ state, (resolver i.invocation.identifier dialect state).1 = .ok none

theorem Exhausted.raise (h : Exhausted resolver config dialect q) (limit : Nat) :
    Exhausted resolver (config.withMaxDepth limit) dialect q := h

/-- This is so after a pass that leaves nothing pending. -/
theorem Step.exhausted (h : Step resolver config dialect p q) (hquiet : pendingBelow q.markers q.document = []) :
    Exhausted resolver config dialect q := by
  intro i hi
  obtain ⟨resolution, hlookups, hlenient, hleft⟩ := h.left_reported
  have huncovered : ∀ m ∈ q.markers, m.isAncestorOf i.path = false := by
    intro m hm
    rw [Bool.eq_false_iff]
    intro hanc
    have hpending : i ∈ pendingBelow q.markers q.document := mem_pendingBelow.2 ⟨hi, m, hm, hanc⟩
    rw [hquiet] at hpending
    cases hpending
  obtain ⟨hunresolved, hreported⟩ := hleft i hi huncovered
  refine ⟨hreported, ?_, Resolver.exists_answer_of_mem_unresolved hlookups hunresolved⟩
  rw [Bool.eq_false_iff]
  intro hstrict
  rw [hlenient hstrict] at hunresolved
  cases hunresolved

/-- Then the next resolution finds nothing. -/
theorem Exhausted.resolve_eq (h : Exhausted resolver config dialect q)
    (hknown : config.strict = true ∨ resolver.KeepsUnknown) (state : σ) :
    (resolver.resolve dialect q.document state).1 =
      .ok ⟨[], q.document.invocations.map PlacedInvocation.unresolved⟩ := by
  apply Resolver.resolve_of_unknown
  intro i hi state'
  obtain ⟨-, hlenient, before, hbefore⟩ := h i hi
  rcases hknown with hstrict | hkeeps
  · rw [hlenient] at hstrict
    cases hstrict
  · exact hkeeps _ _ before state' hbefore

theorem Exhausted.reportUnresolved_eq (h : Exhausted resolver config dialect q) :
    q.reportUnresolved dialect (q.document.invocations.map PlacedInvocation.unresolved) = q := by
  have hfresh : q.fresh (q.document.invocations.map PlacedInvocation.unresolved) = [] := by
    rw [fresh, List.filter_eq_nil_iff]
    intro u hu
    obtain ⟨i, hi, rfl⟩ := List.mem_map.1 hu
    have hreported : i.unresolved.path ∈ q.reported := (h i hi).1
    simpa using hreported
  unfold fresh at hfresh
  simp only [reportUnresolved, hfresh, List.map_nil, List.append_nil]

/-- So a run with a higher limit ends here. -/
theorem Exhausted.ends (h : Exhausted resolver config dialect q)
    (hknown : config.strict = true ∨ resolver.KeepsUnknown) (hk : k < config.maxDepth) :
    ∃ run, Ends resolver config dialect k q run ∧ run.result = .ok q.report ∧ run.document = q.document := by
  rcases hresolve : resolver.resolve dialect q.document q.state with ⟨answer, state⟩
  have hanswer := h.resolve_eq hknown q.state
  rw [hresolve] at hanswer
  simp only at hanswer
  subst hanswer
  have hlenient : config.strict = true → q.document.invocations.map PlacedInvocation.unresolved = [] := by
    intro hstrict
    rw [List.map_eq_nil_iff, List.eq_nil_iff_forall_not_mem]
    intro i hi
    obtain ⟨-, hlenient, -⟩ := h i hi
    rw [hstrict] at hlenient
    cases hlenient
  refine ⟨_, .converged hk hresolve hlenient rfl, ?_, rfl⟩
  have hnext : Exhausted resolver config dialect { q with state := state } := h
  show Except.ok ({ q with state := state }.reportUnresolved dialect _).report = _
  rw [hnext.reportUnresolved_eq]

theorem pendingBelow_of_quiet {limit : Nat} {report : Report} (hok : (q.stop limit).result = .ok report)
    (hquiet : ∀ g ∈ report.diagnostics, g.kind ≠ .recursionLimitExceeded) :
    pendingBelow q.markers q.document = [] := by
  rw [List.eq_nil_iff_forall_not_mem]
  intro i hi
  cases hok
  exact hquiet _ (List.mem_append_right _ (List.mem_map_of_mem hi)) rfl

theorem stop_of_quiet (hquiet : pendingBelow q.markers q.document = []) (limit : Nat) :
    q.stop limit = q.finish := by
  simp only [stop, finish, freeze, hquiet, List.map_nil, List.append_nil, List.foldl_nil]

end Progress

/-! ## Whole runs -/

/-- A run that succeeds and leaves nothing to the limit of passes is the same with a higher limit. In strict mode this
holds of any registry; else of one that does not come to know macros that it did not know. -/
theorem Resolver.expandDocument_raise {resolver : Resolver σ σ} {config : Config}
    (hknown : config.strict = true ∨ resolver.KeepsUnknown) {limit : Nat} (hlimit : config.maxDepth ≤ limit)
    {dialect : Dialect} {d : Document} {state : σ} {report : Report}
    (hok : (resolver.expandDocument config dialect d state).result = .ok report)
    (hquiet : ∀ g ∈ report.diagnostics, g.kind ≠ .recursionLimitExceeded) :
    (resolver.expandDocument (config.withMaxDepth limit) dialect d state).result = .ok report ∧
      (resolver.expandDocument (config.withMaxDepth limit) dialect d state).document =
        (resolver.expandDocument config dialect d state).document := by
  have hconfig : config.maxDepth ≠ 0 := maxDepth_of_ok hok
  obtain ⟨k, q, hsteps, hends⟩ := resolver.exists_ends hconfig dialect d state
  have hconfig' : (config.withMaxDepth limit).maxDepth ≠ 0 :=
    Nat.ne_of_gt (Nat.lt_of_lt_of_le (Nat.pos_of_ne_zero hconfig) hlimit)
  rcases Nat.lt_or_eq_of_le hends.le with early | full
  · rw [(hends.raise early hlimit).eq_expandDocument hconfig' (hsteps.raise limit)]
    exact ⟨hok, rfl⟩
  · rcases Nat.lt_or_eq_of_le hlimit with hlt | rfl
    · generalize resolver.expandDocument config dialect d state = run at hends hok
      cases hends with
      | unavailable early => omega
      | unknown early => omega
      | converged early => omega
      | stopped =>
        have hpending := pendingBelow_of_quiet hok hquiet
        obtain ⟨r, hstep⟩ := hsteps.exists_last (full ▸ hconfig)
        -- One more resolution finds nothing, and the run with the higher limit ends with it.
        obtain ⟨run, hends, hresult, hdocument⟩ := ((hstep.exhausted hpending).raise limit).ends hknown (full ▸ hlt)
        rw [hends.eq_expandDocument hconfig' (hsteps.raise limit)]
        rw [stop_of_quiet hpending] at hok ⊢
        exact ⟨hresult.trans hok, hdocument⟩
    · exact ⟨hok, rfl⟩

def codeRegistry : Registry Unit :=
  Registry.empty.registerForAll "code" Macros.code

def codeDocument : Document :=
  ⟨[.leaf (.invocation ⟨⟨"code", .empty, some "x"⟩, .default, none⟩), bareCall "other"], 0⟩

/-- One pass is just enough for it, and a run that may take three meets the call of `other` once more. -/
theorem Resolver.expandDocument_raise_code :
    let run limit := codeRegistry.lookup.resolver.expandDocument ⟨limit, false, .ascending⟩ .default codeDocument ()
    ∃ report, (run 1).result = .ok report ∧ report.passes = 1 ∧
      report.diagnostics.map (fun g => (g.kind, g.pass)) = [(.unresolvedMacro, 1)] ∧
      (run 3).result = .ok report ∧ (run 3).document = (run 1).document := by
  intro run
  let unknown : Diagnostic := unresolvedDiagnostic .default 1 0 ⟨⟨[1]⟩, "other", none⟩
  have hok : (run 1).result = .ok ⟨1, 1, [unknown]⟩ := by decide +kernel
  have hquiet : ∀ g ∈ [unknown], g.kind ≠ .recursionLimitExceeded := by decide +kernel
  have hknown : (codeRegistry.lookup.resolver : Resolver Unit Unit).KeepsUnknown :=
    (Lookup.answers_resolver codeRegistry.lookup).keepsUnknown
  obtain ⟨hresult, hdocument⟩ := expandDocument_raise (.inr hknown) (show 1 ≤ 3 by decide) hok hquiet
  exact ⟨_, hok, rfl, rfl, hresult, hdocument⟩

/-- Without the condition on the registry this fails. `Resolver.late` leaves the first of two calls of `code` to be
expanded in a second pass, which a limit of one pass does not allow and does not report. -/
theorem Resolver.not_expandDocument_raise :
    ¬ ∀ (resolver : Resolver Bool Bool) (config : Config) (limit : Nat), config.maxDepth ≤ limit →
      ∀ (dialect : Dialect) (d : Document) (state : Bool) (report : Report),
        (resolver.expandDocument config dialect d state).result = .ok report →
        (∀ g ∈ report.diagnostics, g.kind ≠ .recursionLimitExceeded) →
        (resolver.expandDocument (config.withMaxDepth limit) dialect d state).result = .ok report ∧
          (resolver.expandDocument (config.withMaxDepth limit) dialect d state).document =
            (resolver.expandDocument config dialect d state).document := by
  intro h
  let run limit := late.expandDocument ⟨limit, false, .ascending⟩ .default ⟨[codeCall, codeCall], 0⟩ false
  let unknown : Diagnostic := unresolvedDiagnostic .default 1 0 ⟨⟨[0]⟩, "code", none⟩
  have hone : (run 1).result = .ok ⟨1, 1, [unknown]⟩ := by decide +kernel
  have htwo : (run 2).result = .ok ⟨2, 2, [unknown]⟩ := by decide +kernel
  have hquiet : ∀ g ∈ [unknown], g.kind ≠ .recursionLimitExceeded := by decide +kernel
  obtain ⟨hresult, -⟩ := h late ⟨1, false, .ascending⟩ 2 (by decide) .default _ false _ hone hquiet
  exact absurd (htwo.symm.trans hresult) (by decide +kernel)

end MacroDoc
